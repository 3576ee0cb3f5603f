import Switchboard.Decimal.Numeral
import Switchboard.Expression.Error
import Switchboard.Text.Class
import Switchboard.Text.Width

/-! From characters to tokens. White space separates tokens and is otherwise ignored; every other
character belongs to the token that starts at or before it. -/
namespace Switchboard.Expression

def startsName (c : Char) : Bool := Text.isLetter c || c == '_'

def continuesName (c : Char) : Bool := Text.isLetter c || Text.isNumeral c || c == '_'

/-- The character that a backslash and `c` stand for. -/
def unescape (c : Char) : Char := if c = 'n' then '\n' else if c = 't' then '\t' else c

/-- The content of a string up to its closing quote, and the text after that quote. -/
def scanString (quote : Char) : List Char → Option (List Char × List Char)
  | [] => none
  | c :: s =>
    if c = quote then some ([], s)
    else if c = '\\' then
      match s with
      | [] => none
      | e :: s => (scanString quote s).map fun (content, rest) => (unescape e :: content, rest)
    else (scanString quote s).map fun (content, rest) => (c :: content, rest)

/-- The digits and points that continue a number. A point belongs to it only before a digit, so
that a method may follow a number. -/
def scanNumber : List Char → List Char × List Char
  | [] => ([], [])
  | c :: s =>
    if c.isDigit || c == '.' && s.head?.any Char.isDigit then
      let (digits, rest) := scanNumber s
      (c :: digits, rest)
    else ([], c :: s)

/-- The characters that continue a name. -/
def scanName : List Char → List Char × List Char
  | [] => ([], [])
  | c :: s =>
    if continuesName c then
      let (name, rest) := scanName s
      (c :: name, rest)
    else ([], c :: s)

theorem scanNumber_append (s : List Char) : (scanNumber s).1 ++ (scanNumber s).2 = s := by
  induction s with
  | nil => rfl
  | cons c s ih =>
    unfold scanNumber
    split <;> simp [ih]

theorem scanName_append (s : List Char) : (scanName s).1 ++ (scanName s).2 = s := by
  induction s with
  | nil => rfl
  | cons c s ih =>
    unfold scanName
    split <;> simp [ih]

theorem scanString_length {quote : Char} {s content rest : List Char}
    (h : scanString quote s = some (content, rest)) : rest.length < s.length := by
  fun_induction scanString quote s generalizing content rest with
  | case1 => cases h
  | case2 => cases h; simp
  | case3 => cases h
  | case4 _ e s ih =>
    obtain ⟨⟨_, r⟩, hr, hp⟩ := Option.map_eq_some_iff.mp h
    cases hp
    have := ih hr
    simp
    omega
  | case5 c s _ _ ih =>
    obtain ⟨⟨_, r⟩, hr, hp⟩ := Option.map_eq_some_iff.mp h
    cases hp
    have := ih hr
    simp
    omega

theorem scanNumber_length (s : List Char) : (scanNumber s).2.length ≤ s.length := by
  have := congrArg List.length (scanNumber_append s)
  simp at this
  omega

theorem scanName_length (s : List Char) : (scanName s).2.length ≤ s.length := by
  have := congrArg List.length (scanName_append s)
  simp at this
  omega

/-- Characters that are a token each. -/
def punctuation? (c : Char) : Option Token :=
  if c = '$' then some .dollar
  else if c = '.' then some .dot
  else if c = ',' then some .comma
  else if c = ':' then some .colon
  else if c = '(' then some .openParen
  else if c = ')' then some .closeParen
  else if c = '[' then some .openBracket
  else if c = ']' then some .closeBracket
  else if c = '\x7b' then some .openBrace
  else if c = '\x7d' then some .closeBrace
  else none

/-- The longest operator that starts with `c`, and the text after it. -/
def operator? (c : Char) (s : List Char) : Option (Token × List Char) :=
  if c = '=' then
    match s with
    | '>' :: r => some (.arrow, r)
    | '=' :: '=' :: r => some (.op .strictEq, r)
    | '=' :: r => some (.op .eq, r)
    | _ => none
  else if c = '!' then
    match s with
    | '=' :: '=' :: r => some (.op .strictNe, r)
    | '=' :: r => some (.op .ne, r)
    | r => some (.not, r)
  else if c = '>' then
    match s with
    | '=' :: r => some (.op .ge, r)
    | r => some (.op .gt, r)
  else if c = '<' then
    match s with
    | '=' :: r => some (.op .le, r)
    | r => some (.op .lt, r)
  else if c = '&' then
    match s with
    | '&' :: r => some (.op .and, r)
    | _ => none
  else if c = '|' then
    match s with
    | '|' :: r => some (.op .or, r)
    | _ => none
  else none

theorem operator?_length {c : Char} {s r : List Char} {t : Token}
    (h : operator? c s = some (t, r)) : r.length ≤ s.length := by
  unfold operator? at h
  repeat' split at h
  all_goals cases h <;> simp <;> omega

/-- The token that starts with `c`, and the text after it. -/
def scanToken (pos : Nat) (c : Char) (s : List Char) : Except ParseError (Token × List Char) :=
  match punctuation? c with
  | some t => .ok (t, s)
  | none =>
    if c = '"' ∨ c = '\'' then
      match scanString c s with
      | some (content, rest) => .ok (.text (String.ofList content), rest)
      | none => .error (.unterminatedString pos)
    else if c = '-' ∨ c.isDigit then
      let (digits, rest) := scanNumber s
      match Decimal.float? (c :: digits) with
      | some x => .ok (.number x, rest)
      | none => .error (.invalidNumber (String.ofList (c :: digits)) pos)
    else if startsName c then
      let (letters, rest) := scanName s
      .ok (.name (String.ofList (c :: letters)), rest)
    else
      match operator? c s with
      | some (t, rest) => .ok (t, rest)
      | none => .error (.unexpectedChar c pos)

theorem scanToken_length {pos : Nat} {c : Char} {s r : List Char} {t : Token}
    (h : scanToken pos c s = .ok (t, r)) : r.length ≤ s.length := by
  unfold scanToken at h
  split at h
  · cases h; exact Nat.le_refl _
  · split at h
    · split at h
      · rename_i hs
        cases h
        exact Nat.le_of_lt (scanString_length hs)
      · cases h
    · split at h
      · simp only at h
        split at h
        · cases h
          exact scanNumber_length s
        · cases h
      · split at h
        · cases h
          exact scanName_length s
        · split at h
          · rename_i ho
            cases h
            exact operator?_length ho
          · cases h

/-- What was read of `s` when `rest` is left. -/
def lexeme (s rest : List Char) : List Char := s.take (s.length - rest.length)

/-- The tokens of a text that starts at byte `pos`. -/
def tokenize (pos : Nat) (s : List Char) : Except ParseError (List Located) :=
  match s with
  | [] => .ok []
  | c :: s =>
    if Text.isWhite c then tokenize (pos + c.utf8Size) s
    else
      match h : scanToken pos c s with
      | .error e => .error e
      | .ok (t, rest) =>
        have := scanToken_length h
        match tokenize (pos + Text.width (lexeme (c :: s) rest)) rest with
        | .error e => .error e
        | .ok ts => .ok (⟨t, pos⟩ :: ts)
termination_by s.length

end Switchboard.Expression
