import Switchboard.Json.Basic
import Switchboard.Text.Width

/-! Reading JSON text. A fault is reported with its line and the count of bytes on that line up to
the byte at fault; arrays and objects nest at most 127 deep. -/
namespace Switchboard.Json

/-- What is wrong with a text. -/
inductive Flaw where
  | endOfValue
  | endOfList
  | endOfObject
  | endOfString
  | expectedColon
  | expectedListComma
  | expectedObjectComma
  | expectedWord
  | expectedValue
  | invalidEscape
  | invalidNumber
  | numberOutOfRange
  | loneSurrogate
  | controlCharacter
  | keyNotString
  | trailingComma
  | trailingCharacters
  | endOfHexEscape
  | tooDeep
  deriving DecidableEq

def Flaw.message : Flaw → String
  | endOfValue => "EOF while parsing a value"
  | endOfList => "EOF while parsing a list"
  | endOfObject => "EOF while parsing an object"
  | endOfString => "EOF while parsing a string"
  | expectedColon => "expected \x60:\x60"
  | expectedListComma => "expected \x60,\x60 or \x60]\x60"
  | expectedObjectComma => "expected \x60,\x60 or \x60\x7d\x60"
  | expectedWord => "expected ident"
  | expectedValue => "expected value"
  | invalidEscape => "invalid escape"
  | invalidNumber => "invalid number"
  | numberOutOfRange => "number out of range"
  | loneSurrogate => "lone leading surrogate in hex escape"
  | controlCharacter => "control character (\\u0000-\\u001F) found while parsing a string"
  | keyNotString => "key must be a string"
  | trailingComma => "trailing comma"
  | trailingCharacters => "trailing characters"
  | endOfHexEscape => "unexpected end of hex escape"
  | tooDeep => "recursion limit exceeded"

/-- How far a text has been read: the line, and the bytes read on it. -/
structure Mark where
  line : Nat
  column : Nat

structure ReadError where
  flaw : Flaw
  mark : Mark

def ReadError.message (e : ReadError) : String :=
  e.flaw.message ++ " at line " ++ toString e.mark.line ++ " column " ++ toString e.mark.column

namespace Mark

/-- One character further. -/
def after (m : Mark) (c : Char) : Mark :=
  if c = '\n' then ⟨m.line + 1, 0⟩ else ⟨m.line, m.column + c.utf8Size⟩

/-- One byte further, if the text goes on. -/
def peek (m : Mark) : List Char → Mark
  | [] => m
  | c :: _ => if c = '\n' then ⟨m.line + 1, 0⟩ else ⟨m.line, m.column + 1⟩

def skipBytes (m : Mark) : Nat → List Char → Mark
  | 0, _ => m
  | _, [] => m
  | n + 1, c :: s =>
    if n + 1 < c.utf8Size then ⟨m.line, m.column + n + 1⟩
    else skipBytes (m.after c) (n + 1 - c.utf8Size) s

end Mark

/-- What has been read off the front of `s`, and the rest; something is always consumed. -/
abbrev Taken (s : List Char) (α : Type) := α × Mark × { r : List Char // r.length < s.length }

def isBlank (c : Char) : Bool := c = ' ' || c = '\n' || c = '\t' || c = '\r'

def skipBlanks (m : Mark) : List Char → Mark × List Char
  | [] => (m, [])
  | c :: s => if isBlank c then skipBlanks (m.after c) s else (m, c :: s)

theorem length_skipBlanks (m : Mark) (s : List Char) : (skipBlanks m s).2.length ≤ s.length := by
  induction s generalizing m with
  | nil => simp [skipBlanks]
  | cons c s ih =>
    unfold skipBlanks
    split
    · exact Nat.le_succ_of_le (ih _)
    · simp

theorem length_le_of_skipBlanks {m m' : Mark} {s r : List Char} (h : skipBlanks m s = (m', r)) :
    r.length ≤ s.length := by
  have := length_skipBlanks m s
  rwa [h] at this

/-- The letters of a word in turn. -/
def readWord (m : Mark) : List Char → (s : List Char) →
    Except ReadError (Mark × { r : List Char // r.length ≤ s.length })
  | [], s => .ok (m, ⟨s, Nat.le_refl _⟩)
  | _ :: _, [] => .error ⟨.endOfValue, m⟩
  | e :: es, c :: s =>
    if c = e then do
      let (m', ⟨r, h⟩) ← readWord (m.after c) es s
      .ok (m', ⟨r, Nat.le_succ_of_le h⟩)
    else .error ⟨.expectedWord, m.peek (c :: s)⟩

def hexValue? (c : Char) : Option Nat :=
  if '0' ≤ c ∧ c ≤ '9' then some (c.toNat - 48)
  else if 'a' ≤ c ∧ c ≤ 'f' then some (c.toNat - 87)
  else if 'A' ≤ c ∧ c ≤ 'F' then some (c.toNat - 55)
  else none

def hexQuad? (a b c d : Char) : Option Nat := do
  some (4096 * (← hexValue? a) + 256 * (← hexValue? b) + 16 * (← hexValue? c) + (← hexValue? d))

/-- Four bytes that write a number of sixteen bits. -/
def readHex (m : Mark) (s : List Char) : Except ReadError (Nat × Mark × List Char) :=
  if Text.width (s.take 4) < 4 then .error ⟨.endOfString, m.skipBytes 4 s⟩
  else
    match s with
    | a :: b :: c :: d :: r =>
      match hexQuad? a b c d with
      | some n => .ok (n, m.skipBytes 4 s, r)
      | none => .error ⟨.invalidEscape, m.skipBytes 4 s⟩
    | s => .error ⟨.invalidEscape, m.skipBytes 4 s⟩

theorem readHex_length {m m' : Mark} {s r : List Char} {n : Nat}
    (h : readHex m s = .ok (n, m', r)) : r.length < s.length := by
  unfold readHex at h
  split at h
  · cases h
  · split at h
    · split at h
      · cases h
        simp
        omega
      · cases h
    · cases h

def isLeading (n : Nat) : Bool := 0xD800 ≤ n && n ≤ 0xDBFF

def isTrailing (n : Nat) : Bool := 0xDC00 ≤ n && n ≤ 0xDFFF

/-- The character of an escape that began with its hexadecimal mark; a leading surrogate needs its
trailing partner in a second escape. -/
def readUnicode (m : Mark) (s : List Char) :
    Except ReadError (Taken s Char) :=
  match h : readHex m s with
  | .error e => .error e
  | .ok (n, m, r) =>
    have hr := readHex_length h
    if isTrailing n then .error ⟨.loneSurrogate, m⟩
    else if !isLeading n then .ok (Char.ofNat n, m, ⟨r, hr⟩)
    else
      match r, hr with
      | [], _ => .error ⟨.endOfString, m⟩
      | '\\' :: [], _ => .error ⟨.endOfString, m.after '\\'⟩
      | '\\' :: 'u' :: r, hr =>
        match h' : readHex ((m.after '\\').after 'u') r with
        | .error e => .error e
        | .ok (n', m', r') =>
          have hr' := readHex_length h'
          if isTrailing n' then
            .ok (Char.ofNat (0x10000 + (n - 0xD800) * 0x400 + (n' - 0xDC00)), m',
              ⟨r', by simp at hr; omega⟩)
          else .error ⟨.loneSurrogate, m'⟩
      | '\\' :: c :: _, _ => .error ⟨.endOfHexEscape, (m.after '\\').peek [c]⟩
      | c :: _, _ => .error ⟨.endOfHexEscape, m.peek [c]⟩

/-- The character that an escape letter stands for. -/
def unescape? (c : Char) : Option Char :=
  if c = '"' ∨ c = '\\' ∨ c = '/' then some c
  else if c = 'b' then some (Char.ofNat 8)
  else if c = 'f' then some (Char.ofNat 12)
  else if c = 'n' then some '\n'
  else if c = 'r' then some '\r'
  else if c = 't' then some '\t'
  else none

/-- The rest of a string, whose opening quote has been read. -/
def readString (m : Mark) (s : List Char) : Except ReadError (Taken s (List Char)) :=
  match s with
  | [] => .error ⟨.endOfString, m⟩
  | c :: r =>
    if c = '"' then .ok ([], m.after c, ⟨r, by simp⟩)
    else if c = '\\' then
      match r with
      | [] => .error ⟨.endOfString, m.after c⟩
      | e :: r =>
        let m := m.after c
        if e = 'u' then do
          let (d, m, ⟨r', hr⟩) ← readUnicode (m.after e) r
          let (cs, m, ⟨r'', hr'⟩) ← readString m r'
          .ok (d :: cs, m, ⟨r'', by simp; omega⟩)
        else
          match unescape? e with
          | none => .error ⟨.invalidEscape, m.peek [e]⟩
          | some d => do
            let (cs, m, ⟨r', hr⟩) ← readString (m.after e) r
            .ok (d :: cs, m, ⟨r', by simp; omega⟩)
    else if c.toNat < 32 then .error ⟨.controlCharacter, m.peek [c]⟩
    else do
      let (cs, m, ⟨r', hr⟩) ← readString (m.after c) r
      .ok (c :: cs, m, ⟨r', by simp; omega⟩)
termination_by s.length

/-- Digits taken into a significand as long as it fits in 64 bits, and the digits left over. -/
def takeDigits (n : Nat) : List Char → Nat × List Char
  | [] => (n, [])
  | c :: s =>
    let n' := 10 * n + (c.toNat - 48)
    if n' < 0x10000000000000000 then takeDigits n' s else (n, c :: s)

/-- The significand moved by a power of ten, in steps of at most 308 places; nothing if it grows
beyond every finite number. -/
def scaleFloat (x : Float) (exp : Int) : Option Float :=
  if 308 < exp then if x == 0 then some x else none
  else if 0 ≤ exp then
    let y := x * .ofScientific 1 false exp.toNat
    if Decimal.isFinite y then some y else none
  else if exp < -308 then
    if x == 0 then some x else scaleFloat (x / .ofScientific 1 false 308) (exp + 308)
  else some (x / .ofScientific 1 false (-exp).toNat)
termination_by (-exp).toNat

/-- The digits after a point. -/
def fractionDigits : List Char → Option (List Char)
  | '.' :: s => some (s.takeWhile Char.isDigit)
  | _ => none

/-- After an exponent mark: whether the exponent is negative, the width of its sign, its digits. -/
def exponentDigits : List Char → Option (Bool × Nat × List Char)
  | c :: s =>
    if c = 'e' ∨ c = 'E' then
      match s with
      | '-' :: s => some (true, 1, s.takeWhile Char.isDigit)
      | '+' :: s => some (false, 1, s.takeWhile Char.isDigit)
      | s => some (false, 0, s.takeWhile Char.isDigit)
    else none
  | [] => none

/-- The value of exponent digits while it fits in 31 bits, else how many of them were too many. -/
def takeExponent (n k : Nat) : List Char → Except Nat Nat
  | [] => .ok n
  | c :: s =>
    let n' := 10 * n + (c.toNat - 48)
    if n' < 0x80000000 then takeExponent n' (k + 1) s else .error (k + 1)

/-- A number whose first digit has been read: its value, and the count of characters it goes on
for. A flaw comes with the count of characters before it. -/
def readNumber (negative : Bool) (first : Char) (s : List Char) :
    Except (Flaw × Nat) (Number × Nat) :=
  let sign (x : Float) : Number := .float (if negative then -x else x)
  let digits := s.takeWhile Char.isDigit
  let (sig, spare) := takeDigits 0 (first :: digits)
  let k := digits.length
  let fraction := fractionDigits (s.drop k)
  let (sig', lost) := takeDigits sig (fraction.getD [])
  let exp : Int := spare.length - ((fraction.getD []).length - lost.length)
  let k' := k + (fraction.map fun ds => ds.length + 1).getD 0
  if first = '0' ∧ digits ≠ [] then .error (.invalidNumber, 0)
  else if fraction = some [] then
    .error (if s.drop k' = [] then .endOfValue else .invalidNumber, k')
  else
    let scaled (exp : Int) (k : Nat) : Except (Flaw × Nat) (Number × Nat) :=
      match scaleFloat (.ofNat sig') exp with
      | some x => .ok (sign x, k)
      | none => .error (.numberOutOfRange, k)
    match exponentDigits (s.drop k') with
    | some (down, width, ds) =>
      let k := k' + 1 + width
      if ds = [] then .error (if s.drop k = [] then .endOfValue else .invalidNumber, k)
      else
        match takeExponent 0 0 ds with
        | .ok e => scaled (if down then exp - e else exp + e) (k + ds.length)
        | .error used =>
          if sig' ≠ 0 ∧ !down then .error (.numberOutOfRange, k + used)
          else .ok (sign 0, k + ds.length)
    | none =>
      if fraction.isSome || spare ≠ [] then scaled exp k'
      else if !negative then .ok (.int sig', k')
      else if sig' = 0 ∨ 0x8000000000000000 < sig' then .ok (sign (.ofNat sig'), k')
      else .ok (.int (-sig'), k')

def Mark.plus (m : Mark) (n : Nat) : Mark := ⟨m.line, m.column + n⟩

/-- A number, its sign already read. -/
def stepNumber (negative : Bool) (m : Mark) (s : List Char) : Except ReadError (Taken s Json) :=
  match s with
  | [] => .error ⟨.endOfValue, m⟩
  | c :: r =>
    if !c.isDigit then .error ⟨.invalidNumber, m.peek (c :: r)⟩
    else
      let m := m.after c
      match readNumber negative c r with
      | .error (.numberOutOfRange, k) => .error ⟨.numberOutOfRange, m.plus k⟩
      | .error (flaw, k) => .error ⟨flaw, (m.plus k).peek (r.drop k)⟩
      | .ok (n, k) =>
        .ok (.num n, m.plus k, ⟨r.drop k, by simp only [List.length_drop, List.length_cons]; omega⟩)

/-- A word that stands for a value, its first letter already read. -/
def stepWord (word : String) (v : Json) (m : Mark) (c : Char) (r : List Char) :
    Except ReadError (Taken (c :: r) Json) := do
  let (m, ⟨r', h⟩) ← readWord m word.toList r
  .ok (v, m, ⟨r', Nat.lt_succ_of_le h⟩)

/-- A colon with blanks before it. -/
def stepColon (m : Mark) (s : List Char) : Except ReadError (Taken s Unit) :=
  match h : skipBlanks m s with
  | (m, []) => .error ⟨.endOfObject, m⟩
  | (m, c :: r) =>
    have hr := length_le_of_skipBlanks h
    if c = ':' then .ok ((), m.after c, ⟨r, by simp at hr; omega⟩)
    else .error ⟨.expectedColon, m.peek [c]⟩

mutual

/-- A value with blanks before it. `depth` levels of nesting are still allowed. -/
def stepValue (depth : Nat) (m : Mark) (s : List Char) : Except ReadError (Taken s Json) :=
  match h : skipBlanks m s with
  | (m, []) => .error ⟨.endOfValue, m⟩
  | (m, c :: r) =>
    have hr := length_le_of_skipBlanks h
    have hr' : r.length < s.length := by simp at hr; omega
    let longer {α : Type} (x : Except ReadError (Taken (c :: r) α)) :
        Except ReadError (Taken s α) := do
      let (v, m, ⟨q, hq⟩) ← x
      .ok (v, m, ⟨q, Nat.lt_of_lt_of_le hq hr⟩)
    if c = 'n' then longer (stepWord "ull" .null (m.after c) c r)
    else if c = 't' then longer (stepWord "rue" (.bool true) (m.after c) c r)
    else if c = 'f' then longer (stepWord "alse" (.bool false) (m.after c) c r)
    else if c = '-' then do
      let (v, m, ⟨q, hq⟩) ← stepNumber true (m.after c) r
      .ok (v, m, ⟨q, Nat.lt_trans hq hr'⟩)
    else if c.isDigit then longer (stepNumber false m (c :: r))
    else if c = '"' then do
      let (cs, m, ⟨q, hq⟩) ← readString (m.after c) r
      .ok (ofChars cs, m, ⟨q, Nat.lt_trans hq hr'⟩)
    else if c = '[' then
      if depth ≤ 1 then .error ⟨.tooDeep, m.peek [c]⟩
      else do
        let (items, m, ⟨q, hq⟩) ← stepItems (depth - 1) true (m.after c) r
        .ok (.arr items, m, ⟨q, Nat.lt_trans hq hr'⟩)
    else if c = '\x7b' then
      if depth ≤ 1 then .error ⟨.tooDeep, m.peek [c]⟩
      else do
        let (members, m, ⟨q, hq⟩) ← stepMembers (depth - 1) true (m.after c) r
        .ok (.obj members, m, ⟨q, Nat.lt_trans hq hr'⟩)
    else .error ⟨.expectedValue, m.peek [c]⟩
termination_by 2 * s.length

/-- The items of an array and its closing bracket; `first` if none has been read. -/
def stepItems (depth : Nat) (first : Bool) (m : Mark) (s : List Char) :
    Except ReadError (Taken s (List Json)) :=
  match h : skipBlanks m s with
  | (m, []) => .error ⟨.endOfList, m⟩
  | (m, c :: r) =>
    have hr := length_le_of_skipBlanks h
    have hr' : r.length < s.length := by simp at hr; omega
    if c = ']' then .ok ([], m.after c, ⟨r, hr'⟩)
    else if first then do
      let (v, m, ⟨q, hq⟩) ← stepValue depth m (c :: r)
      let (vs, m, ⟨q', hq'⟩) ← stepItems depth false m q
      .ok (v :: vs, m, ⟨q', by omega⟩)
    else if c = ',' then
      match h' : skipBlanks (m.after c) r with
      | (m, []) => .error ⟨.endOfValue, m⟩
      | (m, d :: t) =>
        have ht := length_le_of_skipBlanks h'
        have ht' : t.length + 1 < s.length := by simp at ht; omega
        if d = ']' then .error ⟨.trailingComma, m.peek [d]⟩
        else do
          let (v, m, ⟨q, hq⟩) ← stepValue depth m (d :: t)
          let (vs, m, ⟨q', hq'⟩) ← stepItems depth false m q
          .ok (v :: vs, m, ⟨q', by omega⟩)
    else .error ⟨.expectedListComma, m.peek [c]⟩
termination_by 2 * s.length + 1

/-- The members of an object and its closing brace, in the order of the text. -/
def stepMembers (depth : Nat) (first : Bool) (m : Mark) (s : List Char) :
    Except ReadError (Taken s (List (String × Json))) :=
  match h : skipBlanks m s with
  | (m, []) => .error ⟨.endOfObject, m⟩
  | (m, c :: r) =>
    have hr := length_le_of_skipBlanks h
    have hr' : r.length < s.length := by simp at hr; omega
    if c = '\x7d' then .ok ([], m.after c, ⟨r, hr'⟩)
    else if first then
      if c = '"' then do
        let (members, m, ⟨q, hq⟩) ← stepMember depth (m.after c) r
        .ok (members, m, ⟨q, by omega⟩)
      else .error ⟨.keyNotString, m.peek [c]⟩
    else if c = ',' then
      match h' : skipBlanks (m.after c) r with
      | (m, []) => .error ⟨.endOfValue, m⟩
      | (m, d :: t) =>
        have ht := length_le_of_skipBlanks h'
        have ht' : t.length < s.length := by simp at ht; omega
        if d = '"' then do
          let (members, m, ⟨q, hq⟩) ← stepMember depth (m.after d) t
          .ok (members, m, ⟨q, Nat.lt_trans hq ht'⟩)
        else if d = '\x7d' then .error ⟨.trailingComma, m.peek [d]⟩
        else .error ⟨.keyNotString, m.peek [d]⟩
    else .error ⟨.expectedObjectComma, m.peek [c]⟩
termination_by 2 * s.length + 1

/-- A member whose opening quote has been read, and those after it. -/
def stepMember (depth : Nat) (m : Mark) (s : List Char) :
    Except ReadError (Taken s (List (String × Json))) := do
  let (k, m, ⟨q, hq⟩) ← readString m s
  let ((), m, ⟨q', hq'⟩) ← stepColon m q
  let (v, m, ⟨q'', hq''⟩) ← stepValue depth m q'
  let (members, m, ⟨t, ht⟩) ← stepMembers depth false m q''
  .ok ((String.ofList k, v) :: members, m, ⟨t, by omega⟩)
termination_by 2 * s.length + 2

end

/-- The value that a whole text writes, members still in the order of the text. -/
def read (s : List Char) : Except ReadError Json :=
  match stepValue 128 ⟨1, 0⟩ s with
  | .error e => .error e
  | .ok (v, m, ⟨r, _⟩) =>
    match skipBlanks m r with
    | (_, []) => .ok v
    | (m, c :: _) => .error ⟨.trailingCharacters, m.peek [c]⟩

/-- The value that a text writes. -/
def parse (s : String) : Except ReadError Json := (read s.toList).map normal

end Switchboard.Json
