import Switchboard.Decimal.Numeral
import Switchboard.Text.Class

/-! Arithmetic on floats: sums of products of signed numbers and parentheses, evaluated from the
left as it is read. -/
namespace Switchboard.Formula

/-- The deepest nesting of parentheses and signs. -/
def maxDepth : Nat := 64

inductive Token where
  | number (x : Float)
  | plus
  | minus
  | times
  | divide
  | percent
  | openParen
  | closeParen

inductive Error where
  | strange (text : String)
  | unbalanced
  | unexpectedEnd
  | divisionByZero
  | notFinite
  | tooDeep
  deriving DecidableEq

def Error.message : Error → String
  | strange text => "Syntax error near '" ++ text ++ "'"
  | unbalanced => "Unbalanced parentheses"
  | unexpectedEnd => "Unexpected end of expression"
  | divisionByZero => "Division by zero"
  | notFinite => "Result is not a finite number"
  | tooDeep => "Expression nests deeper than " ++ toString maxDepth ++ " levels"

/-- How a message names a token that may not stand where it does. -/
def Token.label : Token → String
  | number _ => "Num"
  | plus => "Plus"
  | minus => "Minus"
  | times => "Star"
  | divide => "Slash"
  | percent => "Percent"
  | openParen => "Open"
  | closeParen => "Close"

def sign? (c : Char) : Option Token :=
  if c = '+' then some .plus
  else if c = '-' then some .minus
  else if c = '*' then some .times
  else if c = '/' then some .divide
  else if c = '%' then some .percent
  else if c = '(' then some .openParen
  else if c = ')' then some .closeParen
  else none

/-- The characters of a number. -/
def isNumberChar (c : Char) : Bool := c.isDigit || c == '.'

/-- The tokens of a text, of which `run` has been read of the number at hand. -/
def tokens (run : List Char) : List Char → Except Error (List Token)
  | [] => endNumber run
  | c :: s =>
    if isNumberChar c then tokens (run ++ [c]) s
    else do
      let number ← endNumber run
      if Text.isWhite c then
        let ts ← tokens [] s
        .ok (number ++ ts)
      else
        match sign? c with
        | some t =>
          let ts ← tokens [] s
          .ok (number ++ t :: ts)
        | none => .error (.strange c.toString)
where
  /-- The number that the run writes, if it is not empty. -/
  endNumber (run : List Char) : Except Error (List Token) :=
    if run = [] then .ok []
    else
      match Decimal.float? run with
      | some x => .ok [.number x]
      | none => .error (.strange (String.ofList run))

/-- A value, and the tokens after those it was computed from. -/
abbrev Computed (ts : List Token) := Float × { r : List Token // r.length < ts.length }

/-- What follows a closing parenthesis. -/
def closed? (ts : List Token) : Option { r : List Token // r.length < ts.length } :=
  match ts with
  | .closeParen :: r => some ⟨r, by simp⟩
  | _ => none

mutual

/-- A sum of products. -/
def sum (depth : Nat) (ts : List Token) : Except Error (Computed ts) :=
  match product depth ts with
  | .error e => .error e
  | .ok (x, ⟨r, hr⟩) =>
    match moreTerms depth x r with
    | .error e => .error e
    | .ok (y, ⟨q, hq⟩) => .ok (y, ⟨q, Nat.lt_of_le_of_lt hq hr⟩)
termination_by 4 * ts.length + 2

/-- Products added to `x` or taken from it. -/
def moreTerms (depth : Nat) (x : Float) (ts : List Token) :
    Except Error (Float × { r : List Token // r.length ≤ ts.length }) :=
  match ts with
  | .plus :: r =>
    match product depth r with
    | .error e => .error e
    | .ok (y, ⟨q, hq⟩) =>
      match moreTerms depth (x + y) q with
      | .error e => .error e
      | .ok (z, ⟨p, hp⟩) => .ok (z, ⟨p, by simp; omega⟩)
  | .minus :: r =>
    match product depth r with
    | .error e => .error e
    | .ok (y, ⟨q, hq⟩) =>
      match moreTerms depth (x - y) q with
      | .error e => .error e
      | .ok (z, ⟨p, hp⟩) => .ok (z, ⟨p, by simp; omega⟩)
  | ts => .ok (x, ⟨ts, Nat.le_refl _⟩)
termination_by 4 * ts.length

/-- A product of factors. -/
def product (depth : Nat) (ts : List Token) : Except Error (Computed ts) :=
  match factor depth ts with
  | .error e => .error e
  | .ok (x, ⟨r, hr⟩) =>
    match moreFactors depth x r with
    | .error e => .error e
    | .ok (y, ⟨q, hq⟩) => .ok (y, ⟨q, Nat.lt_of_le_of_lt hq hr⟩)
termination_by 4 * ts.length + 1

/-- Factors that `x` is multiplied with or divided by. -/
def moreFactors (depth : Nat) (x : Float) (ts : List Token) :
    Except Error (Float × { r : List Token // r.length ≤ ts.length }) :=
  match ts with
  | .times :: r =>
    match factor depth r with
    | .error e => .error e
    | .ok (y, ⟨q, hq⟩) =>
      match moreFactors depth (x * y) q with
      | .error e => .error e
      | .ok (z, ⟨p, hp⟩) => .ok (z, ⟨p, by simp; omega⟩)
  | .divide :: r =>
    match factor depth r with
    | .error e => .error e
    | .ok (y, ⟨q, hq⟩) =>
      if y == 0 then .error .divisionByZero
      else
        match moreFactors depth (x / y) q with
        | .error e => .error e
        | .ok (z, ⟨p, hp⟩) => .ok (z, ⟨p, by simp; omega⟩)
  | .percent :: r =>
    match factor depth r with
    | .error e => .error e
    | .ok (y, ⟨q, hq⟩) =>
      if y == 0 then .error .divisionByZero
      else
        match moreFactors depth (Decimal.remainder x y) q with
        | .error e => .error e
        | .ok (z, ⟨p, hp⟩) => .ok (z, ⟨p, by simp; omega⟩)
  | ts => .ok (x, ⟨ts, Nat.le_refl _⟩)
termination_by 4 * ts.length

/-- A number, a signed factor, or a sum in parentheses. -/
def factor (depth : Nat) (ts : List Token) : Except Error (Computed ts) :=
  if maxDepth ≤ depth then .error .tooDeep
  else
    match ts with
    | [] => .error .unexpectedEnd
    | .number x :: r => .ok (x, ⟨r, by simp⟩)
    | .minus :: r =>
      match factor (depth + 1) r with
      | .error e => .error e
      | .ok (x, ⟨q, hq⟩) => .ok (-x, ⟨q, by simp; omega⟩)
    | .plus :: r =>
      match factor (depth + 1) r with
      | .error e => .error e
      | .ok (x, ⟨q, hq⟩) => .ok (x, ⟨q, by simp; omega⟩)
    | .openParen :: r =>
      match sum (depth + 1) r with
      | .error e => .error e
      | .ok (x, ⟨q, hq⟩) =>
        match closed? q with
        | some ⟨p, hp⟩ => .ok (x, ⟨p, by simp; omega⟩)
        | none => .error .unbalanced
    | t :: _ => .error (.strange t.label)
termination_by 4 * ts.length

end

/-- The value of a text. -/
def evaluate (s : String) : Except Error Float :=
  match tokens [] s.toList with
  | .error e => .error e
  | .ok ts =>
    match sum 0 ts with
    | .error e => .error e
    | .ok (x, ⟨rest, _⟩) =>
      if !rest.isEmpty then .error (.strange s)
      else if Decimal.isFinite x then .ok x
      else .error .notFinite

end Switchboard.Formula
