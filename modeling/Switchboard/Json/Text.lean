import Switchboard.Json.Basic

/-! The compact text of a JSON value: no white space, members in order, and only quotes,
backslashes and control characters escaped. -/
namespace Switchboard

/-- Floats have at least one decimal, and an exponent below 10⁻⁵ and from 10¹⁶ on. -/
def Number.layout : Decimal.Layout := ⟨-5, 16, true, .toEven⟩

def Number.chars : Number → List Char
  | .int n => (if n < 0 then ['-'] else []) ++ Decimal.digitsOf n.natAbs
  | .float x => layout.render x

namespace Json

/-- One of the sixteen digits, in lower case. -/
def hexDigit (n : Nat) : Char := if n < 10 then Char.ofNat (48 + n) else Char.ofNat (87 + n)

/-- A character inside quotes. -/
def escape (c : Char) : List Char :=
  if c = '"' then ['\\', '"']
  else if c = '\\' then ['\\', '\\']
  else if c = '\n' then ['\\', 'n']
  else if c = '\r' then ['\\', 'r']
  else if c = '\t' then ['\\', 't']
  else if c.toNat = 8 then ['\\', 'b']
  else if c.toNat = 12 then ['\\', 'f']
  else if c.toNat < 32 then
    ['\\', 'u', '0', '0', hexDigit (c.toNat / 16), hexDigit (c.toNat % 16)]
  else [c]

def quoted (s : String) : List Char := '"' :: s.toList.flatMap escape ++ ['"']

mutual

def chars : Json → List Char
  | null => "null".toList
  | bool b => if b then "true".toList else "false".toList
  | num n => n.chars
  | str s => quoted s
  | arr items => '[' :: charsItems items ++ [']']
  | obj members => '{' :: charsMembers members ++ ['}']

def charsItems : List Json → List Char
  | [] => []
  | [a] => chars a
  | a :: b :: as => chars a ++ ',' :: charsItems (b :: as)

def charsMembers : List (String × Json) → List Char
  | [] => []
  | [(k, a)] => quoted k ++ ':' :: chars a
  | (k, a) :: b :: as => quoted k ++ ':' :: chars a ++ ',' :: charsMembers (b :: as)

end

/-- The text of a value. -/
def text (v : Json) : String := String.ofList v.chars

/-- A text as it is, any other value by its JSON text. -/
def plainText : Json → String
  | str s => s
  | v => v.text

def indent (n : Nat) : List Char := List.replicate n ' '

mutual

/-- A value over several lines, two blanks a level; empty arrays and objects stay on one. -/
def prettyChars (depth : Nat) : Json → List Char
  | arr [] => ['[', ']']
  | obj [] => ['{', '}']
  | arr (a :: as) => '[' :: prettyItems (depth + 2) (a :: as) ++ '\n' :: indent depth ++ [']']
  | obj (a :: as) => '{' :: prettyMembers (depth + 2) (a :: as) ++ '\n' :: indent depth ++ ['}']
  | null => chars null
  | bool b => chars (bool b)
  | num n => chars (num n)
  | str s => chars (str s)

def prettyItems (depth : Nat) : List Json → List Char
  | [] => []
  | [a] => '\n' :: indent depth ++ prettyChars depth a
  | a :: b :: as =>
    '\n' :: indent depth ++ prettyChars depth a ++ ',' :: prettyItems depth (b :: as)

def prettyMembers (depth : Nat) : List (String × Json) → List Char
  | [] => []
  | [(k, a)] => '\n' :: indent depth ++ quoted k ++ ':' :: ' ' :: prettyChars depth a
  | (k, a) :: b :: as =>
    '\n' :: indent depth ++ quoted k ++ ':' :: ' ' :: prettyChars depth a ++
      ',' :: prettyMembers depth (b :: as)

end

example : text (.arr [.num (.int (-1)), .str "a\"\n", .obj [("k", .null)]])
    = "[-1,\"a\\\"\\n\",\x7b\"k\":null\x7d]" := by decide +kernel

end Json
end Switchboard
