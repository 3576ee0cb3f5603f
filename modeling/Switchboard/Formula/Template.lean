import Switchboard.Formula.Arithmetic
import Switchboard.Json.Text
import Switchboard.Path

/-! Formulas with placeholders. `{value}` stands for the value at hand and any other name for the
value at that path of a record; only numbers, texts and booleans are filled in. -/
namespace Switchboard.Formula

/-- The characters of a placeholder's name. -/
def isNameChar (c : Char) : Bool :=
  c.isAlphanum || c == '_' || c == '.' || c == '[' || c == ']' || c == '$'

/-- A character that stands for itself, or a placeholder. -/
inductive Piece where
  | char (c : Char)
  | hole (name : List Char)
  deriving DecidableEq

theorem length_lt_of_dropWhile {p : Char → Bool} {s rest : List Char} {d : Char}
    (h : s.dropWhile p = d :: rest) : rest.length < s.length + 1 := by
  have := List.IsSuffix.length_le (List.dropWhile_suffix (l := s) p)
  rw [h, List.length_cons] at this
  omega

/-- The pieces of a formula, from the left. A brace that opens no placeholder stands for itself. -/
def pieces (s : List Char) : List Piece :=
  match s with
  | [] => []
  | c :: s =>
    if c = '\x7b' then
      let name := s.takeWhile isNameChar
      match h : s.dropWhile isNameChar with
      | d :: rest =>
        have := length_lt_of_dropWhile h
        if d = '\x7d' ∧ name ≠ [] then .hole name :: pieces rest
        else .char c :: pieces s
      | [] => .char c :: pieces s
    else .char c :: pieces s
termination_by s.length

/-- The text that a value is filled in as. -/
def fillText? : Option Json → Option (List Char)
  | some (.str s) => some s.toList
  | some (.num n) => some n.chars
  | some (.bool b) => some (if b then ['1'] else ['0'])
  | _ => none

/-- A placeholder without such a text stays as it is. -/
def Piece.fill (value record : Json) : Piece → List Char
  | .char c => [c]
  | .hole name =>
    let v := if name = "value".toList then some value else Path.get? (Path.ofChars name) record
    (fillText? v).getD ('\x7b' :: name ++ ['\x7d'])

/-- A formula with its placeholders filled in. What is filled in is not looked at again. -/
def substitute (formula : String) (value record : Json) : String :=
  String.ofList ((pieces formula.toList).flatMap (·.fill value record))

/-- The characters that arithmetic is written in. -/
def isAllowed (c : Char) : Bool :=
  Text.isAnyDigit c || Text.isWhite c || (sign? c).isSome || c == '.'

/-- A text that holds arithmetic only. -/
def isArithmetic (s : String) : Bool := s ≠ "" && s.toList.all isAllowed

end Switchboard.Formula
