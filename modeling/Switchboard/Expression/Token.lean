import Switchboard.Decimal.Shortest
import Switchboard.Text.Quoted

/-! Tokens of the expression language. -/
namespace Switchboard.Expression

/-- The comparisons and the two connectives. -/
inductive Operator where
  | eq
  | ne
  | strictEq
  | strictNe
  | gt
  | ge
  | lt
  | le
  | and
  | or
  deriving DecidableEq

def Operator.isComparison : Operator → Bool
  | and => false
  | or => false
  | _ => true

inductive Token where
  | dollar
  | dot
  | comma
  | colon
  | openParen
  | closeParen
  | openBracket
  | closeBracket
  | openBrace
  | closeBrace
  | arrow
  | name (s : String)
  | text (s : String)
  | number (x : Float)
  | op (o : Operator)
  | not

/-- A token and the byte of the text at which it starts. -/
structure Located where
  token : Token
  pos : Nat

def Operator.label : Operator → String
  | eq => "Eq"
  | ne => "NotEq"
  | strictEq => "StrictEq"
  | strictNe => "StrictNotEq"
  | gt => "Gt"
  | ge => "Gte"
  | lt => "Lt"
  | le => "Lte"
  | and => "And"
  | or => "Or"

/-- Numbers in messages have an exponent below 10⁻⁴ and from 10¹⁶ on. -/
def Token.numberLayout : Decimal.Layout := ⟨-4, 16, false, .away⟩

/-- How a message names a token. -/
def Token.label : Token → String
  | dollar => "Dollar"
  | dot => "Dot"
  | comma => "Comma"
  | colon => "Colon"
  | openParen => "LParen"
  | closeParen => "RParen"
  | openBracket => "LBracket"
  | closeBracket => "RBracket"
  | openBrace => "LBrace"
  | closeBrace => "RBrace"
  | arrow => "Arrow"
  | name s => "Ident(" ++ String.ofList (Text.quoted s) ++ ")"
  | text s => "Str(" ++ String.ofList (Text.quoted s) ++ ")"
  | number x => "Num(" ++ String.ofList (numberLayout.render x) ++ ")"
  | op o => "Op(" ++ o.label ++ ")"
  | not => "Not"

end Switchboard.Expression
