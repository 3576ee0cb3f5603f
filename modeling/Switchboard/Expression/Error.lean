import Switchboard.Expression.Token

/-! Why a text is no expression, and why an expression has no value. Positions are bytes of the
text. -/
namespace Switchboard.Expression

/-- The deepest nesting that an expression may have. -/
def maxDepth : Nat := 64

inductive ParseError where
  | empty
  | unexpectedChar (c : Char) (pos : Nat)
  | unterminatedString (pos : Nat)
  | invalidNumber (text : String) (pos : Nat)
  | unexpectedToken (found : Token) (pos : Nat)
  | unexpectedEnd
  | unknownMethod (name : String) (pos : Nat)
  | expectedLambda (pos : Nat)
  | tooDeep

inductive EvalError where
  | unboundVariable (name : String)
  | typeMismatch (method found : String)
  | invalidBound (found : String)
  deriving DecidableEq

inductive Error where
  | parse (e : ParseError)
  | eval (e : EvalError)

def ParseError.message : ParseError → String
  | empty => "Empty expression"
  | unexpectedChar c pos =>
    "Unexpected character '" ++ c.toString ++ "' at " ++ toString pos
  | unterminatedString pos => "Unterminated string starting at " ++ toString pos
  | invalidNumber text pos => "Invalid number '" ++ text ++ "' at " ++ toString pos
  | unexpectedToken found pos => "Unexpected token " ++ found.label ++ " at " ++ toString pos
  | unexpectedEnd => "Unexpected end of expression"
  | unknownMethod name pos => "Unknown method '" ++ name ++ "' at " ++ toString pos
  | expectedLambda pos => "Expected a lambda (v => ...) at " ++ toString pos
  | tooDeep => "Expression nests deeper than " ++ toString maxDepth ++ " levels"

def EvalError.message : EvalError → String
  | unboundVariable name => "Unbound variable '" ++ name ++ "'"
  | typeMismatch method found => "Cannot call " ++ method ++ "() on " ++ found
  | invalidBound found =>
    "Invalid argument: slice bound must be a number, got " ++ found

def Error.message : Error → String
  | parse e => e.message
  | eval e => e.message

end Switchboard.Expression
