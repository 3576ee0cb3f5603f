import Switchboard.Expression.Lexer
import Switchboard.Expression.Tree

/-! From tokens to trees, by recursive descent. `depth` counts the constructs that the tokens ahead
are nested in; every step leaves fewer tokens than it was given. -/
namespace Switchboard.Expression

/-- What the first tokens of `ts` stand for, and the tokens after them. -/
abbrev Parsed (ts : List Located) (α : Type) := α × { r : List Located // r.length < ts.length }

/-- As `Parsed`, where no token need be used. -/
abbrev Extended (ts : List Located) (α : Type) := α × { r : List Located // r.length ≤ ts.length }

/-- The token at hand is not one that may stand there. -/
def unexpected : List Located → ParseError
  | [] => .unexpectedEnd
  | t :: _ => .unexpectedToken t.token t.pos

/-- What follows a token that may stand next. -/
def next? (wanted : Token → Bool) (ts : List Located) :
    Option { r : List Located // r.length < ts.length } :=
  match ts with
  | t :: r => if wanted t.token then some ⟨r, by simp⟩ else none
  | [] => none

/-- What follows a token that must stand next. -/
def expect (wanted : Token → Bool) (ts : List Located) :
    Except ParseError { r : List Located // r.length < ts.length } :=
  match next? wanted ts with
  | some r => .ok r
  | none => .error (unexpected ts)

/-- The comparison that stands next. -/
def comparison? (ts : List Located) :
    Option (Operator × { r : List Located // r.length < ts.length }) :=
  match ts with
  | ⟨.op o, _⟩ :: r => if o.isComparison then some (o, ⟨r, by simp⟩) else none
  | _ => none

/-- A name that stands alone. -/
def ofName (s : String) : Expr :=
  if s = "true" then .literal (.bool true)
  else if s = "false" then .literal (.bool false)
  else if s = "null" then .literal .null
  else if s = "undefined" then .undefined
  else .var s

/-- Where the token at hand starts; `stop` is the width of the text. -/
def offset (stop : Nat) : List Located → Nat
  | [] => stop
  | t :: _ => t.pos

mutual

def parseExpr (stop depth : Nat) (ts : List Located) : Except ParseError (Parsed ts Expr) :=
  if maxDepth ≤ depth then .error .tooDeep else parseOr stop (depth + 1) ts
termination_by 16 * ts.length + 6

def parseOr (stop depth : Nat) (ts : List Located) : Except ParseError (Parsed ts Expr) :=
  match parseAnd stop depth ts with
  | .error e => .error e
  | .ok (lhs, ⟨r, h⟩) =>
    match parseOrTail stop depth lhs r with
    | .error e => .error e
    | .ok (e, ⟨q, h'⟩) => .ok (e, ⟨q, Nat.lt_of_le_of_lt h' h⟩)
termination_by 16 * ts.length + 5

/-- Further operands of `||`, each one level deeper than the one before. -/
def parseOrTail (stop depth : Nat) (lhs : Expr) (ts : List Located) :
    Except ParseError (Extended ts Expr) :=
  match ts with
  | ⟨.op .or, _⟩ :: r =>
    if maxDepth ≤ depth then .error .tooDeep
    else
      match parseAnd stop (depth + 1) r with
      | .error e => .error e
      | .ok (rhs, ⟨q, h⟩) =>
        match parseOrTail stop (depth + 1) (.binary .or lhs rhs) q with
        | .error e => .error e
        | .ok (e, ⟨p, h'⟩) => .ok (e, ⟨p, by simp; omega⟩)
  | ts => .ok (lhs, ⟨ts, Nat.le_refl _⟩)
termination_by 16 * ts.length

def parseAnd (stop depth : Nat) (ts : List Located) : Except ParseError (Parsed ts Expr) :=
  match parseComparison stop depth ts with
  | .error e => .error e
  | .ok (lhs, ⟨r, h⟩) =>
    match parseAndTail stop depth lhs r with
    | .error e => .error e
    | .ok (e, ⟨q, h'⟩) => .ok (e, ⟨q, Nat.lt_of_le_of_lt h' h⟩)
termination_by 16 * ts.length + 4

/-- Further operands of `&&`, each one level deeper than the one before. -/
def parseAndTail (stop depth : Nat) (lhs : Expr) (ts : List Located) :
    Except ParseError (Extended ts Expr) :=
  match ts with
  | ⟨.op .and, _⟩ :: r =>
    if maxDepth ≤ depth then .error .tooDeep
    else
      match parseComparison stop (depth + 1) r with
      | .error e => .error e
      | .ok (rhs, ⟨q, h⟩) =>
        match parseAndTail stop (depth + 1) (.binary .and lhs rhs) q with
        | .error e => .error e
        | .ok (e, ⟨p, h'⟩) => .ok (e, ⟨p, by simp; omega⟩)
  | ts => .ok (lhs, ⟨ts, Nat.le_refl _⟩)
termination_by 16 * ts.length

/-- One operand, or two with a comparison between them. -/
def parseComparison (stop depth : Nat) (ts : List Located) :
    Except ParseError (Parsed ts Expr) :=
  match parseUnary stop depth ts with
  | .error e => .error e
  | .ok (lhs, ⟨r, hr⟩) =>
    match comparison? r with
    | none => .ok (lhs, ⟨r, hr⟩)
    | some (o, ⟨q, hq⟩) =>
      match parseUnary stop depth q with
      | .error e => .error e
      | .ok (rhs, ⟨p, hp⟩) => .ok (.binary o lhs rhs, ⟨p, by omega⟩)
termination_by 16 * ts.length + 3

def parseUnary (stop depth : Nat) (ts : List Located) : Except ParseError (Parsed ts Expr) :=
  match ts with
  | ⟨.not, _⟩ :: r =>
    if maxDepth ≤ depth then .error .tooDeep
    else
      match parseUnary stop (depth + 1) r with
      | .error e => .error e
      | .ok (e, ⟨q, h⟩) => .ok (.not e, ⟨q, by simp; omega⟩)
  | ts => parsePostfix stop depth ts
termination_by 16 * ts.length + 2

def parsePostfix (stop depth : Nat) (ts : List Located) : Except ParseError (Parsed ts Expr) :=
  match parsePrimary stop depth ts with
  | .error e => .error e
  | .ok (e, ⟨r, h⟩) =>
    match parseLinks stop depth e r with
    | .error e => .error e
    | .ok (e, ⟨q, h'⟩) => .ok (e, ⟨q, Nat.lt_of_le_of_lt h' h⟩)
termination_by 16 * ts.length + 1

/-- Properties, methods and indexes of a target, each one level deeper than the one before. -/
def parseLinks (stop depth : Nat) (target : Expr) (ts : List Located) :
    Except ParseError (Extended ts Expr) :=
  match ts with
  | ⟨.dot, _⟩ :: r =>
    if maxDepth ≤ depth then .error .tooDeep
    else
      match r with
      | ⟨.name n, _⟩ :: ⟨.openParen, pos⟩ :: q =>
        match parseCall stop (depth + 1) target n pos q with
        | .error e => .error e
        | .ok (e, ⟨p, h⟩) =>
          match parseLinks stop (depth + 1) e p with
          | .error e => .error e
          | .ok (e, ⟨o, h'⟩) => .ok (e, ⟨o, by simp; omega⟩)
      | ⟨.name n, _⟩ :: q =>
        match parseLinks stop (depth + 1) (.property target n) q with
        | .error e => .error e
        | .ok (e, ⟨o, h'⟩) => .ok (e, ⟨o, by simp; omega⟩)
      | q => .error (unexpected q)
  | ⟨.openBracket, _⟩ :: r =>
    if maxDepth ≤ depth then .error .tooDeep
    else
      match parseExpr stop (depth + 1) r with
      | .error e => .error e
      | .ok (key, ⟨q, h⟩) =>
        match expect (· matches .closeBracket) q with
        | .error e => .error e
        | .ok ⟨p, h'⟩ =>
          match parseLinks stop (depth + 1) (.index target key) p with
          | .error e => .error e
          | .ok (e, ⟨o, h''⟩) => .ok (e, ⟨o, by simp; omega⟩)
  | ts => .ok (target, ⟨ts, Nat.le_refl _⟩)
termination_by 16 * ts.length

def parsePrimary (stop depth : Nat) (ts : List Located) : Except ParseError (Parsed ts Expr) :=
  match ts with
  | ⟨.dollar, _⟩ :: r => .ok (.root, ⟨r, by simp⟩)
  | ⟨.number x, _⟩ :: r => .ok (.literal (.ofFloat x), ⟨r, by simp⟩)
  | ⟨.text s, _⟩ :: r => .ok (.literal (.str s), ⟨r, by simp⟩)
  | ⟨.name n, _⟩ :: r => .ok (ofName n, ⟨r, by simp⟩)
  | ⟨.openParen, _⟩ :: r =>
    match parseExpr stop depth r with
    | .error e => .error e
    | .ok (e, ⟨q, h⟩) =>
      match expect (· matches .closeParen) q with
      | .error e => .error e
      | .ok ⟨p, h'⟩ => .ok (e, ⟨p, by simp; omega⟩)
  | ⟨.openBrace, _⟩ :: r =>
    match parseMembers stop depth r with
    | .error e => .error e
    | .ok (members, ⟨q, h⟩) =>
      match expect (· matches .closeBrace) q with
      | .error e => .error e
      | .ok ⟨p, h'⟩ => .ok (.object members, ⟨p, by simp; omega⟩)
  | ⟨.openBracket, _⟩ :: r =>
    match parseItems stop depth r with
    | .error e => .error e
    | .ok (items, ⟨q, h⟩) =>
      match expect (· matches .closeBracket) q with
      | .error e => .error e
      | .ok ⟨p, h'⟩ => .ok (.array items, ⟨p, by simp; omega⟩)
  | ts => .error (unexpected ts)
termination_by 16 * ts.length

/-- Items up to the closing bracket, which may follow a comma. -/
def parseItems (stop depth : Nat) (ts : List Located) :
    Except ParseError (Extended ts (List Expr)) :=
  match ts with
  | ⟨.closeBracket, p⟩ :: r => .ok ([], ⟨⟨.closeBracket, p⟩ :: r, Nat.le_refl _⟩)
  | ts =>
    match parseExpr stop depth ts with
    | .error e => .error e
    | .ok (item, ⟨r, hr⟩) =>
      match next? (· matches .comma) r with
      | none => .ok ([item], ⟨r, Nat.le_of_lt hr⟩)
      | some ⟨q, hq⟩ =>
        match parseItems stop depth q with
        | .error e => .error e
        | .ok (items, ⟨p, hp⟩) => .ok (item :: items, ⟨p, by omega⟩)
termination_by 16 * ts.length + 7

/-- Members up to the closing brace, which may follow a comma. -/
def parseMembers (stop depth : Nat) (ts : List Located) :
    Except ParseError (Extended ts (List (String × Expr))) :=
  match ts with
  | ⟨.closeBrace, p⟩ :: r => .ok ([], ⟨⟨.closeBrace, p⟩ :: r, Nat.le_refl _⟩)
  | ⟨.text k, _⟩ :: r =>
    match parseMember stop depth k r with
    | .error e => .error e
    | .ok (members, ⟨q, h⟩) => .ok (members, ⟨q, by simp; omega⟩)
  | ⟨.name k, _⟩ :: r =>
    match parseMember stop depth k r with
    | .error e => .error e
    | .ok (members, ⟨q, h⟩) => .ok (members, ⟨q, by simp; omega⟩)
  | ts => .error (unexpected ts)
termination_by 16 * ts.length

/-- The member whose key has been read, and those after it. -/
def parseMember (stop depth : Nat) (key : String) (ts : List Located) :
    Except ParseError (Parsed ts (List (String × Expr))) :=
  match expect (· matches .colon) ts with
  | .error e => .error e
  | .ok ⟨r, hr⟩ =>
    match parseExpr stop depth r with
    | .error e => .error e
    | .ok (value, ⟨q, hq⟩) =>
      match next? (· matches .comma) q with
      | none => .ok ([(key, value)], ⟨q, Nat.lt_trans hq hr⟩)
      | some ⟨p, hp⟩ =>
        match parseMembers stop depth p with
        | .error e => .error e
        | .ok (members, ⟨o, ho⟩) => .ok ((key, value) :: members, ⟨o, by omega⟩)
termination_by 16 * ts.length

/-- The arguments of a method and the closing parenthesis; `pos` is where the opening one stands.
Only `sort` may do without its lambda. -/
def parseCall (stop depth : Nat) (target : Expr) (method : String) (pos : Nat)
    (ts : List Located) : Except ParseError (Parsed ts Expr) :=
  match Visit.ofName? method with
  | some m =>
    match if m = .sort then next? (· matches .closeParen) ts else none with
    | some ⟨r, h⟩ => .ok (.call target .sort, ⟨r, h⟩)
    | none =>
      match parseLambda stop depth ts with
      | .error e => .error e
      | .ok ((param, body), ⟨q, h⟩) =>
        match expect (· matches .closeParen) q with
        | .error e => .error e
        | .ok ⟨p, h'⟩ => .ok (.visit target m param body, ⟨p, Nat.lt_trans h' h⟩)
  | none =>
    match Method.ofName? method with
    | some m =>
      match expect (· matches .closeParen) ts with
      | .error e => .error e
      | .ok ⟨p, h⟩ => .ok (.call target m, ⟨p, h⟩)
    | none =>
      if method = "slice" then parseSlice stop depth target ts
      else .error (.unknownMethod method pos)
termination_by 16 * ts.length + 8

/-- One or two bounds and the closing parenthesis. -/
def parseSlice (stop depth : Nat) (target : Expr) (ts : List Located) :
    Except ParseError (Parsed ts Expr) :=
  match parseExpr stop depth ts with
  | .error e => .error e
  | .ok (start, ⟨r, hr⟩) =>
    match next? (· matches .comma) r with
    | none =>
      match expect (· matches .closeParen) r with
      | .error e => .error e
      | .ok ⟨q, hq⟩ => .ok (.slice target start, ⟨q, Nat.lt_trans hq hr⟩)
    | some ⟨q, hq⟩ =>
      match parseExpr stop depth q with
      | .error e => .error e
      | .ok (last, ⟨p, hp⟩) =>
        match expect (· matches .closeParen) p with
        | .error e => .error e
        | .ok ⟨o, ho⟩ => .ok (.sliceTo target start last, ⟨o, by omega⟩)
termination_by 16 * ts.length + 7

/-- A parameter, bare or in parentheses, an arrow and a body. -/
def parseLambda (stop depth : Nat) (ts : List Located) :
    Except ParseError (Parsed ts (String × Expr)) :=
  match ts with
  | ⟨.name p, _⟩ :: ⟨.arrow, _⟩ :: r =>
    match parseExpr stop depth r with
    | .error e => .error e
    | .ok (body, ⟨q, h⟩) => .ok ((p, body), ⟨q, by simp; omega⟩)
  | ⟨.openParen, _⟩ :: ⟨.name p, _⟩ :: ⟨.closeParen, _⟩ :: r =>
    match expect (· matches .arrow) r with
    | .error e => .error e
    | .ok ⟨q, h⟩ =>
      match parseExpr stop depth q with
      | .error e => .error e
      | .ok (body, ⟨o, h'⟩) => .ok ((p, body), ⟨o, by simp; omega⟩)
  | ts => .error (.expectedLambda (offset stop ts))
termination_by 16 * ts.length

end

/-- The tree that all of the tokens stand for. -/
def parseTokens (stop : Nat) (ts : List Located) : Except ParseError Expr :=
  match ts with
  | [] => .error .empty
  | ts =>
    match parseExpr stop 0 ts with
    | .error e => .error e
    | .ok (e, ⟨[], _⟩) => .ok e
    | .ok (_, ⟨t :: _, _⟩) => .error (.unexpectedToken t.token t.pos)

/-- The tree of a text. -/
def parse (s : String) : Except ParseError Expr :=
  let cs := s.toList
  match tokenize 0 cs with
  | .error e => .error e
  | .ok ts => parseTokens (Text.width cs) ts

end Switchboard.Expression
