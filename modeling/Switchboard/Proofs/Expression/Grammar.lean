import Switchboard.Expression.Parser

/-! The grammar of expressions, said by its derivation trees: the tokens that a tree spans, the
expression that it stands for and how deep it nests. Nothing here looks at the parser. -/
namespace Switchboard.Expression

inductive Nonterminal where
  | expr
  | disjunction
  | disjuncts
  | conjunction
  | conjuncts
  | comparison
  | unary
  | linked
  | links
  | call
  | primary
  | items
  | members
  | lambda

/-- What a derivation stands for. Further operands and links act on what stands before them. -/
abbrev Nonterminal.Value : Nonterminal → Type
  | expr => Expr
  | disjunction => Expr
  | disjuncts => Expr → Expr
  | conjunction => Expr
  | conjuncts => Expr → Expr
  | comparison => Expr
  | unary => Expr
  | linked => Expr
  | links => Expr → Expr
  | call => Expr → Expr
  | primary => Expr
  | items => List Expr
  | members => List (String × Expr)
  | lambda => String × Expr

/-- The key of a member is a name or a text. -/
inductive Key where
  | name (s : String)
  | text (s : String)

def Key.token : Key → Token
  | name s => .name s
  | text s => .text s

def Key.string : Key → String
  | name s => s
  | text s => s

/-- Names that are no variables where they stand alone. -/
def reserved : List String := ["true", "false", "null", "undefined"]

/-- Derivation trees, a constructor for each production. -/
inductive Derivation : Nonterminal → Type where
  | expr (t : Derivation .disjunction) : Derivation .expr
  | disjunction (first : Derivation .conjunction) (others : Derivation .disjuncts) :
      Derivation .disjunction
  | noDisjunct : Derivation .disjuncts
  | disjunct (operand : Derivation .conjunction) (others : Derivation .disjuncts) :
      Derivation .disjuncts
  | conjunction (first : Derivation .comparison) (others : Derivation .conjuncts) :
      Derivation .conjunction
  | noConjunct : Derivation .conjuncts
  | conjunct (operand : Derivation .comparison) (others : Derivation .conjuncts) :
      Derivation .conjuncts
  | alone (t : Derivation .unary) : Derivation .comparison
  | compare (lhs : Derivation .unary) (o : Operator) (h : o.isComparison = true)
      (rhs : Derivation .unary) : Derivation .comparison
  | not (t : Derivation .unary) : Derivation .unary
  | plain (t : Derivation .linked) : Derivation .unary
  | linked (target : Derivation .primary) (links : Derivation .links) : Derivation .linked
  | noLink : Derivation .links
  | property (name : String) (more : Derivation .links) : Derivation .links
  | call (m : Derivation .call) (more : Derivation .links) : Derivation .links
  | index (key : Derivation .expr) (more : Derivation .links) : Derivation .links
  | method (m : Method) : Derivation .call
  | visit (m : Visit) (f : Derivation .lambda) : Derivation .call
  | slice (start : Derivation .expr) : Derivation .call
  | sliceTo (start stop : Derivation .expr) : Derivation .call
  | root : Derivation .primary
  | number (x : Float) : Derivation .primary
  | text (s : String) : Derivation .primary
  | bool (b : Bool) : Derivation .primary
  | null : Derivation .primary
  | undefined : Derivation .primary
  | var (name : String) (h : name ∉ reserved) : Derivation .primary
  | group (t : Derivation .expr) : Derivation .primary
  | object (members : Derivation .members) : Derivation .primary
  | array (items : Derivation .items) : Derivation .primary
  | noItem : Derivation .items
  | lastItem (t : Derivation .expr) : Derivation .items
  | item (t : Derivation .expr) (more : Derivation .items) : Derivation .items
  | noMember : Derivation .members
  | lastMember (key : Key) (t : Derivation .expr) : Derivation .members
  | member (key : Key) (t : Derivation .expr) (more : Derivation .members) : Derivation .members
  | lambda (param : String) (body : Derivation .expr) : Derivation .lambda
  | lambdaGroup (param : String) (body : Derivation .expr) : Derivation .lambda

namespace Derivation

/-- The tokens that a tree spans. -/
def tokens {k : Nonterminal} : Derivation k → List Token
  | expr t => t.tokens
  | disjunction first others => first.tokens ++ others.tokens
  | noDisjunct => []
  | disjunct operand others => .op .or :: (operand.tokens ++ others.tokens)
  | conjunction first others => first.tokens ++ others.tokens
  | noConjunct => []
  | conjunct operand others => .op .and :: (operand.tokens ++ others.tokens)
  | alone t => t.tokens
  | compare lhs o _ rhs => lhs.tokens ++ .op o :: rhs.tokens
  | not t => .not :: t.tokens
  | plain t => t.tokens
  | linked target links => target.tokens ++ links.tokens
  | noLink => []
  | property name more => .dot :: .name name :: more.tokens
  | call m more => .dot :: (m.tokens ++ more.tokens)
  | index key more => .openBracket :: (key.tokens ++ .closeBracket :: more.tokens)
  | method m => [.name m.name, .openParen, .closeParen]
  | visit m f => .name m.name :: .openParen :: (f.tokens ++ [.closeParen])
  | slice start => .name "slice" :: .openParen :: (start.tokens ++ [.closeParen])
  | sliceTo start stop =>
    .name "slice" :: .openParen :: (start.tokens ++ .comma :: (stop.tokens ++ [.closeParen]))
  | root => [.dollar]
  | number x => [.number x]
  | text s => [.text s]
  | bool b => [.name (if b then "true" else "false")]
  | null => [.name "null"]
  | undefined => [.name "undefined"]
  | var name _ => [.name name]
  | group t => .openParen :: (t.tokens ++ [.closeParen])
  | object members => .openBrace :: (members.tokens ++ [.closeBrace])
  | array items => .openBracket :: (items.tokens ++ [.closeBracket])
  | noItem => []
  | lastItem t => t.tokens
  | item t more => t.tokens ++ .comma :: more.tokens
  | noMember => []
  | lastMember key t => key.token :: .colon :: t.tokens
  | member key t more => key.token :: .colon :: (t.tokens ++ .comma :: more.tokens)
  | lambda param body => .name param :: .arrow :: body.tokens
  | lambdaGroup param body =>
    .openParen :: .name param :: .closeParen :: .arrow :: body.tokens

/-- The expression that a tree stands for; chains group to the left. -/
def value {k : Nonterminal} : Derivation k → k.Value
  | expr t => t.value
  | disjunction first others => others.value first.value
  | noDisjunct => fun e => e
  | disjunct operand others => fun e => others.value (.binary .or e operand.value)
  | conjunction first others => others.value first.value
  | noConjunct => fun e => e
  | conjunct operand others => fun e => others.value (.binary .and e operand.value)
  | alone t => t.value
  | compare lhs o _ rhs => .binary o lhs.value rhs.value
  | not t => Expr.not t.value
  | plain t => t.value
  | linked target links => links.value target.value
  | noLink => fun e => e
  | property name more => fun e => more.value (.property e name)
  | call m more => fun e => more.value (m.value e)
  | index key more => fun e => more.value (.index e key.value)
  | method m => fun e => .call e m
  | visit m f => fun e => .visit e m f.value.1 f.value.2
  | slice start => fun e => .slice e start.value
  | sliceTo start stop => fun e => .sliceTo e start.value stop.value
  | root => Expr.root
  | number x => Expr.literal (.ofFloat x)
  | text s => Expr.literal (.str s)
  | bool b => Expr.literal (.bool b)
  | null => Expr.literal .null
  | undefined => Expr.undefined
  | var name _ => Expr.var name
  | group t => t.value
  | object members => Expr.object members.value
  | array items => Expr.array items.value
  | noItem => []
  | lastItem t => [t.value]
  | item t more => t.value :: more.value
  | noMember => []
  | lastMember key t => [(key.string, t.value)]
  | member key t more => (key.string, t.value) :: more.value
  | lambda param body => (param, body.value)
  | lambdaGroup param body => (param, body.value)

/-- The greatest value that a counter takes in a tree when it starts at `c`. It counts one inside
every expression and every negation, and one more at each further operand and each link of a
chain. -/
def depth {k : Nonterminal} (c : Nat) : Derivation k → Nat
  | expr t => t.depth (c + 1)
  | disjunction first others => max (first.depth c) (others.depth c)
  | noDisjunct => c
  | disjunct operand others => max (operand.depth (c + 1)) (others.depth (c + 1))
  | conjunction first others => max (first.depth c) (others.depth c)
  | noConjunct => c
  | conjunct operand others => max (operand.depth (c + 1)) (others.depth (c + 1))
  | alone t => t.depth c
  | compare lhs _ _ rhs => max (lhs.depth c) (rhs.depth c)
  | not t => t.depth (c + 1)
  | plain t => t.depth c
  | linked target links => max (target.depth c) (links.depth c)
  | noLink => c
  | property _ more => more.depth (c + 1)
  | call m more => max (m.depth (c + 1)) (more.depth (c + 1))
  | index key more => max (key.depth (c + 1)) (more.depth (c + 1))
  | method _ => c
  | visit _ f => f.depth c
  | slice start => start.depth c
  | sliceTo start stop => max (start.depth c) (stop.depth c)
  | root => c
  | number _ => c
  | text _ => c
  | bool _ => c
  | null => c
  | undefined => c
  | var _ _ => c
  | group t => t.depth c
  | object members => members.depth c
  | array items => items.depth c
  | noItem => c
  | lastItem t => t.depth c
  | item t more => max (t.depth c) (more.depth c)
  | noMember => c
  | lastMember _ t => t.depth c
  | member _ t more => max (t.depth c) (more.depth c)
  | lambda _ body => body.depth c
  | lambdaGroup _ body => body.depth c

/-- The counter never falls below its start. -/
theorem le_depth {k : Nonterminal} (t : Derivation k) (c : Nat) : c ≤ t.depth c := by
  induction t generalizing c <;> grind [depth]

end Derivation
end Switchboard.Expression
