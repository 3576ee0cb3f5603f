import Switchboard.Formula.Arithmetic

/-! The grammar of formulas, said by its derivation trees over leaves of any kind: the words that a
tree spans, what it is worth and how deep it nests. Nothing here looks at the evaluator. -/
namespace Switchboard.Formula

deriving instance DecidableEq for Token

/-- What stands between the leaves. -/
inductive Mark where
  | plus
  | minus
  | times
  | divide
  | percent
  | openParen
  | closeParen

def Mark.token : Mark → Token
  | plus => .plus
  | minus => .minus
  | times => .times
  | divide => .divide
  | percent => .percent
  | openParen => .openParen
  | closeParen => .closeParen

def Mark.char : Mark → Char
  | plus => '+'
  | minus => '-'
  | times => '*'
  | divide => '/'
  | percent => '%'
  | openParen => '('
  | closeParen => ')'

/-- The operators of a sum. -/
inductive Additive where
  | plus
  | minus

namespace Additive

def mark : Additive → Mark
  | plus => .plus
  | minus => .minus

def apply : Additive → Float → Float → Float
  | plus => (· + ·)
  | minus => (· - ·)

end Additive

/-- The operators of a product. -/
inductive Multiplicative where
  | times
  | divide
  | percent

namespace Multiplicative

def mark : Multiplicative → Mark
  | times => .times
  | divide => .divide
  | percent => .percent

def apply : Multiplicative → Float → Float → Float
  | times => (· * ·)
  | divide => (· / ·)
  | percent => Decimal.remainder

/-- The operand after the operator must not be zero. -/
def divides : Multiplicative → Bool
  | times => false
  | divide => true
  | percent => true

end Multiplicative

inductive Nonterminal where
  | sum
  | terms
  | product
  | factors
  | factor

/-- Derivation trees, a constructor for each production. -/
inductive Derivation (α : Type) : Nonterminal → Type where
  | sum (first : Derivation α .product) (more : Derivation α .terms) : Derivation α .sum
  | noTerm : Derivation α .terms
  | term (o : Additive) (t : Derivation α .product) (more : Derivation α .terms) :
      Derivation α .terms
  | product (first : Derivation α .factor) (more : Derivation α .factors) : Derivation α .product
  | noFactor : Derivation α .factors
  | times (o : Multiplicative) (t : Derivation α .factor) (more : Derivation α .factors) :
      Derivation α .factors
  | leaf (a : α) : Derivation α .factor
  | negative (t : Derivation α .factor) : Derivation α .factor
  | positive (t : Derivation α .factor) : Derivation α .factor
  | group (t : Derivation α .sum) : Derivation α .factor

/-- What a tree is worth. Further operands act on what stands before them. -/
abbrev Nonterminal.Value : Nonterminal → Type
  | sum => Float
  | terms => Float → Float
  | product => Float
  | factors => Float → Float
  | factor => Float

namespace Derivation
variable {α β γ : Type} {k : Nonterminal}

/-- The words that a tree spans. -/
def words (leaf : α → List β) (mark : Mark → β) {k : Nonterminal} : Derivation α k → List β
  | sum first more => first.words leaf mark ++ more.words leaf mark
  | noTerm => []
  | term o t more => mark o.mark :: (t.words leaf mark ++ more.words leaf mark)
  | product first more => first.words leaf mark ++ more.words leaf mark
  | noFactor => []
  | times o t more => mark o.mark :: (t.words leaf mark ++ more.words leaf mark)
  | .leaf a => leaf a
  | negative t => mark .minus :: t.words leaf mark
  | positive t => mark .plus :: t.words leaf mark
  | group t => mark .openParen :: (t.words leaf mark ++ [mark .closeParen])

/-- The tokens that a tree of numbers spans. -/
def tokens (t : Derivation Float k) : List Token := t.words (fun x => [.number x]) Mark.token

/-- Leaves are worth what `worth` says; chains group to the left. -/
def value (worth : α → Float) {k : Nonterminal} : Derivation α k → k.Value
  | sum first more => more.value worth (first.value worth)
  | noTerm => fun x => x
  | term o t more => fun x => more.value worth (o.apply x (t.value worth))
  | product first more => more.value worth (first.value worth)
  | noFactor => fun x => x
  | times o t more => fun x => more.value worth (o.apply x (t.value worth))
  | leaf a => worth a
  | negative t => -t.value worth
  | positive t => t.value worth
  | group t => t.value worth

/-- Some operator divides by what is worth zero. -/
def dividesByZero (worth : α → Float) {k : Nonterminal} : Derivation α k → Bool
  | sum first more => first.dividesByZero worth || more.dividesByZero worth
  | noTerm => false
  | term _ t more => t.dividesByZero worth || more.dividesByZero worth
  | product first more => first.dividesByZero worth || more.dividesByZero worth
  | noFactor => false
  | times o t more =>
    t.dividesByZero worth || o.divides && t.value worth == 0 || more.dividesByZero worth
  | leaf _ => false
  | negative t => t.dividesByZero worth
  | positive t => t.dividesByZero worth
  | group t => t.dividesByZero worth

/-- How many factors stand in one another at most, through signs and parentheses. -/
def depth {k : Nonterminal} : Derivation α k → Nat
  | sum first more => max first.depth more.depth
  | noTerm => 0
  | term _ t more => max t.depth more.depth
  | product first more => max first.depth more.depth
  | noFactor => 0
  | times _ t more => max t.depth more.depth
  | leaf _ => 1
  | negative t => t.depth + 1
  | positive t => t.depth + 1
  | group t => t.depth + 1

/-- A tree with a factor in the place of each leaf. -/
def graft (f : α → Derivation β .factor) {k : Nonterminal} : Derivation α k → Derivation β k
  | sum first more => sum (first.graft f) (more.graft f)
  | noTerm => noTerm
  | term o t more => term o (t.graft f) (more.graft f)
  | product first more => product (first.graft f) (more.graft f)
  | noFactor => noFactor
  | times o t more => times o (t.graft f) (more.graft f)
  | leaf a => f a
  | negative t => negative (t.graft f)
  | positive t => positive (t.graft f)
  | group t => group (t.graft f)

theorem words_graft (f : α → Derivation β .factor) (leaf : β → List γ) (mark : Mark → γ)
    (t : Derivation α k) :
    (t.graft f).words leaf mark = t.words (fun a => (f a).words leaf mark) mark := by
  induction t <;> simp [graft, words, *]

theorem value_graft (f : α → Derivation β .factor) (worth : β → Float) (t : Derivation α k) :
    (t.graft f).value worth = t.value fun a => (f a).value worth := by
  induction t <;> simp [graft, value, *]

theorem dividesByZero_graft (f : α → Derivation β .factor) (worth : β → Float)
    (hf : ∀ a, (f a).dividesByZero worth = false) (t : Derivation α k) :
    (t.graft f).dividesByZero worth = t.dividesByZero fun a => (f a).value worth := by
  induction t <;> simp [graft, dividesByZero, value_graft, *]

end Derivation
end Switchboard.Formula
