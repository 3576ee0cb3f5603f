import Switchboard.Expression.Eval

/-! Parsed expressions kept by their text. A full cache is emptied before a new text is kept. -/
namespace Switchboard.Expression

structure Cache where
  capacity : Nat
  entries : List (String × Expr)

namespace Cache

def empty (capacity : Nat) : Cache := ⟨capacity, []⟩

def get? (c : Cache) (s : String) : Option Expr := c.entries.lookup s

/-- Keep a tree that is not kept yet. -/
def insert (c : Cache) (s : String) (e : Expr) : Cache :=
  if c.capacity = 0 then c
  else if c.capacity ≤ c.entries.length then { c with entries := [(s, e)] }
  else { c with entries := (s, e) :: c.entries }

/-- The tree of a text, from the cache or by parsing; only trees are kept. -/
def compile (c : Cache) (s : String) : Except ParseError Expr × Cache :=
  match c.get? s with
  | some e => (.ok e, c)
  | none =>
    match parse s with
    | .ok e => (.ok e, c.insert s e)
    | .error e => (.error e, c)

/-- The value of a text on a JSON value. -/
def evaluate (c : Cache) (s : String) (v : Json) : Except Error (Option Json) × Cache :=
  match c.compile s with
  | (.error e, c) => (.error (.parse e), c)
  | (.ok e, c) => ((eval v none e).mapError .eval, c)

/-- How many trees are kept. -/
def size (c : Cache) : Nat := c.entries.length

end Cache
end Switchboard.Expression
