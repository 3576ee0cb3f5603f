import Switchboard.Fields

/-! Values kept for a time. An entry expires once it is as old as the lifetime; one dated in the
future is live. Room is made by dropping what has expired, else one of the oldest entries. -/
namespace Switchboard

namespace Expiring

structure Entry (α : Type) where
  value : α
  since : Int

end Expiring

/-- Times are in milliseconds. -/
structure Expiring (α : Type) where
  lifetime : Nat
  capacity : Nat
  entries : Fields (Expiring.Entry α)

namespace Expiring
variable {α : Type}

def empty (lifetime capacity : Nat) : Expiring α := ⟨lifetime, capacity, []⟩

def Entry.isExpired (lifetime : Nat) (now : Int) (e : Entry α) : Bool := lifetime ≤ now - e.since

/-- How many entries are stored, expired ones included. -/
def size (c : Expiring α) : Nat := c.entries.length

/-- The live value of a key. -/
def get? (c : Expiring α) (now : Int) (k : String) : Option α :=
  ((Fields.get? k c.entries).filter fun e => !e.isExpired c.lifetime now).map (·.value)

/-- A new key finds no room. -/
def isFullFor (c : Expiring α) (k : String) : Bool :=
  c.capacity ≤ c.entries.length && !Fields.has k c.entries

def dropExpired (c : Expiring α) (now : Int) : Expiring α :=
  { c with entries := c.entries.filter fun e => !e.2.isExpired c.lifetime now }

/-- The first key among those of the least time. -/
def oldest? : Fields (Entry α) → Option (String × Int)
  | [] => none
  | (k, e) :: es =>
    match oldest? es with
    | some (l, t) => if t < e.since then some (l, t) else some (k, e.since)
    | none => some (k, e.since)

def dropOldest (c : Expiring α) : Expiring α :=
  match oldest? c.entries with
  | some (k, _) => { c with entries := Fields.erase k c.entries }
  | none => c

/-- The cache with room for a key. -/
def makeRoom (c : Expiring α) (now : Int) (k : String) : Expiring α :=
  if c.isFullFor k then
    if (c.dropExpired now).isFullFor k then (c.dropExpired now).dropOldest else c.dropExpired now
  else c

/-- Without capacity nothing is kept. -/
def insert (c : Expiring α) (now : Int) (k : String) (a : α) : Expiring α :=
  if c.capacity = 0 then c
  else { c with entries := Fields.insert k ⟨a, now⟩ (c.makeRoom now k).entries }

def remove (c : Expiring α) (k : String) : Expiring α :=
  { c with entries := Fields.erase k c.entries }

def clear (c : Expiring α) : Expiring α := { c with entries := [] }

@[simp] theorem get?_remove_self (c : Expiring α) (now : Int) (k : String) :
    (c.remove k).get? now k = none := by simp [get?, remove]

@[simp] theorem get?_remove_of_ne (c : Expiring α) (now : Int) {k l : String} (h : l ≠ k) :
    (c.remove k).get? now l = c.get? now l := by simp [get?, remove, h]

@[simp] theorem get?_clear (c : Expiring α) (now : Int) (k : String) :
    c.clear.get? now k = none := rfl

theorem get?_insert_self (c : Expiring α) (hc : c.capacity ≠ 0) (hl : 0 < c.lifetime) (now : Int)
    (k : String) (a : α) : (c.insert now k a).get? now k = some a := by
  simp only [insert, hc, ite_false, get?, Fields.get?_insert_self]
  rw [Option.filter_some, if_pos (by simp [Entry.isExpired]; omega)]
  rfl

end Expiring
end Switchboard
