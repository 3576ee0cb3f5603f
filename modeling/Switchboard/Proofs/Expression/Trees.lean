import Mathlib.Data.List.Chain
import Switchboard.Expression.Tree

/-! Induction over expressions, where what is to be shown is known of every member of an object and
of every item of an array; how high an expression is, and how far down a walk can lead. -/
namespace Switchboard.Expression

namespace Expr

@[elab_as_elim]
theorem induct {motive : Expr → Prop} (literal : ∀ v, motive (.literal v))
    (undefined : motive .undefined) (root : motive .root) (var : ∀ name, motive (.var name))
    (property : ∀ target name, motive target → motive (.property target name))
    (index : ∀ target key, motive target → motive key → motive (.index target key))
    (call : ∀ target method, motive target → motive (.call target method))
    (visit : ∀ target method param body, motive target → motive body →
      motive (.visit target method param body))
    (slice : ∀ target start, motive target → motive start → motive (.slice target start))
    (sliceTo : ∀ target start stop, motive target → motive start → motive stop →
      motive (.sliceTo target start stop))
    (object : ∀ members, (∀ m ∈ members, motive m.2) → motive (.object members))
    (array : ∀ items, (∀ e ∈ items, motive e) → motive (.array items))
    (binary : ∀ op lhs rhs, motive lhs → motive rhs → motive (.binary op lhs rhs))
    (not : ∀ e, motive e → motive (.not e)) (e : Expr) : motive e :=
  @Expr.rec motive (fun members => ∀ m ∈ members, motive m.2) (fun items => ∀ e ∈ items, motive e)
    (fun m => motive m.2) literal undefined root var property index call visit slice sliceTo object
    array binary not (fun _ h => (List.not_mem_nil h).elim)
    (fun _ _ hm hms => List.forall_mem_cons.mpr ⟨hm, hms⟩)
    (fun _ h => (List.not_mem_nil h).elim)
    (fun _ _ he hes => List.forall_mem_cons.mpr ⟨he, hes⟩) (fun _ _ he => he) e

mutual

/-- A leaf has height one, and every other expression one more than its highest part. -/
def height : Expr → Nat
  | literal _ => 1
  | undefined => 1
  | root => 1
  | var _ => 1
  | property target _ => target.height + 1
  | index target key => max target.height key.height + 1
  | call target _ => target.height + 1
  | visit target _ _ body => max target.height body.height + 1
  | slice target start => max target.height start.height + 1
  | sliceTo target start stop => max target.height (max start.height stop.height) + 1
  | object members => heightMembers members + 1
  | array items => heightItems items + 1
  | binary _ lhs rhs => max lhs.height rhs.height + 1
  | not e => e.height + 1

def heightMembers : List (String × Expr) → Nat
  | [] => 0
  | (_, e) :: members => max e.height (heightMembers members)

def heightItems : List Expr → Nat
  | [] => 0
  | e :: items => max e.height (heightItems items)

end

theorem height_le_of_mem_members {m : String × Expr} {members : List (String × Expr)}
    (h : m ∈ members) : m.2.height ≤ heightMembers members := by
  induction members with
  | nil => cases h
  | cons n members ih =>
    rw [heightMembers]
    rcases List.mem_cons.mp h with rfl | h
    · exact Nat.le_max_left _ _
    · exact Nat.le_trans (ih h) (Nat.le_max_right _ _)

theorem height_le_of_mem_items {e : Expr} {items : List Expr} (h : e ∈ items) :
    e.height ≤ heightItems items := by
  induction items with
  | nil => cases h
  | cons f items ih =>
    rw [heightItems]
    rcases List.mem_cons.mp h with rfl | h
    · exact Nat.le_max_left _ _
    · exact Nat.le_trans (ih h) (Nat.le_max_right _ _)

theorem exists_mem_height_eq {items : List Expr} (h : items ≠ []) :
    ∃ e ∈ items, e.height = heightItems items := by
  induction items with
  | nil => exact absurd rfl h
  | cons e items ih =>
    rcases Nat.le_total e.height (heightItems items) with hle | hle
    · rcases items with _ | ⟨f, items⟩
      · exact ⟨e, .head _, (Nat.max_zero _).symm⟩
      · obtain ⟨g, hg, heq⟩ := ih (List.cons_ne_nil _ _)
        exact ⟨g, .tail _ hg, heq.trans (Nat.max_eq_right hle).symm⟩
    · exact ⟨e, .head _, (Nat.max_eq_left hle).symm⟩

/-- The expressions right below an expression. -/
def parts : Expr → List Expr
  | literal _ => []
  | undefined => []
  | root => []
  | var _ => []
  | property target _ => [target]
  | index target key => [target, key]
  | call target _ => [target]
  | visit target _ _ body => [target, body]
  | slice target start => [target, start]
  | sliceTo target start stop => [target, start, stop]
  | object members => members.map Prod.snd
  | array items => items
  | binary _ lhs rhs => [lhs, rhs]
  | not e => [e]

theorem heightMembers_eq (members : List (String × Expr)) :
    heightMembers members = heightItems (members.map Prod.snd) := by
  induction members with
  | nil => rfl
  | cons m members ih => rw [heightMembers, ih, List.map_cons, heightItems]

theorem height_eq (e : Expr) : e.height = heightItems e.parts + 1 := by
  cases e with
  | object members => rw [height, heightMembers_eq, parts]
  | array items => rw [height, parts]
  | _ => simp [height, parts, heightItems]

theorem height_pos (e : Expr) : 0 < e.height := by
  rw [height_eq]
  exact Nat.succ_pos _

theorem height_lt_of_mem_parts {e f : Expr} (h : f ∈ e.parts) : f.height < e.height := by
  rw [e.height_eq]
  exact Nat.lt_succ_of_le (height_le_of_mem_items h)

/-- Each expression is a part of the one before it. -/
def IsWalk (walk : List Expr) : Prop := walk.IsChain fun e f => f ∈ e.parts

theorem IsWalk.length_le_height {e : Expr} {walk : List Expr} (h : IsWalk (e :: walk)) :
    (e :: walk).length ≤ e.height := by
  induction walk generalizing e with
  | nil => exact e.height_pos
  | cons f walk ih =>
    obtain ⟨hf, hwalk⟩ := List.isChain_cons_cons.mp h
    exact Nat.succ_le_of_lt (Nat.lt_of_le_of_lt (ih hwalk) (height_lt_of_mem_parts hf))

/-- Always on to the highest part, a walk is as long as the expression is high. -/
theorem exists_walk (e : Expr) : ∃ walk, IsWalk (e :: walk) ∧ (e :: walk).length = e.height := by
  induction hn : heightItems e.parts generalizing e with
  | zero =>
    rw [height_eq, hn]
    exact ⟨[], List.isChain_singleton e, rfl⟩
  | succ n ih =>
    have hne : e.parts ≠ [] := by
      intro hnil
      rw [hnil] at hn
      cases hn
    obtain ⟨f, hf, hheight⟩ := exists_mem_height_eq hne
    rw [hn, height_eq, Nat.add_right_cancel_iff] at hheight
    obtain ⟨walk, hwalk, hlength⟩ := ih f hheight
    refine ⟨f :: walk, List.isChain_cons_cons.mpr ⟨hf, hwalk⟩, ?_⟩
    rw [List.length_cons, hlength, height_eq, height_eq, hheight, hn]

end Expr

end Switchboard.Expression
