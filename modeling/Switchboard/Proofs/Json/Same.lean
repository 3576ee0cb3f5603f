import Switchboard.Proofs.Decimal.Storage
import Switchboard.Json.Basic

/-! Induction over JSON values, and their equality. It takes the two zeros of floats for one value,
and a float that is no number for none; all other values are equal to themselves alone. -/
namespace Switchboard

/-- Neither the negative zero nor unequal to itself. -/
def Number.Definite : Number → Prop
  | .int _ => True
  | .float x => (x == x) = true ∧ x ≠ -0

theorem Number.same_iff {m n : Number} (hm : m.Definite) (hn : n.Definite) :
    m.same n = true ↔ m = n := by
  cases m with
  | int a =>
    cases n with
    | int b => simp [same]
    | float y => simp [same]
  | float x =>
    cases n with
    | int b => simp [same]
    | float y =>
      rw [same, Number.float.injEq]
      constructor
      · intro h
        rcases Decimal.eq_of_beq h with rfl | ⟨hx, hy⟩
        · rfl
        · rw [hx.resolve_right hm.2, hy.resolve_right hn.2]
      · rintro rfl
        exact hm.1

namespace Json

/-- What is to be shown is known of every item of an array and of every member of an object. -/
@[elab_as_elim]
theorem induct {motive : Json → Prop} (null : motive .null) (bool : ∀ b, motive (.bool b))
    (num : ∀ n, motive (.num n)) (str : ∀ s, motive (.str s))
    (arr : ∀ items, (∀ v ∈ items, motive v) → motive (.arr items))
    (obj : ∀ members, (∀ m ∈ members, motive m.2) → motive (.obj members)) (v : Json) : motive v :=
  @Json.rec motive (fun items => ∀ v ∈ items, motive v) (fun members => ∀ m ∈ members, motive m.2)
    (fun m => motive m.2) null bool num str arr obj (fun _ h => (List.not_mem_nil h).elim)
    (fun _ _ hv hvs => List.forall_mem_cons.mpr ⟨hv, hvs⟩)
    (fun _ h => (List.not_mem_nil h).elim)
    (fun _ _ hm hms => List.forall_mem_cons.mpr ⟨hm, hms⟩) (fun _ _ hv => hv) v

/-- Every number in the value is definite. -/
inductive Definite : Json → Prop
  | null : Definite .null
  | bool (b : Bool) : Definite (.bool b)
  | num {n : Number} (h : n.Definite) : Definite (.num n)
  | str (s : String) : Definite (.str s)
  | arr {items : List Json} (h : ∀ v ∈ items, Definite v) : Definite (.arr items)
  | obj {members : List (String × Json)} (h : ∀ m ∈ members, Definite m.2) :
    Definite (.obj members)

/-- The test agrees with equality for this value. -/
def Agrees (v : Json) : Prop := ∀ w, v.Definite → w.Definite → (v.same w = true ↔ v = w)

theorem sameItems_iff {as bs : List Json} (hsame : ∀ v ∈ as, v.Agrees)
    (has : ∀ v ∈ as, v.Definite) (hbs : ∀ v ∈ bs, v.Definite) :
    sameItems as bs = true ↔ as = bs := by
  induction as generalizing bs with
  | nil => cases bs <;> simp [sameItems]
  | cons a as ih =>
    cases bs with
    | nil => simp [sameItems]
    | cons b bs =>
      obtain ⟨hagrees, hsame⟩ := List.forall_mem_cons.mp hsame
      obtain ⟨ha, has⟩ := List.forall_mem_cons.mp has
      obtain ⟨hb, hbs⟩ := List.forall_mem_cons.mp hbs
      rw [sameItems, Bool.and_eq_true_iff, hagrees b ha hb, ih hsame has hbs, List.cons.injEq]

theorem sameMembers_iff {as bs : List (String × Json)} (hsame : ∀ m ∈ as, m.2.Agrees)
    (has : ∀ m ∈ as, m.2.Definite) (hbs : ∀ m ∈ bs, m.2.Definite) :
    sameMembers as bs = true ↔ as = bs := by
  induction as generalizing bs with
  | nil => cases bs <;> simp [sameMembers]
  | cons m as ih =>
    cases bs with
    | nil => simp [sameMembers]
    | cons n bs =>
      obtain ⟨k, a⟩ := m
      obtain ⟨l, b⟩ := n
      obtain ⟨hagrees, hsame⟩ := List.forall_mem_cons.mp hsame
      obtain ⟨ha, has⟩ := List.forall_mem_cons.mp has
      obtain ⟨hb, hbs⟩ := List.forall_mem_cons.mp hbs
      rw [sameMembers, Bool.and_eq_true_iff, Bool.and_eq_true_iff, beq_iff_eq, hagrees b ha hb,
        ih hsame has hbs, List.cons.injEq, Prod.mk.injEq]

theorem same_iff {v w : Json} (hv : v.Definite) (hw : w.Definite) : v.same w = true ↔ v = w := by
  suffices h : v.Agrees from h w hv hw
  clear hv hw w
  induction v using induct with
  | null =>
    intro w _ _
    cases w <;> simp [same]
  | bool b =>
    intro w _ _
    cases w <;> simp [same]
  | num m =>
    intro w hv hw
    cases w with
    | num n =>
      cases hv with | num hm =>
      cases hw with | num hn =>
      rw [same, Json.num.injEq, Number.same_iff hm hn]
    | _ => simp [same]
  | str s =>
    intro w _ _
    cases w <;> simp [same]
  | arr items ih =>
    intro w hv hw
    cases w with
    | arr items' =>
      cases hv with | arr hitems =>
      cases hw with | arr hitems' =>
      rw [same, Json.arr.injEq, sameItems_iff ih hitems hitems']
    | _ => simp [same]
  | obj members ih =>
    intro w hv hw
    cases w with
    | obj members' =>
      cases hv with | obj hmembers =>
      cases hw with | obj hmembers' =>
      rw [same, Json.obj.injEq, sameMembers_iff ih hmembers hmembers']
    | _ => simp [same]

end Json
end Switchboard
