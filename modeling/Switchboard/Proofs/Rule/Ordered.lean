import Switchboard.Proofs.Path.Writes
import Switchboard.Proofs.Rule.Steps

/-! Rules build records whose members are in order, out of values that have them so. -/
namespace Switchboard

theorem Json.ordered_ofFloat (x : Float) : (Json.ofFloat x).Ordered := by
  unfold Json.ofFloat
  cases Number.ofFloat? x with
  | none => exact .null
  | some n => exact .num n

namespace Rule

theorem ordered_of_number? {v n : Json} (h : number? v = some n) : n.Ordered := by
  unfold number? at h
  split at h
  · cases h
    exact .num _
  · cases h
    exact .num _
  · obtain ⟨x, -, rfl⟩ := Option.map_eq_some_iff.mp h
    exact Json.ordered_ofFloat x
  · cases h

/-- Formats make text, a number or a truth value. -/
theorem ordered_of_applyFormat {format : String} {v w : Json} (h : applyFormat format v = .ok w) :
    w.Ordered := by
  unfold applyFormat at h
  dsimp only at h
  split at h
  · cases h
    exact .str _
  split at h
  · cases h
    exact .str _
  split at h
  · cases h
    exact .str _
  split at h
  · split at h
    · cases h
      exact .str _
    · cases h
  split at h
  · split at h
    · cases h
      exact .str _
    · cases h
  split at h
  · split at h
    · rename_i n hn
      cases h
      exact ordered_of_number? hn
    · cases h
  split at h
  · cases h
    exact .bool _
  split at h
  · cases h
    exact .str _
  · cases h
    exact .str _

theorem ordered_of_calculate {formula : String} {v record w : Json} (hv : v.Ordered)
    (h : calculate formula v record = .ok w) : w.Ordered := by
  unfold calculate at h
  dsimp only at h
  split at h
  · cases h
    exact hv
  · split at h
    · cases h
      exact Json.ordered_ofFloat _
    · cases h

/-- Values that come with rules have their members in order, and handlers make such values of such
values. -/
structure Orderly (handlers : Fields Handler) (rules : List Rule) : Prop where
  default : ∀ r ∈ rules, ∀ v, r.settings.default = some v → v.Ordered
  lookup : ∀ r ∈ rules, ∀ table, r.settings.lookup = some table → ∀ e ∈ table, e.2.Ordered
  handler : ∀ name handler, Fields.get? name handlers = some handler → ∀ v record w, v.Ordered →
    record.Ordered → handler v record = .ok w → w.Ordered

theorem Orderly.tail {handlers : Fields Handler} {r : Rule} {rules : List Rule}
    (h : Orderly handlers (r :: rules)) : Orderly handlers rules where
  default := fun q hq => h.default q (List.mem_cons_of_mem r hq)
  lookup := fun q hq => h.lookup q (List.mem_cons_of_mem r hq)
  handler := h.handler

theorem eq_ok_of_ofExcept {x : Except Error Json} {w : Json} (h : Outcome.ofExcept x = .value w) :
    x = .ok w := by
  cases x with
  | ok v =>
    cases h
    rfl
  | error e => cases h

section
variable {handlers : Fields Handler} {record target out : Json} {rules : List Rule}

theorem Orderly.ordered_of_apply (h : Orderly handlers rules) {r : Rule} (hr : r ∈ rules)
    {v w : Json} (hrecord : record.Ordered) (hv : v.Ordered)
    (hw : apply handlers r v record = .value w) : w.Ordered := by
  unfold apply at hw
  cases hk : r.kind with
  | direct =>
    rw [hk] at hw
    cases hw
    exact hv
  | format =>
    rw [hk] at hw
    have hformat := eq_ok_of_ofExcept hw
    cases hf : r.settings.format with
    | none =>
      rw [hf] at hformat
      cases hformat
      exact hv
    | some f =>
      rw [hf] at hformat
      exact ordered_of_applyFormat hformat
  | lookup =>
    rw [hk] at hw
    cases hw
    cases hfound : r.settings.lookup.bind fun table => Fields.get? v.plainText table with
    | none => exact hv
    | some x =>
      obtain ⟨table, htable, hx⟩ := Option.bind_eq_some_iff.mp hfound
      exact h.lookup r hr table htable _ (Fields.mem_of_get? hx)
  | calculate =>
    rw [hk] at hw
    have hcalculate := eq_ok_of_ofExcept hw
    cases hf : r.settings.expression with
    | none =>
      rw [hf] at hcalculate
      cases hcalculate
      exact hv
    | some f =>
      rw [hf] at hcalculate
      exact ordered_of_calculate hv hcalculate
  | conditional =>
    rw [hk] at hw
    dsimp only at hw
    split at hw
    · split at hw
      · cases hw
        exact hv
      · cases hw
    · cases hw
      exact hv
  | custom =>
    rw [hk] at hw
    dsimp only at hw
    split at hw
    · cases hw
      exact hv
    · rename_i handler hhandler
      obtain ⟨name, -, hname⟩ := Option.bind_eq_some_iff.mp hhandler
      split at hw
      · rename_i hx
        cases hw
        exact h.handler name handler hname v record _ hv hrecord hx
      · cases hw
      · cases hw

theorem Orderly.ordered_of_result (h : Orderly handlers rules) {r : Rule} (hr : r ∈ rules)
    (hrecord : record.Ordered) {v : Json} (hv : result handlers record r = .ok (some v)) :
    v.Ordered := by
  unfold result at hv
  split at hv
  · exact h.default r hr v (Except.ok.inj hv)
  · rename_i x hx
    split at hv
    · rename_i w hw
      cases hv
      exact h.ordered_of_apply hr hrecord (Path.ordered_of_get? hrecord hx) hw
    · cases hv
    · exact h.default r hr v (Except.ok.inj hv)
    · cases hv

theorem Orderly.ordered_foldlM (h : Orderly handlers rules) (hrecord : record.Ordered)
    (htarget : target.Ordered) (hout : rules.foldlM (step handlers record) target = .ok out) :
    out.Ordered := by
  induction rules generalizing target with
  | nil =>
    cases hout
    exact htarget
  | cons r rules ih =>
    obtain ⟨o, ho, hrest⟩ := exists_result_of_foldlM hout
    refine ih h.tail ?_ hrest
    cases o with
    | none => exact htarget
    | some v =>
      exact Path.ordered_set (h.ordered_of_result List.mem_cons_self hrecord ho) htarget r.place

/-- What rules build has its members in order. -/
theorem Orderly.ordered_applyAll (h : Orderly handlers rules) (hrecord : record.Ordered)
    (hout : applyAll handlers rules record = .ok out) : out.Ordered :=
  h.ordered_foldlM hrecord (.obj .nil fun e he => by cases he) hout

end
end Rule
end Switchboard
