import Switchboard.Rule.Engine

/-! Rules one after the other. Each of them has a value or none and goes on from what those before
it have written; nothing but a handler crashes. -/
namespace Switchboard.Rule

theorem Outcome.ofExcept_ne_crashed (x : Except Error Json) (c : Crash) :
    Outcome.ofExcept x ≠ .crashed c := by
  cases x <;> nofun

section Calm
variable {handlers : Fields Handler}
  (h : ∀ name handler, Fields.get? name handlers = some handler →
    ∀ v record c, handler v record ≠ .error (.crashed c))
include h

theorem apply_ne_crashed (r : Rule) (v record : Json) (c : Crash) :
    apply handlers r v record ≠ .crashed c := by
  unfold apply
  cases r.kind with
  | direct => nofun
  | format => exact Outcome.ofExcept_ne_crashed _ c
  | lookup => nofun
  | calculate => exact Outcome.ofExcept_ne_crashed _ c
  | conditional =>
    cases r.settings.condition with
    | none => nofun
    | some condition =>
      dsimp only
      split <;> nofun
  | custom =>
    dsimp only
    cases hhandler : r.settings.handler.bind fun name => Fields.get? name handlers with
    | none => nofun
    | some handler =>
      obtain ⟨name, -, hname⟩ := Option.bind_eq_some_iff.mp hhandler
      dsimp only
      rcases hv : handler v record with (e | x) | w
      · nofun
      · exact absurd hv (h name handler hname v record x)
      · nofun

theorem result_ne_error (record : Json) (r : Rule) (c : Crash) :
    result handlers record r ≠ .error c := by
  unfold result
  cases Path.get? (Path.parse r.source) record with
  | none => nofun
  | some v =>
    dsimp only
    cases ha : apply handlers r v record with
    | value w => nofun
    | omitted => nofun
    | failed e => nofun
    | crashed x => exact absurd ha (apply_ne_crashed h r v record x)

end Calm

section
variable {handlers : Fields Handler} {record target out : Json} {r : Rule} {rules xs ys : List Rule}

/-- The place that a rule writes. No proof looks into how its text is read. -/
@[irreducible] def place (r : Rule) : Path := Path.parse r.target

/-- The target with what a rule writes, if anything. -/
def written (r : Rule) (target : Json) : Option Json → Json
  | some v => (Path.set v r.place target).1
  | none => target

theorem step_of_result {o : Option Json} (h : result handlers record r = .ok o) (target : Json) :
    step handlers record target r = .ok (written r target o) := by
  unfold step
  rw [h]
  cases o with
  | none => rfl
  | some v =>
    unfold written place
    rfl

/-- The first of some rules writes, and the others go on. -/
theorem foldlM_step_cons {o : Option Json} (h : result handlers record r = .ok o)
    (target : Json) (rules : List Rule) :
    (r :: rules).foldlM (step handlers record) target =
      rules.foldlM (step handlers record) (written r target o) := by
  rw [List.foldlM_cons, step_of_result h]
  rfl

/-- What comes to its end began with a rule that did not crash. -/
theorem exists_result_of_foldlM (h : (r :: rules).foldlM (step handlers record) target = .ok out) :
    ∃ o, result handlers record r = .ok o ∧
      rules.foldlM (step handlers record) (written r target o) = .ok out := by
  cases hr : result handlers record r with
  | ok o => exact ⟨o, rfl, (foldlM_step_cons hr target rules).symm.trans h⟩
  | error c =>
    rw [List.foldlM_cons, step, hr] at h
    cases h

/-- Rules that do not crash come to their end. -/
theorem exists_foldlM (h : ∀ r ∈ rules, ∀ c, result handlers record r ≠ .error c)
    (target : Json) : ∃ out, rules.foldlM (step handlers record) target = .ok out := by
  induction rules generalizing target with
  | nil => exact ⟨target, rfl⟩
  | cons r rules ih =>
    obtain ⟨hr, hrules⟩ := List.forall_mem_cons.mp h
    cases ho : result handlers record r with
    | ok o =>
      rw [foldlM_step_cons ho]
      exact ih hrules _
    | error c => exact absurd ho (hr c)

/-- Whatever rules there are, one that crashes is the end of all. -/
theorem result_ne_error_of_foldlM
    (h : rules.foldlM (step handlers record) target = .ok out) :
    ∀ r ∈ rules, ∀ c, result handlers record r ≠ .error c := by
  induction rules generalizing target with
  | nil => exact fun r hr => by cases hr
  | cons r rules ih =>
    obtain ⟨o, ho, hrest⟩ := exists_result_of_foldlM h
    refine List.forall_mem_cons.mpr ⟨fun c hc => ?_, ih hrest⟩
    rw [ho] at hc
    cases hc

theorem applyAll_append (handlers : Fields Handler) (xs ys : List Rule) (record : Json) :
    applyAll handlers (xs ++ ys) record =
      (applyAll handlers xs record).bind (ys.foldlM (step handlers record)) :=
  List.foldlM_append

/-- A rule goes on from what those before it have built. -/
theorem applyAll_append_cons {o : Option Json} (hxs : applyAll handlers xs record = .ok target)
    (ho : result handlers record r = .ok o) (ys : List Rule) :
    applyAll handlers (xs ++ r :: ys) record =
      ys.foldlM (step handlers record) (r.written target o) := by
  rw [applyAll_append, hxs]
  exact foldlM_step_cons ho target ys

end

/-- Rules crash only where a handler does. -/
theorem applyAll_ne_error {handlers : Fields Handler}
    (h : ∀ name handler, Fields.get? name handlers = some handler →
      ∀ v record c, handler v record ≠ .error (.crashed c))
    (rules : List Rule) (record : Json) (c : Crash) :
    applyAll handlers rules record ≠ .error c := by
  obtain ⟨out, hout⟩ : ∃ out, rules.foldlM (step handlers record) (.obj []) = .ok out :=
    exists_foldlM (fun r _ => result_ne_error h record r) _
  unfold applyAll
  rw [hout]
  nofun

end Switchboard.Rule
