import Switchboard.Proofs.Path.Writes
import Switchboard.Proofs.Rule.Steps

/-! Rules whose targets part ways. Each of them finds its way open whatever the others have written,
so that they build the same record in any order. -/
namespace Switchboard.Rule
open Switchboard.Path

/-- The targets of two rules part. -/
def Independent (r q : Rule) : Prop := Diverge r.place q.place

instance (r q : Rule) : Decidable (r.Independent q) := decidableDiverge r.place q.place

theorem Independent.symm {r q : Rule} (h : r.Independent q) : q.Independent r := Diverge.symm h

/-- At the start every way is open. -/
theorem open_empty (p : Path) : Open p (.obj []) := by
  cases p with
  | nil => trivial
  | cons s p =>
    have hslot : slot s (base s (.obj [])) = .null := by cases s <;> rfl
    exact ⟨by cases s <;> rfl, by rw [hslot]; exact open_null p⟩

variable {handlers : Fields Handler} {record target out : Json} {r q : Rule}
  {rules others xs ys : List Rule}

theorem open_written {o : Option Json} (h : r.Independent q) (hr : Open r.place target)
    (hq : Open q.place target) : Open r.place (q.written target o) := by
  cases o with
  | none => exact hr
  | some v => exact open_set_of_diverge h hr hq

theorem written_comm {o o' : Option Json} (h : r.Independent q) (hr : Open r.place target)
    (hq : Open q.place target) :
    r.written (q.written target o') o = q.written (r.written target o) o' := by
  cases o with
  | none => rfl
  | some v =>
    cases o' with
    | none => rfl
    | some w => exact set_comm_of_diverge v w h hr hq

/-- What a rule writes leaves the ways of the others open. -/
theorem forall_open_written {o : Option Json} (h : (r :: rules).Pairwise Independent)
    (hopen : ∀ q ∈ r :: rules, Open q.place target) :
    ∀ q ∈ rules, Open q.place (r.written target o) := by
  intro q hq
  have hind : r.Independent q := (List.pairwise_cons.mp h).1 q hq
  exact open_written hind.symm (hopen q (List.mem_cons_of_mem _ hq)) (hopen r List.mem_cons_self)

theorem forall_open_foldlM (h : (xs ++ ys).Pairwise Independent)
    (hopen : ∀ q ∈ xs ++ ys, Open q.place target)
    (hout : xs.foldlM (step handlers record) target = .ok out) :
    ∀ q ∈ ys, Open q.place out := by
  induction xs generalizing target with
  | nil =>
    cases hout
    exact hopen
  | cons r xs ih =>
    obtain ⟨o, -, hrest⟩ := exists_result_of_foldlM hout
    exact ih (List.pairwise_cons.mp h).2 (forall_open_written h hopen) hrest

/-- What is read where none of the rules writes stays there. -/
theorem get?_foldlM {p : Path} {v : Json} (h : rules.Pairwise Independent)
    (hopen : ∀ q ∈ rules, Open q.place target) (hp : ∀ q ∈ rules, Diverge p q.place)
    (hv : get? p target = some v)
    (hout : rules.foldlM (step handlers record) target = .ok out) : get? p out = some v := by
  induction rules generalizing target with
  | nil =>
    cases hout
    exact hv
  | cons r rules ih =>
    obtain ⟨o, -, hrest⟩ := exists_result_of_foldlM hout
    obtain ⟨hpr, hprest⟩ := List.forall_mem_cons.mp hp
    refine ih (List.pairwise_cons.mp h).2 (forall_open_written h hopen) hprest ?_ hrest
    cases o with
    | none => exact hv
    | some w => exact get?_set_of_diverge hpr hv (hopen r List.mem_cons_self)

/-- Independent rules go on to the same record in any order. -/
theorem foldlM_perm (hperm : rules.Perm others) (h : rules.Pairwise Independent)
    (hopen : ∀ q ∈ rules, Open q.place target)
    (hout : rules.foldlM (step handlers record) target = .ok out) :
    others.foldlM (step handlers record) target = .ok out := by
  induction hperm generalizing target with
  | nil => exact hout
  | cons r _ ih =>
    obtain ⟨o, ho, hrest⟩ := exists_result_of_foldlM hout
    rw [foldlM_step_cons ho]
    exact ih (List.pairwise_cons.mp h).2 (forall_open_written h hopen) hrest
  | swap r q rules =>
    obtain ⟨o, ho, hrest⟩ := exists_result_of_foldlM hout
    obtain ⟨o', ho', hrest⟩ := exists_result_of_foldlM hrest
    have hind : q.Independent r := (List.pairwise_cons.mp h).1 r List.mem_cons_self
    have hq : Open q.place target := hopen q List.mem_cons_self
    have hr : Open r.place target := hopen r (List.mem_cons_of_mem _ List.mem_cons_self)
    rw [foldlM_step_cons ho', foldlM_step_cons ho, written_comm hind hq hr]
    exact hrest
  | trans hperm hperm' ih ih' =>
    refine ih' ?_ ?_ (ih h hopen hout)
    · exact (hperm.pairwise_iff Independent.symm).mp h
    · exact fun q hq => hopen q (hperm.mem_iff.mpr hq)

/-- Some rules build a record, no place refuses what they write, and each value is read where its
rule has put it. -/
structure Builds (handlers : Fields Handler) (record : Json) (rules : List Rule) (out : Json) :
    Prop where
  built : applyAll handlers rules record = .ok out
  accepted : ∀ xs r ys target v, rules = xs ++ r :: ys → applyAll handlers xs record = .ok target →
    result handlers record r = .ok (some v) → (Path.set v r.place target).2 = none
  read : ∀ r ∈ rules, ∀ v, result handlers record r = .ok (some v) →
    Path.get? r.place out = some v

theorem builds_of_independent (h : rules.Pairwise Independent)
    (hout : applyAll handlers rules record = .ok out) : Builds handlers record rules out := by
  have hfree : ∀ {rules : List Rule} (q), q ∈ rules → Open q.place (.obj []) :=
    fun q _ => open_empty q.place
  have haccepted : ∀ xs r ys target, rules = xs ++ r :: ys →
      applyAll handlers xs record = .ok target → ∀ q ∈ r :: ys, Open q.place target := by
    rintro xs r ys target rfl htarget
    exact forall_open_foldlM h hfree htarget
  refine ⟨hout, ?_, ?_⟩
  · intro xs r ys target v hsplit htarget _
    exact set_snd_eq_none_iff.mpr (haccepted xs r ys target hsplit htarget r List.mem_cons_self)
  · intro r hr v hv
    obtain ⟨xs, ys, rfl⟩ := List.append_of_mem hr
    cases htarget : applyAll handlers xs record with
    | error c =>
      rw [applyAll_append, htarget] at hout
      cases hout
    | ok target =>
      rw [applyAll_append_cons htarget hv] at hout
      have hopen := haccepted xs r ys target rfl htarget
      have hpair := (List.pairwise_append.mp h).2.1
      have hread : Path.get? r.place (r.written target (some v)) = some v :=
        get?_set (hopen r List.mem_cons_self)
      exact get?_foldlM (List.pairwise_cons.mp hpair).2 (forall_open_written hpair hopen)
        (List.pairwise_cons.mp hpair).1 hread hout

/-- Independent rules build one record in all orders, with each value where its rule has put it, and
no place refuses a value; unless a handler crashes, which is the end in every order. -/
theorem applyAll_of_independent (handlers : Fields Handler) (record : Json)
    (h : rules.Pairwise Independent) :
    (∃ out, ∀ others, others.Perm rules → Builds handlers record others out) ∨
      (∃ r ∈ rules, ∃ c, result handlers record r = .error c) ∧
        ∀ others, others.Perm rules → ∃ c, applyAll handlers others record = .error c := by
  by_cases hcrash : ∃ r ∈ rules, ∃ c, result handlers record r = .error c
  · refine .inr ⟨hcrash, fun others hperm => ?_⟩
    obtain ⟨r, hr, c, hc⟩ := hcrash
    cases hothers : applyAll handlers others record with
    | error c' => exact ⟨c', rfl⟩
    | ok out => exact absurd hc (result_ne_error_of_foldlM hothers r (hperm.mem_iff.mpr hr) c)
  · have hcalm : ∀ r ∈ rules, ∀ c, result handlers record r ≠ .error c :=
      fun r hr c hc => hcrash ⟨r, hr, c, hc⟩
    obtain ⟨out, hout⟩ := exists_foldlM hcalm (.obj [])
    refine .inl ⟨out, fun others hperm => ?_⟩
    have hothers := (hperm.pairwise_iff Independent.symm).mpr h
    exact builds_of_independent hothers
      (foldlM_perm hperm.symm h (fun q _ => open_empty q.place) hout)

/-- Rules that share containers, the later item of a list being written first. -/
def Sample.sharing : List Rule :=
  [{ id := "1", source := "a", target := "x.list[1]" },
    { id := "2", source := "b", target := "x.list[0].y" },
    { id := "3", source := "a", target := "x.z" }]

theorem applyAll_of_independent_sharing :
    Sample.sharing.Pairwise Independent ∧
      ∀ others, others.Perm Sample.sharing →
        Builds [] (.obj [("a", .bool true), ("b", .bool false)]) others
          (.obj [("x", .obj [("list", .arr [.obj [("y", .bool false)], .bool true]),
            ("z", .bool true)])]) := by
  have h : Sample.sharing.Pairwise Independent := by decide +kernel
  refine ⟨h, ?_⟩
  rcases applyAll_of_independent [] (.obj [("a", .bool true), ("b", .bool false)]) h with
    ⟨out, hout⟩ | ⟨⟨r, -, c, hc⟩, -⟩
  · have hbuilt : applyAll [] Sample.sharing (.obj [("a", .bool true), ("b", .bool false)]) =
        .ok (.obj [("x", .obj [("list", .arr [.obj [("y", .bool false)], .bool true]),
          ("z", .bool true)])]) := by rfl
    have hsame := (hout _ (.refl _)).built
    rw [hbuilt] at hsame
    cases hsame
    exact hout
  · exact absurd hc (result_ne_error (fun _ _ h => by cases h) _ r c)

end Switchboard.Rule
