import Switchboard.Proofs.Rule.Ordered

/-! Rules that write nothing. A rule without a value, or with one that its place refuses, changes
nothing for the rules around it; a rule that falls back on its default is like one that has that
value. A missing source is looked at before what kind of rule it is, so that the default of a
conditional rule is written in spite of its condition. -/
namespace Switchboard.Rule

/-- The rule finds nothing to work on. -/
def Misses (record : Json) (r : Rule) : Prop :=
  Path.get? (Path.parse r.source) record = none

/-- The rule fails on the value of its source. -/
def Fails (handlers : Fields Handler) (record : Json) (r : Rule) : Prop :=
  ∃ v e, Path.get? (Path.parse r.source) record = some v ∧ apply handlers r v record = .failed e

/-- The rule makes this of the value of its source. -/
def Makes (handlers : Fields Handler) (record : Json) (r : Rule) (w : Json) : Prop :=
  ∃ v, Path.get? (Path.parse r.source) record = some v ∧ apply handlers r v record = .value w

/-- Why a rule writes nothing into what the rules before it have built. -/
inductive Silent (handlers : Fields Handler) (record target : Json) (r : Rule) : Prop
  | missing (source : r.Misses record) (default : r.settings.default = none)
  | unmet {v : Json} {c : Condition} (source : Path.get? (Path.parse r.source) record = some v)
      (kind : r.kind = .conditional) (condition : r.settings.condition = some c)
      (fails : c.holds record = false)
  | failed (fails : r.Fails handlers record) (default : r.settings.default = none)
  | refused {v : Json} {e : Path.WriteError} (result : result handlers record r = .ok (some v))
      (refusal : (Path.set v (Path.parse r.target) target).2 = some e)

section
variable {handlers : Fields Handler} {record target : Json} {r : Rule} {xs ys : List Rule}

theorem result_of_misses (h : r.Misses record) :
    result handlers record r = .ok r.settings.default := by
  unfold result
  rw [h]

theorem result_of_fails (h : r.Fails handlers record) :
    result handlers record r = .ok r.settings.default := by
  obtain ⟨v, e, hv, he⟩ := h
  unfold result
  rw [hv]
  dsimp only
  rw [he]

theorem result_of_makes {w : Json} (h : r.Makes handlers record w) :
    result handlers record r = .ok (some w) := by
  obtain ⟨v, hv, hw⟩ := h
  unfold result
  rw [hv]
  dsimp only
  rw [hw]

theorem result_of_unmet {v : Json} {c : Condition}
    (hv : Path.get? (Path.parse r.source) record = some v) (hk : r.kind = .conditional)
    (hc : r.settings.condition = some c) (h : c.holds record = false) :
    result handlers record r = .ok none := by
  have homitted : apply handlers r v record = .omitted := by
    unfold apply
    rw [hk]
    dsimp only
    rw [hc]
    dsimp only
    rw [if_neg (by rw [h]; exact Bool.false_ne_true)]
  unfold result
  rw [hv]
  dsimp only
  rw [homitted]

/-- A silent rule has no value, or one that changes nothing. -/
theorem Silent.written_eq (h : r.Silent handlers record target) (htarget : target.Ordered) :
    ∃ o, result handlers record r = .ok o ∧ r.written target o = target := by
  cases h with
  | missing source default => exact ⟨none, by rw [result_of_misses source, default], rfl⟩
  | unmet source kind condition fails =>
    exact ⟨none, result_of_unmet source kind condition fails, rfl⟩
  | failed fails default => exact ⟨none, by rw [result_of_fails fails, default], rfl⟩
  | refused result refusal =>
    refine ⟨_, result, ?_⟩
    unfold written place
    exact Path.set_fst_of_error htarget refusal

/-- Rules build a record, and a rule among them that is silent might as well not be there. One that
finds no source or fails writes its default, if it has one, as a rule does that makes it. -/
theorem applyAll_of_silent
    (calm : ∀ name handler, Fields.get? name handlers = some handler →
      ∀ v record c, handler v record ≠ .error (.crashed c))
    (orderly : Orderly handlers xs) (hrecord : record.Ordered) (r : Rule) (ys : List Rule) :
    ∃ target out, applyAll handlers xs record = .ok target ∧
      applyAll handlers (xs ++ r :: ys) record = .ok out ∧
      (r.Silent handlers record target → applyAll handlers (xs ++ ys) record = .ok out) ∧
      ∀ d, r.settings.default = some d → r.Misses record ∨ r.Fails handlers record →
        ys.foldlM (step handlers record) (Path.set d (Path.parse r.target) target).1 = .ok out ∧
        ∀ q : Rule, q.target = r.target → q.Makes handlers record d →
          applyAll handlers (xs ++ q :: ys) record = .ok out := by
  have hends : ∀ rules, ∃ out, applyAll handlers rules record = .ok out := by
    intro rules
    cases h : applyAll handlers rules record with
    | ok out => exact ⟨out, rfl⟩
    | error c => exact absurd h (applyAll_ne_error calm rules record c)
  obtain ⟨target, htarget⟩ := hends xs
  obtain ⟨out, hout⟩ := hends (xs ++ r :: ys)
  refine ⟨target, out, htarget, hout, fun hsilent => ?_, fun d hd hfallback => ?_⟩
  · have hordered := orderly.ordered_applyAll hrecord htarget
    obtain ⟨o, ho, hsame⟩ := hsilent.written_eq hordered
    rw [applyAll_append_cons htarget ho, hsame] at hout
    rw [applyAll_append, htarget]
    exact hout
  · have hr : result handlers record r = .ok (some d) := by
      rcases hfallback with h | h
      · rw [result_of_misses h, hd]
      · rw [result_of_fails h, hd]
    rw [applyAll_append_cons htarget hr] at hout
    refine ⟨?_, fun q hq hmakes => ?_⟩
    · unfold written place at hout
      exact hout
    · rw [applyAll_append_cons htarget (result_of_makes hmakes)]
      unfold written place at hout ⊢
      rw [hq]
      exact hout

end

namespace Sample

def first : Rule := { id := "first", source := "a", target := "x" }

/-- It finds no source, and its default is refused by its place. -/
def refused : Rule :=
  { id := "refused", source := "b", target := "x.y", settings := { default := some (.bool true) } }

/-- It makes what the other one has for its default. -/
def copied : Rule := { id := "copied", source := "a", target := "x.y" }

def last : Rule := { id := "last", source := "a", target := "z" }

def record : Json := .obj [("a", .bool true)]

end Sample

open Sample in
theorem applyAll_of_silent_refused :
    refused.Silent [] record (.obj [("x", .bool true)]) ∧
      ∃ out, applyAll [] ([first] ++ refused :: [last]) record = .ok out ∧
        applyAll [] ([first] ++ [last]) record = .ok out ∧
        applyAll [] ([first] ++ copied :: [last]) record = .ok out := by
  have orderly : Orderly [] [first] := by
    refine ⟨?_, ?_, nofun⟩
    · intro r hr v hv
      rw [List.mem_singleton.mp hr] at hv
      cases hv
    · intro r hr table htable
      rw [List.mem_singleton.mp hr] at htable
      cases htable
  have hrecord : record.Ordered := by
    refine .obj (List.pairwise_singleton _ _) fun e he => ?_
    rw [List.mem_singleton.mp he]
    exact .bool true
  have hmisses : Path.get? (Path.parse refused.source) record = none := by rfl
  have hrefused : (Path.set (.bool true) (Path.parse refused.target)
      (.obj [("x", .bool true)])).2 = some (.notAnObject "y") := by rfl
  have hsilent : refused.Silent [] record (.obj [("x", .bool true)]) :=
    .refused (result_of_misses hmisses) hrefused
  have hfirst : applyAll [] [first] record = .ok (.obj [("x", .bool true)]) := by rfl
  have hsource : Path.get? (Path.parse copied.source) record = some (.bool true) := by rfl
  obtain ⟨target, out, htarget, hout, hsame, hdefault⟩ :=
    applyAll_of_silent (fun _ _ h => by cases h) orderly hrecord refused [last]
  rw [hfirst] at htarget
  cases htarget
  exact ⟨hsilent, out, hout, hsame hsilent,
    (hdefault _ rfl (.inl hmisses)).2 copied rfl ⟨.bool true, hsource, rfl⟩⟩

/-- A rule whose condition asks for a field that the empty record does not have. -/
def Sample.guarded : Rule where
  id := "guarded"
  source := "a"
  target := "b"
  kind := .conditional
  settings := { condition := some ⟨"c", .exists, none⟩, default := some (.bool true) }

/-- A conditional rule without a source writes its default although its condition does not hold. -/
theorem unmet_condition_writes_default :
    (⟨"c", .exists, none⟩ : Condition).holds (.obj []) = false ∧
      applyAll [] ([] ++ Sample.guarded :: []) (.obj []) = .ok (.obj [("b", .bool true)]) ∧
      applyAll [] ([] ++ Sample.guarded :: []) (.obj []) ≠ applyAll [] ([] ++ []) (.obj []) := by
  have hwritten : applyAll [] ([] ++ Sample.guarded :: []) (.obj []) =
      .ok (.obj [("b", .bool true)]) := by rfl
  refine ⟨by rfl, hwritten, ?_⟩
  rw [hwritten]
  nofun

end Switchboard.Rule
