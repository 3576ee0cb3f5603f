import Switchboard.Proofs.Configuration.Valid
import Switchboard.Proofs.Transform.Memory

/-! Which texts transforms parse, and what comes of them. The texts are written down by the
transforms themselves, run so that each is noted before it is parsed. Under a valid configuration
all of them are expressions, and data stays as it is for one of four reasons, none of them a text
that is no expression. -/
namespace Switchboard.Transform

/-- The value of an expression, its text written down. -/
def notedExpress (s : String) (data : Json) : Effect (Memory × List String) (Option Json) := do
  Effect.jot fun _ => s
  Effect.beside (express s data)

/-- What the rules of a transform make of a value. -/
def afterRules (handlers : Fields Rule.Handler) (t : Transform) (v : Json) : Except Crash Json :=
  if t.rules.isEmpty then .ok v else Rule.applyAll handlers t.rules v

def notedRun (lib : Library) (t : Transform) (data : Json) :
    Effect (Memory × List String) Json := do
  let shaped ← t.expression.elim (pure (some data)) (notedExpress · data)
  Effect.ofExcept (shaped.elim (.ok data) (afterRules lib.handlers t))

/-- The data that a reference makes, the texts that are parsed for it written down. -/
def notedApply (lib : Library) (now : Int) (reference : String) (phase : Phase) (data : Json) :
    Effect (Memory × List String) Json := do
  if isInline reference then return (← notedExpress reference data).getD data
  else
    match ← Effect.beside (resolve lib now reference) with
    | none => return data
    | some t => if t.phase.allows phase then notedRun lib t data else return data

theorem notedExpress_notes (s : String) (data : Json) :
    Effect.Notes (notedExpress s data) (express s data) := .jot _ (.beside _)

/-- A transform leaves data without a value as it is, and applies its rules to any value. -/
theorem run_eq (lib : Library) (t : Transform) (data : Json) :
    run lib t data = (do
      let shaped ← t.expression.elim (pure (some data)) (express · data)
      Effect.ofExcept (shaped.elim (.ok data) (afterRules lib.handlers t))) := by
  have hrules : ∀ v, (if t.rules.isEmpty then pure v
      else Effect.ofExcept (Rule.applyAll lib.handlers t.rules v) : Effect Memory Json) =
        Effect.ofExcept (afterRules lib.handlers t v) := by
    intro v
    unfold afterRules
    split <;> rfl
  unfold run
  cases t.expression with
  | none => exact hrules data
  | some s =>
    refine congrArg (express s data >>= ·) (funext fun shaped => ?_)
    cases shaped with
    | none => rfl
    | some v => exact hrules v

theorem notedRun_notes (lib : Library) (t : Transform) (data : Json) :
    Effect.Notes (notedRun lib t data) (run lib t data) := by
  rw [run_eq]
  refine Effect.Notes.bind ?_ fun shaped => .ofExcept _
  cases t.expression with
  | none => exact .pure _
  | some s => exact notedExpress_notes s data

/-- Writing texts down does not change what comes of them. -/
theorem notedApply_notes (lib : Library) (now : Int) (reference : String) (phase : Phase)
    (data : Json) :
    Effect.Notes (notedApply lib now reference phase data)
      (apply lib now reference phase data) := by
  unfold notedApply apply runInline
  by_cases hinline : isInline reference = true
  · rw [if_pos hinline, if_pos hinline]
    exact (notedExpress_notes reference data).bind fun v => .pure _
  · rw [if_neg hinline, if_neg hinline]
    refine (Effect.Notes.beside _).bind fun found => ?_
    cases found with
    | none => exact .pure _
    | some t =>
      by_cases hphase : t.phase.allows phase = true
      · simp only [hphase, ite_true]
        exact notedRun_notes lib t data
      · simp only [hphase]
        exact .pure _

section Parses
variable {lib : Library}

theorem notedExpress_preserves {s : String} (hs : Expression.Parses s) (data : Json) :
    Effect.Preserves (Effect.Along (Memory.Sound lib) Expression.Parses) (notedExpress s data) :=
  (Effect.Preserves.jot fun _ _ => hs).bind fun _ =>
    (express_gives lib s data).preserves.beside

theorem notedRun_preserves {t : Transform}
    (ht : ∀ s, t.expression = some s → Expression.Parses s) (data : Json) :
    Effect.Preserves (Effect.Along (Memory.Sound lib) Expression.Parses) (notedRun lib t data) := by
  refine Effect.Preserves.bind ?_ fun shaped => (Effect.Gives.ofExcept _).preserves
  cases he : t.expression with
  | none => exact .pure _
  | some s => exact notedExpress_preserves (ht s he) data

/-- Whatever is parsed for a reference parses, if the reference itself does where it is inline, and
the expression of the transform that it names. -/
theorem notedApply_preserves {reference : String}
    (hinline : isInline reference = true → Expression.Parses reference)
    (hfound : ∀ t, lib.found? reference = some t → ∀ s, t.expression = some s →
      Expression.Parses s) (now : Int) (phase : Phase) (data : Json) :
    Effect.Preserves (Effect.Along (Memory.Sound lib) Expression.Parses)
      (notedApply lib now reference phase data) := by
  unfold notedApply
  by_cases h : isInline reference = true
  · rw [if_pos h]
    exact (notedExpress_preserves (hinline h) data).bind fun v => .pure _
  · rw [if_neg h]
    refine (resolve_gives lib now reference).beside.bind_preserves ?_
    cases hf : lib.found? reference with
    | none => exact .pure _
    | some t =>
      by_cases hphase : t.phase.allows phase = true
      · simp only [hphase, ite_true]
        exact notedRun_preserves (hfound t hf) data
      · simp only [hphase]
        exact .pure _

end Parses

theorem mem_of_find? {ts : List Transform} {name : String} {t : Transform}
    (h : find? ts name = some t) : t ∈ ts ∧ t.name = name ∧ t.isEnabled = true := by
  obtain ⟨hfind, henabled⟩ := Option.filter_eq_some_iff.mp h
  have hmem := List.mem_of_find?_eq_some hfind
  have hname := List.find?_some hfind
  exact ⟨List.mem_reverse.mp hmem, beq_iff_eq.mp hname, henabled⟩

/-- There is no transform of a name, or it is disabled. -/
theorem cases_of_find?_eq_none {ts : List Transform} {name : String} (h : find? ts name = none) :
    (∀ t ∈ ts, t.name ≠ name) ∨ ∃ t ∈ ts, t.name = name ∧ t.isEnabled = false := by
  unfold find? at h
  cases hfind : ts.reverse.find? (·.name == name) with
  | none =>
    refine .inl fun t ht => ?_
    simpa using List.find?_eq_none.mp hfind t (List.mem_reverse.mpr ht)
  | some t =>
    rw [hfind] at h
    have hmem := List.mem_of_find?_eq_some hfind
    have hname := List.find?_some hfind
    refine .inr ⟨t, List.mem_reverse.mp hmem, beq_iff_eq.mp hname, ?_⟩
    simpa [Option.filter] using h

/-- The transforms that a reference may run in a phase: an expression of its own where it is inline,
else one of its name. -/
inductive Leads (ts : List Transform) (reference : String) (phase : Phase) : Transform → Prop
  | inline (h : isInline reference = true) :
    Leads ts reference phase { name := reference, expression := some reference }
  | named {t : Transform} (h : isInline reference = false) (hmem : t ∈ ts)
    (hname : t.name = reference) (henabled : t.isEnabled = true)
    (hphase : t.phase.allows phase = true) : Leads ts reference phase t

/-- Why a reference leaves data as it is: the name that it is stands for no transform, for one that
is disabled or for one of the other phase, or its expression, which is one, has no value. -/
inductive Passes (ts : List Transform) (reference : String) (phase : Phase) (data : Json) : Prop
  | unknown (h : isInline reference = false) (hname : ∀ t ∈ ts, t.name ≠ reference)
  | disabled {t : Transform} (h : isInline reference = false) (hmem : t ∈ ts)
    (hname : t.name = reference) (hdisabled : t.isEnabled = false)
  | otherPhase {t : Transform} (h : isInline reference = false) (hmem : t ∈ ts)
    (hname : t.name = reference) (hphase : t.phase.allows phase = false)
  | failed {t : Transform} {s : String} {e : Expression.Expr} {x : Expression.EvalError}
    (ht : Leads ts reference phase t) (hs : t.expression = some s)
    (he : Expression.parse s = .ok e) (hx : Expression.eval data none e = .error x)

/-- The result is that of the rules of a transform, on the value of its expression if it has one. -/
inductive Makes (ts : List Transform) (handlers : Fields Rule.Handler) (reference : String)
    (phase : Phase) (data : Json) : Except Crash Json → Prop
  | plain {t : Transform} (ht : Leads ts reference phase t) (hs : t.expression = none) :
    Makes ts handlers reference phase data (afterRules handlers t data)
  | valued {t : Transform} {s : String} {e : Expression.Expr} {v : Option Json}
    (ht : Leads ts reference phase t) (hs : t.expression = some s)
    (he : Expression.parse s = .ok e) (hv : Expression.eval data none e = .ok v) :
    Makes ts handlers reference phase data (afterRules handlers t (v.getD .null))

theorem expressed?_of_parse {s : String} {e : Expression.Expr} (he : Expression.parse s = .ok e)
    (data : Json) :
    expressed? s data =
      match Expression.eval data none e with
      | .ok v => some (v.getD .null)
      | .error _ => none := by
  unfold expressed? Expression.evaluate
  simp only [he]
  cases Expression.eval data none e <;> rfl

theorem shaped_eq_afterRules (lib : Library) (t : Transform) (data : Json) :
    shaped lib t data = (t.expression.elim (some data) (expressed? · data)).elim (.ok data)
      (afterRules lib.handlers t) := by
  unfold shaped
  cases t.expression.elim (some data) (expressed? · data) <;> rfl

/-- A transform whose expression parses does its work, or has no value. -/
theorem shaped_cases {lib : Library} {ts : List Transform} {reference : String} {phase : Phase}
    {t : Transform} (ht : Leads ts reference phase t)
    (hparses : ∀ s, t.expression = some s → Expression.Parses s) (data : Json) :
    shaped lib t data = .ok data ∧ Passes ts reference phase data ∨
      Makes ts lib.handlers reference phase data (shaped lib t data) := by
  cases hs : t.expression with
  | none =>
    rw [shaped_eq_afterRules, hs]
    exact .inr (.plain ht hs)
  | some s =>
    obtain ⟨e, he⟩ := hparses s hs
    rw [shaped_eq_afterRules, hs, Option.elim_some, expressed?_of_parse he]
    cases hx : Expression.eval data none e with
    | error x => exact .inl ⟨rfl, .failed ht hs he hx⟩
    | ok v => exact .inr (.valued ht hs he hx)

/-- The library looks names up among the transforms of the list. -/
def Library.Over (lib : Library) (ts : List Transform) : Prop :=
  ∀ name, lib.find name = .ok (find? ts name)

section Valid
variable {c : Configuration} {lib : Library} {reference : String}

theorem Library.Over.found? {ts : List Transform} (h : lib.Over ts) (name : String) :
    lib.found? name = find? ts name := by
  unfold Library.found?
  rw [h name]

/-- Under a valid configuration, data that a reference leaves as it is has a reason for that. -/
theorem made_cases (hc : c.Valid) (hlib : lib.Over c.transforms)
    (hinline : isInline reference = true → Expression.Parses reference) (phase : Phase)
    (data : Json) :
    made lib reference phase data = .ok data ∧ Passes c.transforms reference phase data ∨
      Makes c.transforms lib.handlers reference phase data (made lib reference phase data) := by
  unfold made
  by_cases h : isInline reference = true
  · rw [if_pos h]
    have hwork := @shaped_cases lib _ _ phase _ (.inline h : Leads c.transforms reference phase _)
      (fun s hs => Option.some.inj hs ▸ hinline h) data
    have hshaped : shaped lib { name := reference, expression := some reference } data =
        .ok ((expressed? reference data).getD data) := by
      rw [shaped_eq_afterRules, Option.elim_some]
      cases expressed? reference data <;> rfl
    rwa [hshaped] at hwork
  · have hname : isInline reference = false := Bool.eq_false_iff.mpr h
    rw [if_neg h, hlib.found?]
    cases hfind : find? c.transforms reference with
    | none =>
      rcases cases_of_find?_eq_none hfind with hnone | ⟨t, hmem, ht, hdisabled⟩
      · exact .inl ⟨rfl, .unknown hname hnone⟩
      · exact .inl ⟨rfl, .disabled hname hmem ht hdisabled⟩
    | some t =>
      obtain ⟨hmem, ht, henabled⟩ := mem_of_find? hfind
      by_cases hphase : t.phase.allows phase = true
      · simp only [hphase, ite_true]
        exact shaped_cases (.named hname hmem ht henabled hphase) (hc.expressions t hmem) data
      · have hother : t.phase.allows phase = false := Bool.eq_false_iff.mpr hphase
        simp only [hother]
        exact .inl ⟨rfl, .otherPhase hname hmem ht hother⟩

end Valid

/-- A transform that was begun: by which reference, in which phase and on which data, and what was
remembered then. -/
structure Application where
  reference : String
  phase : Phase
  data : Json
  now : Int
  memory : Memory

namespace Application

/-- What came of a transform. -/
def outcome (lib : Library) (a : Application) : Except Crash Json :=
  ((apply lib a.now a.reference a.phase a.data).runOn a.memory).1

/-- The texts that were parsed, or found among those parsed before. -/
def compiled (lib : Library) (a : Application) : List String :=
  ((notedApply lib a.now a.reference a.phase a.data).runOn (a.memory, [])).2.2

variable {c : Configuration} {lib : Library} {a : Application}

theorem parses_of_compiled (hc : c.Valid) (hlib : lib.Over c.transforms)
    (ha : a.memory.Sound lib)
    (hinline : isInline a.reference = true → Expression.Parses a.reference) :
    ∀ s ∈ a.compiled lib, Expression.Parses s := by
  have hfound : ∀ t, lib.found? a.reference = some t → ∀ s, t.expression = some s →
      Expression.Parses s := by
    intro t ht
    rw [hlib.found?] at ht
    exact hc.expressions t (mem_of_find? ht).1
  exact (notedApply_preserves hinline hfound a.now a.phase a.data (a.memory, [])
    (Effect.along_nil ha)).2

theorem outcome_cases (hc : c.Valid) (hlib : lib.Over c.transforms) (ha : a.memory.Sound lib)
    (hinline : isInline a.reference = true → Expression.Parses a.reference) :
    a.outcome lib = .ok a.data ∧ Passes c.transforms a.reference a.phase a.data ∨
      Makes c.transforms lib.handlers a.reference a.phase a.data (a.outcome lib) := by
  have hout : a.outcome lib = made lib a.reference a.phase a.data :=
    (apply_gives lib a.now a.reference a.phase a.data a.memory ha).1
  rw [hout]
  exact made_cases hc hlib hinline a.phase a.data

end Application
end Switchboard.Transform
