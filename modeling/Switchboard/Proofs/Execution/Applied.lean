import Switchboard.Proofs.Execution.Fresh
import Switchboard.Proofs.Execution.History
import Switchboard.Proofs.Transform.Parsed

/-! Which transforms the begins and the ends of calls apply. They are written down by the steps of a
call, run so that each transform is noted before it is applied; none of them is of a reference that
is not the mapping's. -/
namespace Switchboard
open Effect Transform

namespace Services

/-- The data that a reference makes, its application written down. -/
def jotTransform (sv : Services) (reference : Option String) (phase : Phase) (data : Json) :
    Effect (Router × List Application) Json :=
  match reference with
  | none => return data
  | some reference => do
    jot fun s => ⟨reference, phase, data, s.now, s.transforms⟩
    beside (sv.transform (some reference) phase data)

/-- To ask, the transform of the request written down. -/
def jotAsk (sv : Services) (m : Mapping) (r : Request) (body : Option Json) :
    Effect (Router × List Application) Pending := do
  let shaped ← sv.jotTransform m.requestTransform .request (body.getD .null)
  let (reply, turn) ← beside (sv.send (.ofMapping sv.settings m r shaped.nonNull?))
  return ⟨m, m.key? r body, reply, turn⟩

def jotBegin (sv : Services) (m : Mapping) (r : Request) (body : Option Json) :
    Effect (Router × List Application) (Progress Pending) := do
  beside sv.tick
  match ← beside (kept? (m.key? r body)) with
  | some data =>
    beside (sv.report (m.success none true data))
    return .done (m.success none true data)
  | none => return .waiting (← sv.jotAsk m r body)

/-- To receive, the transform of the response written down. -/
def jotReceive (sv : Services) (m : Mapping) (reply : Reply) :
    Effect (Router × List Application) (Except CallError (Nat × Json)) :=
  match reply with
  | .crashed c => throw c
  | .failed e => return .error (.transport e)
  | .response response =>
    match response.data with
    | .error e => return .error e
    | .ok data => return .ok (response.code, ← sv.jotTransform m.responseTransform .response data)

def jotFinish (sv : Services) (p : Pending) : Effect (Router × List Application) Call := do
  beside sv.tick
  let c ← match ← sv.jotReceive p.mapping p.reply with
    | .error e => pure (p.mapping.failure e)
    | .ok (code, data) =>
      beside (keep p.key data)
      pure (p.mapping.success (some code) false data)
  beside (sv.report c)
  return c

variable (sv : Services)

theorem jotTransform_notes (reference : Option String) (phase : Phase) (data : Json) :
    Notes (sv.jotTransform reference phase data) (sv.transform reference phase data) := by
  cases reference with
  | none => exact .pure _
  | some reference => exact .jot _ (.beside _)

theorem jotAsk_notes (m : Mapping) (r : Request) (body : Option Json) :
    Notes (sv.jotAsk m r body) (sv.ask m r body) :=
  (sv.jotTransform_notes _ _ _).bind fun _ => (Notes.beside _).bind fun _ => .pure _

/-- Writing transforms down does not change how a call is begun. -/
theorem jotBegin_notes (m : Mapping) (r : Request) (body : Option Json) :
    Notes (sv.jotBegin m r body) (sv.begin m r body) := by
  unfold jotBegin begin
  refine (Notes.beside _).bind fun _ => (Notes.beside _).bind fun kept => ?_
  cases kept with
  | some data => exact (Notes.beside _).bind fun _ => .pure _
  | none => exact (sv.jotAsk_notes m r body).bind fun _ => .pure _

/-- What a begin writes down is what asking writes down, if it asks at all. -/
theorem written_jotBegin (m : Mapping) (r : Request) (body : Option Json)
    (p : Router × List Application) :
    ((sv.jotBegin m r body).runOn p).2.2 =
      match (sv.ticked p.1).kept? (m.key? r body) with
      | some _ => p.2
      | none => ((sv.jotAsk m r body).runOn (sv.ticked p.1, p.2)).2.2 := by
  have htick : (beside sv.tick).runOn p = (.ok (), sv.ticked p.1, p.2) := rfl
  have hlook : (beside (kept? (m.key? r body))).runOn (sv.ticked p.1, p.2) =
      (.ok ((sv.ticked p.1).kept? (m.key? r body)), sv.ticked p.1, p.2) := rfl
  unfold jotBegin
  simp only [runOn_bind, htick, hlook]
  cases (sv.ticked p.1).kept? (m.key? r body) with
  | some data => rfl
  | none =>
    simp only [runOn_bind]
    rcases (sv.jotAsk m r body).runOn (sv.ticked p.1, p.2) with ⟨_ | _, _⟩ <;> rfl

theorem jotReceive_notes (m : Mapping) (reply : Reply) :
    Notes (sv.jotReceive m reply) (sv.receive m reply) := by
  unfold jotReceive receive
  cases reply with
  | crashed c => exact .ofExcept (.error c)
  | failed e => exact .pure _
  | response response =>
    dsimp only
    cases response.data with
    | error e => exact .pure _
    | ok data => exact (sv.jotTransform_notes _ _ _).bind fun _ => .pure _

/-- Writing transforms down does not change how a call is ended. -/
theorem jotFinish_notes (p : Pending) : Notes (sv.jotFinish p) (sv.finish p) := by
  have hreport : ∀ c : Call, Notes
      (beside (sv.report c) >>= fun _ => pure c : Effect (Router × List Application) Call)
      (sv.report c >>= fun _ => pure c) := fun c => (Notes.beside _).bind fun _ => .pure c
  unfold jotFinish finish
  refine (Notes.beside _).bind fun _ => (sv.jotReceive_notes _ _).bind fun x => ?_
  rcases x with e | ⟨code, data⟩
  · exact hreport _
  · exact (Notes.beside _).bind fun _ => hreport _

/-- The transform is of a reference of the mapping, and began where what was remembered was so. -/
def Grounded (m : Mapping) (a : Application) : Prop :=
  a.memory.Sound sv.library ∧ a.reference ∈ Configuration.references m

variable {sv}

theorem jotTransform_preserves {m : Mapping} {reference : Option String}
    (hm : reference.toList ⊆ Configuration.references m) (phase : Phase) (data : Json) :
    Preserves (Along sv.IsSound (sv.Grounded m)) (sv.jotTransform reference phase data) := by
  cases reference with
  | none => exact .pure _
  | some reference =>
    have hmem : reference ∈ Configuration.references m := hm (List.mem_singleton.mpr rfl)
    exact (Preserves.jot fun s hs => ⟨hs, hmem⟩).bind fun _ =>
      (sv.transform_gives (some reference) phase data).preserves.beside

theorem jotBegin_preserves (m : Mapping) (r : Request) (body : Option Json) :
    Preserves (Along sv.IsSound (sv.Grounded m)) (sv.jotBegin m r body) := by
  have hask : Preserves (Along sv.IsSound (sv.Grounded m)) (sv.jotAsk m r body) :=
    (jotTransform_preserves (List.subset_append_left _ _) _ _).bind fun _ =>
      Preserves.bind (.beside fun _ h => h) fun _ => .pure _
  unfold jotBegin
  refine Preserves.bind (.beside fun _ h => h) fun _ => ?_
  refine Preserves.bind (.beside fun _ h => h) fun kept => ?_
  cases kept with
  | some data => exact Preserves.bind (.beside fun _ h => h) fun _ => .pure _
  | none => exact hask.bind fun _ => .pure _

theorem jotReceive_preserves (m : Mapping) (reply : Reply) :
    Preserves (Along sv.IsSound (sv.Grounded m)) (sv.jotReceive m reply) := by
  unfold jotReceive
  cases reply with
  | crashed c => exact fun _ h => h
  | failed e => exact .pure _
  | response response =>
    dsimp only
    cases response.data with
    | error e => exact .pure _
    | ok data =>
      exact (jotTransform_preserves (List.subset_append_right _ _) _ _).bind fun _ => .pure _

theorem keep_preserves_isSound (key : Option String) (data : Json) :
    Preserves sv.IsSound (keep key data) := by
  intro s hs
  rw [runOn_keep]
  cases key <;> exact hs

theorem jotFinish_preserves (p : Pending) :
    Preserves (Along sv.IsSound (sv.Grounded p.mapping)) (sv.jotFinish p) := by
  have hreport : ∀ c : Call, Preserves (Along sv.IsSound (sv.Grounded p.mapping))
      (beside (sv.report c) >>= fun _ => pure c) :=
    fun c => Preserves.bind (.beside fun _ h => h) fun _ => .pure c
  unfold jotFinish
  refine Preserves.bind (.beside fun _ h => h) fun _ => ?_
  refine (jotReceive_preserves _ _).bind fun x => ?_
  rcases x with e | ⟨code, data⟩
  · exact hreport _
  · exact (keep_preserves_isSound _ data).beside.bind fun _ => hreport _

end Services

namespace Moment

/-- The transforms that are applied, in their order. -/
def applications (sv : Services) : Moment → List Application
  | begun e => ((sv.jotBegin e.mapping e.request e.body).runOn (e.before, [])).2.2
  | ended _ p s => ((sv.jotFinish p).runOn (s, [])).2.2

/-- The mapping that is called. -/
def mapping : Moment → Mapping
  | begun e => e.mapping
  | ended _ p _ => p.mapping

variable {sv : Services} {x : Moment}

/-- A transform is of a reference of the mapping that is called, and what is remembered when it
begins is so if it was so before. -/
theorem of_mem_applications (hx : sv.IsSound x.before) {a : Application}
    (ha : a ∈ x.applications sv) : sv.Grounded x.mapping a := by
  cases x with
  | begun e =>
    exact (Services.jotBegin_preserves e.mapping e.request e.body (e.before, [])
      (along_nil hx)).2 a ha
  | ended e p s => exact (Services.jotFinish_preserves p (s, []) (along_nil hx)).2 a ha

/-- What is remembered afterwards is so. -/
theorem isSound_after (hx : sv.IsSound x.before) : sv.IsSound (x.after sv) := by
  cases x with
  | begun e =>
    have hnotes := (sv.jotBegin_notes e.mapping e.request e.body).runOn (e.before, [])
    have hafter := Services.jotBegin_preserves e.mapping e.request e.body (e.before, [])
      (along_nil hx)
    rw [Along, hnotes.2] at hafter
    exact hafter.1
  | ended e p s =>
    have hnotes := (sv.jotFinish_notes p).runOn (s, [])
    have hafter := Services.jotFinish_preserves p (s, []) (along_nil hx)
    rw [Along, hnotes.2] at hafter
    exact hafter.1

end Moment

namespace Event

/-- The transform of its request, as a call begins it. -/
def opening (sv : Services) (e : Event) (reference : String) : Application :=
  ⟨reference, .request, e.body.getD .null, (sv.ticked e.before).now, e.before.transforms⟩

/-- A call that finds nothing kept applies the transform of its request. -/
theorem opening_mem_applications (sv : Services) {e : Event}
    (hkept : (sv.ticked e.before).kept? e.key? = none) {reference : String}
    (hreference : e.mapping.requestTransform = some reference) :
    e.opening sv reference ∈ (Moment.begun e).applications sv := by
  have hopening : e.opening sv reference ∈ ((sv.jotTransform (some reference) .request
      (e.body.getD .null)).runOn (sv.ticked e.before, [])).2.2 :=
    List.mem_singleton.mpr rfl
  have hask : e.opening sv reference ∈ ((sv.jotAsk e.mapping e.request e.body).runOn
      (sv.ticked e.before, [])).2.2 := by
    unfold Services.jotAsk
    rw [hreference]
    exact runOn_bind_of_preserves
      (I := fun p : Router × List Application => e.opening sv reference ∈ p.2) hopening
      fun _ => Preserves.bind (fun _ h => h) fun _ => .pure _
  show e.opening sv reference ∈ ((sv.jotBegin e.mapping e.request e.body).runOn (e.before, [])).2.2
  have hkept' : (sv.ticked e.before).kept? (e.mapping.key? e.request e.body) = none := hkept
  rw [Services.written_jotBegin, hkept']
  exact hask

end Event
end Switchboard
