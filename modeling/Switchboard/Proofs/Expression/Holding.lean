import Switchboard.Expression.Eval
import Switchboard.Proofs.Expression.Trees

/-! Evaluation that says of every value whether it is lent by the input or owned by the evaluation.
A part of a lent value is lent; a part of an owned value is taken out of it, which breaks the
value. Apart from that it is plain evaluation. -/
namespace Switchboard.Expression

/-- Take out the value of a name; the fields without it stay. -/
def remove? (name : String) : Fields Json → Option (Json × Fields Json)
  | [] => none
  | (l, v) :: fs =>
    if name = l then some (v, fs) else (remove? name fs).map fun (w, gs) => (w, (l, v) :: gs)

/-- Take out an item; the last one moves to its place. -/
def swapRemove? (items : List Json) (i : Nat) : Option (Json × List Json) :=
  items[i]?.map fun v => (v, (items.set i (items.getLast?.getD v)).dropLast)

theorem remove?_taken (name : String) (fs : Fields Json) :
    (remove? name fs).map (·.1) = Fields.get? name fs := by
  induction fs with
  | nil => rfl
  | cons f fs ih =>
    obtain ⟨l, v⟩ := f
    rw [remove?, Fields.get?]
    split
    · rfl
    · rw [Option.map_map]
      exact ih

theorem swapRemove?_taken (items : List Json) (i : Nat) :
    (swapRemove? items i).map (·.1) = items[i]? := by
  rw [swapRemove?, Option.map_map]
  exact Option.map_id'

inductive Held where
  | lent (v : Json)
  | owned (v : Json)

namespace Held

def value : Held → Json
  | lent v => v
  | owned v => v

/-- A member; what an array or a text has instead is built anew. -/
def property? (name : String) : Held → Option Held
  | lent (.obj members) => (Fields.get? name members).map lent
  | owned (.obj members) => (remove? name members).map fun taken => owned taken.1
  | h => (Expression.property? h.value name).map owned

/-- An item or a member; a character of a text is built anew. -/
def index? (key : Json) (h : Held) : Option Held :=
  match key with
  | .num n =>
    n.toNat?.bind fun i =>
      match h with
      | lent (.arr items) => items[i]?.map lent
      | lent (.obj members) => (Fields.get? (toString i) members).map lent
      | owned (.arr items) => (swapRemove? items i).map fun taken => owned taken.1
      | owned (.obj members) => (remove? (toString i) members).map fun taken => owned taken.1
      | h =>
        match h.value with
        | .str s => s.toList[i]?.map fun c => owned (.str c.toString)
        | _ => none
  | .str name =>
    match h with
    | lent (.obj members) => (Fields.get? name members).map lent
    | owned (.obj members) => (remove? name members).map fun taken => owned taken.1
    | _ => none
  | _ => none

theorem value_lent (v : Option Json) : (v.map lent).map value = v := by
  rw [Option.map_map]
  exact Option.map_id'

theorem value_owned (v : Option Json) : (v.map owned).map value = v := by
  rw [Option.map_map]
  exact Option.map_id'

theorem value_remove? (name : String) (fs : Fields Json) :
    ((remove? name fs).map fun taken => owned taken.1).map value = Fields.get? name fs := by
  rw [← remove?_taken, Option.map_map]
  rfl

theorem value_swapRemove? (items : List Json) (i : Nat) :
    ((swapRemove? items i).map fun taken => owned taken.1).map value = items[i]? := by
  rw [← swapRemove?_taken, Option.map_map]
  rfl

theorem value_property? (name : String) (h : Held) :
    (h.property? name).map value = Expression.property? h.value name := by
  cases h with
  | lent v =>
    cases v with
    | obj members => exact value_lent _
    | arr items => exact value_owned _
    | str s => exact value_owned _
    | _ => rfl
  | owned v =>
    cases v with
    | obj members => exact value_remove? _ _
    | arr items => exact value_owned _
    | str s => exact value_owned _
    | _ => rfl

theorem value_index? (key : Json) (h : Held) :
    (h.index? key).map value = Expression.index? h.value key := by
  cases key with
  | num n =>
    rw [index?, Expression.index?, Option.map_bind]
    refine congrArg n.toNat?.bind (funext fun i => ?_)
    cases h with
    | lent v =>
      cases v with
      | arr items => exact value_lent _
      | obj members => exact value_lent _
      | str s => simp [value, Function.comp_def]
      | _ => rfl
    | owned v =>
      cases v with
      | arr items => exact value_swapRemove? _ _
      | obj members => exact value_remove? _ _
      | str s => simp [value, Function.comp_def]
      | _ => rfl
  | str name =>
    cases h with
    | lent v =>
      cases v with
      | obj members => exact value_lent _
      | _ => rfl
    | owned v =>
      cases v with
      | obj members => exact value_remove? _ _
      | _ => rfl
  | _ => rfl

end Held

abbrev Holding := Except EvalError (Option Held)

/-- What has been held, by its value alone. -/
def Holding.outcome (h : Holding) : Outcome := h.map (·.map Held.value)

/-- What a method gives is built anew. -/
def Holding.built (o : Outcome) : Holding := o.map (·.map Held.owned)

mutual

/-- As `eval`, with the ownership of every value. The input, the value of a parameter and literals
are lent. -/
def hold (root : Json) (bound : Option (String × Json)) : Expr → Holding
  | .literal v => .ok (some (.lent v))
  | .undefined => .ok none
  | .root => .ok (some (.lent root))
  | .var name =>
    match bound with
    | some (param, v) =>
      if param = name then .ok (some (.lent v)) else .error (.unboundVariable name)
    | none => .error (.unboundVariable name)
  | .property target name => do
    let h ← hold root bound target
    .ok (h.bind fun h => h.property? name)
  | .index target key => do
    let h ← hold root bound target
    let k ← hold root bound key
    .ok (h.bind fun h => k.bind fun k => h.index? k.value)
  | .call target method => do
    let h ← hold root bound target
    Holding.built (onValue (h.map Held.value) method.apply)
  | .visit target method param body => do
    let h ← hold root bound target
    Holding.built (onValue (h.map Held.value) fun v => do
      let items ← itemsFor method.name v
      method.onItems (fun item => (hold root (some (param, item)) body).outcome) items)
  | .slice target start => do
    let h ← hold root bound target
    Holding.built (onValue (h.map Held.value) fun v => do
      let items ← itemsFor "slice" v
      let i ← sliceBound 0 items.length (← (hold root bound start).outcome)
      .ok (some (sliceItems items i items.length)))
  | .sliceTo target start stop => do
    let h ← hold root bound target
    Holding.built (onValue (h.map Held.value) fun v => do
      let items ← itemsFor "slice" v
      let i ← sliceBound 0 items.length (← (hold root bound start).outcome)
      let j ← sliceBound items.length items.length (← (hold root bound stop).outcome)
      .ok (some (sliceItems items i j)))
  | .object members => do
    let entries ← holdMembers root bound members
    .ok (some (.owned (.ofList entries)))
  | .array items => do
    let vs ← holdItems root bound items
    .ok (some (.owned (.arr vs)))
  | .binary .and lhs rhs => do
    let h ← hold root bound lhs
    if truthy (h.map Held.value) then hold root bound rhs else .ok h
  | .binary .or lhs rhs => do
    let h ← hold root bound lhs
    if truthy (h.map Held.value) then .ok h else hold root bound rhs
  | .binary op lhs rhs => do
    let h ← hold root bound lhs
    let k ← hold root bound rhs
    .ok (some (.owned (.bool (compareBy op (h.map Held.value) (k.map Held.value)))))
  | .not e => do
    let h ← hold root bound e
    .ok (some (.owned (.bool (!truthy (h.map Held.value)))))

/-- A lent value is copied into the object. -/
def holdMembers (root : Json) (bound : Option (String × Json)) :
    List (String × Expr) → Except EvalError (List (String × Json))
  | [] => .ok []
  | (k, e) :: members => do
    let h ← hold root bound e
    let entries ← holdMembers root bound members
    .ok ((h.map fun h => (k, h.value)).toList ++ entries)

def holdItems (root : Json) (bound : Option (String × Json)) :
    List Expr → Except EvalError (List Json)
  | [] => .ok []
  | e :: items => do
    let h ← hold root bound e
    let vs ← holdItems root bound items
    .ok ((h.map Held.value).getD .null :: vs)

end

namespace Holding

@[simp] theorem outcome_built (o : Outcome) : (built o).outcome = o := by
  cases o with
  | error e => rfl
  | ok v => exact congrArg Except.ok (Held.value_owned v)

theorem outcome_bind {h : Holding} {f : Option Held → Holding} {g : Option Json → Outcome}
    (hfg : ∀ w, (f w).outcome = g (w.map Held.value)) :
    outcome (h >>= f) = h.outcome >>= g := by
  cases h with
  | error e => rfl
  | ok w => exact hfg w

theorem bind_eq_outcome_bind {α : Type} {h : Holding} {f : Option Held → Except EvalError α}
    {g : Option Json → Except EvalError α} (hfg : ∀ w, f w = g (w.map Held.value)) :
    (h >>= f) = h.outcome >>= g := by
  cases h with
  | error e => rfl
  | ok w => exact hfg w

end Holding

theorem holdMembers_eq {root : Json} {bound : Option (String × Json)}
    {members : List (String × Expr)}
    (h : ∀ m ∈ members, (hold root bound m.2).outcome = eval root bound m.2) :
    holdMembers root bound members = evalMembers root bound members := by
  induction members with
  | nil => rfl
  | cons m members ih =>
    obtain ⟨k, e⟩ := m
    obtain ⟨he, hms⟩ := List.forall_mem_cons.mp h
    rw [holdMembers, evalMembers, ← he, ih hms]
    refine Holding.bind_eq_outcome_bind fun w => ?_
    cases w <;> rfl

theorem holdItems_eq {root : Json} {bound : Option (String × Json)} {items : List Expr}
    (h : ∀ e ∈ items, (hold root bound e).outcome = eval root bound e) :
    holdItems root bound items = evalItems root bound items := by
  induction items with
  | nil => rfl
  | cons e items ih =>
    obtain ⟨he, hes⟩ := List.forall_mem_cons.mp h
    rw [holdItems, evalItems, ← he, ih hes]
    exact Holding.bind_eq_outcome_bind fun _ => rfl

/-- Who owns a value makes no difference to what is found. -/
theorem outcome_hold (root : Json) (bound : Option (String × Json)) (e : Expr) :
    (hold root bound e).outcome = eval root bound e := by
  induction e using Expr.induct generalizing bound with
  | literal v => rfl
  | undefined => rfl
  | root => rfl
  | var name =>
    cases bound with
    | none => rfl
    | some b =>
      rw [hold, eval]
      split <;> rfl
  | property target name iht =>
    rw [hold, eval, ← iht]
    refine Holding.outcome_bind fun w => ?_
    cases w with
    | none => rfl
    | some w => exact congrArg Except.ok (w.value_property? name)
  | index target key iht ihk =>
    rw [hold, eval, ← iht, ← ihk]
    refine Holding.outcome_bind fun w => Holding.outcome_bind fun k => ?_
    cases w with
    | none => rfl
    | some w =>
      cases k with
      | none => rfl
      | some k => exact congrArg Except.ok (w.value_index? k.value)
  | call target method iht =>
    rw [hold, eval, ← iht]
    exact Holding.outcome_bind fun w => Holding.outcome_built _
  | visit target method param body iht ihb =>
    simp only [hold, eval, ← iht, ihb]
    exact Holding.outcome_bind fun w => Holding.outcome_built _
  | slice target start iht ihs =>
    simp only [hold, eval, ← iht, ihs]
    exact Holding.outcome_bind fun w => Holding.outcome_built _
  | sliceTo target start stop iht ihs ihe =>
    simp only [hold, eval, ← iht, ihs, ihe]
    exact Holding.outcome_bind fun w => Holding.outcome_built _
  | object members ih =>
    rw [hold, eval, holdMembers_eq fun m hm => ih m hm bound]
    cases evalMembers root bound members <;> rfl
  | array items ih =>
    rw [hold, eval, holdItems_eq fun e he => ih e he bound]
    cases evalItems root bound items <;> rfl
  | binary op lhs rhs ihl ihr =>
    -- The two connectives hand on what they hold, and a comparison builds its answer.
    cases op with
    | and =>
      rw [hold, eval, ← ihl, ← ihr]
      refine Holding.outcome_bind fun w => ?_
      split <;> rfl
    | or =>
      rw [hold, eval, ← ihl, ← ihr]
      refine Holding.outcome_bind fun w => ?_
      split <;> rfl
    | _ =>
      simp only [hold, eval, ← ihl, ← ihr]
      exact Holding.outcome_bind fun w => Holding.outcome_bind fun k => rfl
  | not e ih =>
    rw [hold, eval, ← ih]
    exact Holding.outcome_bind fun w => rfl

end Switchboard.Expression
