import Switchboard.Expression.Eval
import Switchboard.Proofs.Except
import Switchboard.Proofs.Expression.Trees
import Switchboard.Proofs.Json.Ordered

/-! Numbers that are not finite have no text in JSON. Where the input and the literals of an
expression do without them, so does the value of the expression. -/
namespace Switchboard

def Number.IsFinite : Number → Prop
  | .int _ => True
  | .float x => Decimal.isFinite x = true

theorem Number.isFinite_of_ofFloat? {x : Float} {n : Number} (h : ofFloat? x = some n) :
    n.IsFinite := by
  unfold ofFloat? at h
  split_ifs at h with hwhole hfinite
  · cases h
    trivial
  · cases h
    exact hfinite

namespace Json

/-- All numbers in the value are finite. -/
inductive IsFinite : Json → Prop
  | null : IsFinite .null
  | bool (b : Bool) : IsFinite (.bool b)
  | num {n : Number} (h : n.IsFinite) : IsFinite (.num n)
  | str (s : String) : IsFinite (.str s)
  | arr {items : List Json} (h : ∀ v ∈ items, IsFinite v) : IsFinite (.arr items)
  | obj {members : List (String × Json)} (h : ∀ m ∈ members, IsFinite m.2) : IsFinite (.obj members)

namespace IsFinite

theorem ofNat (n : Nat) : (Json.ofNat n).IsFinite := .num trivial

theorem ofFloat (x : Float) : (Json.ofFloat x).IsFinite := by
  unfold Json.ofFloat
  cases h : Number.ofFloat? x with
  | none => exact .null
  | some n => exact .num (Number.isFinite_of_ofFloat? h)

theorem number {n : Number} (h : (Json.num n).IsFinite) : n.IsFinite := by
  cases h with
  | num h => exact h

theorem items {items : List Json} (h : (Json.arr items).IsFinite) : ∀ v ∈ items, v.IsFinite := by
  cases h with
  | arr h => exact h

theorem member {members : List (String × Json)} (h : (Json.obj members).IsFinite) {name : String} :
    ∀ v ∈ Fields.get? name members, v.IsFinite := by
  cases h with
  | obj h => exact fun v hv => h (name, v) (Fields.mem_of_get? hv)

end IsFinite

end Json

namespace Expression

/-- If there is a value, it is finite. -/
def AllFinite (v : Option Json) : Prop := ∀ w ∈ v, w.IsFinite

theorem AllFinite.none : AllFinite none := nofun

theorem AllFinite.some {v : Json} (h : v.IsFinite) : AllFinite (some v) := by
  rintro _ ⟨⟩
  exact h

/-- All numbers in the literals of the expression are finite. -/
inductive Expr.IsFinite : Expr → Prop
  | intro {e : Expr} (hliteral : ∀ v, e = .literal v → v.IsFinite)
      (hparts : ∀ f ∈ e.parts, IsFinite f) : IsFinite e

theorem Expr.IsFinite.literal {v : Json} (h : (Expr.literal v).IsFinite) : v.IsFinite := by
  cases h with
  | intro hliteral _ => exact hliteral v rfl

theorem Expr.IsFinite.part {e f : Expr} (h : e.IsFinite) (hf : f ∈ e.parts) : f.IsFinite := by
  cases h with
  | intro _ hparts => exact hparts f hf

section
variable {items : List Json} (h : ∀ v ∈ items, v.IsFinite)
include h

theorem flatten_isFinite : ∀ v ∈ flatten items, v.IsFinite := by
  intro v hv
  obtain ⟨item, hitem, hv⟩ := List.mem_flatMap.mp hv
  split at hv
  · exact (h _ hitem).items v hv
  · obtain rfl := List.mem_singleton.mp hv
    exact h v hitem

theorem onItems_allFinite (m : Method) : AllFinite (m.onItems items) := by
  cases m with
  | length => exact .some (.ofNat _)
  | first => exact fun v hv => h v (List.mem_of_mem_head? hv)
  | last => exact fun v hv => h v (List.mem_of_mem_getLast? hv)
  | flat => exact .some (.arr (flatten_isFinite h))
  | reverse => exact .some (.arr fun v hv => h v (List.mem_reverse.mp hv))
  | sort => exact .some (.arr fun v hv => h v (List.mem_mergeSort.mp hv))

theorem sliceItems_isFinite (start stop : Nat) : (sliceItems items start stop).IsFinite :=
  .arr fun v hv => h v (List.mem_of_mem_take (List.mem_of_mem_drop hv))

end

theorem property?_allFinite {v : Json} (h : v.IsFinite) (name : String) :
    AllFinite (property? v name) := by
  unfold property?
  split
  · exact h.member
  · split
    · exact .none
    · exact onItems_allFinite h.items _
    · exact .none
  · split
    · exact .some (.ofNat _)
    · exact .none
  · exact .none

theorem index?_allFinite {v : Json} (h : v.IsFinite) (key : Json) : AllFinite (index? v key) := by
  unfold index?
  split
  · next n =>
    cases n.toNat? with
    | none => exact .none
    | some i =>
      rw [Option.bind_some]
      split
      · exact fun w hw => h.items w (List.mem_of_getElem? hw)
      · exact h.member
      · intro w hw
        obtain ⟨c, -, rfl⟩ := Option.map_eq_some_iff.mp hw
        exact .str _
      · exact .none
  · split
    · exact h.member
    · exact .none
  · exact .none

/-- If there is a result, it is one of these. -/
def Yields {α : Type} (P : α → Prop) (x : Except EvalError α) : Prop := ∀ a, x = .ok a → P a

namespace Yields
variable {α β : Type} {P : α → Prop} {Q : β → Prop}

theorem ok {a : α} (h : P a) : Yields P (.ok a) := by
  rintro _ ⟨⟩
  exact h

theorem error (e : EvalError) : Yields P (.error e) := nofun

theorem bind {x : Except EvalError α} {f : α → Except EvalError β} (hx : Yields P x)
    (hf : ∀ a, P a → Yields Q (f a)) : Yields Q (x >>= f) := by
  intro b hb
  obtain ⟨a, ha, hb⟩ := Except.bind_eq_ok.mp hb
  exact hf a (hx a ha) b hb

theorem map {x : Except EvalError α} {f : α → β} (hx : Yields P x) (hf : ∀ a, P a → Q (f a)) :
    Yields Q (x.map f) :=
  hx.bind fun a ha => ok (hf a ha)

/-- Of some results nothing is asked. -/
theorem any (x : Except EvalError α) : Yields (fun _ => True) x := fun _ _ => trivial

theorem onValue {v : Option Json} {f : Json → Outcome} (hv : AllFinite v)
    (hf : ∀ w, w.IsFinite → Yields AllFinite (f w)) :
    Yields AllFinite (Expression.onValue v f) := by
  unfold Expression.onValue
  split
  · exact ok .none
  · exact ok .none
  · exact hf _ (hv _ rfl)

theorem itemsFor (method : String) {v : Json} (h : v.IsFinite) :
    Yields (fun items => ∀ w ∈ items, w.IsFinite) (Expression.itemsFor method v) := by
  unfold Expression.itemsFor
  split
  · exact ok h.items
  · exact error _

theorem apply (m : Method) {v : Json} (h : v.IsFinite) : Yields AllFinite (m.apply v) := by
  unfold Method.apply
  split
  · exact ok (.some (.ofNat _))
  · exact ok (.some (.ofNat _))
  · exact (itemsFor _ h).map fun items hitems => onItems_allFinite hitems _

theorem findItem (f : Json → Outcome) {items : List Json} (h : ∀ v ∈ items, v.IsFinite) :
    Yields AllFinite (Expression.findItem f items) := by
  induction items with
  | nil => exact ok .none
  | cons item items ih =>
    obtain ⟨hitem, hitems⟩ := List.forall_mem_cons.mp h
    unfold Expression.findItem
    split
    · exact error _
    · split
      · exact ok (.some hitem)
      · exact ih hitems

section
variable {f : Json → Outcome} {items : List Json} (hitems : ∀ v ∈ items, v.IsFinite)
  (hf : ∀ v, v.IsFinite → Yields AllFinite (f v))
include hitems hf

theorem keyed :
    Yields (fun vs => ∀ v ∈ vs, AllFinite v.1 ∧ v.2.IsFinite) (Expression.keyed f items) := by
  induction items with
  | nil => exact ok nofun
  | cons item items ih =>
    obtain ⟨hitem, hitems⟩ := List.forall_mem_cons.mp hitems
    unfold Expression.keyed
    split
    · exact error _
    · next key hkey =>
      split
      · exact error _
      · next vs hvs =>
        exact ok (List.forall_mem_cons.mpr ⟨⟨hf item hitem key hkey, hitem⟩, ih hitems vs hvs⟩)

theorem onItems (method : Visit) : Yields AllFinite (method.onItems f items) := by
  have hkeyed := keyed hitems hf
  cases method with
  | find => exact findItem f hitems
  | map =>
    refine hkeyed.map fun vs hvs => .some (.arr fun v hv => ?_)
    obtain ⟨w, hw, rfl⟩ := List.mem_map.mp hv
    cases hkey : w.1 with
    | none => exact .null
    | some key => exact (hvs w hw).1 key hkey
  | filter =>
    refine hkeyed.map fun vs hvs => .some (.arr fun v hv => ?_)
    obtain ⟨w, hw, rfl⟩ := List.mem_map.mp hv
    exact (hvs w (List.mem_of_mem_filter hw)).2
  | sort =>
    refine hkeyed.map fun vs hvs => .some (.arr fun v hv => ?_)
    obtain ⟨w, hw, rfl⟩ := List.mem_map.mp hv
    exact (hvs w (List.mem_mergeSort.mp hw)).2

end

theorem evalMembers {root : Json} {bound : Option (String × Json)}
    {members : List (String × Expr)} (h : ∀ m ∈ members, Yields AllFinite (eval root bound m.2)) :
    Yields (fun entries => ∀ m ∈ entries, m.2.IsFinite)
      (Expression.evalMembers root bound members) := by
  induction members with
  | nil => exact ok nofun
  | cons m members ih =>
    obtain ⟨hm, hms⟩ := List.forall_mem_cons.mp h
    rw [Expression.evalMembers]
    refine hm.bind fun v hv => (ih hms).bind fun entries hentries => ok ?_
    cases v with
    | none => exact hentries
    | some v => exact List.forall_mem_cons.mpr ⟨hv v rfl, hentries⟩

theorem evalItems {root : Json} {bound : Option (String × Json)} {items : List Expr}
    (h : ∀ e ∈ items, Yields AllFinite (eval root bound e)) :
    Yields (fun vs => ∀ v ∈ vs, v.IsFinite) (Expression.evalItems root bound items) := by
  induction items with
  | nil => exact ok nofun
  | cons e items ih =>
    obtain ⟨he, hes⟩ := List.forall_mem_cons.mp h
    rw [Expression.evalItems]
    refine he.bind fun v hv => (ih hes).bind fun vs hvs => ok (List.forall_mem_cons.mpr ⟨?_, hvs⟩)
    cases v with
    | none => exact .null
    | some v => exact hv v rfl

end Yields

theorem eval_allFinite {root : Json} (hroot : root.IsFinite) {e : Expr} (h : e.IsFinite)
    {bound : Option (String × Json)} (hbound : ∀ b ∈ bound, b.2.IsFinite) :
    Yields AllFinite (eval root bound e) := by
  induction e using Expr.induct generalizing bound with
  | literal v => exact .ok (.some h.literal)
  | undefined => exact .ok .none
  | root => exact .ok (.some hroot)
  | var name =>
    cases bound with
    | none => exact .error _
    | some b =>
      rw [eval]
      split
      · exact .ok (.some (hbound b rfl))
      · exact .error _
  | property target name iht =>
    rw [eval]
    refine (iht (h.part (.head _)) hbound).bind fun v hv => .ok ?_
    cases v with
    | none => exact .none
    | some v => exact property?_allFinite (hv v rfl) name
  | index target key iht ihk =>
    rw [eval]
    refine (iht (h.part (.head _)) hbound).bind fun v hv => (Yields.any _).bind fun k _ => .ok ?_
    cases v with
    | none => exact .none
    | some v =>
      cases k with
      | none => exact .none
      | some k => exact index?_allFinite (hv v rfl) k
  | call target method iht =>
    rw [eval]
    exact (iht (h.part (.head _)) hbound).bind fun v hv => .onValue hv fun w hw => .apply method hw
  | visit target method param body iht ihb =>
    rw [eval]
    have hbody (item : Json) (hitem : item.IsFinite) :
        Yields AllFinite (eval root (some (param, item)) body) := by
      refine ihb (h.part (.tail _ (.head _))) ?_
      rintro _ ⟨⟩
      exact hitem
    exact (iht (h.part (.head _)) hbound).bind fun v hv => .onValue hv fun w hw =>
      (Yields.itemsFor _ hw).bind fun items hitems => .onItems hitems hbody method
  | slice target start iht ihs =>
    rw [eval]
    exact (iht (h.part (.head _)) hbound).bind fun v hv => .onValue hv fun w hw =>
      (Yields.itemsFor _ hw).bind fun items hitems => (Yields.any _).bind fun _ _ =>
        (Yields.any _).bind fun i _ => .ok (.some (sliceItems_isFinite hitems i _))
  | sliceTo target start stop iht ihs ihe =>
    rw [eval]
    exact (iht (h.part (.head _)) hbound).bind fun v hv => .onValue hv fun w hw =>
      (Yields.itemsFor _ hw).bind fun items hitems => (Yields.any _).bind fun _ _ =>
        (Yields.any _).bind fun i _ => (Yields.any _).bind fun _ _ =>
          (Yields.any _).bind fun j _ => .ok (.some (sliceItems_isFinite hitems i j))
  | object members ih =>
    rw [eval]
    have hmembers : ∀ m ∈ members, Yields AllFinite (eval root bound m.2) :=
      fun m hm => ih m hm (h.part (List.mem_map_of_mem hm)) hbound
    exact (Yields.evalMembers hmembers).bind fun entries hentries =>
      .ok (.some (.obj fun m hm => hentries m (Fields.mem_of_mem_ofList hm)))
  | array items ih =>
    rw [eval]
    have hitems : ∀ e ∈ items, Yields AllFinite (eval root bound e) :=
      fun e he => ih e he (h.part he) hbound
    exact (Yields.evalItems hitems).bind fun vs hvs => .ok (.some (.arr hvs))
  | binary op lhs rhs ihl ihr =>
    have ihl := ihl (h.part (.head _)) hbound
    have ihr := ihr (h.part (.tail _ (.head _))) hbound
    cases op with
    | and =>
      rw [eval]
      refine ihl.bind fun v hv => ?_
      split
      · exact ihr
      · exact .ok hv
    | or =>
      rw [eval]
      refine ihl.bind fun v hv => ?_
      split
      · exact .ok hv
      · exact ihr
    | _ =>
      simp only [eval]
      exact (Yields.any _).bind fun v _ => (Yields.any _).bind fun w _ => .ok (.some (.bool _))
  | not e ih =>
    rw [eval]
    exact (Yields.any _).bind fun v _ => .ok (.some (.bool _))

end Expression
end Switchboard
