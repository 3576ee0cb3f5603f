import Switchboard.Expression.Eval
import Switchboard.Proofs.Except
import Switchboard.Proofs.Expression.Trees

/-! Variables and the lambdas that they belong to. A lambda hides the parameter of every lambda
around it, so that a variable is bound exactly where it has the name of the innermost parameter. An
expression all of whose variables are bound fails in method calls alone. -/
namespace Switchboard.Expression

namespace Expr

mutual

/-- Each variable with the parameter of the innermost lambda around it, where `param` is the one
around the expression. -/
def occurrences (param : Option String) : Expr → List (Option String × String)
  | literal _ => []
  | undefined => []
  | root => []
  | var name => [(param, name)]
  | property target _ => target.occurrences param
  | index target key => target.occurrences param ++ key.occurrences param
  | call target _ => target.occurrences param
  | visit target _ inner body => target.occurrences param ++ body.occurrences (some inner)
  | slice target start => target.occurrences param ++ start.occurrences param
  | sliceTo target start stop =>
    target.occurrences param ++ start.occurrences param ++ stop.occurrences param
  | object members => memberOccurrences param members
  | array items => itemOccurrences param items
  | binary _ lhs rhs => lhs.occurrences param ++ rhs.occurrences param
  | not e => e.occurrences param

def memberOccurrences (param : Option String) :
    List (String × Expr) → List (Option String × String)
  | [] => []
  | (_, e) :: members => e.occurrences param ++ memberOccurrences param members

def itemOccurrences (param : Option String) : List Expr → List (Option String × String)
  | [] => []
  | e :: items => e.occurrences param ++ itemOccurrences param items

end

/-- Every variable has the name of the innermost parameter. -/
def IsScopedIn (param : Option String) (e : Expr) : Prop :=
  ∀ x ∈ e.occurrences param, x.1 = some x.2

/-- Every variable stands in the body of a lambda and names the parameter of the innermost one. -/
def IsScoped (e : Expr) : Prop := e.IsScopedIn none

instance (param : Option String) (e : Expr) : Decidable (e.IsScopedIn param) :=
  inferInstanceAs (Decidable (∀ x ∈ e.occurrences param, x.1 = some x.2))

instance (e : Expr) : Decidable e.IsScoped := inferInstanceAs (Decidable (e.IsScopedIn none))

mutual

/-- A method is called somewhere in the expression. -/
def callsMethod : Expr → Bool
  | literal _ => false
  | undefined => false
  | root => false
  | var _ => false
  | property target _ => target.callsMethod
  | index target key => target.callsMethod || key.callsMethod
  | call _ _ => true
  | visit _ _ _ _ => true
  | slice _ _ => true
  | sliceTo _ _ _ => true
  | object members => memberCallsMethod members
  | array items => itemCallsMethod items
  | binary _ lhs rhs => lhs.callsMethod || rhs.callsMethod
  | not e => e.callsMethod

def memberCallsMethod : List (String × Expr) → Bool
  | [] => false
  | (_, e) :: members => e.callsMethod || memberCallsMethod members

def itemCallsMethod : List Expr → Bool
  | [] => false
  | e :: items => e.callsMethod || itemCallsMethod items

end

theorem mem_memberOccurrences {param : Option String} {members : List (String × Expr)}
    {m : String × Expr} (hm : m ∈ members) {x : Option String × String}
    (hx : x ∈ m.2.occurrences param) : x ∈ memberOccurrences param members := by
  induction members with
  | nil => cases hm
  | cons n members ih =>
    rw [memberOccurrences, List.mem_append]
    rcases List.mem_cons.mp hm with rfl | hm
    · exact .inl hx
    · exact .inr (ih hm)

theorem mem_itemOccurrences {param : Option String} {items : List Expr} {e : Expr} (he : e ∈ items)
    {x : Option String × String} (hx : x ∈ e.occurrences param) :
    x ∈ itemOccurrences param items := by
  induction items with
  | nil => cases he
  | cons f items ih =>
    rw [itemOccurrences, List.mem_append]
    rcases List.mem_cons.mp he with rfl | he
    · exact .inl hx
    · exact .inr (ih he)

theorem memberCallsMethod_of_mem {members : List (String × Expr)} {m : String × Expr}
    (hm : m ∈ members) (h : m.2.callsMethod = true) : memberCallsMethod members = true := by
  induction members with
  | nil => cases hm
  | cons n members ih =>
    rw [memberCallsMethod, Bool.or_eq_true]
    rcases List.mem_cons.mp hm with rfl | hm
    · exact .inl h
    · exact .inr (ih hm)

theorem itemCallsMethod_of_mem {items : List Expr} {e : Expr} (he : e ∈ items)
    (h : e.callsMethod = true) : itemCallsMethod items = true := by
  induction items with
  | nil => cases he
  | cons f items ih =>
    rw [itemCallsMethod, Bool.or_eq_true]
    rcases List.mem_cons.mp he with rfl | he
    · exact .inl h
    · exact .inr (ih he)

end Expr

/-- If there is no value, the reason is one of these. -/
def FailsOnly (P : EvalError → Prop) {α : Type} (x : Except EvalError α) : Prop :=
  ∀ e, x = .error e → P e

/-- The errors of method calls are among these. -/
structure CoversMethods (P : EvalError → Prop) : Prop where
  typeMismatch : ∀ method found, P (.typeMismatch method found)
  invalidBound : ∀ found, P (.invalidBound found)

namespace FailsOnly
variable {P : EvalError → Prop} {α β : Type}

theorem ok (a : α) : FailsOnly P (.ok a) := nofun

theorem error {e : EvalError} (h : P e) : FailsOnly P (.error e : Except EvalError α) := by
  rintro _ ⟨⟩
  exact h

theorem bind {x : Except EvalError α} {f : α → Except EvalError β} (hx : FailsOnly P x)
    (hf : ∀ a, FailsOnly P (f a)) : FailsOnly P (x >>= f) := by
  intro e he
  rcases Except.bind_eq_error.mp he with he | ⟨a, -, he⟩
  · exact hx e he
  · exact hf a e he

theorem map {x : Except EvalError α} (f : α → β) (hx : FailsOnly P x) :
    FailsOnly P (x.map f) := by
  cases x with
  | ok a => exact ok (f a)
  | error e => exact error (hx e rfl)

theorem exists_ok {x : Except EvalError α} (h : FailsOnly (fun _ => False) x) :
    ∃ a, x = .ok a := by
  cases x with
  | ok a => exact ⟨a, rfl⟩
  | error e => exact (h e rfl).elim

theorem onValue {v : Option Json} {f : Json → Outcome} (hf : ∀ v, FailsOnly P (f v)) :
    FailsOnly P (Expression.onValue v f) := by
  unfold Expression.onValue
  split
  · exact ok none
  · exact ok none
  · exact hf _

section Methods
variable (hP : CoversMethods P)
include hP

theorem itemsFor (method : String) (v : Json) : FailsOnly P (Expression.itemsFor method v) := by
  unfold Expression.itemsFor
  split
  · exact ok _
  · exact error (hP.typeMismatch _ _)

theorem apply (m : Method) (v : Json) : FailsOnly P (m.apply v) := by
  unfold Method.apply
  split
  · exact ok _
  · exact ok _
  · exact (itemsFor hP _ _).map _

theorem sliceBound (default length : Nat) (v : Option Json) :
    FailsOnly P (Expression.sliceBound default length v) := by
  unfold Expression.sliceBound
  split
  · exact ok _
  · exact ok _
  · exact error (hP.invalidBound _)

end Methods

theorem keyed {f : Json → Outcome} (hf : ∀ item, FailsOnly P (f item)) (items : List Json) :
    FailsOnly P (Expression.keyed f items) := by
  induction items with
  | nil => exact ok []
  | cons item items ih =>
    unfold Expression.keyed
    split
    · next e he => exact error (hf item e he)
    · split
      · next e he => exact error (ih e he)
      · exact ok _

theorem findItem {f : Json → Outcome} (hf : ∀ item, FailsOnly P (f item)) (items : List Json) :
    FailsOnly P (Expression.findItem f items) := by
  induction items with
  | nil => exact ok none
  | cons item items ih =>
    unfold Expression.findItem
    split
    · next e he => exact error (hf item e he)
    · split
      · exact ok _
      · exact ih

theorem onItems {f : Json → Outcome} (hf : ∀ item, FailsOnly P (f item)) (items : List Json)
    (method : Visit) : FailsOnly P (method.onItems f items) := by
  cases method with
  | find => exact findItem hf items
  | map => exact (keyed hf items).map _
  | filter => exact (keyed hf items).map _
  | sort => exact (keyed hf items).map _

theorem evalMembers {root : Json} {bound : Option (String × Json)}
    {members : List (String × Expr)} (h : ∀ m ∈ members, FailsOnly P (eval root bound m.2)) :
    FailsOnly P (Expression.evalMembers root bound members) := by
  induction members with
  | nil => exact ok []
  | cons m members ih =>
    obtain ⟨hm, hms⟩ := List.forall_mem_cons.mp h
    rw [Expression.evalMembers]
    exact hm.bind fun v => (ih hms).bind fun entries => ok _

theorem evalItems {root : Json} {bound : Option (String × Json)} {items : List Expr}
    (h : ∀ e ∈ items, FailsOnly P (eval root bound e)) :
    FailsOnly P (Expression.evalItems root bound items) := by
  induction items with
  | nil => exact ok []
  | cons e items ih =>
    obtain ⟨he, hes⟩ := List.forall_mem_cons.mp h
    rw [Expression.evalItems]
    exact he.bind fun v => (ih hes).bind fun vs => ok _

end FailsOnly

/-- Where every variable has the name of the parameter in scope, only method calls fail. -/
theorem eval_failsOnly {P : EvalError → Prop} {root : Json} {e : Expr}
    {bound : Option (String × Json)} (h : e.IsScopedIn (bound.map Prod.fst))
    (hP : e.callsMethod = true → CoversMethods P) : FailsOnly P (eval root bound e) := by
  induction e using Expr.induct generalizing bound with
  | literal v => exact .ok _
  | undefined => exact .ok _
  | root => exact .ok _
  | var name =>
    have hname := h (bound.map Prod.fst, name) (.head _)
    obtain ⟨⟨param, v⟩, rfl, rfl⟩ := Option.map_eq_some_iff.mp hname
    rw [eval, if_pos rfl]
    exact .ok _
  | property target name iht =>
    rw [eval]
    exact (iht h hP).bind fun v => .ok _
  | index target key iht ihk =>
    obtain ⟨ht, hk⟩ := List.forall_mem_append.mp h
    rw [eval]
    refine (iht ht fun hc => hP ?_).bind fun v => (ihk hk fun hc => hP ?_).bind fun k => .ok _
    · simp [Expr.callsMethod, hc]
    · simp [Expr.callsMethod, hc]
  | call target method iht =>
    have hP := hP rfl
    rw [eval]
    exact (iht h fun _ => hP).bind fun v => .onValue fun v => .apply hP method v
  | visit target method param body iht ihb =>
    obtain ⟨ht, hb⟩ := List.forall_mem_append.mp h
    have hP := hP rfl
    rw [eval]
    -- The parameter of this lambda is the one in scope in its body.
    have hbody (item : Json) : FailsOnly P (eval root (some (param, item)) body) :=
      ihb hb fun _ => hP
    refine (iht ht fun _ => hP).bind fun v => .onValue fun v => (FailsOnly.itemsFor hP _ v).bind ?_
    exact fun items => .onItems hbody items method
  | slice target start iht ihs =>
    obtain ⟨ht, hs⟩ := List.forall_mem_append.mp h
    have hP := hP rfl
    rw [eval]
    refine (iht ht fun _ => hP).bind fun v => .onValue fun v => (FailsOnly.itemsFor hP _ v).bind ?_
    exact fun items => (ihs hs fun _ => hP).bind fun i => (FailsOnly.sliceBound hP _ _ i).bind
      fun i => .ok _
  | sliceTo target start stop iht ihs ihe =>
    obtain ⟨hts, he⟩ := List.forall_mem_append.mp h
    obtain ⟨ht, hs⟩ := List.forall_mem_append.mp hts
    have hP := hP rfl
    rw [eval]
    refine (iht ht fun _ => hP).bind fun v => .onValue fun v => (FailsOnly.itemsFor hP _ v).bind ?_
    refine fun items => (ihs hs fun _ => hP).bind fun i => (FailsOnly.sliceBound hP _ _ i).bind ?_
    exact fun i => (ihe he fun _ => hP).bind fun j => (FailsOnly.sliceBound hP _ _ j).bind
      fun j => .ok _
  | object members ih =>
    rw [eval]
    refine (FailsOnly.evalMembers fun m hm => ih m hm ?_ fun hc => hP ?_).bind fun _ => .ok _
    · exact fun x hx => h x (Expr.mem_memberOccurrences hm hx)
    · exact Expr.memberCallsMethod_of_mem hm hc
  | array items ih =>
    rw [eval]
    refine (FailsOnly.evalItems fun e he => ih e he ?_ fun hc => hP ?_).bind fun _ => .ok _
    · exact fun x hx => h x (Expr.mem_itemOccurrences he hx)
    · exact Expr.itemCallsMethod_of_mem he hc
  | binary op lhs rhs ihl ihr =>
    obtain ⟨hl, hr⟩ := List.forall_mem_append.mp h
    have ihl := ihl hl fun hc => hP (by simp [Expr.callsMethod, hc])
    have ihr := ihr hr fun hc => hP (by simp [Expr.callsMethod, hc])
    cases op with
    | and =>
      rw [eval]
      refine ihl.bind fun v => ?_
      split
      · exact ihr
      · exact .ok _
    | or =>
      rw [eval]
      refine ihl.bind fun v => ?_
      split
      · exact .ok _
      · exact ihr
    | _ =>
      simp only [eval]
      exact ihl.bind fun v => ihr.bind fun w => .ok _
  | not e ih =>
    rw [eval]
    exact (ih h hP).bind fun v => .ok _

end Switchboard.Expression
