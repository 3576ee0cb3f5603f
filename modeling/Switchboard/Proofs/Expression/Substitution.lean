import Switchboard.Proofs.Expression.Holding

/-! An expression read on the value of another one: the same is found when `$` gives way to that
other expression. -/
namespace Switchboard.Expression

namespace Expr

mutual

/-- `f` with `e` in the place of `$`, in the bodies of lambdas as well. -/
def comp (f e : Expr) : Expr :=
  match f with
  | literal v => literal v
  | undefined => undefined
  | root => e
  | var name => var name
  | property target name => property (target.comp e) name
  | index target key => index (target.comp e) (key.comp e)
  | call target method => call (target.comp e) method
  | visit target method param body => visit (target.comp e) method param (body.comp e)
  | slice target start => slice (target.comp e) (start.comp e)
  | sliceTo target start stop => sliceTo (target.comp e) (start.comp e) (stop.comp e)
  | object members => object (compMembers members e)
  | array items => array (compItems items e)
  | binary op lhs rhs => binary op (lhs.comp e) (rhs.comp e)
  | not g => not (g.comp e)

def compMembers (members : List (String × Expr)) (e : Expr) : List (String × Expr) :=
  match members with
  | [] => []
  | (k, f) :: members => (k, f.comp e) :: compMembers members e

def compItems (items : List Expr) (e : Expr) : List Expr :=
  match items with
  | [] => []
  | f :: items => f.comp e :: compItems items e

end

mutual

/-- Every variable stands in the body of a lambda of the expression itself. -/
def isClosed : Expr → Bool
  | literal _ => true
  | undefined => true
  | root => true
  | var _ => false
  | property target _ => target.isClosed
  | index target key => target.isClosed && key.isClosed
  | call target _ => target.isClosed
  | visit target _ _ _ => target.isClosed
  | slice target start => target.isClosed && start.isClosed
  | sliceTo target start stop => target.isClosed && start.isClosed && stop.isClosed
  | object members => closedMembers members
  | array items => closedItems items
  | binary _ lhs rhs => lhs.isClosed && rhs.isClosed
  | not e => e.isClosed

def closedMembers : List (String × Expr) → Bool
  | [] => true
  | (_, e) :: members => e.isClosed && closedMembers members

def closedItems : List Expr → Bool
  | [] => true
  | e :: items => e.isClosed && closedItems items

end

end Expr

theorem evalMembers_of_closed {root : Json} {bound : Option (String × Json)}
    {members : List (String × Expr)}
    (ih : ∀ m ∈ members, m.2.isClosed = true → eval root bound m.2 = eval root none m.2)
    (h : Expr.closedMembers members = true) :
    evalMembers root bound members = evalMembers root none members := by
  induction members with
  | nil => rfl
  | cons m members ihms =>
    obtain ⟨hm, hms⟩ := Bool.and_eq_true_iff.mp h
    obtain ⟨ihm, ihs⟩ := List.forall_mem_cons.mp ih
    rw [evalMembers, evalMembers, ihm hm, ihms ihs hms]

theorem evalItems_of_closed {root : Json} {bound : Option (String × Json)} {items : List Expr}
    (ih : ∀ e ∈ items, e.isClosed = true → eval root bound e = eval root none e)
    (h : Expr.closedItems items = true) :
    evalItems root bound items = evalItems root none items := by
  induction items with
  | nil => rfl
  | cons e items ihes =>
    obtain ⟨he, hes⟩ := Bool.and_eq_true_iff.mp h
    obtain ⟨ihe, ihs⟩ := List.forall_mem_cons.mp ih
    rw [evalItems, evalItems, ihe he, ihes ihs hes]

/-- A closed expression does not look at the parameter of a lambda around it. -/
theorem eval_of_closed {root : Json} {e : Expr} (h : e.isClosed = true)
    (bound : Option (String × Json)) : eval root bound e = eval root none e := by
  induction e using Expr.induct with
  | literal v => rfl
  | undefined => rfl
  | root => rfl
  | var name => cases h
  | property target name iht => rw [eval, eval, iht h]
  | index target key iht ihk =>
    obtain ⟨ht, hk⟩ := Bool.and_eq_true_iff.mp h
    rw [eval, eval, iht ht, ihk hk]
  | call target method iht => rw [eval, eval, iht h]
  | visit target method param body iht _ =>
    -- The body has a parameter of its own, which hides the one around it.
    rw [eval, eval, iht h]
  | slice target start iht ihs =>
    obtain ⟨ht, hs⟩ := Bool.and_eq_true_iff.mp h
    rw [eval, eval, iht ht, ihs hs]
  | sliceTo target start stop iht ihs ihe =>
    obtain ⟨hts, he⟩ := Bool.and_eq_true_iff.mp h
    obtain ⟨ht, hs⟩ := Bool.and_eq_true_iff.mp hts
    rw [eval, eval, iht ht, ihs hs, ihe he]
  | object members ih => rw [eval, eval, evalMembers_of_closed ih h]
  | array items ih => rw [eval, eval, evalItems_of_closed ih h]
  | binary op lhs rhs ihl ihr =>
    obtain ⟨hl, hr⟩ := Bool.and_eq_true_iff.mp h
    have ihl := ihl hl
    have ihr := ihr hr
    cases op <;> simp only [eval, ihl, ihr]
  | not e ih => rw [eval, eval, ih h]

section
variable {c v : Json} {e : Expr}

theorem evalMembers_comp {bound : Option (String × Json)} {members : List (String × Expr)}
    (ih : ∀ m ∈ members, eval c bound (m.2.comp e) = eval v bound m.2) :
    evalMembers c bound (Expr.compMembers members e) = evalMembers v bound members := by
  induction members with
  | nil => rfl
  | cons m members ihms =>
    obtain ⟨ihm, ihs⟩ := List.forall_mem_cons.mp ih
    rw [Expr.compMembers, evalMembers, evalMembers, ihm, ihms ihs]

theorem evalItems_comp {bound : Option (String × Json)} {items : List Expr}
    (ih : ∀ f ∈ items, eval c bound (f.comp e) = eval v bound f) :
    evalItems c bound (Expr.compItems items e) = evalItems v bound items := by
  induction items with
  | nil => rfl
  | cons f items ihfs =>
    obtain ⟨ihf, ihs⟩ := List.forall_mem_cons.mp ih
    rw [Expr.compItems, evalItems, evalItems, ihf, ihfs ihs]

/-- Under any parameter, as the induction enters the bodies of lambdas. -/
theorem eval_comp (closed : e.isClosed = true) (h : eval c none e = .ok (some v)) (f : Expr)
    (bound : Option (String × Json)) : eval c bound (f.comp e) = eval v bound f := by
  induction f using Expr.induct generalizing bound with
  | literal w => rfl
  | undefined => rfl
  | root => exact (eval_of_closed closed bound).trans h
  | var name => rfl
  | property target name iht => rw [Expr.comp, eval, eval, iht]
  | index target key iht ihk => rw [Expr.comp, eval, eval, iht, ihk]
  | call target method iht => rw [Expr.comp, eval, eval, iht]
  | visit target method param body iht ihb =>
    have hb : (fun item => eval c (some (param, item)) (body.comp e)) =
        fun item => eval v (some (param, item)) body := funext fun item => ihb _
    rw [Expr.comp, eval, eval, iht, hb]
  | slice target start iht ihs => rw [Expr.comp, eval, eval, iht, ihs]
  | sliceTo target start stop iht ihs ihe => rw [Expr.comp, eval, eval, iht, ihs, ihe]
  | object members ih =>
    rw [Expr.comp, eval, eval, evalMembers_comp fun m hm => ih m hm bound]
  | array items ih => rw [Expr.comp, eval, eval, evalItems_comp fun g hg => ih g hg bound]
  | binary op lhs rhs ihl ihr => cases op <;> simp only [Expr.comp, eval, ihl, ihr]
  | not g ih => rw [Expr.comp, eval, eval, ih]

/-- Reading `f` on the value of `e` finds what `f` with `e` in the place of `$` finds, be it a
value, nothing or an error; and so it is where values are taken apart, whether the value of `e` is
lent by the input or built by `e`. -/
theorem eval_comp_eq (closed : e.isClosed = true) (h : eval c none e = .ok (some v)) (f : Expr) :
    eval c none (f.comp e) = eval v none f ∧
      (hold c none (f.comp e)).outcome = (hold v none f).outcome := by
  have hf := eval_comp closed h f none
  exact ⟨hf, by rw [outcome_hold, outcome_hold, hf]⟩

end

/-- `$.map(y => $.last)` on `$.a.map(x => x.b)`, which builds an array that gives up its last item
twice. -/
theorem eval_comp_eq_map :
    (Expr.visit (.property .root "a") .map "x" (.property (.var "x") "b")).isClosed = true ∧
      eval (.obj [("a", .arr [.obj [("b", .bool true)], .obj [("b", .null)]])]) none
        (.visit (.property .root "a") .map "x" (.property (.var "x") "b")) =
          .ok (some (.arr [.bool true, .null])) ∧
      eval (.obj [("a", .arr [.obj [("b", .bool true)], .obj [("b", .null)]])]) none
        ((Expr.visit .root .map "y" (.property .root "last")).comp
          (.visit (.property .root "a") .map "x" (.property (.var "x") "b"))) =
          .ok (some (.arr [.null, .null])) := by
  have h : eval (.obj [("a", .arr [.obj [("b", .bool true)], .obj [("b", .null)]])]) none
      (.visit (.property .root "a") .map "x" (.property (.var "x") "b")) =
        .ok (some (.arr [.bool true, .null])) := rfl
  exact ⟨rfl, h, (eval_comp_eq rfl h (.visit .root .map "y" (.property .root "last"))).1⟩

end Switchboard.Expression
