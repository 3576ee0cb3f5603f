import Switchboard.Proofs.Expression.Scoping

/-! The name of a parameter makes no difference: a lambda may be written with another one, wherever
it stands. Expressions that have the same value have it in every context. -/
namespace Switchboard.Expression

namespace Expr

mutual

/-- `q` in the place of the variable `p`, but not in the bodies of lambdas: they have a parameter of
their own. -/
def rename (p q : String) : Expr → Expr
  | literal v => literal v
  | undefined => undefined
  | root => root
  | var name => var (if name = p then q else name)
  | property target name => property (target.rename p q) name
  | index target key => index (target.rename p q) (key.rename p q)
  | call target method => call (target.rename p q) method
  | visit target method param body => visit (target.rename p q) method param body
  | slice target start => slice (target.rename p q) (start.rename p q)
  | sliceTo target start stop =>
    sliceTo (target.rename p q) (start.rename p q) (stop.rename p q)
  | object members => object (renameMembers p q members)
  | array items => array (renameItems p q items)
  | binary op lhs rhs => binary op (lhs.rename p q) (rhs.rename p q)
  | not e => not (e.rename p q)

def renameMembers (p q : String) : List (String × Expr) → List (String × Expr)
  | [] => []
  | (k, e) :: members => (k, e.rename p q) :: renameMembers p q members

def renameItems (p q : String) : List Expr → List Expr
  | [] => []
  | e :: items => e.rename p q :: renameItems p q items

end

end Expr

/-- An expression with one place left open. -/
inductive Context where
  | hole
  | property (target : Context) (name : String)
  | indexTarget (target : Context) (key : Expr)
  | indexKey (target : Expr) (key : Context)
  | call (target : Context) (method : Method)
  | visitTarget (target : Context) (method : Visit) (param : String) (body : Expr)
  | visitBody (target : Expr) (method : Visit) (param : String) (body : Context)
  | sliceTarget (target : Context) (start : Expr)
  | sliceStart (target : Expr) (start : Context)
  | sliceToTarget (target : Context) (start stop : Expr)
  | sliceToStart (target : Expr) (start : Context) (stop : Expr)
  | sliceToStop (target start : Expr) (stop : Context)
  | member (before : List (String × Expr)) (name : String) (value : Context)
      (after : List (String × Expr))
  | item (before : List Expr) (value : Context) (after : List Expr)
  | lhs (op : Operator) (lhs : Context) (rhs : Expr)
  | rhs (op : Operator) (lhs : Expr) (rhs : Context)
  | not (e : Context)

/-- The context with `e` in its open place. -/
def Context.plug (e : Expr) : Context → Expr
  | hole => e
  | property target name => .property (target.plug e) name
  | indexTarget target key => .index (target.plug e) key
  | indexKey target key => .index target (key.plug e)
  | call target method => .call (target.plug e) method
  | visitTarget target method param body => .visit (target.plug e) method param body
  | visitBody target method param body => .visit target method param (body.plug e)
  | sliceTarget target start => .slice (target.plug e) start
  | sliceStart target start => .slice target (start.plug e)
  | sliceToTarget target start stop => .sliceTo (target.plug e) start stop
  | sliceToStart target start stop => .sliceTo target (start.plug e) stop
  | sliceToStop target start stop => .sliceTo target start (stop.plug e)
  | member before name value after => .object (before ++ (name, value.plug e) :: after)
  | item before value after => .array (before ++ value.plug e :: after)
  | lhs op left right => .binary op (left.plug e) right
  | rhs op left right => .binary op left (right.plug e)
  | not inner => .not (inner.plug e)

section
variable {root : Json} {bound : Option (String × Json)} {e f : Expr}

theorem evalMembers_congr (before : List (String × Expr)) (name : String)
    (after : List (String × Expr)) (h : eval root bound e = eval root bound f) :
    evalMembers root bound (before ++ (name, e) :: after) =
      evalMembers root bound (before ++ (name, f) :: after) := by
  induction before with
  | nil => rw [List.nil_append, List.nil_append, evalMembers, evalMembers, h]
  | cons m before ih =>
    rw [List.cons_append, List.cons_append, evalMembers, evalMembers, ih]

theorem evalItems_congr (before after : List Expr) (h : eval root bound e = eval root bound f) :
    evalItems root bound (before ++ e :: after) = evalItems root bound (before ++ f :: after) := by
  induction before with
  | nil => rw [List.nil_append, List.nil_append, evalItems, evalItems, h]
  | cons g before ih => rw [List.cons_append, List.cons_append, evalItems, evalItems, ih]

/-- Under any parameter, as a context may stand in the body of a lambda. -/
theorem eval_plug (h : ∀ bound, eval root bound e = eval root bound f) (c : Context)
    (bound : Option (String × Json)) :
    eval root bound (c.plug e) = eval root bound (c.plug f) := by
  induction c generalizing bound with
  | hole => exact h bound
  | visitBody target method param body ih => simp only [Context.plug, eval, ih]
  | member before name value after ih =>
    rw [Context.plug, Context.plug, eval, eval, evalMembers_congr before name after (ih bound)]
  | item before value after ih =>
    rw [Context.plug, Context.plug, eval, eval, evalItems_congr before after (ih bound)]
  | lhs op left right ih => cases op <;> simp only [Context.plug, eval, ih]
  | rhs op left right ih => cases op <;> simp only [Context.plug, eval, ih]
  | _ => simp only [Context.plug, eval, *]

end

section
variable {root v : Json} {p q : String}

theorem evalMembers_rename {members : List (String × Expr)}
    (h : ∀ m ∈ members, eval root (some (q, v)) (m.2.rename p q) = eval root (some (p, v)) m.2) :
    evalMembers root (some (q, v)) (Expr.renameMembers p q members) =
      evalMembers root (some (p, v)) members := by
  induction members with
  | nil => rfl
  | cons m members ih =>
    obtain ⟨hm, hms⟩ := List.forall_mem_cons.mp h
    rw [Expr.renameMembers, evalMembers, evalMembers, hm, ih hms]

theorem evalItems_rename {items : List Expr}
    (h : ∀ e ∈ items, eval root (some (q, v)) (e.rename p q) = eval root (some (p, v)) e) :
    evalItems root (some (q, v)) (Expr.renameItems p q items) =
      evalItems root (some (p, v)) items := by
  induction items with
  | nil => rfl
  | cons e items ih =>
    obtain ⟨he, hes⟩ := List.forall_mem_cons.mp h
    rw [Expr.renameItems, evalItems, evalItems, he, ih hes]

/-- The new name does not occur outside the bodies of lambdas: there it would be caught. -/
theorem eval_rename {e : Expr} (h : (none, q) ∉ e.occurrences none) :
    eval root (some (q, v)) (e.rename p q) = eval root (some (p, v)) e := by
  induction e using Expr.induct with
  | literal w => rfl
  | undefined => rfl
  | root => rfl
  | var name =>
    have hq : q ≠ name := by simpa [Expr.occurrences] using h
    by_cases hp : name = p
    · simp [Expr.rename, eval, hp]
    · simp [Expr.rename, eval, hp, hq, Ne.symm hp]
  | property target name iht => rw [Expr.rename, eval, eval, iht h]
  | index target key iht ihk =>
    obtain ⟨ht, hk⟩ := not_or.mp (mt List.mem_append.mpr h)
    rw [Expr.rename, eval, eval, iht ht, ihk hk]
  | call target method iht => rw [Expr.rename, eval, eval, iht h]
  | visit target method param body iht _ =>
    obtain ⟨ht, -⟩ := not_or.mp (mt List.mem_append.mpr h)
    rw [Expr.rename, eval, eval, iht ht]
  | slice target start iht ihs =>
    obtain ⟨ht, hs⟩ := not_or.mp (mt List.mem_append.mpr h)
    rw [Expr.rename, eval, eval, iht ht, ihs hs]
  | sliceTo target start stop iht ihs ihe =>
    obtain ⟨hts, he⟩ := not_or.mp (mt List.mem_append.mpr h)
    obtain ⟨ht, hs⟩ := not_or.mp (mt List.mem_append.mpr hts)
    rw [Expr.rename, eval, eval, iht ht, ihs hs, ihe he]
  | object members ih =>
    rw [Expr.rename, eval, eval, evalMembers_rename fun m hm =>
      ih m hm fun hx => h (Expr.mem_memberOccurrences hm hx)]
  | array items ih =>
    rw [Expr.rename, eval, eval, evalItems_rename fun e he =>
      ih e he fun hx => h (Expr.mem_itemOccurrences he hx)]
  | binary op lhs rhs ihl ihr =>
    obtain ⟨hl, hr⟩ := not_or.mp (mt List.mem_append.mpr h)
    have ihl := ihl hl
    have ihr := ihr hr
    cases op <;> simp only [Expr.rename, eval, ihl, ihr]
  | not e ih => rw [Expr.rename, eval, eval, ih h]

theorem eval_visit_rename {body : Expr} (h : (none, q) ∉ body.occurrences none) (target : Expr)
    (method : Visit) (bound : Option (String × Json)) :
    eval root bound (.visit target method q (body.rename p q)) =
      eval root bound (.visit target method p body) := by
  have hbody : (fun item => eval root (some (q, item)) (body.rename p q)) =
      fun item => eval root (some (p, item)) body := funext fun _ => eval_rename h
  rw [eval, eval, hbody]

end

/-- Where every variable names the parameter of the innermost lambda, evaluation gives a value or
nothing, or a method is called on what it is not for; and where no method is called it gives a value
or nothing. A lambda may be written with another parameter, in every context, as long as its body
does not use that name itself. -/
theorem eval_scoping (root : Json) :
    (∀ e : Expr, e.IsScoped →
      (∃ v, eval root none e = .ok v) ∨
        (∃ method found, eval root none e = .error (.typeMismatch method found)) ∨
          ∃ found, eval root none e = .error (.invalidBound found)) ∧
      (∀ e : Expr, e.IsScoped → e.callsMethod = false → ∃ v, eval root none e = .ok v) ∧
      ∀ (c : Context) (target : Expr) (method : Visit) (p q : String) (body : Expr),
        (none, q) ∉ body.occurrences none →
          eval root none (c.plug (.visit target method q (body.rename p q))) =
            eval root none (c.plug (.visit target method p body)) := by
  refine ⟨fun e hscoped => ?_, fun e hscoped hplain => ?_, fun c target method p q body hq => ?_⟩
  · have hcovers : CoversMethods fun e => (∃ method found, e = .typeMismatch method found) ∨
        ∃ found, e = .invalidBound found :=
      ⟨fun method found => .inl ⟨method, found, rfl⟩, fun found => .inr ⟨found, rfl⟩⟩
    have hfails : FailsOnly _ (eval root none e) := eval_failsOnly hscoped fun _ => hcovers
    cases h : eval root none e with
    | ok v => exact .inl ⟨v, rfl⟩
    | error err =>
      rcases hfails err h with ⟨method, found, rfl⟩ | ⟨found, rfl⟩
      · exact .inr (.inl ⟨method, found, rfl⟩)
      · exact .inr (.inr ⟨found, rfl⟩)
  · have hcalls (h : e.callsMethod = true) : CoversMethods fun _ => False := by
      rw [hplain] at h
      cases h
    have hfails : FailsOnly _ (eval root none e) := eval_failsOnly hscoped hcalls
    exact hfails.exists_ok
  · exact eval_plug (fun bound => eval_visit_rename hq target method bound) c none

namespace Sample

/-- `x.filter(y => y == $.first)` -/
def inner : Expr :=
  .visit (.var "x") .filter "y" (.binary .eq (.var "y") (.property .root "first"))

/-- `$.map(x => x.filter(y => y == $.first))` -/
def nested : Expr := .visit .root .map "x" inner

end Sample

open Sample in
/-- The lambda outside may have the parameter of the one inside. -/
theorem eval_scoping_nested :
    nested.IsScoped ∧
      (∃ v, eval (.arr [.arr [.null]]) none nested = .ok v) ∧
      (Expr.property .root "first").IsScoped ∧
      (Expr.property .root "first").callsMethod = false ∧
      (∃ v, eval (.arr [.null]) none (.property .root "first") = .ok v) ∧
      (none, "y") ∉ inner.occurrences none ∧
      eval (.arr [.arr [.null]]) none
        (.not (.visit .root .map "y" (.visit (.var "y") .filter "y"
          (.binary .eq (.var "y") (.property .root "first"))))) =
          eval (.arr [.arr [.null]]) none (.not nested) := by
  have hscoped : nested.IsScoped := by decide
  have hfresh : (none, "y") ∉ inner.occurrences none := by decide
  have hplain : (Expr.property .root "first").IsScoped := by decide
  refine ⟨hscoped, ?_, hplain, rfl, (eval_scoping _).2.1 _ hplain rfl, hfresh,
    (eval_scoping _).2.2 (.not .hole) .root .map "x" "y" inner hfresh⟩
  rcases (eval_scoping (.arr [.arr [.null]])).1 nested hscoped with h | ⟨_, _, h⟩ | ⟨_, h⟩
  · exact h
  · cases h
  · cases h

end Switchboard.Expression
