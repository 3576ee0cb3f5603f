import Switchboard.Proofs.Expression.Finite
import Switchboard.Proofs.Expression.Height

/-! The literals of an expression that is read from text are finite: a number that is not becomes
null. -/
namespace Switchboard.Expression

namespace Expr.IsFinite

section
variable {e f g : Expr} (he : ∀ v, e ≠ .literal v)
include he

theorem of_parts (h : ∀ f ∈ e.parts, f.IsFinite) : e.IsFinite :=
  .intro (fun v hv => absurd hv (he v)) h

theorem none (hp : e.parts = []) : e.IsFinite :=
  of_parts he (by rw [hp]; exact nofun)

theorem one (hp : e.parts = [f]) (hf : f.IsFinite) : e.IsFinite :=
  of_parts he (by rw [hp]; exact List.forall_mem_singleton.mpr hf)

theorem two (hp : e.parts = [f, g]) (hf : f.IsFinite) (hg : g.IsFinite) : e.IsFinite :=
  of_parts he (by
    rw [hp]
    exact List.forall_mem_cons.mpr ⟨hf, List.forall_mem_singleton.mpr hg⟩)

end

theorem of_literal {v : Json} (h : v.IsFinite) : (Expr.literal v).IsFinite := by
  refine .intro ?_ nofun
  rintro _ ⟨⟩
  exact h

end Expr.IsFinite

/-- What is read is finite. Further operands and links are finite on what is finite. -/
def Nonterminal.Finite : (k : Nonterminal) → k.Value → Prop
  | expr, e => e.IsFinite
  | disjunction, e => e.IsFinite
  | disjuncts, f => ∀ e, e.IsFinite → (f e).IsFinite
  | conjunction, e => e.IsFinite
  | conjuncts, f => ∀ e, e.IsFinite → (f e).IsFinite
  | comparison, e => e.IsFinite
  | unary, e => e.IsFinite
  | linked, e => e.IsFinite
  | links, f => ∀ e, e.IsFinite → (f e).IsFinite
  | call, f => ∀ e, e.IsFinite → (f e).IsFinite
  | primary, e => e.IsFinite
  | items, es => ∀ e ∈ es, e.IsFinite
  | members, ms => ∀ m ∈ ms, m.2.IsFinite
  | lambda, f => f.2.IsFinite

theorem Derivation.finite {k : Nonterminal} (t : Derivation k) : k.Finite t.value := by
  induction t with
  | expr t ih => exact ih
  | disjunction first others ihf iho => exact iho _ ihf
  | conjunction first others ihf iho => exact iho _ ihf
  | linked target links iht ihl => exact ihl _ iht
  | noDisjunct => exact fun e he => he
  | noConjunct => exact fun e he => he
  | noLink => exact fun e he => he
  | disjunct operand others ihp iho =>
    exact fun e he => iho _ (.two nofun rfl he ihp)
  | conjunct operand others ihp iho =>
    exact fun e he => iho _ (.two nofun rfl he ihp)
  | alone t ih => exact ih
  | compare lhs o ho rhs ihl ihr => exact .two nofun rfl ihl ihr
  | not t ih => exact .one nofun rfl ih
  | plain t ih => exact ih
  | property name more ih => exact fun e he => ih _ (.one nofun rfl he)
  | call m more ihm iho => exact fun e he => iho _ (ihm e he)
  | index key more ihk ihm => exact fun e he => ihm _ (.two nofun rfl he ihk)
  | method m => exact fun e he => .one nofun rfl he
  | visit m f ih => exact fun e he => .two nofun rfl he ih
  | slice start ih => exact fun e he => .two nofun rfl he ih
  | sliceTo start stop ihs ihp =>
    exact fun e he => .of_parts nofun (List.forall_mem_cons.mpr ⟨he, List.forall_mem_cons.mpr
      ⟨ihs, List.forall_mem_singleton.mpr ihp⟩⟩)
  | root => exact .none nofun rfl
  | undefined => exact .none nofun rfl
  | var name h => exact .none nofun rfl
  | number x => exact .of_literal (.ofFloat x)
  | text s => exact .of_literal (.str s)
  | bool b => exact .of_literal (.bool b)
  | null => exact .of_literal .null
  | group t ih => exact ih
  | object members ih =>
    refine .of_parts nofun fun f hf => ?_
    obtain ⟨m, hm, rfl⟩ := List.mem_map.mp hf
    exact ih m hm
  | array items ih => exact .of_parts nofun ih
  | noItem => exact nofun
  | lastItem t ih => exact List.forall_mem_singleton.mpr ih
  | item t more iht ihm => exact List.forall_mem_cons.mpr ⟨iht, ihm⟩
  | noMember => exact nofun
  | lastMember key t ih => exact List.forall_mem_singleton.mpr ih
  | member key t more iht ihm => exact List.forall_mem_cons.mpr ⟨iht, ihm⟩
  | lambda param body ih => exact ih
  | lambdaGroup param body ih => exact ih

theorem isFinite_of_parse {s : String} {e : Expr} (h : parse s = .ok e) : e.IsFinite := by
  obtain ⟨t, rfl, -⟩ := derivation_of_parse h
  exact t.finite

end Switchboard.Expression
