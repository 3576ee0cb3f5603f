import Switchboard.Proofs.Execution.Moments

/-! Calls that are waited for, one after the other, each of which finds the router that the one
before it left. A chain makes such calls, and what one call does adds up along them. -/
namespace Switchboard

/-- The data that a call hands on: its own, and none if that is null. -/
def Call.passed (c : Call) : Option Json := c.data.bind Json.nonNull?

namespace Services

/-- From `s` to `t` calls are made in this order, with these answers. -/
inductive Linked (sv : Services) : Router → List (Event × Call) → Router → Prop
  | nil (s : Router) : Linked sv s [] s
  | cons {e : Event} {c : Call} {ps : List (Event × Call)} {u t : Router}
      (head : e.outcome sv = (.ok c, u)) (tail : Linked sv u ps t) :
      Linked sv e.before ((e, c) :: ps) t

variable {sv : Services} {s t : Router}

namespace Linked
variable {ps : List (Event × Call)}

theorem call {m : Mapping} {r : Request} {body : Option Json} {c : Call} {u : Router}
    (h : (sv.call m r body).runOn s = (.ok c, u)) (tail : sv.Linked u ps t) :
    sv.Linked s ((⟨m, r, body, s⟩, c) :: ps) t := by
  have head : Event.outcome sv ⟨m, r, body, s⟩ = (.ok c, u) := h
  exact cons head tail

theorem isSettled (h : sv.Linked s ps t) : ∀ c ∈ ps.map (·.2), c.IsSettled := by
  induction h with
  | nil => simp
  | cons head tail ih => exact List.forall_mem_cons.mpr ⟨(call_accounts head).2.1, ih⟩

end Linked

end Services
end Switchboard
