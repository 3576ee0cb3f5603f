import Switchboard.Telemetry.Counters

/-! Counters tell of the updates that were added: how many there were of each kind, up to the size
of a word, and with what error the last failure came. -/
namespace Switchboard.Telemetry

namespace Counters

/-- The counters that updates lead to. -/
structure TellsOf (c : Counters) (us : List Update) : Prop where
  calls : c.calls.toNat = us.length % UInt64.size
  calls_eq : c.calls = c.successes + c.failures
  successes : c.successes.toNat = (us.filter (·.succeeded)).length % UInt64.size
  failures : c.failures.toNat = (us.filter fun u => !u.succeeded).length % UInt64.size
  cacheHits : c.cacheHits.toNat = (us.filter (·.fromCache)).length % UInt64.size
  latency : c.latency = us.foldl (fun n u => n + u.latency) 0
  lastError : c.lastError = (us.filter fun u => !u.succeeded).getLast?.bind (·.error)

/-- A count that goes on by one may start again at zero. -/
theorem toNat_add_one {n : UInt64} {k : Nat} (h : n.toNat = k % UInt64.size) :
    (n + 1).toNat = (k + 1) % UInt64.size := by
  have hsum : (n + 1).toNat = (n.toNat + 1) % UInt64.size := UInt64.toNat_add n 1
  rw [hsum, h, Nat.mod_add_mod]

theorem tellsOf_nil : TellsOf {} [] where
  calls := rfl
  calls_eq := rfl
  successes := rfl
  failures := rfl
  cacheHits := rfl
  latency := rfl
  lastError := rfl

theorem TellsOf.add {c : Counters} {us : List Update} (h : c.TellsOf us) (u : Update) :
    (c.add u).TellsOf (us ++ [u]) := by
  have hcalls : (c.calls + 1).toNat = (us ++ [u]).length % UInt64.size := by
    rw [List.length_append, List.length_singleton]
    exact toNat_add_one h.calls
  have hhits : (if u.fromCache then c.cacheHits + 1 else c.cacheHits).toNat =
      ((us ++ [u]).filter (·.fromCache)).length % UInt64.size := by
    cases hu : u.fromCache with
    | true => simpa [hu] using toNat_add_one h.cacheHits
    | false => simpa [hu] using h.cacheHits
  have hlatency : c.latency + u.latency = (us ++ [u]).foldl (fun n u => n + u.latency) 0 := by
    rw [List.foldl_append, ← h.latency]
    rfl
  unfold Counters.add
  cases hu : u.succeeded with
  | true =>
    refine ⟨hcalls, ?_, ?_, ?_, hhits, hlatency, ?_⟩
    · simp only [ite_true, h.calls_eq]
      ac_rfl
    · simpa [hu] using toNat_add_one h.successes
    · simpa [hu] using h.failures
    · simpa [hu] using h.lastError
  | false =>
    refine ⟨hcalls, ?_, ?_, ?_, hhits, hlatency, ?_⟩
    · simp only [Bool.false_eq_true, ite_false, h.calls_eq]
      ac_rfl
    · simpa [hu] using h.successes
    · simpa [hu] using toNat_add_one h.failures
    · simp [hu]

end Counters

namespace Table
open Fields

/-- Each mapping that was called has counters, and they tell of its own updates. -/
structure TellsOf (t : Table) (us : List Update) : Prop where
  counters : ∀ k, ((get? k t).getD {}).TellsOf (us.filter (·.mappingId = k))
  has : ∀ k, has k t = true ↔ ∃ u ∈ us, u.mappingId = k

theorem tellsOf_nil : TellsOf [] [] where
  counters := fun _ => Counters.tellsOf_nil
  has := by simp [Fields.has, get?]

theorem TellsOf.add {t : Table} {us : List Update} (h : t.TellsOf us) (u : Update) :
    (t.add u).TellsOf (us ++ [u]) where
  counters := by
    intro k
    rw [List.filter_append]
    by_cases hk : u.mappingId = k
    · subst hk
      rw [get?_add_self, List.filter_cons_of_pos (by simp)]
      exact (h.counters u.mappingId).add u
    · rw [get?_add_of_ne t (Ne.symm hk), List.filter_cons_of_neg (by simpa using hk),
        List.filter_nil, List.append_nil]
      exact h.counters k
  has := by
    intro k
    by_cases hk : u.mappingId = k
    · subst hk
      simp [Fields.has, get?_add_self]
    · have hsame : Fields.has k (t.add u) = Fields.has k t := by
        rw [Fields.has, get?_add_of_ne t (Ne.symm hk), Fields.has]
      simp [hsame, h.has, hk]

/-- A table made of updates tells of them. -/
theorem tellsOf_ofList (us : List Update) : (ofList us).TellsOf us := by
  have hrun : ∀ (us vs : List Update) (t : Table), t.TellsOf vs →
      (us.foldl Table.add t).TellsOf (vs ++ us) := by
    intro us
    induction us with
    | nil => simp
    | cons u us ih =>
      intro vs t h
      rw [List.foldl_cons, ← List.singleton_append, ← List.append_assoc]
      exact ih (vs ++ [u]) (t.add u) (h.add u)
  exact hrun us [] [] tellsOf_nil

end Table
end Switchboard.Telemetry
