import Switchboard.Execution.Strategy

/-! The order in which mappings are tried. -/
namespace Switchboard

/-- `plan` has the mappings `ms`, primary ones before fallbacks and each part by priority. Mappings
that are told apart by neither keep their order. -/
structure IsPriorityPlan (ms plan : List Mapping) : Prop where
  perm : plan.Perm ms
  ordered : plan.Pairwise fun m n =>
    m.isFallback = false ∧ n.isFallback = true ∨
      m.isFallback = n.isFallback ∧ m.priority ≤ n.priority
  stable : ∀ (b : Bool) (p : Int),
    plan.filter (fun m => m.isFallback == b && m.priority == p) =
      ms.filter (fun m => m.isFallback == b && m.priority == p)

theorem byPriority_perm (ms : List Mapping) : (byPriority ms).Perm ms := List.mergeSort_perm _ _

theorem priority_trans (m n o : Mapping) (h : decide (m.priority ≤ n.priority) = true)
    (h' : decide (n.priority ≤ o.priority) = true) : decide (m.priority ≤ o.priority) = true := by
  simp only [decide_eq_true_eq] at h h' ⊢
  omega

theorem priority_total (m n : Mapping) :
    (decide (m.priority ≤ n.priority) || decide (n.priority ≤ m.priority)) = true := by
  simp only [Bool.or_eq_true, decide_eq_true_eq]
  omega

theorem byPriority_pairwise (ms : List Mapping) :
    (byPriority ms).Pairwise fun m n => m.priority ≤ n.priority := by
  have h := List.pairwise_mergeSort priority_trans priority_total ms
  exact h.imp of_decide_eq_true

/-- Mappings of one priority stay in their order, whatever else is asked of them. -/
theorem filter_byPriority (ms : List Mapping) (q : Mapping → Bool) (p : Int) :
    (byPriority ms).filter (fun m => q m && m.priority == p) =
      ms.filter (fun m => q m && m.priority == p) := by
  have hsorted : (ms.filter fun m => q m && m.priority == p).Pairwise
      fun m n => decide (m.priority ≤ n.priority) = true := by
    refine List.Pairwise.imp_of_mem ?_ (List.pairwise_of_forall fun _ _ => trivial)
    intro m n hm hn _
    have hm := (List.mem_filter.mp hm).2
    have hn := (List.mem_filter.mp hn).2
    simp only [Bool.and_eq_true, beq_iff_eq] at hm hn
    simp [hm.2, hn.2]
  have hsub : (ms.filter fun m => q m && m.priority == p).Sublist (byPriority ms) :=
    List.sublist_mergeSort priority_trans priority_total hsorted List.filter_sublist
  have hsub' := hsub.filter fun m => q m && m.priority == p
  rw [List.filter_filter] at hsub'
  simp only [Bool.and_self] at hsub'
  refine (hsub'.eq_of_length ?_).symm
  exact ((byPriority_perm ms).filter _).length_eq.symm

/-- The priority plan is one. -/
theorem isPriorityPlan_priorityPlan (ms : List Mapping) : IsPriorityPlan ms (priorityPlan ms) where
  perm := by
    have h : ((ms.filter fun m => !m.isFallback) ++ ms.filter (·.isFallback)).Perm ms := by
      have hsplit := List.filter_append_perm (fun m : Mapping => !m.isFallback) ms
      simpa using hsplit
    exact ((byPriority_perm _).append (byPriority_perm _)).trans h
  ordered := by
    have hprimary : ∀ m ∈ byPriority (ms.filter fun m => !m.isFallback), m.isFallback = false := by
      intro m hm
      have hm := (List.mem_filter.mp ((byPriority_perm _).mem_iff.mp hm)).2
      simpa using hm
    have hfallback : ∀ m ∈ byPriority (ms.filter (·.isFallback)), m.isFallback = true := by
      intro m hm
      exact (List.mem_filter.mp ((byPriority_perm _).mem_iff.mp hm)).2
    refine List.pairwise_append.mpr ⟨?_, ?_, ?_⟩
    · refine (byPriority_pairwise _).imp_of_mem fun hm hn hle => .inr ⟨?_, hle⟩
      rw [hprimary _ hm, hprimary _ hn]
    · refine (byPriority_pairwise _).imp_of_mem fun hm hn hle => .inr ⟨?_, hle⟩
      rw [hfallback _ hm, hfallback _ hn]
    · exact fun m hm n hn => .inl ⟨hprimary m hm, hfallback n hn⟩
  stable := by
    intro b p
    unfold priorityPlan
    rw [List.filter_append, filter_byPriority, filter_byPriority]
    simp only [List.filter_filter]
    cases b with
    | false =>
      have hnone : (ms.filter fun m => m.isFallback == false && m.priority == p && m.isFallback) =
          [] := by
        rw [List.filter_eq_nil_iff]
        intro m _
        cases m.isFallback <;> simp
      rw [hnone, List.append_nil]
      congr 1
      funext m
      cases m.isFallback <;> simp
    | true =>
      have hnone : (ms.filter fun m => m.isFallback == true && m.priority == p && !m.isFallback) =
          [] := by
        rw [List.filter_eq_nil_iff]
        intro m _
        cases m.isFallback <;> simp
      rw [hnone, List.nil_append]
      congr 1
      funext m
      cases m.isFallback <;> simp

/-- The order in which a route that tries one mapping after the other does so. -/
def Route.plan (route : Route) : List Mapping :=
  match route.strategy with
  | .priorityOrder => priorityPlan route.mappings
  | _ => route.mappings

/-- Nothing stands before a fallback in a plan but what has to, and every primary mapping does. -/
theorem IsPriorityPlan.mem_before {ms before after : List Mapping} {m n : Mapping}
    (h : IsPriorityPlan ms (before ++ m :: after)) (hm : m.isFallback = true) (hn : n ∈ ms)
    (hp : n.isFallback = false) : n ∈ before := by
  rcases List.mem_append.mp (h.perm.mem_iff.mpr hn) with hn | hn
  · exact hn
  · rcases List.mem_cons.mp hn with rfl | hn
    · rw [hm] at hp
      cases hp
    · have hlater := (List.pairwise_cons.mp (List.pairwise_append.mp h.ordered).2.1).1 n hn
      rcases hlater with ⟨hm', -⟩ | ⟨heq, -⟩
      · rw [hm] at hm'
        cases hm'
      · rw [hm, hp] at heq
        cases heq

end Switchboard
