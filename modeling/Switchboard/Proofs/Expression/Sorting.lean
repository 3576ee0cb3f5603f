import Switchboard.Proofs.Expression.Ordering

/-! Arrays are sorted stably. The order of the keys and the order of items of equal keys leave
nothing open, so that the result does not depend on how it is sorted. -/
namespace Switchboard.Expression

theorem mergeSort_congr {α : Type} {r s : α → α → Bool} {l : List α}
    (h : ∀ a ∈ l, ∀ b ∈ l, r a b = s a b) : l.mergeSort r = l.mergeSort s := by
  have hmap := List.map_mergeSort (f := id) h
  rwa [List.map_id, List.map_id] at hmap

section
variable {α β : Type} [LinearOrder β] (p : α → β)

theorem key_trans (a b c : α) (hab : decide (p a ≤ p b) = true) (hbc : decide (p b ≤ p c) = true) :
    decide (p a ≤ p c) = true :=
  decide_eq_true ((of_decide_eq_true hab).trans (of_decide_eq_true hbc))

theorem key_total (a b : α) : (decide (p a ≤ p b) || decide (p b ≤ p a)) = true := by
  rw [Bool.or_eq_true, decide_eq_true_eq, decide_eq_true_eq]
  exact le_total _ _

theorem pairwise_mergeSort_key (l : List α) :
    (l.mergeSort fun a b => decide (p a ≤ p b)).Pairwise fun a b => p a ≤ p b :=
  (List.pairwise_mergeSort (key_trans p) (key_total p) l).imp of_decide_eq_true

theorem filter_mergeSort_key (l : List α) (c : β) :
    (l.mergeSort fun a b => decide (p a ≤ p b)).filter (fun a => decide (p a = c)) =
      l.filter fun a => decide (p a = c) := by
  have hsame : (l.filter fun a => decide (p a = c)).Pairwise
      fun a b => decide (p a ≤ p b) = true := by
    refine List.Pairwise.imp_of_mem ?_ (List.pairwise_of_forall fun _ _ => trivial)
    intro a b ha hb _
    have ha := of_decide_eq_true (List.mem_filter.mp ha).2
    have hb := of_decide_eq_true (List.mem_filter.mp hb).2
    exact decide_eq_true (ha.trans hb.symm).le
  have hsub := List.sublist_mergeSort (key_trans p) (key_total p) hsame List.filter_sublist
  have hsub := hsub.filter fun a => decide (p a = c)
  rw [List.filter_filter] at hsub
  simp only [Bool.and_self] at hsub
  refine (hsub.eq_of_length ?_).symm
  exact ((List.mergeSort_perm l _).filter _).length_eq.symm

theorem mem_of_filter_eq {l m : List α} {a : α}
    (h : l.filter (fun b => decide (p b = p a)) = m.filter fun b => decide (p b = p a))
    (ha : a ∈ l) : a ∈ m := by
  have hmem : a ∈ l.filter fun b => decide (p b = p a) :=
    List.mem_filter.mpr ⟨ha, decide_eq_true rfl⟩
  rw [h] at hmem
  exact (List.mem_filter.mp hmem).1

/-- Two lists in the order of a key are equal if they have the same items of each key, in the same
order. -/
theorem eq_of_filter_key {l m : List α} (hl : l.Pairwise fun a b => p a ≤ p b)
    (hm : m.Pairwise fun a b => p a ≤ p b)
    (h : ∀ c, l.filter (fun a => decide (p a = c)) = m.filter fun a => decide (p a = c)) :
    l = m := by
  induction l generalizing m with
  | nil =>
    cases m with
    | nil => rfl
    | cons b m => cases mem_of_filter_eq p (h (p b)).symm (.head m)
  | cons a l ih =>
    cases m with
    | nil => cases mem_of_filter_eq p (h (p a)) (.head l)
    | cons b m =>
      obtain ⟨hal, hltail⟩ := List.pairwise_cons.mp hl
      obtain ⟨hbm, hmtail⟩ := List.pairwise_cons.mp hm
      -- Each of the first items is in the other list too, and its key is a least one there.
      have hle : p a ≤ p b := by
        rcases List.mem_cons.mp (mem_of_filter_eq p (h (p b)).symm (.head m)) with rfl | hb
        · exact le_rfl
        · exact hal b hb
      have hge : p b ≤ p a := by
        rcases List.mem_cons.mp (mem_of_filter_eq p (h (p a)) (.head l)) with rfl | ha
        · exact le_rfl
        · exact hbm a ha
      obtain rfl : a = b := by
        have hfirst := h (p a)
        rw [List.filter_cons, if_pos (decide_eq_true rfl), List.filter_cons,
          if_pos (decide_eq_true (hge.antisymm hle))] at hfirst
        exact (List.cons.inj hfirst).1
      refine congrArg _ (ih hltail hmtail fun c => ?_)
      have hc := h c
      rw [List.filter_cons, List.filter_cons] at hc
      split at hc
      · exact (List.cons.inj hc).2
      · exact hc

end

/-- The items in the order of their keys; items whose keys are equal in that order stay as they
were. -/
structure IsStableSort (key : Json → Option Json) (items sorted : List Json) : Prop where
  perm : sorted.Perm items
  ordered : sorted.Pairwise fun a b => order (key a) (key b) ≠ .gt
  stable : ∀ item ∈ items,
    (sorted.filter fun other => order (key other) (key item) == .eq) =
      items.filter fun other => order (key other) (key item) == .eq

/-- Sorted with the keys at hand. -/
def sortBy (key : Json → Option Json) (items : List Json) : List Json :=
  items.mergeSort fun a b => order (key a) (key b) != .gt

theorem map_sortKeyed (key : Json → Option Json) (items : List Json) :
    (sortKeyed (items.map fun item => (key item, item))).map Prod.snd = sortBy key items := by
  have hmap := List.map_mergeSort (r := fun a b => order a.1 b.1 != .gt)
    (s := fun a b => order (key a) (key b) != .gt) (f := Prod.snd)
    (l := items.map fun item => (key item, item)) ?_
  · rwa [List.map_map, Function.comp_def, List.map_id'] at hmap
  · intro a ha b hb
    obtain ⟨_, -, rfl⟩ := List.mem_map.mp ha
    obtain ⟨_, -, rfl⟩ := List.mem_map.mp hb
    rfl

section
variable {key : Json → Option Json} {items : List Json}
  (h : ∀ item ∈ items, AllFinite (key item))
include h

theorem sortBy_eq :
    sortBy key items = items.mergeSort fun a b => decide (place (key a) ≤ place (key b)) := by
  refine mergeSort_congr fun a ha b hb => ?_
  rw [Bool.eq_iff_iff, bne_iff_ne, decide_eq_true_eq]
  exact order_ne_gt_iff (h a ha) (h b hb)

/-- What is equal in the order is what has the same place. -/
theorem filter_order_eq {l : List Json} (hl : ∀ item ∈ l, AllFinite (key item)) {item : Json}
    (hitem : item ∈ items) :
    (l.filter fun other => order (key other) (key item) == .eq) =
      l.filter fun other => decide (place (key other) = place (key item)) := by
  refine List.filter_congr fun other hother => ?_
  rw [Bool.eq_iff_iff, beq_iff_eq, decide_eq_true_eq]
  exact order_eq_eq_iff (hl other hother) (h item hitem)

theorem isStableSort_sortBy : IsStableSort key items (sortBy key items) where
  perm := List.mergeSort_perm items _
  ordered := by
    have hsorted := pairwise_mergeSort_key (fun item => place (key item)) items
    rw [sortBy_eq h]
    refine hsorted.imp_of_mem fun ha hb hle => ?_
    have ha := h _ (List.mem_mergeSort.mp ha)
    have hb := h _ (List.mem_mergeSort.mp hb)
    exact (order_ne_gt_iff ha hb).mpr hle
  stable := by
    intro item hitem
    have hsorted : ∀ other ∈ sortBy key items, AllFinite (key other) :=
      fun other hother => h other (List.mem_mergeSort.mp hother)
    rw [filter_order_eq h h hitem, filter_order_eq h hsorted hitem, sortBy_eq h]
    exact filter_mergeSort_key (fun item => place (key item)) items _

theorem IsStableSort.pairwise_place {l : List Json} (hl : IsStableSort key items l) :
    l.Pairwise fun a b => place (key a) ≤ place (key b) :=
  hl.ordered.imp_of_mem fun ha hb hle =>
    (order_ne_gt_iff (h _ (hl.perm.mem_iff.mp ha)) (h _ (hl.perm.mem_iff.mp hb))).mp hle

theorem IsStableSort.filter_place {l : List Json} (hl : IsStableSort key items l) (c) :
    (l.filter fun item => decide (place (key item) = c)) =
      items.filter fun item => decide (place (key item) = c) := by
  by_cases hc : ∃ item ∈ items, place (key item) = c
  · obtain ⟨item, hitem, rfl⟩ := hc
    have hmem : ∀ other ∈ l, AllFinite (key other) :=
      fun other hother => h other (hl.perm.mem_iff.mp hother)
    rw [← filter_order_eq h hmem hitem, ← filter_order_eq h h hitem]
    exact hl.stable item hitem
  · rw [List.filter_eq_nil_iff.mpr, List.filter_eq_nil_iff.mpr]
    · exact fun item hitem hkey => hc ⟨item, hitem, of_decide_eq_true hkey⟩
    · exact fun item hitem hkey =>
        hc ⟨item, hl.perm.mem_iff.mp hitem, of_decide_eq_true hkey⟩

/-- There is one stable sort. -/
theorem IsStableSort.eq_sortBy {sorted : List Json} (hs : IsStableSort key items sorted) :
    sorted = sortBy key items := by
  have hsortBy := isStableSort_sortBy h
  exact eq_of_filter_key _ (hs.pairwise_place h) (hsortBy.pairwise_place h) fun c =>
    (hs.filter_place h c).trans (hsortBy.filter_place h c).symm

/-- What is sorted stays as it is. -/
theorem sortBy_sortBy : sortBy key (sortBy key items) = sortBy key items := by
  refine List.mergeSort_of_pairwise ?_
  exact (isStableSort_sortBy h).ordered.imp bne_iff_ne.mpr

end

/-- A call of `sort`, with or without a lambda. -/
def Expr.sorted (target : Expr) : Option (String × Expr) → Expr
  | none => .call target .sort
  | some (param, body) => .visit target .sort param body

/-- The key of an item: what the lambda gives for it, the item itself without a lambda. -/
def keyOf (root : Json) (lambda : Option (String × Expr)) (item : Json) : Outcome :=
  match lambda with
  | none => .ok (some item)
  | some (param, body) => eval root (some (param, item)) body

theorem keyOf_allFinite {root : Json} (hroot : root.IsFinite) {lambda : Option (String × Expr)}
    (hlambda : ∀ l ∈ lambda, l.2.IsFinite) {item : Json} (hitem : item.IsFinite) :
    Yields AllFinite (keyOf root lambda item) := by
  cases lambda with
  | none => exact .ok (.some hitem)
  | some lambda =>
    refine eval_allFinite hroot (hlambda lambda rfl) ?_
    rintro _ ⟨⟩
    exact hitem

theorem keyed_of_ok {f : Json → Outcome} {key : Json → Option Json} {items : List Json}
    (h : ∀ item ∈ items, f item = .ok (key item)) :
    keyed f items = .ok (items.map fun item => (key item, item)) := by
  induction items with
  | nil => rfl
  | cons item items ih =>
    obtain ⟨hitem, hitems⟩ := List.forall_mem_cons.mp h
    rw [keyed, hitem, ih hitems]
    rfl

/-- The first item without a key decides. -/
theorem keyed_of_error {f : Json → Outcome} {before after : List Json} {item : Json} {e : EvalError}
    (hbefore : ∀ item ∈ before, ∃ key, f item = .ok key) (he : f item = .error e) :
    keyed f (before ++ item :: after) = .error e := by
  induction before with
  | nil => rw [List.nil_append, keyed, he]
  | cons first before ih =>
    obtain ⟨⟨key, hkey⟩, hbefore⟩ := List.forall_mem_cons.mp hbefore
    rw [List.cons_append, keyed, hkey, ih hbefore]

section
variable {root : Json} {bound : Option (String × Json)} {target : Expr}
  {lambda : Option (String × Expr)} {items : List Json}
  (ht : eval root bound target = .ok (some (.arr items)))
include ht

theorem eval_sorted {key : Json → Option Json}
    (hkey : ∀ item ∈ items, keyOf root lambda item = .ok (key item)) :
    eval root bound (target.sorted lambda) = .ok (some (.arr (sortBy key items))) := by
  cases lambda with
  | none =>
    have hself (item : Json) (hitem : item ∈ items) : some item = key item :=
      Except.ok.inj (hkey item hitem)
    have hsort : (items.mergeSort fun a b => order (some a) (some b) != .gt) = sortBy key items :=
      mergeSort_congr fun a ha b hb => by rw [hself a ha, hself b hb]
    rw [Expr.sorted, eval, ht, ← hsort]
    rfl
  | some lambda =>
    obtain ⟨param, body⟩ := lambda
    rw [Expr.sorted, eval, ht]
    show (keyed (keyOf root (some (param, body))) items).map _ = _
    rw [keyed_of_ok hkey, Except.map_ok, ← map_sortKeyed]

theorem eval_sorted_error {before after : List Json} {item : Json} {e : EvalError}
    (hitems : items = before ++ item :: after)
    (hbefore : ∀ item ∈ before, ∃ key, keyOf root lambda item = .ok key)
    (he : keyOf root lambda item = .error e) :
    eval root bound (target.sorted lambda) = .error e := by
  cases lambda with
  | none => cases he
  | some lambda =>
    obtain ⟨param, body⟩ := lambda
    rw [Expr.sorted, eval, ht]
    show (keyed (keyOf root (some (param, body))) items).map _ = _
    rw [hitems, keyed_of_error hbefore he, Except.map_error]

end

/-- Finite numbers given, `order` is a total preorder of all values and of undefined, and `sort`
gives the one stable sort by it, which a further `sort` leaves as it is. Where some item has no key,
the first such item decides on the error. -/
theorem sort_isStable :
    (∀ a b c, AllFinite a → AllFinite b → AllFinite c →
      order a a = .eq ∧ (order a b ≠ .gt ∨ order b a ≠ .gt) ∧
        (order a b ≠ .gt → order b c ≠ .gt → order a c ≠ .gt)) ∧
    ∀ (root : Json) (bound : Option (String × Json)) (target : Expr)
      (lambda : Option (String × Expr)) (items : List Json),
      root.IsFinite → (∀ b ∈ bound, b.2.IsFinite) → target.IsFinite →
      (∀ l ∈ lambda, l.2.IsFinite) → eval root bound target = .ok (some (.arr items)) →
      (∀ key : Json → Option Json, (∀ item ∈ items, keyOf root lambda item = .ok (key item)) →
        ∃ sorted, eval root bound (target.sorted lambda) = .ok (some (.arr sorted)) ∧
          IsStableSort key items sorted ∧ (∀ l, IsStableSort key items l → l = sorted) ∧
          eval root bound ((target.sorted lambda).sorted lambda) = .ok (some (.arr sorted))) ∧
      ∀ before item after e, items = before ++ item :: after →
        (∀ item ∈ before, ∃ key, keyOf root lambda item = .ok key) →
        keyOf root lambda item = .error e →
        eval root bound (target.sorted lambda) = .error e := by
  refine ⟨fun a b c ha hb hc => ⟨order_self ha, order_total ha hb, order_trans ha hb hc⟩, ?_⟩
  intro root bound target lambda items hroot hbound htarget hlambda ht
  refine ⟨fun key hkey => ?_, fun before item after e hitems hbefore he => ?_⟩
  · have hitems := (eval_allFinite hroot htarget hbound _ ht _ rfl).items
    have hkeys : ∀ item ∈ items, AllFinite (key item) := fun item hitem =>
      keyOf_allFinite hroot hlambda (hitems item hitem) _ (hkey item hitem)
    have hsorted := eval_sorted ht hkey
    refine ⟨sortBy key items, hsorted, isStableSort_sortBy hkeys, ?_, ?_⟩
    · exact fun l hl => hl.eq_sortBy hkeys
    · rw [eval_sorted hsorted fun item hitem => hkey item (List.mem_mergeSort.mp hitem),
        sortBy_sortBy hkeys]
  · exact eval_sorted_error ht hitems hbefore he

namespace Sample

def rows : List Json :=
  [.obj [("k", .str "x")], .obj [], .obj [("k", .ofNat 2)], .obj [("k", .ofNat 2), ("n", .null)]]

def rowKey : Expr := .property (.var "v") "k"

def sortedRows : List Json :=
  [.obj [("k", .ofNat 2)], .obj [("k", .ofNat 2), ("n", .null)], .obj [("k", .str "x")], .obj []]

theorem isStableSort_sortedRows :
    IsStableSort (fun row => property? row "k") rows sortedRows where
  perm := List.rotate_perm rows 2
  ordered := by decide +kernel
  stable := by
    intro item hitem
    simp only [rows, List.mem_cons, List.not_mem_nil, or_false] at hitem
    rcases hitem with rfl | rfl | rfl | rfl
    · rfl
    · rfl
    · rfl
    · rfl

theorem isFinite_rows : (Json.arr rows).IsFinite := by
  refine .arr fun row hrow => ?_
  simp only [rows, List.mem_cons, List.not_mem_nil, or_false] at hrow
  rcases hrow with rfl | rfl | rfl | rfl
  · exact .obj (by simp [Json.IsFinite.str])
  · exact .obj (by simp)
  · exact .obj (by simp [Json.IsFinite.ofNat])
  · exact .obj (by simp [Json.IsFinite.ofNat, Json.IsFinite.null])

end Sample

open Sample in
theorem sort_isStable_rows :
    (Json.arr rows).IsFinite ∧ Expr.root.IsFinite ∧ rowKey.IsFinite ∧
      eval (.arr rows) none .root = .ok (some (.arr rows)) ∧
      (∀ row ∈ rows, keyOf (.arr rows) (some ("v", rowKey)) row = .ok (property? row "k")) ∧
      eval (.arr rows) none (Expr.root.sorted (some ("v", rowKey))) =
        .ok (some (.arr sortedRows)) ∧
      eval (.arr rows) none (Expr.root.sorted (some ("v", .call rowKey .length))) =
        .error (.typeMismatch "length" "number") ∧
      order (some (.ofNat 2)) none ≠ .gt := by
  have hroot : Expr.root.IsFinite := .intro nofun nofun
  have hvar : (Expr.var "v").IsFinite := .intro nofun nofun
  have hkey : rowKey.IsFinite := .intro nofun (List.forall_mem_singleton.mpr hvar)
  have hlength : (Expr.call rowKey .length).IsFinite :=
    .intro nofun (List.forall_mem_singleton.mpr hkey)
  have hkeys : ∀ row ∈ rows, keyOf (.arr rows) (some ("v", rowKey)) row = .ok (property? row "k") :=
    fun _ _ => rfl
  refine ⟨isFinite_rows, hroot, hkey, rfl, hkeys, ?_, ?_, ?_⟩
  · have hsort := sort_isStable.2 (.arr rows) none .root (some ("v", rowKey)) rows isFinite_rows
      nofun hroot (by rintro _ ⟨⟩; exact hkey) rfl
    obtain ⟨sorted, hsorted, -, hunique, -⟩ := hsort.1 _ hkeys
    rw [hsorted, hunique _ isStableSort_sortedRows]
  · refine (sort_isStable.2 (.arr rows) none .root (some ("v", .call rowKey .length)) rows
      isFinite_rows nofun hroot (by rintro _ ⟨⟩; exact hlength) rfl).2 (rows.take 2) rows[2]
      (rows.drop 3) _ rfl ?_ rfl
    intro row hrow
    simp only [rows, List.take_succ_cons, List.take_zero, List.mem_cons, List.not_mem_nil,
      or_false] at hrow
    rcases hrow with rfl | rfl
    · exact ⟨some (.ofNat 1), rfl⟩
    · exact ⟨none, rfl⟩
  · have hlaws := sort_isStable.1 (some (.ofNat 2)) (some (.str "x")) none (.some (.ofNat 2))
      (.some (.str "x")) .none
    exact hlaws.2.2 (by decide) (by decide)

end Switchboard.Expression
