import Switchboard.Expression.Cache

/-! Calls on an evaluator that keeps parsed expressions. Each is answered as if nothing were kept,
and never more than the capacity is kept. -/
namespace Switchboard.Expression

namespace Cache
variable {c : Cache} {s : String} {e : Expr}

/-- Every tree is that of its text. -/
def Sound (c : Cache) : Prop := ∀ s e, (s, e) ∈ c.entries → parse s = .ok e

theorem sound_empty (capacity : Nat) : (empty capacity).Sound := by
  intro s e h
  cases h

theorem mem_of_get? (h : c.get? s = some e) : (s, e) ∈ c.entries := by
  unfold get? at h
  obtain ⟨before, after, hentries, -⟩ := List.lookup_eq_some_iff.mp h
  rw [hentries]
  exact List.mem_append_right before List.mem_cons_self

theorem Sound.insert (hc : c.Sound) (he : parse s = .ok e) : (c.insert s e).Sound := by
  intro t f h
  unfold Cache.insert at h
  split at h
  · exact hc t f h
  · split at h
    · cases List.mem_singleton.mp h
      exact he
    · rcases List.mem_cons.mp h with h | h
      · cases h
        exact he
      · exact hc t f h

/-- A sound cache gives what parsing gives, and stays sound. -/
theorem Sound.compile (hc : c.Sound) (s : String) :
    (c.compile s).1 = parse s ∧ (c.compile s).2.Sound := by
  unfold Cache.compile
  cases hget : c.get? s with
  | some e => exact ⟨(hc s e (mem_of_get? hget)).symm, hc⟩
  | none =>
    cases hparse : parse s with
    | ok e => exact ⟨rfl, hc.insert hparse⟩
    | error e => exact ⟨rfl, hc⟩

theorem Sound.evaluate (hc : c.Sound) (s : String) (v : Json) :
    (c.evaluate s v).1 = Expression.evaluate s v ∧ (c.evaluate s v).2.Sound := by
  obtain ⟨hfst, hsnd⟩ := hc.compile s
  unfold Cache.evaluate Expression.evaluate
  rcases hcompile : c.compile s with ⟨_ | e, d⟩
  · rw [hcompile] at hfst hsnd
    rw [← hfst]
    exact ⟨rfl, hsnd⟩
  · rw [hcompile] at hfst hsnd
    rw [← hfst]
    exact ⟨rfl, hsnd⟩

/-- No more than the capacity is kept, each text once and with its tree. -/
structure Kept (n : Nat) (c : Cache) : Prop where
  capacity_eq : c.capacity = n
  sound : c.Sound
  size_le : c.size ≤ n
  distinct : (c.entries.map (·.1)).Nodup

theorem kept_empty (n : Nat) : Kept n (empty n) where
  capacity_eq := rfl
  sound := sound_empty n
  size_le := Nat.zero_le n
  distinct := List.nodup_nil

theorem not_mem_of_get?_eq_none (h : c.get? s = none) : s ∉ c.entries.map (·.1) := by
  intro hs
  obtain ⟨p, hp, rfl⟩ := List.mem_map.mp hs
  have := List.lookup_eq_none_iff.mp h p hp
  simp at this

theorem get?_insert_self (h : c.capacity ≠ 0) : (c.insert s e).get? s = some e := by
  unfold insert get?
  rw [if_neg h]
  split <;> simp

theorem Kept.insert {n : Nat} (hc : Kept n c) (hs : c.get? s = none) (he : parse s = .ok e) :
    Kept n (c.insert s e) := by
  refine ⟨?_, hc.sound.insert he, ?_, ?_⟩
  · have := hc.capacity_eq
    unfold Cache.insert
    split
    · exact this
    · split <;> exact this
  · have hcap := hc.capacity_eq
    have hsize := hc.size_le
    unfold size at hsize ⊢
    unfold Cache.insert
    split
    · exact hsize
    · split
      · simp only [List.length_singleton]
        omega
      · simp only [List.length_cons]
        omega
  · unfold Cache.insert
    split
    · exact hc.distinct
    · split
      · simp
      · exact List.nodup_cons.mpr ⟨not_mem_of_get?_eq_none hs, hc.distinct⟩

/-- A text is found, or it is parsed and its tree kept, or it is refused. -/
theorem compile_cases (c : Cache) (s : String) :
    (∃ e, c.get? s = some e ∧ (c.compile s).2 = c) ∨
      (∃ e, c.get? s = none ∧ parse s = .ok e ∧ (c.compile s).2 = c.insert s e) ∨
      ∃ x, c.get? s = none ∧ parse s = .error x ∧ (c.compile s).2 = c := by
  unfold compile
  cases hget : c.get? s with
  | some e => exact .inl ⟨e, rfl, rfl⟩
  | none =>
    cases hparse : parse s with
    | ok e => exact .inr (.inl ⟨e, rfl, rfl, rfl⟩)
    | error x => exact .inr (.inr ⟨x, rfl, rfl, rfl⟩)

theorem Kept.compile {n : Nat} (hc : Kept n c) (s : String) : Kept n (c.compile s).2 := by
  obtain ⟨e, -, h⟩ | ⟨e, hs, he, h⟩ | ⟨x, -, -, h⟩ := c.compile_cases s
  · rwa [h]
  · rw [h]
    exact hc.insert hs he
  · rwa [h]

/-- What has just been parsed is there. -/
theorem Kept.get?_compile {n : Nat} (hc : Kept n c) (hn : 0 < n) (he : parse s = .ok e) :
    (c.compile s).2.get? s = some e := by
  obtain ⟨f, hf, h⟩ | ⟨f, -, hf, h⟩ | ⟨x, -, hx, -⟩ := c.compile_cases s
  · have := hc.sound s f (mem_of_get? hf)
    rw [he] at this
    cases this
    rwa [h]
  · rw [he] at hf
    cases hf
    have hcap := hc.capacity_eq
    rw [h, get?_insert_self (by omega)]
  · rw [he] at hx
    cases hx

/-- What is not an expression is not there. -/
theorem Kept.get?_eq_none {n : Nat} (hc : Kept n c) {x : ParseError} (hx : parse s = .error x) :
    c.get? s = none := by
  cases hget : c.get? s with
  | none => rfl
  | some e =>
    have := hc.sound s e (mem_of_get? hget)
    rw [hx] at this
    cases this

theorem evaluate_snd (c : Cache) (s : String) (v : Json) :
    (c.evaluate s v).2 = (c.compile s).2 := by
  unfold evaluate
  rcases c.compile s with ⟨_ | e, d⟩ <;> rfl

/-- A call on an evaluator. -/
inductive Call where
  | compile (s : String)
  | evaluate (s : String) (v : Json)

inductive Reply where
  | tree (r : Except ParseError Expr)
  | value (r : Except Error (Option Json))

namespace Call

def text : Call → String
  | compile s => s
  | evaluate s _ => s

/-- The reply of an evaluator that keeps nothing. -/
def plain : Call → Reply
  | compile s => .tree (parse s)
  | evaluate s v => .value (Expression.evaluate s v)

def run (c : Cache) : Call → Reply × Cache
  | compile s => (.tree (c.compile s).1, (c.compile s).2)
  | evaluate s v => (.value (c.evaluate s v).1, (c.evaluate s v).2)

theorem run_fst (hc : c.Sound) (call : Call) : (call.run c).1 = call.plain := by
  cases call with
  | compile s => exact congrArg Reply.tree (hc.compile s).1
  | evaluate s v => exact congrArg Reply.value (hc.evaluate s v).1

theorem run_snd (c : Cache) (call : Call) : (call.run c).2 = (c.compile call.text).2 := by
  cases call with
  | compile s => rfl
  | evaluate s v => exact c.evaluate_snd s v

end Call

/-- The replies to calls one after the other, and the cache after them. -/
def runAll (c : Cache) : List Call → List Reply × Cache
  | [] => ([], c)
  | call :: calls =>
    let (r, d) := call.run c
    let (rs, last) := runAll d calls
    (r :: rs, last)

theorem runAll_concat (c : Cache) (calls : List Call) (call : Call) :
    (runAll c (calls ++ [call])).2 = (call.run (runAll c calls).2).2 := by
  induction calls generalizing c with
  | nil => rfl
  | cons first calls ih => exact ih _

theorem Kept.runAll {n : Nat} (hc : c.Kept n) (calls : List Call) :
    (runAll c calls).1 = calls.map Call.plain ∧ (runAll c calls).2.Kept n := by
  induction calls generalizing c with
  | nil => exact ⟨rfl, hc⟩
  | cons call calls ih =>
    have hnext : (call.run c).2.Kept n := by
      rw [call.run_snd]
      exact hc.compile call.text
    obtain ⟨hreplies, hkept⟩ := ih hnext
    refine ⟨?_, hkept⟩
    rw [Cache.runAll, List.map_cons, ← hreplies, ← call.run_fst hc.sound]

/-- Whatever has been called before, a call is answered as by an evaluator that keeps nothing. After
it no more than the capacity is kept, each text with its own tree and no text without one; and
unless the capacity is zero, the text of the call is kept if it has a tree. -/
theorem runAll_plain (capacity : Nat) (calls : List Call) (call : Call) :
    (runAll (empty capacity) (calls ++ [call])).1 = (calls ++ [call]).map Call.plain ∧
      (runAll (empty capacity) (calls ++ [call])).2.Kept capacity ∧
      (∀ s x, parse s = .error x →
        (runAll (empty capacity) (calls ++ [call])).2.get? s = none) ∧
      (0 < capacity → ∀ e, parse call.text = .ok e →
        (runAll (empty capacity) (calls ++ [call])).2.get? call.text = some e) := by
  obtain ⟨hreplies, hkept⟩ := (kept_empty capacity).runAll (calls ++ [call])
  refine ⟨hreplies, hkept, fun s x => hkept.get?_eq_none, fun hpos e he => ?_⟩
  rw [runAll_concat, call.run_snd]
  exact ((kept_empty capacity).runAll calls).2.get?_compile hpos he

theorem runAll_plain_root :
    parse "$" = .ok .root ∧
      (runAll (empty 1) ([.compile "."] ++ [.evaluate "$" .null])).2.get? "$" = some .root := by
  have hroot : parse "$" = .ok .root := by
    simp [parse, tokenize, scanToken, punctuation?, Text.isWhite, Text.inRanges,
      Text.whiteRanges, parseTokens, parseExpr, parseOr, parseOrTail, parseAnd, parseAndTail,
      parseComparison, comparison?, parseUnary, parsePostfix, parsePrimary, parseLinks, maxDepth]
  exact ⟨hroot, (runAll_plain 1 [.compile "."] (.evaluate "$" .null)).2.2.2 (by decide) _ hroot⟩

end Cache

end Switchboard.Expression
