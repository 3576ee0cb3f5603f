import Switchboard.Expression.Eval
import Switchboard.Path
import Switchboard.Proofs.Expression.Printing
import Switchboard.Proofs.Json.Places
import Switchboard.Proofs.Path.Spelling

/-! Names behind points, read as an expression and read as a path. Both ways lead from object to
object, and to nothing where there is no such member. -/
namespace Switchboard

/-- Each name behind a point. -/
def dots (names : List String) : List Char := names.flatMap fun name => '.' :: name.toList

/-- The root and each name behind a point. -/
def dotted (names : List String) : List Char := '$' :: dots names

theorem dots_cons (name : String) (names : List String) :
    dots (name :: names) = '.' :: (name.toList ++ dots names) := rfl

namespace Expression
variable {names : List String}

theorem continuesName_of_startsName {c : Char} (h : startsName c = true) :
    continuesName c = true := by
  have h : Text.isLetter c = true ∨ c = '_' := by simpa [startsName] using h
  rcases h with h | rfl
  · simp [continuesName, h]
  · simp [continuesName]

theorem exists_cons_of_isName {name : String} (h : isName name = true) :
    ∃ c cs, name.toList = c :: cs ∧ startsName c = true := by
  unfold isName at h
  split at h
  · cases h
  · rename_i c cs hcs
    exact ⟨c, cs, hcs, (Bool.and_eq_true_iff.mp h).1⟩

theorem continuesName_of_mem {name : String} (h : isName name = true) {c : Char}
    (hc : c ∈ name.toList) : continuesName c = true := by
  unfold isName at h
  split at h
  · cases h
  · rename_i d cs hcs
    obtain ⟨hd, hall⟩ := Bool.and_eq_true_iff.mp h
    rw [hcs] at hc
    rcases List.mem_cons.mp hc with rfl | hc
    · exact continuesName_of_startsName hd
    · exact List.all_eq_true.mp hall c hc

theorem isWhite_of_continuesName {c : Char} (h : continuesName c = true) :
    Text.isWhite c = false := by
  refine Bool.eq_false_iff.mpr fun hw => ?_
  rw [continuesName_of_isWhite hw] at h
  cases h

theorem isMark_of_continuesName {c : Char} (h : continuesName c = true) :
    Text.isMark c = false := by
  refine Bool.eq_false_iff.mpr fun hm => ?_
  rw [continuesName_of_isMark hm] at h
  cases h

/-- The properties that names are links of. -/
def Derivation.ofNames : List String → Derivation .links
  | [] => .noLink
  | name :: names => .property name (ofNames names)

theorem Derivation.value_ofNames (names : List String) (e : Expr) :
    (ofNames names).value e = names.foldl .property e := by
  induction names generalizing e with
  | nil => rfl
  | cons name names ih => exact ih (.property e name)

theorem Derivation.depth_ofNames (names : List String) (c : Nat) :
    (ofNames names).depth c = c + names.length := by
  induction names generalizing c with
  | nil => rfl
  | cons name names ih =>
    rw [ofNames, depth, ih, List.length_cons]
    omega

theorem stops_dots (names : List String) {rest : List Char} (hr : Stops continuesName rest) :
    Stops continuesName (dots names ++ rest) := by
  cases names with
  | nil => exact hr
  | cons name names => exact .cons (continuesName_of_isMark rfl) _

theorem scans_dots (h : ∀ name ∈ names, isName name = true) {rest : List Char} {us : List Token}
    (hr : Stops continuesName rest) (hs : Scans rest us) :
    Scans (dots names ++ rest) ((Derivation.ofNames names).tokens ++ us) := by
  induction names with
  | nil => exact hs
  | cons name names ih =>
    obtain ⟨hname, hnames⟩ := List.forall_mem_cons.mp h
    rw [dots_cons, List.cons_append, List.append_assoc]
    exact .mark rfl (.name hname (stops_dots names hr) (ih hnames))

/-- A text that is scanned into the tokens of a derivation is read as what that stands for. -/
theorem parse_of_scans {s : List Char} {t : Derivation .expr} (hs : Scans s t.tokens)
    (hd : t.depth 0 ≤ maxDepth) : parse (String.ofList s) = .ok t.value := by
  obtain ⟨ts, hts, hus⟩ := hs 0
  have hne : ts ≠ [] := by
    rintro rfl
    exact tokens_ne_nil hd hus.symm
  rw [parse_of_tokenize (by rw [String.toList_ofList]; exact hts),
    parseTokens_of_derives hne ⟨t, hus.symm, rfl, rfl⟩, if_pos hd]

/-- The expression counts one level, and each name one more. -/
theorem parse_dotted (h : ∀ name ∈ names, isName name = true) (hlen : names.length ≤ 63) :
    parse (String.ofList (dotted names)) = .ok (names.foldl .property .root) := by
  have hs : Scans (dotted names)
      (Derivation.ofUnary (.plain (.linked .root (.ofNames names)))).tokens := by
    have hdots : Scans (dots names ++ []) ((Derivation.ofNames names).tokens ++ []) :=
      scans_dots h nofun .nil
    rw [List.append_nil, List.append_nil] at hdots
    rw [Derivation.tokens_ofUnary]
    exact .mark rfl hdots
  rw [parse_of_scans hs ?_]
  · exact congrArg Except.ok (Derivation.value_ofNames names .root)
  · rw [Derivation.depth_ofUnary, Derivation.depth, Derivation.depth, Derivation.depth,
      Derivation.depth_ofNames]
    have : maxDepth = 64 := rfl
    omega

/-- The names that arrays and texts answer to. -/
def builtins : List String := ["length", "first", "last", "flat", "reverse"]

theorem property?_eq_member? {name : String} (h : name ∉ builtins) (v : Json) :
    property? v name = v.member? name := by
  simp only [builtins, List.mem_cons, List.not_mem_nil, or_false, not_or] at h
  obtain ⟨hlength, hfirst, hlast, hflat, hreverse⟩ := h
  cases v with
  | obj members => rfl
  | arr items =>
    have hmethod : Method.ofName? name = some .sort ∨ Method.ofName? name = none := by
      simp [Method.ofName?, hlength, hfirst, hlast, hflat, hreverse]
      exact em _
    rcases hmethod with hm | hm <;> simp [property?, hm, Json.member?]
  | str s => simp [property?, hlength, Json.member?]
  | _ => rfl

theorem eval_foldl_property {root : Json} {e : Expr} {o : Option Json}
    (h : ∀ name ∈ names, name ∉ builtins) (he : eval root none e = .ok o) :
    eval root none (names.foldl .property e) = .ok (o.bind (Json.descend? names)) := by
  induction names generalizing e o with
  | nil =>
    rw [List.foldl_nil, he]
    cases o <;> rfl
  | cons name names ih =>
    obtain ⟨hname, hnames⟩ := List.forall_mem_cons.mp h
    have hstep : eval root none (.property e name) = .ok (o.bind fun v => v.member? name) := by
      rw [eval, he]
      simp only [property?_eq_member? hname]
      rfl
    rw [List.foldl_cons, ih hnames hstep, Option.bind_assoc]
    rfl

end Expression

/-- A name of the language fits in every spelling of a path. -/
theorem Segment.isPlain_of_isName {name : String} (h : Expression.isName name = true) :
    (key name).IsPlain := by
  obtain ⟨c, cs, hcs, hc⟩ := Expression.exists_cons_of_isName h
  have hne : name.toList ≠ [] := by
    rw [hcs]
    exact List.cons_ne_nil c cs
  have hcontinues : ∀ d ∈ name.toList, Expression.continuesName d = true :=
    fun d hd => Expression.continuesName_of_mem h hd
  have hplus : c ≠ '+' := Text.ne_of_isMark (Expression.isMark_of_startsName hc) rfl
  refine ⟨⟨.of_forall hne fun d hd => Expression.isWhite_of_continuesName (hcontinues d hd),
    ?_, ?_⟩, ?_⟩
  · refine any_isSign_of_isMark fun d hd => ?_
    exact Expression.isMark_of_continuesName (hcontinues d hd)
  · rw [hcs]
    exact fun hd => Text.ne_of_isMark (Expression.isMark_of_startsName hc) rfl (Option.some.inj hd)
  · rw [hcs]
    simp [indexOf?, hplus, Decimal.natural?, Expression.isDigit_of_startsName hc]

namespace Path
variable {names : List String}

/-- Names behind points, as the spelling of a path. -/
theorem dots_eq (names : List String) :
    dots names = spelled (names.map fun name => (.point, .key name)) := by
  rw [dots, spelled, List.flatMap_map]
  rfl

/-- The root in front of the first name is no segment. -/
theorem parse_dotted (h : ∀ name ∈ names, Expression.isName name = true) (hne : names ≠ []) :
    parse (String.ofList (dotted names)) = names.map .key := by
  have hplain : ∀ p ∈ names.map fun name => (Form.point, Segment.key name), p.2.IsPlain := by
    intro p hp
    obtain ⟨name, hname, rfl⟩ := List.mem_map.mp hp
    exact Segment.isPlain_of_isName (h name hname)
  have hread : ofChars (['$'] ++ dots names) = names.map .key := by
    rw [dots_eq, ofChars_spelled (by simpa using hne) hplain (by decide), List.map_map]
    rfl
  rw [parse, String.toList_ofList]
  exact hread

theorem get?_map_key (names : List String) (v : Json) :
    get? (names.map .key) v = Json.descend? names v := by
  induction names generalizing v with
  | nil => rfl
  | cons name names ih =>
    have hstep : step? v (.key name) = v.member? name := by cases v <;> rfl
    rw [List.map_cons, get?, hstep, Json.descend?, funext ih]

end Path

/-- Names behind points are read alike as an expression and as a path: as the member that they lead
to, and as nothing where a member is missing or stands in no object. -/
theorem evaluate_dotted {names : List String} (hne : names ≠ []) (hlen : names.length ≤ 63)
    (hname : ∀ name ∈ names, Expression.isName name = true)
    (hplain : ∀ name ∈ names, name ∉ Expression.builtins) (d : Json) :
    Expression.evaluate (String.ofList (dotted names)) d =
        .ok (Path.get? (Path.parse (String.ofList (dotted names))) d) ∧
      Path.get? (Path.parse (String.ofList (dotted names))) d = Json.descend? names d := by
  have hpath : Path.get? (Path.parse (String.ofList (dotted names))) d =
      Json.descend? names d := by
    rw [Path.parse_dotted hname hne, Path.get?_map_key]
  refine ⟨?_, hpath⟩
  rw [hpath, Expression.evaluate, Expression.parse_dotted hname hlen]
  simp only
  rw [Expression.eval_foldl_property hplain (Expression.eval.eq_3 d none)]
  rfl

/-- A name may be a word of the language or written in letters of any script; an array on the way
has no members. -/
theorem evaluate_dotted_array :
    Expression.evaluate "$.true.größe_1.x" (.obj [("true", .obj [("größe_1", .arr [])])]) =
        .ok none ∧
      Path.get? (Path.parse "$.true.größe_1.x")
        (.obj [("true", .obj [("größe_1", .arr [])])]) = none := by
  have hnames : ∀ name ∈ ["true", "größe_1", "x"], Expression.isName name = true := by
    decide +kernel
  obtain ⟨heval, hget⟩ := @evaluate_dotted ["true", "größe_1", "x"]
    (List.cons_ne_nil _ _) (by simp) hnames (by simp [Expression.builtins])
    (.obj [("true", .obj [("größe_1", .arr [])])])
  have htext : String.ofList (dotted ["true", "größe_1", "x"]) = "$.true.größe_1.x" := rfl
  have hnone : Json.descend? ["true", "größe_1", "x"]
      (.obj [("true", .obj [("größe_1", .arr [])])]) = none := by rfl
  rw [htext, hnone] at hget
  rw [htext, hget] at heval
  exact ⟨heval, hget⟩

end Switchboard
