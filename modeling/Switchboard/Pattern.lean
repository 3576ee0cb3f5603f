/-! Patterns over text: `?` for one character, `*` for any text, `[a-z]` and `[!a-z]` for a character
in a set or outside it, and `**` as a whole component of a path for any number of components. -/
namespace Switchboard

namespace Pattern

/-- An inclusive range of characters. -/
abbrev Range := Char × Char

/-- A part of a pattern. -/
inductive Piece where
  | char (c : Char)
  | one
  | oneOf (set : List Range)
  | noneOf (set : List Range)
  | many
  | components
  deriving DecidableEq

/-- The ranges between two brackets; a single character is a range of its own. -/
def ranges : List Char → List Range
  | a :: '-' :: b :: s => (a, b) :: ranges s
  | a :: s => (a, a) :: ranges s
  | [] => []

def inside (c : Char) (set : List Range) : Bool := set.any fun r => r.1 ≤ c && c ≤ r.2

/-- The members of a set and what follows its closing bracket. The first member may be a bracket. -/
def takeSet : List Char → Option (List Range × List Char)
  | [] => none
  | c :: s =>
    match s.dropWhile (· ≠ ']') with
    | [] => none
    | _ :: r => some (ranges (c :: s.takeWhile (· ≠ ']')), r)

theorem length_takeSet {s r : List Char} {set : List Range} (h : takeSet s = some (set, r)) :
    r.length < s.length := by
  unfold takeSet at h
  split at h
  · simp at h
  · rename_i c s
    split at h
    · simp at h
    · rename_i x r' hd
      simp only [Option.some.injEq, Prod.mk.injEq] at h
      have hl := congrArg List.length (List.takeWhile_append_dropWhile (p := (· ≠ ']')) (l := s))
      rw [hd] at hl
      simp only [List.length_append, List.length_cons, h.2] at hl
      simp only [List.length_cons]
      omega

/-- The parts of a pattern, which begins a component if `fresh` holds. -/
def pieces (fresh : Bool) (s : List Char) : Option (List Piece) :=
  match s with
  | [] => some []
  | '?' :: s => (pieces false s).map (.one :: ·)
  | '*' :: '*' :: '*' :: _ => none
  | '*' :: '*' :: '/' :: s => if fresh then (pieces true s).map (.components :: ·) else none
  | ['*', '*'] => if fresh then some [.components] else none
  | '*' :: '*' :: _ => none
  | '*' :: s => (pieces false s).map (.many :: ·)
  | '[' :: '!' :: s =>
    match h : takeSet s with
    | none => none
    | some (set, r) =>
      have := length_takeSet h
      (pieces false r).map (.noneOf set :: ·)
  | '[' :: s =>
    match h : takeSet s with
    | none => none
    | some (set, r) =>
      have := length_takeSet h
      (pieces false r).map (.oneOf set :: ·)
  | c :: s => (pieces (c = '/') s).map (.char c :: ·)
termination_by s.length

/-- Every ending of a text. -/
def endings : List Char → List (List Char)
  | [] => [[]]
  | c :: s => (c :: s) :: endings s

/-- The endings of a text after each of its slashes. -/
def afterSlashes : List Char → List (List Char)
  | [] => []
  | c :: s => if c = '/' then s :: afterSlashes s else afterSlashes s

/-- A character fits a part that stands for one. -/
def Piece.fits (c : Char) : Piece → Bool
  | char d => c == d
  | one => true
  | oneOf set => inside c set
  | noneOf set => !inside c set
  | many => false
  | components => false

/-- A text is made up by parts. Components are nothing, a text up to a slash, or all that is
left. -/
def fits : List Piece → List Char → Bool
  | [], s => s.isEmpty
  | .many :: ps, s => (endings s).any (fits ps)
  | .components :: ps, s => (s :: afterSlashes s ++ [[]]).any (fits ps)
  | _ :: _, [] => false
  | p :: ps, c :: s => p.fits c && fits ps s

end Pattern

/-- A text matches a pattern; one that is not well formed matches nothing. -/
def Pattern.matches (pattern s : String) : Bool :=
  match pieces true pattern.toList with
  | some ps => fits ps s.toList
  | none => false

example : Pattern.matches "/a/**/[!b-c]?" "/a/x/y/de" = true := by decide +kernel
example : Pattern.matches "/a**" "/a" = false := by decide +kernel

end Switchboard
