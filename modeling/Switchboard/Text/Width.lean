/-! The width of a text in bytes of UTF-8. -/
namespace Switchboard.Text

def width : List Char → Nat
  | [] => 0
  | c :: s => c.utf8Size + width s

@[simp] theorem width_append (s t : List Char) : width (s ++ t) = width s + width t := by
  induction s with
  | nil => simp [width]
  | cons c s ih => simp [width, ih, Nat.add_assoc]

example : width "a\u00e9\u20ac".toList = 6 := by decide

end Switchboard.Text
