/-! Percent coding of text, byte by byte in UTF-8. -/
namespace Switchboard.Text

/-- The bytes of a text. -/
def bytes (s : List Char) : List UInt8 := s.flatMap String.utf8EncodeChar

/-- The text of bytes, if they are well formed. -/
def ofBytes? (bs : List UInt8) : Option (List Char) :=
  (ByteArray.mk bs.toArray).utf8Decode?.map Array.toList

/-- Characters that stand for themselves: letters and digits of ASCII and four signs. -/
def isUnreserved (c : Char) : Bool :=
  c.isAlphanum || c == '-' || c == '_' || c == '.' || c == '~'

def hexUpper (n : Nat) : Char := if n < 10 then Char.ofNat (48 + n) else Char.ofNat (55 + n)

def percentByte (b : UInt8) : List Char := ['%', hexUpper (b.toNat / 16), hexUpper (b.toNat % 16)]

def percentEncode (s : List Char) : List Char :=
  s.flatMap fun c => if isUnreserved c then [c] else (bytes [c]).flatMap percentByte

/-- A digit in either case. -/
def hexDigit? (c : Char) : Option Nat :=
  if '0' ≤ c ∧ c ≤ '9' then some (c.toNat - 48)
  else if 'a' ≤ c ∧ c ≤ 'f' then some (c.toNat - 87)
  else if 'A' ≤ c ∧ c ≤ 'F' then some (c.toNat - 55)
  else none

/-- The byte of two digits. -/
def hexByte? (a b : Char) : Option UInt8 :=
  match hexDigit? a, hexDigit? b with
  | some m, some n => some (UInt8.ofNat (16 * m + n))
  | _, _ => none

/-- The bytes that a text codes; a sign that no two digits follow stands for itself. -/
def percentBytes : List Char → List UInt8
  | [] => []
  | [c] => bytes [c]
  | [c, d] => bytes [c, d]
  | c :: a :: b :: s =>
    match if c = '%' then hexByte? a b else none with
    | some byte => byte :: percentBytes s
    | none => bytes [c] ++ percentBytes (a :: b :: s)

/-- The text that a text codes; one whose bytes are no text is left as it is. -/
def percentDecode (s : List Char) : List Char := (ofBytes? (percentBytes s)).getD s

end Switchboard.Text
