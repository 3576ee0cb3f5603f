import Switchboard.Text.Percent

/-! Percent coding is undone by decoding, and no coded text holds a character that separates the
parts of a query. -/
namespace Switchboard.Text

theorem hexDigit?_hexUpper : ∀ n < 16, hexDigit? (hexUpper n) = some n := by decide

theorem isUnreserved_hexUpper : ∀ n < 16, isUnreserved (hexUpper n) = true := by decide

theorem hexByte?_hexUpper (b : UInt8) :
    hexByte? (hexUpper (b.toNat / 16)) (hexUpper (b.toNat % 16)) = some b := by
  have hb : b.toNat < 256 := b.toNat_lt
  rw [hexByte?, hexDigit?_hexUpper _ (by omega), hexDigit?_hexUpper _ (by omega)]
  simp only
  rw [Nat.div_add_mod, UInt8.ofNat_toNat]

theorem bytes_cons (c : Char) (s : List Char) : bytes (c :: s) = bytes [c] ++ bytes s := by
  simp [bytes]

theorem percentBytes_percentByte (b : UInt8) (s : List Char) :
    percentBytes (percentByte b ++ s) = b :: percentBytes s := by
  rw [percentByte]
  simp only [List.cons_append, List.nil_append]
  rw [percentBytes, if_pos rfl, hexByte?_hexUpper]

theorem percentBytes_flatMap_percentByte (bs : List UInt8) (s : List Char) :
    percentBytes (bs.flatMap percentByte ++ s) = bs ++ percentBytes s := by
  induction bs with
  | nil => rfl
  | cons b bs ih =>
    rw [List.flatMap_cons, List.append_assoc, percentBytes_percentByte, ih, List.cons_append]

theorem percentBytes_cons_of_ne {c : Char} (h : c ≠ '%') (s : List Char) :
    percentBytes (c :: s) = bytes [c] ++ percentBytes s := by
  match s with
  | [] => simp [percentBytes]
  | [d] =>
    rw [percentBytes, percentBytes]
    exact bytes_cons c [d]
  | a :: b :: s => rw [percentBytes, if_neg h]

theorem percentEncode_cons (c : Char) (s : List Char) :
    percentEncode (c :: s) = percentEncode [c] ++ percentEncode s := by
  simp [percentEncode]

theorem percentBytes_percentEncode (s : List Char) : percentBytes (percentEncode s) = bytes s := by
  induction s with
  | nil => rfl
  | cons c s ih =>
    rw [percentEncode_cons, bytes_cons, ← ih]
    by_cases hc : isUnreserved c = true
    · have hne : c ≠ '%' := by
        rintro rfl
        exact absurd hc (by decide)
      have hself : percentEncode [c] = [c] := by simp [percentEncode, hc]
      rw [hself, List.singleton_append, percentBytes_cons_of_ne hne]
    · have hcode : percentEncode [c] = (bytes [c]).flatMap percentByte := by
        simp [percentEncode, hc]
      rw [hcode, percentBytes_flatMap_percentByte]

theorem ofBytes?_bytes (s : List Char) : ofBytes? (bytes s) = some s := by
  have hencode : ByteArray.mk (bytes s).toArray = s.utf8Encode :=
    ByteArray.ext List.data_toByteArray.symm
  rw [ofBytes?, hencode, List.utf8Decode?_utf8Encode]
  rfl

theorem percentDecode_percentEncode (s : List Char) : percentDecode (percentEncode s) = s := by
  rw [percentDecode, percentBytes_percentEncode, ofBytes?_bytes, Option.getD_some]

/-- Coded texts are made of unreserved characters and percent signs. -/
theorem isUnreserved_or_of_mem_percentEncode {c : Char} {s : List Char}
    (h : c ∈ percentEncode s) : isUnreserved c = true ∨ c = '%' := by
  obtain ⟨d, -, hd⟩ := List.mem_flatMap.mp h
  split at hd
  · rename_i hself
    rw [List.mem_singleton.mp hd]
    exact .inl hself
  · obtain ⟨b, -, hb⟩ := List.mem_flatMap.mp hd
    have hlt : b.toNat < 256 := b.toNat_lt
    simp only [percentByte, List.mem_cons, List.not_mem_nil, or_false] at hb
    rcases hb with rfl | rfl | rfl
    · exact .inr rfl
    · exact .inl (isUnreserved_hexUpper _ (by omega))
    · exact .inl (isUnreserved_hexUpper _ (by omega))

/-- Neither does a coded text hold a character of any other kind. -/
theorem not_mem_percentEncode {c : Char} (hc : isUnreserved c = false) (hne : c ≠ '%')
    (s : List Char) : c ∉ percentEncode s := by
  intro h
  rcases isUnreserved_or_of_mem_percentEncode h with h | h
  · rw [hc] at h
    cases h
  · exact hne h

end Switchboard.Text
