import TreeShell.Proofs.Text.Lenient
import TreeShell.Text.Percent

/-! # Percent encoding is read back

What is written for a text consists of the characters that stand for themselves and of `%` with two
hexadecimal digits (`Percent.isKept_or_percent`), and decoding it gives the text again
(`Percent.decode_encode`), so different texts are written differently.
-/

namespace TreeShell.Percent

theorem digit?_upperDigit : ∀ d < 16, digit? (upperDigit d) = some d := by
  decide

theorem isKept_upperDigit : ∀ d < 16, isKept (upperDigit d) = true := by
  decide

theorem byte?_upperDigits (b : UInt8) : byte? (upperDigit (b.toNat / 16)) (upperDigit (b.toNat % 16)) = some b := by
  have bounded := b.toNat_lt
  rw [byte?, digit?_upperDigit _ (by omega), digit?_upperDigit _ (by omega)]
  change some (UInt8.ofNat (b.toNat / 16 * 16 + b.toNat % 16)) = some b
  rw [Nat.div_add_mod', UInt8.ofNat_toNat]

theorem ne_percent_of_isKept {c : Char} (kept : isKept c = true) : c ≠ '%' := by
  rintro rfl
  exact absurd kept (by decide)

theorem decodeBytes_of_ne_percent {c : Char} (plain : c ≠ '%') (rest : List Char) :
    decodeBytes (c :: rest) = String.utf8EncodeChar c ++ decodeBytes rest :=
  decodeBytes.eq_2 _ _ fun _ _ _ same => absurd same plain

theorem decodeBytes_escape {high low : Char} {b : UInt8} (byte : byte? high low = some b) (rest : List Char) :
    decodeBytes ('%' :: high :: low :: rest) = b :: decodeBytes rest := by
  rw [decodeBytes, byte]

/-- What is written for a byte is read as that byte. -/
theorem decodeBytes_byteChars (b : UInt8) (rest : List Char) :
    decodeBytes (byteChars b ++ rest) = b :: decodeBytes rest := by
  rw [byteChars]
  split
  · next allowed =>
    rw [List.singleton_append, decodeBytes_of_ne_percent (ne_percent_of_isKept allowed.2),
      Utf8.utf8EncodeChar_of_small allowed.1]
    rfl
  · exact decodeBytes_escape (byte?_upperDigits b) rest

theorem decodeBytes_flatMap (bs : List UInt8) : decodeBytes (bs.flatMap byteChars) = bs := by
  induction bs with
  | nil => rfl
  | cons b bs ih => rw [List.flatMap_cons, decodeBytes_byteChars, ih]

theorem decodeBytes_encode (s : String) : decodeBytes (encode s).toList = Utf8.encode s := by
  rw [encode, String.toList_ofList, decodeBytes_flatMap]

@[simp] theorem decode_encode (s : String) : decode (encode s) = s := by
  rw [decode, decodeBytes_encode, Utf8.decode, Utf8.decodeFrom_eq_feeds, Utf8.encode, Utf8.feeds_encodeChars,
    String.ofList_toList]

theorem encode_injective : Function.Injective encode :=
  Function.LeftInverse.injective decode_encode

/-- Nothing else comes up in a written form. -/
theorem isKept_or_percent {s : String} {c : Char} (member : c ∈ (encode s).toList) : isKept c = true ∨ c = '%' := by
  rw [encode, String.toList_ofList] at member
  obtain ⟨b, -, written⟩ := List.mem_flatMap.mp member
  have bounded := b.toNat_lt
  rw [byteChars] at written
  split at written
  · next allowed => exact .inl (List.mem_singleton.mp written ▸ allowed.2)
  · simp only [List.mem_cons, List.not_mem_nil, or_false] at written
    rcases written with rfl | rfl | rfl
    · exact .inr rfl
    · exact .inl (isKept_upperDigit _ (by omega))
    · exact .inl (isKept_upperDigit _ (by omega))

end TreeShell.Percent
