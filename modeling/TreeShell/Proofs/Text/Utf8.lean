import TreeShell.Text.Utf8

/-! # What is encoded is decoded

The decoder takes the bytes of a character, one by one, to that character, and is then ready for the next
(`Utf8.feeds_utf8EncodeChar`). The ranges that it holds the second byte to are those of the encoder: they leave out just
what has a shorter form, the surrogates, and what is beyond the last code point.
-/

namespace TreeShell.Utf8

/-- The decoder after some bytes, and the characters that they complete. -/
def feeds : Decoder → List UInt8 → Decoder × List Char
  | d, [] => (d, [])
  | d, b :: bs => ((feeds (feed d b).1 bs).1, (feed d b).2 ++ (feeds (feed d b).1 bs).2)

variable {n : Nat}

theorem feeds_append (d : Decoder) (bs cs : List UInt8) :
    feeds d (bs ++ cs) = ((feeds (feeds d bs).1 cs).1, (feeds d bs).2 ++ (feeds (feeds d bs).1 cs).2) := by
  induction bs generalizing d with
  | nil => rfl
  | cons b rest ih => simp [feeds, ih]

/-! ## Leading bytes -/

theorem openWith_two : ∀ n < 32, 2 ≤ n → openWith (UInt8.ofNat (n + 192)) = some ⟨n, 1, 0x80, 0xBF⟩ := by
  decide

theorem openWith_three : ∀ n < 16, openWith (UInt8.ofNat (n + 224)) =
    some ⟨n, 2, if n = 0 then 0xA0 else 0x80, if n = 13 then 0x9F else 0xBF⟩ := by
  decide

theorem openWith_four : ∀ n < 5, openWith (UInt8.ofNat (n + 240)) =
    some ⟨n, 3, if n = 0 then 0x90 else 0x80, if n = 4 then 0x8F else 0xBF⟩ := by
  decide

theorem feed_ascii (small : n < 128) : feed none (UInt8.ofNat n) = (none, [Char.ofNat n]) := by
  have byte : (UInt8.ofNat n).toNat = n := by
    rw [UInt8.toNat_ofNat']
    omega
  rw [feed, start, if_pos (UInt8.lt_iff_toNat_lt.mpr (by rw [byte]; exact small)), byte]

theorem feed_leading (large : 128 ≤ n) (byte : n < 256) : feed none (UInt8.ofNat n) = (openWith (UInt8.ofNat n), []) := by
  have value : (UInt8.ofNat n).toNat = n := by
    rw [UInt8.toNat_ofNat']
    omega
  rw [feed, start, if_neg]
  rw [UInt8.lt_iff_toNat_lt, value]
  exact Nat.not_lt.mpr large

/-! ## Bytes within a character -/

/-- A byte in the range that a sequence waits for is taken into it. -/
theorem feed_next {s : Sequence} (small : n < 64) (low : s.least.toNat ≤ n + 128) (high : n + 128 ≤ s.greatest.toNat) :
    feed (some s) (UInt8.ofNat (n + 128)) =
      if s.missing ≤ 1 then (none, [Char.ofNat (s.bits * 64 + n)])
      else (some ⟨s.bits * 64 + n, s.missing - 1, 0x80, 0xBF⟩, []) := by
  have value : (UInt8.ofNat (n + 128)).toNat = n + 128 := by
    rw [UInt8.toNat_ofNat']
    omega
  have bits : (n + 128) % 0x40 = n := by omega
  have within : s.least ≤ UInt8.ofNat (n + 128) ∧ UInt8.ofNat (n + 128) ≤ s.greatest := by
    rw [UInt8.le_iff_toNat_le, UInt8.le_iff_toNat_le, value]
    exact ⟨low, high⟩
  rw [feed, if_pos within, value, bits]

/-- Behind the second byte all have the same range. -/
theorem feed_tail {bits missing : Nat} (small : n < 64) :
    feed (some ⟨bits, missing, 0x80, 0xBF⟩) (UInt8.ofNat (n + 128)) =
      if missing ≤ 1 then (none, [Char.ofNat (bits * 64 + n)])
      else (some ⟨bits * 64 + n, missing - 1, 0x80, 0xBF⟩, []) :=
  feed_next small (Nat.le_add_left 128 n) (by change n + 128 ≤ 191; omega)

/-! ## Characters -/

variable {a b c d : Nat}

theorem feeds_two (lead : 2 ≤ a) (leading : a < 32) (last : b < 64) :
    feeds none [UInt8.ofNat (a + 192), UInt8.ofNat (b + 128)] = (none, [Char.ofNat (a * 64 + b)]) := by
  have opened := feed_leading (show 128 ≤ a + 192 by omega) (by omega)
  rw [openWith_two a leading lead] at opened
  rw [feeds, opened, feeds, feed_tail last]
  rfl

/-- In three bytes, the second is held to what has no shorter form and is no surrogate. -/
theorem feeds_three (leading : a < 16) (next : b < 64) (last : c < 64) (long : a = 0 → 32 ≤ b)
    (scalar : a = 13 → b < 32) :
    feeds none [UInt8.ofNat (a + 224), UInt8.ofNat (b + 128), UInt8.ofNat (c + 128)] =
      (none, [Char.ofNat ((a * 64 + b) * 64 + c)]) := by
  have opened := feed_leading (show 128 ≤ a + 224 by omega) (by omega)
  rw [openWith_three a leading] at opened
  rw [feeds, opened, feeds, feed_next next, feeds, if_neg (by simp), feed_tail last]
  · rfl
  · dsimp only
    split
    · next zero => exact Nat.add_le_add_right (long zero) 128
    · exact Nat.le_add_left 128 b
  · dsimp only
    split
    · next surrogate =>
      have small := scalar surrogate
      change b + 128 ≤ 159
      omega
    · change b + 128 ≤ 191
      omega

/-- In four bytes, it is held to what has no shorter form and is not beyond the last code point. -/
theorem feeds_four (leading : a < 5) (next : b < 64) (third : c < 64) (last : d < 64) (long : a = 0 → 16 ≤ b)
    (bounded : a = 4 → b < 16) :
    feeds none [UInt8.ofNat (a + 240), UInt8.ofNat (b + 128), UInt8.ofNat (c + 128), UInt8.ofNat (d + 128)] =
      (none, [Char.ofNat (((a * 64 + b) * 64 + c) * 64 + d)]) := by
  have opened := feed_leading (show 128 ≤ a + 240 by omega) (by omega)
  rw [openWith_four a leading] at opened
  rw [feeds, opened, feeds, feed_next next, feeds, if_neg (by simp), feed_tail third, feeds, if_neg (by simp),
    feed_tail last]
  · rfl
  · dsimp only
    split
    · next zero => exact Nat.add_le_add_right (long zero) 128
    · exact Nat.le_add_left 128 b
  · dsimp only
    split
    · next greatest =>
      have small := bounded greatest
      change b + 128 ≤ 143
      omega
    · change b + 128 ≤ 191
      omega

/-- Every character is what its bytes are decoded to. -/
theorem feeds_utf8EncodeChar (c : Char) : feeds none (String.utf8EncodeChar c) = (none, [c]) := by
  have valid : c.val.toNat < 0xD800 ∨ 0xDFFF < c.val.toNat ∧ c.val.toNat < 0x110000 := c.valid
  have whole : Char.ofNat c.val.toNat = c := Char.ofNat_toNat c
  rw [String.utf8EncodeChar]
  generalize c.val.toNat = v at valid whole
  subst whole
  split
  · next one =>
    rw [feeds, feed_ascii (by omega)]
    rfl
  · split
    · next two =>
      rw [feeds_two (by omega) (by omega) (by omega)]
      congr 3
      omega
    · split
      · next three =>
        rw [feeds_three (by omega) (by omega) (by omega) (by omega) (by omega)]
        congr 3
        omega
      · rw [feeds_four (by omega) (by omega) (by omega) (by omega) (by omega) (by omega)]
        congr 3
        omega

theorem feeds_encodeChars (cs : List Char) : feeds none (encodeChars cs) = (none, cs) := by
  induction cs with
  | nil => rfl
  | cons c rest ih =>
    rw [encodeChars, List.flatMap_cons, ← encodeChars, feeds_append, feeds_utf8EncodeChar, ih]
    rfl

end TreeShell.Utf8
