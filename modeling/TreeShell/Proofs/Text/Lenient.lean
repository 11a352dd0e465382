import Mathlib.Data.List.Induction
import Mathlib.Data.Nat.Find
import TreeShell.Proofs.Text.Utf8

/-! # Decoding all bytes at once

Ill-formed bytes are dropped by the rule of the maximal subpart: where no character stands, as many bytes are dropped at a
time as can begin one, or a single byte if none can. `Utf8.Decodes` states this of whole rows of bytes, without a state. The
decoder, which sees one byte at a time, decodes just so (`Utf8.decodes_iff`): the bytes since it has opened a sequence are
those of a character up to some place (`Utf8.Opens.completes`), and a byte that it does not take into the sequence is one with
which they cannot go on (`Utf8.Opens.feed_of_not_begins`).
-/

namespace TreeShell.Utf8

/-- Whether some bytes begin the bytes of a character, or are all of them. -/
def Begins (bs : List UInt8) : Prop :=
  ∃ c, bs <+: String.utf8EncodeChar c

/-- Whether some bytes are dropped at a time before others: no character stands there, and they are the longest beginning of
one, or a single byte if that begins none. -/
structure MaximalSubpart (part rest : List UInt8) : Prop where
  illFormed : ∀ c, ¬ String.utf8EncodeChar c <+: part ++ rest
  filled : part ≠ []
  begins : Begins part ∨ ∃ b, part = [b]
  longest : ∀ longer, longer <+: part ++ rest → Begins longer → longer.length ≤ part.length

/-- Which characters some bytes are decoded to, ill-formed ones dropped. -/
inductive Decodes : List UInt8 → List Char → Prop
  | nil : Decodes [] []
  | char (c : Char) {rest : List UInt8} {cs : List Char} (later : Decodes rest cs) :
    Decodes (String.utf8EncodeChar c ++ rest) (c :: cs)
  | drop {part rest : List UInt8} {cs : List Char} (dropped : MaximalSubpart part rest) (later : Decodes rest cs) :
    Decodes (part ++ rest) cs

/-! ## What the encoder makes of numbers -/

section Encoder

variable {a b c d v : Nat}

theorem val_ofNat (valid : v.isValidChar) : (Char.ofNat v).val.toNat = v := by
  rw [Char.ofNat, dif_pos valid]
  rfl

theorem utf8EncodeChar_one (small : a < 128) : String.utf8EncodeChar (Char.ofNat a) = [UInt8.ofNat a] := by
  rw [String.utf8EncodeChar, val_ofNat (.inl (by omega)), if_pos (by omega)]

/-- A byte of the seven-bit range is a character of its own. -/
theorem utf8EncodeChar_of_small {b : UInt8} (small : b < 0x80) : String.utf8EncodeChar (Char.ofNat b.toNat) = [b] := by
  rw [utf8EncodeChar_one (UInt8.lt_iff_toNat_lt.mp small), UInt8.ofNat_toNat]

theorem utf8EncodeChar_two (lead : 2 ≤ a) (leading : a < 32) (last : b < 64) :
    String.utf8EncodeChar (Char.ofNat (a * 64 + b)) = [UInt8.ofNat (a + 192), UInt8.ofNat (b + 128)] := by
  rw [String.utf8EncodeChar, val_ofNat (.inl (by omega))]
  have parts : (a * 64 + b) / 64 % 32 = a ∧ (a * 64 + b) % 64 = b := by omega
  rw [if_neg (by omega), if_pos (by omega), parts.1, parts.2]

theorem utf8EncodeChar_three (leading : a < 16) (next : b < 64) (last : c < 64) (long : a = 0 → 32 ≤ b)
    (scalar : a = 13 → b < 32) :
    String.utf8EncodeChar (Char.ofNat ((a * 64 + b) * 64 + c)) =
      [UInt8.ofNat (a + 224), UInt8.ofNat (b + 128), UInt8.ofNat (c + 128)] := by
  have valid : ((a * 64 + b) * 64 + c).isValidChar := by
    rw [Nat.isValidChar]
    omega
  rw [String.utf8EncodeChar, val_ofNat valid]
  have first : ((a * 64 + b) * 64 + c) / 4096 % 16 = a := by omega
  have others : ((a * 64 + b) * 64 + c) / 64 % 64 = b ∧ ((a * 64 + b) * 64 + c) % 64 = c := by omega
  rw [if_neg (by omega), if_neg (by omega), if_pos (by omega), first, others.1, others.2]

theorem utf8EncodeChar_four (leading : a < 5) (next : b < 64) (third : c < 64) (last : d < 64) (long : a = 0 → 16 ≤ b)
    (bounded : a = 4 → b < 16) :
    String.utf8EncodeChar (Char.ofNat (((a * 64 + b) * 64 + c) * 64 + d)) =
      [UInt8.ofNat (a + 240), UInt8.ofNat (b + 128), UInt8.ofNat (c + 128), UInt8.ofNat (d + 128)] := by
  have valid : (((a * 64 + b) * 64 + c) * 64 + d).isValidChar := by
    rw [Nat.isValidChar]
    omega
  rw [String.utf8EncodeChar, val_ofNat valid]
  have first : (((a * 64 + b) * 64 + c) * 64 + d) / 262144 % 8 = a := by omega
  have second : (((a * 64 + b) * 64 + c) * 64 + d) / 4096 % 64 = b := by omega
  have others : (((a * 64 + b) * 64 + c) * 64 + d) / 64 % 64 = c ∧ (((a * 64 + b) * 64 + c) * 64 + d) % 64 = d := by omega
  rw [if_neg (by omega), if_neg (by omega), if_neg (by omega), first, second, others.1, others.2]

end Encoder

/-! ## Bytes behind the first one -/

/-- Whether a byte can only stand behind the first byte of a character. -/
def IsTail (b : UInt8) : Prop :=
  0x80 ≤ b ∧ b ≤ 0xBF

theorem isTail_iff {b : UInt8} : IsTail b ↔ ∃ n < 64, b = UInt8.ofNat (n + 128) := by
  rw [IsTail, UInt8.le_iff_toNat_le, UInt8.le_iff_toNat_le]
  constructor
  · rintro ⟨low, high⟩
    change 128 ≤ b.toNat at low
    change b.toNat ≤ 191 at high
    refine ⟨b.toNat - 128, by omega, ?_⟩
    rw [Nat.sub_add_cancel low, UInt8.ofNat_toNat]
  · rintro ⟨n, small, rfl⟩
    rw [UInt8.toNat_ofNat']
    change 128 ≤ _ ∧ _ ≤ 191
    omega

theorem exists_utf8EncodeChar_eq (c : Char) : ∃ b t, String.utf8EncodeChar c = b :: t ∧ ∀ x ∈ t, IsTail x := by
  have tail (n : Nat) : IsTail (UInt8.ofNat (n % 64 + 128)) := isTail_iff.mpr ⟨n % 64, Nat.mod_lt _ (by decide), rfl⟩
  rw [String.utf8EncodeChar]
  generalize c.val.toNat = v
  split
  · exact ⟨_, _, rfl, List.forall_mem_nil _⟩
  · have one := List.forall_mem_singleton.mpr (tail v)
    have two := List.forall_mem_cons.mpr ⟨tail (v / 64), one⟩
    split
    · exact ⟨_, _, rfl, one⟩
    · split
      · exact ⟨_, _, rfl, two⟩
      · exact ⟨_, _, rfl, List.forall_mem_cons.mpr ⟨tail (v / 4096), two⟩⟩

/-- Outside a character they are lost. -/
theorem feeds_tails {t : List UInt8} (tails : ∀ x ∈ t, IsTail x) : feeds none t = (none, []) := by
  have opensNone : ∀ n < 64, start (UInt8.ofNat (n + 128)) = (none, []) := by decide
  induction t with
  | nil => rfl
  | cons x rest ih =>
    obtain ⟨first, later⟩ := List.forall_mem_cons.mp tails
    obtain ⟨n, small, rfl⟩ := isTail_iff.mp first
    rw [feeds, feed, opensNone n small, ih later]
    rfl

/-! ## Open sequences -/

/-- Whether a sequence is open when some bytes have gone into it, and no others. -/
inductive Opens : List UInt8 → Sequence → Prop
  | lead {b : UInt8} {s : Sequence} (leads : openWith b = some s) : Opens [b] s
  | next {p : List UInt8} {s : Sequence} {b : UInt8} (before : Opens p s) (more : 1 < s.missing) (low : s.least ≤ b)
    (high : b ≤ s.greatest) : Opens (p ++ [b]) ⟨s.bits * 0x40 + b.toNat % 0x40, s.missing - 1, 0x80, 0xBF⟩

/-- Whether some bytes are all those that a sequence waits for. -/
def Sequence.Awaits (s : Sequence) : List UInt8 → Prop
  | [] => False
  | b :: t => s.least ≤ b ∧ b ≤ s.greatest ∧ t.length + 1 = s.missing ∧ ∀ x ∈ t, IsTail x

theorem openWith_cases {b : UInt8} {s : Sequence} (leads : openWith b = some s) :
    (∃ a, 2 ≤ a ∧ a < 32 ∧ b = UInt8.ofNat (a + 192)) ∨ (∃ a < 16, b = UInt8.ofNat (a + 224)) ∨
      ∃ a < 5, b = UInt8.ofNat (a + 240) := by
  have range : ∀ n < 256, (openWith (UInt8.ofNat n)).isSome → 194 ≤ n ∧ n < 245 := by decide +kernel
  obtain ⟨low, high⟩ := range b.toNat b.toNat_lt (by rw [UInt8.ofNat_toNat, leads]; rfl)
  have same {n m : Nat} (equal : n + m = b.toNat) : b = UInt8.ofNat (n + m) := by rw [equal, UInt8.ofNat_toNat]
  rcases Nat.lt_or_ge b.toNat 224 with two | more
  · exact .inl ⟨b.toNat - 192, by omega, by omega, same (by omega)⟩
  · rcases Nat.lt_or_ge b.toNat 240 with three | four
    · exact .inr (.inl ⟨b.toNat - 224, by omega, same (by omega)⟩)
    · exact .inr (.inr ⟨b.toNat - 240, by omega, same (by omega)⟩)

theorem exists_between {b least greatest : UInt8} (low : least ≤ b) (high : b ≤ greatest) (above : 0x80 ≤ least)
    (below : greatest ≤ 0xBF) :
    ∃ n < 64, b = UInt8.ofNat (n + 128) ∧ least.toNat ≤ n + 128 ∧ n + 128 ≤ greatest.toNat := by
  obtain ⟨n, small, rfl⟩ := isTail_iff.mp ⟨UInt8.le_trans above low, UInt8.le_trans high below⟩
  have byte : (UInt8.ofNat (n + 128)).toNat = n + 128 := by
    rw [UInt8.toNat_ofNat']
    omega
  rw [UInt8.le_iff_toNat_le, byte] at low high
  exact ⟨n, small, rfl, low, high⟩

theorem tailRange_nonempty : (0x80 : UInt8) ≤ 0xBF := by decide

/-- A leading byte and any bytes that its sequence waits for are a character. -/
theorem exists_char_of_lead {b : UInt8} {s : Sequence} (leads : openWith b = some s) :
    0 < s.missing ∧ s.least ≤ s.greatest ∧ ∀ t, s.Awaits t → ∃ c, String.utf8EncodeChar c = b :: t := by
  rcases openWith_cases leads with ⟨a, lead, leading, rfl⟩ | ⟨a, leading, rfl⟩ | ⟨a, leading, rfl⟩
  · obtain rfl := Option.some.inj ((openWith_two a leading lead).symm.trans leads)
    refine ⟨Nat.one_pos, tailRange_nonempty, fun t awaits => ?_⟩
    match t, awaits with
    | [b], ⟨low, high, _, _⟩ =>
      obtain ⟨n, small, rfl⟩ := isTail_iff.mp ⟨low, high⟩
      exact ⟨_, utf8EncodeChar_two lead leading small⟩
  · obtain rfl := Option.some.inj ((openWith_three a leading).symm.trans leads)
    have ordered : ∀ a < 16, (if a = 0 then (0xA0 : UInt8) else 0x80) ≤ if a = 13 then 0x9F else 0xBF := by decide
    refine ⟨Nat.two_pos, ordered a leading, fun t awaits => ?_⟩
    match t, awaits with
    | [b, c], ⟨low, high, _, tails⟩ =>
      obtain ⟨n, small, rfl, long, scalar⟩ := exists_between low high (by dsimp only; split <;> decide)
        (by dsimp only; split <;> decide)
      obtain ⟨m, last, rfl⟩ := isTail_iff.mp (List.forall_mem_singleton.mp tails)
      refine ⟨_, utf8EncodeChar_three leading small last (fun zero => ?_) fun surrogate => ?_⟩
      · rw [if_pos zero] at long
        change 160 ≤ n + 128 at long
        omega
      · rw [if_pos surrogate] at scalar
        change n + 128 ≤ 159 at scalar
        omega
  · obtain rfl := Option.some.inj ((openWith_four a leading).symm.trans leads)
    have ordered : ∀ a < 5, (if a = 0 then (0x90 : UInt8) else 0x80) ≤ if a = 4 then 0x8F else 0xBF := by decide
    refine ⟨Nat.succ_pos 2, ordered a leading, fun t awaits => ?_⟩
    match t, awaits with
    | [b, c, d], ⟨low, high, _, tails⟩ =>
      obtain ⟨n, small, rfl, long, bounded⟩ := exists_between low high (by dsimp only; split <;> decide)
        (by dsimp only; split <;> decide)
      obtain ⟨third, fourth⟩ := List.forall_mem_cons.mp tails
      obtain ⟨m, middle, rfl⟩ := isTail_iff.mp third
      obtain ⟨k, last, rfl⟩ := isTail_iff.mp (List.forall_mem_singleton.mp fourth)
      refine ⟨_, utf8EncodeChar_four leading small middle last (fun zero => ?_) fun greatest => ?_⟩
      · rw [if_pos zero] at long
        change 144 ≤ n + 128 at long
        omega
      · rw [if_pos greatest] at bounded
        change n + 128 ≤ 143 at bounded
        omega

namespace Opens

variable {p : List UInt8} {s : Sequence} {b : UInt8}

/-- The bytes of an open sequence are those of a character with any that it waits for behind them. -/
theorem completes (opens : Opens p s) :
    0 < s.missing ∧ s.least ≤ s.greatest ∧ ∀ t, s.Awaits t → ∃ c, String.utf8EncodeChar c = p ++ t := by
  induction opens with
  | lead leads => exact exists_char_of_lead leads
  | @next p s b before more low high ih =>
    refine ⟨Nat.sub_pos_of_lt more, tailRange_nonempty, fun t awaits => ?_⟩
    cases t with
    | nil => exact awaits.elim
    | cons b' t =>
      obtain ⟨low', high', length, tails⟩ := awaits
      change t.length + 1 = s.missing - 1 at length
      obtain ⟨c, whole⟩ := ih.2.2 (b :: b' :: t)
        ⟨low, high, by rw [List.length_cons]; omega, List.forall_mem_cons.mpr ⟨⟨low', high'⟩, tails⟩⟩
      exact ⟨c, by rw [whole, List.append_assoc]; rfl⟩

theorem begins_of_le (opens : Opens p s) (low : s.least ≤ b) (high : b ≤ s.greatest) : Begins (p ++ [b]) := by
  obtain ⟨missing, -, completes⟩ := opens.completes
  have tails : ∀ x ∈ List.replicate (s.missing - 1) (0x80 : UInt8), IsTail x := by
    intro x member
    rw [List.eq_of_mem_replicate member]
    exact ⟨by decide, by decide⟩
  obtain ⟨c, whole⟩ := completes (b :: List.replicate (s.missing - 1) 0x80)
    ⟨low, high, by rw [List.length_replicate]; omega, tails⟩
  exact ⟨c, _, by rw [whole, List.append_assoc]; rfl⟩

theorem begins (opens : Opens p s) : Begins p := by
  obtain ⟨c, longer⟩ := opens.begins_of_le (UInt8.le_refl _) opens.completes.2.1
  exact ⟨c, (List.prefix_append p _).trans longer⟩

/-- A byte with which a sequence cannot go on is taken as one outside of it. -/
theorem feed_of_not_begins (opens : Opens p s) (stops : ¬ Begins (p ++ [b])) : feed (some s) b = feed none b := by
  have outside : ¬ (s.least ≤ b ∧ b ≤ s.greatest) := fun within => stops (opens.begins_of_le within.1 within.2)
  unfold feed
  exact if_neg outside

theorem feeds_eq (opens : Opens p s) : feeds none p = (some s, []) := by
  induction opens with
  | @lead b s leads =>
    have opened : feed none b = (openWith b, []) := by
      rcases openWith_cases leads with ⟨a, -, small, rfl⟩ | ⟨a, small, rfl⟩ | ⟨a, small, rfl⟩ <;>
        exact feed_leading (by omega) (by omega)
    rw [feeds, opened, leads]
    rfl
  | next before more low high ih =>
    rw [feeds_append, ih, feeds, feed, if_pos ⟨low, high⟩, if_neg (Nat.not_le.mpr more)]
    rfl

end Opens

/-! ## The decoder -/

theorem decodeFrom_eq_feeds (d : Decoder) (bs : List UInt8) : decodeFrom d bs = (feeds d bs).2 := by
  induction bs generalizing d with
  | nil => rfl
  | cons b rest ih => rw [decodeFrom, feeds, ih]

theorem decode_append_of_feeds {p : List UInt8} {d : Decoder} {cs : List Char} (fed : feeds none p = (d, cs))
    (rest : List UInt8) : decode (p ++ rest) = cs ++ decodeFrom d rest := by
  rw [decode, decodeFrom_eq_feeds, feeds_append, fed, decodeFrom_eq_feeds]

/-- A byte that begins no character is lost. -/
theorem feed_of_not_begins {b : UInt8} (stops : ¬ Begins [b]) : feed none b = (none, []) := by
  have large : ¬ b < 0x80 := by
    intro small
    exact stops ⟨Char.ofNat b.toNat, (utf8EncodeChar_of_small small).symm ▸ List.prefix_rfl⟩
  rw [feed, start, if_neg large]
  cases leads : openWith b with
  | none => rfl
  | some s => exact absurd (Opens.lead leads).begins stops

/-- No character is the beginning of another. -/
theorem eq_of_utf8EncodeChar_append {c d : Char} {t : List UInt8}
    (whole : String.utf8EncodeChar c = String.utf8EncodeChar d ++ t) : c = d ∧ t = [] := by
  have fed := feeds_utf8EncodeChar c
  rw [whole, feeds_append, feeds_utf8EncodeChar] at fed
  obtain ⟨rfl, -⟩ := List.cons_eq_cons.mp (Prod.mk.inj fed).2
  exact ⟨rfl, List.self_eq_append_right.mp whole⟩

/-- A byte of the seven-bit range is found in no other character. -/
theorem eq_ofNat_of_mem {c : Char} {b : UInt8} (member : b ∈ String.utf8EncodeChar c) (small : b < 0x80) :
    c = Char.ofNat b.toNat := by
  obtain ⟨first, t, shape, tails⟩ := exists_utf8EncodeChar_eq c
  rw [shape] at member
  rcases List.mem_cons.mp member with rfl | later
  · have both : String.utf8EncodeChar c = String.utf8EncodeChar (Char.ofNat b.toNat) ++ t := by
      rw [shape, utf8EncodeChar_of_small small]
      rfl
    exact (eq_of_utf8EncodeChar_append both).1
  · exact absurd (tails b later).1 (UInt8.not_le.mpr small)

section Character

variable {c : Char} {p q : List UInt8} {b : UInt8}

/-- The first byte of a character opens a sequence, unless it is the only one. -/
theorem exists_openWith_eq (whole : String.utf8EncodeChar c = b :: q) (tails : ∀ x ∈ q, IsTail x) (unfinished : q ≠ []) :
    ∃ s, openWith b = some s := by
  have large : ¬ b < 0x80 := by
    intro small
    have both : String.utf8EncodeChar c = String.utf8EncodeChar (Char.ofNat b.toNat) ++ q := by
      rw [whole, utf8EncodeChar_of_small small]
      rfl
    exact unfinished (eq_of_utf8EncodeChar_append both).2
  cases leads : openWith b with
  | some s => exact ⟨s, rfl⟩
  | none =>
    have fed := feeds_utf8EncodeChar c
    have lost : feed none b = (none, []) := by rw [feed, start, if_neg large, leads]
    rw [whole, feeds, lost, feeds_tails tails] at fed
    cases fed

/-- A further byte of a character goes into the sequence, which stays open unless it is the last one. -/
theorem Opens.exists_next {s : Sequence} (opens : Opens p s) (whole : String.utf8EncodeChar c = p ++ b :: q)
    (tails : ∀ x ∈ b :: q, IsTail x) (unfinished : q ≠ []) : ∃ s', Opens (p ++ [b]) s' := by
  by_cases within : s.least ≤ b ∧ b ≤ s.greatest
  · rcases Nat.lt_or_ge 1 s.missing with more | last
    · exact ⟨_, .next opens more within.1 within.2⟩
    · obtain ⟨missing, -, completes⟩ := opens.completes
      obtain ⟨d, complete⟩ := completes [b] ⟨within.1, within.2, Nat.le_antisymm missing last, List.forall_mem_nil _⟩
      have both : String.utf8EncodeChar c = String.utf8EncodeChar d ++ q := by
        rw [whole, complete, List.append_assoc]
        rfl
      exact absurd (eq_of_utf8EncodeChar_append both).2 unfinished
  · -- the byte would be lost, and with it all the bytes behind it
    have fed := feeds_utf8EncodeChar c
    have lost : feed (some s) b = feed none b := by
      unfold feed
      exact if_neg within
    have none := feeds_tails tails
    rw [feeds] at none
    rw [whole, feeds_append, opens.feeds_eq, List.nil_append, feeds, lost, none] at fed
    cases fed

/-- While a character is not complete, its bytes are those of an open sequence. -/
theorem exists_opens (whole : String.utf8EncodeChar c = p ++ q) (filled : p ≠ []) (unfinished : q ≠ []) :
    ∃ s, Opens p s := by
  obtain ⟨first, t, shape, tails⟩ := exists_utf8EncodeChar_eq c
  induction p using List.reverseRecOn generalizing q with
  | nil => exact absurd rfl filled
  | append_singleton p b ih =>
    rw [List.append_assoc, List.singleton_append] at whole
    cases p with
    | nil =>
      obtain ⟨rfl, rfl⟩ := List.cons_eq_cons.mp (shape.symm.trans whole)
      exact (exists_openWith_eq whole tails unfinished).imp fun s leads => .lead leads
    | cons b' p =>
      obtain ⟨s, opens⟩ := ih whole (List.cons_ne_nil _ _) (List.cons_ne_nil _ _)
      obtain ⟨rfl, rfl⟩ := List.cons_eq_cons.mp (shape.symm.trans whole)
      exact opens.exists_next whole (List.forall_mem_append.mp tails).2 unfinished

end Character

/-- What makes up a maximal subpart is lost, and the decoder goes on as if it were not there. -/
theorem decode_of_maximalSubpart {part rest : List UInt8} (dropped : MaximalSubpart part rest) :
    decode (part ++ rest) = decode rest := by
  by_cases begins : Begins part
  · obtain ⟨c, q, whole⟩ := begins
    have unfinished : q ≠ [] := by
      rintro rfl
      rw [List.append_nil] at whole
      exact dropped.illFormed c (whole ▸ List.prefix_append ..)
    obtain ⟨s, opens⟩ := exists_opens whole.symm dropped.filled unfinished
    rw [decode_append_of_feeds opens.feeds_eq, List.nil_append]
    cases rest with
    | nil => rfl
    | cons b rest =>
      have stops : ¬ Begins (part ++ [b]) := by
        intro longer
        have bound := dropped.longest _ ((List.prefix_append_right_inj part).mpr ⟨rest, rfl⟩) longer
        rw [List.length_append, List.length_singleton] at bound
        omega
      rw [decodeFrom, opens.feed_of_not_begins stops, decode, decodeFrom]
  · obtain ⟨b, rfl⟩ := dropped.begins.resolve_left begins
    rw [List.singleton_append, decode, decodeFrom, feed_of_not_begins begins]
    rfl

/-- Where no character stands, there is a maximal subpart. -/
theorem exists_maximalSubpart {bs : List UInt8} (filled : bs ≠ []) (ill : ∀ c, ¬ String.utf8EncodeChar c <+: bs) :
    ∃ part rest, bs = part ++ rest ∧ MaximalSubpart part rest := by
  classical
  let n := Nat.findGreatest (fun n => Begins (bs.take n)) bs.length
  have within : n ≤ bs.length := Nat.findGreatest_le _
  have longest (longer : List UInt8) (front : longer <+: bs) (begins : Begins longer) : longer.length ≤ n := by
    refine Nat.le_findGreatest front.length_le ?_
    rwa [← List.prefix_iff_eq_take.mp front]
  rcases Nat.eq_zero_or_pos n with none | some
  · obtain ⟨b, rest, rfl⟩ := List.exists_cons_of_ne_nil filled
    refine ⟨[b], rest, rfl, ill, List.cons_ne_nil _ _, .inr ⟨b, rfl⟩, fun longer front begins => ?_⟩
    exact Nat.le_trans (longest longer front begins) (Nat.le_trans (Nat.le_of_eq none) (Nat.zero_le _))
  · have begins : Begins (bs.take n) :=
      Nat.findGreatest_spec (P := fun n => Begins (bs.take n)) (Nat.zero_le _) ⟨'a', List.nil_prefix⟩
    have length : (bs.take n).length = n := by rw [List.length_take, Nat.min_eq_left within]
    have whole := List.take_append_drop n bs
    refine ⟨bs.take n, bs.drop n, whole.symm, ?_, fun nil => ?_, .inl begins, fun longer front starts => ?_⟩
    · rwa [whole]
    · rw [nil] at length
      exact absurd length (Nat.ne_of_lt some)
    · rw [whole] at front
      rw [length]
      exact longest longer front starts

theorem Decodes.eq_decode {bs : List UInt8} {cs : List Char} (decodes : Decodes bs cs) : cs = decode bs := by
  induction decodes with
  | nil => rfl
  | char c later ih =>
    rw [decode_append_of_feeds (feeds_utf8EncodeChar c), ih]
    rfl
  | drop dropped later ih => rw [decode_of_maximalSubpart dropped, ih]

theorem decodes_decode (bs : List UInt8) : Decodes bs (decode bs) := by
  induction length : bs.length using Nat.strong_induction_on generalizing bs with
  | _ n ih =>
    subst length
    by_cases filled : bs = []
    · subst filled
      exact .nil
    · by_cases well : ∃ c, String.utf8EncodeChar c <+: bs
      · obtain ⟨c, rest, rfl⟩ := well
        obtain ⟨b, t, shape, -⟩ := exists_utf8EncodeChar_eq c
        rw [decode_append_of_feeds (feeds_utf8EncodeChar c)]
        refine .char c (ih rest.length ?_ rest rfl)
        rw [shape, List.length_append, List.length_cons]
        omega
      · obtain ⟨part, rest, rfl, dropped⟩ := exists_maximalSubpart filled (not_exists.mp well)
        have shorter := List.length_pos_iff.mpr dropped.filled
        rw [decode_of_maximalSubpart dropped]
        refine .drop dropped (ih rest.length ?_ rest rfl)
        rw [List.length_append]
        omega

/-- The decoder decodes as if it saw all bytes at once. -/
theorem decodes_iff {bs : List UInt8} {cs : List Char} : Decodes bs cs ↔ cs = decode bs := by
  constructor
  · exact Decodes.eq_decode
  · rintro rfl
    exact decodes_decode bs

end TreeShell.Utf8
