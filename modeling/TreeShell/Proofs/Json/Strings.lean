import TreeShell.Json.Reader
import TreeShell.Json.Writer
import Mathlib.Tactic.SplitIfs

/-! # JSON strings are read back

Inside a string every character is written in printable ASCII: as itself, behind a backslash, or as the
`\u` escapes of its UTF-16 units. The reader takes what is written for a character to just that character,
whatever follows (`Json.readString_escapedChar`): no character is a surrogate, so a unit that stands alone
never forms a pair with the one behind it.
-/

namespace TreeShell

/-! ## Hexadecimal digits -/

namespace Text

theorem hexPadded_one {n : Nat} (small : n < 16) : hexPadded 1 n = [n.digitChar] := by
  rw [hexPadded, Nat.toDigits_of_lt_base small]
  rfl

theorem hexPadded_succ (width n : Nat) :
    hexPadded (width + 2) n = hexPadded (width + 1) (n / 16) ++ [(n % 16).digitChar] := by
  rw [hexPadded, hexPadded]
  by_cases small : n < 16
  · rw [Nat.toDigits_of_lt_base small, Nat.div_eq_of_lt small, Nat.mod_eq_of_lt small, Nat.toDigits_zero]
    simp [List.replicate_succ']
  · rw [Nat.toDigits_of_base_le (by decide) (Nat.not_lt.mp small)]
    simp

theorem hexPadded_four {n : Nat} (small : n < 0x10000) :
    hexPadded 4 n =
      [(n / 16 / 16 / 16).digitChar, (n / 16 / 16 % 16).digitChar, (n / 16 % 16).digitChar, (n % 16).digitChar] := by
  rw [hexPadded_succ, hexPadded_succ, hexPadded_succ, hexPadded_one (by omega)]
  rfl

end Text

namespace Json

theorem hexDigit?_digitChar : ∀ d < 16, hexDigit? d.digitChar = some d := by
  decide

theorem unit?_digits {n : Nat} (small : n < 0x10000) :
    unit? (n / 16 / 16 / 16).digitChar (n / 16 / 16 % 16).digitChar (n / 16 % 16).digitChar (n % 16).digitChar =
      some n := by
  rw [unit?, hexDigit?_digitChar _ (by omega), hexDigit?_digitChar _ (by omega), hexDigit?_digitChar _ (by omega),
    hexDigit?_digitChar _ (by omega)]
  change some _ = some n
  congr 1
  omega

/-! ## One character -/

/-- What is read when a character stands before the rest of a string. -/
def prepend (c : Char) (read : Option (List Char × List Char)) : Option (List Char × List Char) :=
  read.map fun p => (c :: p.1, p.2)

theorem bind_eq_prepend (c : Char) (read : Option (List Char × List Char)) :
    (do let (cs, after) ← read; return (c :: cs, after)) = prepend c read := by
  cases read <;> rfl

section Cases

-- The equations of the reader are slow to derive, so this is done before the lemmas that each need one of them.
attribute [local simp] readString

theorem readString_quote (rest : List Char) : readString ('"' :: rest) = some ([], rest) := by
  simp

theorem readString_plain {c : Char} (unquoted : c ≠ '"') (unescaped : c ≠ '\\') (rest : List Char) :
    readString (c :: rest) = prepend c (readString rest) := by
  rw [readString.eq_5]
  · exact bind_eq_prepend c _
  · exact unquoted
  · exact fun _ _ _ _ _ same => absurd same unescaped
  · exact fun _ _ same => absurd same unescaped

theorem readString_simple {e c : Char} (code : simpleEscape? e = some c) (rest : List Char) :
    readString ('\\' :: e :: rest) = prepend c (readString rest) := by
  rw [readString.eq_4, code]
  · exact bind_eq_prepend c _
  · rintro _ _ _ _ _ rfl
    exact absurd code (by simp [simpleEscape?])

theorem readString_of_unread {a b c d : Char} (unread : unit? a b c d = none) (rest : List Char) :
    readString ('\\' :: 'u' :: a :: b :: c :: d :: rest) = none := by
  rw [readString.eq_3, unread]
  rfl

/-- A unit that opens no pair is a character by itself, also before the escape of another unit. -/
theorem readString_unit {a b c d : Char} {u : Nat} (unit : unit? a b c d = some u) (single : isHighSurrogate u = false)
    (rest : List Char) :
    readString ('\\' :: 'u' :: a :: b :: c :: d :: rest) = prepend (loneUnit u) (readString rest) := by
  rw [readString.eq_3, unit, Option.bind_eq_bind, Option.bind_some]
  split
  · next e f g h rest' =>
    cases follows : unit? e f g h with
    | none =>
      rw [readString_of_unread follows]
      rfl
    | some v =>
      rw [single]
      exact bind_eq_prepend _ _
  · exact bind_eq_prepend _ _

theorem readString_pair {a b c d e f g h : Char} {u v : Nat} (first : unit? a b c d = some u)
    (second : unit? e f g h = some v) (high : isHighSurrogate u = true) (low : isLowSurrogate v = true)
    (rest : List Char) :
    readString ('\\' :: 'u' :: a :: b :: c :: d :: '\\' :: 'u' :: e :: f :: g :: h :: rest) =
      prepend (Char.ofNat (0x10000 + (u - 0xD800) * 0x400 + (v - 0xDC00))) (readString rest) := by
  rw [readString.eq_3, first, Option.bind_eq_bind, Option.bind_some]
  simp only [second, Option.bind_eq_bind, Option.bind_some, high, low]
  exact bind_eq_prepend _ _

end Cases

theorem readString_unitEscape {u : Nat} (small : u < 0x10000) (single : ¬ (0xD800 ≤ u ∧ u ≤ 0xDFFF))
    (rest : List Char) :
    readString (unitEscape u ++ rest) = prepend (Char.ofNat u) (readString rest) := by
  have alone : loneUnit u = Char.ofNat u := if_neg single
  have unpaired : isHighSurrogate u = false := by
    simp only [isHighSurrogate, Bool.and_eq_false_iff, decide_eq_false_iff_not]
    omega
  rw [unitEscape, Text.hexPadded_four small, ← alone]
  exact readString_unit (unit?_digits small) unpaired rest

theorem readString_surrogates {n : Nat} (supplementary : 0x10000 ≤ n) (bounded : n < 0x110000) (rest : List Char) :
    readString (unitEscape (0xD800 + (n - 0x10000) / 0x400) ++ unitEscape (0xDC00 + (n - 0x10000) % 0x400) ++ rest) =
      prepend (Char.ofNat n) (readString rest) := by
  have high : 0xD800 + (n - 0x10000) / 0x400 ≤ 0xDBFF := by omega
  have low : 0xDC00 + (n - 0x10000) % 0x400 ≤ 0xDFFF := by omega
  have joined : 0x10000 + (0xD800 + (n - 0x10000) / 0x400 - 0xD800) * 0x400 +
      (0xDC00 + (n - 0x10000) % 0x400 - 0xDC00) = n := by omega
  rw [unitEscape, unitEscape, Text.hexPadded_four (by omega), Text.hexPadded_four (by omega)]
  refine (readString_pair (unit?_digits (by omega)) (unit?_digits (by omega)) ?_ ?_ rest).trans ?_
  · simp [isHighSurrogate, high]
  · simp [isLowSurrogate, low]
  · rw [joined]

/-- What is written for a character is read as just that character. -/
theorem readString_escapedChar (c : Char) (rest : List Char) :
    readString (escapedChar c ++ rest) = prepend c (readString rest) := by
  have scalar : c.toNat < 0xD800 ∨ 0xDFFF < c.toNat ∧ c.toNat < 0x110000 := c.valid
  unfold escapedChar
  split_ifs with quoted newline carriage tab backspace feed printable basic
  · rcases quoted with rfl | rfl
    · exact readString_simple rfl rest
    · exact readString_simple rfl rest
  · exact newline ▸ readString_simple rfl rest
  · exact carriage ▸ readString_simple rfl rest
  · exact tab ▸ readString_simple rfl rest
  · exact backspace ▸ readString_simple rfl rest
  · exact feed ▸ readString_simple rfl rest
  · exact readString_plain (fun same => quoted (.inl same)) (fun same => quoted (.inr same)) rest
  · rw [readString_unitEscape (by omega) (by omega), Char.ofNat_toNat]
  · rw [readString_surrogates (by omega) (by omega), Char.ofNat_toNat]

/-! ## A whole string -/

/-- A text between quotes is read back, and what follows it is left. -/
theorem readString_flatMap (cs rest : List Char) :
    readString (cs.flatMap escapedChar ++ '"' :: rest) = some (cs, rest) := by
  induction cs with
  | nil => rw [List.flatMap_nil, List.nil_append, readString_quote]
  | cons c cs ih =>
    rw [List.flatMap_cons, List.append_assoc, readString_escapedChar, ih]
    rfl

/-! ## Printable ASCII -/

/-- Whether all characters are printable ASCII, the blank included. -/
def Visible (cs : List Char) : Prop :=
  ∀ c ∈ cs, 0x20 ≤ c.toNat ∧ c.toNat ≤ 0x7E

instance (cs : List Char) : Decidable (Visible cs) :=
  List.decidableBAll (fun c : Char => 0x20 ≤ c.toNat ∧ c.toNat ≤ 0x7E) cs

theorem Visible.cons {c : Char} {cs : List Char} (first : 0x20 ≤ c.toNat ∧ c.toNat ≤ 0x7E) (rest : Visible cs) :
    Visible (c :: cs) :=
  List.forall_mem_cons.mpr ⟨first, rest⟩

theorem Visible.append {cs ds : List Char} (front : Visible cs) (back : Visible ds) : Visible (cs ++ ds) :=
  List.forall_mem_append.mpr ⟨front, back⟩

theorem visible_unitEscape {u : Nat} (small : u < 0x10000) : Visible (unitEscape u) := by
  have digit : ∀ d < 16, 0x20 ≤ d.digitChar.toNat ∧ d.digitChar.toNat ≤ 0x7E := by decide
  rw [unitEscape, Text.hexPadded_four small]
  exact .cons (by decide) (.cons (by decide) (.cons (digit _ (by omega)) (.cons (digit _ (by omega))
    (.cons (digit _ (by omega)) (.cons (digit _ (by omega)) (List.forall_mem_nil _))))))

theorem visible_escapedChar (c : Char) : Visible (escapedChar c) := by
  have bounded : c.toNat < 0x110000 := by
    have scalar : c.toNat < 0xD800 ∨ 0xDFFF < c.toNat ∧ c.toNat < 0x110000 := c.valid
    omega
  unfold escapedChar
  split_ifs with quoted newline carriage tab backspace feed printable basic
  · rcases quoted with rfl | rfl <;> decide
  · decide
  · decide
  · decide
  · decide
  · decide
  · exact .cons printable (List.forall_mem_nil _)
  · exact visible_unitEscape (by omega)
  · exact .append (visible_unitEscape (by omega)) (visible_unitEscape (by omega))

theorem visible_stringChars (s : String) : Visible (stringChars s) := by
  have inside : Visible (s.toList.flatMap escapedChar) := by
    intro c member
    obtain ⟨d, -, written⟩ := List.mem_flatMap.mp member
    exact visible_escapedChar d c written
  exact .cons (by decide) (.append inside (by decide))

end Json

end TreeShell
