import TreeShell.Proofs.Assoc
import TreeShell.Proofs.Json.Strings
import Mathlib.Data.List.TakeWhile

/-! # Flat mappings are read back

A mapping of distinct names to texts, integers, truth values and nothing is written in printable ASCII
(`Json.visible_write`), and reading what is written gives the mapping with its entries in order
(`Json.read?_write`). The value of an entry ends at the comma or the brace behind it.
-/

namespace TreeShell

/-- Whether a value is neither a list, nor a mapping, nor a double precision number. -/
def Value.IsAtom : Value → Prop
  | .null | .bool _ | .int _ | .text _ => True
  | .real _ | .list _ | .mapping _ => False

namespace Json

/-- Whether a text goes on behind the value of an entry. -/
def IsDelimited (rest : List Char) : Prop :=
  ∃ after, rest = ',' :: after ∨ rest = '\x7d' :: after

/-! ## Integers -/

theorem takeDigits_toDigits (n : Nat) {rest : List Char} (delimited : IsDelimited rest) :
    takeDigits (Nat.toDigits 10 n ++ rest) = (Nat.toDigits 10 n, rest) := by
  have digits : ∀ c ∈ Nat.toDigits 10 n, c.isDigit = true := fun c member =>
    Nat.isDigit_of_mem_toDigits (by decide) (by decide) member
  rw [takeDigits, List.takeWhile_append_of_pos digits, List.dropWhile_append_of_pos digits]
  obtain ⟨after, rfl | rfl⟩ := delimited
  · rw [List.takeWhile_cons_of_neg (by decide), List.dropWhile_cons_of_neg (by decide), List.append_nil]
  · rw [List.takeWhile_cons_of_neg (by decide), List.dropWhile_cons_of_neg (by decide), List.append_nil]

theorem natOfDigits_toDigits (n : Nat) : natOfDigits (Nat.toDigits 10 n) = n := by
  have step : natOfDigits (Nat.toDigits 10 n) = Nat.ofDigitChars 10 (Nat.toDigits 10 n) 0 := by
    simp only [natOfDigits, Nat.ofDigitChars, Nat.mul_comm]
  rw [step, Nat.ofDigitChars_toDigits (by decide) (by decide)]

theorem readNumber_toDigits (negative : Bool) (n : Nat) {rest : List Char} (delimited : IsDelimited rest) :
    readNumber negative (Nat.toDigits 10 n ++ rest) = some (.int (if negative then -n else n), rest) := by
  have some_digit : (Nat.toDigits 10 n).isEmpty = false := by
    simp
  have whole : readFraction rest = (none, rest) ∧ readExponent rest = (none, rest) := by
    obtain ⟨after, rfl | rfl⟩ := delimited <;> exact ⟨rfl, rfl⟩
  simp [readNumber, takeDigits_toDigits n delimited, some_digit, whole.1, whole.2, natOfDigits_toDigits]

theorem toDigits_eq_cons (n : Nat) : ∃ d ds, Nat.toDigits 10 n = d :: ds ∧ d.isDigit = true := by
  cases spelled : Nat.toDigits 10 n with
  | nil => exact absurd spelled Nat.toDigits_ne_nil
  | cons d ds =>
    exact ⟨d, ds, rfl, Nat.isDigit_of_mem_toDigits (by decide) (by decide) (spelled ▸ List.mem_cons_self)⟩

theorem ne_of_isDigit {c d : Char} (digit : d.isDigit = true) (other : c.isDigit = false) : c ≠ d := by
  rintro rfl
  rw [digit] at other
  contradiction

theorem isSpace_of_isDigit {d : Char} (digit : d.isDigit = true) : isSpace d = false := by
  rw [Bool.eq_false_iff]
  intro blank
  simp only [isSpace, Bool.or_eq_true, decide_eq_true_eq] at blank
  rcases blank with ((rfl | rfl) | rfl) | rfl <;> exact absurd digit (by decide)

theorem afterWord?_eq_none (word : String) {w c : Char} {ws cs : List Char} (spelled : word.toList = w :: ws)
    (differs : w ≠ c) : afterWord? word (c :: cs) = none := by
  simp [afterWord?, spelled, differs]

/-- A number starts with a digit, so it is none of the words. -/
theorem readScalar_digit {d : Char} (digit : d.isDigit = true) (ds : List Char) :
    readScalar (d :: ds) = readNumber false (d :: ds) := by
  rw [readScalar.eq_2 _ fun rest same => ne_of_isDigit digit (by decide) (List.cons.inj same).1.symm,
    afterWord?_eq_none "null" rfl (ne_of_isDigit digit (by decide)),
    afterWord?_eq_none "true" rfl (ne_of_isDigit digit (by decide)),
    afterWord?_eq_none "false" rfl (ne_of_isDigit digit (by decide)),
    afterWord?_eq_none "NaN" rfl (ne_of_isDigit digit (by decide)),
    afterWord?_eq_none "Infinity" rfl (ne_of_isDigit digit (by decide))]
  rfl

/-! ## Values -/

@[simp] theorem skipSpace_blank (cs : List Char) : skipSpace (' ' :: cs) = skipSpace cs := rfl

theorem skipSpace_of_not_isSpace {c : Char} (solid : isSpace c = false) (cs : List Char) :
    skipSpace (c :: cs) = c :: cs :=
  List.dropWhile_cons_of_neg (by simp [solid])

section Blanks

-- As for strings, the equations are derived before the lemmas that each need one of them.
attribute [local simp] readValue readEntries

theorem readValue_blank (bound : Nat) (cs : List Char) : readValue bound (' ' :: cs) = readValue bound cs := by
  cases bound <;> simp

theorem readEntries_blank (bound : Nat) (cs : List Char) : readEntries bound (' ' :: cs) = readEntries bound cs := by
  cases bound <;> simp

end Blanks

/-- A value that begins with none of the three brackets is a scalar. -/
theorem readValue_scalar {c : Char} (solid : isSpace c = false) (unquoted : '"' ≠ c) (unlisted : '[' ≠ c)
    (unmapped : '\x7b' ≠ c) (bound : Nat) (cs : List Char) :
    readValue (bound + 1) (c :: cs) = readScalar (c :: cs) := by
  rw [readValue, skipSpace_of_not_isSpace solid]
  split
  · next same => exact absurd (List.cons.inj same).1.symm unquoted
  · next same => exact absurd (List.cons.inj same).1.symm unlisted
  · next same => exact absurd (List.cons.inj same).1.symm unmapped
  · rfl

theorem readValue_toDigits (bound n : Nat) {rest : List Char} (delimited : IsDelimited rest) :
    readValue (bound + 1) (Nat.toDigits 10 n ++ rest) = some (.int n, rest) := by
  have read := readNumber_toDigits false n delimited
  obtain ⟨d, ds, spelled, digit⟩ := toDigits_eq_cons n
  rw [spelled] at read ⊢
  rw [List.cons_append, readValue_scalar (isSpace_of_isDigit digit) (ne_of_isDigit digit (by decide))
    (ne_of_isDigit digit (by decide)) (ne_of_isDigit digit (by decide)), readScalar_digit digit]
  exact read

theorem readValue_minus (bound n : Nat) {rest : List Char} (delimited : IsDelimited rest) :
    readValue (bound + 1) ('-' :: (Nat.toDigits 10 n ++ rest)) = some (.int (-n), rest) := by
  have read := readNumber_toDigits true n delimited
  obtain ⟨d, ds, spelled, digit⟩ := toDigits_eq_cons n
  rw [spelled] at read ⊢
  rw [readValue_scalar (by decide) (by decide) (by decide) (by decide), readScalar, List.cons_append,
    afterWord?_eq_none "Infinity" rfl (ne_of_isDigit digit (by decide))]
  exact read

theorem readValue_stringChars (bound : Nat) (s : String) (rest : List Char) :
    readValue (bound + 1) (stringChars s ++ rest) = some (.text s, rest) := by
  have read := readString_flatMap s.toList rest
  rw [stringChars, List.append_assoc, List.singleton_append, List.cons_append, readValue,
    skipSpace_of_not_isSpace (by decide)]
  simp only [read, Option.map_some, String.ofList_toList]

theorem toList_toString_ofNat (n : Nat) : (toString (Int.ofNat n)).toList = Nat.toDigits 10 n :=
  Nat.toList_repr

theorem toList_toString_negSucc (n : Nat) : (toString (Int.negSucc n)).toList = '-' :: Nat.toDigits 10 (n + 1) := by
  change ("-" ++ (n + 1).repr).toList = _
  rw [String.toList_append, Nat.toList_repr]
  rfl

/-- An atom is read back, and what goes on behind it is left. -/
theorem readValue_atom {v : Value} (atom : v.IsAtom) (bound : Nat) {rest : List Char} (delimited : IsDelimited rest) :
    readValue (bound + 1) (valueChars v ++ rest) = some (v, rest) := by
  cases v with
  | null =>
    rw [valueChars]
    exact readValue_scalar (by decide) (by decide) (by decide) (by decide) bound _
  | bool b =>
    cases b <;> rw [valueChars] <;>
      exact readValue_scalar (by decide) (by decide) (by decide) (by decide) bound _
  | int n =>
    rw [valueChars]
    cases n with
    | ofNat n => exact toList_toString_ofNat n ▸ readValue_toDigits bound n delimited
    | negSucc n =>
      rw [toList_toString_negSucc, List.cons_append]
      exact readValue_minus bound (n + 1) delimited
  | text s =>
    rw [valueChars]
    exact readValue_stringChars bound s rest
  | real x => exact atom.elim
  | list items => exact atom.elim
  | mapping entries => exact atom.elim

/-! ## Entries -/

/-- A name with its value. -/
def entryText (name : String) (v : Value) : List Char :=
  stringChars name ++ ':' :: ' ' :: valueChars v

section Written

attribute [local simp] valueChars entryChars

theorem entryChars_nil : entryChars [] = ['\x7d'] := by
  simp

theorem entryChars_cons (name : String) (v : Value) (entries : List (String × Value)) :
    entryChars ((name, v) :: entries) = ',' :: ' ' :: (entryText name v ++ entryChars entries) := by
  simp [entryText]

theorem valueChars_mapping_cons (name : String) (v : Value) (entries : List (String × Value)) :
    valueChars (.mapping ((name, v) :: entries)) = '\x7b' :: (entryText name v ++ entryChars entries) := by
  simp [entryText]

end Written

/-- An entry begins with the quote of its name. -/
theorem entryText_append (name : String) (v : Value) (rest : List Char) :
    entryText name v ++ rest =
      '"' :: (name.toList.flatMap escapedChar ++ '"' :: ':' :: ' ' :: (valueChars v ++ rest)) := by
  simp [entryText, stringChars]

/-- What stands behind an entry says whether the mapping goes on. -/
theorem readEntries_entryText (name : String) {v : Value} (atom : v.IsAtom) (bound : Nat) (rest : List Char) :
    readEntries (bound + 2) (entryText name v ++ '\x7d' :: rest) = some ([(name, v)], rest) ∧
      readEntries (bound + 2) (entryText name v ++ ',' :: rest) =
        (readEntries (bound + 1) rest).map fun read => ((name, v) :: read.1, read.2) := by
  have named := fun after => readString_flatMap name.toList (':' :: ' ' :: (valueChars v ++ after))
  have valued := fun {after} (delimited : IsDelimited after) =>
    (readValue_blank (bound + 1) _).trans (readValue_atom atom bound delimited)
  constructor
  · rw [entryText_append, readEntries, skipSpace_of_not_isSpace (by decide)]
    simp [named, skipSpace_of_not_isSpace, isSpace, valued ⟨rest, .inr rfl⟩]
  · rw [entryText_append, readEntries, skipSpace_of_not_isSpace (by decide)]
    simp only [named, Option.bind_eq_bind, Option.bind_some, isSpace, Char.reduceEq, decide_false, Bool.or_self,
      skipSpace_of_not_isSpace, valued ⟨rest, .inl rfl⟩, String.ofList_toList]
    cases readEntries (bound + 1) rest <;> rfl

/-- The entries of a mapping are read back up to its brace. -/
theorem readEntries_entryChars {entries : List (String × Value)} (atoms : ∀ e ∈ entries, e.2.IsAtom)
    (name : String) {v : Value} (atom : v.IsAtom) {bound : Nat} (enough : entries.length + 2 ≤ bound)
    (rest : List Char) :
    readEntries bound (entryText name v ++ (entryChars entries ++ rest)) = some ((name, v) :: entries, rest) := by
  induction entries generalizing name v bound with
  | nil =>
    obtain ⟨fewer, rfl⟩ := Nat.exists_eq_add_of_le' enough
    rw [entryChars_nil]
    exact (readEntries_entryText name atom fewer rest).1
  | cons e entries ih =>
    obtain ⟨next, w⟩ := e
    have later := List.forall_mem_cons.mp atoms
    obtain ⟨fewer, rfl⟩ := Nat.exists_eq_add_of_le' enough
    rw [entryChars_cons, List.cons_append, ← Nat.add_assoc, (readEntries_entryText name atom _ _).2, List.cons_append,
      readEntries_blank, List.append_assoc, ih later.2 next later.1 (by rw [List.length_cons]; omega)]
    rfl

theorem length_le_length_entryChars (entries : List (String × Value)) :
    entries.length ≤ (entryChars entries).length := by
  induction entries with
  | nil => exact Nat.zero_le _
  | cons e entries ih =>
    rw [entryChars_cons]
    simp only [List.length_cons, List.length_append]
    omega

theorem readValue_entryText (bound : Nat) (name : String) (v : Value) (rest : List Char) :
    readValue (bound + 1) ('\x7b' :: (entryText name v ++ rest)) =
      (readEntries bound (entryText name v ++ rest)).map fun read => (.mapping (Assoc.ofPairs read.1), read.2) := by
  rw [readValue, skipSpace_of_not_isSpace (by decide)]
  simp only [entryText_append, skipSpace_of_not_isSpace (show isSpace '"' = false by decide)]
  rfl

/-- A mapping of distinct names to atoms is read back from what is written for it. -/
theorem read?_write {entries : List (String × Value)} (distinct : (Assoc.names entries).Nodup)
    (atoms : ∀ e ∈ entries, e.2.IsAtom) : read? (write (.mapping entries)) = some (.mapping entries) := by
  cases entries with
  | nil =>
    rw [write, valueChars]
    rfl
  | cons e entries =>
    obtain ⟨name, v⟩ := e
    have parts := List.forall_mem_cons.mp atoms
    have enough : entries.length + 2 ≤ ('\x7b' :: (entryText name v ++ entryChars entries)).length := by
      have counted := length_le_length_entryChars entries
      simp only [entryText_append, List.length_cons, List.length_append]
      omega
    have read := readEntries_entryChars parts.2 name parts.1 enough []
    rw [List.append_nil] at read
    rw [read?, write, valueChars_mapping_cons, String.toList_ofList]
    simp only [readValue_entryText, read, Option.map_some, Assoc.ofPairs_of_nodup distinct]
    rfl

/-! ## Printable ASCII -/

theorem visible_digits (n : Nat) : Visible (Nat.toDigits 10 n) := by
  intro c member
  have digit : c.isDigit = true := Nat.isDigit_of_mem_toDigits (by decide) (by decide) member
  have bounds := Char.isDigit_iff_toNat.mp digit
  exact ⟨le_trans (by decide) bounds.1, bounds.2.trans (by decide)⟩

theorem visible_valueChars {v : Value} (atom : v.IsAtom) : Visible (valueChars v) := by
  cases v with
  | null => rw [valueChars]; decide
  | bool b => cases b <;> rw [valueChars] <;> decide
  | int n =>
    rw [valueChars]
    cases n with
    | ofNat n => exact toList_toString_ofNat n ▸ visible_digits n
    | negSucc n =>
      rw [toList_toString_negSucc]
      exact .cons (by decide) (visible_digits (n + 1))
  | text s =>
    rw [valueChars]
    exact visible_stringChars s
  | real x => exact atom.elim
  | list items => exact atom.elim
  | mapping entries => exact atom.elim

theorem visible_entryText (name : String) {v : Value} (atom : v.IsAtom) : Visible (entryText name v) :=
  .append (visible_stringChars name) (.cons (by decide) (.cons (by decide) (visible_valueChars atom)))

theorem visible_entryChars {entries : List (String × Value)} (atoms : ∀ e ∈ entries, e.2.IsAtom) :
    Visible (entryChars entries) := by
  induction entries with
  | nil =>
    rw [entryChars_nil]
    decide
  | cons e entries ih =>
    obtain ⟨name, v⟩ := e
    have parts := List.forall_mem_cons.mp atoms
    rw [entryChars_cons]
    exact .cons (by decide) (.cons (by decide) (.append (visible_entryText name parts.1) (ih parts.2)))

/-- A mapping to atoms is written in printable ASCII. -/
theorem visible_write {entries : List (String × Value)} (atoms : ∀ e ∈ entries, e.2.IsAtom) :
    Visible (write (.mapping entries)).toList := by
  rw [write, String.toList_ofList]
  cases entries with
  | nil =>
    rw [valueChars]
    decide
  | cons e entries =>
    obtain ⟨name, v⟩ := e
    have parts := List.forall_mem_cons.mp atoms
    rw [valueChars_mapping_cons]
    exact .cons (by decide) (.append (visible_entryText name parts.1) (visible_entryChars parts.2))

end Json

end TreeShell
