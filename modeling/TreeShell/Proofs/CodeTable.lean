import TreeShell.Escape

/-! # Reading code words back

A table is lawful if its code words can be told apart where they begin: none begins another, and each
starts with a character that is itself written as a word. Then decoding undoes encoding
(`decode_encode`), so encoding is injective. Both tables in use are lawful, and what they write is free
of the characters that a store refuses.
-/

namespace TreeShell.CodeTable

/-- Whether the words of a table can be told apart. -/
structure Lawful (t : CodeTable) : Prop where
  prefixFree : ∀ a ∈ t.codes, ∀ b ∈ t.codes, a.2 <+: b.2 → a = b
  marked : ∀ a ∈ t.codes, a.2.head?.any (fun c => (t.codes.lookup c).isSome)

theorem lawful_segment : segment.Lawful := ⟨by decide, by decide⟩

theorem lawful_identity : identity.Lawful := ⟨by decide, by decide⟩

variable {t : CodeTable} {c : Char} {w : List Char}

theorem mem_codes_of_lookup (found : t.codes.lookup c = some w) : (c, w) ∈ t.codes := by
  obtain ⟨before, after, parts, -⟩ := List.lookup_eq_some_iff.mp found
  exact parts ▸ List.mem_append_right _ (List.mem_cons_self ..)

theorem word_of_lookup (found : t.codes.lookup c = some w) : t.word c = w := by
  simp [word, found]

theorem word_of_plain (plain : t.codes.lookup c = none) : t.word c = [c] := by
  simp [word, plain]

namespace Lawful

/-- A word is recognized whatever follows it. -/
theorem match?_word (lawful : t.Lawful) (found : t.codes.lookup c = some w) (rest : List Char) :
    t.match? (w ++ rest) = some (c, w) := by
  have member := mem_codes_of_lookup found
  have some_match : (t.match? (w ++ rest)).isSome := by
    rw [match?, List.find?_isSome]
    exact ⟨_, member, List.isPrefixOf_iff_prefix.mpr (List.prefix_append w rest)⟩
  obtain ⟨code, matched⟩ := Option.isSome_iff_exists.mp some_match
  have listed := List.mem_of_find?_eq_some matched
  have begins := List.find?_some matched
  rw [List.isPrefixOf_iff_prefix] at begins
  rw [matched]
  rcases List.prefix_or_prefix_of_prefix begins (List.prefix_append w rest) with shorter | longer
  · rw [lawful.prefixFree _ listed _ member shorter]
  · rw [lawful.prefixFree _ member _ listed longer]

/-- No word begins at a character that stands for itself. -/
theorem match?_plain (lawful : t.Lawful) (plain : t.codes.lookup c = none) (rest : List Char) :
    t.match? (c :: rest) = none := by
  rw [match?, List.find?_eq_none]
  intro code listed begins
  have marked := lawful.marked _ listed
  obtain ⟨tail, glued⟩ := List.isPrefixOf_iff_prefix.mp begins
  cases word : code.2 with
  | nil => simp [word] at marked
  | cons first others =>
    rw [word, List.cons_append, List.cons.injEq] at glued
    simp [word, glued.1, plain] at marked

theorem exists_cons_of_lookup (lawful : t.Lawful) (found : t.codes.lookup c = some w) :
    ∃ first rest, w = first :: rest := by
  have marked := lawful.marked _ (mem_codes_of_lookup found)
  cases w with
  | nil => simp at marked
  | cons first rest => exact ⟨first, rest, rfl⟩

end Lawful

/-- Characters that the last word covers are passed over. -/
theorem decodeAfter_append (covered rest : List Char) :
    t.decodeAfter covered.length (covered ++ rest) = t.decodeAfter 0 rest := by
  induction covered with
  | nil => rfl
  | cons c covered ih => exact ih

/-- Decoding undoes encoding. -/
theorem decode_encode (lawful : t.Lawful) (cs : List Char) : t.decode (t.encode cs) = cs := by
  induction cs with
  | nil => rfl
  | cons c cs ih =>
    rw [decode, encode] at ih
    rw [decode, encode, List.flatMap_cons]
    cases found : t.codes.lookup c with
    | none =>
      rw [word_of_plain found, List.singleton_append, decodeAfter, lawful.match?_plain found]
      exact congrArg (c :: ·) ih
    | some w =>
      have matched := lawful.match?_word found (cs.flatMap t.word)
      obtain ⟨first, rest, rfl⟩ := lawful.exists_cons_of_lookup found
      rw [List.cons_append] at matched
      rw [word_of_lookup found, List.cons_append, decodeAfter, matched]
      simp only [List.length_cons, Nat.add_sub_cancel, decodeAfter_append, ih]

@[simp] theorem unescape_escape (lawful : t.Lawful) (s : String) : t.unescape (t.escape s) = s := by
  simp [unescape, escape, decode_encode lawful]

theorem escape_inj (lawful : t.Lawful) {s s' : String} : t.escape s = t.escape s' ↔ s = s' := by
  refine ⟨fun same => ?_, congrArg _⟩
  rw [← unescape_escape lawful s, same, unescape_escape lawful]

theorem escape_eq_empty_iff (lawful : t.Lawful) {s : String} : t.escape s = "" ↔ s = "" := by
  have empty : t.escape "" = "" := by simp [escape, encode]
  refine ⟨fun blank => (escape_inj lawful).mp (blank.trans empty.symm), fun blank => ?_⟩
  rw [blank, empty]

/-- A character that is written as a word and stands in no word never comes out. -/
theorem not_mem_encode {x : Char} (special : (t.codes.lookup x).isSome) (free : ∀ a ∈ t.codes, x ∉ a.2)
    (cs : List Char) : x ∉ t.encode cs := by
  rw [encode, List.mem_flatMap]
  rintro ⟨c, -, inside⟩
  cases found : t.codes.lookup c with
  | none =>
    rw [word_of_plain found, List.mem_singleton] at inside
    simp [inside, found] at special
  | some w =>
    rw [word_of_lookup found] at inside
    exact free _ (mem_codes_of_lookup found) inside

theorem slash_not_mem_escape_segment (s : String) : '/' ∉ (segment.escape s).toList := by
  rw [escape, String.toList_ofList]
  exact not_mem_encode (by decide) (by decide) _

end TreeShell.CodeTable
