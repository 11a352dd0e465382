import Mathlib.Data.List.TakeWhile
import TreeShell.Proofs.Text.Split

/-! # First words

What a stage of a line is, is told by its first word. `firstWord` reads it off the characters, and `firstWords` those of
all the pieces between separators. Blanks at the ends of a text are no part of any of them (`firstWords_trim`), and a mark
behind a word belongs to the word unless a blank stands between the two (`firstWord_mark_iff`).
-/

namespace TreeShell.Text

/-- The first word among some characters, empty if they are all blank. -/
def firstWord (cs : List Char) : List Char :=
  (cs.dropWhile isBlank).takeWhile fun c => !isBlank c

/-- The first words of the pieces between the occurrences of a separator. -/
def firstWords (sep : Char) (cs : List Char) : List (List Char) :=
  (cs.splitOn sep).map firstWord

theorem map_firstWord_split (sep : Char) (s : String) :
    (split sep s).map (fun piece => firstWord piece.toList) = firstWords sep s.toList := by
  simp [split, firstWords, Function.comp_def]

variable {sep c : Char} {cs lead trail : List Char}

/-! ## Words and first words -/

theorem head?_splitOnP (p : Char → Bool) (cs : List Char) :
    (cs.splitOnP p).head? = some (cs.takeWhile fun c => !p c) := by
  induction cs with
  | nil => simp
  | cons c rest ih =>
    rw [List.splitOnP_cons_eq_if_modifyHead, List.takeWhile_cons]
    cases blank : p c with
    | true => simp
    | false => simp [ih]

theorem firstWord_cons (blank : isBlank c = true) (cs : List Char) : firstWord (c :: cs) = firstWord cs := by
  rw [firstWord, List.dropWhile_cons_of_pos blank, firstWord]

/-- The first of the words is the first word, if there is one. -/
theorem head?_words (s : String) :
    (words s).head? = if firstWord s.toList = [] then none else some (String.ofList (firstWord s.toList)) := by
  rw [words, List.head?_map]
  generalize s.toList = cs
  induction cs with
  | nil => rfl
  | cons c rest ih =>
    have first := head?_splitOnP isBlank rest
    rw [List.splitOnP_cons_eq_if_modifyHead]
    cases blank : isBlank c with
    | true =>
      rw [if_pos rfl, firstWord_cons blank, ← ih]
      rfl
    | false =>
      obtain ⟨later, pieces⟩ := List.head?_eq_some_iff.mp first
      rw [if_neg Bool.false_ne_true, pieces, firstWord, List.dropWhile_cons_of_neg (by simp [blank]),
        List.takeWhile_cons_of_pos (by simp [blank])]
      rfl

theorem head?_words_eq_some_iff {s w : String} (filled : w ≠ "") :
    (words s).head? = some w ↔ firstWord s.toList = w.toList := by
  rw [head?_words]
  have some : w.toList ≠ [] := fun nil => filled (String.toList_injective nil)
  constructor
  · intro same
    split at same
    · cases same
    · rw [← Option.some.inj same, String.toList_ofList]
  · intro same
    rw [same, if_neg some, String.ofList_toList]

/-! ## Blanks at the ends -/

theorem firstWord_append_lead (blank : ∀ c ∈ lead, isBlank c = true) (cs : List Char) :
    firstWord (lead ++ cs) = firstWord cs := by
  induction lead with
  | nil => rfl
  | cons c rest ih =>
    obtain ⟨first, later⟩ := List.forall_mem_cons.mp blank
    rw [List.cons_append, firstWord_cons first, ih later]

theorem firstWord_append_trail (cs : List Char) (blank : ∀ c ∈ trail, isBlank c = true) :
    firstWord (cs ++ trail) = firstWord cs := by
  have dropped : trail.dropWhile isBlank = [] := List.dropWhile_eq_nil_iff.mpr blank
  have taken : trail.takeWhile (fun c => !isBlank c) = [] := by
    cases trail with
    | nil => rfl
    | cons c rest => exact List.takeWhile_cons_of_neg (by simp [blank c (List.mem_cons_self ..)])
  rw [firstWord, firstWord, List.dropWhile_append]
  split
  · next nothing => rw [dropped, List.isEmpty_iff.mp nothing]
  · rw [List.takeWhile_append]
    split
    · next whole => rw [taken, List.append_nil, (List.takeWhile_prefix _).eq_of_length whole]
    · rfl

theorem firstWords_append (sep : Char) (cs ds : List Char) :
    firstWords sep (cs ++ sep :: ds) = firstWords sep cs ++ firstWords sep ds := by
  rw [firstWords, List.splitOn_append_cons_self, List.map_append, firstWords, firstWords]

theorem firstWords_of_not_mem (free : sep ∉ cs) : firstWords sep cs = [firstWord cs] := by
  rw [firstWords, List.splitOn_eq_singleton free, List.map_singleton]

/-- What stands before a text, without the separator, goes to the first piece; the later ones stay as they are. -/
theorem exists_firstWords (sep : Char) (cs : List Char) :
    ∃ first later, ∀ lead, sep ∉ lead → firstWords sep (lead ++ cs) = firstWord (lead ++ first) :: later := by
  by_cases member : sep ∈ cs
  · obtain ⟨first, rest, rfl, none⟩ := List.eq_append_cons_of_mem member
    refine ⟨first, firstWords sep rest, fun lead free => ?_⟩
    have both : sep ∉ lead ++ first := List.mem_append.not.mpr (not_or.mpr ⟨free, none⟩)
    rw [← List.append_assoc, firstWords_append, firstWords_of_not_mem both, List.singleton_append]
  · refine ⟨cs, [], fun lead free => ?_⟩
    exact firstWords_of_not_mem (List.mem_append.not.mpr (not_or.mpr ⟨free, member⟩))

/-- Blanks before a text are no part of the first piece, and it is the only one that they could be part of. -/
theorem firstWords_append_lead (blank : ∀ c ∈ lead, isBlank c = true) (solid : isBlank sep = false) (cs : List Char) :
    firstWords sep (lead ++ cs) = firstWords sep cs := by
  have free : sep ∉ lead := fun member => by simp [blank sep member] at solid
  obtain ⟨first, later, pieces⟩ := exists_firstWords sep cs
  rw [pieces lead free, firstWord_append_lead blank]
  exact (pieces [] List.not_mem_nil).symm

/-- So it is with blanks behind a text and the last piece. -/
theorem firstWords_append_trail (cs : List Char) (blank : ∀ c ∈ trail, isBlank c = true) (solid : isBlank sep = false) :
    firstWords sep (cs ++ trail) = firstWords sep cs := by
  have free : sep ∉ trail := fun member => by simp [blank sep member] at solid
  by_cases member : sep ∈ cs
  · obtain ⟨later, first, reversed, none⟩ := List.eq_append_cons_of_mem (List.mem_reverse.mpr member)
    obtain rfl : cs = first.reverse ++ sep :: later.reverse := by
      rw [← List.reverse_reverse cs, reversed]
      simp
    have none' : sep ∉ later.reverse := List.mem_reverse.not.mpr none
    have both : sep ∉ later.reverse ++ trail := List.mem_append.not.mpr (not_or.mpr ⟨none', free⟩)
    rw [List.append_assoc, List.cons_append, firstWords_append, firstWords_append, firstWords_of_not_mem both,
      firstWords_of_not_mem none', firstWord_append_trail _ blank]
  · have both : sep ∉ cs ++ trail := List.mem_append.not.mpr (not_or.mpr ⟨member, free⟩)
    rw [firstWords_of_not_mem both, firstWords_of_not_mem member, firstWord_append_trail _ blank]

/-- A text is what is left when it is trimmed, between blanks. What is left begins with none. -/
theorem exists_trim (s : String) : ∃ lead trail, (∀ c ∈ lead, isBlank c = true) ∧ (∀ c ∈ trail, isBlank c = true) ∧
    s.toList = lead ++ ((trim s).toList ++ trail) ∧ ∀ c ∈ (trim s).toList.head?, isBlank c = false := by
  have first := List.takeWhile_append_dropWhile (p := isBlank) (l := s.toList)
  have last := List.takeWhile_append_dropWhile (p := isBlank) (l := (s.toList.dropWhile isBlank).reverse)
  have trimmed : s.toList.dropWhile isBlank =
      (trim s).toList ++ ((s.toList.dropWhile isBlank).reverse.takeWhile isBlank).reverse := by
    rw [trim, String.toList_ofList, trimChars, ← List.reverse_append, last, List.reverse_reverse]
  refine ⟨s.toList.takeWhile isBlank, ((s.toList.dropWhile isBlank).reverse.takeWhile isBlank).reverse,
    fun c member => List.mem_takeWhile_imp member,
    fun c member => List.mem_takeWhile_imp (List.mem_reverse.mp member), by rw [← trimmed, first], fun c member => ?_⟩
  have head := List.head?_dropWhile_not isBlank s.toList
  rw [trimmed, List.head?_append, Option.mem_def.mp member] at head
  simpa using head

/-- No blank is to be dropped before a part that a trimmed text begins with. -/
theorem dropWhile_of_trim {s : String} {before rest : List Char} (whole : (trim s).toList = before ++ rest) :
    before.dropWhile isBlank = before := by
  obtain ⟨-, -, -, -, -, head⟩ := exists_trim s
  cases before with
  | nil => rfl
  | cons c later => exact List.dropWhile_cons_of_neg (by simp [head c (by rw [whole]; rfl)])

theorem firstWord_trim (s : String) : firstWord (trim s).toList = firstWord s.toList := by
  obtain ⟨lead, trail, before, behind, whole, -⟩ := exists_trim s
  rw [whole, firstWord_append_lead before, firstWord_append_trail _ behind]

theorem firstWords_trim (solid : isBlank sep = false) (s : String) :
    firstWords sep (trim s).toList = firstWords sep s.toList := by
  obtain ⟨lead, trail, before, behind, whole, -⟩ := exists_trim s
  rw [whole, firstWords_append_lead before solid, firstWords_append_trail _ behind solid]

/-! ## Marks behind a word -/

/-- A word is the first one before a mark exactly if it is the first one with the mark too, or the mark is glued to it. -/
theorem firstWord_mark_iff {mark : Char} {word : List Char} (solid : isBlank mark = false) (free : mark ∉ word)
    (before rest : List Char) :
    firstWord (before ++ mark :: rest) = word ↔ firstWord before = word ∧ before.dropWhile isBlank ≠ word := by
  have blankless : (mark :: rest).dropWhile isBlank = mark :: rest := List.dropWhile_cons_of_neg (by simp [solid])
  have taken : (mark :: rest).takeWhile (fun c => !isBlank c) = mark :: rest.takeWhile fun c => !isBlank c :=
    List.takeWhile_cons_of_pos (by simp [solid])
  have marked (early late : List Char) : early ++ mark :: late ≠ word := by
    rintro rfl
    exact free (List.mem_append_right _ (List.mem_cons_self ..))
  rw [firstWord, firstWord, List.dropWhile_append]
  generalize before.dropWhile isBlank = begun
  split
  · next nothing =>
    rw [List.isEmpty_iff] at nothing
    rw [blankless, taken, nothing]
    exact ⟨fun same => absurd same (marked [] _), fun same => absurd same.1 same.2⟩
  · rw [List.takeWhile_append, taken]
    split
    · next whole =>
      -- no blank stands before the mark, so the word goes on with it
      have all := (List.takeWhile_prefix _).eq_of_length whole
      rw [all]
      exact ⟨fun same => absurd same (marked _ _), fun same => absurd same.1 same.2⟩
    · next part =>
      refine ⟨fun same => ⟨same, fun glued => part ?_⟩, fun same => same.1⟩
      rw [same, glued]

end TreeShell.Text
