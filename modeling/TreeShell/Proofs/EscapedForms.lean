import TreeShell.Proofs.Key.Addresses

/-! # What escaped forms look like

An escaped form has no character that the store refuses inside a key, and read from left to right each of its backslashes
starts one of the escape words. There are no other conditions: what meets these two is the escaped form of just one text,
and reading it back and escaping it again changes nothing (`CodeTable.escapings_bijective`).
-/

namespace TreeShell.CodeTable

open Key (refused)

/-- The words that backslashes start in an escaped segment. -/
def segmentWords : List String :=
  ["\\\\", "\\period", "\\dollar", "\\hash", "\\lbracket", "\\rbracket", "\\slash"]

/-- The words that backslashes start in an escaped identity. -/
def identityWords : List String :=
  ["\\\\", "\\star", "\\dollar", "\\hash", "\\lbracket", "\\rbracket", "\\slash"]

/-- Whether each backslash of a text that is read from left to right starts one of some words. -/
inductive InPhase (words : List String) : List Char → Prop
  | nil : InPhase words []
  | plain {c : Char} {rest : List Char} (other : c ≠ '\\') (later : InPhase words rest) : InPhase words (c :: rest)
  | word {w : String} {rest : List Char} (listed : w ∈ words) (later : InPhase words rest) :
    InPhase words (w.toList ++ rest)

/-- Whether a text has no refused character, and only backslashes that start words. -/
def IsEscaped (words : List String) (k : String) : Prop :=
  (∀ c ∈ refused, c ∉ k.toList) ∧ InPhase words k.toList

/-- Whether a table spells out the backslash and what the store refuses, and apart from the given words only moves
characters. -/
structure Spells (t : CodeTable) (words : List String) : Prop where
  lawful : t.Lawful
  /-- Each character has at most one entry. -/
  functional : (t.codes.map (·.1)).Nodup
  backslash : (t.codes.lookup '\\').isSome
  spelled : refused.all fun c => (t.codes.lookup c).isSome && t.codes.all fun a => c ∉ a.2
  /-- A code is one of the words, or a single character that stands for another. -/
  coded : ∀ a ∈ t.codes, a.2 ∈ words.map String.toList ∨ a.2.length = 1 ∧ a.2 ≠ ['\\']
  /-- Each word is a code. -/
  listed : ∀ w ∈ words, w.toList ∈ t.codes.map (·.2)
  /-- A character that an escaped form can hold and that has an entry stands for another. -/
  moved : ∀ a ∈ t.codes, a.1 = '\\' ∨ a.1 ∈ refused ∨ [a.1] ∈ t.codes.map (·.2)

theorem spells_segment : segment.Spells segmentWords where
  lawful := lawful_segment
  functional := by decide
  backslash := by decide
  spelled := by decide
  coded := by decide
  listed := by decide
  moved := by decide

theorem spells_identity : identity.Spells identityWords where
  lawful := lawful_identity
  functional := by decide
  backslash := by decide
  spelled := by decide
  coded := by decide
  listed := by decide
  moved := by decide

namespace Spells

variable {t : CodeTable} {words : List String} {cs : List Char}

theorem refused_not_mem (spells : t.Spells words) (s : String) : ∀ c ∈ refused, c ∉ (t.escape s).toList :=
  Key.refused_not_mem_escape spells.spelled s

theorem lookup_of_mem (spells : t.Spells words) {a : Char × List Char} (member : a ∈ t.codes) :
    t.codes.lookup a.1 = some a.2 := by
  have functional := spells.functional
  obtain ⟨before, after, parts⟩ := List.append_of_mem member
  rw [parts, List.map_append, List.map_cons] at functional
  refine List.lookup_eq_some_iff.mpr ⟨before, after, parts, fun p earlier => ?_⟩
  have differs := (List.nodup_append.mp functional).2.2 p.1 (List.mem_map_of_mem earlier) a.1 (List.mem_cons_self ..)
  simpa using Ne.symm differs

theorem inPhase_encode (spells : t.Spells words) (cs : List Char) : InPhase words (t.encode cs) := by
  induction cs with
  | nil => exact .nil
  | cons c rest ih =>
    change InPhase words (t.word c ++ t.encode rest)
    cases found : t.codes.lookup c with
    | none =>
      have other : c ≠ '\\' := by
        rintro rfl
        exact absurd spells.backslash (by simp [found])
      rw [word_of_plain found]
      exact .plain other ih
    | some w =>
      rw [word_of_lookup found]
      rcases spells.coded _ (mem_codes_of_lookup found) with listed | ⟨single, other⟩
      · obtain ⟨word, listed, same⟩ := List.mem_map.mp listed
        rw [show w = word.toList from same.symm]
        exact .word listed ih
      · obtain ⟨d, rfl⟩ := List.length_eq_one_iff.mp single
        exact .plain (mt (congrArg List.singleton) other) ih

/-- A code in front is read as the character that it stands for. -/
theorem encode_cons_of_code (spells : t.Spells words) {code : List Char} (listed : code ∈ t.codes.map (·.2))
    (cs : List Char) :
    ∃ c, t.encode (c :: cs) = code ++ t.encode cs := by
  obtain ⟨a, member, rfl⟩ := List.mem_map.mp listed
  refine ⟨a.1, ?_⟩
  rw [encode, List.flatMap_cons, word_of_lookup (spells.lookup_of_mem member), encode]

theorem exists_encode_eq (spells : t.Spells words) (inPhase : InPhase words cs) (free : ∀ c ∈ refused, c ∉ cs) :
    ∃ ds, t.encode ds = cs := by
  induction inPhase with
  | nil => exact ⟨[], rfl⟩
  | @plain c rest other later ih =>
    obtain ⟨ds, rfl⟩ := ih fun c listed inside => free c listed (List.mem_cons_of_mem _ inside)
    cases found : t.codes.lookup c with
    | none =>
      refine ⟨c :: ds, ?_⟩
      rw [encode, List.flatMap_cons, word_of_plain found]
      rfl
    | some w =>
      rcases spells.moved _ (mem_codes_of_lookup found) with backslash | listed | code
      · exact absurd backslash other
      · exact absurd (List.mem_cons_self ..) (free c listed)
      · obtain ⟨d, written⟩ := spells.encode_cons_of_code code ds
        exact ⟨d :: ds, written⟩
  | @word w rest listed later ih =>
    obtain ⟨ds, rfl⟩ := ih fun c listed inside => free c listed (List.mem_append_right _ inside)
    obtain ⟨d, written⟩ := spells.encode_cons_of_code (spells.listed w listed) ds
    exact ⟨d :: ds, written⟩

theorem isEscaped_iff (spells : t.Spells words) (k : String) : IsEscaped words k ↔ ∃ s, t.escape s = k := by
  constructor
  · rintro ⟨free, inPhase⟩
    obtain ⟨ds, written⟩ := spells.exists_encode_eq inPhase free
    refine ⟨String.ofList ds, ?_⟩
    rw [escape, String.toList_ofList, written, String.ofList_toList]
  · rintro ⟨s, rfl⟩
    refine ⟨spells.refused_not_mem s, ?_⟩
    rw [escape, String.toList_ofList]
    exact spells.inPhase_encode s.toList

/-- What escaping restores is what it writes. -/
theorem escape_unescape_iff (spells : t.Spells words) (k : String) : t.escape (t.unescape k) = k ↔ IsEscaped words k := by
  rw [spells.isEscaped_iff]
  constructor
  · exact fun restored => ⟨_, restored⟩
  · rintro ⟨s, rfl⟩
    rw [unescape_escape spells.lawful]

end Spells

/-- Whether a table escapes every text so that it can be read back and holds nothing the store refuses, and restores
exactly what is escaped with the given words. -/
structure EscapesBy (t : CodeTable) (words : List String) : Prop where
  readBack : ∀ s, t.unescape (t.escape s) = s
  storable : ∀ s, ∀ c ∈ refused, c ∉ (t.escape s).toList
  restored : ∀ k, t.escape (t.unescape k) = k ↔ IsEscaped words k
  image : ∀ k, IsEscaped words k ↔ ∃ s, t.escape s = k

theorem Spells.escapesBy {t : CodeTable} {words : List String} (spells : t.Spells words) : t.EscapesBy words where
  readBack := unescape_escape spells.lawful
  storable := spells.refused_not_mem
  restored := spells.escape_unescape_iff
  image := spells.isEscaped_iff

/-- Both escapings are bijections onto their images. Reading back what was escaped gives every text, and no escaped form
has a character that the store refuses. Escaping what was read gives the same text exactly if that has no such character
and each backslash in it, read from left to right, starts one of the words of the escaping; and these texts are the
escaped forms. -/
theorem escapings_bijective : segment.EscapesBy segmentWords ∧ identity.EscapesBy identityWords :=
  ⟨spells_segment.escapesBy, spells_identity.escapesBy⟩

end TreeShell.CodeTable
