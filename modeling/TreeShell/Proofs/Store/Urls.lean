import TreeShell.Proofs.Key.Addresses
import TreeShell.Proofs.Text.Percent
import TreeShell.Store.Remote

/-! # The addresses of keys

The address of a key is the base, the key without its outer slashes in percent encoding, and an ending.
The keys of nodes, passwords, bans and working directories have no outer slashes, but for the working
directory of the empty identity, whose key loses its slash and is then like no other; so different keys
have different addresses (`RemoteStore.urlOf_ne`).
-/

namespace TreeShell

/-! ## Outer slashes -/

namespace Text

theorem exists_dropWhile (c : Char) (cs : List Char) :
    (∃ n, cs = List.replicate n c ++ cs.dropWhile (· = c)) ∧ (cs.dropWhile (· = c)).head? ≠ some c := by
  have run : cs.takeWhile (· = c) = List.replicate (cs.takeWhile (· = c)).length c :=
    List.eq_replicate_iff.mpr ⟨rfl, fun d member => by simpa using List.mem_takeWhile_imp member⟩
  refine ⟨⟨(cs.takeWhile (· = c)).length, ?_⟩, fun same => ?_⟩
  · rw [← run, List.takeWhile_append_dropWhile]
  · have first := List.head?_dropWhile_not (· = c) cs
    rw [same] at first
    simp at first

theorem exists_dropTrailing (c : Char) (s : String) :
    (∃ n, s.toList = (dropTrailing c s).toList ++ List.replicate n c) ∧
      (dropTrailing c s).toList.getLast? ≠ some c := by
  obtain ⟨⟨n, whole⟩, last⟩ := exists_dropWhile c s.toList.reverse
  rw [dropTrailing, String.toList_ofList, List.getLast?_reverse]
  refine ⟨⟨n, ?_⟩, last⟩
  rw [← List.reverse_inj, List.reverse_append, List.reverse_reverse, List.reverse_replicate]
  exact whole

theorem dropTrailing_of_getLast? {c : Char} {s : String} (last : s.toList.getLast? ≠ some c) :
    dropTrailing c s = s := by
  obtain ⟨⟨n, whole⟩, -⟩ := exists_dropTrailing c s
  cases n with
  | zero =>
    rw [List.replicate_zero, List.append_nil] at whole
    exact (String.toList_injective whole).symm
  | succ n =>
    rw [List.replicate_succ', ← List.append_assoc] at whole
    rw [whole, List.getLast?_concat] at last
    exact absurd rfl last

end Text

namespace RemoteStore

/-- Whether a text has no slash at its ends. -/
def IsStripped (s : String) : Prop :=
  s.toList.head? ≠ some '/' ∧ s.toList.getLast? ≠ some '/'

instance (s : String) : Decidable (IsStripped s) :=
  inferInstanceAs (Decidable (_ ∧ _))

/-- Whether a text is what is left of another without the slashes at its ends. -/
def StripsTo (s core : String) : Prop :=
  IsStripped core ∧ ∃ m n, s.toList = List.replicate m '/' ++ core.toList ++ List.replicate n '/'

theorem stripsTo_dropOuterSlashes (s : String) : StripsTo s (dropOuterSlashes s) := by
  obtain ⟨⟨m, front⟩, first⟩ := Text.exists_dropWhile '/' s.toList
  obtain ⟨⟨n, back⟩, last⟩ := Text.exists_dropTrailing '/' (String.ofList (s.toList.dropWhile (· = '/')))
  rw [← dropOuterSlashes, String.toList_ofList] at back
  refine ⟨⟨fun same => ?_, last⟩, m, n, by rw [List.append_assoc, ← back, ← front]⟩
  rw [back, List.head?_append, same] at first
  exact first rfl

theorem dropOuterSlashes_of_isStripped {s : String} (stripped : IsStripped s) : dropOuterSlashes s = s := by
  have front : s.toList.dropWhile (· = '/') = s.toList := by
    cases spelled : s.toList with
    | nil => rfl
    | cons c cs =>
      have other : c ≠ '/' := fun same => stripped.1 (by rw [spelled, same]; rfl)
      rw [List.dropWhile_cons_of_neg (by simpa using other)]
  rw [dropOuterSlashes, front, String.ofList_toList, Text.dropTrailing_of_getLast? stripped.2]

/-- A joined list of names has no slash at its ends, where it would have an empty piece. -/
theorem isStripped_of_names {parts : List String} (names : ∀ p ∈ parts, Path.IsName p) (filled : parts ≠ []) :
    IsStripped ("/".intercalate parts) := by
  have pieces : Text.split '/' ("/".intercalate parts) = parts :=
    Text.split_intercalate (fun p member => (names p member).2) filled
  generalize "/".intercalate parts = key at pieces
  constructor
  · intro first
    obtain ⟨cs, spelled⟩ := List.head?_eq_some_iff.mp first
    have glued : key = "" ++ String.singleton '/' ++ String.ofList cs := String.toList_injective (by simp [spelled])
    rw [glued, Text.split_append, Text.split_empty] at pieces
    exact (names "" (pieces ▸ List.mem_cons_self)).1 rfl
  · intro last
    obtain ⟨cs, spelled⟩ := List.getLast?_eq_some_iff.mp last
    have glued : key = String.ofList cs ++ String.singleton '/' ++ "" := String.toList_injective (by simp [spelled])
    rw [glued, Text.split_append, Text.split_empty] at pieces
    exact (names "" (pieces ▸ List.mem_append_right _ List.mem_cons_self)).1 rfl

/-! ## Keys -/

/-- The keys of nodes, passwords, bans and working directories; the key of all bans is that of the empty identity. -/
inductive IsAddress : String → Prop
  | node {path : String} (resolved : Path.IsResolved path) : IsAddress (Key.node path)
  | password {path : String} (resolved : Path.IsResolved path) : IsAddress (Key.password path)
  | ban (identity : String) : IsAddress (Key.ban identity)
  | cwd (identity : String) : IsAddress (Key.cwd identity)

/-- A key that goes on behind its prefix has no outer slashes and is not a prefix itself. -/
theorem isStripped_of_spells {key first : String} {fixed added : List String}
    (spells : Key.Spells key (first :: fixed) added) (names : ∀ p ∈ first :: fixed, Path.IsName p)
    (other : first ≠ Key.cwdRoot ∨ added ≠ []) : IsStripped key ∧ key ≠ Key.cwdRoot := by
  constructor
  · rw [spells.glued]
    exact isStripped_of_names (Path.names_append names fun p member => (spells.storable p member).isName) (by simp)
  · rintro rfl
    have alone : first :: (fixed ++ added) = [Key.cwdRoot] := spells.components_eq.symm.trans (by decide)
    obtain ⟨same, empty⟩ := List.cons.inj alone
    exact other.elim (· same) (· (List.append_eq_nil_iff.mp empty).2)

theorem IsAddress.cases_slashes {key : String} (address : IsAddress key) :
    IsStripped key ∧ key ≠ Key.cwdRoot ∨ key = Key.cwd "" := by
  cases address with
  | node resolved =>
    obtain ⟨segs, names, rfl⟩ := resolved.exists_names
    exact .inl (isStripped_of_spells (Key.spells_node names) (by decide) (.inl (by decide)))
  | password resolved =>
    obtain ⟨segs, names, rfl⟩ := resolved.exists_names
    exact .inl (isStripped_of_spells (Key.spells_password names) (by decide) (.inl (by decide)))
  | ban identity =>
    by_cases filled : identity = ""
    · subst filled
      exact .inl (by decide)
    · exact .inl (isStripped_of_spells (Key.spells_ban filled) (by decide) (.inl (by decide)))
  | cwd identity =>
    by_cases filled : identity = ""
    · exact .inr (filled ▸ rfl)
    · exact .inl (isStripped_of_spells (Key.spells_cwd filled) (by decide) (.inr (by simp)))

/-- Only the empty identity's working directory loses a slash, and what is left is no key. -/
theorem dropOuterSlashes_inj {key rival : String} (address : IsAddress key) (rivalAddress : IsAddress rival) :
    dropOuterSlashes key = dropOuterSlashes rival ↔ key = rival := by
  refine ⟨fun same => ?_, congrArg dropOuterSlashes⟩
  have bare : dropOuterSlashes (Key.cwd "") = Key.cwdRoot := by decide
  rcases address.cases_slashes with ⟨stripped, other⟩ | empty
  · rw [dropOuterSlashes_of_isStripped stripped] at same
    rcases rivalAddress.cases_slashes with ⟨rivalStripped, -⟩ | rivalEmpty
    · exact same.trans (dropOuterSlashes_of_isStripped rivalStripped)
    · exact absurd (same.trans (rivalEmpty ▸ bare)) other
  · rcases rivalAddress.cases_slashes with ⟨rivalStripped, rivalOther⟩ | rivalEmpty
    · rw [dropOuterSlashes_of_isStripped rivalStripped] at same
      exact absurd (same.symm.trans (empty ▸ bare)) rivalOther
    · exact empty.trans rivalEmpty.symm

/-- Different keys have different addresses. -/
theorem urlOf_ne (r : RemoteStore) {key rival : String} (address : IsAddress key) (rivalAddress : IsAddress rival)
    (differs : key ≠ rival) : r.urlOf key ≠ r.urlOf rival := by
  intro same
  have chars := congrArg String.toList same
  simp only [urlOf, String.toList_append, List.append_cancel_right_eq, List.append_cancel_left_eq] at chars
  have stripped := Percent.encode_injective (String.toList_injective chars)
  exact differs ((dropOuterSlashes_inj address rivalAddress).mp stripped)

end RemoteStore

end TreeShell
