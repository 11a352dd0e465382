import TreeShell.Proofs.Store.Deletions

/-! # Deletions in one mapping

Entries of one mapping can be deleted one after the other or all at once, and in any order: what is left of the mapping is
filtered, and the mappings on the way to it that are left empty go with it (`Entries.under`, `Store.deleteAll_siblings`).
That goes for the whole tree, order included, whatever stands in it.
-/

namespace TreeShell

namespace Entries

/-- The entries with a function applied to those of the mapping at a place, if there is one. -/
def under : List String → (Entries → Entries) → Entries → Entries
  | [], f, entries => f entries
  | name :: place, f, entries =>
    match Assoc.get? entries name with
    | some (.mapping below) => store name (.mapping (under place f below)) entries
    | _ => entries

section Under

variable {name : String} {place : List String} {f g : Entries → Entries} {entries below : Entries}

theorem under_of_mapping (held : Assoc.get? entries name = some (.mapping below)) (place : List String) (f : Entries → Entries) :
    under (name :: place) f entries = store name (.mapping (under place f below)) entries := by
  rw [under, held]

theorem under_of_scalar (scalar : ((Assoc.get? entries name).getD .null).isMapping = false) (place : List String)
    (f : Entries → Entries) : under (name :: place) f entries = entries := by
  rw [under]
  split
  · next below held =>
    rw [held] at scalar
    cases scalar
  · rfl

theorem exists_mapping_or_scalar (entries : Entries) (name : String) :
    (∃ below, Assoc.get? entries name = some (.mapping below)) ∨ ((Assoc.get? entries name).getD .null).isMapping = false := by
  cases Assoc.get? entries name with
  | none => exact .inr rfl
  | some v =>
    rcases v.mapping_or_scalar with ⟨below, rfl⟩ | scalar
    · exact .inl ⟨below, rfl⟩
    · exact .inr scalar

/-- A deletion erases a name in the mapping above it. -/
theorem put_concat_null (place : List String) (last : String) (entries : Entries) :
    put (place ++ [last]) .null entries = under place (Assoc.erase last) entries := by
  induction place generalizing entries with
  | nil => rfl
  | cons first place ih =>
    obtain ⟨next, rest, longer⟩ := List.exists_cons_of_ne_nil (List.append_ne_nil_of_right_ne_nil place (List.cons_ne_nil last []))
    rw [List.cons_append, longer]
    rcases put_cons_cons first next rest .null entries with ⟨-, scalar, same⟩ | ⟨passes, stored⟩
    · rw [same, under_of_scalar scalar]
    · obtain ⟨below, held⟩ := (exists_mapping_or_scalar entries first).resolve_right fun scalar => passes ⟨rfl, scalar⟩
      rw [stored, held, under_of_mapping held, ← ih below, longer]
      rfl

theorem under_nil (keeps : f [] = []) (place : List String) : under place f [] = [] := by
  cases place with
  | nil => exact keeps
  | cons name place => rfl

/-- A name can be stored anew without regard to what it had. -/
theorem store_insert (name : String) (value later : Value) (entries : Entries) :
    store name later (Assoc.insert name value entries) = store name later entries := by
  cases later with
  | null => exact (Assoc.erase_insert ..).trans (if_pos rfl)
  | mapping below =>
    cases below with
    | nil => exact (Assoc.erase_insert ..).trans (if_pos rfl)
    | cons e rest => exact Assoc.insert_insert name value _ entries
  | _ => exact Assoc.insert_insert name value _ entries

/-- One change of a mapping after another is their composition, if the second makes nothing of an empty mapping: that one is
gone by then. -/
theorem under_under (keeps : f [] = []) (g : Entries → Entries) (place : List String) (entries : Entries) :
    under place f (under place g entries) = under place (f ∘ g) entries := by
  induction place generalizing entries with
  | nil => rfl
  | cons name place ih =>
    rcases exists_mapping_or_scalar entries name with ⟨below, held⟩ | scalar
    · rw [under_of_mapping held, under_of_mapping held, ← ih below]
      cases left : under place g below with
      | nil =>
        have gone : ((Assoc.get? (Assoc.erase name entries) name).getD .null).isMapping = false := by
          rw [Assoc.get?_erase, if_pos rfl]
          rfl
        rw [under_nil keeps]
        exact under_of_scalar gone place f
      | cons e rest =>
        have stored : Assoc.get? (Assoc.insert name (.mapping (e :: rest)) entries) name = some (.mapping (e :: rest)) := by
          rw [Assoc.get?_insert, if_pos rfl]
        exact (under_of_mapping stored place f).trans (store_insert name _ _ entries)
    · rw [under_of_scalar scalar, under_of_scalar scalar, under_of_scalar scalar]

end Under

end Entries

namespace Store

variable {place names others : List String}

/-- The entries of one mapping that are deleted one after the other are filtered out. -/
theorem deleteAll_siblings (some : names ≠ []) (place : List String) (s : Store) :
    s.deleteAll (names.map fun name => place ++ [name]) =
      ⟨Entries.under place (fun entries => entries.filter fun e => e.1 ∉ names) s.root⟩ := by
  induction names generalizing s with
  | nil => exact absurd rfl some
  | cons name rest ih =>
    have first : s.put (place ++ [name]) .null = ⟨Entries.under place (Assoc.erase name) s.root⟩ :=
      congrArg Store.mk (Entries.put_concat_null place name s.root)
    rw [List.map_cons, deleteAll_cons, first]
    by_cases last : rest = []
    · subst last
      rw [List.map_nil, deleteAll_nil]
      simp only [List.mem_singleton]
      rfl
    · rw [ih last, Entries.under_under rfl]
      simp only [Function.comp_def, Assoc.erase, List.filter_filter, List.mem_cons, not_or, Bool.decide_and, Bool.and_comm]

/-- Neither their order nor a repetition among them matters. -/
theorem deleteAll_siblings_congr (same : ∀ name, name ∈ names ↔ name ∈ others) (place : List String) (s : Store) :
    s.deleteAll (names.map fun name => place ++ [name]) = s.deleteAll (others.map fun name => place ++ [name]) := by
  by_cases none : names = []
  · have noOthers : others = [] := by
      rw [List.eq_nil_iff_forall_not_mem]
      intro name member
      rw [← same, none] at member
      cases member
    rw [none, noOthers]
  · have someOthers : others ≠ [] := by
      obtain ⟨name, member⟩ := List.exists_mem_of_ne_nil names none
      exact List.ne_nil_of_mem ((same name).mp member)
    rw [deleteAll_siblings none, deleteAll_siblings someOthers]
    simp only [same]

end Store

end TreeShell
