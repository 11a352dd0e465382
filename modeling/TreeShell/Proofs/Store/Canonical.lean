import TreeShell.Proofs.Assoc
import TreeShell.Proofs.Store.Lookup

/-! # Values as the store keeps them

A stored tree holds no null and no empty mapping, and no mapping in it gives one name twice. Pruning
establishes the first (`settled_prune`), and a write of a pruned value keeps both (`canonical_put`,
`distinct_put`). Pruning commutes with looking up, so it drops nothing that a look-up could see.
-/

namespace TreeShell

namespace Value

mutual

/-- Whether no mapping in a value gives one name twice. -/
def Distinct : Value → Prop
  | .mapping entries => (Assoc.names entries).Nodup ∧ DistinctEntries entries
  | _ => True

def DistinctEntries : List (String × Value) → Prop
  | [] => True
  | (_, v) :: rest => Distinct v ∧ DistinctEntries rest

end

mutual

instance decidableDistinct : (v : Value) → Decidable v.Distinct
  | .mapping entries =>
    have := decidableDistinctEntries entries
    inferInstanceAs (Decidable ((Assoc.names entries).Nodup ∧ DistinctEntries entries))
  | .null | .bool _ | .int _ | .real _ | .text _ | .list _ => .isTrue trivial

instance decidableDistinctEntries : (entries : List (String × Value)) → Decidable (DistinctEntries entries)
  | [] => .isTrue trivial
  | (_, v) :: rest =>
    have := decidableDistinct v
    have := decidableDistinctEntries rest
    inferInstanceAs (Decidable (v.Distinct ∧ DistinctEntries rest))

end

mutual

instance decidableCanonical : (v : Value) → Decidable v.Canonical
  | .mapping entries =>
    have := decidableCanonicalEntries entries
    inferInstanceAs (Decidable (entries ≠ [] ∧ CanonicalEntries entries))
  | .null => .isFalse id
  | .bool _ | .int _ | .real _ | .text _ | .list _ => .isTrue trivial

instance decidableCanonicalEntries : (entries : List (String × Value)) → Decidable (CanonicalEntries entries)
  | [] => .isTrue trivial
  | (_, v) :: rest =>
    have := decidableCanonical v
    have := decidableCanonicalEntries rest
    inferInstanceAs (Decidable (v.Canonical ∧ CanonicalEntries rest))

end

theorem Canonical.ne_null {v : Value} (canonical : v.Canonical) : v ≠ .null := by
  rintro rfl
  exact canonical

theorem canonicalEntries_iff {entries : Entries} :
    CanonicalEntries entries ↔ ∀ e ∈ entries, Canonical e.2 := by
  induction entries with
  | nil => simp [CanonicalEntries]
  | cons e rest ih => simp [CanonicalEntries, ih]

theorem distinctEntries_iff {entries : Entries} :
    DistinctEntries entries ↔ ∀ e ∈ entries, Distinct e.2 := by
  induction entries with
  | nil => simp [DistinctEntries]
  | cons e rest ih => simp [DistinctEntries, ih]

theorem Distinct.settle {v : Value} (distinct : v.Distinct) : v.settle.Distinct := by
  cases v with
  | mapping entries =>
    cases entries with
    | nil => trivial
    | cons e rest => exact distinct
  | _ => trivial

/-- Whether a value is nothing or free of nulls and empty mappings. -/
def Settled (v : Value) : Prop :=
  v = .null ∨ v.Canonical

theorem settled_null : Settled .null := .inl rfl

theorem Settled.settle_eq {v : Value} (settled : v.Settled) : v.settle = v := by
  rcases settled with rfl | canonical
  · rfl
  · exact settle_of_canonical canonical

theorem settled_settle {entries : Entries} (canonical : CanonicalEntries entries) :
    (settle (.mapping entries)).Settled := by
  cases entries with
  | nil => exact settled_null
  | cons e rest => exact .inr ⟨by simp, canonical⟩

mutual

theorem settled_prune : (v : Value) → v.prune.Settled
  | .mapping entries => by
    have rest := canonical_pruneEntries entries
    unfold prune
    cases pruned : pruneEntries entries with
    | nil => exact settled_null
    | cons e others => exact .inr ⟨by simp, pruned ▸ rest⟩
  | .null => settled_null
  | .bool _ | .int _ | .real _ | .text _ | .list _ => .inr trivial

theorem canonical_pruneEntries : (entries : List (String × Value)) → CanonicalEntries (pruneEntries entries)
  | [] => trivial
  | (name, v) :: rest => by
    have head := settled_prune v
    have tail := canonical_pruneEntries rest
    unfold pruneEntries
    cases pruned : prune v with
    | null => exact tail
    | _ => exact ⟨(pruned ▸ head).resolve_left (by simp), tail⟩

end

/-- A value without nulls and empty mappings is left alone by pruning. -/
theorem prune_eq_settle_mapping (entries : Entries) :
    prune (.mapping entries) = settle (.mapping (pruneEntries entries)) := by
  unfold prune
  cases pruneEntries entries <;> rfl

mutual

theorem prune_of_canonical : (v : Value) → v.Canonical → v.prune = v
  | .mapping entries, canonical => by
    rw [prune_eq_settle_mapping, pruneEntries_of_canonical entries canonical.2]
    exact settle_of_canonical canonical
  | .bool _, _ | .int _, _ | .real _, _ | .text _, _ | .list _, _ => rfl

theorem pruneEntries_of_canonical : (entries : List (String × Value)) → CanonicalEntries entries →
    pruneEntries entries = entries
  | [], _ => rfl
  | (name, v) :: rest, canonical => by
    have head := prune_of_canonical v canonical.1
    have tail := pruneEntries_of_canonical rest canonical.2
    have present : v ≠ .null := by
      rintro rfl
      exact canonical.1
    unfold pruneEntries
    rw [head, tail]
    cases v <;> first | rfl | exact absurd rfl present

end

theorem Settled.prune_eq {v : Value} (settled : v.Settled) : v.prune = v := by
  rcases settled with rfl | canonical
  · rfl
  · exact prune_of_canonical v canonical

/-- A look-up in a stored value finds nothing or a stored value. -/
theorem Settled.find {v : Value} (settled : v.Settled) (place : List String) : (v.find place).Settled := by
  induction place generalizing v with
  | nil => simpa using settled
  | cons name place ih =>
    cases v with
    | mapping entries =>
      rw [find_mapping_cons]
      apply ih
      cases found : Assoc.get? entries name with
      | none => exact settled_null
      | some w =>
        have canonical := settled.resolve_left (by simp)
        exact .inr (canonicalEntries_iff.mp canonical.2 _ (Assoc.mem_of_get? found))
    | _ => exact settled_null

/-- A name whose value is pruned away is gone, provided that it is given once. -/
theorem get?_pruneEntries {entries : Entries} (distinct : (Assoc.names entries).Nodup) (name : String) :
    (Assoc.get? (pruneEntries entries) name).getD .null = ((Assoc.get? entries name).getD .null).prune := by
  induction entries with
  | nil => rfl
  | cons e rest ih =>
    obtain ⟨n, v⟩ := e
    have parts := List.nodup_cons.mp (show (n :: Assoc.names rest).Nodup from distinct)
    have tail := ih parts.2
    rw [Assoc.get?_cons, pruneEntries]
    by_cases same : name = n
    · subst same
      rw [if_pos rfl, Option.getD_some]
      have absent : Assoc.get? rest name = none := Assoc.get?_eq_none_iff.mpr parts.1
      rw [absent, Option.getD_none] at tail
      cases pruned : prune v with
      | null => exact tail
      | _ => simp [Assoc.get?_cons]
    · rw [if_neg same]
      cases pruned : prune v with
      | null => exact tail
      | _ => rw [← tail]; simp [Assoc.get?_cons, same]

/-- Pruning commutes with looking up. -/
theorem find_prune {v : Value} (distinct : v.Distinct) (place : List String) :
    v.prune.find place = (v.find place).prune := by
  induction place generalizing v with
  | nil => simp
  | cons name place ih =>
    cases v with
    | mapping entries =>
      rw [prune_eq_settle_mapping, find_settle_cons, find_mapping_cons, find_mapping_cons,
        get?_pruneEntries distinct.1]
      apply ih
      cases found : Assoc.get? entries name with
      | none => trivial
      | some w => exact distinctEntries_iff.mp distinct.2 _ (Assoc.mem_of_get? found)
    | _ => rfl

mutual

theorem distinct_prune : (v : Value) → v.Distinct → v.prune.Distinct
  | .mapping entries, distinct => by
    have kept : Distinct (.mapping (pruneEntries entries)) :=
      ⟨distinct.1.sublist (names_pruneEntries entries), distinct_pruneEntries entries distinct.2⟩
    exact prune_eq_settle_mapping entries ▸ kept.settle
  | .null, _ | .bool _, _ | .int _, _ | .real _, _ | .text _, _ | .list _, _ => trivial

theorem distinct_pruneEntries : (entries : List (String × Value)) → DistinctEntries entries →
    DistinctEntries (pruneEntries entries)
  | [], _ => trivial
  | (name, v) :: rest, distinct => by
    have head := distinct_prune v distinct.1
    have tail := distinct_pruneEntries rest distinct.2
    unfold pruneEntries
    cases pruned : prune v with
    | null => exact tail
    | _ => exact ⟨pruned ▸ head, tail⟩

theorem names_pruneEntries : (entries : List (String × Value)) →
    (Assoc.names (pruneEntries entries)).Sublist (Assoc.names entries)
  | [] => .slnil
  | (name, v) :: rest => by
    have tail := names_pruneEntries rest
    unfold pruneEntries
    cases prune v with
    | null => exact tail.cons _
    | _ => exact tail.cons_cons _

end

/-- A look-up in a value without repeated names finds such a value. -/
theorem Distinct.find {v : Value} (distinct : v.Distinct) (place : List String) :
    (v.find place).Distinct := by
  induction place generalizing v with
  | nil => simpa using distinct
  | cons name place ih =>
    cases v with
    | mapping entries =>
      rw [find_mapping_cons]
      apply ih
      cases found : Assoc.get? entries name with
      | none => trivial
      | some w => exact distinctEntries_iff.mp distinct.2 _ (Assoc.mem_of_get? found)
    | _ => trivial

end Value

namespace Entries

open Value

/-- Storing adds at most the named entry, and never an empty one. -/
theorem mem_store {name : String} {value : Value} {entries : Entries} {e : String × Value}
    (member : e ∈ store name value entries) : e ∈ entries ∨ (e = (name, value) ∧ value.settle ≠ .null) := by
  cases value with
  | null => exact .inl (Assoc.mem_of_mem_erase member)
  | mapping under =>
    cases under with
    | nil => exact .inl (Assoc.mem_of_mem_erase member)
    | cons _ _ => exact (Assoc.mem_insert member).imp_right fun same => ⟨same, by simp [settle]⟩
  | _ => exact (Assoc.mem_insert member).imp_right fun same => ⟨same, by simp [settle]⟩

theorem nodup_store (name : String) (value : Value) {entries : Entries}
    (distinct : (Assoc.names entries).Nodup) : (Assoc.names (store name value entries)).Nodup := by
  cases value with
  | null => exact Assoc.nodup_erase name distinct
  | mapping under =>
    cases under with
    | nil => exact Assoc.nodup_erase name distinct
    | cons _ _ => exact Assoc.nodup_insert name _ distinct
  | _ => exact Assoc.nodup_insert name _ distinct

theorem canonical_store {name : String} {value : Value} {entries : Entries}
    (settled : value.settle.Settled) (canonical : CanonicalEntries entries) :
    CanonicalEntries (store name value entries) := by
  rw [canonicalEntries_iff] at canonical ⊢
  intro e member
  rcases mem_store member with old | ⟨rfl, present⟩
  · exact canonical e old
  · exact settle_of_settle_ne_null present ▸ settled.resolve_left present

theorem distinct_store {name : String} {value : Value} {entries : Entries} (valueDistinct : value.Distinct)
    (distinct : Distinct (.mapping entries)) : Distinct (.mapping (store name value entries)) := by
  refine ⟨nodup_store name value distinct.1, distinctEntries_iff.mpr fun e member => ?_⟩
  rcases mem_store member with old | ⟨rfl, -⟩
  · exact distinctEntries_iff.mp distinct.2 e old
  · exact valueDistinct

theorem canonical_ofValue_get? {entries : Entries} (canonical : CanonicalEntries entries) (name : String) :
    CanonicalEntries (ofValue ((Assoc.get? entries name).getD .null)) := by
  cases found : Assoc.get? entries name with
  | none => trivial
  | some old =>
    have held := canonicalEntries_iff.mp canonical _ (Assoc.mem_of_get? found)
    cases old with
    | mapping under => exact held.2
    | _ => trivial

theorem distinct_ofValue_get? {entries : Entries} (distinct : DistinctEntries entries) (name : String) :
    Distinct (.mapping (ofValue ((Assoc.get? entries name).getD .null))) := by
  cases found : Assoc.get? entries name with
  | none => exact ⟨.nil, trivial⟩
  | some old =>
    have held := distinctEntries_iff.mp distinct _ (Assoc.mem_of_get? found)
    cases old with
    | mapping under => exact held
    | _ => exact ⟨.nil, trivial⟩

/-- A write of a stored value leaves no null and no empty mapping behind. -/
theorem canonical_put (place : List String) {value : Value} (settled : value.Settled) {entries : Entries}
    (canonical : CanonicalEntries entries) : CanonicalEntries (put place value entries) := by
  induction place generalizing entries with
  | nil =>
    rcases settled with rfl | stored
    · trivial
    · cases value with
      | mapping _ => exact stored.2
      | _ => trivial
  | cons name place ih =>
    cases place with
    | nil => exact canonical_store (settled.settle_eq.symm ▸ settled) canonical
    | cons next place =>
      rcases put_cons_cons name next place value entries with ⟨-, -, same⟩ | ⟨-, stored⟩
      · rwa [same]
      · rw [stored]
        exact canonical_store (settled_settle (ih (canonical_ofValue_get? canonical name))) canonical

/-- A write of a value without repeated names repeats no name. -/
theorem distinct_put (place : List String) {value : Value} (valueDistinct : value.Distinct)
    {entries : Entries} (distinct : Distinct (.mapping entries)) :
    Distinct (.mapping (put place value entries)) := by
  induction place generalizing entries with
  | nil =>
    cases value with
    | mapping _ => exact valueDistinct
    | _ => exact ⟨.nil, trivial⟩
  | cons name place ih =>
    cases place with
    | nil => exact distinct_store valueDistinct distinct
    | cons next place =>
      rcases put_cons_cons name next place value entries with ⟨-, -, same⟩ | ⟨-, stored⟩
      · rwa [same]
      · rw [stored]
        exact distinct_store (ih (distinct_ofValue_get? distinct.2 name)) distinct

end Entries

end TreeShell
