import TreeShell.Node
import TreeShell.Proofs.Key.Places
import TreeShell.Proofs.Store.Canonical

/-! # What a walk visits

A tree whose keys are all escaped names decodes without loss: different keys are different names, so no
children of a directory are merged. A walk of such a tree visits every place below its start at which a
value stands, under the path of that place and with the node there (`mem_walk`).
-/

namespace TreeShell

open Path (IsName ofSegments)

/-- Whether a key is a name as the store keeps it. -/
def Key.IsEscaped (key : String) : Prop :=
  ∃ name, IsName name ∧ key = CodeTable.segment.escape name

theorem Key.isEscaped_iff {key : String} :
    IsEscaped key ↔ IsName (CodeTable.segment.unescape key) ∧
      CodeTable.segment.escape (CodeTable.segment.unescape key) = key := by
  constructor
  · rintro ⟨name, valid, rfl⟩
    rw [CodeTable.unescape_escape CodeTable.lawful_segment]
    exact ⟨valid, rfl⟩
  · rintro ⟨valid, same⟩
    exact ⟨_, valid, same.symm⟩

instance (key : String) : Decidable (Key.IsEscaped key) :=
  decidable_of_iff _ Key.isEscaped_iff.symm

namespace Value

mutual

/-- Whether all keys in a value are escaped names. -/
def Escaped : Value → Prop
  | .mapping entries => EscapedEntries entries
  | _ => True

def EscapedEntries : List (String × Value) → Prop
  | [] => True
  | (key, v) :: rest => Key.IsEscaped key ∧ Escaped v ∧ EscapedEntries rest

end

mutual

instance decidableEscaped : (v : Value) → Decidable v.Escaped
  | .mapping entries =>
    have := decidableEscapedEntries entries
    inferInstanceAs (Decidable (EscapedEntries entries))
  | .null | .bool _ | .int _ | .real _ | .text _ | .list _ => .isTrue trivial

instance decidableEscapedEntries : (entries : List (String × Value)) → Decidable (EscapedEntries entries)
  | [] => .isTrue trivial
  | (key, v) :: rest =>
    have := decidableEscaped v
    have := decidableEscapedEntries rest
    inferInstanceAs (Decidable (Key.IsEscaped key ∧ v.Escaped ∧ EscapedEntries rest))

end

theorem escapedEntries_iff {entries : Entries} :
    EscapedEntries entries ↔ ∀ e ∈ entries, Key.IsEscaped e.1 ∧ Escaped e.2 := by
  induction entries with
  | nil => simp [EscapedEntries]
  | cons e rest ih => simp [EscapedEntries, ih, and_assoc]

/-- A look-up in a value with escaped keys finds such a value. -/
theorem Escaped.find {v : Value} (escaped : v.Escaped) (place : List String) : (v.find place).Escaped := by
  induction place generalizing v with
  | nil => simpa using escaped
  | cons name place ih =>
    cases v with
    | mapping entries =>
      rw [find_mapping_cons]
      apply ih
      cases found : Assoc.get? entries name with
      | none => trivial
      | some w => exact (escapedEntries_iff.mp escaped _ (Assoc.mem_of_get? found)).2
    | _ => trivial

/-- Dropping another name first makes no difference to a look-up. -/
theorem escaped_get?_of_erase {entries : Entries} {dropped name : String}
    (escaped : EscapedEntries (Assoc.erase dropped entries)) (differs : name ≠ dropped) :
    ((Assoc.get? entries name).getD .null).Escaped := by
  have kept := Assoc.get?_erase dropped name entries
  rw [if_neg differs] at kept
  cases found : Assoc.get? entries name with
  | none => trivial
  | some v => exact (escapedEntries_iff.mp escaped _ (Assoc.mem_of_get? (kept.trans found))).2

theorem Escaped.settle {v : Value} (escaped : v.Escaped) : v.settle.Escaped := by
  cases v with
  | mapping entries =>
    cases entries with
    | nil => trivial
    | cons e rest => exact escaped
  | _ => trivial

/-- Whether a value is nothing, or free of nulls, empty mappings, repeated names and unescaped ones. -/
structure Tidy (v : Value) : Prop where
  settled : v.Settled
  distinct : v.Distinct
  escaped : v.Escaped

theorem Tidy.find {v : Value} (tidy : v.Tidy) (place : List String) : (v.find place).Tidy :=
  ⟨tidy.settled.find place, tidy.distinct.find place, tidy.escaped.find place⟩

/-- The value that stands at a place, null or not. -/
def reach? : Value → List String → Option Value
  | v, [] => some v
  | .mapping entries, name :: place => (Assoc.get? entries name).bind fun v => v.reach? place
  | _, _ :: _ => none

/-- Where a tree holds no null, a value stands exactly where a look-up finds one. -/
theorem Canonical.reach?_isSome_iff {v : Value} (canonical : v.Canonical) (place : List String) :
    (v.reach? place).isSome = true ↔ v.find place ≠ .null := by
  induction place generalizing v with
  | nil =>
    simp [reach?, canonical.ne_null]
  | cons name place ih =>
    cases v with
    | mapping entries =>
      rw [find_mapping_cons, reach?]
      cases found : Assoc.get? entries name with
      | none => simp
      | some w => exact ih (canonicalEntries_iff.mp canonical.2 _ (Assoc.mem_of_get? found))
    | _ => simp [reach?, find]

end Value

namespace Node

open Value

variable {segs : List String} {entries : Entries} {e : String × Option Node}

theorem ofValue?_mapping (entries : Entries) :
    ofValue? (.mapping entries) = some (.directory (childrenOf entries)) := rfl

theorem eq_file_of_scalar {v : Value} {node : Node} (scalar : v.isMapping = false) (found : ofValue? v = some node) :
    ∃ content, node = .file content := by
  cases v with
  | null => exact absurd found nofun
  | mapping entries => exact absurd scalar nofun
  | bool b => cases b <;> exact ⟨_, (Option.some.inj found).symm⟩
  | _ => exact ⟨_, (Option.some.inj found).symm⟩

/-- Different keys that escaping gives back are different names. -/
theorem nodup_unescape (faithful : ∀ e ∈ entries, CodeTable.segment.escape (CodeTable.segment.unescape e.1) = e.1)
    (distinct : (Assoc.names entries).Nodup) : (entries.map fun e => CodeTable.segment.unescape e.1).Nodup := by
  rw [Assoc.names, List.Nodup, List.pairwise_map] at distinct
  rw [List.Nodup, List.pairwise_map]
  refine distinct.imp_of_mem ?_
  intro a b inside inside' differ same
  refine differ ?_
  rw [← faithful a inside, same, faithful b inside']

/-- Such keys decode to the children one by one. -/
theorem childrenOf_eq (faithful : ∀ e ∈ entries, CodeTable.segment.escape (CodeTable.segment.unescape e.1) = e.1)
    (distinct : (Assoc.names entries).Nodup) :
    childrenOf entries = entries.map fun e => (CodeTable.segment.unescape e.1, e.2) := by
  refine Assoc.ofPairs_of_nodup ?_
  rw [Assoc.names, List.map_map]
  exact nodup_unescape faithful distinct

theorem escape_unescape (escaped : EscapedEntries entries) :
    ∀ e ∈ entries, CodeTable.segment.escape (CodeTable.segment.unescape e.1) = e.1 :=
  fun e member => (Key.isEscaped_iff.mp (escapedEntries_iff.mp escaped e member).1).2

theorem listings_eq (path : String) (entries : Entries) :
    listings path entries = entries.map fun e =>
      (CodeTable.segment.unescape e.1, listing (Path.join path (CodeTable.segment.unescape e.1)) e.2) := by
  induction entries with
  | nil => rfl
  | cons e rest ih => rw [listings, ih, List.map_cons]

theorem mem_joinListings {listings : Assoc (List (String × Option Node))} :
    e ∈ joinListings listings ↔ ∃ l ∈ listings, e ∈ l.2 := by
  simp [joinListings]

/-- A scalar stands at its own place only. -/
theorem mem_scalar {v : Value} (scalar : v.isMapping = false) (segs : List String) :
    (∃ rest w, (∀ s ∈ rest, IsName s) ∧ v.reach? (rest.map CodeTable.segment.escape) = some w ∧
      e = (ofSegments (segs ++ rest), ofValue? w)) ↔ e = (ofSegments segs, ofValue? v) := by
  constructor
  · rintro ⟨rest, w, -, reached, same⟩
    cases rest with
    | nil =>
      obtain rfl : v = w := by simpa [reach?] using reached
      simpa using same
    | cons n rest => cases v <;> simp [reach?, isMapping] at reached scalar
  · intro same
    exact ⟨[], v, by simp, by simp [reach?], by simpa using same⟩

/-- What the listings of the entries of a directory hold, given what each single one holds. -/
theorem mem_listings (names : ∀ s ∈ segs, IsName s) (escaped : EscapedEntries entries)
    (distinct : (Assoc.names entries).Nodup)
    (each : ∀ key v, (key, v) ∈ entries → ∀ n, IsName n → (e ∈ listing (ofSegments (segs ++ [n])) v ↔
      ∃ rest w, (∀ s ∈ rest, IsName s) ∧ v.reach? (rest.map CodeTable.segment.escape) = some w ∧
        e = (ofSegments (segs ++ [n] ++ rest), ofValue? w))) :
    (∃ l ∈ listings (ofSegments segs) entries, e ∈ l.2) ↔
      ∃ rest w, rest ≠ [] ∧ (∀ s ∈ rest, IsName s) ∧
        (Value.mapping entries).reach? (rest.map CodeTable.segment.escape) = some w ∧
        e = (ofSegments (segs ++ rest), ofValue? w) := by
  have keys := escapedEntries_iff.mp escaped
  simp only [listings_eq, List.mem_map]
  constructor
  · rintro ⟨-, ⟨⟨key, v⟩, member, rfl⟩, inside⟩
    obtain ⟨⟨n, valid, rfl⟩, -⟩ := keys _ member
    rw [CodeTable.unescape_escape CodeTable.lawful_segment, Path.join_ofSegments names, each _ v member n valid] at inside
    obtain ⟨rest, w, valids, reached, same⟩ := inside
    refine ⟨n :: rest, w, by simp, ?_, ?_, by rw [same]; simp⟩
    · intro s member
      rcases List.mem_cons.mp member with rfl | later
      · exact valid
      · exact valids s later
    · rw [List.map_cons, reach?, (Assoc.get?_eq_some_iff distinct).mpr member]
      exact reached
  · rintro ⟨rest, w, nonempty, valids, reached, same⟩
    obtain ⟨n, rest, rfl⟩ := List.exists_cons_of_ne_nil nonempty
    have valid := valids n (List.mem_cons_self ..)
    rw [List.map_cons, reach?, Option.bind_eq_some_iff] at reached
    obtain ⟨v, found, reached⟩ := reached
    have member := Assoc.mem_of_get? found
    refine ⟨_, ⟨_, member, rfl⟩, ?_⟩
    rw [CodeTable.unescape_escape CodeTable.lawful_segment, Path.join_ofSegments names, each _ v member n valid]
    exact ⟨rest, w, fun s later => valids s (List.mem_cons_of_mem _ later), reached, by rw [same]; simp⟩

mutual

/-- A listing holds the path of every place at or below its start where a value stands, with the node there. -/
theorem mem_listing : (v : Value) → v.Escaped → v.Distinct → ∀ segs : List String, (∀ s ∈ segs, IsName s) →
    (e ∈ listing (ofSegments segs) v ↔
      ∃ rest w, (∀ s ∈ rest, IsName s) ∧ v.reach? (rest.map CodeTable.segment.escape) = some w ∧
        e = (ofSegments (segs ++ rest), ofValue? w))
  | .mapping entries, escaped, distinct, segs, names => by
    have unmerged : Assoc.ofPairs (listings (ofSegments segs) entries) = listings (ofSegments segs) entries := by
      refine Assoc.ofPairs_of_nodup ?_
      rw [listings_eq, Assoc.names, List.map_map]
      exact nodup_unescape (escape_unescape escaped) distinct.1
    have below := mem_listings (e := e) names escaped distinct.1 fun key v member n valid =>
      mem_listing_of_mem entries escaped distinct.2 key v member _ (Path.names_concat names valid)
    rw [listing, unmerged, List.mem_append, mem_joinListings, below, List.mem_singleton]
    constructor
    · rintro (⟨rest, w, -, valids, reached, same⟩ | same)
      · exact ⟨rest, w, valids, reached, same⟩
      · exact ⟨[], .mapping entries, by simp, rfl, by simp [same]⟩
    · rintro ⟨rest, w, valids, reached, same⟩
      by_cases here : rest = []
      · subst here
        obtain rfl : Value.mapping entries = w := by simpa [reach?] using reached
        exact .inr (by simpa using same)
      · exact .inl ⟨rest, w, here, valids, reached, same⟩
  | .null, _, _, segs, _ | .bool _, _, _, segs, _ | .int _, _, _, segs, _ | .real _, _, _, segs, _
  | .text _, _, _, segs, _ | .list _, _, _, segs, _ => List.mem_singleton.trans (mem_scalar rfl segs).symm

theorem mem_listing_of_mem : (entries : List (String × Value)) → EscapedEntries entries → DistinctEntries entries →
    ∀ key v, (key, v) ∈ entries → ∀ segs : List String, (∀ s ∈ segs, IsName s) →
    (e ∈ listing (ofSegments segs) v ↔
      ∃ rest w, (∀ s ∈ rest, IsName s) ∧ v.reach? (rest.map CodeTable.segment.escape) = some w ∧
        e = (ofSegments (segs ++ rest), ofValue? w))
  | (_, first) :: others, escaped, distinct, key, v, member, segs, names => by
    rcases List.mem_cons.mp member with same | later
    · cases same
      exact mem_listing first escaped.2.1 distinct.1 segs names
    · exact mem_listing_of_mem others escaped.2.2 distinct.2 key v later segs names

end

/-- A walk of a directory visits every place below it where a value stands, and nothing else. -/
theorem mem_walk (names : ∀ s ∈ segs, IsName s) (escaped : EscapedEntries entries)
    (distinct : Value.Distinct (.mapping entries)) :
    e ∈ walk (ofSegments segs) (.directory (childrenOf entries)) ↔
      ∃ rest w, rest ≠ [] ∧ (∀ s ∈ rest, IsName s) ∧
        (Value.mapping entries).reach? (rest.map CodeTable.segment.escape) = some w ∧
        e = (ofSegments (segs ++ rest), ofValue? w) := by
  have below := mem_listings (e := e) names escaped distinct.1 fun key v member n valid =>
    mem_listing_of_mem entries escaped distinct.2 key v member _ (Path.names_concat names valid)
  have visited : (childrenOf entries).map (fun c => (c.1, listing (Path.join (ofSegments segs) c.1) c.2)) =
      listings (ofSegments segs) entries := by
    rw [childrenOf_eq (escape_unescape escaped) distinct.1, listings_eq, List.map_map]
    rfl
  rw [walk, visited, List.mem_filter, mem_joinListings, below]
  constructor
  · exact fun both => both.1
  · rintro ⟨rest, w, nonempty, valids, reached, same⟩
    refine ⟨⟨rest, w, nonempty, valids, reached, same⟩, ?_⟩
    have further : ofSegments (segs ++ rest) ≠ ofSegments segs := by
      rw [ne_eq, Path.ofSegments_inj (Path.names_append names valids) names]
      simp [nonempty]
    simp [same, further]

end Node

end TreeShell
