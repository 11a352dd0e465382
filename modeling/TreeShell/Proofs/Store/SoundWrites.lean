import TreeShell.Proofs.Store.Sound
import TreeShell.Verb.Create

/-! # Writes that keep a store sound

A write keeps a store sound if its value is tidy and it goes to a place of escaped names in the file tree.
Passwords and working directories lie outside of what has to be escaped, so no more is asked of a write
there than that its value is free of nulls, empty mappings and repeated names (`Sound.put`).
-/

namespace TreeShell

open Key (IsEscaped IsOrdinary nodePlace passwordDirectory treeRoot)
open Path (IsName IsResolved ofSegments)

namespace Assoc

variable {α : Type}

theorem mem_erase {name : String} {entries : Assoc α} {e : String × α} :
    e ∈ erase name entries ↔ e ∈ entries ∧ e.1 ≠ name := by
  simp [erase, List.mem_filter]

end Assoc

namespace Entries

open Value

variable {name first dropped : String} {place rest : List String} {value : Value} {entries : Entries}

theorem escaped_ofValue (escaped : value.Escaped) : EscapedEntries (ofValue value) := by
  cases value with
  | mapping entries => exact escaped
  | _ => trivial

/-- A write at a place of escaped names leaves no other keys behind. -/
theorem escaped_put (names : ∀ n ∈ place, IsEscaped n) (escaped : value.Escaped) (kept : EscapedEntries entries) :
    EscapedEntries (put place value entries) := by
  have stored {name : String} {value : Value} {entries : Entries} (valid : IsEscaped name) (escaped : value.Escaped)
      (kept : EscapedEntries entries) : EscapedEntries (store name value entries) := by
    rw [escapedEntries_iff] at kept ⊢
    intro e member
    rcases mem_store member with old | ⟨rfl, -⟩
    · exact kept e old
    · exact ⟨valid, escaped⟩
  induction place generalizing entries with
  | nil => exact escaped_ofValue escaped
  | cons name place ih =>
    have valid := names name (List.mem_cons_self ..)
    cases place with
    | nil => exact stored valid escaped kept
    | cons next place =>
      rcases put_cons_cons name next place value entries with ⟨-, -, same⟩ | ⟨-, changed⟩
      · rwa [same]
      · rw [changed]
        refine stored valid (ih (fun n member => names n (List.mem_cons_of_mem _ member)) (escaped_ofValue ?_)) kept
        have found := (Escaped.find (v := .mapping entries) kept [name])
        rwa [find_mapping_cons, find_nil] at found

/-- One name may be left out of account, also where the write goes below it. -/
theorem escaped_erase_put (kept : EscapedEntries (Assoc.erase dropped entries))
    (names : first ≠ dropped → (∀ n ∈ first :: rest, IsEscaped n) ∧ value.Escaped) :
    EscapedEntries (Assoc.erase dropped (put (first :: rest) value entries)) := by
  have stored {child : Value} (escaped : first ≠ dropped → child.Escaped) :
      EscapedEntries (Assoc.erase dropped (store first child entries)) := by
    rw [escapedEntries_iff] at kept ⊢
    intro e member
    obtain ⟨inside, away⟩ := Assoc.mem_erase.mp member
    rcases mem_store inside with old | ⟨rfl, -⟩
    · exact kept e (Assoc.mem_erase.mpr ⟨old, away⟩)
    · exact ⟨(names away).1 _ (List.mem_cons_self ..), escaped away⟩
  cases rest with
  | nil => exact stored fun away => (names away).2
  | cons next rest =>
    rcases put_cons_cons first next rest value entries with ⟨-, -, same⟩ | ⟨-, changed⟩
    · rwa [same]
    · rw [changed]
      refine stored fun away => ?_
      obtain ⟨valid, escaped⟩ := names away
      exact escaped_put (fun n member => valid n (List.mem_cons_of_mem _ member)) escaped
        (escaped_ofValue (escaped_get?_of_erase kept away))

end Entries

namespace Store

variable {s : Store} {path : String} {place : List String} {value : Value}

/-- A write of a proper value keeps a store sound if in the file tree, passwords apart, it only brings
escaped names. -/
theorem Sound.put (sound : s.Sound) (settled : value.Settled) (distinct : value.Distinct) (notRoot : place ≠ [])
    (inside : ∀ rest, place = treeRoot :: rest → ∃ first others, rest = first :: others ∧
      (first ≠ passwordDirectory → (∀ n ∈ rest, IsEscaped n) ∧ value.Escaped)) : (s.put place value).Sound := by
  refine ⟨Entries.canonical_put _ (Value.settled_prune _) sound.canonical,
    Entries.distinct_put _ (Value.distinct_prune _ distinct) sound.distinct, ?_⟩
  obtain ⟨top, rest, rfl⟩ := List.exists_cons_of_ne_nil notRoot
  rw [Store.put, settled.prune_eq]
  by_cases inTree : top = treeRoot
  · subst inTree
    obtain ⟨first, others, rfl, names⟩ := inside rest rfl
    have above := Entries.find_put_above treeRoot first [] others value s.root
    rw [List.singleton_append] at above
    rw [above, Entries.ofValue_settle, Entries.putUnder]
    split
    · exact sound.escaped
    · exact Entries.escaped_erase_put sound.escaped names
  · rw [Entries.find_put_apart (apart_cons_of_ne inTree)]
    exact sound.escaped

/-- A tidy value may be written at an ordinary path. -/
theorem Sound.set_node (sound : s.Sound) (ordinary : IsOrdinary path) (tidy : value.Tidy) :
    (s.set (Key.node path) value).Sound := by
  obtain ⟨segs, names, notRoot, rfl⟩ := ordinary.exists_segments
  rw [set, Key.components_node names]
  refine sound.put tidy.settled tidy.distinct (by simp [nodePlace]) fun rest inTree => ?_
  obtain rfl : segs.map CodeTable.segment.escape = rest := (List.cons.inj inTree).2
  obtain ⟨first, others, rfl⟩ := List.exists_cons_of_ne_nil notRoot
  refine ⟨_, _, rfl, fun _ => ⟨fun n member => ?_, tidy.escaped⟩⟩
  obtain ⟨name, segment, rfl⟩ := List.mem_map.mp member
  exact ⟨name, names name segment, rfl⟩

theorem tidy_null : Value.Tidy .null :=
  ⟨.inl rfl, trivial, trivial⟩

theorem tidy_text (text : String) : Value.Tidy (.text text) :=
  ⟨.inr trivial, trivial, trivial⟩

theorem tidy_newDirectory : Verb.newDirectory.Tidy :=
  ⟨.inr (by decide), by decide, by decide⟩

theorem Sound.remove_node (sound : s.Sound) (ordinary : IsOrdinary path) : (s.remove (Key.node path)).Sound :=
  sound.set_node ordinary tidy_null

theorem Sound.set_password (sound : s.Sound) (resolved : IsResolved path) (password : String) :
    (s.set (Key.password path) (.text password)).Sound := by
  obtain ⟨segs, names, rfl⟩ := resolved.exists_names
  rw [set, Key.components_password names]
  refine sound.put (.inr trivial) trivial (by simp) fun rest inTree => ?_
  obtain rfl : passwordDirectory :: [Key.passwordEntry (ofSegments segs)] = rest := (List.cons.inj inTree).2
  exact ⟨_, _, rfl, fun away => absurd rfl away⟩

/-- Passwords may be dropped. -/
theorem Sound.removals (sound : s.Sound) (paths : List String) :
    (s.update Key.passwords (Vault.removals paths)).Sound := by
  refine removals_induction (fun path _ s sound => ?_) sound
  refine sound.put (.inl rfl) trivial (by simp [Key.passwordPlace]) fun rest inTree => ?_
  obtain rfl : passwordDirectory :: Key.components (Key.passwordEntry path) = rest := (List.cons.inj inTree).2
  exact ⟨_, _, rfl, fun away => absurd rfl away⟩

theorem Sound.set_cwd (sound : s.Sound) (identity cwd : String) : (s.set (Key.cwd identity) (.text cwd)).Sound := by
  rw [set, Key.components_cwd]
  refine sound.put (.inr trivial) trivial (by simp) fun rest inTree => ?_
  exact absurd (List.cons.inj inTree).1 (by decide)

theorem sound_empty : empty.Sound := by
  decide

end Store

end TreeShell
