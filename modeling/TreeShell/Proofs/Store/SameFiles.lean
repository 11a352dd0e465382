import TreeShell.Proofs.Store.Leaves
import TreeShell.Proofs.Text.Sorted
import TreeShell.Verb.Inspect

/-! # Stores with the same files

Taking passwords out of a store changes no ordinary node, and of the root only what the mapping of all
passwords is, which a listing without elevation leaves out. So the files are the same for every check that
a verb makes before its gate (`SameFiles.node?_cases`, `SameFiles.fileNearest_eq`).
-/

namespace TreeShell

open Key (IsOrdinary passwordDirectory passwordEntry passwordPlace)
open Path (IsName IsProper IsResolved ofSegments)

namespace Assoc

variable {α : Type}

/-- A name can be dropped before a map is built from pairs. -/
theorem erase_ofPairs (name : String) (pairs : List (String × α)) :
    erase name (ofPairs pairs) = ofPairs (erase name pairs) := by
  suffices ∀ built : Assoc α, erase name (pairs.foldl (fun entries p => insert p.1 p.2 entries) built) =
      (erase name pairs).foldl (fun entries p => insert p.1 p.2 entries) (erase name built) from this []
  induction pairs with
  | nil => exact fun _ => rfl
  | cons p rest ih =>
    intro built
    rw [List.foldl_cons, ih, erase_insert]
    by_cases same : p.1 = name
    · simp [erase, same]
    · simp [erase, same]

end Assoc

/-- Only a plain text is read back as a text without special characters. -/
theorem CodeTable.unescape_eq_of_plain {t : CodeTable} {s key : String}
    (plain : s.toList.all fun c => (t.codes.lookup c).isNone) (read : t.unescape key = s) : key = s := by
  simp only [List.all_eq_true, Option.isNone_iff_eq_none] at plain
  have decoded (cs : List Char) (free : ∀ c ∈ t.decodeAfter 0 cs, t.codes.lookup c = none) :
      t.decodeAfter 0 cs = cs := by
    induction cs with
    | nil => rfl
    | cons c cs ih =>
      rw [CodeTable.decodeAfter] at free ⊢
      cases matched : t.match? (c :: cs) with
      | none =>
        rw [matched] at free
        exact congrArg (c :: ·) (ih fun x member => free x (List.mem_cons_of_mem _ member))
      | some code =>
        rw [matched] at free
        have bare := free code.1 (List.mem_cons_self ..)
        rw [List.lookup_eq_none_iff] at bare
        simpa using bare code (List.mem_of_find?_eq_some matched)
  rw [← read, CodeTable.unescape, String.toList_ofList] at plain
  rw [← read, CodeTable.unescape, CodeTable.decode, decoded _ plain, String.ofList_toList]

/-- Dropping the passwords from the entries of the root drops them from its children. -/
theorem Node.childrenOf_erase (entries : Entries) :
    childrenOf (Assoc.erase passwordDirectory entries) = Assoc.erase passwordDirectory (childrenOf entries) := by
  rw [childrenOf, childrenOf, Assoc.erase_ofPairs]
  refine congrArg Assoc.ofPairs ?_
  rw [Assoc.erase, Assoc.erase, List.filter_map]
  refine congrArg (List.map _) (List.filter_congr fun e _ => decide_eq_decide.mpr (not_congr ⟨fun same => ?_, fun same => ?_⟩))
  · change CodeTable.segment.unescape e.1 = passwordDirectory
    rw [same]
    decide
  · exact CodeTable.unescape_eq_of_plain (by decide) same

namespace Verb

theorem sort_filter_ne (name : String) (texts : List String) :
    Text.sort (texts.filter (· ≠ name)) = (Text.sort texts).filter (· ≠ name) := by
  apply List.Perm.eq_of_pairwise _ (Text.pairwise_sort _) ((Text.pairwise_sort texts).filter _)
  · exact (Text.perm_sort _).trans ((Text.perm_sort texts).filter _).symm
  · intro a b _ _ below above
    exact String.le_antisymm below above

/-- A listing of the root without elevation shows nothing of the passwords. -/
theorem directoryListing_erase (children : Entries) :
    directoryListing "/" (Assoc.erase passwordDirectory children) false = directoryListing "/" children false := by
  have hidden : Key.isMetadata (Path.join "/" passwordDirectory) = true := by decide
  have dropped : Assoc.names (Assoc.erase passwordDirectory children) =
      (Assoc.names children).filter (· ≠ passwordDirectory) := by
    rw [Assoc.names, Assoc.names, Assoc.erase, List.filter_map]
    rfl
  have same : visibleNames "/" (Assoc.erase passwordDirectory children) false = visibleNames "/" children false := by
    rw [visibleNames, visibleNames, if_pos ⟨rfl, rfl⟩, if_pos ⟨rfl, rfl⟩, dropped, sort_filter_ne, List.filter_filter]
    refine List.filter_congr fun n _ => ?_
    by_cases here : n = passwordDirectory
    · rw [here, hidden]
      rfl
    · simp [here]
  have shown (n : String) (visible : n ∈ visibleNames "/" children false) : n ≠ passwordDirectory := by
    rintro rfl
    rw [visibleNames, if_pos ⟨rfl, rfl⟩, List.mem_filter, hidden] at visible
    exact Bool.false_ne_true visible.2
  rw [directoryListing, directoryListing, same]
  generalize visibleNames "/" children false = names at shown
  cases names with
  | nil => rfl
  | cons first rest =>
    refine congrArg "\n".intercalate (List.map_congr_left fun n member => ?_)
    rw [Assoc.get?_erase, if_neg (shown n member)]

end Verb

open Verb (directoryListing directoryListing_erase)

namespace Store

variable {s t w : Store} {path : String}

/-- Whether the second store has the files of the first: the same ordinary nodes, and the same at the root
but for the passwords. -/
structure SameFiles (s t : Store) : Prop where
  node : ∀ path, IsOrdinary path → t.get (Key.node path) = s.get (Key.node path)
  root : Assoc.erase passwordDirectory (Entries.ofValue (t.get (Key.node "/"))) =
    Assoc.erase passwordDirectory (Entries.ofValue (s.get (Key.node "/")))

/-- Whether look-ups of a path found nodes that are the same but for passwords. -/
inductive SameNode (path : String) : Option Node → Option Node → Prop
  | absent : SameNode path none none
  | file (content : String) : SameNode path (some (.file content)) (some (.file content))
  | directory {children others : Entries}
    (listing : directoryListing path others false = directoryListing path children false)
    (same : path ≠ "/" → others = children) : SameNode path (some (.directory children)) (some (.directory others))

theorem node?_root (s : Store) :
    s.node? "/" = some (.directory (Node.childrenOf (Entries.ofValue (s.get (Key.node "/"))))) := by
  rw [node?]
  generalize s.get (Key.node "/") = v
  cases v with
  | bool b => cases b <;> rfl
  | _ => rfl

namespace SameFiles

theorem refl (s : Store) : s.SameFiles s :=
  ⟨fun _ _ => rfl, rfl⟩

theorem trans (first : s.SameFiles t) (second : t.SameFiles w) : s.SameFiles w :=
  ⟨fun path ordinary => (second.node path ordinary).trans (first.node path ordinary), second.root.trans first.root⟩

theorem node?_eq (same : s.SameFiles t) (ordinary : IsOrdinary path) : t.node? path = s.node? path := by
  rw [node?, node?, same.node path ordinary]

theorem node?_cases (same : s.SameFiles t) (resolved : IsResolved path) (outside : Key.isMetadata path = false) :
    SameNode path (s.node? path) (t.node? path) := by
  by_cases root : path = "/"
  · subst root
    rw [node?_root, node?_root]
    refine .directory ?_ fun notRoot => absurd rfl notRoot
    rw [← directoryListing_erase, ← Node.childrenOf_erase, same.root, Node.childrenOf_erase, directoryListing_erase]
  · rw [same.node?_eq ⟨resolved, root, outside⟩]
    cases s.node? path with
    | none => exact .absent
    | some node =>
      cases node with
      | file content => exact .file content
      | directory children => exact .directory rfl fun _ => rfl

end SameFiles

/-! ## Ancestors -/

/-- The ancestors of a path that is not metadata are ordinary. -/
theorem ordinary_of_mem_ancestors {segs : List String} (proper : ∀ s ∈ segs, IsProper s)
    (outside : Key.isMetadata (ofSegments segs) = false) : ∀ path ∈ Path.ancestors (ofSegments segs), IsOrdinary path := by
  induction segs using List.reverseRecOn with
  | nil => exact fun path member => absurd member (by decide +revert)
  | append_singleton front n ih =>
    have frontProper (m : String) (member : m ∈ front) : IsProper m := proper m (List.mem_append_left _ member)
    have frontNames (m : String) (member : m ∈ front) : IsName m := (frontProper m member).1
    have valid : IsName n := (proper n (by simp)).1
    have frontOutside : Key.isMetadata (ofSegments front) = false := by
      rw [Bool.eq_false_iff] at outside ⊢
      intro inside
      rw [Key.isMetadata_ofSegments frontNames] at inside
      rw [ne_eq, Key.isMetadata_ofSegments (Path.names_concat frontNames valid)] at outside
      exact outside (inside.trans (List.prefix_append ..))
    rw [Path.ancestors_concat frontNames valid]
    split
    · exact fun path member => absurd member List.not_mem_nil
    · next notRoot =>
      intro path member
      rcases List.mem_cons.mp member with rfl | further
      · refine ⟨Path.isResolved_iff.mpr ⟨front, frontProper, rfl⟩, ?_, frontOutside⟩
        exact mt (Path.ofSegments_eq_root_iff frontNames).mp notRoot
      · exact ih frontProper frontOutside path further

/-- A file above a path is one in both stores. -/
theorem SameFiles.fileNearest_eq (same : s.SameFiles t) (resolved : IsResolved path)
    (outside : Key.isMetadata path = false) :
    t.fileNearest (Path.ancestors path) = s.fileNearest (Path.ancestors path) := by
  obtain ⟨segs, proper, rfl⟩ := Path.isResolved_iff.mp resolved
  have ordinary := ordinary_of_mem_ancestors proper outside
  generalize Path.ancestors (ofSegments segs) = paths at ordinary
  induction paths with
  | nil => rfl
  | cons first rest ih =>
    rw [fileNearest, fileNearest, same.node?_eq (ordinary first (List.mem_cons_self ..)),
      ih fun path member => ordinary path (List.mem_cons_of_mem _ member)]

/-! ## Without passwords -/

/-- A store without the passwords of some paths. -/
def withoutPasswords (s : Store) (paths : List String) : Store :=
  paths.foldl (fun s path => s.remove (Key.password path)) s

theorem withoutPasswords_cons (s : Store) (path : String) (rest : List String) :
    s.withoutPasswords (path :: rest) = (s.remove (Key.password path)).withoutPasswords rest := rfl

theorem erase_store (name : String) (value : Value) (entries : Entries) :
    Assoc.erase name (Entries.store name value entries) = Assoc.erase name entries := by
  cases value with
  | null => exact Assoc.erase_erase name entries
  | mapping below =>
    cases below with
    | nil => exact Assoc.erase_erase name entries
    | cons e rest => exact (Assoc.erase_insert ..).trans (if_pos rfl)
  | _ => exact (Assoc.erase_insert ..).trans (if_pos rfl)

/-- Taking out a password leaves the files. -/
theorem sameFiles_remove_password (resolved : IsResolved path) (s : Store) :
    s.SameFiles (s.remove (Key.password path)) := by
  constructor
  · intro other ordinary
    rw [remove, get, find_put_apart (Key.apart_password_node resolved ordinary), get]
  · obtain ⟨segs, names, rfl⟩ := resolved.exists_names
    have place : Key.components (Key.password (ofSegments segs)) =
        Key.treeRoot :: [] ++ passwordDirectory :: [passwordEntry (ofSegments segs)] := Key.components_password names
    have atRoot : Key.components (Key.node "/") = [Key.treeRoot] := by decide
    have above := Entries.find_put_above Key.treeRoot passwordDirectory [] [passwordEntry (ofSegments segs)] .null s.root
    rw [remove, get, get, atRoot, find_eq_settle, find_eq_settle, put, place, Value.settled_null.prune_eq, above, Value.settle_settle,
      Entries.ofValue_settle, Entries.ofValue_settle, Entries.putUnder]
    split
    · rfl
    · rcases Entries.put_cons_cons passwordDirectory (passwordEntry (ofSegments segs)) [] .null
        (Entries.ofValue ((Value.mapping s.root).find [Key.treeRoot])) with ⟨-, -, kept⟩ | ⟨-, stored⟩
      · rw [kept]
        rfl
      · rw [stored]
        exact erase_store ..

theorem sameFiles_withoutPasswords {paths : List String} (resolved : ∀ path ∈ paths, IsResolved path) (s : Store) :
    s.SameFiles (s.withoutPasswords paths) := by
  induction paths generalizing s with
  | nil => exact .refl s
  | cons path rest ih =>
    have first := sameFiles_remove_password (resolved path (List.mem_cons_self ..)) s
    exact first.trans (ih (fun other member => resolved other (List.mem_cons_of_mem _ member)) _)

/-- The paths whose passwords are taken out have none. -/
theorem password?_withoutPasswords {paths : List String} (resolved : ∀ path ∈ paths, IsResolved path)
    (listed : path ∈ paths) (s : Store) : (s.withoutPasswords paths).password? path = none := by
  have entries (name : String) (s : Store) : (s.withoutPasswords paths).entry name =
      if ∃ path ∈ paths, passwordEntry path = name then .null else s.entry name := by
    clear listed
    induction paths generalizing s with
    | nil => simp [withoutPasswords]
    | cons first rest ih =>
      obtain ⟨segs, names, rfl⟩ := (resolved first (List.mem_cons_self ..)).exists_names
      rw [withoutPasswords_cons, ih fun other member => resolved other (List.mem_cons_of_mem _ member), remove,
        Key.components_password names, entry_put]
      have either : (∃ path ∈ ofSegments segs :: rest, passwordEntry path = name) ↔
          name = passwordEntry (ofSegments segs) ∨ ∃ path ∈ rest, passwordEntry path = name := by
        simp [eq_comm]
      by_cases here : name = passwordEntry (ofSegments segs)
      · rw [if_pos here, if_pos (either.mpr (.inl here))]
        exact ite_self _
      · simp only [either, here, if_false, false_or]
  rw [password?, get_password_of_resolved (resolved path listed), entries, if_pos ⟨path, listed, rfl⟩]
  rfl

/-- Taking out passwords reaches no leaf but those at and below them. -/
theorem leafAt_withoutPasswords {paths : List String} (resolved : ∀ path ∈ paths, IsResolved path)
    {place : List String} (outside : ∀ path ∈ paths, ¬ Key.components (Key.password path) <+: place) (s : Store) :
    (s.withoutPasswords paths).leafAt place = s.leafAt place := by
  induction paths generalizing s with
  | nil => rfl
  | cons first rest ih =>
    have notRoot := components_password_ne_nil (resolved first (List.mem_cons_self ..))
    rw [withoutPasswords_cons, ih (fun other member => resolved other (List.mem_cons_of_mem _ member))
      (fun other member => outside other (List.mem_cons_of_mem _ member))]
    exact leafAt_put_null notRoot (outside first (List.mem_cons_self ..)) s

end Store

end TreeShell
