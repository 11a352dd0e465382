import TreeShell.Proofs.Pipeline.Interleaved
import TreeShell.Proofs.Verb.Leaves
import TreeShell.Proofs.Verb.Uproots

/-! # What becomes of the placeholder

Without elevation `rm` and `mv` refuse to take the placeholder out of a directory. But an entry of that name can be a
directory too, and who empties it makes the store forget it. That is the only way in which a directory loses its
placeholder while neither it nor anything above is written or removed (`Interleaved.placeholder_lost_iff`).
-/

namespace TreeShell

open Key (IsOrdinary nodePlace passwordDirectory treeRoot)
open Path (IsName IsProper IsResolved isResolved_resolve ofSegments)
open Verb

/-- Whether a directory has an entry with the name of the placeholder. -/
def Store.HasPlaceholder (s : Store) (path : String) : Prop :=
  ∃ children, s.node? path = some (.directory children) ∧ placeholderName ∈ Assoc.names children

instance (s : Store) (path : String) : Decidable (s.HasPlaceholder path) :=
  match found : s.node? path with
  | some (.directory children) =>
    decidable_of_iff (placeholderName ∈ Assoc.names children) ⟨fun member => ⟨children, found, member⟩,
      fun ⟨others, found', member⟩ => by
        rw [found] at found'
        cases found'
        exact member⟩
  | some (.file content) => .isFalse fun ⟨children, found', _⟩ => by
      rw [found] at found'
      cases found'
  | none => .isFalse fun ⟨children, found', _⟩ => by
      rw [found] at found'
      cases found'

/-- Whether a call takes the last thing out of a directory, by removing it or by moving it elsewhere. -/
def VerbCall.Drains (call : VerbCall) (s : Store) (cwd path : String) : Prop :=
  match call with
  | .rm args => s.Empties (Path.resolve (removalLabel args) cwd) path
  | .mv source target =>
    (s.set (Key.node (arrival s cwd source target)) (s.get (Key.node (Path.resolve source cwd)))).Empties
      (Path.resolve source cwd) path
  | _ => False

theorem proper_placeholderName : IsProper placeholderName := by
  decide

variable {s : Store} {cwd path name label : String}

theorem Verb.RemoveReady.present {u v : Solo} {args : List String} {elevated : Bool} {node : Node}
    (ready : RemoveReady u v args elevated node) :
    u.store.get (Key.node (Path.resolve (removalLabel args) u.cwd)) ≠ .null := by
  intro gone
  have found := ready.found
  rw [Store.node?, loaded_of_ne_root ready.notRoot, gone] at found
  cases found

namespace VerbCall

variable {call : VerbCall} {u : Solo}

/-- Without elevation a call removes what is there and ordinary, but no placeholder. -/
theorem removed_operand (call : VerbCall) (identity : String) {u : Solo} {label : String}
    (removes : call.removedLabel? = some label)
    (replies : ∃ reply, ((call.program identity none).play u).1 = .ok reply) :
    IsOrdinary (Path.resolve label u.cwd) ∧ Path.name (Path.resolve label u.cwd) ≠ placeholderName ∧
      u.store.get (Key.node (Path.resolve label u.cwd)) ≠ .null := by
  obtain ⟨reply, replied⟩ := replies
  cases call with
  | rm args =>
    obtain rfl : removalLabel args = label := Option.some.inj removes
    rcases rm_cases args none u with refused | ⟨v, node, ready, -⟩
    · obtain ⟨refusal, refusing⟩ := refused.refusal
      exact absurd (refusing.symm.trans replied) nofun
    · exact ⟨ready.ordinary, ready.notPlaceholder.resolve_left nofun, ready.present⟩
  | mv source target =>
    obtain rfl : source = label := Option.some.inj removes
    rcases mv_cases source target none u with refused | ⟨v, node, ready, -⟩
    · obtain ⟨refusal, refusing⟩ := refused.refusal
      exact absurd (refusing.symm.trans replied) nofun
    · exact ⟨ready.source_ordinary, ready.notPlaceholder.resolve_left nofun, ready.present⟩
  | _ => cases removes

/-- A call that drains a directory removes something in it. -/
theorem Drains.removes (drains : call.Drains s cwd path) :
    ∃ label, call.removedLabel? = some label ∧ Path.isWithin (Path.resolve label cwd) path = true ∧
      Path.resolve label cwd ≠ path := by
  cases call with
  | rm args => exact ⟨_, rfl, drains.1, drains.2.1⟩
  | mv source target => exact ⟨_, rfl, drains.1, drains.2.1⟩
  | _ => exact drains.elim

theorem mem_written_of_removes (removes : call.removedLabel? = some label) :
    Path.resolve label cwd ∈ call.written s cwd := by
  cases call with
  | rm args =>
    obtain rfl : removalLabel args = label := Option.some.inj removes
    exact List.mem_singleton_self _
  | mv source target =>
    obtain rfl : source = label := Option.some.inj removes
    exact List.mem_cons_self ..
  | _ => cases removes

end VerbCall

/-- What a value leaves bare lies strictly below where it is written. -/
theorem Value.Uncovers.within {value : Value} {target path : String} (uncovers : value.Uncovers target path)
    (resolved : IsResolved path) (targetResolved : IsResolved target) :
    Path.isWithin path target = true ∧ target ≠ path := by
  obtain ⟨rest, below, same, -⟩ := uncovers
  constructor
  · obtain ⟨segs, names, rfl⟩ := resolved.exists_names
    obtain ⟨others, otherNames, rfl⟩ := targetResolved.exists_names
    rw [Path.isWithin_ofSegments names otherNames, ← Key.nodePlace_prefix_iff, ← Key.components_node names,
      ← Key.components_node otherNames, same]
    exact List.prefix_append ..
  · rintro rfl
    exact below (List.self_eq_append_right.mp same)

/-- The path of the placeholder of a directory. -/
def placeholderPath (path : String) : String :=
  Path.join path placeholderName

/-- What the placeholder lies within, other than a placeholder, is above its directory. -/
theorem isWithin_of_placeholderPath {other : String} (resolved : IsResolved path) (otherResolved : IsResolved other)
    (within : Path.isWithin (placeholderPath path) other = true) (notPlaceholder : Path.name other ≠ placeholderName) :
    Path.isWithin path other = true := by
  rw [placeholderPath, resolved.isWithin_join proper_placeholderName.1 otherResolved] at within
  refine within.resolve_left fun same => notPlaceholder ?_
  rw [same, resolved.name_join proper_placeholderName.1]

theorem ordinary_placeholderPath (resolved : IsResolved path) (outside : Key.isMetadata path = false) :
    IsOrdinary (placeholderPath path) := by
  have child := resolved.join proper_placeholderName
  have metadata : IsResolved Key.metadataPath := ⟨[passwordDirectory], by decide, by decide⟩
  refine ⟨child, ?_, ?_⟩
  · intro root
    have same := resolved.name_join proper_placeholderName.1
    rw [← placeholderPath, root] at same
    exact absurd same (by decide)
  · rw [← Bool.not_eq_true, Key.isMetadata, placeholderPath,
      resolved.isWithin_join proper_placeholderName.1 metadata]
    rintro (same | inside)
    · have name := resolved.name_join proper_placeholderName.1
      rw [← same] at name
      exact absurd name (by decide)
    · cases inside.symm.trans outside

/-- A call that writes neither a directory nor anything above leaves the placeholder in what it writes. -/
theorem Value.Uncovers.written {value : Value} {target path : String} (uncovers : value.Uncovers target (placeholderPath path))
    (resolved : IsResolved path) (targetResolved : IsResolved target) : Path.isWithin path target = true := by
  obtain ⟨within, proper⟩ := uncovers.within (resolved.join proper_placeholderName) targetResolved
  rw [placeholderPath, resolved.isWithin_join proper_placeholderName.1 targetResolved] at within
  exact within.resolve_left proper

/-- A call that writes neither a directory nor anything above uproots its placeholder just by draining it. -/
theorem VerbCall.uproots_iff {call : VerbCall} (resolved : IsResolved path)
    (away : ∀ p ∈ call.written s cwd, Path.isWithin path p = false)
    (notRoot : ∀ label ∈ call.removedLabel?, Path.resolve label cwd ≠ "/") :
    call.Uproots s cwd (placeholderPath path) ↔ call.Drains s cwd (placeholderPath path) := by
  have spared {target : String} (targetResolved : IsResolved target) (member : target ∈ call.written s cwd) {value : Value} :
      ¬ value.Uncovers target (placeholderPath path) :=
    fun uncovers => absurd ((uncovers.written resolved targetResolved).symm.trans (away target member)) nofun
  cases call with
  | cp source target => exact iff_false_intro (spared (isResolved_resolve ..) (List.mem_singleton_self _))
  | mv source target =>
    have arrives := (isResolved_arrival (notRoot source rfl) s target).1
    constructor
    · rintro ⟨-, uncovers | empties⟩
      · exact absurd uncovers (spared arrives (by simp [written]))
      · exact empties
    · intro empties
      exact ⟨Store.Empties.not_within empties (resolved.join proper_placeholderName) (isResolved_resolve ..), .inr empties⟩
  | _ => exact Iff.rfl

/-- Outside the metadata a call takes the placeholder of a directory just by draining it, if it writes or removes
neither the directory nor anything above. -/
theorem placeholder_gone_iff (call : VerbCall) (identity : String) {u : Solo} (sound : u.store.Sound)
    (resolved : IsResolved path) (outside : Key.isMetadata path = false)
    (there : u.store.get (Key.node (placeholderPath path)) ≠ .null)
    (away : ∀ p ∈ call.written u.store u.cwd, Path.isWithin path p = false) :
    ((call.program identity none).play u).2.store.get (Key.node (placeholderPath path)) = .null ↔
      (∃ reply, ((call.program identity none).play u).1 = .ok reply) ∧
        call.Drains u.store u.cwd (placeholderPath path) := by
  rw [call.displaces identity sound _ (ordinary_placeholderPath resolved outside) there]
  refine and_congr_right fun replies => ?_
  rw [VerbCall.uproots_iff resolved away fun label removes => (call.removed_operand identity removes replies).1.2.1]
  refine or_iff_right ?_
  rintro ⟨label, removes, within⟩
  have above := isWithin_of_placeholderPath resolved (isResolved_resolve ..) within
    (call.removed_operand identity removes replies).2.1
  exact absurd (above.symm.trans (away _ (VerbCall.mem_written_of_removes removes))) nofun

/-- In the metadata only the directory of all passwords can have such an entry: the password of a placeholder of the
root. -/
theorem Store.Orderly.metadata_eq (orderly : s.Orderly) (resolved : IsResolved path) (inside : Key.isMetadata path = true)
    (there : s.get (Key.node (placeholderPath path)) ≠ .null) : path = Key.metadataPath := by
  rw [placeholderPath, orderly.get_node_join resolved proper_placeholderName.1] at there
  obtain ⟨segs, names, rfl⟩ := resolved.exists_names
  obtain ⟨rest, rfl⟩ := (Key.isMetadata_ofSegments names).mp inside
  have member : CodeTable.segment.escape placeholderName ∈
      Assoc.names (Entries.ofValue (s.find (nodePlace ([passwordDirectory] ++ rest)))) := by
    rw [get_node names] at there
    by_contra absent
    rw [← Assoc.get?_eq_none_iff] at absent
    rw [absent] at there
    exact there rfl
  obtain ⟨further, leaf, seated⟩ := orderly.exists_leaf member
  have own : CodeTable.segment.escape passwordDirectory = passwordDirectory := by decide
  generalize whole : ([passwordDirectory] ++ rest).map CodeTable.segment.escape ++
    CodeTable.segment.escape placeholderName :: further = above at seated
  cases seated with
  | @node others leaf filled proper outside =>
    cases others with
    | nil => exact absurd rfl filled
    | cons first others =>
      rw [Key.escape_injective (List.cons.inj whole).1] at outside
      exact absurd rfl outside
  | password text filled =>
    cases rest with
    | nil => decide
    | cons n rest => simp at whole

theorem get_password_placeholder (s : Store) : s.get (Key.node (placeholderPath Key.metadataPath)) =
    s.entry (Key.passwordEntry (placeholderPath "/")) := by
  have place : Key.components (Key.node (placeholderPath Key.metadataPath)) =
      Key.passwordPlace ++ [Key.passwordEntry (placeholderPath "/")] := by
    decide +kernel
  rw [Store.get, place, Store.entry]

/-- The password of a placeholder of the root stays. -/
theorem placeholder_password_kept (call : VerbCall) (identity : String) {u : Solo} (sound : u.store.Sound)
    (there : u.store.entry (Key.passwordEntry (placeholderPath "/")) ≠ .null) :
    ((call.program identity none).play u).2.store.entry (Key.passwordEntry (placeholderPath "/")) ≠ .null := by
  have root : IsResolved "/" := ⟨[], by decide, by decide⟩
  have child := root.join proper_placeholderName
  have guarded (label : String) (removes : call.removedLabel? = some label) := call.removed_operand identity (u := u) removes
  have touches := call.touches identity sound
  generalize (call.program identity none).play u = r at touches guarded
  cases touches with
  | nothing spares same => rwa [same]
  | @dropped label removes replies known others =>
    obtain ⟨ordinary, notPlaceholder, -⟩ := guarded label removes replies
    have spared : ¬ u.store.GoesWith (placeholderPath "/") (Path.resolve label u.cwd) := by
      rintro (same | ⟨within, -⟩)
      · rw [← same, placeholderPath, root.name_join proper_placeholderName.1] at notPlaceholder
        exact notPlaceholder rfl
      · exact ordinary.2.1 (ordinary.1.eq_root (isWithin_of_placeholderPath root ordinary.1 within notPlaceholder))
    rwa [known (placeholderPath "/") child, if_neg spared]
  | entered label password protects filled twice allowed change =>
    rw [change]
    split
    · exact nofun
    · exact there

/-- A verb that is called without elevation, on a store that identities have brought about without elevation, and that
writes or removes neither a directory nor anything above takes the placeholder from the directory exactly if it does
not refuse and drains the placeholder, a directory itself. -/
theorem Interleaved.placeholder_lost_iff {shells : List Shell} {w : World} (interleaved : Interleaved shells w)
    (call : VerbCall) (identity : String) {u : Solo} (same : u.store = w.backend.store) {path : String}
    (resolved : IsResolved path) (held : w.backend.store.HasPlaceholder path)
    (away : ∀ p ∈ call.written u.store u.cwd, Path.isWithin path p = false) :
    (¬ ((call.program identity none).play u).2.store.HasPlaceholder path ↔
      (∃ reply, ((call.program identity none).play u).1 = .ok reply) ∧
        call.Drains u.store u.cwd (placeholderPath path)) ∧
    ∀ content, w.backend.store.node? (placeholderPath path) = some (.file content) →
      ((call.program identity none).play u).2.store.HasPlaceholder path := by
  rw [← same] at held ⊢
  have orderly : u.store.Orderly := same ▸ interleaved.orderly
  have after : ((call.program identity none).play u).2.store.Orderly :=
    (Program.Keeps.play (I := fun _ : Unit => Store.Orderly) (i := ()) (call.keeps (Store.orderly_upkeep identity)) u orderly).1
  have there := (orderly.mem_names_iff resolved proper_placeholderName.1).mp held
  have lost : ¬ ((call.program identity none).play u).2.store.HasPlaceholder path ↔
      (∃ reply, ((call.program identity none).play u).1 = .ok reply) ∧
        call.Drains u.store u.cwd (placeholderPath path) := by
    rw [Store.HasPlaceholder, after.mem_names_iff resolved proper_placeholderName.1, not_not, ← placeholderPath]
    cases metadata : Key.isMetadata path with
    | false => exact placeholder_gone_iff call identity orderly.sound resolved metadata there away
    | true =>
      obtain rfl := orderly.metadata_eq resolved metadata there
      rw [← placeholderPath, get_password_placeholder] at there
      rw [get_password_placeholder]
      refine iff_of_false (placeholder_password_kept call identity orderly.sound there) ?_
      rintro ⟨replies, drains⟩
      obtain ⟨label, removes, within, -⟩ := drains.removes
      obtain ⟨ordinary, -⟩ := call.removed_operand identity removes replies
      have below : Path.isWithin (placeholderPath Key.metadataPath) Key.metadataPath = true := by decide
      have inside := ordinary.1.isWithin_trans (resolved.join proper_placeholderName) resolved within below
      exact absurd (inside.symm.trans ordinary.2.2) nofun
  refine ⟨lost, fun content file => ?_⟩
  by_contra gone
  obtain ⟨replies, drains⟩ := lost.mp gone
  obtain ⟨label, removes, within, proper⟩ := drains.removes
  obtain ⟨ordinary, -, present⟩ := call.removed_operand identity removes replies
  exact (Store.open_node_of_present present).not_file ordinary.1 (resolved.join proper_placeholderName) within
    (Ne.symm proper) content file

/-- Lines that make a directory and copy another one over its placeholder. -/
def copyOverPlaceholder : List (String × List Answer) :=
  [("mkdir d", []), ("vim x/f", [some "y"]), ("cp x d/DONOTDELETE", [])]

/-- The session after these lines. -/
def copiedOverPlaceholder : Solo :=
  ⟨(Shell.alone "alice" copyOverPlaceholder).2.backend.store, "/", [], [], []⟩

theorem store_copyOverPlaceholder : (Shell.alone "alice" copyOverPlaceholder).2.backend.store =
    ⟨[("cwd", .mapping [("alice", .text "/")]),
      ("shellFS", .mapping [("d", .mapping [("DONOTDELETE", .mapping [("f", .text "y")])]),
        ("x", .mapping [("f", .text "y")])])]⟩ := by
  decide +kernel

theorem held_copiedOverPlaceholder : (Shell.alone "alice" copyOverPlaceholder).2.backend.store.HasPlaceholder "/d" := by
  rw [store_copyOverPlaceholder]
  decide +kernel

theorem lost_copiedOverPlaceholder : ¬ (((VerbCall.rm ["d/DONOTDELETE/f"]).program "alice" none).play
    copiedOverPlaceholder).2.store.HasPlaceholder "/d" := by
  rw [copiedOverPlaceholder, store_copyOverPlaceholder]
  decide +kernel

theorem away_copiedOverPlaceholder :
    ∀ p ∈ (VerbCall.rm ["d/DONOTDELETE/f"]).written copiedOverPlaceholder.store copiedOverPlaceholder.cwd,
      Path.isWithin "/d" p = false := by
  intro p member
  rw [List.mem_singleton.mp member]
  decide

theorem resolved_d : IsResolved "/d" :=
  ⟨["d"], by decide, by decide⟩

/-- Removing the only file below the placeholder drains it. -/
theorem Interleaved.placeholder_lost_iff_on_removal :
    (VerbCall.rm ["d/DONOTDELETE/f"]).Drains copiedOverPlaceholder.store copiedOverPlaceholder.cwd (placeholderPath "/d") := by
  have interleaved := Interleaved.alone "alice" copyOverPlaceholder
  have same : copiedOverPlaceholder.store = (Shell.alone "alice" copyOverPlaceholder).2.backend.store := by
    rw [copiedOverPlaceholder]
  have lost := (placeholder_lost_iff interleaved (.rm ["d/DONOTDELETE/f"]) "alice" same resolved_d
    held_copiedOverPlaceholder away_copiedOverPlaceholder).1
  exact (lost.mp lost_copiedOverPlaceholder).2

/-- It is not so that a directory keeps its placeholder whatever verb is called that writes or removes neither the
directory nor anything above. -/
theorem Interleaved.placeholder_not_kept :
    ¬ ∀ shells w, Interleaved shells w → ∀ (call : VerbCall) (identity : String) (u : Solo), u.store = w.backend.store →
      ∀ path, IsResolved path → w.backend.store.HasPlaceholder path →
        (∀ p ∈ call.written u.store u.cwd, Path.isWithin path p = false) →
        ((call.program identity none).play u).2.store.HasPlaceholder path := by
  intro keeps
  have interleaved := Interleaved.alone "alice" copyOverPlaceholder
  have same : copiedOverPlaceholder.store = (Shell.alone "alice" copyOverPlaceholder).2.backend.store := by
    rw [copiedOverPlaceholder]
  exact lost_copiedOverPlaceholder (keeps _ _ interleaved (.rm ["d/DONOTDELETE/f"]) "alice" copiedOverPlaceholder same "/d"
    resolved_d held_copiedOverPlaceholder away_copiedOverPlaceholder)

end TreeShell
