import TreeShell.Proofs.Verb.Gate

/-! # Writes read back

What a verb writes is what later verbs find, whatever label they use for the path, from whatever working directory,
as long as they give its password. A new directory holds its placeholder and nothing else, stands in the listing of
its parent and cannot be made again; a copy is the value of the source as it was; a file that was saved or
redirected to shows its text, also an empty one (`VerbCall.writes_read_back`).
-/

namespace TreeShell

open Path (IsName IsResolved isResolved_resolve ofSegments)
open Verb

/-- Whether a verb that reads names a path of a store by its label and passes the gate. -/
structure Machine.Reads (m : Machine) (s : Store) (label path : String) (elevation : Option Elevation)
    (answers : List Answer) : Prop where
  noFaults : m.world.backend.faults = FaultSchedule.none
  store : m.world.backend.store = s
  names : Path.resolve label m.cwd = path
  passes : elevation.isSome = true ∨ s.opens path answers.head?.join = true

namespace Store

/-- Whether each `cat` of a path shows a text. -/
def Shows (s : Store) (path text : String) : Prop :=
  ∀ label identity elevation answers (m : Machine), label ≠ "" → m.Reads s label path elevation answers →
    (((VerbCall.cat label).program identity elevation).converse answers m).result = .ok (.ok text)

/-- Whether each `ls` of a path has a line for a name. -/
def Lists (s : Store) (path name : String) : Prop :=
  ∀ label identity elevation answers (m : Machine), m.Reads s label path elevation answers →
    ∃ lines, (((VerbCall.ls label).program identity elevation).converse answers m).result =
        .ok (.ok ("\n".intercalate lines)) ∧ ∃ isDirectory, nameLine isDirectory name ∈ lines

/-- Whether each `mkdir` of a path is refused because of what is there, and changes nothing. -/
def Occupied (s : Store) (path : String) : Prop :=
  ∀ args identity elevation answers (m : Machine), m.world.backend.faults = FaultSchedule.none →
    m.world.backend.store = s → (Operand.ofArgs args).label ≠ "" →
    Path.resolve (Operand.ofArgs args).label m.cwd = path →
    let d := ((VerbCall.mkdir args).program identity elevation).converse answers m
    d.result = .ok (.error (.nameInUse (Operand.ofArgs args).label)) ∧ d.machine.world.backend.store = s

variable {s : Store} {path : String}

/-- What stands at a path is a child of the directory above. -/
theorem exists_sibling (resolved : IsResolved path) (notRoot : path ≠ "/") (there : s.get (Key.node path) ≠ .null) :
    ∃ siblings, s.node? (Path.parent path) = some (.directory siblings) ∧ Path.name path ∈ Assoc.names siblings := by
  obtain ⟨front, last, frontNames, lastName, rfl⟩ := resolved.exists_names_concat notRoot
  rw [get_node_append frontNames (by simpa using lastName), List.map_singleton] at there
  rw [Path.parent_ofSegments front lastName, Path.name_ofSegments front lastName, node?]
  generalize s.get (Key.node (ofSegments front)) = v at there
  rcases v.mapping_or_scalar with ⟨entries, rfl⟩ | scalar
  · refine ⟨Node.childrenOf entries, rfl, ?_⟩
    have member : CodeTable.segment.escape last ∈ Assoc.names entries := by
      by_contra absent
      rw [Value.find_mapping_cons, Assoc.get?_eq_none_iff.mpr absent] at there
      exact there rfl
    obtain ⟨e, inside, same⟩ := List.mem_map.mp member
    rw [Node.childrenOf, Assoc.mem_names_ofPairs]
    refine List.mem_map.mpr ⟨_, List.mem_map_of_mem inside, ?_⟩
    rw [same, CodeTable.unescape_escape CodeTable.lawful_segment]
  · rw [Value.find_cons_of_not_mapping scalar] at there
    exact absurd rfl there

/-- The directory above a path outside the metadata is no metadata either. -/
theorem parent_outside (resolved : IsResolved path) (notRoot : path ≠ "/") (outside : Key.isMetadata path = false) :
    Key.isMetadata (Path.parent path) = false := by
  obtain ⟨front, last, frontNames, lastName, rfl⟩ := resolved.exists_names_concat notRoot
  rw [Path.parent_ofSegments front lastName, Bool.eq_false_iff, ne_eq, Key.isMetadata_ofSegments frontNames]
  rw [Bool.eq_false_iff, ne_eq, Key.isMetadata_ofSegments (Path.names_concat frontNames lastName)] at outside
  exact fun inside => outside (inside.trans (List.prefix_append ..))

end Store

namespace Verb

variable {u : Solo} {label path : String} {elevated : Bool}

/-- Elevation passes the gate, and outside the metadata so does the right password. -/
theorem gate_passes (label : String) (outside : Key.isMetadata path = false)
    (passes : elevated = true ∨ u.store.opens path u.answer = true) :
    ∃ v, u.Asks v ∧ (gate label path elevated).play u = (none, v) := by
  cases elevated with
  | true => exact ⟨u, .refl u, rfl⟩
  | false =>
    have opens := passes.resolve_left nofun
    rw [play_gate, outside]
    cases found : u.store.password? path with
    | none => exact ⟨u, .refl u, rfl⟩
    | some password =>
      rw [Store.password?] at found
      have right : u.answer = some password := by simpa [Store.opens, Vault.opens, found] using opens
      exact ⟨u.ask (passwordPrompt label), u.asks_ask _, by simp [right]⟩

/-- `cat` shows the file at a path if it passes the gate. -/
theorem play_cat {text : String} (filled : label ≠ "") {elevation : Option Elevation}
    (file : u.store.node? (Path.resolve label u.cwd) = some (.file text))
    (outside : Key.isMetadata (Path.resolve label u.cwd) = false)
    (passes : elevation.isSome = true ∨ u.store.opens (Path.resolve label u.cwd) u.answer = true) :
    ((cat label elevation).play u).1 = .ok text := by
  obtain ⟨v, -, passed⟩ := gate_passes label outside passes
  rw [cat, if_neg filled, Program.play_bind_eq (play_locate label u), Program.play_bind_eq (play_load _ u), file]
  dsimp only
  rw [Program.play_bind_eq passed]
  rfl

/-- `ls` lists the directory at a path if it passes the gate. -/
theorem play_ls {children : Entries} {elevation : Option Elevation}
    (directory : u.store.node? (Path.resolve label u.cwd) = some (.directory children))
    (outside : Key.isMetadata (Path.resolve label u.cwd) = false)
    (passes : elevation.isSome = true ∨ u.store.opens (Path.resolve label u.cwd) u.answer = true) :
    ((ls label elevation).play u).1 = .ok (directoryListing (Path.resolve label u.cwd) children elevation.isSome) := by
  obtain ⟨v, -, passed⟩ := gate_passes (if label = "" then Path.resolve label u.cwd else label) outside passes
  rw [ls, Program.play_bind_eq (play_locate label u), Program.play_bind_eq (play_load _ u), directory]
  dsimp only
  rw [Program.play_bind_eq passed]
  rfl

/-- `mkdir` refuses to make a child that the directory above has. -/
theorem play_mkdir_of_sibling {args : List String} (elevation : Option Elevation) (filled : (Operand.ofArgs args).label ≠ "")
    (notRoot : Path.resolve (Operand.ofArgs args).label u.cwd ≠ "/")
    (outside : Key.isMetadata (Path.resolve (Operand.ofArgs args).label u.cwd) = false) {siblings : Entries}
    (parent : u.store.node? (Path.parent (Path.resolve (Operand.ofArgs args).label u.cwd)) = some (.directory siblings))
    (taken : Path.name (Path.resolve (Operand.ofArgs args).label u.cwd) ∈ Assoc.names siblings) :
    (mkdir args elevation).play u = (.error (.nameInUse (Operand.ofArgs args).label), u) := by
  have found : (Assoc.get? siblings (Path.name (Path.resolve (Operand.ofArgs args).label u.cwd))).isSome = true := by
    rw [Option.isSome_iff_ne_none, ne_eq, Assoc.get?_eq_none_iff, not_not]
    exact taken
  rw [mkdir, if_neg filled, Program.play_bind_eq (play_locate _ u), if_neg notRoot, outside, if_neg (by simp),
    Program.play_bind_eq (play_load _ u), parent]
  dsimp only
  rw [if_pos found]
  rfl

/-- The names in a directory are visible, apart from the passwords at the root. -/
theorem mem_visibleNames (path : String) {children : Entries} {name : String} (member : name ∈ Assoc.names children)
    (outside : Key.isMetadata (Path.join path name) = false) (elevated : Bool) :
    name ∈ visibleNames path children elevated := by
  have sorted : name ∈ Text.sort (Assoc.names children) := (List.mergeSort_perm ..).mem_iff.mpr member
  unfold visibleNames
  split
  · next atRoot =>
    refine List.mem_filter.mpr ⟨sorted, ?_⟩
    rw [atRoot.1] at outside
    rw [outside]
    rfl
  · exact sorted

/-- A directory is listed with a line for each visible name. -/
theorem exists_lines {children : Entries} {name : String} (visible : name ∈ visibleNames path children elevated) :
    ∃ lines, directoryListing path children elevated = "\n".intercalate lines ∧
      ∃ isDirectory, nameLine isDirectory name ∈ lines := by
  unfold directoryListing
  generalize visibleNames path children elevated = names at visible
  cases names with
  | nil => exact absurd visible List.not_mem_nil
  | cons first rest => exact ⟨_, rfl, _, List.mem_map_of_mem visible⟩

end Verb

namespace Store

variable {s : Store} {path text : String}

/-- Where a text stands, `cat` shows it. -/
theorem shows_of_get (notRoot : path ≠ "/") (outside : Key.isMetadata path = false)
    (stands : s.get (Key.node path) = .text text) : s.Shows path text := by
  rintro label identity elevation answers m filled ⟨noFaults, rfl, rfl, passes⟩
  obtain ⟨result, -⟩ := ((VerbCall.cat label).program identity elevation).converse_eq_play answers noFaults
  have file : m.world.backend.store.node? (Path.resolve label m.cwd) = some (.file text) := by
    rw [node?, loaded_of_ne_root notRoot, stands]
    rfl
  exact result.trans (congrArg Except.ok (play_cat (u := m.solo answers) filled file outside passes))

/-- A path where something stands is listed in the directory above. -/
theorem lists_of_get (resolved : IsResolved path) (notRoot : path ≠ "/") (outside : Key.isMetadata path = false)
    (there : s.get (Key.node path) ≠ .null) : s.Lists (Path.parent path) (Path.name path) := by
  obtain ⟨siblings, parent, member⟩ := exists_sibling resolved notRoot there
  have parentOutside := parent_outside resolved notRoot outside
  rintro label identity elevation answers m ⟨noFaults, rfl, names, passes⟩
  obtain ⟨result, -⟩ := ((VerbCall.ls label).program identity elevation).converse_eq_play answers noFaults
  rw [← names] at parent parentOutside passes
  have visible := mem_visibleNames (Path.parent path) member
    ((resolved.join_parent_name notRoot).symm ▸ outside) elevation.isSome
  obtain ⟨lines, whole, line⟩ := exists_lines visible
  refine ⟨lines, ?_, line⟩
  rw [← whole, ← names]
  exact result.trans (congrArg Except.ok (play_ls (u := m.solo answers) parent parentOutside passes))

/-- Where something stands outside the metadata, no directory can be made. -/
theorem occupied_of_get (resolved : IsResolved path) (notRoot : path ≠ "/") (outside : Key.isMetadata path = false)
    (there : s.get (Key.node path) ≠ .null) : s.Occupied path := by
  obtain ⟨siblings, parent, member⟩ := exists_sibling resolved notRoot there
  rintro args identity elevation answers m noFaults rfl filled rfl
  obtain ⟨result, store, -⟩ := ((VerbCall.mkdir args).program identity elevation).converse_eq_play answers noFaults
  have played := play_mkdir_of_sibling (u := m.solo answers) elevation filled notRoot outside parent member
  exact ⟨result.trans (congrArg (Except.ok ·.1) played), store.trans (congrArg (·.2.store) played)⟩

end Store

/-- What a call that writes and has replied has done to a store: a directory was made where there was none, in an
existing one, a copy stands at its destination, or a file has the text that came out of the editor or that a
command line put out. -/
def VerbCall.TookEffect (call : VerbCall) (s t : Store) (cwd : String) (asked : List (Prompt × Answer)) (reply : String) :
    Prop :=
  match call with
  | .mkdir args =>
    let path := Path.resolve (Operand.ofArgs args).label cwd
    (∃ siblings, s.node? (Path.parent path) = some (.directory siblings)) ∧ s.get (Key.node path) = .null ∧
      t.get (Key.node path) = .mapping [(placeholderName, .text placeholderContent)] ∧ t.Occupied path ∧
      t.Lists (Path.parent path) (Path.name path)
  | .cp source target => t.get (Key.node (Path.resolve target cwd)) = s.get (Key.node (Path.resolve source cwd))
  | .vim args => reply = "File '" ++ (Operand.ofArgs args).label ++ "' saved." → ∃ existing text,
      asked.getLast? = some (editPrompt (Operand.ofArgs args).label existing, some text) ∧
        t.Shows (Path.resolve (Operand.ofArgs args).label cwd) text
  | .redirect label text => t.Shows (Path.resolve label cwd) text
  | _ => True

namespace Verb

variable {u : Solo} {r : Result × Solo} {reply : String} {elevation : Option Elevation}

theorem filled_of_mkdir {args : List String} (played : (mkdir args elevation).play u = r) (replied : r.1 = .ok reply) :
    (Operand.ofArgs args).label ≠ "" := by
  intro empty
  rw [mkdir, if_pos empty] at played
  cases (congrArg (·.1) played).trans replied

theorem filled_of_vim {args : List String} (played : (vim args elevation).play u = r) (replied : r.1 = .ok reply) :
    (Operand.ofArgs args).label ≠ "" := by
  intro empty
  rw [vim, if_pos empty] at played
  cases (congrArg (·.1) played).trans replied

theorem mkdir_tookEffect {args : List String} (played : (mkdir args elevation).play u = r) (replied : r.1 = .ok reply)
    (outside : Key.isMetadata (Path.resolve (Operand.ofArgs args).label u.cwd) = false) :
    (VerbCall.mkdir args).TookEffect u.store r.2.store u.cwd r.2.asked reply := by
  have resolved := isResolved_resolve (Operand.ofArgs args).label u.cwd
  rcases mkdir_cases args elevation u with refused | ⟨v, ready, done⟩
  · rw [played] at refused
    exact absurd replied (refused.not_replied reply)
  · obtain rfl := played.symm.trans done
    obtain ⟨siblings, parent, free⟩ := ready.parent
    have stands : (v.store.update (Key.node (Path.parent (Path.resolve (Operand.ofArgs args).label u.cwd)))
        [(CodeTable.segment.escape (Path.name (Path.resolve (Operand.ofArgs args).label u.cwd)), newDirectory)]).get
        (Key.node (Path.resolve (Operand.ofArgs args).label u.cwd)) =
        .mapping [(placeholderName, .text placeholderContent)] := by
      rw [Store.update_parent resolved ready.notRoot, Store.get_node_set resolved]
      decide +kernel
    have there := (congrArg (· ≠ Value.null) stands).mpr nofun
    exact ⟨⟨siblings, parent⟩, Store.get_node_of_free resolved ready.notRoot parent free, stands,
      Store.occupied_of_get resolved ready.notRoot outside there, Store.lists_of_get resolved ready.notRoot outside there⟩

theorem cp_tookEffect {source target : String} (played : (cp source target elevation).play u = r)
    (replied : r.1 = .ok reply) (canonical : Value.CanonicalEntries u.store.root) :
    (VerbCall.cp source target).TookEffect u.store r.2.store u.cwd r.2.asked reply := by
  rcases cp_cases source target elevation u with refused | ⟨v, ready, done⟩
  · rw [played] at refused
    exact absurd replied (refused.not_replied reply)
  · obtain rfl := played.symm.trans done
    have settled := Store.settled_get canonical (isResolved_resolve source u.cwd)
    have written := Store.get_node_set (isResolved_resolve target u.cwd) v.store
      (u.store.get (Key.node (Path.resolve source u.cwd)))
    rw [settled.prune_eq, settled.settle_eq] at written
    exact written

theorem redirect_tookEffect {label text : String} (played : (redirect label text elevation).play u = r)
    (replied : r.1 = .ok reply) (outside : Key.isMetadata (Path.resolve label u.cwd) = false) :
    (VerbCall.redirect label text).TookEffect u.store r.2.store u.cwd r.2.asked reply := by
  rcases redirect_cases label text elevation u with refused | ⟨v, ready, done⟩
  · rw [played] at refused
    exact absurd replied (refused.not_replied reply)
  · obtain rfl := played.symm.trans done
    exact Store.shows_of_get (ne_root_of_node? ready.notDirectory) outside
      (Store.get_node_set (isResolved_resolve label u.cwd) v.store (.text text))

theorem vim_tookEffect {args : List String} (played : (vim args elevation).play u = r) (replied : r.1 = .ok reply)
    (outside : Key.isMetadata (Path.resolve (Operand.ofArgs args).label u.cwd) = false) :
    (VerbCall.vim args).TookEffect u.store r.2.store u.cwd r.2.asked reply := by
  have resolved := isResolved_resolve (Operand.ofArgs args).label u.cwd
  rintro rfl
  rcases vim_cases args elevation u with refused | ⟨v, w, ready, done | ⟨text, shown, done⟩⟩
  · rw [played] at refused
    exact absurd replied (refused.not_replied _)
  · obtain rfl := played.symm.trans done
    exact absurd (Except.ok.inj replied).symm (saved_ne_canceled _)
  · obtain rfl := played.symm.trans done
    refine ⟨_, text, shown, ?_⟩
    exact Store.shows_of_get (ne_root_of_node? ready.notDirectory) outside (Store.get_node_set resolved _ (.text text))

end Verb

/-- A call outside the metadata that replies has taken effect. -/
theorem VerbCall.tookEffect (call : VerbCall) (identity : String) (elevation : Option Elevation) {u : Solo}
    (canonical : Value.CanonicalEntries u.store.root) (outside : ∀ op ∈ call.operands u.cwd, Key.isMetadata op.2 = false)
    {r : Result × Solo} (played : (call.program identity elevation).play u = r) {reply : String} (replied : r.1 = .ok reply) :
    call.TookEffect u.store r.2.store u.cwd r.2.asked reply := by
  cases call with
  | mkdir args =>
    have away := outside (_, Path.resolve _ u.cwd) (mem_named (filled_of_mkdir played replied))
    exact mkdir_tookEffect played replied away
  | cp source target => exact cp_tookEffect played replied canonical
  | vim args =>
    have away := outside (_, Path.resolve _ u.cwd) (mem_named (filled_of_vim played replied))
    exact vim_tookEffect played replied away
  | redirect label text =>
    have away := outside (label, Path.resolve label u.cwd) (List.mem_singleton_self _)
    exact redirect_tookEffect played replied away
  | _ => trivial

/-- A call that works outside the metadata of a store without empty mappings and replies has taken effect. -/
theorem VerbCall.writes_read_back (call : VerbCall) (identity : String) (elevation : Option Elevation)
    (answers : List Answer) {m : Machine} (noFaults : m.world.backend.faults = FaultSchedule.none)
    (canonical : Value.CanonicalEntries m.world.backend.store.root)
    (outside : ∀ op ∈ call.operands m.cwd, Key.isMetadata op.2 = false) {reply : String}
    (replied : ((call.program identity elevation).converse answers m).result = .ok (.ok reply)) :
    let d := (call.program identity elevation).converse answers m
    call.TookEffect m.world.backend.store d.machine.world.backend.store m.cwd (exchanges d.prompts answers) reply := by
  obtain ⟨result, store, -, -, asked⟩ := (call.program identity elevation).converse_eq_play answers noFaults
  dsimp only
  generalize played : (call.program identity elevation).play (m.solo answers) = r at result store asked
  rw [store, ← asked]
  exact call.tookEffect identity elevation (u := m.solo answers) canonical outside played
    (Except.ok.inj (result.symm.trans replied))

/-- A file with a password that was emptied in the editor is shown empty to whoever gives the password, under another
spelling from another directory. -/
theorem VerbCall.writes_read_back_emptied :
    let s : Store := ⟨[("shellFS", .mapping [("d", .mapping [("f", .text "x")]),
      ("__PASSWORDS__", .mapping [(Key.passwordEntry "/d/f", .text "pw")])])]⟩
    let m : Machine := ⟨{ backend := { store := s } }, "/"⟩
    let t := (((VerbCall.vim ["d/f"]).program "alice" none).converse [some "pw", some ""] m).machine.world.backend.store
    let later (t : Store) : Machine := ⟨{ backend := { store := t } }, "/d"⟩
    (((VerbCall.cat "../d/./f").program "bob" none).converse [some "pw"] (later t)).result = .ok (.ok "") := by
  intro s m t later
  have replied : (((VerbCall.vim ["d/f"]).program "alice" none).converse [some "pw", some ""] m).result =
      .ok (.ok "File 'd/f' saved.") := by decide +kernel
  have effect := (VerbCall.vim ["d/f"]).writes_read_back "alice" none [some "pw", some ""] (m := m) rfl
    (by decide +kernel) (by decide +kernel) replied
  obtain ⟨existing, text, shown, shows⟩ := effect (by decide +kernel)
  have edited : (exchanges (((VerbCall.vim ["d/f"]).program "alice" none).converse [some "pw", some ""] m).prompts
      [some "pw", some ""]).getLast? = some (editPrompt "d/f" "x", some "") := by decide +kernel
  obtain rfl : "" = text := by
    have answers := congrArg Prod.snd (Option.some.inj (edited.symm.trans shown))
    exact Option.some.inj answers
  have store (t : Store) : (later t).world.backend.store = t := rfl
  exact shows "../d/./f" "bob" none [some "pw"] (later t) (by decide)
    ⟨rfl, store t, by decide +kernel, .inr (by decide +kernel)⟩

end TreeShell
