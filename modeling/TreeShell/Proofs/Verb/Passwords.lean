import TreeShell.Proofs.Store.Frame
import TreeShell.Proofs.Store.Sound
import TreeShell.Proofs.Verb.Outcome

/-! # What the verbs do to passwords

A verb without elevation leaves every password alone, or removes a node along with the passwords of all
nodes in it, or gives its operand a password that was entered twice. `VerbCall.touches` says so of every
verb, and which of them does what.
-/

namespace TreeShell

open Key (IsOrdinary passwordEntry)
open Path (IsResolved isResolved_resolve)
open Verb

namespace VerbCall

/-- The operand that a verb removes, if it removes one. -/
def removedLabel? : VerbCall → Option String
  | .rm args => some (removalLabel args)
  | .mv source _ => some source
  | _ => none

/-- The operand that a verb gives a new password, if it does. -/
def protectedLabel? : VerbCall → Option String
  | .mkdir args | .vim args => if (Operand.ofArgs args).protects then some (Operand.ofArgs args).label else none
  | _ => none

theorem removedLabel?_of_protects {call : VerbCall} {label : String} (protects : call.protectedLabel? = some label) :
    call.removedLabel? = none := by
  cases call with
  | mkdir args | vim args => rfl
  | _ => exact absurd protects nofun

end VerbCall

/-- Whether a run of a verb has come to a reply, and neither failed nor refused. -/
def Verb.Replied (result : Except StoreError Result) : Prop :=
  ∃ reply, result = .ok (.ok reply)

instance : (result : Except StoreError Result) → Decidable (Verb.Replied result)
  | .ok (.ok reply) => .isTrue ⟨reply, rfl⟩
  | .ok (.error _) => .isFalse fun ⟨_, replied⟩ => absurd (Except.ok.inj replied) nofun
  | .error _ => .isFalse fun ⟨_, replied⟩ => absurd replied nofun

namespace Solo

variable {u v : Solo} {label path : String}

theorem Cleared.outside (cleared : u.Cleared label path false) : Key.isMetadata path = false :=
  (cleared.resolve_left nofun).1

theorem Cleared.given (cleared : u.Cleared label path false) {password : String}
    (found : u.store.password? path = some password) : (passwordPrompt label, some password) ∈ u.asked :=
  (cleared.resolve_left nofun).2 password found

/-- Entering a new password changes the entry of its path only, after it was given twice. -/
theorem Enters.entries {protects : Bool} (enters : u.Enters label path protects v) (resolved : IsResolved path) :
    (protects = false ∧ v = u) ∨
      ∃ password, protects = true ∧ password ≠ "" ∧
        [(newPasswordPrompt label, some password), (confirmPrompt, some password)] <:+: v.asked ∧
        u.asked <+: v.asked ∧
        ∀ name, v.store.entry name = if name = passwordEntry path then .text password else u.store.entry name := by
  cases enters with
  | unprotected => exact .inl ⟨rfl, rfl⟩
  | @entered password filled first second =>
    have asked : (((u.ask (newPasswordPrompt label)).ask confirmPrompt).perform
        (.set (Key.password path) (.text password))).asked =
        u.asked ++ [(newPasswordPrompt label, some password), (confirmPrompt, some password)] := by
      change (u.asked ++ [(newPasswordPrompt label, u.answer)]) ++
        [(confirmPrompt, (u.ask (newPasswordPrompt label)).answer)] = _
      rw [second, first, List.append_assoc]
      rfl
    refine .inr ⟨password, rfl, filled, ⟨u.asked, [], ?_⟩, ⟨_, asked.symm⟩, fun name => ?_⟩
    · rw [asked, List.append_nil]
    · exact u.store.entry_set_password resolved password

end Solo

/-- What a verb does to the passwords of a session. -/
inductive Touches (call : VerbCall) (u : Solo) : Result × Solo → Prop
  /-- Nothing; then it has not removed anything either. -/
  | nothing {r : Result × Solo} (spares : call.removedLabel? = none ∨ ∃ refusal, r.1 = .error refusal)
      (same : ∀ name, r.2.store.entry name = u.store.entry name) : Touches call u r
  /-- It drops those of what it has removed. -/
  | dropped {r : Result × Solo} {label : String} (removes : call.removedLabel? = some label)
      (replies : ∃ reply, r.1 = .ok reply)
      (known : ∀ path, IsResolved path → r.2.store.entry (passwordEntry path) =
        if u.store.GoesWith path (Path.resolve label u.cwd) then .null else u.store.entry (passwordEntry path))
      (others : ∀ name, r.2.store.entry name = .null ∨ r.2.store.entry name = u.store.entry name) : Touches call u r
  /-- It gives its operand a new one, which takes the old one of a file, and no node where a directory is made. -/
  | entered {r : Result × Solo} (label password : String) (protects : call.protectedLabel? = some label)
      (filled : password ≠ "")
      (twice : [(newPasswordPrompt label, some password), (confirmPrompt, some password)] <:+: r.2.asked)
      (allowed : ∀ old, u.store.password? (Path.resolve label u.cwd) = some old →
        ((∃ args, call = .vim args) ∧ (passwordPrompt label, some old) ∈ r.2.asked) ∨
          ((∃ args, call = .mkdir args) ∧ u.store.get (Key.node (Path.resolve label u.cwd)) = .null))
      (change : ∀ name, r.2.store.entry name =
        if name = passwordEntry (Path.resolve label u.cwd) then .text password else u.store.entry name) :
      Touches call u r

namespace Touches

variable {call : VerbCall} {u : Solo} {r : Result × Solo}

theorem of_refused (refused : Refused u r) : Touches call u r :=
  .nothing (.inr refused.refusal) fun name => by rw [refused.asks.store]

theorem of_asks (spares : call.removedLabel? = none) (asks : u.Asks r.2) : Touches call u r :=
  .nothing (.inl spares) fun name => by rw [asks.store]

end Touches

namespace Verb

variable {s : Store} {path : String} {node : Node}

/-- Removing a node drops the passwords of its path and of the nodes below it, and no others. -/
theorem entry_removed (sound : s.Sound) (ordinary : IsOrdinary path)
    (found : Node.ofValue? (s.get (Key.node path)) = some node) {recursive : Bool}
    (whole : node.isDirectory = true → recursive = true) (reason : Option ElevationReason) (u : Solo) (name : String) :
    (removed u path node recursive reason).store.entry name =
      if ∃ p ∈ removedPaths path node true, passwordEntry p = name then .null else u.store.entry name := by
  have paths : removedPaths path node recursive = removedPaths path node true := by
    cases node with
    | file content => cases recursive <;> rfl
    | directory children => rw [whole rfl]
  have names := sound.names_removedPaths ordinary found
  have dropped := Store.entry_removals (removedPaths path node true) names (u.store.remove (Key.node path)) name
  rw [u.store.entry_remove_node ordinary] at dropped
  rw [removed, paths]
  exact dropped

/-- A removal drops what goes with its path, on a store with the passwords of a sound one. -/
theorem touches_removed (sound : s.Sound) {label : String} {call : VerbCall} {u v : Solo} (here : u.store = s)
    (removes : call.removedLabel? = some label) (ordinary : IsOrdinary (Path.resolve label u.cwd))
    (found : Node.ofValue? (s.get (Key.node (Path.resolve label u.cwd))) = some node) {recursive : Bool}
    (whole : node.isDirectory = true → recursive = true) (reason : Option ElevationReason) (reply : String)
    (same : ∀ name, v.store.entry name = u.store.entry name) :
    Touches call u (.ok reply, removed v (Path.resolve label u.cwd) node recursive reason) := by
  subst here
  have after := entry_removed sound ordinary found whole reason v
  refine .dropped removes ⟨reply, rfl⟩ (fun path resolved => ?_) fun name => ?_
  · have member : (∃ p ∈ removedPaths (Path.resolve label u.cwd) node true, passwordEntry p = passwordEntry path) ↔
        u.store.GoesWith path (Path.resolve label u.cwd) := by
      rw [← sound.mem_removedPaths ordinary found resolved]
      constructor
      · rintro ⟨p, inside, entry⟩
        have named := sound.names_removedPaths ordinary found p inside
        rwa [← (Key.passwordEntry_eq_iff named resolved.exists_names).mp entry]
      · exact fun inside => ⟨path, inside, rfl⟩
    simp only [after, member, same]
  · rw [after, same]
    split
    · exact .inl rfl
    · exact .inr rfl

variable {u : Solo} {source target : String}

/-- Only a directory stands at the root. -/
theorem ne_root_of_node? {path : String} (notDirectory : ∀ children, s.node? path ≠ some (.directory children)) :
    path ≠ "/" := by
  rintro rfl
  obtain ⟨children, found⟩ := loaded_root (s.get (Key.node "/"))
  exact notDirectory children found

/-- Where `mv` puts its source is resolved and not the root. -/
theorem isResolved_arrival {cwd : String} (sourceNotRoot : Path.resolve source cwd ≠ "/") (s : Store) (target : String) :
    IsResolved (arrival s cwd source target) ∧ arrival s cwd source target ≠ "/" := by
  have resolved := isResolved_resolve target cwd
  rw [arrival]
  cases found : s.node? (Path.resolve target cwd) with
  | none =>
    have notDirectory (children : Entries) : s.node? (Path.resolve target cwd) ≠ some (.directory children) := by
      simp [found]
    exact ⟨resolved, ne_root_of_node? notDirectory⟩
  | some node =>
    cases node with
    | file content =>
      have notDirectory (children : Entries) : s.node? (Path.resolve target cwd) ≠ some (.directory children) := by
        simp [found]
      exact ⟨resolved, ne_root_of_node? notDirectory⟩
    | directory children =>
      exact (isResolved_resolve target cwd).join_name (isResolved_resolve source cwd) sourceNotRoot

theorem MoveReady.arrival_ordinary {v : Solo} {node : Node} (ready : MoveReady u v source target false node) :
    IsOrdinary (arrival u.store u.cwd source target) := by
  obtain ⟨resolved, notRoot⟩ := isResolved_arrival ready.sourceNotRoot u.store target
  exact ⟨resolved, notRoot, ready.outside.resolve_left nofun⟩

theorem MoveReady.source_ordinary {v : Solo} {node : Node} (ready : MoveReady u v source target false node) :
    IsOrdinary (Path.resolve source u.cwd) :=
  ⟨isResolved_resolve .., ready.sourceNotRoot, ready.sourceCleared.outside⟩

theorem MoveReady.present {v : Solo} {elevated : Bool} {node : Node} (ready : MoveReady u v source target elevated node) :
    u.store.get (Key.node (Path.resolve source u.cwd)) ≠ .null := by
  intro gone
  have found := ready.found
  rw [gone] at found
  cases found

theorem CopyReady.target_ordinary {v : Solo} (ready : CopyReady u v source target false) :
    IsOrdinary (Path.resolve target u.cwd) :=
  ⟨isResolved_resolve .., ready.targetNotRoot, ready.targetCleared.outside⟩

theorem RedirectReady.ordinary {v : Solo} {label : String} (ready : RedirectReady u v label false) :
    IsOrdinary (Path.resolve label u.cwd) :=
  ⟨isResolved_resolve .., ne_root_of_node? ready.notDirectory, ready.cleared.outside⟩

theorem EditReady.ordinary {v w : Solo} {operand : Operand} (ready : EditReady u v w operand false) :
    IsOrdinary (Path.resolve operand.label u.cwd) :=
  ⟨isResolved_resolve .., ne_root_of_node? ready.notDirectory, ready.cleared.outside⟩

theorem MakeReady.ordinary {v : Solo} {operand : Operand} (ready : MakeReady u v operand false) :
    IsOrdinary (Path.resolve operand.label u.cwd) :=
  ⟨isResolved_resolve .., ready.notRoot, ready.outside.resolve_left nofun⟩

theorem cd_touches (identity label : String) (u : Solo) : Touches (.cd label) u ((cd identity label none).play u) := by
  rcases cd_cases identity label none u with refused | ⟨v, asks, -, -, played⟩
  · exact .of_refused refused
  · rw [played]
    refine .nothing (.inl rfl) fun name => ?_
    rw [Solo.store_perform_set, Store.entry_set_cwd, ← asks.store]
    rfl

theorem cp_touches (source target : String) (u : Solo) :
    Touches (.cp source target) u ((cp source target none).play u) := by
  rcases cp_cases source target none u with refused | ⟨v, ready, played⟩
  · exact .of_refused refused
  · rw [played]
    refine .nothing (.inl rfl) fun name => ?_
    rw [Solo.store_perform_set, Store.entry_set_node ready.target_ordinary, ready.asks.store]

theorem redirect_touches (label text : String) (u : Solo) :
    Touches (.redirect label text) u ((redirect label text none).play u) := by
  rcases redirect_cases label text none u with refused | ⟨v, ready, played⟩
  · exact .of_refused refused
  · rw [played]
    refine .nothing (.inl rfl) fun name => ?_
    rw [Solo.store_perform_set, Store.entry_set_node ready.ordinary, ready.asks.store]

theorem mv_touches (sound : u.store.Sound) (source target : String) :
    Touches (.mv source target) u ((mv source target none).play u) := by
  rcases mv_cases source target none u with refused | ⟨v, node, ready, played⟩
  · exact .of_refused refused
  · rw [played]
    refine touches_removed sound rfl rfl ready.source_ordinary ready.found id _ _ fun name => ?_
    rw [Solo.store_perform_set, Store.entry_set_node ready.arrival_ordinary, ready.asks.store]

theorem rm_touches (sound : u.store.Sound) (args : List String) : Touches (.rm args) u ((rm args none).play u) := by
  rcases rm_cases args none u with refused | ⟨v, node, ready, played⟩
  · exact .of_refused refused
  · have ordinary : IsOrdinary (Path.resolve (removalLabel args) u.cwd) :=
      ⟨isResolved_resolve .., ready.notRoot, ready.outside⟩
    have found := ready.found
    rw [Store.node?, loaded_of_ne_root ready.notRoot] at found
    rw [played]
    refine touches_removed sound rfl rfl ordinary found (fun directory => ?_) _ _ fun name => by rw [ready.asks.store]
    exact (ready.whole directory).resolve_right (sound.names_ne_nil ordinary.1 found directory)

theorem mkdir_touches (args : List String) (u : Solo) : Touches (.mkdir args) u ((mkdir args none).play u) := by
  rcases mkdir_cases args none u with refused | ⟨v, ready, played⟩
  · exact .of_refused refused
  · have resolved := ready.ordinary.1
    have made (name : String) : (v.store.update (Key.node (Path.parent (Path.resolve (Operand.ofArgs args).label u.cwd)))
        [(CodeTable.segment.escape (Path.name (Path.resolve (Operand.ofArgs args).label u.cwd)), newDirectory)]).entry name =
        v.store.entry name := by
      rw [Store.update_parent resolved ready.notRoot, Store.entry_set_node ready.ordinary]
    rw [played]
    rcases ready.enters.entries resolved with ⟨-, rfl⟩ | ⟨password, protects, filled, twice, -, change⟩
    · exact .nothing (.inl rfl) made
    · obtain ⟨siblings, parent, free⟩ := ready.parent
      refine .entered (Operand.ofArgs args).label password ?_ filled ?_ (fun old found => ?_) fun name => ?_
      · exact if_pos (by simpa using protects)
      · rwa [Solo.asked_perform]
      · exact .inr ⟨⟨args, rfl⟩, Store.get_node_of_free resolved ready.notRoot parent free⟩
      · rw [Solo.store_perform_update, made, change]

theorem vim_touches (args : List String) (u : Solo) : Touches (.vim args) u ((vim args none).play u) := by
  rcases vim_cases args none u with refused | ⟨v, w, ready, edited⟩
  · exact .of_refused refused
  · have started (name : String) : (begun u w (Operand.ofArgs args).label).store.entry name = w.store.entry name := by
      rw [store_begun, Store.entry_set_node ready.ordinary]
    have shown := asked_begun u w (Operand.ofArgs args).label
    -- saving makes one more write at the same path, and cancelling none
    have finish {r : Result × Solo} (same : ∀ name, r.2.store.entry name = w.store.entry name)
        (later : w.asked <+: r.2.asked) : Touches (.vim args) u r := by
      rcases ready.enters.entries ready.ordinary.1 with ⟨-, rfl⟩ | ⟨password, protects, filled, twice, first, change⟩
      · exact .nothing (.inl rfl) fun name => by rw [same, ready.asks.store]
      · refine .entered (Operand.ofArgs args).label password ?_ filled (twice.trans later.isInfix)
          (fun old found => ?_) fun name => ?_
        · exact if_pos (by simpa using protects)
        · rw [← ready.asks.store] at found
          exact .inl ⟨⟨args, rfl⟩, (first.trans later).subset (ready.cleared.given found)⟩
        · rw [same, change, ready.asks.store]
    rcases edited with played | ⟨text, -, played⟩
    · rw [played]
      exact finish started shown
    · rw [played]
      refine finish (fun name => ?_) shown
      rw [Solo.store_perform_set, Store.entry_set_node ready.ordinary, started]

end Verb

/-- What any verb without elevation does to the passwords of a sound store. -/
theorem VerbCall.touches (call : VerbCall) (identity : String) {u : Solo} (sound : u.store.Sound) :
    Touches call u ((call.program identity none).play u) := by
  cases call with
  | ls label => exact .of_asks rfl (ls_asks label none u)
  | file label => exact .of_asks rfl (file_asks label none u)
  | cat label => exact .of_asks rfl (cat_asks label none u)
  | cd label => exact cd_touches identity label u
  | cp source target => exact cp_touches source target u
  | mv source target => exact mv_touches sound source target
  | mkdir args => exact mkdir_touches args u
  | rm args => exact rm_touches sound args
  | vim args => exact vim_touches args u
  | redirect label text => exact redirect_touches label text u

end TreeShell
