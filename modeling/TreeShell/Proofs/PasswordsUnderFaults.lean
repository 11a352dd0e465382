import TreeShell.Proofs.Store.Removal
import TreeShell.Proofs.Verb.Plans

/-! # Passwords when a verb is cut short

The store knows no transactions: a verb may stop at any of its calls and be left at any of its prompts. Nothing is
left open then. A verb drops a password only after the node is gone, and with `-s` it makes and edits a node only after
the new password is set (`VerbCall.passwords_fail_safe`).
-/

namespace TreeShell

open Path (IsResolved isResolved_resolve)
open Key (IsOrdinary passwordEntry)
open Verb

namespace Store

/-- Whether every path with a password in one store has one in another too. -/
def KeepsPasswords (s t : Store) : Prop :=
  ∀ path, IsResolved path → (s.password? path).isSome = true → (t.password? path).isSome = true

/-- Whether every path with a password in one store has one in another too, unless there is no node any more. -/
def KeepsProtection (s t : Store) : Prop :=
  ∀ path, IsResolved path → (s.password? path).isSome = true → (t.node? path).isSome = true →
    (t.password? path).isSome = true

variable {s t u : Store} {path : String}

theorem password?_eq_entry (resolved : IsResolved path) (s : Store) :
    s.password? path = Vault.password? (s.entry (passwordEntry path)) := by
  rw [password?, s.get_password_of_resolved resolved]

theorem KeepsPasswords.of_entries (same : ∀ name, t.entry name = s.entry name) : s.KeepsPasswords t := by
  intro path resolved
  rw [password?_eq_entry resolved, password?_eq_entry resolved, same]
  exact id

theorem KeepsPasswords.trans (first : s.KeepsPasswords t) (second : t.KeepsPasswords u) : s.KeepsPasswords u :=
  fun path resolved there => second path resolved (first path resolved there)

theorem KeepsPasswords.then (first : s.KeepsPasswords t) (second : t.KeepsProtection u) : s.KeepsProtection u :=
  fun path resolved there => second path resolved (first path resolved there)

theorem KeepsPasswords.keepsProtection (keeps : s.KeepsPasswords t) : s.KeepsProtection t :=
  fun path resolved there _ => keeps path resolved there

end Store

namespace Act

variable {path : String}

/-- Whether an act leaves all entries of the passwords as they are, in any store. -/
def KeepsEntries (a : Act) : Prop :=
  ∀ request ∈ a.call?, ∀ (s : Store) (name : String), (s.perform request).2.entry name = s.entry name

/-- Whether an act takes no password from any path, in any store. -/
def Spares (a : Act) : Prop :=
  ∀ request ∈ a.call?, ∀ s : Store, s.KeepsPasswords (s.perform request).2

theorem KeepsEntries.spares {a : Act} (keeps : a.KeepsEntries) : a.Spares :=
  fun request called s => .of_entries (keeps request called s)

theorem keepsEntries_set_node (ordinary : IsOrdinary path) (value answer : Value) :
    (called (.set (Key.node path) value) answer).KeepsEntries := by
  rintro _ ⟨⟩ s name
  exact s.entry_set_node ordinary value

theorem keepsEntries_remove_node (ordinary : IsOrdinary path) (answer : Value) :
    (called (.remove (Key.node path)) answer).KeepsEntries := by
  rintro _ ⟨⟩ s name
  exact s.entry_remove_node ordinary

theorem keepsEntries_update_parent (ordinary : IsOrdinary path) (value answer : Value) :
    (called (.update (Key.node (Path.parent path)) [(CodeTable.segment.escape (Path.name path), value)])
      answer).KeepsEntries := by
  rintro _ ⟨⟩ s name
  rw [Store.perform, Store.update_parent ordinary.1 ordinary.2.1, Store.entry_set_node ordinary]

theorem keepsEntries_set_cwd (identity : String) (value answer : Value) :
    (called (.set (Key.cwd identity) value) answer).KeepsEntries := by
  rintro _ ⟨⟩ s name
  exact s.entry_set_cwd identity value

theorem spares_set_password (ordinary : IsOrdinary path) (password : String) (answer : Value) :
    (called (.set (Key.password path) (.text password)) answer).Spares := by
  rintro _ ⟨⟩ s other resolved
  rw [Store.perform, Store.password?_eq_entry resolved, Store.password?_eq_entry resolved,
    Store.entry_set_password ordinary.1]
  split
  · exact fun _ => rfl
  · exact id

end Act

namespace Store

variable {acts : List Act}

theorem entry_after (keeps : ∀ a ∈ acts, a.KeepsEntries) (s : Store) (name : String) :
    (s.after (Act.calls acts)).entry name = s.entry name := by
  induction acts generalizing s with
  | nil => rfl
  | cons a rest ih =>
    obtain ⟨first, later⟩ := List.forall_mem_cons.mp keeps
    cases a with
    | called request answer => exact (ih later _).trans (first request rfl s name)
    | _ => exact ih later s

theorem keepsPasswords_after (spares : ∀ a ∈ acts, a.Spares) (s : Store) : s.KeepsPasswords (s.after (Act.calls acts)) := by
  induction acts generalizing s with
  | nil => exact fun _ _ => id
  | cons a rest ih =>
    obtain ⟨first, later⟩ := List.forall_mem_cons.mp spares
    cases a with
    | called request answer => exact (first request rfl s).trans (ih later _)
    | _ => exact ih later s

end Store

namespace Verb

variable {path label : String} {done : List Act}

/-- What lies within an ordinary path is ordinary. -/
theorem ordinary_of_isWithin {other : String} (ordinary : IsOrdinary path) (resolved : IsResolved other)
    (inside : Path.isWithin other path = true) : IsOrdinary other := by
  obtain ⟨pathResolved, notRoot, outside⟩ := ordinary
  refine ⟨resolved, ?_, Bool.eq_false_iff.mpr fun metadata => ?_⟩
  · rintro rfl
    exact notRoot (pathResolved.eq_root inside)
  · obtain ⟨segs, names, rfl⟩ := pathResolved.exists_names
    obtain ⟨others, otherNames, rfl⟩ := resolved.exists_names
    have below := (Path.isWithin_ofSegments otherNames names).mp inside
    have reserved := (Key.isMetadata_ofSegments otherNames).mp metadata
    have nonempty : segs ≠ [] := mt (Path.ofSegments_eq_root_iff names).mpr notRoot
    obtain ⟨first, rest, rfl⟩ := List.exists_cons_of_ne_nil nonempty
    have shorter : [Key.passwordDirectory] <+: first :: rest := List.prefix_of_prefix_length_le reserved below (by simp)
    rw [(Key.isMetadata_ofSegments names).mpr shorter] at outside
    cases outside

/-- A removal that is cut short has dropped passwords only where there is no node any more. -/
theorem keepsProtection_of_removal {node : Node} {recursive : Bool} {reason : Option ElevationReason}
    (ordinary : IsOrdinary path) (along : done <+: removal path node recursive reason) (s : Store) :
    s.KeepsProtection (s.after (Act.calls done)) := by
  rcases List.prefix_cons_iff.mp along with rfl | ⟨done, rfl, removes⟩
  · exact fun _ _ there _ => there
  rcases List.prefix_cons_iff.mp removes with rfl | ⟨done, rfl, forgets⟩
  · have spares := (Act.keepsEntries_remove_node ordinary .null).spares
    exact (Store.keepsPasswords_after (List.forall_mem_singleton.mpr spares) s).keepsProtection
  have logs : Act.calls done = [] := by
    rcases List.prefix_cons_iff.mp forgets with rfl | ⟨done, rfl, ends⟩
    · rfl
    · rw [List.prefix_nil.mp ends]
      rfl
  have reached : s.after (Act.calls
      (.called (.remove (Key.node path)) .null ::
        .called (.update Key.passwords (Vault.removals (removedPaths path node recursive))) .null :: done)) =
      (s.remove (Key.node path)).update Key.passwords (Vault.removals (removedPaths path node recursive)) :=
    congrArg (Store.after _) logs
  rw [reached]
  intro q resolved there remains
  cases inside : Path.isWithin q path with
  | true =>
    have ordinaryToo := ordinary_of_isWithin ordinary resolved inside
    rw [Store.node?, loaded_of_ne_root ordinaryToo.2.1, Store.get_node_update_passwords ordinaryToo,
      Store.get_node_remove_of_isWithin ordinary.1 resolved inside] at remains
    cases remains
  | false =>
    rw [Store.password?_eq_entry resolved] at there ⊢
    rwa [Store.entry_removals_apart ordinary resolved inside, Store.entry_remove_node ordinary]

theorem Protection.spares {protects : Bool} {protection : List Act} (protects : Protection label path protects protection)
    (ordinary : IsOrdinary path) : ∀ a ∈ protection, a.Spares := by
  cases protects with
  | none => exact List.forall_mem_nil _
  | set filled =>
    refine List.forall_mem_cons.mpr ⟨nofun, List.forall_mem_cons.mpr ⟨nofun, List.forall_mem_singleton.mpr ?_⟩⟩
    exact Act.spares_set_password ordinary _ _

end Verb

namespace VerbCall.Plan

variable {cwd identity : String} {call : VerbCall} {plan done : List Act} {args : List String}

theorem keepsEntries_edit {path : String} (ordinary : IsOrdinary path) (label existing : String) (answer : Answer) :
    ∀ a ∈ save path existing :: .asked (editPrompt label existing) answer :: (answer.map (save path)).toList,
      a.KeepsEntries := by
  have saves (text : String) : (save path text).KeepsEntries := Act.keepsEntries_set_node ordinary _ _
  refine List.forall_mem_cons.mpr ⟨saves existing, List.forall_mem_cons.mpr ⟨nofun, ?_⟩⟩
  cases answer with
  | none => exact List.forall_mem_nil _
  | some text => exact List.forall_mem_singleton.mpr (saves text)

/-- A plan that is cut short has taken no password from a path where there is still a node. -/
theorem keepsProtection (planned : Plan cwd identity none call plan) (along : done <+: plan) (s : Store) :
    s.KeepsProtection (s.after (Act.calls done)) := by
  have ordinary {path : String} (writable : Writable (none : Option Elevation).isSome path) : IsOrdinary path :=
    writable.ordinary
  -- all plans but those that remove keep every password
  have spared (spares : ∀ a ∈ plan, a.Spares) : s.KeepsProtection (s.after (Act.calls done)) :=
    (Store.keepsPasswords_after (fun a member => spares a (along.subset member)) s).keepsProtection
  have single {a : Act} (keeps : a.KeepsEntries) : ∀ b ∈ [a], b.Spares := List.forall_mem_singleton.mpr keeps.spares
  cases planned with
  | nothing => exact spared (List.forall_mem_nil _)
  | visit => exact spared (List.forall_mem_cons.mpr ⟨nofun, single (Act.keepsEntries_set_cwd _ _ _)⟩)
  | copy writable => exact spared (single (Act.keepsEntries_set_node (ordinary writable) _ _))
  | redirect writable => exact spared (single (Act.keepsEntries_set_node (ordinary writable) _ _))
  | make writable protects =>
    have makes := single (Act.keepsEntries_update_parent (ordinary writable) newDirectory .null)
    exact spared (List.forall_mem_append.mpr ⟨protects.spares (ordinary writable), makes⟩)
  | @edit args _ existing answer writable protects =>
    have edits := keepsEntries_edit (ordinary writable) (Operand.ofArgs args).label existing answer
    exact spared (List.forall_mem_append.mpr ⟨protects.spares (ordinary writable), fun a member => (edits a member).spares⟩)
  | remove writable => exact keepsProtection_of_removal (ordinary writable) along s
  | @move _ _ final value _ _ leaves arrives _ =>
    rcases List.prefix_cons_iff.mp along with rfl | ⟨done, rfl, removes⟩
    · exact fun _ _ there _ => there
    · have written := Store.keepsPasswords_after (single (Act.keepsEntries_set_node (ordinary arrives) value .null)) s
      exact written.then (keepsProtection_of_removal (ordinary leaves) removes _)

/-- A plan with a new password that is cut short before the password is set has changed nothing and has only asked for
it. From then on the path has just this password. -/
theorem protects {label path : String} {protection rest : List Act} (protects : Protection label path true protection)
    (ordinary : IsOrdinary path) (keeps : ∀ a ∈ rest, a.KeepsEntries) (along : done <+: protection ++ rest) (s : Store) :
    (Act.calls done = [] ∧ ∀ a ∈ done, a.Looks) ∨
      ∃ password, [(newPasswordPrompt label, some password), (confirmPrompt, some password)] <:+: Act.exchanges done ∧
        (s.after (Act.calls done)).password? path = some password := by
  cases protects with
  | @set password filled =>
    rcases List.prefix_cons_iff.mp along with rfl | ⟨done, rfl, once⟩
    · exact .inl ⟨rfl, List.forall_mem_nil _⟩
    rcases List.prefix_cons_iff.mp once with rfl | ⟨done, rfl, twice⟩
    · exact .inl ⟨rfl, List.forall_mem_singleton.mpr rfl⟩
    rcases List.prefix_cons_iff.mp twice with rfl | ⟨done, rfl, later⟩
    · exact .inl ⟨rfl, List.forall_mem_cons.mpr ⟨rfl, List.forall_mem_singleton.mpr rfl⟩⟩
    refine .inr ⟨password, ⟨[], Act.exchanges done, rfl⟩, ?_⟩
    have set := @Store.entry_set_password path (passwordEntry path) ordinary.1 s password
    have kept := Store.entry_after (fun a member => keeps a (later.subset member)) (s.set (Key.password path) (.text password))
      (passwordEntry path)
    rw [if_pos rfl] at set
    rw [Store.password?_eq_entry ordinary.1]
    exact congrArg Vault.password? (kept.trans set)

/-- A `mkdir -s` or `vim -s` that is cut short has changed nothing and has asked for passwords only, or the path has the
new password. -/
theorem secured (secures : call = .mkdir ("-s" :: args) ∨ call = .vim ("-s" :: args))
    (planned : Plan cwd identity none call plan) (along : done <+: plan) (s : Store) :
    (Act.calls done = [] ∧ ∀ a ∈ done, a.Looks) ∨
      ∃ password, [(newPasswordPrompt (args.headD ""), some password), (confirmPrompt, some password)] <:+:
          Act.exchanges done ∧
        (s.after (Act.calls done)).password? (Path.resolve (args.headD "") cwd) = some password := by
  rcases secures with rfl | rfl
  · cases planned with
    | nothing => exact .inl (List.prefix_nil.mp along ▸ ⟨rfl, List.forall_mem_nil _⟩)
    | make writable protection =>
      have makes := Act.keepsEntries_update_parent writable.ordinary newDirectory .null
      exact protects protection writable.ordinary (List.forall_mem_singleton.mpr makes) along s
  · cases planned with
    | nothing => exact .inl (List.prefix_nil.mp along ▸ ⟨rfl, List.forall_mem_nil _⟩)
    | edit writable protection =>
      exact protects protection writable.ordinary (keepsEntries_edit writable.ordinary _ _ _) along s

end VerbCall.Plan

/-- Passwords stay safe when a verb without elevation is cut short. From any store, with any faults and answers, the call
may return, fail at any of its calls or be left at any prompt; and at every moment of it:

- a path that had a password before and still has a node still has a password;
- if a `mkdir -s` or `vim -s` has brought a node into being at its operand, a new password was entered twice in this
  call, and it is the password of the operand;
- so it is as soon as a text was typed into the editor of a `vim -s`, and before that is stored. -/
theorem VerbCall.passwords_fail_safe (call : VerbCall) (identity : String) (answers : List Answer) (m : Machine) :
    let r := (call.program identity none).pursue answers m
    let before := m.world.backend.store
    r.machine.world.backend.store = before.after (Act.calls r.acts) ∧
      ∀ past, past <+: r.acts →
        let now := before.after (Act.calls past)
        let Secured (label : String) := ∃ password,
          [(newPasswordPrompt label, some password), (confirmPrompt, some password)] <:+: Act.exchanges past ∧
            now.password? (Path.resolve label m.cwd) = some password
        (∀ path, IsResolved path → (before.node? path).isSome = true → (before.password? path).isSome = true →
          (now.node? path).isSome = true → (now.password? path).isSome = true) ∧
        (∀ args, call = .mkdir ("-s" :: args) ∨ call = .vim ("-s" :: args) →
          before.node? (Path.resolve (args.headD "") m.cwd) = none →
          (now.node? (Path.resolve (args.headD "") m.cwd)).isSome = true → Secured (args.headD "")) ∧
        ∀ args existing text, call = .vim ("-s" :: args) →
          .asked (editPrompt (args.headD "") existing) (some text) ∈ past → Secured (args.headD "") := by
  intro r before
  obtain ⟨⟨q, leads, -⟩, did⟩ := (call.program identity none).pursue_leads answers m
  obtain ⟨looks, done, cut, way⟩ := (call.plans m.cwd identity none).leads leads
  refine ⟨did.store, ?_⟩
  intro past within now Secured
  rw [show r.acts = looks ++ done from cut] at within
  obtain ⟨looks, done, rfl, looked, plan, along, planned⟩ := way.of_prefix within
  have reached : now = before.after (Act.calls done) := before.after_of_looks looked done
  have exchanged : Act.exchanges done <:+: Act.exchanges (looks ++ done) := by
    rw [Act.exchanges, Act.exchanges, List.filterMap_append]
    exact (List.suffix_append ..).isInfix
  have secured {args : List String} (secures : call = .mkdir ("-s" :: args) ∨ call = .vim ("-s" :: args)) :
      (now = before ∧ ∀ a ∈ looks ++ done, a.Looks) ∨ Secured (args.headD "") := by
    refine (planned.secured secures along before).imp ?_ ?_
    · rintro ⟨nothing, only⟩
      exact ⟨reached.trans (by rw [nothing]; rfl), List.forall_mem_append.mpr ⟨looked, only⟩⟩
    · rintro ⟨password, entered, set⟩
      exact ⟨password, entered.trans exchanged, reached ▸ set⟩
  refine ⟨fun path resolved _ there remains => ?_, fun args secures absent present => ?_,
    fun args existing text edits typed => ?_⟩
  · rw [reached] at remains ⊢
    exact planned.keepsProtection along before path resolved there remains
  · refine (secured secures).resolve_left ?_
    rintro ⟨unchanged, -⟩
    rw [unchanged, absent] at present
    cases present
  · refine (secured (.inr edits)).resolve_left ?_
    rintro ⟨-, only⟩
    exact absurd (only _ typed) nofun

/-- The fifth call on this empty store fails. -/
def failsLate : Machine :=
  ⟨{ backend := { store := .empty, faults := fun calls _ => if calls = 4 then some "down" else none } }, "/"⟩

/-- When `vim -s` fails to save, the file that it has made is protected by the new password. -/
theorem VerbCall.passwords_fail_safe_on_save :
    let r := ((VerbCall.vim ["-s", "f"]).program "alice" none).pursue [some "pw", some "pw", some "t"] failsLate
    let now := failsLate.world.backend.store.after (Act.calls r.acts)
    r.acts.getLast? = some (.asked (editPrompt "f" "") (some "t")) ∧ now.node? "/f" = some (.file "") ∧
      ∃ password,
        [(newPasswordPrompt "f", some password), (confirmPrompt, some password)] <:+: Act.exchanges r.acts ∧
          now.password? (Path.resolve "f" "/") = some password := by
  intro r now
  have asked : r.acts.getLast? = some (.asked (editPrompt "f" "") (some "t")) := by decide +kernel
  have made : now.node? "/f" = some (.file "") := by decide +kernel
  obtain ⟨-, moments⟩ := VerbCall.passwords_fail_safe (.vim ["-s", "f"]) "alice" [some "pw", some "pw", some "t"] failsLate
  obtain ⟨-, -, edited⟩ := moments r.acts List.prefix_rfl
  exact ⟨asked, made, edited ["f"] "" "t" rfl (List.mem_of_getLast? asked)⟩

end TreeShell
