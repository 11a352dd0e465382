import TreeShell.Proofs.Node.Below
import TreeShell.Proofs.Store.Leaves
import TreeShell.Proofs.Verb.Passwords

/-! # Leaves that the verbs reach

A verb that changes the file tree either refuses or reaches only leaves of the nodes it writes or removes,
of the password it sets, and of the passwords it drops: each place where it writes is open when it gets
there, and deleting displaces nothing. `VerbCall.confined` says so of every verb but `cd`, with elevation or
without.
-/

namespace TreeShell

open Path (IsResolved isResolved_resolve)
open Verb

namespace VerbCall

/-- The paths whose nodes a call writes or removes. -/
def written (s : Store) (cwd : String) : VerbCall → List String
  | .mkdir args | .vim args => [Path.resolve (Operand.ofArgs args).label cwd]
  | .rm args => [Path.resolve (removalLabel args) cwd]
  | .redirect label _ => [Path.resolve label cwd]
  | .cp _ target => [Path.resolve target cwd]
  | .mv source target => [Path.resolve source cwd, arrival s cwd source target]
  | _ => []

/-- Whether a call that removes its operand takes a path along: the operand's or that of a node below it. -/
def Takes (call : VerbCall) (s : Store) (cwd path : String) : Prop :=
  ∃ label ∈ call.removedLabel?, path = Path.resolve label cwd ∨
    ∃ node, s.node? (Path.resolve label cwd) = some node ∧ Node.Below (Path.resolve label cwd) node path

/-- Whether a call may change the leaf at a place: one at or below a node that it writes or removes, the
password of the operand that it protects, or the password of a path that it takes along. -/
def Reaches (call : VerbCall) (s : Store) (cwd : String) (place : List String) : Prop :=
  (∃ path ∈ call.written s cwd, Key.components (Key.node path) <+: place) ∨
    (∃ label ∈ call.protectedLabel?, Key.components (Key.password (Path.resolve label cwd)) <+: place) ∨
    ∃ path, call.Takes s cwd path ∧ Key.components (Key.password path) <+: place

end VerbCall

/-- Whether a call has refused, or written at open places only and changed no leaf that it does not reach. -/
inductive Confined (call : VerbCall) (u : Solo) (r : Result × Solo) : Prop
  | refused (refused : Refused u r)
  | within (opens : ∀ path ∈ call.written u.store u.cwd,
      IsResolved path ∧ u.store.Open (Key.components (Key.node path)))
    (kept : ∀ place, ¬ call.Reaches u.store u.cwd place → r.2.store.leafAt place = u.store.leafAt place)

namespace Solo

variable {u v : Solo} {label path : String} {protects : Bool} {place : List String}

/-- Setting a password reaches no leaf but those at and below it. -/
theorem Enters.leafAt (enters : Enters label path u protects v) (shaped : u.store.Shaped) (resolved : IsResolved path)
    (outside : protects = true → ¬ Key.components (Key.password path) <+: place) :
    v.store.leafAt place = u.store.leafAt place := by
  cases enters with
  | unprotected => rfl
  | entered filled first second =>
    have isOpen := shaped.open_password resolved
    exact isOpen.leafAt_put (Store.components_password_ne_nil resolved) (outside rfl) _

/-- After the password of an ordinary path is set, the place of its node is as open as before. -/
theorem Enters.open_node (enters : Enters label path u protects v)
    (ordinary : protects = true → Key.IsOrdinary path) (isOpen : u.store.Open (Key.components (Key.node path))) :
    v.store.Open (Key.components (Key.node path)) := by
  cases enters with
  | unprotected => exact isOpen
  | entered filled first second =>
    obtain ⟨resolved, notRoot, outside⟩ := ordinary rfl
    refine isOpen.put (Store.components_password_ne_nil resolved) (fun above => ?_) _
    exact absurd above (Key.apart_password_node resolved ⟨resolved, notRoot, outside⟩).1

end Solo

namespace Verb

variable {u v w : Solo} {path : String} {place : List String} {elevation : Option Elevation}

/-- A removal reaches no leaf but those of the node and of the passwords it drops. -/
theorem leafAt_removed {node : Node} {recursive : Bool} {reason : Option ElevationReason} (resolved : IsResolved path)
    (outside : ¬ Key.components (Key.node path) <+: place)
    (spared : ∀ p ∈ removedPaths path node recursive, ¬ Key.components (Key.password p) <+: place) (u : Solo) :
    (removed u path node recursive reason).store.leafAt place = u.store.leafAt place := by
  rw [removed, Solo.store_record, Solo.store_perform_update, Store.leafAt_removals _ _ spared, Solo.store_perform_remove]
  exact Store.leafAt_put_null (Store.components_node_ne_nil resolved) outside u.store

/-- The paths removed along with a node are its own and those of nodes below it. -/
theorem below_of_mem_removedPaths {s : Store} {node : Node} {recursive : Bool} {p : String}
    (canonical : Value.CanonicalEntries s.root) (resolved : IsResolved path)
    (found : Node.ofValue? (s.get (Key.node path)) = some node) (member : p ∈ removedPaths path node recursive) :
    p = path ∨ Node.Below path node p := by
  rcases List.mem_cons.mp member with same | visited
  · exact .inl same
  · cases recursive with
    | false => exact absurd visited List.not_mem_nil
    | true => exact .inr (Node.below_of_mem_walk (Store.settled_get canonical resolved) found visited)

/-- Where a file may be written, since there is one or since there may be one, the place is open. -/
theorem open_of_writable {s : Store} (shaped : s.Shaped) (resolved : IsResolved path)
    (notDirectory : ∀ children, s.node? path ≠ some (.directory children))
    (free : s.node? path = none → s.fileNearest (Path.ancestors path) = false) :
    s.Open (Key.components (Key.node path)) := by
  cases found : s.node? path with
  | none => exact Store.open_node_of_free shaped resolved (free found)
  | some node =>
    refine Store.open_node_of_present fun gone => ?_
    rw [Store.node?, loaded_of_ne_root (ne_root_of_node? notDirectory), gone] at found
    cases found

theorem cp_confined (source target : String) (elevation : Option Elevation) (shaped : u.store.Shaped) :
    Confined (.cp source target) u ((cp source target elevation).play u) := by
  rcases cp_cases source target elevation u with refused | ⟨v, ready, played⟩
  · exact .refused refused
  · have resolved := isResolved_resolve target u.cwd
    have isOpen := Store.open_node_of_free shaped resolved ready.free
    refine .within (fun path member => ?_) fun place apart => ?_
    · rw [List.mem_singleton.mp member]
      exact ⟨resolved, isOpen⟩
    · have outside : ¬ Key.components (Key.node (Path.resolve target u.cwd)) <+: place := fun below =>
        apart (.inl ⟨_, List.mem_singleton_self _, below⟩)
      rw [played, Solo.store_perform_set, ready.asks.store]
      exact isOpen.leafAt_put (Store.components_node_ne_nil resolved) outside _

theorem redirect_confined (label text : String) (elevation : Option Elevation) (shaped : u.store.Shaped) :
    Confined (.redirect label text) u ((redirect label text elevation).play u) := by
  rcases redirect_cases label text elevation u with refused | ⟨v, ready, played⟩
  · exact .refused refused
  · have resolved := isResolved_resolve label u.cwd
    have isOpen := open_of_writable shaped resolved ready.notDirectory ready.free
    refine .within (fun path member => ?_) fun place apart => ?_
    · rw [List.mem_singleton.mp member]
      exact ⟨resolved, isOpen⟩
    · have outside : ¬ Key.components (Key.node (Path.resolve label u.cwd)) <+: place := fun below =>
        apart (.inl ⟨_, List.mem_singleton_self _, below⟩)
      rw [played, Solo.store_perform_set, ready.asks.store]
      exact isOpen.leafAt_put (Store.components_node_ne_nil resolved) outside _

theorem rm_confined (args : List String) (elevation : Option Elevation)
    (canonical : Value.CanonicalEntries u.store.root) : Confined (.rm args) u ((rm args elevation).play u) := by
  rcases rm_cases args elevation u with refused | ⟨v, node, ready, played⟩
  · exact .refused refused
  · have resolved := isResolved_resolve (removalLabel args) u.cwd
    have found := ready.found
    rw [Store.node?, loaded_of_ne_root ready.notRoot] at found
    refine .within (fun path member => ?_) fun place apart => ?_
    · rw [List.mem_singleton.mp member]
      refine ⟨resolved, Store.open_node_of_present fun gone => ?_⟩
      rw [gone] at found
      cases found
    · rw [played, ← ready.asks.store]
      refine leafAt_removed resolved (fun below => ?_) (fun p member below => ?_) v
      · exact apart (.inl ⟨_, List.mem_singleton_self _, below⟩)
      · have taken := below_of_mem_removedPaths canonical resolved found member
        exact apart (.inr (.inr ⟨p, ⟨_, rfl, taken.imp_right fun inside => ⟨node, ready.found, inside⟩⟩, below⟩))

theorem mv_confined (source target : String) (elevation : Option Elevation)
    (canonical : Value.CanonicalEntries u.store.root) (shaped : u.store.Shaped) :
    Confined (.mv source target) u ((mv source target elevation).play u) := by
  rcases mv_cases source target elevation u with refused | ⟨v, node, ready, played⟩
  · exact .refused refused
  · have resolved := isResolved_resolve source u.cwd
    have arrivalResolved := (isResolved_arrival ready.sourceNotRoot u.store target).1
    have isOpen := Store.open_node_of_free shaped arrivalResolved ready.free
    have sourceOpen := Store.open_node_of_present ready.present
    have writes : (VerbCall.mv source target).written u.store u.cwd =
        [Path.resolve source u.cwd, arrival u.store u.cwd source target] := rfl
    refine .within (fun path member => ?_) fun place apart => ?_
    · rw [writes, List.mem_pair] at member
      rcases member with same | same
      · exact same ▸ ⟨resolved, sourceOpen⟩
      · exact same ▸ ⟨arrivalResolved, isOpen⟩
    · have away {path : String} (member : path ∈ (VerbCall.mv source target).written u.store u.cwd) :
          ¬ Key.components (Key.node path) <+: place := fun below => apart (.inl ⟨_, member, below⟩)
      rw [played, leafAt_removed resolved (away (by simp [writes])) (fun p member below => ?_)]
      · rw [Solo.store_perform_set, ready.asks.store]
        exact isOpen.leafAt_put (Store.components_node_ne_nil arrivalResolved) (away (by simp [writes])) _
      · have taken := below_of_mem_removedPaths canonical resolved ready.found member
        have sourceNode : u.store.node? (Path.resolve source u.cwd) = some node := by
          rw [Store.node?, loaded_of_ne_root ready.sourceNotRoot, ready.found]
        exact apart (.inr (.inr ⟨p, ⟨_, rfl, taken.imp_right fun inside => ⟨node, sourceNode, inside⟩⟩, below⟩))

theorem mkdir_confined (args : List String) (elevation : Option Elevation) (shaped : u.store.Shaped) :
    Confined (.mkdir args) u ((mkdir args elevation).play u) := by
  rcases mkdir_cases args elevation u with refused | ⟨v, ready, played⟩
  · exact .refused refused
  · have resolved := isResolved_resolve (Operand.ofArgs args).label u.cwd
    obtain ⟨siblings, parent, -⟩ := ready.parent
    have isOpen := Store.open_node_of_parent shaped resolved ready.notRoot parent
    refine .within (fun path member => ?_) fun place apart => ?_
    · rw [List.mem_singleton.mp member]
      exact ⟨resolved, isOpen⟩
    · have outside : ¬ Key.components (Key.node (Path.resolve (Operand.ofArgs args).label u.cwd)) <+: place :=
        fun below => apart (.inl ⟨_, List.mem_singleton_self _, below⟩)
      have ordinary (protects : ((Operand.ofArgs args).protects && !elevation.isSome) = true) :
          Key.IsOrdinary (Path.resolve (Operand.ofArgs args).label u.cwd) :=
        ⟨resolved, ready.notRoot, ready.outside.resolve_left (by grind)⟩
      rw [played, Solo.store_perform_update, Store.update_parent resolved ready.notRoot]
      rw [Store.set, (ready.enters.open_node ordinary isOpen).leafAt_put (Store.components_node_ne_nil resolved) outside]
      refine ready.enters.leafAt shaped resolved fun protects below => apart (.inr (.inl ⟨_, ?_, below⟩))
      exact if_pos (by grind)

theorem vim_confined (args : List String) (elevation : Option Elevation) (shaped : u.store.Shaped) :
    Confined (.vim args) u ((vim args elevation).play u) := by
  rcases vim_cases args elevation u with refused | ⟨v, w, ready, edited⟩
  · exact .refused refused
  · have resolved := isResolved_resolve (Operand.ofArgs args).label u.cwd
    have isOpen := open_of_writable shaped resolved ready.notDirectory ready.free
    have ordinary (protects : ((Operand.ofArgs args).protects && !elevation.isSome) = true) :
        Key.IsOrdinary (Path.resolve (Operand.ofArgs args).label u.cwd) := by
      have unelevated : elevation.isSome = false := by grind
      exact ⟨resolved, ne_root_of_node? ready.notDirectory, (unelevated ▸ ready.cleared).outside⟩
    refine .within (fun path member => ?_) fun place apart => ?_
    · rw [List.mem_singleton.mp member]
      exact ⟨resolved, isOpen⟩
    · have outside : ¬ Key.components (Key.node (Path.resolve (Operand.ofArgs args).label u.cwd)) <+: place :=
        fun below => apart (.inl ⟨_, List.mem_singleton_self _, below⟩)
      have notRoot := Store.components_node_ne_nil resolved
      have beforeOpen := isOpen
      rw [← ready.asks.store] at beforeOpen
      have entered := ready.enters.open_node ordinary beforeOpen
      have same : w.store.leafAt place = u.store.leafAt place := by
        rw [← ready.asks.store]
        refine ready.enters.leafAt (ready.asks.store ▸ shaped) resolved fun protects below => ?_
        exact apart (.inr (.inl ⟨_, if_pos (by grind), below⟩))
      have begins : (begun u w (Operand.ofArgs args).label).store.leafAt place = u.store.leafAt place := by
        rw [store_begun, Store.set, entered.leafAt_put notRoot outside, same]
      rcases edited with played | ⟨text, -, played⟩
      · rw [played, begins]
      · -- the editor closes over the file that was written when it opened, so the place is still open
        have stillOpen : (begun u w (Operand.ofArgs args).label).store.Open
            (Key.components (Key.node (Path.resolve (Operand.ofArgs args).label u.cwd))) := by
          rw [store_begun]
          exact entered.put notRoot (fun _ => rfl) _
        rw [played, Solo.store_perform_set, Store.set, stillOpen.leafAt_put notRoot outside, begins]

/-- A verb that brings prompts at most is confined. -/
theorem confined_of_asks {call : VerbCall} {r : Result × Solo} (writesNothing : call.written u.store u.cwd = [])
    (asks : u.Asks r.2) : Confined call u r := by
  refine .within (fun path member => ?_) fun place _ => by rw [asks.store]
  rw [writesNothing] at member
  exact absurd member List.not_mem_nil

end Verb

/-- Every call but one of `cd` is confined. -/
theorem VerbCall.confined (call : VerbCall) (identity : String) (elevation : Option Elevation) {u : Solo}
    (canonical : Value.CanonicalEntries u.store.root) (shaped : u.store.Shaped) (stays : ∀ label, call ≠ .cd label) :
    Confined call u ((call.program identity elevation).play u) := by
  cases call with
  | ls label => exact confined_of_asks rfl (ls_asks label elevation u)
  | file label => exact confined_of_asks rfl (file_asks label elevation u)
  | cat label => exact confined_of_asks rfl (cat_asks label elevation u)
  | cd label => exact absurd rfl (stays label)
  | cp source target => exact cp_confined source target elevation shaped
  | mv source target => exact mv_confined source target elevation canonical shaped
  | mkdir args => exact mkdir_confined args elevation shaped
  | rm args => exact rm_confined args elevation canonical
  | vim args => exact vim_confined args elevation shaped
  | redirect label text => exact redirect_confined label text elevation shaped

end TreeShell
