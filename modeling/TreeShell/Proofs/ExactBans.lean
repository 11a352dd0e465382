import Mathlib.Data.List.Nodup
import TreeShell.Proofs.Chat.Steps
import TreeShell.Proofs.Key.Addresses
import TreeShell.Proofs.Program.Series
import TreeShell.Proofs.Text.Sorted

/-! # The ban list is exact

Bans are written below the root of the bans, and lifted and looked up at a key of the identity; both are the same place, an
entry whose name is the escaped identity. So a call stores that name or erases it, whatever other names there are
(`BanList.banned_apply`), and since escaping loses nothing, the names say who is banned (`BanList.Faithful`). The list shows
just those, in order and each once, that the last call on them has banned (`BanList.list_exact`).
-/

namespace TreeShell

open Key (banRoot)
open CodeTable (lawful_identity)

namespace Entries

theorem ofValue_putUnder (name : String) (value old : Value) :
    ofValue (putUnder [name] value old) = store name value (ofValue old) := by
  rw [putUnder]
  split
  · next both =>
    have nothing : ofValue old = [] := by
      cases old with
      | mapping entries => cases both.2
      | _ => rfl
    rw [nothing, both.1]
    rfl
  · rfl

end Entries

/-- A write below a place stores an entry in the mapping there. -/
theorem Store.ofValue_find_put (s : Store) (first name : String) (value : Value) :
    Entries.ofValue ((s.put [first, name] value).find [first]) =
      Entries.store name value.prune (Entries.ofValue (s.find [first])) := by
  have above := Entries.find_put_above first name [] [] value.prune s.root
  rw [List.singleton_append] at above
  rw [find_eq_settle, find_eq_settle, put, above, Entries.ofValue_settle, Entries.ofValue_settle, Entries.ofValue_settle,
    Entries.ofValue_putUnder]

namespace BanList

/-- A call that changes the ban list. -/
inductive Change where
  | ban (identity : String)
  | unban (identity : String)
deriving DecidableEq, Repr

namespace Change

/-- The call as a program. -/
def program : Change → Program Unit
  | .ban identity => BanList.ban identity
  | .unban identity => BanList.unban identity

/-- The identity that a call is about. -/
def identity : Change → String
  | .ban identity => identity
  | .unban identity => identity

/-- Whether the identity is banned by a call. -/
def bans : Change → Bool
  | .ban _ => true
  | .unban _ => false

/-- The store after a call. -/
def apply (s : Store) : Change → Store
  | .ban identity => s.update (Key.ban "") [(CodeTable.identity.escape identity, .bool true)]
  | .unban identity => s.remove (Key.ban identity)

theorem store_play_program (c : Change) (u : Solo) : (c.program.play u).2.store = c.apply u.store := by
  cases c <;> rfl

/-- What a call stores for its identity. -/
def value (c : Change) : Value :=
  if c.bans then .bool true else .null

/-- Both calls write at the entry of their identity. -/
theorem apply_eq_put {c : Change} (filled : c.identity ≠ "") (s : Store) :
    c.apply s = s.put [banRoot, CodeTable.identity.escape c.identity] c.value := by
  cases c with
  | ban identity =>
    have root : Key.components (Key.ban "") = [banRoot] := by decide
    have entry : Key.components (CodeTable.identity.escape identity) = [CodeTable.identity.escape identity] :=
      Key.components_eq_singleton (Key.storable_identity filled).isName
    change s.put (Key.components (Key.ban "") ++ Key.components (CodeTable.identity.escape identity)) (.bool true) = _
    rw [root, entry]
    rfl
  | unban identity =>
    have place : Key.components (Key.ban identity) = [banRoot, CodeTable.identity.escape identity] :=
      (Key.spells_ban filled).components_eq
    rw [apply, Store.remove, place]
    rfl

end Change

variable {c : Change} {changes : List Change} {s : Store} {entries : Entries} {identity : String}

/-! ## The entries -/

/-- The entries of the ban list. -/
def banned (s : Store) : Entries :=
  Entries.ofValue (s.find [banRoot])

theorem banned_apply (filled : c.identity ≠ "") (s : Store) :
    banned (c.apply s) = Entries.store (CodeTable.identity.escape c.identity) c.value (banned s) := by
  rw [c.apply_eq_put filled, banned, Store.ofValue_find_put]
  cases c <;> rfl

/-- Whether entries are those of banned identities, each with one entry. -/
structure Faithful (entries : Entries) : Prop where
  distinct : (Assoc.names entries).Nodup
  escaped : ∀ e ∈ entries, (∃ identity, identity ≠ "" ∧ e.1 = CodeTable.identity.escape identity) ∧ e.2 = .bool true

theorem Faithful.store (faithful : Faithful entries) (filled : c.identity ≠ "") :
    Faithful (Entries.store (CodeTable.identity.escape c.identity) c.value entries) := by
  cases c with
  | ban identity =>
    refine ⟨Assoc.nodup_insert _ _ faithful.distinct, ?_⟩
    intro e member
    rcases Assoc.mem_insert member with old | rfl
    · exact faithful.escaped e old
    · exact ⟨⟨identity, filled, rfl⟩, rfl⟩
  | unban identity =>
    refine ⟨Assoc.nodup_erase _ faithful.distinct, ?_⟩
    intro e member
    exact faithful.escaped e (Assoc.mem_of_mem_erase member)

/-- A call settles whether its own identity has an entry, and no other. -/
theorem mem_names_apply (filled : c.identity ≠ "") (s : Store) (identity : String) :
    CodeTable.identity.escape identity ∈ Assoc.names (banned (c.apply s)) ↔
      if c.identity = identity then c.bans = true else CodeTable.identity.escape identity ∈ Assoc.names (banned s) := by
  have same : CodeTable.identity.escape identity = CodeTable.identity.escape c.identity ↔ identity = c.identity :=
    CodeTable.escape_inj lawful_identity
  rw [banned_apply filled]
  cases c with
  | ban other =>
    change _ ∈ Assoc.names (Assoc.insert _ _ _) ↔ _
    rw [Assoc.mem_names_insert, same]
    by_cases own : other = identity
    · simp [Change.identity, Change.bans, own]
    · simp [Change.identity, own, Ne.symm own]
  | unban other =>
    change _ ∈ Assoc.names (Assoc.erase _ _) ↔ _
    rw [Assoc.mem_names_erase, ne_eq, same]
    by_cases own : other = identity
    · simp [Change.identity, Change.bans, own]
    · simp [Change.identity, own, Ne.symm own]

/-! ## Series of calls -/

theorem faithful_foldl_apply (filled : ∀ c ∈ changes, c.identity ≠ "") (faithful : Faithful (banned s)) :
    Faithful (banned (changes.foldl Change.apply s)) := by
  apply List.foldlRecOn (motive := fun s => Faithful (banned s)) changes Change.apply faithful
  intro t still c listed
  rw [banned_apply (filled c listed)]
  exact still.store (filled c listed)

/-- An identity that had no entry has one after a series of calls exactly if the last call on it was a ban. -/
theorem mem_names_foldl_apply (filled : ∀ c ∈ changes, c.identity ≠ "")
    (absent : CodeTable.identity.escape identity ∉ Assoc.names (banned s)) :
    CodeTable.identity.escape identity ∈ Assoc.names (banned (changes.foldl Change.apply s)) ↔
      (changes.reverse.find? fun c => c.identity = identity) = some (.ban identity) := by
  have settles : ∀ c ∈ changes, ∀ s, decide (CodeTable.identity.escape identity ∈ Assoc.names (banned (c.apply s))) =
      if decide (c.identity = identity) then c.bans
      else decide (CodeTable.identity.escape identity ∈ Assoc.names (banned s)) := by
    intro c listed s
    simp only [mem_names_apply (filled c listed), decide_eq_true_eq]
    split <;> simp
  have last := foldl_find? (fun s => decide (CodeTable.identity.escape identity ∈ Assoc.names (banned s)))
    (fun c : Change => decide (c.identity = identity)) Change.bans settles s
  rw [decide_eq_false absent] at last
  rw [← decide_eq_true_iff (p := CodeTable.identity.escape identity ∈ _), last]
  cases found : changes.reverse.find? fun c => c.identity = identity with
  | none => simp
  | some c =>
    have own : c.identity = identity := by simpa using List.find?_some found
    cases c with
    | ban other => simpa [Change.bans, Change.identity] using own
    | unban other => simp [Change.bans]

/-- Nothing that begins with another name changes. -/
theorem find_foldl_apply (filled : ∀ c ∈ changes, c.identity ≠ "") {other : List String} (apart : Apart [banRoot] other)
    (s : Store) : (changes.foldl Change.apply s).find other = s.find other := by
  apply List.foldlRecOn (motive := fun t => t.find other = s.find other) changes Change.apply rfl
  intro t same c listed
  have below : Apart [banRoot, CodeTable.identity.escape c.identity] other := apart.append_left [_]
  rw [c.apply_eq_put (filled c listed), Store.find_put_apart below, same]

/-! ## What the list shows -/

theorem list_eq :
    list = .call (.get (Key.ban "")) fun v =>
      .done (Text.sort ((Assoc.names (Entries.ofValue v)).map CodeTable.identity.unescape)) := by
  have nobody : Text.sort [] = [] := by simp [Text.sort]
  apply congrArg (Program.call (.get (Key.ban "")))
  funext v
  cases v with
  | mapping entries => rfl
  | _ => exact congrArg Program.done nobody.symm

/-- Of the names of banned identities none is lost when they are read. -/
theorem Faithful.nodup_unescape (faithful : Faithful entries) :
    ((Assoc.names entries).map CodeTable.identity.unescape).Nodup := by
  apply faithful.distinct.map_on
  intro name listed name' listed' same
  obtain ⟨e, member, rfl⟩ := List.mem_map.mp listed
  obtain ⟨e', member', rfl⟩ := List.mem_map.mp listed'
  obtain ⟨⟨identity, -, escaped⟩, -⟩ := faithful.escaped e member
  obtain ⟨⟨identity', -, escaped'⟩, -⟩ := faithful.escaped e' member'
  rw [escaped, escaped', CodeTable.unescape_escape lawful_identity, CodeTable.unescape_escape lawful_identity] at same
  rw [escaped, escaped', same]

theorem Faithful.mem_unescape_iff (faithful : Faithful entries) (identity : String) :
    identity ∈ (Assoc.names entries).map CodeTable.identity.unescape ↔
      CodeTable.identity.escape identity ∈ Assoc.names entries := by
  rw [List.mem_map]
  constructor
  · rintro ⟨name, listed, rfl⟩
    obtain ⟨e, member, rfl⟩ := List.mem_map.mp listed
    obtain ⟨⟨identity, -, escaped⟩, -⟩ := faithful.escaped e member
    rw [escaped, CodeTable.unescape_escape lawful_identity, ← escaped]
    exact listed
  · intro listed
    exact ⟨_, listed, CodeTable.unescape_escape lawful_identity identity⟩

/-- An identity is banned exactly if it has an entry. -/
theorem isBanned_iff (faithful : Faithful (banned s)) (filled : identity ≠ "") :
    s.IsBanned identity ↔ CodeTable.identity.escape identity ∈ Assoc.names (banned s) := by
  have read : s.get (Key.ban identity) =
      ((Assoc.get? (banned s) (CodeTable.identity.escape identity)).getD .null).settle := by
    rw [Store.get, (Key.spells_ban filled).components_eq, Store.find_append, ← Entries.find_ofValue,
      Value.find_mapping_cons, Value.find_nil]
    rfl
  rw [Store.IsBanned, read]
  cases found : Assoc.get? (banned s) (CodeTable.identity.escape identity) with
  | none => simpa using Assoc.get?_eq_none_iff.mp found
  | some v =>
    have member := Assoc.mem_of_get? found
    obtain ⟨-, rfl⟩ := faithful.escaped _ member
    simpa [Value.settle] using Assoc.mem_names_of_mem member

/-- The ban list is exact. On a store without faults that has nothing where the bans are, every series of bans and unbans of
identities runs to its end. Then the list is in strictly ascending order of code points and shows exactly the identities that
the last call on them has banned; a look-up says of each identity whether it is in the list; and nothing has changed that
is not below the root of the bans. An identity is a text that is not empty: the empty one stands for the whole list. -/
theorem list_exact {w : World} (noFaults : w.backend.faults = FaultSchedule.none)
    (fresh : w.backend.store.get (Key.ban "") = .null) (filled : ∀ c ∈ changes, c.identity ≠ "") :
    let after := ((changes.forM Change.program).runOn w).2
    ((changes.forM Change.program).runOn w).1 = .ok () ∧
    ∃ listed, (list.runOn after).1 = .ok listed ∧ listed.Pairwise (· < ·) ∧
      (∀ identity, identity ∈ listed ↔
        (changes.reverse.find? fun c => c.identity = identity) = some (.ban identity)) ∧
      (∀ identity, identity ≠ "" → ((isBanned identity).runOn after).1 = .ok (decide (identity ∈ listed))) ∧
      ∀ other, Apart [banRoot] other → after.backend.store.find other = w.backend.store.find other := by
  intro after
  obtain ⟨result, store, free⟩ := Program.runOn_forM Change.apply Change.store_play_program changes noFaults
  have nothing : banned w.backend.store = [] := congrArg Entries.ofValue fresh
  have faithful : Faithful (banned after.backend.store) := by
    rw [store]
    apply faithful_foldl_apply filled
    rw [nothing]
    exact ⟨.nil, by simp⟩
  refine ⟨result, _, Program.runOn_read list_eq free, ?_, ?_, ?_, ?_⟩
  · exact Text.pairwise_lt_sort faithful.nodup_unescape
  · intro identity
    have unknown : CodeTable.identity.escape identity ∉ Assoc.names (banned w.backend.store) := by simp [nothing, Assoc.names]
    have last := mem_names_foldl_apply filled unknown
    rw [← store] at last
    rw [Text.mem_sort, ← last]
    exact faithful.mem_unescape_iff identity
  · intro identity named
    rw [Program.runOn_read (isBanned_eq identity) free]
    have shown := (isBanned_iff faithful named).trans (faithful.mem_unescape_iff identity).symm
    exact congrArg Except.ok (decide_eq_decide.mpr (shown.trans Text.mem_sort.symm))
  · intro other apart
    rw [store]
    exact find_foldl_apply filled apart w.backend.store

/-- Identities with a dot, a star and the spelling of an escaped star. -/
theorem list_exact_of_escapes :
    let w : World := { backend := { store := ⟨[("cwd", .mapping [("a", .text "/")])]⟩ } }
    let changes : List Change := [.ban "a*b", .ban "a.b", .ban "a\\starb", .unban "a*b", .ban "a.b", .unban "/"]
    let after := ((changes.forM Change.program).runOn w).2
    w.backend.store.get (Key.ban "") = .null ∧ (∀ c ∈ changes, c.identity ≠ "") ∧
      (∃ listed, (list.runOn after).1 = .ok listed ∧ "a.b" ∈ listed ∧ "a\\starb" ∈ listed ∧ "a*b" ∉ listed ∧
        ((isBanned "a*b").runOn after).1 = .ok false) ∧
      after.backend.store.find ["cwd"] = .mapping [("a", .text "/")] := by
  intro w changes after
  have fresh : w.backend.store.get (Key.ban "") = .null := by decide
  have filled : ∀ c ∈ changes, c.identity ≠ "" := by decide
  obtain ⟨-, listed, read, -, exact, lookedUp, outside⟩ := list_exact (w := w) rfl fresh filled
  have lifted : "a*b" ∉ listed := by
    rw [exact]
    decide
  refine ⟨fresh, filled, ⟨listed, read, (exact "a.b").mpr (by decide), (exact "a\\starb").mpr (by decide), lifted, ?_⟩, ?_⟩
  · rw [lookedUp "a*b" (by decide), decide_eq_false lifted]
  · exact (outside ["cwd"] (by decide)).trans (by decide)

end BanList

end TreeShell
