import TreeShell.Proofs.Program.Series
import TreeShell.Proofs.Store.SameFiles
import TreeShell.Proofs.Store.Siblings
import TreeShell.Proofs.Verb.Guard

/-! # The vault as a map

The calls of the vault write at entries of one mapping, an entry for each path and no two paths with the same one. So the
password of a path is the one that the last call that names the path has left it with (`Vault.password?_apply`), whatever the
calls for other paths do and whenever the mapping comes and goes. Dropping several passwords in one go is dropping them one by
one, in any order (`Vault.update_removals`), and nothing outside the mapping takes part (`Vault.vault_is_map`).
-/

namespace TreeShell

open Key (passwordPlace passwordEntry)
open Path (IsResolved)

namespace Vault

/-- A call that changes passwords. -/
inductive Change where
  | set (path password : String)
  | remove (path : String)
  | removeMany (paths : List String)
deriving DecidableEq, Repr

namespace Change

/-- The call as a program. -/
def program : Change → Program Unit
  | .set path password => setPassword path password
  | .remove path => Vault.remove path
  | .removeMany paths => Vault.removeMany paths

/-- The paths that a call names. -/
def paths : Change → List String
  | .set path _ => [path]
  | .remove path => [path]
  | .removeMany paths => paths

/-- The password that a call leaves the paths with that it names. -/
def password? : Change → Option String
  | .set _ password => some password
  | _ => none

/-- The store after a call. -/
def apply (s : Store) : Change → Store
  | .set path password => s.set (Key.password path) (.text password)
  | .remove path => s.remove (Key.password path)
  | .removeMany paths => s.update Key.passwords (removals paths)

theorem store_play_program (c : Change) (u : Solo) : (c.program.play u).2.store = c.apply u.store := by
  cases c with
  | set path password => rfl
  | remove path => rfl
  | removeMany paths =>
    cases paths with
    | nil => rfl
    | cons path rest => rfl

end Change

variable {c : Change} {changes : List Change} {path : String} {s : Store} {place other : List String}

/-- What survives every write at the entries of the paths of a call survives the call. -/
theorem apply_induction {P : Store → Prop} (resolved : ∀ path ∈ c.paths, IsResolved path)
    (writes : ∀ path ∈ c.paths, ∀ value s, P s → P (s.put (passwordPlace ++ [passwordEntry path]) value)) (holds : P s) :
    P (c.apply s) := by
  cases c with
  | set path password =>
    have named : path ∈ (Change.set path password).paths := List.mem_singleton_self path
    rw [Change.apply, Store.set, Key.components_password_of_resolved (resolved path named)]
    exact writes path named _ s holds
  | remove path =>
    have named : path ∈ (Change.remove path).paths := List.mem_singleton_self path
    rw [Change.apply, Store.remove, Key.components_password_of_resolved (resolved path named)]
    exact writes path named _ s holds
  | removeMany paths =>
    apply Store.removals_induction _ holds
    intro path listed t still
    obtain ⟨segs, names, rfl⟩ := (resolved path listed).exists_names
    rw [Key.components_eq_singleton (Key.isName_passwordEntry names)]
    exact writes _ listed .null t still

/-- So it is with series of calls. -/
theorem foldl_apply_induction {P : Store → Prop} (resolved : ∀ c ∈ changes, ∀ path ∈ c.paths, IsResolved path)
    (writes : ∀ path value s, P s → P (s.put (passwordPlace ++ [passwordEntry path]) value)) (holds : P s) :
    P (changes.foldl Change.apply s) := by
  apply List.foldlRecOn (motive := P) changes Change.apply holds
  intro t still c listed
  exact apply_induction (resolved c listed) (fun path _ => writes path) still

/-! ## Passwords -/

/-- A call leaves a path with the password that it says, if it names the path, and else with the one it had. -/
theorem password?_apply (resolved : ∀ other ∈ c.paths, IsResolved other) (valid : IsResolved path) (s : Store) :
    (c.apply s).password? path = if path ∈ c.paths then c.password? else s.password? path := by
  have same (other : String) (listed : other ∈ c.paths) : passwordEntry path = passwordEntry other ↔ path = other :=
    Key.passwordEntry_eq_iff valid.exists_names (resolved other listed).exists_names
  simp only [Store.password?, Store.get_password_of_resolved valid]
  cases c with
  | set other password =>
    have named : other ∈ (Change.set other password).paths := List.mem_singleton_self other
    have entry := same other named
    rw [Change.apply, Store.entry_set_password (resolved other named)]
    simp only [Change.paths, List.mem_singleton, entry]
    split <;> rfl
  | remove other =>
    have named : other ∈ (Change.remove other).paths := List.mem_singleton_self other
    have entry := same other named
    rw [Change.apply, Store.remove, Key.components_password_of_resolved (resolved other named), Store.entry_put]
    simp only [Change.paths, List.mem_singleton, entry]
    split <;> rfl
  | removeMany others =>
    have named : (∃ other ∈ others, passwordEntry other = passwordEntry path) ↔
        path ∈ (Change.removeMany others).paths := by
      constructor
      · rintro ⟨other, listed, entry⟩
        exact (same other listed).mp entry.symm ▸ listed
      · exact fun listed => ⟨path, listed, rfl⟩
    rw [Change.apply, Store.entry_removals others fun other listed => (resolved other listed).exists_names]
    by_cases listed : path ∈ (Change.removeMany others).paths
    · rw [if_pos (named.mpr listed), if_pos listed]
      rfl
    · rw [if_neg (mt named.mp listed), if_neg listed]

/-! ## Several passwords at once -/

/-- Passwords that are taken out one by one are deletions in the mapping of all passwords. -/
theorem withoutPasswords_eq {paths : List String} (resolved : ∀ path ∈ paths, IsResolved path) (s : Store) :
    s.withoutPasswords paths = s.deleteAll ((paths.map passwordEntry).map fun name => passwordPlace ++ [name]) := by
  induction paths generalizing s with
  | nil => rfl
  | cons path rest ih =>
    obtain ⟨valid, others⟩ := List.forall_mem_cons.mp resolved
    rw [Store.withoutPasswords_cons, ih others, Store.remove, Key.components_password_of_resolved valid]
    rfl

/-- Dropping the passwords of several paths in one call is taking them out one by one, in any order. -/
theorem update_removals {paths order : List String} (resolved : ∀ path ∈ paths, IsResolved path)
    (same : ∀ path, path ∈ order ↔ path ∈ paths) (s : Store) :
    s.update Key.passwords (removals paths) = s.withoutPasswords order := by
  have places : (removals paths).map (fun p => Key.components Key.passwords ++ Key.components p.1) =
      (Assoc.names (removals paths)).map fun name => passwordPlace ++ [name] := by
    rw [Assoc.names, List.map_map]
    apply List.map_congr_left
    intro p member
    obtain ⟨path, listed, rfl⟩ := Store.mem_removals member
    obtain ⟨segs, names, rfl⟩ := (resolved path listed).exists_names
    rw [Key.components_passwords, Key.components_eq_singleton (Key.isName_passwordEntry names)]
    rfl
  rw [Store.update_removals_eq_deleteAll, places, withoutPasswords_eq fun path listed => resolved path ((same path).mp listed)]
  apply Store.deleteAll_siblings_congr
  intro name
  rw [Store.mem_names_removals, List.mem_map]
  simp only [same]

/-- So it is for the programs, on a world without faults. -/
theorem runOn_removeMany {w : World} (noFaults : w.backend.faults = FaultSchedule.none) {paths order : List String}
    (resolved : ∀ path ∈ paths, IsResolved path) (same : ∀ path, path ∈ order ↔ path ∈ paths) :
    ((removeMany paths).runOn w).1 = .ok () ∧ ((order.forM remove).runOn w).1 = .ok () ∧
      ((removeMany paths).runOn w).2.backend.store = ((order.forM remove).runOn w).2.backend.store := by
  let drop (s : Store) (path : String) : Store := s.remove (Key.password path)
  have drops (path : String) (u : Solo) : ((remove path).play u).2.store = drop u.store path := rfl
  obtain ⟨one, dropped, -⟩ := Program.runOn_eq_play (removeMany paths) noFaults
  obtain ⟨each, oneByOne, -⟩ := Program.runOn_forM drop drops order noFaults
  refine ⟨one, each, ?_⟩
  rw [dropped, oneByOne]
  exact ((Change.removeMany paths).store_play_program _).trans (update_removals resolved same _)

/-! ## What is outside -/

/-- Nothing apart from the mapping changes. -/
theorem find_foldl_apply (resolved : ∀ c ∈ changes, ∀ path ∈ c.paths, IsResolved path) (apart : Apart passwordPlace other) :
    (changes.foldl Change.apply s).find other = s.find other := by
  apply foldl_apply_induction (P := fun t => t.find other = s.find other) resolved _ rfl
  intro path value t same
  rw [Store.find_put_apart (apart.append_left _), same]

/-- No leaf outside of the mapping changes, if no scalar stands in the way of the mapping. -/
theorem leafAt_foldl_apply (shaped : s.Shaped) (resolved : ∀ c ∈ changes, ∀ path ∈ c.paths, IsResolved path)
    (outside : ¬ passwordPlace <+: place) : (changes.foldl Change.apply s).leafAt place = s.leafAt place := by
  have kept : (∀ name, (changes.foldl Change.apply s).Open (passwordPlace ++ [name])) ∧
      (changes.foldl Change.apply s).leafAt place = s.leafAt place := by
    apply foldl_apply_induction (P := fun t => (∀ name, t.Open (passwordPlace ++ [name])) ∧ t.leafAt place = s.leafAt place)
      resolved _ ⟨shaped.open_entry, rfl⟩
    rintro path value t ⟨isOpen, same⟩
    constructor
    · intro name
      apply (isOpen name).put (by simp)
      intro above
      exact above.eq_of_length (by simp)
    · rw [(isOpen _).leafAt_put (by simp) (fun inside => outside ((List.prefix_append ..).trans inside)), same]
  exact kept.2

/-! ## The map -/

/-- The vault is a map from paths to passwords. On a store without faults whose file tree and whose mapping of all passwords
are absent or mappings, every series of calls for resolved paths runs to its end, and then:

- the password of a path is the one that the last call that names the path has left it with, or if no call names it the
  text that stood there before; a path is protected exactly if it has one, and without elevation an attempt opens it exactly
  if it has none or is the password;
- dropping the passwords of several paths leaves the store that dropping them one by one leaves, in any order;
- nothing apart from the mapping of all passwords has changed, and no leaf outside of it. -/
theorem vault_is_map {w : World} (noFaults : w.backend.faults = FaultSchedule.none) (shaped : w.backend.store.Shaped)
    (resolved : ∀ c ∈ changes, ∀ path ∈ c.paths, IsResolved path) :
    let after := ((changes.forM Change.program).runOn w).2
    ((changes.forM Change.program).runOn w).1 = .ok () ∧
    (∀ path, IsResolved path →
      let password := (changes.reverse.find? fun c => path ∈ c.paths).elim (w.backend.store.password? path) Change.password?
      ((get path).runOn after).1 = .ok password ∧
      ((isProtected path).runOn after).1 = .ok password.isSome ∧
      ∀ attempt, ∃ opened, ((check path attempt false).runOn after).1 = .ok opened ∧
        (opened = true ↔ password = none ∨ ∃ text, attempt = some text ∧ password = some text)) ∧
    (∀ paths order : List String, (∀ path ∈ paths, IsResolved path) → (∀ path, path ∈ order ↔ path ∈ paths) →
      ((removeMany paths).runOn after).1 = .ok () ∧ ((order.forM remove).runOn after).1 = .ok () ∧
      ((removeMany paths).runOn after).2.backend.store = ((order.forM remove).runOn after).2.backend.store) ∧
    (∀ other, Apart passwordPlace other → after.backend.store.find other = w.backend.store.find other) ∧
    ∀ place, ¬ passwordPlace <+: place → after.backend.store.leafAt place = w.backend.store.leafAt place := by
  intro after
  obtain ⟨result, store, free⟩ := Program.runOn_forM Change.apply Change.store_play_program changes noFaults
  refine ⟨result, ?_, ?_, ?_, ?_⟩
  · intro path valid password
    have known : after.backend.store.password? path = password := by
      rw [store]
      apply foldl_find? (fun s : Store => s.password? path) (fun c => path ∈ c.paths) Change.password?
      intro c listed s
      rw [password?_apply (resolved c listed) valid]
      simp only [decide_eq_true_eq]
    refine ⟨?_, ?_, ?_⟩
    · rw [Program.runOn_read (get_eq path) free]
      exact congrArg Except.ok known
    · rw [Program.runOn_read (isProtected_eq path) free]
      exact congrArg (fun p : Option String => Except.ok p.isSome) known
    · intro attempt
      refine ⟨_, Program.runOn_read (check_eq path attempt) free, ?_⟩
      rw [← known, Store.password?, opens]
      cases password? (after.backend.store.get (Key.password path)) with
      | none => simp
      | some held => cases attempt <;> simp [eq_comm]
  · intro paths order valid same
    exact runOn_removeMany free valid same
  · intro other apart
    rw [store]
    exact find_foldl_apply resolved apart
  · intro place outside
    rw [store]
    exact leafAt_foldl_apply shaped resolved outside

/-- A path with an old password, one below it that loses its password in a list of three, and the root. -/
theorem vault_is_map_of_nested_paths :
    let store : Store := ⟨[("shellFS", .mapping [("f", .text "x"), ("__PASSWORDS__", .mapping [("a", .text "old")])])]⟩
    let w : World := { backend := { store := store } }
    let changes : List Change := [.set "/" "r", .set "/a/b" "one", .removeMany ["/a/b", "/c", "/a/b"], .set "/a/b" ""]
    let after := ((changes.forM Change.program).runOn w).2
    w.backend.store.Shaped ∧ (∀ c ∈ changes, ∀ path ∈ c.paths, IsResolved path) ∧
      ((get "/").runOn after).1 = .ok (some "r") ∧ ((get "/a").runOn after).1 = .ok (some "old") ∧
      ((get "/a/b").runOn after).1 = .ok (some "") ∧ ((isProtected "/c").runOn after).1 = .ok false := by
  intro store w changes after
  have shaped : w.backend.store.Shaped := by decide
  have root : IsResolved "/" := ⟨[], by decide, by decide⟩
  have above : IsResolved "/a" := ⟨["a"], by decide, by decide⟩
  have below : IsResolved "/a/b" := ⟨["a", "b"], by decide, by decide⟩
  have absent : IsResolved "/c" := ⟨["c"], by decide, by decide⟩
  have resolved : ∀ c ∈ changes, ∀ path ∈ c.paths, IsResolved path := by
    simp [changes, Change.paths, root, below, absent]
  obtain ⟨-, map, -⟩ := vault_is_map (w := w) rfl shaped resolved
  exact ⟨shaped, resolved, (map "/" root).1.trans (by decide), (map "/a" above).1.trans (by decide),
    (map "/a/b" below).1.trans (by decide), (map "/c" absent).2.1.trans (by decide)⟩

end Vault

end TreeShell
