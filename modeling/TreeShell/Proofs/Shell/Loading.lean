import TreeShell.Proofs.Program.Solo
import TreeShell.Shell

/-! # Reading the working directory

Before its first line a shell reads the working directory of its identity from the store, and remembers the root there
if it finds none (`Shell.loading`). A failing store leaves the shell as good as new. A directory that is remembered is
what every fresh shell of the identity begins in (`Shell.load_of_remembered`).
-/

namespace TreeShell

/-- What comes of reading the working directory of a shell, unless that was done before. -/
inductive Shell.Loading (s : Shell) (w : World) : Except StoreError Unit × Shell × World → Prop
  | known (loaded : s.loaded = true) : Loading s w (.ok (), s, w)
  | remembered {path : String} {backend : Backend} (unread : s.loaded = false)
    (stored : w.backend.store.get (Key.cwd s.identity) = .text path) (absolute : Text.startsWith path "/" = true)
    (store : backend.store = w.backend.store) :
    Loading s w (.ok (), { s with cwd := path, loaded := true }, { w with backend := backend })
  | root {backend : Backend} (unread : s.loaded = false)
    (stored : ∀ path, w.backend.store.get (Key.cwd s.identity) = .text path → Text.startsWith path "/" = false)
    (store : backend.store = w.backend.store.set (Key.cwd s.identity) (.text "/")) :
    Loading s w (.ok (), { s with cwd := "/", loaded := true }, { w with backend := backend })
  | failed {error : StoreError} {cwd : String} {backend : Backend} (unread : s.loaded = false)
    (cwd_eq : cwd = s.cwd ∨ cwd = "/") (store : backend.store = w.backend.store) :
    Loading s w (.error error, { s with cwd := cwd }, { w with backend := backend })

namespace Context

/-- Reading the working directory is one read, and one write unless a directory is remembered. -/
theorem load_eq (identity : String) :
    load identity = .call (.get (Key.cwd identity)) fun v =>
      match v with
      | .text path =>
        if Text.startsWith path "/" then .enter path (.done ())
        else .enter "/" (Program.write (Key.cwd identity) (.text "/"))
      | _ => .enter "/" (Program.write (Key.cwd identity) (.text "/")) := by
  refine congrArg (Program.call _) (funext fun v => ?_)
  cases v with
  | text path =>
    change (if Text.startsWith path "/" then _ else _) = (if Text.startsWith path "/" then _ else _)
    split <;> rfl
  | _ => rfl

end Context

namespace Shell

/-- Remembering the root, on a store from which nothing was remembered. -/
theorem loading_root {s : Shell} {w : World} (unread : s.loaded = false) (calls : Nat)
    (stored : ∀ path, w.backend.store.get (Key.cwd s.identity) = .text path → Text.startsWith path "/" = false) :
    let d := (Program.enter "/" (Program.write (Key.cwd s.identity) (.text "/"))).converse []
      ⟨{ w with backend := { w.backend with calls := calls } }, s.cwd⟩
    s.Loading w (d.result, { s with cwd := d.machine.cwd, loaded := s.loaded || d.result.isOk }, d.machine.world) := by
  obtain ⟨identity, cwd, loaded, pending⟩ := s
  obtain rfl : loaded = false := unread
  intro d
  unfold d
  rw [Program.converse, Program.write, Program.converse]
  cases fault : w.backend.faults calls (.set (Key.cwd identity) (.text "/")) with
  | some message =>
    rw [Backend.call_of_fault fault]
    exact .failed rfl (.inr rfl) rfl
  | none =>
    rw [Backend.call_of_no_fault fault]
    exact .root rfl stored rfl

theorem loading (s : Shell) (w : World) : s.Loading w (s.ensureLoaded w) := by
  rw [ensureLoaded]
  cases unread : s.loaded with
  | true => exact .known unread
  | false =>
    rw [if_neg Bool.false_ne_true, load, Context.load_eq, Program.converse]
    cases fault : w.backend.faults w.backend.calls (.get (Key.cwd s.identity)) with
    | some message =>
      obtain ⟨identity, cwd, loaded, pending⟩ := s
      obtain rfl : loaded = false := unread
      rw [Backend.call_of_fault fault]
      exact .failed rfl (.inl rfl) rfl
    | none =>
      have remembersRoot := loading_root (w := w) unread (w.backend.calls + 1)
      rw [Backend.call_of_no_fault fault]
      dsimp only [Store.perform]
      split
      · next path stored =>
        split
        · next absolute =>
          obtain ⟨identity, cwd, loaded, pending⟩ := s
          obtain rfl : loaded = false := unread
          exact .remembered rfl stored absolute rfl
        · next relative =>
          refine remembersRoot fun other same => ?_
          rw [stored] at same
          exact Value.text.inj same ▸ Bool.eq_false_iff.mpr relative
      · next textless => exact remembersRoot fun path same => absurd same (textless path)

theorem loading_of {s : Shell} {w : World} {r : Except StoreError Unit × Shell × World} (read : s.ensureLoaded w = r) :
    s.Loading w r :=
  read ▸ s.loading w

/-- Reading the working directory leaves alone whose shell it is, what is suspended, and the log. -/
theorem Loading.same {s : Shell} {w : World} {r : Except StoreError Unit × Shell × World} (loading : s.Loading w r) :
    r.2.1.identity = s.identity ∧ r.2.1.pending = s.pending ∧ r.2.2.events = w.events := by
  cases loading <;> exact ⟨rfl, rfl, rfl⟩

/-- Reading the working directory leaves the store as it is, or remembers the root there. -/
theorem Loading.store_eq {s : Shell} {w : World} {r : Except StoreError Unit × Shell × World} (loading : s.Loading w r) :
    r.2.2.backend.store = w.backend.store ∨
      r.2.2.backend.store = w.backend.store.set (Key.cwd s.identity) (.text "/") := by
  cases loading with
  | known => exact .inl rfl
  | remembered unread stored absolute store => exact .inl store
  | failed unread cwd_eq store => exact .inl store
  | root unread stored store => exact .inr store

/-- A shell that cannot read its working directory leaves the store alone. -/
theorem store_ensureLoaded_of_error {s : Shell} {w : World} {error : StoreError}
    (failed : (s.ensureLoaded w).1 = .error error) : (s.ensureLoaded w).2.2.backend.store = w.backend.store := by
  have loading := s.loading w
  generalize s.ensureLoaded w = ready at loading failed
  cases loading with
  | failed _ _ store => exact store
  | _ => cases failed

/-- So does one that cannot begin a line. -/
theorem store_begin_of_error {s : Shell} {w : World} {line : String} {granted : Option Elevation} {error : ShellError}
    (failed : (s.begin w line granted).1 = .error error) :
    (s.begin w line granted).2.2.backend.store = w.backend.store := by
  have store (e : StoreError) := @store_ensureLoaded_of_error s w e
  revert failed
  unfold begin
  split
  · exact fun _ => rfl
  · generalize s.ensureLoaded w = ready at store
    obtain ⟨e | _, s', w'⟩ := ready
    · exact fun _ => store e rfl
    · exact nofun

/-- A fresh shell begins in the directory that is remembered of its identity. -/
theorem load_of_remembered {identity path : String} {w : World}
    (stored : w.backend.store.get (Key.cwd identity) = .text path) (absolute : Text.startsWith path "/" = true)
    (noFault : w.backend.faults w.backend.calls (.get (Key.cwd identity)) = none) :
    ∃ backend, ({ identity := identity } : Shell).load w =
      (.ok (), { identity := identity, cwd := path, loaded := true }, { w with backend := backend }) := by
  rw [load, Context.load_eq, Program.converse, Backend.call_of_no_fault noFault]
  dsimp only [Store.perform]
  rw [stored]
  dsimp only
  rw [if_pos absolute]
  exact ⟨_, rfl⟩

end Shell

end TreeShell
