import TreeShell.Proofs.Chat.Talks

/-! # Sessions of different identities

All identities share one store, and each has a shell of its own. A step of one identity leaves the shell of every other
as it is, with the line that waits in it and the prompt of that line, and what is remembered of the other's working
directory as well. Its own working directory an identity changes when it is first read, and by `cd`, which enters the
directory before it remembers it: where the store fails in between, the directory is entered and not remembered.
-/

namespace TreeShell

open Program (Leads)
open Path (IsResolved)

/-- Whether a store remembers a directory as the working directory of an identity, so that every fresh shell of the
identity begins there unless the store fails it. -/
structure Store.Remembers (s : Store) (identity path : String) : Prop where
  stored : s.get (Key.cwd identity) = .text path
  loads : ∀ w : World, w.backend.store = s → w.backend.faults w.backend.calls (.get (Key.cwd identity)) = none →
    ∃ backend, ({ identity := identity } : Shell).load w =
      (.ok (), { identity := identity, cwd := path, loaded := true }, { w with backend := backend })

/-- What can become of the working directory of an identity, and of what is remembered of it, in a step in which a shell
does the given acts: it is neither changed nor written, it is read for the first time, a `cd` changes it, or the store
fails where a `cd` has changed it and it is to be remembered. -/
inductive Moved (identity : String) (before after : Talk) (now : List Act) (store store' : Store)
    (response : Except ShellError Response) : Prop
  | stays (plain : ∀ a ∈ now, a.IsPlain) (cwd : after.shell.cwd = before.shell.cwd)
    (stored : store'.get (Key.cwd identity) = store.get (Key.cwd identity))
  | loads (plain : ∀ a ∈ now, a.IsPlain) (unread : before.shell.loaded = false) (read : after.shell.loaded = true)
    (origin : store.get (Key.cwd identity) = .text after.shell.cwd ∨ after.shell.cwd = "/")
    (remembered : store'.Remembers identity after.shell.cwd)
  | visits {course : Course} {path : String} {past looks front back : List Act} (course_eq : after.course = some course)
    (arrival : Journey.Arrival identity course.cwd path past looks)
    (whole : course.acts = past ++ (looks ++ .entered path :: .remembers identity path :: back))
    (part : now = front ++ .entered path :: .remembers identity path :: back) (plain : ∀ a ∈ back, a.IsPlain)
    (cwd : after.shell.cwd = path) (remembered : store'.Remembers identity path)
  | stuck {course : Course} {path : String} {past looks front : List Act} (course_eq : after.course = some course)
    (arrival : Journey.Arrival identity course.cwd path past looks)
    (whole : course.acts = past ++ (looks ++ [.entered path])) (part : now = front ++ [.entered path])
    (cwd : after.shell.cwd = path) (failed : ∃ error, response = .error (.store error) ∧ error.key = Key.cwd identity)

/-- Whether the calls among some acts got the answers of a store, up to what stands beside its nodes when the first of
them is made. -/
def Store.Answered (s : Store) (acts : List Act) : Prop :=
  ∃ met : Store, (∀ path, IsResolved path → met.get (Key.node path) = s.get (Key.node path)) ∧ met.Answers acts

namespace Store

variable {s : Store} {identity other path : String}

theorem Remembers.of_stored (stored : s.get (Key.cwd identity) = .text path) (absolute : Text.startsWith path "/" = true) :
    s.Remembers identity path :=
  ⟨stored, fun _ same noFault => Shell.load_of_remembered (same ▸ stored) absolute noFault⟩

theorem get_set_cwd (s : Store) (identity path : String) :
    (s.set (Key.cwd identity) (.text path)).get (Key.cwd identity) = .text path := by
  have below : Key.components (Key.cwd identity) ≠ [] := by
    rw [Key.components_cwd]
    exact List.cons_ne_nil _ _
  rw [set, get, find_put_same below]
  rfl

/-- What a store reads after acts of which the last to write there remembers a directory. -/
theorem get_after_remembers (front : List Act) {back : List Act} (plain : ∀ a ∈ back, a.IsPlain) (s : Store) :
    (s.after (Act.calls (front ++ .entered path :: .remembers identity path :: back))).get (Key.cwd identity) =
      .text path := by
  have split : Act.calls (front ++ .entered path :: .remembers identity path :: back) =
      Act.calls front ++ .set (Key.cwd identity) (.text path) :: Act.calls back := by
    rw [Act.calls, List.filterMap_append]
    rfl
  rw [split, after, List.foldl_append, List.foldl_cons]
  exact (get_cwd_of_plain plain identity _).trans (get_set_cwd _ identity path)

end Store

theorem Act.cwdAfter_remembers (cwd identity path : String) (front : List Act) {back : List Act}
    (plain : ∀ a ∈ back, a.IsPlain) :
    Act.cwdAfter cwd (front ++ .entered path :: .remembers identity path :: back) = path := by
  rw [cwdAfter_append]
  exact cwdAfter_of_plain plain path

/-- Reading a working directory leaves alone what is remembered of others. -/
theorem Shell.Loading.get_cwd {s ready : Shell} {w w' : World} {result : Except StoreError Unit} {other : String}
    (loading : s.Loading w (result, ready, w')) (filled : s.identity ≠ "") (otherFilled : other ≠ "")
    (differs : other ≠ s.identity) : w'.backend.store.get (Key.cwd other) = w.backend.store.get (Key.cwd other) := by
  rcases loading.store_eq with same | root
  · rw [same]
  · rw [root]
    exact Store.find_put_apart (Key.apart_cwd filled otherFilled (Ne.symm differs)) _ _

/-- Reading a working directory leaves the nodes alone. -/
theorem Shell.Loading.get_node {s ready : Shell} {w w' : World} {result : Except StoreError Unit} {path : String}
    (loading : s.Loading w (result, ready, w')) (resolved : IsResolved path) :
    w'.backend.store.get (Key.node path) = w.backend.store.get (Key.node path) := by
  rcases loading.store_eq with same | root
  · rw [same]
  · rw [root, Store.get_node_set_cwd resolved]

namespace Talk

open Shell (Request)

variable {t : Talk} {w : World} {request : Request} {m : Machine} {before : List Act} {course : Course}
  {left : Program String} {response : Except ShellError Response}

theorem Carries.own (carries : t.Carries w request m before course left) :
    ∀ a ∈ t.acts w request, a.IsOwn t.shell.identity := by
  have own := (Pipeline.run_travels t.shell.identity _ _).own carries.leads
  rw [carries.acts] at own
  exact fun a member => own a (List.mem_append_right _ member)

/-- A request to one identity leaves alone what is remembered of the others. -/
theorem Sound.get_cwd (sound : t.Sound) (filled : t.shell.identity ≠ "") (w : World) (request : Request) {other : String}
    (otherFilled : other ≠ "") (differs : other ≠ t.shell.identity) :
    (t.shell.request w request).world.backend.store.get (Key.cwd other) = w.backend.store.get (Key.cwd other) := by
  cases sound.turn filled w request with
  | idle nothing => rw [Shell.request_of_idle nothing]
  | unread failed =>
    rw [Shell.request, Shell.exec_of_unloaded filled failed]
    exact (Shell.loading_of failed).get_cwd filled otherFilled differs
  | began loaded line_eq carries =>
    rw [carries.did.store, Store.get_cwd_of_own carries.own filled otherFilled differs]
    exact (Shell.loading_of loaded).get_cwd filled otherFilled differs
  | resumed course_eq carries =>
    rw [carries.did.store, Store.get_cwd_of_own carries.own filled otherFilled differs]

/-- What a request finds in the store was there when the request came, or put there by what it did before. -/
theorem Sound.answers (sound : t.Sound) (filled : t.shell.identity ≠ "") (w : World) (request : Request) :
    w.backend.store.Answered (t.acts w request) := by
  cases sound.turn filled w request with
  | idle nothing =>
    rw [acts, nothing]
    exact ⟨w.backend.store, fun _ _ => rfl, .nil _⟩
  | unread failed =>
    rw [acts, Shell.begin, if_neg filled, failed]
    exact ⟨w.backend.store, fun _ _ => rfl, .nil _⟩
  | began loaded line_eq carries =>
    exact ⟨_, fun _ resolved => (Shell.loading_of loaded).get_node resolved, carries.answers⟩
  | resumed course_eq carries => exact ⟨w.backend.store, fun _ _ => rfl, carries.answers⟩

/-- A line that is carried on makes plain acts only, or the working directory is moved. -/
theorem Carries.moved (carries : t.Carries w request m before course left)
    (errors : ∀ e, (t.shell.request w request).response = .error e → response = .error e) :
    (∀ a ∈ t.acts w request, a.IsPlain) ∨
      Moved t.shell.identity t (t.step w request) (t.acts w request) w.backend.store
        (t.shell.request w request).world.backend.store response := by
  have leads := carries.leads
  have whole := carries.acts
  rw [whole] at leads
  have store := carries.did.store
  have cwd : (t.step w request).shell.cwd = Act.cwdAfter m.cwd (t.acts w request) := carries.did.cwd
  cases (Pipeline.run_travels t.shell.identity _ _).leg leads carries.begins with
  | plain plain => exact .inl plain
  | @visit path past looks front back arrival cut part plain =>
    rw [part, Act.cwdAfter_remembers _ _ _ _ plain] at cwd
    have remembered : (t.shell.request w request).world.backend.store.get (Key.cwd t.shell.identity) = .text path := by
      rw [store, part]
      exact Store.get_after_remembers front plain _
    exact .inr (.visits carries.course_eq arrival (whole.trans cut) part plain cwd
      (.of_stored remembered arrival.visit.resolved.absolute))
  | @stuck path past looks front next arrival cut part left_eq =>
    rw [part, Act.cwdAfter_append] at cwd
    have leaves := carries.leaves
    rw [left_eq] at leaves
    cases leaves with
    | failed response pending key =>
      exact .inr (.stuck carries.course_eq arrival (whole.trans cut) part cwd ⟨_, errors _ response, key⟩)

/-- What a request to a shell makes of its working directory. -/
theorem Sound.moved (sound : t.Sound) (filled : t.shell.identity ≠ "")
    (unread : t.shell.loaded = false → t.shell.cwd = "/")
    (errors : ∀ e, (t.shell.request w request).response = .error e → response = .error e) :
    Moved t.shell.identity t (t.step w request) (t.acts w request) w.backend.store
      (t.shell.request w request).world.backend.store response := by
  cases sound.turn filled w request with
  | @idle answer nothing =>
    have acts : t.acts w (.resume answer) = [] := by rw [Talk.acts, nothing]
    refine .stays (acts ▸ List.forall_mem_nil _) ?_ ?_
    · rw [Talk.step, Shell.request_of_idle nothing]
    · rw [Shell.request_of_idle nothing]
  | @unread line granted error s w' failed =>
    have acts : t.acts w (.exec line granted) = [] := by rw [Talk.acts, Shell.begin, if_neg filled, failed]
    have stopped : t.shell.request w (.exec line granted) = _ := Shell.exec_of_unloaded filled failed line granted
    have loading := Shell.loading_of failed
    refine .stays (acts ▸ List.forall_mem_nil _) ?_ ?_
    · rw [Talk.step, stopped]
      cases loading with
      | failed unloaded cwd_eq => exact cwd_eq.elim id fun root => root.trans (unread unloaded).symm
    · rw [stopped]
      cases loading with
      | failed unloaded cwd_eq store => exact congrArg (Store.get · _) store
  | @began line granted s w' course left loaded line_eq carries =>
    have loading := Shell.loading_of loaded
    rcases carries.moved errors with plain | moved
    · have cwd : (t.step w (.exec line granted)).shell.cwd = _ := carries.did.cwd
      have stored := (congrArg (Store.get · (Key.cwd t.shell.identity)) carries.did.store).trans
        (Store.get_cwd_of_plain plain _ _)
      rw [Act.cwdAfter_of_plain plain] at cwd
      dsimp only at cwd stored
      cases loading with
      | known known => exact .stays plain cwd stored
      | remembered unloaded found absolute store =>
        rw [store, found] at stored
        exact .loads plain unloaded carries.loaded (.inl (cwd ▸ found)) (cwd ▸ .of_stored stored absolute)
      | root unloaded found store =>
        have absolute : Text.startsWith "/" "/" = true := by decide
        rw [store, Store.get_set_cwd] at stored
        exact .loads plain unloaded carries.loaded (.inr cwd) (cwd ▸ .of_stored stored absolute)
    · exact moved
  | resumed course_eq carries =>
    rcases carries.moved errors with plain | moved
    · have cwd := carries.did.cwd
      have store := carries.did.store
      rw [Act.cwdAfter_of_plain plain] at cwd
      refine .stays plain cwd ?_
      rw [store, Store.get_cwd_of_plain plain]
    · exact moved

end Talk

namespace Chat

open Followed

/-- A step leaves alone the talk of every other identity, and what is remembered of its working directory. -/
theorem Followed.Faithful.others {f : Followed} (faithful : f.Faithful) (s : Step) {other : String} (filled : other ≠ "")
    (differs : other ≠ s.identity) :
    (f.step s).chat.shellOf other = f.chat.shellOf other ∧ (f.step s).talks other = f.talks other ∧
      (f.step s).chat.world.backend.store.get (Key.cwd other) = f.chat.world.backend.store.get (Key.cwd other) := by
  cases found : f.chat.request? s with
  | none =>
    have same := sameShells_of_request? found
    exact ⟨same.shellOf other, by rw [talks_step_of_none found], congrArg (Store.get · _) same.store⟩
  | some handed =>
    obtain ⟨w, request⟩ := handed
    have hands := hands_of_request? found
    have kept := (faithful.sound s.identity).get_cwd (faithful.filled found) w request filled (faithful.named _ ▸ differs)
    rw [← faithful.shell, ← hands.world, hands.store] at kept
    refine ⟨?_, ?_, kept⟩
    · rw [shellOf_step_of_request? found faithful, if_neg differs]
    · rw [talks_step_of_request? found, if_neg differs]

/-- What a step makes of the working directory of its own identity. -/
theorem Followed.Faithful.own {f : Followed} (faithful : f.Faithful) (s : Step) :
    Moved s.identity (f.talks s.identity) ((f.step s).talks s.identity) (f.acts s) f.chat.world.backend.store
      (f.step s).chat.world.backend.store (f.chat.step s).1 := by
  cases found : f.chat.request? s with
  | none =>
    have same := sameShells_of_request? found
    rw [talks_step_of_none found, acts, found]
    exact .stays (List.forall_mem_nil _) rfl (congrArg (Store.get · _) same.store)
  | some handed =>
    obtain ⟨w, request⟩ := handed
    have hands := hands_of_request? found
    have errors (e : ShellError) (failed : ((f.talks s.identity).shell.request w request).response = .error e) :
        (f.chat.step s).1 = .error e := by
      rw [hands.response, faithful.shell, failed]
      rfl
    have moved := (faithful.sound s.identity).moved (faithful.filled found) (faithful.unread s.identity) errors
    rw [faithful.named, ← faithful.shell, ← hands.world, hands.store] at moved
    rw [talks_step_of_request? found, if_pos rfl, acts, found]
    exact moved

/-- What a step finds in the store was there before the step, or put there by the step itself. -/
theorem Followed.Faithful.answers {f : Followed} (faithful : f.Faithful) (s : Step) :
    f.chat.world.backend.store.Answered (f.acts s) := by
  cases found : f.chat.request? s with
  | none =>
    rw [acts, found]
    exact ⟨f.chat.world.backend.store, fun _ _ => rfl, .nil _⟩
  | some handed =>
    obtain ⟨w, request⟩ := handed
    have answers := (faithful.sound s.identity).answers (faithful.filled found) w request
    rw [(hands_of_request? found).store] at answers
    rw [acts, found]
    exact answers

/-- Sessions are isolated. In every run of a chat in which no shell is open at first, on any store and with any faults, a
step

- leaves alone the shell of every other identity, its talk with the prompt that it showed last, and what the store
  remembers of its working directory;
- leaves alone the working directory of its own identity and what is remembered of it, or reads it for the first time, or
  comes past the last `cd` so far of the line, which found a directory at a resolved path, or ends where the store fails
  to remember such a directory, that has become the working directory nevertheless. In the second and third case every
  fresh shell of the identity on the same store begins in that directory;
- finds in the store what is there: at a resolved path the node that stood there before the step, unless the step itself
  has written since. -/
theorem sessions_isolated {start : Chat} (fresh : start.shells = []) (steps : List Step) (next : Step) :
    let c := start.after steps
    let c' := start.after (steps ++ [next])
    let before := (start.follow steps).talks
    let after := (start.follow (steps ++ [next])).talks
    (∀ identity, (before identity).shell = c.shellOf identity ∧ (after identity).shell = c'.shellOf identity) ∧
      (∀ other, other ≠ "" → other ≠ next.identity →
        c'.shellOf other = c.shellOf other ∧ after other = before other ∧
          c'.world.backend.store.get (Key.cwd other) = c.world.backend.store.get (Key.cwd other)) ∧
      Moved next.identity (before next.identity) (after next.identity) ((start.follow steps).acts next)
        c.world.backend.store c'.world.backend.store (c.step next).1 ∧
      c.world.backend.store.Answered ((start.follow steps).acts next) := by
  intro c c' before after
  have faithful := faithful_follow fresh steps
  have faithful' := faithful_follow fresh (steps ++ [next])
  have now : (start.follow steps).chat = c := chat_follow start steps
  have later : (start.follow (steps ++ [next])).chat = c' := chat_follow start (steps ++ [next])
  have others (other : String) := @Followed.Faithful.others _ faithful next other
  have own := faithful.own next
  rw [← follow_concat, now, later] at others own
  refine ⟨fun identity => ⟨?_, ?_⟩, others, own, now ▸ faithful.answers next⟩
  · exact now ▸ (faithful.shell identity).symm
  · exact later ▸ (faithful'.shell identity).symm

/-- One identity has an editor open, and another makes a directory. -/
def editorOpen : List Step :=
  [.handle "bob" "vim f" none, .handle "alice" "mkdir d" none]

/-- The other one enters the directory. -/
def entersDirectory : Step :=
  .handle "alice" "cd d" none

/-- The editor stays open, and the other one is in the directory. -/
theorem sessions_isolated_on_visit :
    ((blank.after editorOpen).shellOf "bob").isPending = true ∧
      (blank.after (editorOpen ++ [entersDirectory])).shellOf "bob" = (blank.after editorOpen).shellOf "bob" ∧
      ((blank.after (editorOpen ++ [entersDirectory])).shellOf "alice").cwd = "/d" := by
  obtain ⟨-, others, -⟩ := @sessions_isolated blank rfl editorOpen entersDirectory
  exact ⟨by decide +kernel, (others "bob" (by decide) (by decide)).1, by decide +kernel⟩

/-- A chat whose store fails to remember one directory of one identity. -/
def forgetful : Chat :=
  { blank with
    world.backend.faults := fun _ call => if call = .set (Key.cwd "alice") (.text "/d") then some "down" else none }

/-- It is not so that only a `cd` that succeeds changes the working directory once that has been read: where the store
fails to remember a directory, it has become the working directory, and fresh shells begin elsewhere. -/
theorem directory_not_remembered :
    ¬ ∀ (start : Chat) (steps : List Step) (next : Step), start.shells = [] → next.identity ≠ "" →
      ((start.after (steps ++ [next])).shellOf next.identity).cwd ≠ ((start.after steps).shellOf next.identity).cwd →
      ((start.after steps).shellOf next.identity).loaded = false ∨
        (start.after (steps ++ [next])).world.backend.store.get (Key.cwd next.identity) =
          .text ((start.after (steps ++ [next])).shellOf next.identity).cwd := by
  intro remembered
  have known := remembered forgetful [.handle "alice" "mkdir d" none] entersDirectory rfl (by decide)
  revert known
  decide +kernel

end Chat

end TreeShell
