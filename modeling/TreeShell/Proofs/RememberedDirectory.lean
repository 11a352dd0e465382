import TreeShell.Proofs.Pipeline.Changes

/-! # The remembered working directory

A shell keeps the working directory of its identity, and the store remembers it. The two are changed one after the other:
first the shell enters a directory, then it writes it. So they agree as long as that write succeeds, and where it fails the
shell is ahead of the store until a change of directory is remembered again (`Shell.directory_agrees_iff`).
-/

namespace TreeShell

namespace Talk

open Shell (Request)

variable {t : Talk} {w : World} {request : Request} {m : Machine} {before : List Act} {course : Course}
  {left : Program String} {past : List Change}

/-- The working directory that a shell reads on a request, if that is the first time. -/
def firstRead (t : Talk) (w : World) : Request → List Change
  | .exec _ _ =>
    match t.shell.loaded, t.shell.ensureLoaded w with
    | false, (.ok (), s, _) => [⟨s.cwd, true⟩]
    | _, _ => []
  | .resume _ => []

/-- How the working directory changes on a request. -/
def changes (t : Talk) (w : World) (request : Request) : List Change :=
  t.firstRead w request ++ Act.changes t.shell.identity (t.acts w request)

/-- Whether the changes so far settle the working directory of a shell and what the store remembers of it, once it was
read. -/
def Settled (t : Talk) (w : World) (past : List Change) : Prop :=
  t.shell.loaded = true → Change.Settle past t.shell.cwd (w.backend.store.get (Key.cwd t.shell.identity))

/-- Whether a change that is not remembered is the last one on a request, and the request fails where the store should have
remembered it. -/
def LosesLast (t : Talk) (w : World) (request : Request) : Prop :=
  ∀ change ∈ t.changes w request, change.kept = false →
    (t.changes w request).getLast? = some change ∧
      ∃ error, (t.shell.request w request).response = .error (.store error) ∧ error.key = Key.cwd t.shell.identity

theorem firstRead_kept (t : Talk) (w : World) (request : Request) : ∀ change ∈ t.firstRead w request, change.kept = true := by
  cases request with
  | resume answer => exact List.forall_mem_nil _
  | exec line granted =>
    rw [firstRead]
    split
    · exact List.forall_mem_singleton.mpr rfl
    · exact List.forall_mem_nil _

/-- A line that is carried on remembers every directory that it enters, or fails at the last one. -/
theorem Carries.paired (carries : t.Carries w request m before course left) :
    Act.Paired t.shell.identity (t.acts w request) ∨
      ∃ path front, t.acts w request = front ++ [.entered path] ∧ Act.Paired t.shell.identity front ∧
        ∃ error, (t.shell.request w request).response = .error (.store error) ∧ error.key = Key.cwd t.shell.identity := by
  have leads := carries.leads
  rw [carries.acts] at leads
  refine ((Pipeline.run_travels t.shell.identity _ _).paired leads carries.begins).imp_right ?_
  rintro ⟨path, front, next, now, paired, left_eq⟩
  have leaves := carries.leaves
  rw [left_eq] at leaves
  cases leaves with
  | failed response pending key => exact ⟨path, front, now, paired, _, response, key⟩

theorem Carries.settle (carries : t.Carries w request m before course left)
    (settle : Change.Settle past m.cwd (m.world.backend.store.get (Key.cwd t.shell.identity))) :
    Change.Settle (past ++ Act.changes t.shell.identity (t.acts w request)) (t.step w request).shell.cwd
      ((t.shell.request w request).world.backend.store.get (Key.cwd t.shell.identity)) := by
  have cwd : (t.step w request).shell.cwd = Act.cwdAfter m.cwd (t.acts w request) := carries.did.cwd
  have store := carries.did.store
  dsimp only at store
  rw [cwd, store]
  rcases carries.paired with paired | ⟨path, front, now, paired, -⟩
  · exact settle.paired paired
  · exact now ▸ settle.lost paired path

theorem Carries.losesLast (carries : t.Carries w request m before course left) : t.LosesLast w request := by
  intro change member lost
  have now := (List.mem_append.mp member).resolve_left fun first => by
    rw [t.firstRead_kept w request change first] at lost
    cases lost
  rcases carries.paired with paired | ⟨path, front, acts, paired, failed⟩
  · rw [Act.kept_of_paired paired change now] at lost
    cases lost
  · have last := Act.changes_concat_entered path paired
    rw [acts, last, List.mem_append, List.mem_singleton] at now
    rcases now with kept | rfl
    · rw [Act.kept_of_paired paired change kept] at lost
      cases lost
    · refine ⟨?_, failed⟩
      rw [changes, acts, last, ← List.append_assoc, List.getLast?_concat]

theorem Carries.settled (carries : t.Carries w request m before course left)
    (settle : Change.Settle (past ++ t.firstRead w request) m.cwd
      (m.world.backend.store.get (Key.cwd t.shell.identity))) :
    (t.step w request).Settled (t.shell.request w request).world (past ++ t.changes w request) := by
  intro _
  have named : (t.step w request).shell.identity = t.shell.identity := carries.identity
  rw [changes, ← List.append_assoc, named]
  exact carries.settle settle

/-- A request leaves the changes so far to settle the working directory, and loses at most the last of its own. -/
theorem Sound.step_settled (sound : t.Sound) (filled : t.shell.identity ≠ "") (settled : t.Settled w past) (request : Request) :
    (t.step w request).Settled (t.shell.request w request).world (past ++ t.changes w request) ∧
      t.LosesLast w request := by
  cases sound.turn filled w request with
  | @idle answer nothing =>
    have none : t.changes w (.resume answer) = [] := by rw [changes, firstRead, acts, nothing]; rfl
    refine ⟨?_, fun change member => absurd (none ▸ member) List.not_mem_nil⟩
    rw [none, List.append_nil, Talk.step, Shell.request_of_idle nothing]
    exact settled
  | @unread line granted error s w' failed =>
    have loading := Shell.loading_of failed
    have acts : t.acts w (.exec line granted) = [] := by rw [Talk.acts, Shell.begin, if_neg filled, failed]
    have none : t.changes w (.exec line granted) = [] := by
      rw [changes, acts, firstRead, failed]
      cases t.shell.loaded <;> rfl
    refine ⟨fun read => ?_, fun change member => absurd (none ▸ member) List.not_mem_nil⟩
    rw [Talk.step, Shell.request, Shell.exec_of_unloaded filled failed] at read
    cases loading with
    | failed unread => cases unread.symm.trans read
  | @began line granted s w' course left loaded line_eq carries =>
    have loading := Shell.loading_of loaded
    refine ⟨carries.settled ?_, carries.losesLast⟩
    dsimp only
    rw [firstRead, loaded]
    cases loading with
    | known known =>
      rw [known, List.append_nil]
      exact settled known
    | remembered unread stored absolute store =>
      rw [unread, store, stored]
      exact .concat_kept past _
    | root unread stored store =>
      rw [unread, store, Store.get_set_cwd]
      exact .concat_kept past "/"
  | @resumed answer course left course_eq carries =>
    have known : t.shell.loaded = true := by
      cases pending : t.shell.pending with
      | none =>
        have after := carries.loaded
        rwa [Shell.request_of_idle pending] at after
      | some rest => exact sound.loaded rest pending
    refine ⟨carries.settled ?_, carries.losesLast⟩
    rw [firstRead, List.append_nil]
    exact settled known

end Talk

namespace Shell

/-- A request to a shell, and what becomes of the world before it. -/
structure Call where
  meanwhile : World → World
  request : Request

/-- Whether the remembered directory of an identity stays as it is before a request. -/
def Call.Spares (identity : String) (c : Call) : Prop :=
  ∀ w, (c.meanwhile w).backend.store.get (Key.cwd identity) = w.backend.store.get (Key.cwd identity)

/-- What has become of a shell and its world, and all changes of the working directory on the way. -/
structure History where
  talk : Talk
  world : World
  changes : List Change

namespace History

/-- Nothing was said yet to the shell of an identity. -/
def fresh (identity : String) (w : World) : History :=
  ⟨{ shell := { identity := identity } }, w, []⟩

def step (h : History) (c : Call) : History where
  talk := h.talk.step (c.meanwhile h.world) c.request
  world := (h.talk.shell.request (c.meanwhile h.world) c.request).world
  changes := h.changes ++ h.talk.changes (c.meanwhile h.world) c.request

def after (h : History) (calls : List Call) : History :=
  calls.foldl step h

/-- What holds of every history of the shell of an identity. -/
structure Sound (identity : String) (h : History) : Prop where
  named : h.talk.shell.identity = identity
  sound : h.talk.Sound
  settled : h.talk.Settled h.world h.changes

variable {identity : String} {h : History}

theorem sound_fresh (identity : String) (w : World) : (fresh identity w).Sound identity :=
  ⟨rfl, .of_idle rfl, nofun⟩

/-- What happens meanwhile leaves the working directory settled. -/
theorem Sound.meanwhile (sound : h.Sound identity) {c : Call} (spares : c.Spares identity) :
    h.talk.Settled (c.meanwhile h.world) h.changes := by
  rw [Talk.Settled, sound.named, spares h.world, ← sound.named]
  exact sound.settled

theorem Sound.step (sound : h.Sound identity) (filled : identity ≠ "") {c : Call} (spares : c.Spares identity) :
    (h.step c).Sound identity := by
  have named : h.talk.shell.identity ≠ "" := sound.named ▸ filled
  exact ⟨(sound.sound.identity_step named _ _).trans sound.named, sound.sound.step named _ _,
    (sound.sound.step_settled named (sound.meanwhile spares) c.request).1⟩

theorem Sound.after (sound : h.Sound identity) (filled : identity ≠ "") {calls : List Call}
    (spared : ∀ c ∈ calls, c.Spares identity) : (h.after calls).Sound identity := by
  induction calls generalizing h with
  | nil => exact sound
  | cons c rest ih =>
    obtain ⟨first, later⟩ := List.forall_mem_cons.mp spared
    exact ih (sound.step filled first) later

end History

/-- The working directory and what the store remembers of it are settled by the changes. In every history of the shell of an
identity, with any requests and any faults, in which nobody else writes what is remembered, once the working directory was
read it is that of the last change, and the store remembers that of the last change that was kept; so the two agree exactly
if these lead to the same directory. A change that is not kept is the last one on its request, and there the store fails. -/
theorem directory_agrees_iff {identity : String} (filled : identity ≠ "") (start : World) (calls : List Call)
    (spared : ∀ c ∈ calls, c.Spares identity) :
    let h := (History.fresh identity start).after calls
    let stored := h.world.backend.store.get (Key.cwd identity)
    (h.talk.shell.loaded = true →
      Change.Settle h.changes h.talk.shell.cwd stored ∧
        (stored = .text h.talk.shell.cwd ↔
          (h.changes.filter (·.kept)).getLast?.map (·.path) = h.changes.getLast?.map (·.path))) ∧
      ∀ next : Call, next.Spares identity → h.talk.LosesLast (next.meanwhile h.world) next.request := by
  intro h stored
  have sound : h.Sound identity := (History.sound_fresh identity start).after filled spared
  refine ⟨fun read => ?_, fun next spares => ?_⟩
  · have settle := sound.settled read
    rw [sound.named] at settle
    exact ⟨settle, settle.agree_iff⟩
  · exact (sound.sound.step_settled (sound.named ▸ filled) (sound.meanwhile spares) next.request).2

/-- A directory is made and entered. -/
def makesAndEnters : List Call :=
  [⟨id, .exec "mkdir d" none⟩, ⟨id, .exec "cd d" none⟩]

theorem makesAndEnters_spares : ∀ c ∈ makesAndEnters, c.Spares "alice" :=
  List.forall_mem_cons.mpr ⟨fun _ => rfl, List.forall_mem_singleton.mpr fun _ => rfl⟩

/-- Where the store fails to remember the directory, the shell is in it and the store remembers the root. -/
theorem directory_agrees_iff_on_lost_change :
    let h := (History.fresh "alice" Chat.forgetful.world).after makesAndEnters
    h.changes.getLast?.map (·.path) = some "/d" ∧ (h.changes.filter (·.kept)).getLast?.map (·.path) = some "/" ∧
      h.world.backend.store.get (Key.cwd "alice") ≠ .text h.talk.shell.cwd := by
  have entered : ((History.fresh "alice" Chat.forgetful.world).after makesAndEnters).changes.getLast?.map (·.path) =
      some "/d" := by decide +kernel
  have kept : (((History.fresh "alice" Chat.forgetful.world).after makesAndEnters).changes.filter
      (·.kept)).getLast?.map (·.path) = some "/" := by decide +kernel
  have read : ((History.fresh "alice" Chat.forgetful.world).after makesAndEnters).talk.shell.loaded = true := by
    decide +kernel
  obtain ⟨settled, -⟩ := directory_agrees_iff (by decide) Chat.forgetful.world makesAndEnters makesAndEnters_spares
  -- from here on any history will do, and this one is not run again to compare its parts
  generalize (History.fresh "alice" Chat.forgetful.world).after makesAndEnters = h at entered kept read settled ⊢
  obtain ⟨-, agree⟩ := settled read
  exact ⟨entered, kept, fun same => absurd (kept.symm.trans ((agree.mp same).trans entered)) (by decide)⟩

/-- It is not so that the working directory is what the store remembers whenever it was read. -/
theorem directories_disagree :
    ¬ ∀ (identity : String) (start : World) (calls : List Call), identity ≠ "" → (∀ c ∈ calls, c.Spares identity) →
      ((History.fresh identity start).after calls).talk.shell.loaded = true →
      ((History.fresh identity start).after calls).world.backend.store.get (Key.cwd identity) =
        .text ((History.fresh identity start).after calls).talk.shell.cwd := by
  intro agree
  have same := agree "alice" Chat.forgetful.world makesAndEnters (by decide) makesAndEnters_spares (by decide +kernel)
  revert same
  decide +kernel

end Shell

end TreeShell
