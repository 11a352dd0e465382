import TreeShell.Proofs.Chat.Lines

/-! # What a banned identity can still do

A message of a banned identity changes neither the store nor the audit database. An answer to a prompt is not checked
against the ban list: it goes to the line that waits, which was started before the ban and may write. Nothing else is
left to a banned identity (`Chat.banned_changes_iff`).
-/

namespace TreeShell.Chat

open Pipeline

variable {c : Chat} {identity : String}

/-- A message of a banned identity changes nothing. -/
theorem handle_of_banned (banned : c.world.backend.store.IsBanned identity) (message : String) (password : Answer) :
    (c.handle identity message password).2.world.backend.store = c.world.backend.store ∧
      (c.handle identity message password).2.database = c.database := by
  have read := BanList.runOn_isBanned identity c.world
  rw [handle]
  split
  · exact ⟨rfl, rfl⟩
  · generalize (BanList.isBanned identity).runOn c.world = looked at read
    obtain ⟨error | found, world⟩ := looked
    · exact ⟨read.1, rfl⟩
    · obtain rfl : found = true := (read.2 found rfl).trans (decide_eq_true banned)
      exact ⟨read.1, rfl⟩

/-- What a banned identity can still do, in every run of a chat in which nothing waits at first, from any store and
with any faults:

- its messages change neither the store nor the audit database, and start no line;
- its answers do not change the audit database, and change the store exactly if a line of it waits that does so when
  it is carried on;
- such a line was started by a message of the identity at a time when it was not banned. -/
theorem banned_changes_iff {start : Chat} (fresh : start.shells = []) {steps : List Step} {identity : String}
    (banned : (start.after steps).world.backend.store.IsBanned identity) :
    let c := start.after steps
    let w := start.watch steps
    (∀ message password,
      (c.step (.handle identity message password)).2.world.backend.store = c.world.backend.store ∧
        (c.step (.handle identity message password)).2.database = c.database ∧
        (w.step (.handle identity message password)).lines = w.lines) ∧
    (∀ answer,
      (c.step (.respond identity answer)).2.database = c.database ∧
        ((c.step (.respond identity answer)).2.world.backend.store ≠ c.world.backend.store ↔
          ∃ d ∈ w.deed (.respond identity answer), d.progress.machine.world.backend.store ≠ c.world.backend.store)) ∧
    ∀ l ∈ w.lines identity, ∃ before later,
      steps = before ++ .handle identity l.launch.message l.launch.password :: later ∧
        ¬ (start.after before).world.backend.store.IsBanned identity := by
  intro c w
  have faithful : w.Faithful := faithful_watch fresh steps
  have watched : w.chat = c := chat_watch start steps
  refine ⟨fun message password => ?_, fun answer => ⟨c.database_respond identity answer, ?_⟩, fun l waits => ?_⟩
  · have refused : w.chat.admits identity message password = none :=
      Option.eq_none_iff_forall_ne_some.mpr fun _ admits => (admitted_of_admits admits).allowed (watched ▸ banned)
    obtain ⟨store, same⟩ := handle_of_banned banned message password
    refine ⟨store, same, ?_⟩
    rw [Watched.step, Watched.deed, refused]
  · cases found : w.deed (.respond identity answer) with
    | none =>
      have idle : (c.shellOf identity).pending = none := by
        rw [← watched, faithful.pending, Option.map_eq_none_iff.mp found]
        rfl
      refine ⟨fun changes => absurd (store_respond_of_idle idle answer) changes, ?_⟩
      rintro ⟨_, ⟨⟩, -⟩
    | some d =>
      rw [← watched, (faithful.carried found).world]
      refine ⟨fun changes => ⟨d, rfl, changes⟩, ?_⟩
      rintro ⟨_, ⟨⟩, changes⟩
      exact changes
  · obtain ⟨before, later, c', cut, admits⟩ := made_watch start steps identity l waits
    rw [(faithful.own identity l waits).1] at cut admits
    exact ⟨before, later, cut, (admitted_of_admits admits).allowed⟩

/-- An identity is banned while its editor waits. -/
def bannedInEditor : List Step :=
  [.handle "eve" "vim f" none, .handle "bob" "sudo ban eve" (some "z")]

theorem isBanned_bannedInEditor : (blank.after bannedInEditor).world.backend.store.IsBanned "eve" := by
  rw [Store.IsBanned]
  decide +kernel

theorem store_save_bannedInEditor :
    ((blank.after bannedInEditor).step (.respond "eve" (some "y"))).2.world.backend.store ≠
      (blank.after bannedInEditor).world.backend.store := by
  decide +kernel

/-- The editor that waits is what a banned identity writes with. -/
theorem banned_changes_iff_on_save :
    (blank.after bannedInEditor).world.backend.store.IsBanned "eve" ∧
      ∃ d ∈ (blank.watch bannedInEditor).deed (.respond "eve" (some "y")),
        d.progress.machine.world.backend.store ≠ (blank.after bannedInEditor).world.backend.store := by
  obtain ⟨-, answers, -⟩ := @banned_changes_iff blank rfl bannedInEditor "eve" isBanned_bannedInEditor
  exact ⟨isBanned_bannedInEditor, (answers (some "y")).2.mp store_save_bannedInEditor⟩

/-- It is not so that a banned identity cannot act: a line that waits goes on and writes after the ban. -/
theorem banned_not_powerless :
    ¬ ∀ (start : Chat) (steps : List Step) (next : Step), start.shells = [] →
      start.world.backend.faults = FaultSchedule.none →
      (start.after steps).world.backend.store.IsBanned next.identity →
      ((start.after steps).step next).2.world.backend.store = (start.after steps).world.backend.store ∧
        ((start.after steps).step next).2.database = (start.after steps).database := by
  intro powerless
  exact store_save_bannedInEditor
    (powerless blank bannedInEditor (.respond "eve" (some "y")) rfl rfl isBanned_bannedInEditor).1

end TreeShell.Chat
