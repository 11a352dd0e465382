import TreeShell.Proofs.Chat.Lines
import TreeShell.Proofs.Chat.SameBut

/-! # Elevation is confined to its line and its stages

Whoever has the elevation password gets elevation for one line. It is not passed on: the bans change only where such
a line comes through a stage that begins with the elevation keyword, however late, no other line can tell the
difference, and all other stages of the line are what they would be without it (`Chat.elevation_confined`).
-/

namespace TreeShell

open Pipeline

namespace Chat

variable {start : Chat} {steps : List Step}

/-- Whether the request that started a line gave a password with the digest of the gate, which is not empty. -/
def Launch.Presented (l : Launch) (gate : Gate) : Prop :=
  ∃ password, l.password = some password ∧ gate.expected ≠ [] ∧
    (gate.hash (Utf8.encode password)).toList = gate.expected

/-- A line has been granted elevation only if its own request presented the password. -/
theorem Launch.Made.presented {l : Launch} (made : l.Made start steps) (elevated : l.granted.isSome = true) :
    l.Presented start.gate := by
  obtain ⟨before, later, c, -, admits⟩ := made
  have accepted := (admitted_of_admits admits).accepted elevated
  rw [gate_after] at accepted
  exact Gate.exists_of_accepts accepted

/-- A step that changes the bans comes through an elevated stage of its line. -/
theorem exists_elevated_of_bans_changed (fresh : start.shells = []) (next : Step)
    (changes : ((start.after steps).step next).2.world.backend.store.bans ≠ (start.after steps).world.backend.store.bans) :
    ∃ d, (start.watch steps).deed next = some d ∧
      ∃ part ∈ d.progress.ran, part.asksElevation = true ∧ d.launch.granted.isSome = true := by
  have faithful := faithful_watch fresh steps
  rw [← chat_watch] at changes
  cases found : (start.watch steps).deed next with
  | none => exact absurd (faithful.idle found).bans changes
  | some d =>
    refine ⟨d, rfl, ?_⟩
    by_contra none
    refine changes ?_
    rw [(faithful.carried found).world]
    refine ((keepsBans_watch start steps).deed found).now fun part ran => ?_
    rw [Part.elevated, Bool.and_eq_false_imp]
    intro asks
    exact Bool.eq_false_iff.mpr fun elevated => none ⟨part, ran, asks, elevated⟩

/-- Whether two chats answer requests alike and have the same world and the same audit database afterwards. -/
def AnswersAlike (c d : Chat) (requests : List Step) : Prop :=
  d.responses requests = c.responses requests ∧ (d.after requests).world = (c.after requests).world ∧
    (d.after requests).database = (c.after requests).database

/-- Whatever waits in the place of a line, nobody can tell up to the first answer to that line. -/
theorem answersAlike_up_to_answer (fresh : start.shells = []) {owner : String} {rest rest' : Answer → Program String}
    {d : Chat} (same : SameBut owner rest rest' (start.after steps) d) (later : List Step) :
    AnswersAlike (start.after steps) d later ∨
      ∃ front answer back, later = front ++ .respond owner answer :: back ∧
        AnswersAlike (start.after steps) d front ∧
        (((start.after steps).after front).shellOf owner).Differs owner rest rest' ((d.after front).shellOf owner) := by
  rcases same.run later with ⟨responses, alike⟩ | ⟨front, identity, answer, back, cut, differs, responses, alike⟩
  · exact .inl ⟨responses, alike.world, alike.database⟩
  · have whole : (start.after steps).after front = start.after (steps ++ front) := by
      rw [after, after, after, List.foldl_append]
    have own : identity = owner := by
      have named := (faithful_watch fresh (steps ++ front)).named identity
      rw [chat_watch, ← whole] at named
      exact named.symm.trans differs.owned
    subst own
    exact .inr ⟨front, answer, back, cut, ⟨responses, alike.world, alike.database⟩, differs⟩

/-- Elevation is confined to its line and its stages. In every run of a chat in which nothing waits at first, from any
store, with any faults and under any gate:

- what waits is what is left of lines that each were started by a request of their own identity, with the elevation
  that this request was granted, and what a step does is to start such a line or to carry it on;
- a step changes the bans only if it comes through a stage that begins with the elevation keyword, of a line whose own
  request gave a password with the digest of the gate;
- whatever waits in the place of a line, all requests are answered alike and come to the same up to the first answer to
  that line, while no other line of its identity has taken its place;
- a stage that does not begin with the elevation keyword is the same program whatever was granted to its line, and if
  it is the last one, then so is the redirect after it. -/
theorem elevation_confined {start : Chat} (fresh : start.shells = []) (steps : List Step) (next : Step) :
    let c := start.after steps
    let w := start.watch steps
    ((∀ identity, (c.shellOf identity).pending = (w.lines identity).map Line.remainder) ∧
      (∀ identity, ∀ l ∈ w.lines identity, l.launch.identity = identity ∧ l.launch.Made start steps) ∧
      ∀ d ∈ w.deed next, w.Carried next d ∧ d.launch.Made start (steps ++ [next])) ∧
    ((c.step next).2.world.backend.store.bans ≠ c.world.backend.store.bans →
      ∃ d ∈ w.deed next, (∃ part ∈ d.progress.ran, part.asksElevation = true) ∧ d.launch.Presented start.gate) ∧
    (∀ identity, ∀ l ∈ w.lines identity, ∀ rest d, SameBut identity l.remainder rest c d → ∀ later,
      AnswersAlike c d later ∨
        ∃ front answer back, later = front ++ .respond identity answer :: back ∧ AnswersAlike c d front ∧
          ((c.after front).shellOf identity).Differs identity l.remainder rest ((d.after front).shellOf identity)) ∧
    ∀ identity stage granted, (Part.stage stage).asksElevation = false →
      (∀ stdin, runStage identity stage stdin granted = runStage identity stage stdin none) ∧
        ∀ front target, runParsed identity ⟨front ++ [stage], some target⟩ granted = do
          let result ← runStages identity granted front ⟨"", none⟩
          let result ← runStage identity stage result.output none
          writeTarget identity target result
          return result.output := by
  intro c w
  have faithful : w.Faithful := faithful_watch fresh steps
  have made := made_watch start steps
  have watched : w.chat = c := chat_watch start steps
  refine ⟨⟨fun identity => watched ▸ faithful.pending identity, fun identity l waits => ?_, fun d found => ?_⟩,
    fun changes => ?_, fun identity l _ rest d same later => ?_, fun identity stage granted plain => ⟨fun stdin => ?_,
      fun front target => ?_⟩⟩
  · exact ⟨(faithful.own identity l waits).1, made identity l waits⟩
  · exact ⟨faithful.carried found, Watched.deed_made watched made found⟩
  · obtain ⟨d, found, part, ran, asks, elevated⟩ := exists_elevated_of_bans_changed fresh next changes
    exact ⟨d, found, ⟨part, ran, asks⟩, (Watched.deed_made watched made found).presented elevated⟩
  · exact answersAlike_up_to_answer fresh same later
  · exact runStage_congr plain stdin
  · exact runParsed_congr front plain target

/-- A line waits in one of its elevated stages, while another identity runs a line without elevation. -/
def waitingToBan : List Step :=
  [.handle "bob" "sudo vim f | sudo ban eve" (some "z"), .handle "alice" "echo y > g" none]

/-- The line that waits bans when it gets its answer, under the password that its own message gave. -/
theorem elevation_confined_on_late_ban :
    ((blank.after waitingToBan).step (.respond "bob" (some "t"))).2.world.backend.store.bans ≠
        (blank.after waitingToBan).world.backend.store.bans ∧
      ∃ d ∈ (blank.watch waitingToBan).deed (.respond "bob" (some "t")),
        (∃ part ∈ d.progress.ran, part.asksElevation = true) ∧ d.launch.Presented blank.gate := by
  have changes : ((blank.after waitingToBan).step (.respond "bob" (some "t"))).2.world.backend.store.bans ≠
      (blank.after waitingToBan).world.backend.store.bans := by decide +kernel
  obtain ⟨-, bans, -⟩ := @elevation_confined blank rfl waitingToBan (.respond "bob" (some "t"))
  exact ⟨changes, bans changes⟩

end Chat

end TreeShell
