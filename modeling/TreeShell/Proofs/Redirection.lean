import TreeShell.Proofs.CommandLine.Redirects
import TreeShell.Proofs.Pipeline.Stages
import TreeShell.Proofs.Program.Dialogues
import TreeShell.Proofs.Shell.Settling
import TreeShell.Proofs.Verb.Outcome

/-! # What a redirect does

A line with a redirect is the line without it, and then a write of the reply with the elevation of the last stage
(`Pipeline.runParsed_redirect`). The reply stands before the write begins. The write may ask for a password, may be refused,
which is logged and changes nothing else, or may meet a failing store, which ends the line without a reply
(`Pipeline.Redirected`).
-/

namespace TreeShell

open CommandLine (Redirects Rightmost)

namespace Pipeline

variable {target : String} {elevation : Option Elevation}

/-- The dialogue of the write of a reply, after the one that came to the reply. -/
def writeDialogue (identity target : String) (elevation : Option Elevation) (answers : List Answer) (d : Dialogue String)
    (reply : String) : Dialogue Verb.Result :=
  ((VerbCall.redirect target reply).program identity elevation).converse (answers.drop d.prompts.length) d.machine

/-- What a dialogue without a redirect becomes with one. It stays as it is if it comes to no reply; else it goes on with the
write. Its reply stays the same whatever the write comes to, but for a failing store. A refused write changes nothing, and
one record tells of it. -/
inductive Redirected (identity target : String) (elevation : Option Elevation) (answers : List Answer)
    (d : Dialogue String) : Dialogue String → Prop
  | unwritten {error : StoreError} (stopped : d.result = .error error) :
    Redirected identity target elevation answers d d
  | broken {reply : String} {e : Dialogue Verb.Result} {error : StoreError} (replied : d.result = .ok reply)
    (writes : writeDialogue identity target elevation answers d reply = e) (stopped : e.result = .error error) :
    Redirected identity target elevation answers d ⟨d.prompts ++ e.prompts, .error error, e.machine⟩
  | written {reply text : String} {e : Dialogue Verb.Result} (replied : d.result = .ok reply)
    (writes : writeDialogue identity target elevation answers d reply = e) (done : e.result = .ok (.ok text)) :
    Redirected identity target elevation answers d ⟨d.prompts ++ e.prompts, .ok reply, e.machine⟩
  | refused {reply : String} {e : Dialogue Verb.Result} {refusal : Refusal} (replied : d.result = .ok reply)
    (writes : writeDialogue identity target elevation answers d reply = e) (denied : e.result = .ok (.error refusal))
    (store : e.machine.world.backend.store = d.machine.world.backend.store) (cwd : e.machine.cwd = d.machine.cwd)
    (events : e.machine.world.events = d.machine.world.events) :
    Redirected identity target elevation answers d
      ⟨d.prompts ++ e.prompts, .ok reply,
        { e.machine with world := e.machine.world.record (.redirectRefused identity target (refusal.message "shell")) }⟩

/-- A refused write changes nothing, also where other calls on the store would fail. -/
theorem kept_of_refused {text : String} {answers : List Answer} {m : Machine} {refusal : Refusal}
    (denied : (((VerbCall.redirect target text).program identity elevation).converse answers m).result = .ok (.error refusal)) :
    let after := (((VerbCall.redirect target text).program identity elevation).converse answers m).machine
    after.world.backend.store = m.world.backend.store ∧ after.cwd = m.cwd ∧ after.world.events = m.world.events := by
  have outcomes := Verb.redirect_cases target text elevation { m.solo answers with asked := [] }
  rw [VerbCall.program] at denied ⊢
  generalize Verb.redirect target text elevation = p at denied outcomes ⊢
  obtain ⟨result, store, cwd, events⟩ := Program.play_of_converse denied []
  rcases outcomes with ⟨-, asks⟩ | ⟨v, -, played⟩
  · exact ⟨store.trans asks.store, cwd.trans asks.cwd, events.trans asks.events⟩
  · rw [played] at result
    cases result

/-- A dialogue goes on as it does with a redirect when its reply is saved. -/
theorem redirected_save (identity target : String) (elevation : Option Elevation) (answers : List Answer)
    (d : Dialogue String) :
    Redirected identity target elevation answers d (d.andThen answers (save identity target elevation)) := by
  rw [Dialogue.andThen]
  cases replied : d.result with
  | error error =>
    obtain ⟨prompts, result, machine⟩ := d
    obtain rfl : result = .error error := replied
    exact .unwritten rfl
  | ok reply =>
    dsimp only
    rw [save, Program.converse_bind, ← writeDialogue, Dialogue.andThen]
    cases writes : writeDialogue identity target elevation answers d reply with
    | mk prompts result machine =>
      cases result with
      | error error => exact .broken replied writes rfl
      | ok outcome =>
        cases outcome with
        | ok text =>
          have redirected := Redirected.written replied writes rfl
          simpa [noteRefusal, Program.converse, Program.bind, pure] using redirected
        | error refusal =>
          have denied := congrArg Dialogue.result writes
          have kept := kept_of_refused denied
          rw [← writeDialogue, writes] at kept
          have redirected := Redirected.refused replied writes rfl kept.1 kept.2.1 kept.2.2
          simpa [noteRefusal, Program.converse, Program.bind, Program.record, pure] using redirected

end Pipeline

namespace Shell

/-- A redirect is seen where one stands, and does what a write of the reply does. The text after the last bar of a line, without
the blanks at its ends, runs as it is unless it ends in a redirect. If it does, the line takes the rightmost mark that makes
one: what follows is the target, and what is before, without the blanks at its ends, is the last stage. Then the line leads
through the prompts of these stages, and on through those of the write, with the elevation of the last stage; and it ends
as they do. -/
theorem redirects_applied (line : String) :
    ∃ front, let text := Text.trim (Text.afterLast '|' line)
      Text.split '|' line = front ++ [Text.afterLast '|' line] ∧
      (((∀ before target, ¬ Redirects text.toList before target) ∧
          CommandLine.parse line = ⟨front.map Text.trim ++ [text], none⟩) ∨
        ∃ before target, Redirects text.toList before target ∧ Rightmost text.toList before ∧
          let last := Text.trim (String.ofList before)
          let target := String.ofList target
          CommandLine.parse line = ⟨front.map Text.trim ++ [last], some target⟩ ∧
            ∀ (s : Shell) (w : World) (granted : Option Elevation) (answers : List Answer) (ready : Shell) (w' : World),
              s.begin w line granted = (.ok (), ready, w') →
              let d := (Pipeline.runParsed s.identity ⟨front.map Text.trim ++ [last], none⟩ granted).converse answers
                ⟨w', ready.cwd⟩
              ∃ e, Pipeline.Redirected s.identity target (Pipeline.stageElevation granted last) answers d e ∧
                (s.exec w line granted).Settles answers e.prompts (ready.concluded e)) := by
  obtain ⟨front, pieces, plain | ⟨before, target, redirects, rightmost, parsed⟩⟩ := CommandLine.parse_cases line
  · exact ⟨front, pieces, .inl plain⟩
  · refine ⟨front, pieces, .inr ⟨before, target, redirects, rightmost, parsed, ?_⟩⟩
    intro s w granted answers ready w' begun d
    obtain ⟨settles, -⟩ := settles_of_begin begun answers
    rw [Pipeline.run, parsed, Pipeline.runParsed_redirect, Program.converse_bind] at settles
    exact ⟨_, Pipeline.redirected_save _ _ _ answers d, settles⟩

/-- Of two marks the second is taken, and a write to a directory is refused: the text is printed and one record is logged. -/
theorem redirects_applied_on_directory :
    let s : Shell := { identity := "alice", loaded := true }
    let w : World := { backend := { store := .empty } }
    let d := (Pipeline.runParsed "alice" ⟨["echo a", "echo x > y"], none⟩ none).converse []
      ⟨w.record (.shellCommand "alice" "/" "echo a | echo x > y > /" false), "/"⟩
    (∃ e, Pipeline.Redirected "alice" "/" none [] d e ∧
        (s.exec w "echo a | echo x > y > /" none).Settles [] e.prompts (s.concluded e)) ∧
      (s.exec w "echo a | echo x > y > /" none).response = .ok (.reply "x > y") ∧
      (s.exec w "echo a | echo x > y > /" none).world.events =
        [.shellCommand "alice" "/" "echo a | echo x > y > /" false,
          .redirectRefused "alice" "/" "shell: cannot redirect to directory: /"] := by
  intro s w d
  refine ⟨?_, by decide +kernel, by decide +kernel⟩
  have parsed : CommandLine.parse "echo a | echo x > y > /" = ⟨["echo a", "echo x > y"], some "/"⟩ := by decide +kernel
  obtain ⟨front, -, ⟨-, plain⟩ | ⟨before, target, -, -, split, applied⟩⟩ := redirects_applied "echo a | echo x > y > /"
  · cases (CommandLine.mk.inj (parsed.symm.trans plain)).2
  · have same := CommandLine.mk.inj (parsed.symm.trans split)
    have plain : Pipeline.stageElevation none (Text.trim (String.ofList before)) = none := ite_self none
    obtain ⟨e, redirected, settles⟩ := applied s w none [] s _ rfl
    rw [← same.1, plain, ← Option.some.inj same.2] at redirected
    exact ⟨e, redirected, settles⟩

end Shell

end TreeShell
