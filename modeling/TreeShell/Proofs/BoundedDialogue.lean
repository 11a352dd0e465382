import TreeShell.Proofs.ElevationDetection
import TreeShell.Proofs.Pipeline.Stages
import TreeShell.Proofs.Shell.Settling
import TreeShell.Proofs.Verb.Prompts

/-! # How long the dialogue of a line can be

A stage asks for three secrets at most and opens one editor at most, and with elevation it only opens the editor
(`Pipeline.runStage_shows`). A redirect asks for one password. So a line of `n` stages shows at most `4 * n + 1` prompts,
whatever it reads and however they are answered, and then it ends (`Shell.dialogue_bounded`).
-/

namespace TreeShell

open Pipeline (Part stageElevation)

variable {identity : String} {granted : Option Elevation}

theorem BanList.list_shows : BanList.list.Shows 0 0 := by
  refine .call fun v => ?_
  cases v <;> exact .done

/-- A command shows no more than the verbs do. -/
theorem Command.shows (identity stdin : String) (elevation : Option Elevation) (command : Command) :
    (command.program identity stdin elevation).Shows (secretsBound elevation 3) 1 := by
  have quiet {p : Program String} (shows : p.Shows 0 0) : p.Shows (secretsBound elevation 3) 1 :=
    shows.mono (Nat.zero_le _) (Nat.zero_le _)
  have replies (call : VerbCall) : (call.reply identity elevation).Shows (secretsBound elevation 3) 1 :=
    (call.shows identity elevation).before fun _ => .done
  cases command with
  | verb call =>
    cases call with
    | cat label =>
      rw [program]
      split
      · exact replies (.cat label)
      · exact .done
    | _ => exact replies _
  | pwd => exact .cwd fun _ => .done
  | echo args | help => exact .done
  | ban target =>
    refine quiet ?_
    rw [program, Moderation.ban]
    split
    · exact .done
    · exact .call fun _ => .done
  | unban target =>
    refine quiet ?_
    rw [program, Moderation.unban]
    split
    · exact .done
    · exact .call fun _ => .done
  | listBanned =>
    refine quiet (BanList.list_shows.after fun banned => ?_)
    cases banned <;> exact .done

namespace Pipeline

/-- A stage asks for three secrets at most, and for none with elevation; it opens one editor at most. -/
theorem runStage_shows (identity stage stdin : String) (granted : Option Elevation) :
    (runStage identity stage stdin granted).Shows (secretsBound (stageElevation granted stage) 3) 1 := by
  rw [runStage_eq]
  cases stageCommand granted stage with
  | error text => exact .done
  | ok command => exact (command.shows identity stdin _).before fun _ => .done

theorem runStages_shows (identity : String) (granted : Option Elevation) (stages : List String) (result : StageResult) :
    (runStages identity granted stages result).Shows (3 * stages.length) stages.length := by
  induction stages generalizing result with
  | nil => exact .done
  | cons stage rest ih =>
    have bound : secretsBound (stageElevation granted stage) 3 ≤ 3 := by
      rw [secretsBound]
      split <;> decide
    have first := (runStage_shows identity stage result.output granted).mono bound (Nat.le_refl 1)
    rw [List.length_cons, Nat.mul_succ, Nat.add_comm, Nat.add_comm rest.length]
    exact first.bind ih

theorem writeTarget_shows (target : String) (result : StageResult) :
    (writeTarget identity target result).Shows 1 0 := by
  have bound : secretsBound result.elevation 1 ≤ 1 := by
    rw [secretsBound]
    split <;> decide
  refine ((Verb.redirect_shows target result.output).mono bound (Nat.le_refl 0)).before fun outcome => ?_
  cases outcome with
  | ok reply => exact .done
  | error refusal => exact .log .done

/-- A line asks for three secrets a stage at most, and for one more if it has a redirect; it opens an editor a stage at most. -/
theorem runParsed_shows (identity : String) (line : CommandLine) (granted : Option Elevation) :
    (runParsed identity line granted).Shows (3 * line.stages.length + 1) line.stages.length := by
  obtain ⟨stages, target⟩ := line
  have staged := runStages_shows identity granted stages ⟨"", none⟩
  cases target with
  | none => exact (staged.before fun _ => .done).mono (Nat.le_add_right _ 1) (Nat.le_refl _)
  | some target => exact staged.bind fun result => (writeTarget_shows target result).before fun _ => .done

end Pipeline

/-- There is one stage more than there are bars. -/
theorem CommandLine.length_stages (line : String) : (parse line).stages.length = line.toList.count '|' + 1 := by
  have nonempty : Text.split '|' line ≠ [] := List.map_eq_nil_iff.not.mpr (List.splitOn_ne_nil _ _)
  obtain ⟨front, last, pieces⟩ := List.eq_nil_or_concat' (Text.split '|' line) |>.resolve_left nonempty
  rw [stages_parse pieces, ← Text.length_split, pieces, List.length_append, List.length_append, List.length_map]
  rfl

namespace Shell

/-- However it is answered, a line of `n` stages shows at most `4 * n + 1` prompts, and then it ends as it does when it is
run at once: with a reply, if somebody is signed in and no call on the store fails. A stage of it that asks for elevation
and gets it shows one prompt at most, and that is an editor. -/
theorem dialogue_bounded (s : Shell) (w : World) (line : String) (granted : Option Elevation) (answers : List Answer) :
    (∃ prompts outcome shell world,
      (s.exec w line granted).Settles answers prompts ⟨outcome.map .reply, shell, world⟩ ∧
        prompts.length ≤ 4 * (line.toList.count '|' + 1) + 1 ∧
        s.execute w line granted answers = (outcome, shell, world) ∧
        (s.identity ≠ "" → w.backend.faults = FaultSchedule.none → ∃ text, outcome = .ok text)) ∧
      ∀ stage ∈ (CommandLine.parse line).stages, (Part.stage stage).asksElevation = true → granted.isSome = true →
        ∀ stdin answers m,
          let prompts := ((Pipeline.runStage s.identity stage stdin granted).converse answers m).prompts
          prompts.length ≤ 1 ∧ ∀ prompt ∈ prompts, prompt.kind = .edit := by
  refine ⟨?_, fun stage _ asks given stdin answers m => ?_⟩
  · cases begun : s.begin w line granted with
    | mk result after =>
      obtain ⟨ready, w'⟩ := after
      cases result with
      | error error =>
        obtain ⟨settles, executed⟩ := settles_of_begin_error begun answers
        refine ⟨[], .error error, ready, w', settles, Nat.zero_le _, executed, fun filled noFaults => ?_⟩
        obtain ⟨ready', w'', ok, -⟩ := begin_ok filled noFaults line granted
        cases begun.symm.trans ok
      | ok _ =>
        obtain ⟨settles, executed⟩ := settles_of_begin begun answers
        have within := (Pipeline.runParsed_shows s.identity (CommandLine.parse line) granted).within answers ⟨w', ready.cwd⟩
        rw [← Pipeline.run] at within
        have played := (Pipeline.run s.identity line granted).converse_eq_play answers (m := ⟨w', ready.cwd⟩)
        generalize (Pipeline.run s.identity line granted).converse answers ⟨w', ready.cwd⟩ = d at *
        refine ⟨d.prompts, d.result.mapError .store, (ready.concluded d).shell, d.machine.world, settles, ?_, executed, ?_⟩
        · have length := within.length_le
          rw [CommandLine.length_stages] at length
          omega
        · intro filled noFaults
          obtain ⟨ready', w'', ok, free⟩ := begin_ok filled noFaults line granted
          obtain ⟨rfl, rfl⟩ := Prod.mk.inj (Prod.mk.inj (begun.symm.trans ok)).2
          obtain ⟨result, -⟩ := played free
          exact ⟨_, by rw [result]; rfl⟩
  · have elevated : stageElevation granted stage = granted := if_pos asks
    have within := (Pipeline.runStage_shows s.identity stage stdin granted).within answers m
    rw [elevated, secretsBound, if_pos given] at within
    exact ⟨within.length_le, within.all_edit⟩

/-- A line with two editors, one behind a new password and one with elevation, and with a redirect ends on the empty store. -/
theorem dialogue_bounded_of_editors :
    let s : Shell := { identity := "alice" }
    let granted : Option Elevation := some ⟨"alice", .password⟩
    ∃ prompts text shell world,
      (s.exec { backend := { store := .empty } } "vim -s f | sudo vim g > h" granted).Settles
          [some "pw", some "pw", some "x", none] prompts ⟨.ok (.reply text), shell, world⟩ ∧
        prompts.length ≤ 9 ∧
        ∀ stdin answers m,
          let prompts := ((Pipeline.runStage "alice" "sudo vim g" stdin granted).converse answers m).prompts
          prompts.length ≤ 1 ∧ ∀ prompt ∈ prompts, prompt.kind = .edit := by
  intro s granted
  obtain ⟨⟨prompts, outcome, shell, world, settles, length, -, ends⟩, stages⟩ :=
    s.dialogue_bounded { backend := { store := .empty } } "vim -s f | sudo vim g > h" granted
      [some "pw", some "pw", some "x", none]
  obtain ⟨text, rfl⟩ := ends (by decide) rfl
  exact ⟨prompts, text, shell, world, settles, length.trans (by decide),
    stages "sudo vim g" (by decide) (by decide) rfl⟩

end Shell

end TreeShell
