import TreeShell.Proofs.Chat.Checks
import TreeShell.Proofs.CommandLine.Redirects
import TreeShell.Proofs.Pipeline.Parts
import TreeShell.Proofs.Text.Words

/-! # Where elevation is asked for

The chat looks for the elevation keyword in the line as it stands, and the shell in the stages that it runs, when the
redirect was taken off the last of them. Both see the same first words, but for one: a keyword with the mark of the redirect
glued to it is a word of its own to the shell only (`Chat.elevation_detected_iff`).
-/

namespace TreeShell

open Pipeline (Part)
open Text (firstWord firstWords)

theorem Pipeline.Part.asksElevation_iff (stage : String) :
    (Part.stage stage).asksElevation = true ↔ firstWord stage.toList = elevationKeyword.toList := by
  rw [asksElevation, decide_eq_true_iff, Text.head?_words_eq_some_iff (by decide)]

theorem Pipeline.Part.asksElevation_trim (stage : String) :
    (Part.stage (Text.trim stage)).asksElevation = (Part.stage stage).asksElevation := by
  rw [Bool.eq_iff_iff, asksElevation_iff, asksElevation_iff, Text.firstWord_trim]

namespace CommandLine

/-- Whether of the stages of a line only the last one asks for elevation, and that is nothing but the keyword, with the mark
of the redirect glued to it. -/
structure OnlyGlued (line : String) : Prop where
  glued : ∃ target, splitRedirect (Text.trim ((Text.split '|' line).getLastD "")).toList =
    some (elevationKeyword.toList, target)
  alone : ∀ stage ∈ (parse line).stages.dropLast, (Part.stage stage).asksElevation = false

/-- The last stage of a line from its last piece. -/
def lastStage (piece : String) : String :=
  match splitRedirect (Text.trim piece).toList with
  | some (before, _) => Text.trim (String.ofList before)
  | none => Text.trim piece

theorem stages_parse {line last : String} {front : List String} (pieces : Text.split '|' line = front ++ [last]) :
    (parse line).stages = front.map Text.trim ++ [lastStage last] := by
  rw [parse, pieces, List.map_append, List.map_singleton, List.getLastD_concat, lastStage]
  cases splitRedirect (Text.trim last).toList with
  | none => rfl
  | some found =>
    dsimp only
    rw [List.dropLast_concat]

/-- The last piece of a line asks for elevation exactly if the last stage does and its keyword is not glued to the mark. -/
theorem asks_last_iff (last : String) :
    (Part.stage last).asksElevation = true ↔ (Part.stage (lastStage last)).asksElevation = true ∧
      ¬ ∃ target, splitRedirect (Text.trim last).toList = some (elevationKeyword.toList, target) := by
  rw [lastStage]
  cases found : splitRedirect (Text.trim last).toList with
  | none => simp [Part.asksElevation_trim]
  | some parts =>
    obtain ⟨before, target⟩ := parts
    obtain ⟨⟨⟨blanks, whole, -⟩, -, -⟩, -⟩ := splitRedirect_eq_some found
    dsimp only
    rw [Part.asksElevation_trim, Part.asksElevation_iff, Part.asksElevation_iff, String.toList_ofList,
      ← Text.firstWord_trim last, whole, Text.firstWord_mark_iff (by decide) (by decide)]
    rw [Text.dropWhile_of_trim whole]
    simp

/-- The chat sees a stage that asks for elevation where the shell does, unless the only one is glued to the redirect. -/
theorem wantsElevation_iff (line : String) : wantsElevation line = true ↔
    (∃ stage ∈ (parse line).stages, (Part.stage stage).asksElevation = true) ∧ ¬ OnlyGlued line := by
  have nonempty : Text.split '|' line ≠ [] := List.map_eq_nil_iff.not.mpr (List.splitOn_ne_nil _ _)
  obtain ⟨front, last, pieces⟩ := List.eq_nil_or_concat' (Text.split '|' line) |>.resolve_left nonempty
  have stages := stages_parse pieces
  have seen : wantsElevation line = true ↔
      (∃ piece ∈ front, (Part.stage piece).asksElevation = true) ∨ (Part.stage last).asksElevation = true := by
    rw [wantsElevation, pieces, List.any_append, Bool.or_eq_true, List.any_eq_true, List.any_cons, List.any_nil, Bool.or_false]
    rfl
  have ran : (∃ stage ∈ (parse line).stages, (Part.stage stage).asksElevation = true) ↔
      (∃ piece ∈ front, (Part.stage piece).asksElevation = true) ∨ (Part.stage (lastStage last)).asksElevation = true := by
    simp [stages, or_and_right, exists_or, Part.asksElevation_trim]
  have glued : OnlyGlued line ↔
      (∃ target, splitRedirect (Text.trim last).toList = some (elevationKeyword.toList, target)) ∧
        ¬ ∃ piece ∈ front, (Part.stage piece).asksElevation = true := by
    refine ⟨fun only => ⟨?_, ?_⟩, fun both => ⟨?_, ?_⟩⟩
    · have mark := only.glued
      rwa [pieces, List.getLastD_concat] at mark
    · rintro ⟨piece, member, asks⟩
      have alone := only.alone (Text.trim piece) (by
        rw [stages, List.dropLast_concat]
        exact List.mem_map_of_mem member)
      rw [Part.asksElevation_trim, asks] at alone
      cases alone
    · rw [pieces, List.getLastD_concat]
      exact both.1
    · rw [stages, List.dropLast_concat]
      refine List.forall_mem_map.mpr fun piece member => ?_
      rw [Part.asksElevation_trim]
      exact Bool.eq_false_iff.mpr fun asks => both.2 ⟨piece, member, asks⟩
  rw [seen, ran, glued, asks_last_iff, or_and_left, not_and_not_right, imp_iff_or_not]

end CommandLine

namespace Chat

/-- Both detectors of the elevation keyword see the same, but for a keyword with the mark of the redirect glued to it. A
line asks for elevation as the chat sees it exactly if one of the stages does that the shell runs, and it is not the last
one alone, with nothing but the keyword before the mark. A chat checks a password for a message with this command exactly if
the message gets past the ban list and the command asks for elevation so. -/
theorem elevation_detected_iff (line : String) :
    (wantsElevation line = true ↔
      (∃ stage ∈ (CommandLine.parse line).stages, (Part.stage stage).asksElevation = true) ∧
        ¬ CommandLine.OnlyGlued line) ∧
      ∀ (c : Chat) (identity message : String) (password : Answer), commandOf message = line →
        (c.Checks identity message password ↔
          c.PassesBans identity ∧
            (∃ stage ∈ (CommandLine.parse line).stages, (Part.stage stage).asksElevation = true) ∧
              ¬ CommandLine.OnlyGlued line) := by
  refine ⟨CommandLine.wantsElevation_iff line, ?_⟩
  rintro c identity message password rfl
  exact checks_iff.trans (and_congr_right fun _ => CommandLine.wantsElevation_iff (commandOf message))

/-- It is not so that the chat sees every line that asks for elevation when it runs. -/
theorem glued_elevation_unseen :
    ¬ ∀ line, wantsElevation line = true ↔
      ∃ stage ∈ (CommandLine.parse line).stages, (Part.stage stage).asksElevation = true := by
  intro same
  have seen := (same "sudo>x").mpr ⟨"sudo", by decide, by decide⟩
  exact absurd seen (by decide)

end Chat

end TreeShell
