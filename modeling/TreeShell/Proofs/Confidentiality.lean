import TreeShell.Proofs.Verb.Discreet
import TreeShell.Shell

/-! # Passwords stay confidential

Two stores that differ in passwords only cannot be told apart by a command line without elevation, as
long as every password that is tried is right in both or wrong in both: the prompts and the replies are
the same, and the stores again differ in passwords only. Every stage of a line is discreet because its
verb is, the line because its stages are, and the shell carries the lockstep from answer to answer.
-/

namespace TreeShell

variable {c : String}

theorem VerbCall.reply_discreet (identity : String) (call : VerbCall) :
    Discreet c (call.reply identity none) := by
  refine (call.program_discreet identity).bind ?_
  rintro c' r r' rfl
  exact .pure rfl

theorem Command.program_discreet (identity stdin : String) {command : Command}
    (free : command.isModeration = false) : Discreet c (command.program identity stdin none) := by
  cases command with
  | verb call =>
    cases call with
    | cat label =>
      change Discreet c (if stdin = "" then (VerbCall.cat label).reply identity none else pure stdin)
      split
      · exact VerbCall.reply_discreet identity _
      · exact .pure rfl
    | _ => exact VerbCall.reply_discreet identity _
  | echo args => exact .pure rfl
  | help => exact .pure rfl
  | pwd => exact .cwd (.done rfl)
  | _ => simp [isModeration] at free

namespace Pipeline

/-- What a stage gives in two runs: the same output, and no elevation. -/
theorem runWords_lockstep (identity : String) (words : List String) (stdin : String) :
    Lockstep (fun _ r r' => r = r' ∧ r.elevation = none) c
      (runWords identity words stdin none) (runWords identity words stdin none) := by
  unfold runWords
  dsimp only
  cases Command.ofName? (words.headD "") words.tail with
  | none => exact .pure ⟨rfl, rfl⟩
  | some command =>
    dsimp only
    split
    · exact .pure ⟨rfl, rfl⟩
    · next allowed =>
      have free : command.isModeration = false := by simpa using allowed
      refine (Command.program_discreet identity stdin free).bind ?_
      rintro c' output output' rfl
      exact .pure ⟨rfl, rfl⟩

theorem runStage_lockstep (identity stage stdin : String) :
    Lockstep (fun _ r r' => r = r' ∧ r.elevation = none) c
      (runStage identity stage stdin none) (runStage identity stage stdin none) := by
  unfold runStage
  cases Text.words stage with
  | nil => exact runWords_lockstep identity [] stdin
  | cons word rest =>
    dsimp only
    split
    · exact .pure ⟨rfl, rfl⟩
    · exact runWords_lockstep identity _ stdin

theorem runStages_lockstep (identity : String) (stages : List String) {result : StageResult}
    (unelevated : result.elevation = none) :
    Lockstep (fun _ r r' => r = r' ∧ r.elevation = none) c
      (runStages identity none stages result) (runStages identity none stages result) := by
  induction stages generalizing c result with
  | nil => exact .pure ⟨rfl, unelevated⟩
  | cons stage rest ih =>
    refine (runStage_lockstep identity stage result.output).bind ?_
    rintro c' r r' ⟨rfl, unelevated⟩
    exact ih unelevated

theorem writeTarget_discreet (identity target : String) {result : StageResult}
    (unelevated : result.elevation = none) : Discreet c (writeTarget identity target result) := by
  unfold writeTarget
  rw [unelevated]
  refine (VerbCall.program_discreet identity _).bind ?_
  rintro c' r r' rfl
  cases r with
  | ok _ => exact .pure rfl
  | error refusal => exact (Lockstep.record _).mono fun _ _ _ _ => rfl

/-- A line without elevation is discreet. -/
theorem run_discreet (identity line : String) : Discreet c (run identity line none) := by
  unfold run runParsed
  refine (runStages_lockstep identity _ rfl).bind ?_
  rintro c' r r' ⟨rfl, unelevated⟩
  cases (CommandLine.parse line).target with
  | none => exact .pure rfl
  | some target =>
    refine (writeTarget_discreet identity target unelevated).bind ?_
    rintro - - - -
    exact .pure rfl

end Pipeline

/-- The same world with another store. -/
def World.withStore (w : World) (s : Store) : World :=
  { w with backend := { w.backend with store := s } }

/-- The results of answering a shell as long as it waits, the given one first. -/
def ShellResult.answered (r : ShellResult) : List Answer → List ShellResult
  | [] => [r]
  | answer :: rest =>
    match r.response with
    | .ok (.awaiting _) => r :: (r.shell.resume r.world answer).answered rest
    | _ => [r]

/-- The results of starting a line and then answering its prompts. -/
def Shell.conversation (s : Shell) (w : World) (line : String) (granted : Option Elevation)
    (answers : List Answer) : List ShellResult :=
  (s.exec w line granted).answered answers

/-- Whether an answer opens the path that a label names from the working directory of the shell. -/
def ShellResult.opens (r : ShellResult) (label : String) (answer : Answer) : Bool :=
  r.world.backend.store.opens (Path.resolve label r.shell.cwd) answer

/-- Whether two results look the same, leave twins behind, and wait in lockstep if they wait. -/
structure ShellResult.Alike (r r' : ShellResult) : Prop where
  response : r.response = r'.response
  twins : r.world.Twins r'.world
  cwd : r.shell.cwd = r'.shell.cwd
  pending : ∀ prompt, r.response = .ok (.awaiting prompt) → ∃ k k', r.shell.pending = some k ∧
    r'.shell.pending = some k' ∧ Lockstep (fun _ a b => a = b) r.shell.cwd (.ask prompt k) (.ask prompt k')

variable {s s' : Shell} {w w' : World} {r r' : ShellResult}

theorem Shell.advance_alike {p q : Program String}
    (alike : RunsAlike (fun _ a b => a = b) (p.run ⟨w, s.cwd⟩) (q.run ⟨w', s'.cwd⟩)) :
    (s.advance w p).Alike (s'.advance w' q) := by
  unfold Shell.advance
  generalize p.run ⟨w, s.cwd⟩ = run at alike
  generalize q.run ⟨w', s'.cwd⟩ = run' at alike
  obtain ⟨outcome, m⟩ := run
  obtain ⟨outcome', m'⟩ := run'
  obtain ⟨same, twins, cwd⟩ := alike
  cases same with
  | finished result =>
    cases result
    exact ⟨rfl, twins, cwd, by simp⟩
  | failed => exact ⟨rfl, twins, cwd, by simp⟩
  | waiting rest =>
    refine ⟨rfl, twins, cwd, ?_⟩
    rintro prompt same
    obtain rfl : _ = prompt := by simpa using same
    exact ⟨_, _, rfl, rfl, rest⟩

/-- An answer that opens the path asked for in both runs or in neither keeps them alike. -/
theorem ShellResult.Alike.resume {answer : Answer} (alike : r.Alike r') {prompt : Prompt}
    (waits : r.response = .ok (.awaiting prompt))
    (agreed : ∀ label, prompt = Verb.passwordPrompt label → r.opens label answer = r'.opens label answer) :
    (r.shell.resume r.world answer).Alike (r'.shell.resume r'.world answer) := by
  obtain ⟨k, k', pending, pending', rest⟩ := alike.pending prompt waits
  simp only [Shell.resume, pending, pending']
  refine Shell.advance_alike ?_
  rw [← alike.cwd]
  refine rest.answer alike.twins fun label isPassword => ?_
  have same := agreed label isPassword
  rwa [ShellResult.opens, ShellResult.opens, ← alike.cwd] at same

theorem Context.load_discreet (identity : String) : Discreet c (Context.load identity) := by
  have reset (c : String) : Discreet c (do
      Program.changeDirectory "/"
      Program.write (Key.cwd identity) (.text "/") : Program Unit) :=
    (Lockstep.changeDirectory "/").bind fun _ _ _ _ => (Lockstep.write _ _).mono fun _ _ _ _ => rfl
  have fetched : Lockstep (fun _ v v' => v = v') c (Program.fetch (Key.cwd identity)) (Program.fetch (Key.cwd identity)) :=
    .get fun _ _ alike => .done (Store.find_congr alike (Key.apart_cwd_passwordPlace identity))
  refine fetched.bind ?_
  rintro c' v v' rfl
  cases v with
  | text path =>
    dsimp only
    split
    · exact (Lockstep.changeDirectory path).mono fun _ _ _ _ => rfl
    · exact reset c'
  | _ => exact reset c'

/-- Getting ready for a line comes to the same error on twins, or to the same shell. -/
theorem Shell.begin_alike (s : Shell) (twins : w.Twins w') (line : String) :
    (∃ error s₁ w₁ w₁', s.begin w line none = (.error error, s₁, w₁) ∧
      s.begin w' line none = (.error error, s₁, w₁') ∧ w₁.Twins w₁') ∨
    (∃ s₁ w₁ w₁', s.begin w line none = (.ok (), s₁, w₁) ∧ s.begin w' line none = (.ok (), s₁, w₁') ∧
      w₁.Twins w₁') := by
  have loading : (∃ error s₁ w₁ w₁', s.ensureLoaded w = (.error error, s₁, w₁) ∧
      s.ensureLoaded w' = (.error error, s₁, w₁') ∧ w₁.Twins w₁') ∨
      (∃ s₁ w₁ w₁', s.ensureLoaded w = (.ok (), s₁, w₁) ∧ s.ensureLoaded w' = (.ok (), s₁, w₁') ∧
        w₁.Twins w₁') := by
    unfold ensureLoaded load
    split
    · exact .inr ⟨s, w, w', rfl, rfl, twins⟩
    · obtain ⟨result, after, cwd⟩ := (Context.load_discreet s.identity).cancelled twins
      dsimp only
      rcases result with ⟨error, failed, failed'⟩ | ⟨_, _, done, done', -⟩
      · rw [failed, failed', ← cwd]
        exact .inl ⟨error, _, _, _, rfl, rfl, after⟩
      · rw [done, done', ← cwd]
        exact .inr ⟨_, _, _, rfl, rfl, after⟩
  unfold begin
  split
  · exact .inl ⟨_, _, _, _, rfl, rfl, twins⟩
  · rcases loading with ⟨error, s₁, w₁, w₁', failed, failed', after⟩ | ⟨s₁, w₁, w₁', done, done', after⟩
    · rw [failed, failed']
      exact .inl ⟨_, _, _, _, rfl, rfl, after⟩
    · rw [done, done']
      simp only [abandon]
      split
      · exact .inr ⟨_, _, _, rfl, rfl, (after.record _).record _⟩
      · exact .inr ⟨_, _, _, rfl, rfl, after.record _⟩

theorem Shell.exec_alike (s : Shell) (twins : w.Twins w') (line : String) :
    (s.exec w line none).Alike (s.exec w' line none) := by
  unfold exec
  rcases s.begin_alike twins line with ⟨error, s₁, w₁, w₁', failed, failed', after⟩ | ⟨s₁, w₁, w₁', done, done', after⟩
  · rw [failed, failed']
    exact ⟨rfl, after, rfl, by simp⟩
  · rw [done, done']
    exact advance_alike ((Pipeline.run_discreet s₁.identity line).run after)

theorem ShellResult.head_answered (r : ShellResult) (answers : List Answer) :
    (r.answered answers)[0]? = some r := by
  cases answers with
  | nil => rfl
  | cons answer rest =>
    rw [answered]
    split <;> rfl

/-- Answers that open the paths asked for in both runs or in neither keep two runs alike to their ends. -/
theorem ShellResult.Alike.answered (answers : List Answer) (alike : r.Alike r')
    (agreed : ∀ (i : Nat) q q' label answer, (r.answered answers)[i]? = some q →
      (r'.answered answers)[i]? = some q' → answers[i]? = some answer →
      q.response = .ok (.awaiting (Verb.passwordPrompt label)) → q.opens label answer = q'.opens label answer) :
    (r.answered answers).map (·.response) = (r'.answered answers).map (·.response) ∧
      (r.answered answers).map (·.world.backend.store.blanked) =
        (r'.answered answers).map (·.world.backend.store.blanked) := by
  have response := alike.response
  have stores := alike.twins.stores
  induction answers generalizing r r' with
  | nil => simp [ShellResult.answered, response, stores]
  | cons answer rest ih =>
    by_cases waits : ∃ prompt, r.response = .ok (.awaiting prompt)
    · obtain ⟨prompt, waits⟩ := waits
      have waits' : r'.response = .ok (.awaiting prompt) := response ▸ waits
      have unfolded : r.answered (answer :: rest) = r :: (r.shell.resume r.world answer).answered rest := by
        rw [ShellResult.answered, waits]
      have unfolded' : r'.answered (answer :: rest) = r' :: (r'.shell.resume r'.world answer).answered rest := by
        rw [ShellResult.answered, waits']
      rw [unfolded, unfolded'] at agreed ⊢
      have next : (r.shell.resume r.world answer).Alike (r'.shell.resume r'.world answer) :=
        alike.resume waits fun label isPassword => agreed 0 r r' label answer rfl rfl rfl (isPassword ▸ waits)
      have later := ih next (fun i => agreed (i + 1)) next.response next.twins.stores
      simp [response, stores, later]
    · have ended : r.answered (answer :: rest) = [r] := by
        rw [ShellResult.answered]
        split
        · next prompt same => exact absurd ⟨prompt, same⟩ waits
        · rfl
      have ended' : r'.answered (answer :: rest) = [r'] := by
        rw [ShellResult.answered]
        split
        · next prompt same => exact absurd ⟨prompt, response ▸ same⟩ waits
        · rfl
      rw [ended, ended']
      simp [response, stores]

/-- Passwords stay confidential: on stores that are the same up to passwords, a line without elevation and
the answers to its prompts lead to the same prompts and the same reply, and to stores that are again the
same up to passwords, provided that every answer to the prompt for a password opens the path asked for in
both runs or in neither. -/
theorem Shell.conversation_same (s : Shell) (w : World) (t : Store) (line : String) (answers : List Answer)
    (twins : w.backend.store.blanked = t.blanked)
    (agreed : ∀ (i : Nat) r r' label answer, (s.conversation w line none answers)[i]? = some r →
      (s.conversation (w.withStore t) line none answers)[i]? = some r' → answers[i]? = some answer →
      r.response = .ok (.awaiting (Verb.passwordPrompt label)) → r.opens label answer = r'.opens label answer) :
    (s.conversation w line none answers).map (·.response) =
        (s.conversation (w.withStore t) line none answers).map (·.response) ∧
      (s.conversation w line none answers).map (·.world.backend.store.blanked) =
        (s.conversation (w.withStore t) line none answers).map (·.world.backend.store.blanked) := by
  have worlds : w.Twins (w.withStore t) := ⟨twins, rfl, rfl, rfl⟩
  exact (s.exec_alike worlds line).answered answers agreed

/-- A wrong guess at two different passwords is refused in the same way. -/
theorem Shell.conversation_same_after_wrong_guess :
    let s : Shell := { identity := "alice", loaded := true }
    let tree (password : String) : Store :=
      ⟨[("shellFS", .mapping [("a", .text "x"), ("__PASSWORDS__", .mapping [("a", .text password)])])]⟩
    let w : World := { backend := { store := tree "one" } }
    (tree "one").blanked = (tree "two").blanked ∧
      (s.conversation w "cat /a" none [some "guess"]).map (·.response) =
        (s.conversation (w.withStore (tree "two")) "cat /a" none [some "guess"]).map (·.response) := by
  intro s tree w
  have twins : (tree "one").blanked = (tree "two").blanked := by decide
  refine ⟨twins, (s.conversation_same w (tree "two") "cat /a" [some "guess"] twins ?_).1⟩
  intro i r r' label answer first first' given asks
  cases i with
  | zero =>
    obtain rfl : s.exec w "cat /a" none = r := by
      simpa [conversation, ShellResult.head_answered] using first
    obtain rfl : s.exec (w.withStore (tree "two")) "cat /a" none = r' := by
      simpa [conversation, ShellResult.head_answered] using first'
    obtain rfl : some "guess" = answer := by simpa using given
    have prompted : (s.exec w "cat /a" none).response.toOption = some (.awaiting (Verb.passwordPrompt "/a")) := by
      decide +kernel
    obtain rfl : "/a" = label := by
      rw [asks] at prompted
      simpa [Except.toOption, Verb.passwordPrompt_inj, eq_comm] using prompted
    have wrong : (s.exec w "cat /a" none).opens "/a" (some "guess") = false := by decide +kernel
    have wrong' : (s.exec (w.withStore (tree "two")) "cat /a" none).opens "/a" (some "guess") = false := by
      decide +kernel
    rw [wrong, wrong']
  | succ i => simp at given

end TreeShell
