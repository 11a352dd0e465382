import TreeShell.Console.Session
import TreeShell.Proofs.Chat.Requests

/-! # What a turn of the console comes to

In a turn the console may read a command (`command?`), which it hands to the chat and whose prompts it answers from the
input. `turnCalls` lists the calls on the store that this takes. If one of them fails, the command fails with it, which the
console says on one line before it goes on; only a digest that is not ASCII breaks the console off (`took`).
-/

namespace TreeShell.Console

/-- The calls on the store that the answers to the prompts of a command make. -/
def answerCalls (broken : Bool) (identity : String) (c : Chat) (response : Except ShellError Response)
    (bytes : List UInt8) : List StoreCall :=
  match response with
  | .error _ => []
  | .ok (.reply _) => []
  | .ok (.awaiting prompt) =>
    match _h : (readAnswer broken prompt bytes).outcome with
    | .ended _ => []
    | .answer text =>
      c.calls (.respond identity text) ++
        answerCalls broken identity (c.respond identity text).2 (c.respond identity text).1
          (readAnswer broken prompt bytes).rest
termination_by bytes.length
decreasing_by exact readAnswer_rest_lt _h

/-- A command that was read, with the password for its elevation. -/
structure Command where
  line : String
  password : Answer
  /-- What was sent up to here. -/
  shown : List UInt8
  rest : List UInt8

/-- The command that is read in a turn, unless the line is blank, or given up, or the end. -/
def command? (broken : Bool) (identity : String) (c : Chat) (bytes : List UInt8) : Option Command :=
  let r := readLine true broken bytes
  match r.outcome with
  | .line text =>
    let line := Text.trim text
    if line = "" ∨ line = "exit" ∨ line = "logout" then none
    else
      let p := readPassword broken identity line r.rest
      match p.outcome with
      | .ended _ => none
      | .answer password =>
        some ⟨line, password, Utf8.encode (commandPrompt identity (c.shellOf identity).cwd) ++ r.sent ++ p.sent, p.rest⟩
  | _ => none

/-- The message to the chat that a command is. -/
def Command.step (k : Command) (identity : String) : Chat.Step :=
  .handle identity k.line k.password

/-- A command with its prompts answered. -/
def Command.run (k : Command) (broken : Bool) (identity : String) (c : Chat) : CommandRun :=
  finishCommand broken identity (c.step (k.step identity)).2 (c.step (k.step identity)).1 k.rest

/-- The calls on the store that a turn makes. -/
def turnCalls (broken : Bool) (identity : String) (c : Chat) (bytes : List UInt8) : List StoreCall :=
  match command? broken identity c bytes with
  | none => []
  | some k =>
    c.calls (k.step identity) ++
      answerCalls broken identity (c.step (k.step identity)).2 (c.step (k.step identity)).1 k.rest

/-- The error of the store with which a command came out, if it failed. -/
def CommandEnd.storeErrors : CommandEnd → List StoreError
  | .failed (.store error) => [error]
  | _ => []

variable {broken : Bool} {identity : String} {c : Chat} {bytes : List UInt8} {k : Command}

/-! ## Turns and commands -/

/-- A turn with a command is concluded as the command comes out. -/
theorem turn_of_command (found : command? broken identity c bytes = some k) :
    turn broken identity c bytes =
      concludeTurn identity (k.shown ++ (k.run broken identity c).sent) (k.run broken identity c) := by
  have concludes (before sent : List UInt8) (r : CommandRun) :
      (concludeTurn identity sent r).after before = concludeTurn identity (before ++ sent) r := by
    rw [concludeTurn, concludeTurn]
    split <;> simp [Turn.after]
  rw [command?] at found
  rw [turn, takeLine]
  split at found
  · next text read =>
    rw [read]
    dsimp only at found ⊢
    split at found
    · cases found
    · next runs =>
      rw [not_or] at runs
      split at found
      · cases found
      · next password given =>
        obtain rfl := Option.some.inj found
        rw [if_neg runs.1, if_neg runs.2, runLine, given]
        dsimp only
        rw [concludes, ← List.append_assoc, Command.run, Command.step, Chat.step]
  · cases found

theorem turnCalls_of_command (found : command? broken identity c bytes = some k) :
    turnCalls broken identity c bytes =
      c.calls (k.step identity) ++
        answerCalls broken identity (c.step (k.step identity)).2 (c.step (k.step identity)).1 k.rest := by
  rw [turnCalls, found]

/-- A turn without a command leaves the chat alone. -/
theorem turn_of_no_command (nothing : command? broken identity c bytes = none) :
    (turn broken identity c bytes).chat = c ∧
      ((turn broken identity c bytes).next = .again ∨ (turn broken identity c bytes).next = .stop) := by
  rw [command?] at nothing
  rw [turn, takeLine]
  split
  · exact ⟨rfl, .inr rfl⟩
  · exact ⟨rfl, .inl rfl⟩
  · next text read =>
    rw [read] at nothing
    dsimp only at nothing ⊢
    split
    · exact ⟨rfl, .inl rfl⟩
    · next filled =>
      split
      · exact ⟨rfl, .inr rfl⟩
      · next goesOn =>
        rw [if_neg (not_or.mpr ⟨filled, goesOn⟩)] at nothing
        split at nothing
        · next reason ended =>
          rw [runLine, ended]
          exact ⟨rfl, .inr rfl⟩
        · cases nothing

/-! ## Commands -/

/-- What is known of a command whose prompts were answered, from a response to it on. -/
structure Finished (broken : Bool) (identity : String) (c : Chat) (response : Except ShellError Response)
    (bytes : List UInt8) (r : CommandRun) : Prop where
  went : c.Went identity (answerCalls broken identity c response bytes) r.chat
  met : TreeShell.storeErrors response ++ c.world.backend.errors (answerCalls broken identity c response bytes) =
    r.outcome.storeErrors
  store : c.gate.IsAscii → (∀ error, response = .error error → ∃ e, error = .store e) →
    ∀ error, r.outcome = .failed error → ∃ e, error = .store e
  /-- After an error nothing waits, unless the response was that error. -/
  dropped : ∀ error, r.outcome = .failed error →
    (r.chat.shellOf identity).pending = none ∨ response = .error error ∧ r.chat = c

theorem finished (settled : c.Settled) (filled : identity ≠ "") (response : Except ShellError Response)
    (bytes : List UInt8) :
    Finished broken identity c response bytes (finishCommand broken identity c response bytes) := by
  -- along the answers, each of which the chat takes as a step of its own
  fun_induction finishCommand broken identity c response bytes with
  | case1 c bytes error =>
    have calls : answerCalls broken identity c (.error error) bytes = [] := by rw [answerCalls]
    refine ⟨calls ▸ .refl identity settled, ?_, fun _ store other failed => ?_, fun other failed => .inr ?_⟩
    · rw [calls, Backend.errors, List.append_nil]
      cases error <;> rfl
    · obtain rfl := CommandEnd.failed.inj failed
      exact store error rfl
    · obtain rfl := CommandEnd.failed.inj failed
      exact ⟨rfl, rfl⟩
  | case2 c bytes text =>
    have calls : answerCalls broken identity c (.ok (.reply text)) bytes = [] := by rw [answerCalls]
    refine ⟨calls ▸ .refl identity settled, ?_, fun _ _ => ?_, ?_⟩
    · rw [calls]
      rfl
    · rintro _ ⟨⟩
    · rintro _ ⟨⟩
  | case3 c bytes prompt reason ended =>
    have calls : answerCalls broken identity c (.ok (.awaiting prompt)) bytes = [] := by
      rw [answerCalls]
      split
      · rfl
      · next given => cases ended.symm.trans given
    refine ⟨calls ▸ .refl identity settled, ?_, fun _ _ => ?_, ?_⟩
    · rw [calls]
      rfl
    · rintro _ ⟨⟩
    · rintro _ ⟨⟩
  | case4 c bytes prompt text given next later ih =>
    have calls : answerCalls broken identity c (.ok (.awaiting prompt)) bytes =
        c.calls (.respond identity text) ++
          answerCalls broken identity next.2 next.1 (readAnswer broken prompt bytes).rest := by
      rw [answerCalls]
      split
      · next ended => cases ended.symm.trans given
      · next given' =>
        obtain rfl := AnswerEnd.answer.inj (given.symm.trans given')
        rfl
    have own : (Chat.Step.respond identity text).identity ≠ "" := filled
    have answered := settled.answered own
    have went : c.Went identity (c.calls (.respond identity text)) next.2 := settled.went_step own
    obtain ⟨goes, met, store, dropped⟩ := ih went.settled
    refine ⟨calls ▸ went.trans goes, ?_, fun ascii _ => store (went.gate ▸ ascii) (answered.store ascii),
      fun error failed => .inl ?_⟩
    · rw [calls, Backend.errors_append, ← went.world.backend, answered.met]
      exact met
    · rcases dropped error failed with nothing | ⟨response, same⟩
      · exact nothing
      · change (later.chat.shellOf identity).pending = none
        rw [same]
        rcases answered.dropped error response with nothing | ⟨unreached, -⟩
        · exact nothing
        · rw [Chat.request?_respond filled] at unreached
          cases unreached

/-! ## Turns -/

/-- What a turn comes to. -/
inductive Took (broken : Bool) (identity : String) (c : Chat) (bytes : List UInt8) : Prop
  /-- No call fails, and no command does. -/
  | calm (met : c.world.backend.errors (turnCalls broken identity c bytes) = [])
    (succeeds : ∀ k error, command? broken identity c bytes = some k → (k.run broken identity c).outcome ≠ .failed error)
    (next : (turn broken identity c bytes).next = .again ∨ (turn broken identity c bytes).next = .stop)
    (went : c.Went identity (turnCalls broken identity c bytes) (turn broken identity c bytes).chat)
  /-- One call fails, and the command with it; nothing waits any more, unless the command had not reached the shell. -/
  | failed (k : Command) (error : StoreError) (found : command? broken identity c bytes = some k)
    (met : c.world.backend.errors (turnCalls broken identity c bytes) = [error])
    (told : turn broken identity c bytes =
      ⟨(k.run broken identity c).chat.record (.storeFailure identity error.message),
        k.shown ++ (k.run broken identity c).sent ++ sentLine ("shell: storage error: " ++ error.message),
        (k.run broken identity c).rest, .again⟩)
    (went : c.Went identity (turnCalls broken identity c bytes) (k.run broken identity c).chat)
    (dropped : ((k.run broken identity c).chat.shellOf identity).pending = none ∨
      c.request? (k.step identity) = none ∧ (k.run broken identity c).chat.shells = c.shells)

/-- What a turn comes to in which the digest cannot be compared, which the console does not handle. -/
structure Aborted (broken : Bool) (identity : String) (c : Chat) (bytes : List UInt8) (error : ShellError) : Prop where
  unlike : ¬ c.gate.IsAscii
  met : c.world.backend.errors (turnCalls broken identity c bytes) = []
  next : (turn broken identity c bytes).next = .abort error
  went : c.Went identity (turnCalls broken identity c bytes) (turn broken identity c bytes).chat

theorem took (settled : c.Settled) (filled : identity ≠ "") (broken : Bool) (bytes : List UInt8) :
    Took broken identity c bytes ∨ ∃ error, Aborted broken identity c bytes error := by
  cases found : command? broken identity c bytes with
  | none =>
    obtain ⟨same, next⟩ := turn_of_no_command found
    have calls : turnCalls broken identity c bytes = [] := by rw [turnCalls, found]
    refine .inl (.calm (calls ▸ rfl) (fun k error there => ?_) next ?_)
    · cases found.symm.trans there
    · rw [calls, same]
      exact .refl identity settled
  | some k =>
    have own : (k.step identity).identity ≠ "" := filled
    have answered := settled.answered own
    have started : c.Went identity (c.calls (k.step identity)) (c.step (k.step identity)).2 := settled.went_step own
    obtain ⟨went, met, store, dropped⟩ : Finished broken identity _ _ _ (k.run broken identity c) :=
      finished started.settled filled _ k.rest
    have turned := turn_of_command found
    have calls := turnCalls_of_command found
    have all := started.trans went
    have errors : c.world.backend.errors (turnCalls broken identity c bytes) =
        (k.run broken identity c).outcome.storeErrors := by
      rw [calls, Backend.errors_append, answered.met, ← started.world.backend, met]
    rw [← calls] at all
    rw [concludeTurn] at turned
    cases outcome : (k.run broken identity c).outcome with
    | failed error =>
      cases error with
      | store e =>
        rw [outcome] at turned errors
        refine .inl (.failed k e found errors turned all ?_)
        rcases dropped (.store e) outcome with nothing | ⟨failed, same⟩
        · exact .inl nothing
        · rw [same]
          exact answered.dropped (.store e) failed
      | notSignedIn | gate =>
        -- the errors that the store does not raise; if the digest is ASCII, the response is none of them
        have unlike (ascii : c.gate.IsAscii) : False := by
          obtain ⟨e, differs⟩ := store (started.gate ▸ ascii) (answered.store ascii) _ outcome
          cases differs
        rw [outcome] at turned errors
        dsimp only at turned
        refine .inr ⟨_, unlike, errors, congrArg Turn.next turned, ?_⟩
        rw [turned]
        exact all
    | replied text | ended =>
      rw [outcome] at turned errors
      refine .inl (.calm errors (fun k' error there => ?_) ?_ ?_)
      · obtain rfl := Option.some.inj (found.symm.trans there)
        rw [outcome]
        nofun
      · simp [turned]
      · rw [turned]
        exact all

end TreeShell.Console
