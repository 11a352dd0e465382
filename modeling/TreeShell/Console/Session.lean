import TreeShell.Chat
import TreeShell.Console.Editor

/-! # The console

A console reads command lines of one identity from a connection and shows their replies, until `exit`,
`logout` or the end of input. It asks for the elevation password without echo, answers the prompts of a
command in line, and reports a failing store on one line before it goes on. Each turn takes input, so
the console ends on every input; at its end the channel is closed.
-/

namespace TreeShell.Console

/-- The name of the host in the line that asks for a command. -/
def hostName : String := "chatshell"

/-- Reads the answer to a prompt. -/
def readAnswer (broken : Bool) (prompt : Prompt) (bytes : List UInt8) : AnswerRead :=
  if prompt.kind = .edit then editText broken prompt.label prompt.initial bytes
  else
    let r := readLine (prompt.kind ≠ .secret) broken bytes
    let outcome :=
      match r.outcome with
      | .line text => AnswerEnd.answer (some text)
      | .interrupted => .answer none
      | .ended reason => .ended reason
    ⟨outcome, Utf8.encode (prompt.label ++ " ") ++ r.sent, r.rest⟩

/-- An answer takes at least one byte. -/
theorem readAnswer_rest_lt {broken : Bool} {prompt : Prompt} {bytes : List UInt8} {text : Option String}
    (h : (readAnswer broken prompt bytes).outcome = .answer text) :
    (readAnswer broken prompt bytes).rest.length < bytes.length := by
  unfold readAnswer at h ⊢
  split at h
  · next edit =>
    simp only [edit, if_true]
    rcases editFrom_rest_lt broken prompt.initial [] bytes with less | ⟨reason, ended, _⟩
    · exact less
    · simp [editText, ended] at h
  · next other =>
    simp only [other, if_false] at h ⊢
    apply readLine_rest_lt
    intro reason ended
    rw [ended] at h
    cases h

/-- Reading an answer never adds bytes. -/
theorem readAnswer_rest_le (broken : Bool) (prompt : Prompt) (bytes : List UInt8) :
    (readAnswer broken prompt bytes).rest.length ≤ bytes.length := by
  unfold readAnswer
  split
  · rcases editFrom_rest_lt broken prompt.initial [] bytes with less | ⟨_, _, le⟩
    · exact Nat.le_of_lt less
    · exact le
  · exact readLine_rest_le

/-- How a command came out. -/
inductive CommandEnd where
  | replied (text : String)
  | failed (error : ShellError)
  /-- The input ended at a prompt. -/
  | ended
deriving DecidableEq, Repr

/-- A command with its prompts answered. -/
structure CommandRun where
  chat : Chat
  outcome : CommandEnd
  sent : List UInt8
  rest : List UInt8

/-- Answers the prompts of a command from the input until it ends. -/
def finishCommand (broken : Bool) (identity : String) (c : Chat) (response : Except ShellError Response)
    (bytes : List UInt8) : CommandRun :=
  match response with
  | .error error => ⟨c, .failed error, [], bytes⟩
  | .ok (.reply text) => ⟨c, .replied text, [], bytes⟩
  | .ok (.awaiting prompt) =>
    match _h : (readAnswer broken prompt bytes).outcome with
    | .ended _ => ⟨c, .ended, (readAnswer broken prompt bytes).sent, (readAnswer broken prompt bytes).rest⟩
    | .answer text =>
      let next := c.respond identity text
      let later := finishCommand broken identity next.2 next.1 (readAnswer broken prompt bytes).rest
      { later with sent := (readAnswer broken prompt bytes).sent ++ later.sent }
termination_by bytes.length
decreasing_by exact readAnswer_rest_lt _h

/-- Answering prompts never adds bytes. -/
theorem finishCommand_rest_le (broken : Bool) (identity : String) (c : Chat)
    (response : Except ShellError Response) (bytes : List UInt8) :
    (finishCommand broken identity c response bytes).rest.length ≤ bytes.length := by
  fun_induction finishCommand broken identity c response bytes with
  | case1 => exact Nat.le_refl _
  | case2 => exact Nat.le_refl _
  | case3 => exact readAnswer_rest_le ..
  | case4 c bytes prompt text h next later ih =>
    exact Nat.le_trans ih (Nat.le_of_lt (readAnswer_rest_lt h))

/-- Reads the elevation password of a line that asks for elevation. -/
def readPassword (broken : Bool) (identity line : String) (bytes : List UInt8) : AnswerRead :=
  if wantsElevation line then
    readAnswer broken { label := "[" ++ elevationKeyword ++ "] password for " ++ identity ++ ":" } bytes
  else ⟨.answer none, [], bytes⟩

theorem readPassword_rest_le (broken : Bool) (identity line : String) (bytes : List UInt8) :
    (readPassword broken identity line bytes).rest.length ≤ bytes.length := by
  unfold readPassword
  split
  · exact readAnswer_rest_le ..
  · exact Nat.le_refl _

/-- What follows a turn of the console. -/
inductive Next where
  | again
  | stop
  /-- An error that the console does not handle. -/
  | abort (error : ShellError)
deriving DecidableEq, Repr

/-- One turn: the chat afterwards, the bytes sent, the bytes left, and what follows. -/
structure Turn where
  chat : Chat
  sent : List UInt8
  rest : List UInt8
  next : Next

/-- The bytes of a reply; nothing for an empty one. -/
def replyBytes (text : String) : List UInt8 :=
  if text = "" then []
  else
    Utf8.encodeChars (text.toList.flatMap fun c => if c = '\n' then ['\r', '\n'] else [c]) ++ crlf

/-- What the console makes of a command that ended, at the cost of the given bytes. -/
def concludeTurn (identity : String) (sent : List UInt8) (r : CommandRun) : Turn :=
  match r.outcome with
  | .replied text => ⟨r.chat, sent ++ replyBytes text, r.rest, .again⟩
  | .failed (.store error) =>
    ⟨r.chat.record (.storeFailure identity error.message),
      sent ++ sentLine ("shell: storage error: " ++ error.message), r.rest, .again⟩
  | .failed error => ⟨r.chat, sent, r.rest, .abort error⟩
  | .ended => ⟨r.chat, sent, r.rest, .stop⟩

/-- Runs a line that is neither blank nor the end. -/
def runLine (broken : Bool) (identity line : String) (c : Chat) (bytes : List UInt8) : Turn :=
  let p := readPassword broken identity line bytes
  match p.outcome with
  | .ended _ => ⟨c, p.sent, p.rest, .stop⟩
  | .answer password =>
    let started := c.handle identity line password
    let r := finishCommand broken identity started.2 started.1 p.rest
    concludeTurn identity (p.sent ++ r.sent) r

theorem concludeTurn_rest (identity : String) (sent : List UInt8) (r : CommandRun) :
    (concludeTurn identity sent r).rest = r.rest := by
  unfold concludeTurn
  split <;> rfl

/-- Running a line never adds bytes. -/
theorem runLine_rest_le (broken : Bool) (identity line : String) (c : Chat) (bytes : List UInt8) :
    (runLine broken identity line c bytes).rest.length ≤ bytes.length := by
  simp only [runLine]
  split
  · exact readPassword_rest_le ..
  · rw [concludeTurn_rest]
    exact Nat.le_trans (finishCommand_rest_le ..) (readPassword_rest_le ..)

/-- The text that asks for a command. -/
def commandPrompt (identity cwd : String) : String :=
  identity ++ "@" ++ hostName ++ ":" ++ cwd ++ "$ "

/-- A turn with some bytes sent before. -/
def Turn.after (bytes : List UInt8) (t : Turn) : Turn :=
  { t with sent := bytes ++ t.sent }

theorem Turn.rest_after (bytes : List UInt8) (t : Turn) : (t.after bytes).rest = t.rest :=
  rfl

/-- Deals with what was read after the given bytes were sent. -/
def takeLine (broken : Bool) (identity : String) (c : Chat) (shown : List UInt8) (r : LineRead) : Turn :=
  match r.outcome with
  | .ended _ => ⟨c, shown ++ r.sent, r.rest, .stop⟩
  | .interrupted => ⟨c, shown ++ r.sent, r.rest, .again⟩
  | .line text =>
    let line := Text.trim text
    if line = "" then ⟨c, shown ++ r.sent, r.rest, .again⟩
    else if line = "exit" ∨ line = "logout" then ⟨c, shown ++ r.sent ++ sentLine "logout", r.rest, .stop⟩
    else (runLine broken identity line c r.rest).after (shown ++ r.sent)

theorem takeLine_rest_le (broken : Bool) (identity : String) (c : Chat) (shown : List UInt8) (r : LineRead) :
    (takeLine broken identity c shown r).rest.length ≤ r.rest.length := by
  unfold takeLine
  split
  · exact Nat.le_refl _
  · exact Nat.le_refl _
  · dsimp only
    split
    · exact Nat.le_refl _
    · split
      · exact Nat.le_refl _
      · rw [Turn.rest_after]
        exact runLine_rest_le broken identity (Text.trim _) c r.rest

theorem takeLine_of_ended {broken : Bool} {identity : String} {c : Chat} {shown : List UInt8} {r : LineRead}
    {reason : InputEnd} (h : r.outcome = .ended reason) :
    (takeLine broken identity c shown r).next = .stop := by
  unfold takeLine
  rw [h]

/-- Asks for a line and deals with it. -/
def turn (broken : Bool) (identity : String) (c : Chat) (bytes : List UInt8) : Turn :=
  takeLine broken identity c (Utf8.encode (commandPrompt identity (c.shellOf identity).cwd))
    (readLine true broken bytes)

/-- A turn that is followed by another takes at least one byte. -/
theorem turn_rest_lt {broken : Bool} {identity : String} {c : Chat} {bytes : List UInt8}
    (h : (turn broken identity c bytes).next = .again) :
    (turn broken identity c bytes).rest.length < bytes.length := by
  refine Nat.lt_of_le_of_lt (takeLine_rest_le ..) (readLine_rest_lt fun reason ended => ?_)
  rw [turn, takeLine_of_ended ended] at h
  cases h

/-- A whole console: the chat afterwards, the bytes sent, the bytes left, the error that broke it off if
there was one, and whether the channel is closed. -/
structure Run where
  chat : Chat
  sent : List UInt8
  rest : List UInt8
  failure : Option ShellError := none
  closed : Bool := false

/-- Takes turns until the console ends. -/
def takeTurns (broken : Bool) (identity : String) (c : Chat) (bytes : List UInt8) : Run :=
  let t := turn broken identity c bytes
  match _h : t.next with
  | .stop => { chat := t.chat, sent := t.sent, rest := t.rest }
  | .abort error => { chat := t.chat, sent := t.sent, rest := t.rest, failure := some error }
  | .again =>
    let later := takeTurns broken identity t.chat t.rest
    { later with sent := t.sent ++ later.sent }
termination_by bytes.length
decreasing_by exact turn_rest_lt _h

/-- The greeting of a console. -/
def greeting (identity : String) : List UInt8 :=
  crlf ++ Utf8.encode ("Signed in as " ++ identity ++ ". Type 'help' for commands.") ++ crlf ++ crlf

/-- Makes sure that the working directory of an identity is known, and logs a failing store. -/
def prepare (identity : String) (c : Chat) : Chat :=
  match (c.shellOf identity).ensureLoaded c.world with
  | (.ok (), shell, world) => c.withShell shell world
  | (.error error, shell, world) =>
    (c.withShell shell world).record (.storeFailure identity error.message)

/-- The console closes its channel. -/
def Run.close (r : Run) : Run :=
  { r with closed := true }

/-- Runs a console of an identity, and closes the channel however its turns came to their end. -/
def run (identity : String) (c : Chat) (input : Input) : Run :=
  let r := takeTurns input.broken identity (prepare identity c) input.bytes
  Run.close { r with sent := greeting identity ++ r.sent }

end TreeShell.Console
