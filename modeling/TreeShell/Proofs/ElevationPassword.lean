import TreeShell.Proofs.Console.Commands
import TreeShell.Proofs.Console.Typed
import TreeShell.Proofs.ElevationDetection

/-! # Asking for the elevation password

The console looks for the elevation keyword in the line as it was typed, and the chat in the command, for which the mark at
the start of the line is dropped. The mark hides a keyword right behind it from the console (`HidesElevation`), and nothing
else does (`wantsElevation_commandOf_iff`). So the password that the chat checks is the one that the console has asked for,
but for such a line, which is checked with none (`Console.password_asked_iff`).
-/

namespace TreeShell

open Pipeline (Part)
open Text (firstWord firstWords)

variable {message : String}

/-! ## The mark -/

theorem wantsElevation_iff_mem (line : String) :
    wantsElevation line = true ↔ elevationKeyword.toList ∈ firstWords '|' line.toList := by
  rw [← Text.map_firstWord_split, List.mem_map, wantsElevation, List.any_eq_true]
  exact exists_congr fun stage => and_congr_right fun _ => Part.asksElevation_iff stage

/-- Whether a message begins with the mark. -/
def IsMarked (message : String) : Prop :=
  Text.startsWith (String.ofList ((Text.trim message).toList.map Char.toLower)) messageMark = true

instance (message : String) : Decidable (IsMarked message) :=
  inferInstanceAs (Decidable (_ = true))

theorem commandOf_of_not_isMarked (plain : ¬ IsMarked message) : commandOf message = Text.trim message := by
  rw [commandOf]
  exact if_neg plain

/-- In a marked message the first word is not the keyword, and the command has the other first words. -/
theorem firstWords_of_isMarked (marked : IsMarked message) : ∃ first later,
    firstWords '|' (commandOf message).toList = firstWord first :: later ∧
      ∃ word, word ≠ elevationKeyword.toList ∧ firstWords '|' message.toList = word :: later := by
  have dropped : commandOf message = Text.trim (String.ofList ((Text.trim message).toList.drop messageMark.length)) := by
    rw [commandOf]
    exact if_pos marked
  obtain ⟨-, -, -, -, -, solid⟩ := Text.exists_trim message
  have prefixed := Text.startsWith_iff.mp marked
  rw [String.toList_ofList, List.prefix_iff_eq_take, String.length_toList, ← List.map_take] at prefixed
  rw [dropped, Text.firstWords_trim (by decide), String.toList_ofList, ← Text.firstWords_trim (by decide) message]
  have whole := List.take_append_drop messageMark.length (Text.trim message).toList
  generalize (Text.trim message).toList.take messageMark.length = mark at prefixed whole
  generalize (Text.trim message).toList.drop messageMark.length = rest at whole ⊢
  rw [← whole] at solid ⊢
  have free : '|' ∉ mark := fun member => by
    have lowered : '|' ∈ messageMark.toList := prefixed ▸ List.mem_map_of_mem member
    exact absurd lowered (by decide)
  obtain ⟨first, later, pieces⟩ := Text.exists_firstWords '|' rest
  refine ⟨first, later, pieces [] List.not_mem_nil, firstWord (mark ++ first), fun same => ?_, pieces mark free⟩
  -- the first character of the mark is no blank, and not that of the keyword
  cases mark with
  | nil => exact absurd prefixed (by decide)
  | cons c letters =>
    have slash : c.toLower = '/' := (List.cons.inj prefixed).1.symm
    have visible : Text.isBlank c = false := solid c rfl
    rw [List.cons_append, firstWord, List.dropWhile_cons_of_neg (by simp [visible]),
      List.takeWhile_cons_of_pos (by simp [visible])] at same
    obtain rfl : c = 's' := (List.cons.inj same).1
    exact absurd slash (by decide)

/-- Whether the mark of a line hides from the console that the line asks for elevation: the command of a marked line begins
with the keyword, and no later stage does. -/
structure HidesElevation (line : String) : Prop where
  marked : IsMarked line
  first : ∃ stage, (Text.split '|' (commandOf line)).head? = some stage ∧ (Part.stage stage).asksElevation = true
  alone : ∀ stage ∈ (Text.split '|' line).tail, (Part.stage stage).asksElevation = false

theorem hidesElevation_iff (line : String) : HidesElevation line ↔ IsMarked line ∧
    (firstWords '|' (commandOf line).toList).head? = some elevationKeyword.toList ∧
      elevationKeyword.toList ∉ (firstWords '|' line.toList).tail := by
  have head : (∃ stage, (Text.split '|' (commandOf line)).head? = some stage ∧ (Part.stage stage).asksElevation = true) ↔
      (firstWords '|' (commandOf line).toList).head? = some elevationKeyword.toList := by
    rw [← Text.map_firstWord_split, List.head?_map, Option.map_eq_some_iff]
    exact exists_congr fun stage => and_congr_right fun _ => Part.asksElevation_iff stage
  have tail : (∀ stage ∈ (Text.split '|' line).tail, (Part.stage stage).asksElevation = false) ↔
      elevationKeyword.toList ∉ (firstWords '|' line.toList).tail := by
    rw [← Text.map_firstWord_split, ← List.map_tail, List.mem_map, not_exists]
    refine forall_congr' fun stage => ?_
    rw [not_and, ← Part.asksElevation_iff, Bool.not_eq_true]
  exact ⟨fun hides => ⟨hides.marked, head.mp hides.first, tail.mp hides.alone⟩,
    fun ⟨marked, first, alone⟩ => ⟨marked, head.mpr first, tail.mpr alone⟩⟩

/-- The command of a line asks for elevation exactly if the line does or its mark hides that. -/
theorem wantsElevation_commandOf_iff (line : String) :
    wantsElevation (commandOf line) = true ↔ wantsElevation line = true ∨ HidesElevation line := by
  rw [wantsElevation_iff_mem, wantsElevation_iff_mem, hidesElevation_iff]
  by_cases marked : IsMarked line
  · obtain ⟨first, later, command, word, differs, whole⟩ := firstWords_of_isMarked marked
    rw [command, whole, List.mem_cons, List.mem_cons, List.head?_cons, List.tail_cons, Option.some_inj,
      or_iff_right differs.symm, and_iff_right marked, or_and_left, and_iff_left (Classical.em _), or_comm, eq_comm]
  · rw [commandOf_of_not_isMarked marked, Text.firstWords_trim (by decide), or_iff_left fun hides => marked hides.1]

/-- What the mark hides is not seen in the line. -/
theorem HidesElevation.wantsElevation_eq_false {line : String} (hides : HidesElevation line) : wantsElevation line = false := by
  rw [Bool.eq_false_iff, ne_eq, wantsElevation_iff_mem]
  obtain ⟨marked, -, alone⟩ := (hidesElevation_iff line).mp hides
  obtain ⟨-, later, -, word, differs, whole⟩ := firstWords_of_isMarked marked
  rw [whole, List.tail_cons] at alone
  rw [whole, List.mem_cons, not_or]
  exact ⟨differs.symm, alone⟩

/-- Without a password a command that asks for elevation is refused. -/
theorem Chat.handle_without_password {c : Chat} {identity : String} (passes : c.PassesBans identity)
    (wants : wantsElevation (commandOf message) = true) :
    (c.handle identity message none).1 = .ok (.reply "Incorrect Sudo Password\nNo command executed") := by
  have filled : commandOf message ≠ "" := fun empty => by
    rw [empty, wantsElevation_empty] at wants
    cases wants
  obtain ⟨world, handled⟩ := handle_of_passesBans passes filled none
  rw [handled, challenge, if_pos wants]
  rfl

/-! ## The console -/

/-- How the reading of a line ends with an answer. -/
def Answer.lineEnd : Answer → Console.LineEnd
  | some text => .line text
  | none => .interrupted

namespace Console

/-- Whether a text is a command when it is typed: it can be typed, and is neither blank nor the end. -/
structure IsCommand (text : String) : Prop where
  typable : IsTypable text
  filled : Text.trim text ≠ ""
  stays : Text.trim text ≠ "exit" ∧ Text.trim text ≠ "logout"

/-- The text that asks for the elevation password. -/
def passwordPrompt (identity : String) : String :=
  "[" ++ elevationKeyword ++ "] password for " ++ identity ++ ":" ++ " "

/-- What the console has sent when a line was typed at it. -/
def shownWith (identity : String) (c : Chat) (text : String) : List UInt8 :=
  Utf8.encode (commandPrompt identity (c.shellOf identity).cwd) ++ (Utf8.encode text ++ crlf)

/-- Whether the console asked for the password of a command, after it had sent `shown` and with the input `rest`: it asks
and reads a line of which it sends nothing back. -/
structure Command.Asked (k : Command) (broken : Bool) (identity : String) (shown rest : List UInt8) : Prop where
  password : (readLine false broken rest).outcome = k.password.lineEnd
  rest : k.rest = (readLine false broken rest).rest
  shown : k.shown = shown ++ (Utf8.encode (passwordPrompt identity) ++ k.password.lineEnd.closing)

/-- Whether the console went on without asking: nothing is sent, nothing is read, and there is no password. -/
structure Command.Unasked (k : Command) (shown rest : List UInt8) : Prop where
  password : k.password = none
  rest : k.rest = rest
  shown : k.shown = shown

variable {broken : Bool} {identity text : String} {c : Chat} {stop : UInt8} {shown rest : List UInt8} {k : Command}

theorem Command.Asked.not_unasked (asked : k.Asked broken identity shown rest) : ¬ k.Unasked shown rest := by
  intro unasked
  have more := asked.shown
  rw [unasked.shown, List.self_eq_append_right, List.append_eq_nil_iff] at more
  have filled : Utf8.encode (passwordPrompt identity) ≠ [] := by
    simp [passwordPrompt, Utf8.encode, Utf8.encodeChars]
  exact filled more.1

/-- A line that is typed, and neither blank nor the end, is a command, unless the input ends where its password is asked for. -/
theorem command?_typed (typed : IsCommand text) (ends : stop = 0x0D ∨ stop = 0x0A) (broken : Bool)
    (identity : String) (c : Chat) (rest : List UInt8) :
    command? broken identity c (Utf8.encode text ++ stop :: rest) =
      match (readPassword broken identity (Text.trim text) rest).outcome with
      | .ended _ => none
      | .answer password => some ⟨Text.trim text, password,
          shownWith identity c text ++ (readPassword broken identity (Text.trim text) rest).sent,
          (readPassword broken identity (Text.trim text) rest).rest⟩ := by
  rw [command?, readLine_typed typed.typable ends]
  dsimp only
  rw [if_neg (not_or.mpr ⟨typed.filled, not_or.mpr typed.stays⟩)]
  generalize readPassword broken identity (Text.trim text) rest = p
  obtain ⟨ended | password, sent, left⟩ := p <;> rfl

/-- The password of a line that asks for elevation is read without echo. -/
theorem readPassword_of_wants {line : String} (wants : wantsElevation line = true) (broken : Bool) (identity : String)
    (rest : List UInt8) : readPassword broken identity line rest =
      ⟨match (readLine false broken rest).outcome with
        | .line text => .answer (some text)
        | .interrupted => .answer none
        | .ended reason => .ended reason,
        Utf8.encode (passwordPrompt identity) ++ (readLine false broken rest).outcome.closing,
        (readLine false broken rest).rest⟩ := by
  rw [readPassword, if_pos wants, ← sent_readLine_silent]
  rfl

/-- What becomes of a line that is typed: a command, with its password asked for or not, or the end. -/
inductive Entered (broken : Bool) (identity : String) (c : Chat) (text : String) (rest : List UInt8) : Option Command → Prop
  | unasked {k : Command} (line : k.line = Text.trim text) (plain : wantsElevation k.line = false)
    (unasked : k.Unasked (shownWith identity c text) rest) : Entered broken identity c text rest (some k)
  | asked {k : Command} (line : k.line = Text.trim text) (wants : wantsElevation k.line = true)
    (asked : k.Asked broken identity (shownWith identity c text) rest) : Entered broken identity c text rest (some k)
  /-- The input ends where the password is asked for. -/
  | ended {reason : InputEnd} (wants : wantsElevation (Text.trim text) = true)
    (ended : (readLine false broken rest).outcome = .ended reason) : Entered broken identity c text rest none

theorem entered (typed : IsCommand text) (ends : stop = 0x0D ∨ stop = 0x0A) (broken : Bool) (identity : String)
    (c : Chat) (rest : List UInt8) :
    Entered broken identity c text rest (command? broken identity c (Utf8.encode text ++ stop :: rest)) := by
  rw [command?_typed typed ends]
  cases wants : wantsElevation (Text.trim text) with
  | false =>
    rw [readPassword, if_neg (by simp [wants])]
    exact .unasked rfl wants ⟨rfl, rfl, List.append_nil _⟩
  | true =>
    rw [readPassword_of_wants wants]
    cases read : (readLine false broken rest).outcome with
    | line password => exact .asked rfl wants ⟨read, rfl, rfl⟩
    | interrupted => exact .asked rfl wants ⟨read, rfl, rfl⟩
    | ended reason => exact .ended wants read

/-- A command whose mark hides that it asks for elevation has no password, so it is refused. -/
theorem Command.Unasked.refused (unasked : k.Unasked shown rest) (hides : HidesElevation k.line)
    (passes : c.PassesBans identity) :
    (c.handle identity k.line k.password).1 = .ok (.reply "Incorrect Sudo Password\nNo command executed") := by
  rw [unasked.password]
  exact Chat.handle_without_password passes ((wantsElevation_commandOf_iff k.line).mpr (.inr hides))

/-- The console asks for the password that the chat checks, unless the mark hides that the line asks for elevation. For
every line that is typed at any chat, and is neither blank nor the end:

- what comes of the turn is what the chat makes of the line, without the blanks around it, and of the password;
- the password was asked for, and read without echo, exactly if the line asks for elevation; otherwise nothing was sent or
  read after the line, and there is no password;
- the chat checks a password for the line exactly if it gets past the ban list, and either the password was asked for or the
  mark hides that the line asks for elevation;
- a line whose mark does so is checked with no password, and refused;
- where the input ends instead of the password, the line does not get to the chat. -/
theorem password_asked_iff (typed : IsCommand text) (ends : stop = 0x0D ∨ stop = 0x0A) (broken : Bool) (identity : String)
    (c : Chat) (rest : List UInt8) :
    (∀ k, command? broken identity c (Utf8.encode text ++ stop :: rest) = some k →
      k.line = Text.trim text ∧
      turn broken identity c (Utf8.encode text ++ stop :: rest) =
        concludeTurn identity (k.shown ++ (k.run broken identity c).sent) (k.run broken identity c) ∧
      (k.Asked broken identity (shownWith identity c text) rest ↔ wantsElevation k.line = true) ∧
      (k.Unasked (shownWith identity c text) rest ↔ wantsElevation k.line = false) ∧
      (c.Checks identity k.line k.password ↔
        c.PassesBans identity ∧ (k.Asked broken identity (shownWith identity c text) rest ∨ HidesElevation k.line)) ∧
      (HidesElevation k.line → k.Unasked (shownWith identity c text) rest ∧ (c.PassesBans identity →
        (c.handle identity k.line k.password).1 = .ok (.reply "Incorrect Sudo Password\nNo command executed")))) ∧
    (command? broken identity c (Utf8.encode text ++ stop :: rest) = none →
      wantsElevation (Text.trim text) = true ∧ (∃ reason, (readLine false broken rest).outcome = .ended reason) ∧
        (turn broken identity c (Utf8.encode text ++ stop :: rest)).chat = c) := by
  have entered := entered typed ends broken identity c rest
  refine ⟨fun k found => ?_, fun nothing => ?_⟩
  · have turned := turn_of_command found
    rw [Chat.checks_iff, wantsElevation_commandOf_iff]
    rw [found] at entered
    cases entered with
    | unasked line plain unasked =>
      have silent : ¬ k.Asked broken identity (shownWith identity c text) rest := fun asked => asked.not_unasked unasked
      exact ⟨line, turned, iff_of_false silent (by simp [plain]), iff_of_true unasked plain, by simp [silent, plain],
        fun hides => ⟨unasked, unasked.refused hides⟩⟩
    | asked line wants asked =>
      have seen (hides : HidesElevation k.line) : False := by
        rw [hides.wantsElevation_eq_false] at wants
        cases wants
      exact ⟨line, turned, iff_of_true asked wants, iff_of_false asked.not_unasked (by simp [wants]), by simp [asked, wants],
        fun hides => (seen hides).elim⟩
  · rw [nothing] at entered
    cases entered with
    | ended wants ended => exact ⟨wants, ⟨_, ended⟩, (turn_of_no_command nothing).1⟩

theorem isCommand_marked : IsCommand "/shell sudo ls" :=
  ⟨by decide, by decide, by decide⟩

theorem hidesElevation_marked : HidesElevation "/shell sudo ls" where
  marked := by decide
  first := ⟨"sudo ls", by decide, by decide⟩
  alone := by decide

/-- The mark of a call hides from the console that the call asks for elevation. -/
theorem password_asked_iff_on_marked_line :
    IsCommand "/shell sudo ls" ∧ Chat.blank.PassesBans "alice" ∧
      ∃ k, command? false "alice" Chat.blank (Utf8.encode "/shell sudo ls" ++ 0x0D :: []) = some k ∧
        k.Unasked (shownWith "alice" Chat.blank "/shell sudo ls") [] ∧
        Chat.blank.Checks "alice" k.line k.password := by
  have passes : Chat.blank.PassesBans "alice" := by decide
  have same : Text.trim "/shell sudo ls" = "/shell sudo ls" := by decide
  obtain ⟨commands, nothing⟩ := password_asked_iff isCommand_marked (.inl rfl) false "alice" Chat.blank []
  cases found : command? false "alice" Chat.blank (Utf8.encode "/shell sudo ls" ++ 0x0D :: []) with
  | none =>
    have wants := (nothing found).1
    rw [same, hidesElevation_marked.wantsElevation_eq_false] at wants
    cases wants
  | some k =>
    obtain ⟨line, -, -, -, checks, hidden⟩ := commands k found
    have hides : HidesElevation k.line := by
      rw [line, same]
      exact hidesElevation_marked
    exact ⟨isCommand_marked, passes, k, rfl, (hidden hides).1, checks.mpr ⟨passes, .inr hides⟩⟩

/-- It is not so that the console asks for every password that the chat checks. -/
theorem password_not_asked :
    ¬ ∀ (text : String) (rest : List UInt8) (c : Chat) (identity : String), IsCommand text →
      c.PassesBans identity →
        ∀ k, command? false identity c (Utf8.encode text ++ 0x0D :: rest) = some k →
          (k.Asked false identity (shownWith identity c text) rest ↔ c.Checks identity k.line k.password) := by
  intro same
  have passes : Chat.blank.PassesBans "alice" := by decide
  have line : Text.trim "/shell sudo ls" = "/shell sudo ls" := by decide
  have plain := hidesElevation_marked.wantsElevation_eq_false
  have found := command?_typed isCommand_marked (.inl rfl) false "alice" Chat.blank []
  rw [line, readPassword, if_neg (by simp [plain])] at found
  have asked := (same _ [] Chat.blank "alice" isCommand_marked passes _ found).mpr
    (Chat.checks_iff.mpr ⟨passes, by decide⟩)
  exact asked.not_unasked ⟨rfl, rfl, List.append_nil _⟩

end Console

end TreeShell
