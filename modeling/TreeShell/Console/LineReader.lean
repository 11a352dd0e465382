import TreeShell.Text.Utf8

/-! # Reading a line byte by byte

A line ends with a carriage return or a line feed, is given up with `^C`, and the dialogue ends with `^D`
or with the input. Backspace and delete take back the last character. All other bytes go through the
UTF-8 decoder and are echoed unless the echo is off; the control bytes above leave the decoder alone.
`readLine_rest_lt` says that every line takes at least one byte, which bounds every dialogue.
-/

namespace TreeShell.Console

/-- The bytes of a connection that are still to come; a broken one fails at its end. -/
structure Input where
  bytes : List UInt8
  broken : Bool
deriving DecidableEq, Repr

/-- Why no more input comes. -/
inductive InputEnd where
  | endOfInput
  | connectionLost
deriving DecidableEq, Repr

/-- The wording of the end of input. -/
def InputEnd.message : InputEnd → String
  | .endOfInput => "end of input"
  | .connectionLost => "channel closed"

/-- How the reading of a line ended. -/
inductive LineEnd where
  /-- With a line. -/
  | line (text : String)
  /-- The line was given up. -/
  | interrupted
  /-- There is no more input. -/
  | ended (reason : InputEnd)
deriving DecidableEq, Repr

/-- A line that was read: how it ended, the bytes sent meanwhile, and the bytes after it. -/
structure LineRead where
  outcome : LineEnd
  sent : List UInt8
  rest : List UInt8
deriving DecidableEq, Repr

/-- The reading with some bytes sent before. -/
def LineRead.after (bytes : List UInt8) (r : LineRead) : LineRead :=
  { r with sent := bytes ++ r.sent }

/-- Carriage return and line feed. -/
def crlf : List UInt8 := [0x0D, 0x0A]

/-- The bytes that wipe the last character on the screen. -/
def wipe : List UInt8 := [0x08, 0x20, 0x08]

/-- Reads on after some characters, last one first, with the state of the decoder. -/
def readFrom (echo broken : Bool) : Utf8.Decoder → List Char → List UInt8 → LineRead
  | _, _, [] => if broken then ⟨.ended .connectionLost, [], []⟩ else ⟨.ended .endOfInput, crlf, []⟩
  | decoder, typed, b :: rest =>
    if b = 0x04 then ⟨.ended .endOfInput, crlf, rest⟩
    else if b = 0x0D ∨ b = 0x0A then ⟨.line (String.ofList typed.reverse), crlf, rest⟩
    else if b = 0x7F ∨ b = 0x08 then
      match typed with
      | [] => readFrom echo broken decoder [] rest
      | _ :: typed => (readFrom echo broken decoder typed rest).after (if echo then wipe else [])
    else if b = 0x03 then ⟨.interrupted, 0x5E :: 0x43 :: crlf, rest⟩
    else
      let (decoder, completed) := Utf8.feed decoder b
      (readFrom echo broken decoder (completed.reverse ++ typed) rest).after (if echo then [b] else [])

/-- Reads one line. -/
def readLine (echo broken : Bool) (bytes : List UInt8) : LineRead :=
  readFrom echo broken none [] bytes

/-- The end of input is the only outcome that can leave the number of bytes as it was. -/
theorem readFrom_rest_lt {echo broken : Bool} {decoder : Utf8.Decoder} {typed : List Char}
    {bytes : List UInt8} (h : bytes ≠ []) :
    (readFrom echo broken decoder typed bytes).rest.length < bytes.length := by
  induction bytes generalizing decoder typed with
  | nil => exact absurd rfl h
  | cons b rest ih =>
    have step (d : Utf8.Decoder) (cs : List Char) :
        (readFrom echo broken d cs rest).rest.length < (b :: rest).length := by
      by_cases empty : rest = []
      · subst empty
        cases broken <;> simp [readFrom]
      · exact Nat.lt_succ_of_lt (ih empty)
    unfold readFrom
    split
    · simp
    · split
      · simp
      · split
        · split
          · exact step ..
          · exact step ..
        · split
          · simp
          · exact step ..

/-- Reading a line that does not meet the end of input takes at least one byte. -/
theorem readLine_rest_lt {echo broken : Bool} {bytes : List UInt8}
    (h : ∀ reason, (readLine echo broken bytes).outcome ≠ .ended reason) :
    (readLine echo broken bytes).rest.length < bytes.length := by
  apply readFrom_rest_lt
  rintro rfl
  cases broken
  · exact h _ rfl
  · exact h _ rfl

/-- A line takes at least one byte, and so does one that was given up. -/
theorem rest_lt_of_line {echo broken : Bool} {bytes : List UInt8} {text : String}
    (h : (readLine echo broken bytes).outcome = .line text) :
    (readLine echo broken bytes).rest.length < bytes.length :=
  readLine_rest_lt fun reason => by simp [h]

theorem rest_lt_of_interrupted {echo broken : Bool} {bytes : List UInt8}
    (h : (readLine echo broken bytes).outcome = .interrupted) :
    (readLine echo broken bytes).rest.length < bytes.length :=
  readLine_rest_lt fun reason => by simp [h]

/-- Reading a line never adds bytes. -/
theorem readLine_rest_le {echo broken : Bool} {bytes : List UInt8} :
    (readLine echo broken bytes).rest.length ≤ bytes.length := by
  by_cases h : bytes = []
  · subst h
    cases broken <;> simp [readLine, readFrom]
  · exact Nat.le_of_lt (readFrom_rest_lt h)

end TreeShell.Console
