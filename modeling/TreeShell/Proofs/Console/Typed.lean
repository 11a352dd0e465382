import TreeShell.Console.Session
import TreeShell.Proofs.Text.Utf8

/-! # Lines that are typed

A text without the bytes that steer the reading of a line is read as it was typed, up to the end of the line
(`Console.readLine_typed`). Without echo nothing of it is sent back (`Console.sent_readLine_silent`).
-/

namespace TreeShell.Console

/-- The bytes that steer the reading of a line. -/
def steering : List UInt8 := [0x03, 0x04, 0x08, 0x0A, 0x0D, 0x7F]

/-- Whether a text can be typed in a line: none of its bytes steers the reading. -/
def IsTypable (text : String) : Prop :=
  ∀ b ∈ Utf8.encode text, b ∉ steering

instance (text : String) : Decidable (IsTypable text) :=
  List.decidableBAll (· ∉ steering) (Utf8.encode text)

variable {echo broken : Bool} {bs rest : List UInt8}

/-- A byte that steers nothing goes through the decoder. -/
theorem readFrom_cons {b : UInt8} (plain : b ∉ steering) (decoder : Utf8.Decoder) (typed : List Char) :
    readFrom echo broken decoder typed (b :: rest) =
      (readFrom echo broken (Utf8.feed decoder b).1 ((Utf8.feed decoder b).2.reverse ++ typed) rest).after
        (if echo then [b] else []) := by
  simp only [steering, List.mem_cons, List.not_mem_nil, or_false, not_or] at plain
  obtain ⟨notBreak, notEnd, notBack, notFeed, notReturn, notDelete⟩ := plain
  rw [readFrom.eq_def]
  dsimp only
  rw [if_neg notEnd, if_neg (not_or.mpr ⟨notReturn, notFeed⟩), if_neg (not_or.mpr ⟨notDelete, notBack⟩), if_neg notBreak]

theorem readFrom_append (plain : ∀ b ∈ bs, b ∉ steering) (decoder : Utf8.Decoder) (typed : List Char) :
    readFrom echo broken decoder typed (bs ++ rest) =
      (readFrom echo broken (Utf8.feeds decoder bs).1 ((Utf8.feeds decoder bs).2.reverse ++ typed) rest).after
        (if echo then bs else []) := by
  induction bs generalizing decoder typed with
  | nil => cases echo <;> rfl
  | cons b later ih =>
    obtain ⟨first, others⟩ := List.forall_mem_cons.mp plain
    rw [List.cons_append, readFrom_cons first, ih others, Utf8.feeds]
    simp only [List.reverse_append, List.append_assoc, LineRead.after]
    cases echo <;> rfl

/-- A text that is typed up to the end of a line is read. -/
theorem readLine_typed {text : String} {stop : UInt8} (typable : IsTypable text) (ends : stop = 0x0D ∨ stop = 0x0A)
    (echo broken : Bool) (rest : List UInt8) :
    readLine echo broken (Utf8.encode text ++ stop :: rest) =
      ⟨.line text, (if echo then Utf8.encode text else []) ++ crlf, rest⟩ := by
  have ended (typed : List Char) : readFrom echo broken none typed (stop :: rest) =
      ⟨.line (String.ofList typed.reverse), crlf, rest⟩ := by
    rcases ends with rfl | rfl <;> rfl
  rw [readLine, readFrom_append typable, Utf8.encode, Utf8.feeds_encodeChars, ended, LineRead.after, List.append_nil,
    List.reverse_reverse, String.ofList_toList]

/-- What is sent when the reading of a line ends. -/
def LineEnd.closing : LineEnd → List UInt8
  | .line _ => crlf
  | .interrupted => 0x5E :: 0x43 :: crlf
  | .ended .endOfInput => crlf
  | .ended .connectionLost => []

theorem sent_readFrom_silent (broken : Bool) (decoder : Utf8.Decoder) (typed : List Char) (bs : List UInt8) :
    (readFrom false broken decoder typed bs).sent = (readFrom false broken decoder typed bs).outcome.closing := by
  fun_induction readFrom false broken decoder typed bs <;> simp_all [LineEnd.closing, LineRead.after]

/-- Without echo nothing else is sent, whatever is typed. -/
theorem sent_readLine_silent (broken : Bool) (bs : List UInt8) :
    (readLine false broken bs).sent = (readLine false broken bs).outcome.closing :=
  sent_readFrom_silent broken none [] bs

end TreeShell.Console
