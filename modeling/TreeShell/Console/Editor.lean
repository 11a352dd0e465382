import TreeShell.Console.LineReader
import TreeShell.Text.Blank

/-! # The line editor

The editor shows the text it begins with and collects lines until `:wq`, which gives the lines joined by
line feeds. `:q!` and `^C` give the edit up, and `:a` while no line stands takes over the lines of the
initial text. The prompt that opens it is one line, and each line takes input, so an edit ends.
-/

namespace TreeShell.Console

/-- How an answer was given: the answer, none when it was given up, or the end of input. -/
inductive AnswerEnd where
  | answer (text : Option String)
  | ended (reason : InputEnd)
deriving DecidableEq, Repr

/-- An answer that was read, the bytes sent meanwhile, and the bytes after it. -/
structure AnswerRead where
  outcome : AnswerEnd
  sent : List UInt8
  rest : List UInt8
deriving DecidableEq, Repr

/-- The line that explains the commands of the editor. -/
def editorHelp : String := "-- :wq save, :q! cancel, :a keep the current text and append --"

/-- The lines of a text, none of the empty one. -/
def linesOf (text : String) : List String :=
  if text = "" then [] else Text.split '\n' text

/-- A line as it is sent. -/
def sentLine (text : String) : List UInt8 :=
  Utf8.encode text ++ crlf

/-- Collects lines after the given ones. -/
def editFrom (broken : Bool) (initial : String) (lines : List String) (bytes : List UInt8) : AnswerRead :=
  let r := readLine true broken bytes
  match _h : r.outcome with
  | .ended reason => ⟨.ended reason, r.sent, r.rest⟩
  | .interrupted => ⟨.answer none, r.sent, r.rest⟩
  | .line text =>
    if text = ":q!" then ⟨.answer none, r.sent, r.rest⟩
    else if text = ":wq" then ⟨.answer (some ("\n".intercalate lines)), r.sent, r.rest⟩
    else
      let lines := if text = ":a" ∧ lines = [] then linesOf initial else lines ++ [text]
      let later := editFrom broken initial lines r.rest
      { later with sent := r.sent ++ later.sent }
termination_by bytes.length
decreasing_by
  exact rest_lt_of_line _h

/-- What the editor shows when it opens. -/
def editorOpening (label initial : String) : List UInt8 :=
  sentLine label ++ (linesOf initial).flatMap (fun line => sentLine ("  | " ++ line)) ++ sentLine editorHelp

/-- Edits a text. -/
def editText (broken : Bool) (label initial : String) (bytes : List UInt8) : AnswerRead :=
  let r := editFrom broken initial [] bytes
  { r with sent := editorOpening label initial ++ r.sent }

/-- Collecting lines takes at least one byte, or meets the end of input. -/
theorem editFrom_rest_lt (broken : Bool) (initial : String) (lines : List String) (bytes : List UInt8) :
    (editFrom broken initial lines bytes).rest.length < bytes.length ∨
      ∃ reason, (editFrom broken initial lines bytes).outcome = .ended reason ∧
        (editFrom broken initial lines bytes).rest.length ≤ bytes.length := by
  fun_induction editFrom broken initial lines bytes with
  | case1 lines bytes r reason h => exact .inr ⟨reason, rfl, readLine_rest_le⟩
  | case2 lines bytes r h => exact .inl (rest_lt_of_interrupted h)
  | case3 lines bytes r h => exact .inl (rest_lt_of_line h)
  | case4 lines bytes r h => exact .inl (rest_lt_of_line h)
  | case5 lines bytes r text h _ _ lines' later ih =>
    have shorter : r.rest.length < bytes.length := rest_lt_of_line h
    rcases ih with less | ⟨reason, ended, le⟩
    · exact .inl (Nat.lt_trans less shorter)
    · exact .inl (Nat.lt_of_le_of_lt le shorter)

end TreeShell.Console
