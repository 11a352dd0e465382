import Mathlib.Data.List.TakeWhile
import TreeShell.Proofs.Console.Typed
import TreeShell.Proofs.Text.Lenient

/-! # How a line is read

A line is read up to the first byte that stops it, and no further. In front of that byte, backspace and delete take back a
character each, and all other bytes go through the decoder (`Console.readFrom_before`). So what is typed without taking back
is decoded as a whole (`Utf8.decodes_iff`), and what is typed in complete characters is what is left when each backspace has
taken back the last of them (`Console.readFrom_keys`).
-/

namespace TreeShell.Console

/-- The bytes at which the reading of a line stops. -/
def stops : List UInt8 := [0x03, 0x04, 0x0A, 0x0D]

/-- The bytes that take back a character. -/
def erasers : List UInt8 := [0x08, 0x7F]

/-- The characters of a line after one more, which may take back the last one. -/
def keystroke (typed : List Char) (c : Char) : List Char :=
  if c = '\x08' ∨ c = '\x7F' then typed.dropLast else typed ++ [c]

variable {echo broken : Bool} {b : UInt8} {before rest : List UInt8} {decoder : Utf8.Decoder} {typed : List Char}

theorem mem_steering_iff : b ∈ steering ↔ b ∈ stops ∨ b ∈ erasers := by
  simp only [steering, stops, erasers, List.mem_cons, List.not_mem_nil, or_false]
  tauto

theorem LineRead.after_after (first second : List UInt8) (r : LineRead) :
    (r.after second).after first = r.after (first ++ second) := by
  rw [after, after, after, List.append_assoc]

/-- A byte that takes back takes the last character, if there is one. -/
theorem readFrom_eraser (erases : b ∈ erasers) (echo broken : Bool) (decoder : Utf8.Decoder) (typed : List Char) :
    ∃ sent, (echo = false → sent = []) ∧ ∀ rest, readFrom echo broken decoder typed (b :: rest) =
      (readFrom echo broken decoder typed.tail rest).after sent := by
  obtain rfl | rfl : b = 0x08 ∨ b = 0x7F := by simpa [erasers] using erases
  all_goals cases typed with
  | nil => exact ⟨[], fun _ => rfl, fun _ => rfl⟩
  | cons c typed => exact ⟨if echo then wipe else [], fun off => by rw [off]; rfl, fun _ => rfl⟩

/-- In front of the byte that stops it, the reading of a line goes on, and sends nothing without echo. -/
theorem readFrom_before (plain : ∀ b ∈ before, b ∉ stops) (echo broken : Bool) (decoder : Utf8.Decoder) (typed : List Char) :
    ∃ decoder' typed' sent, (echo = false → sent = []) ∧ ∀ rest,
      readFrom echo broken decoder typed (before ++ rest) = (readFrom echo broken decoder' typed' rest).after sent := by
  induction before generalizing decoder typed with
  | nil => exact ⟨decoder, typed, [], fun _ => rfl, fun _ => rfl⟩
  | cons b later ih =>
    obtain ⟨first, others⟩ := List.forall_mem_cons.mp plain
    have step : ∃ decoder' typed' sent, (echo = false → sent = []) ∧ ∀ rest,
        readFrom echo broken decoder typed (b :: rest) = (readFrom echo broken decoder' typed' rest).after sent := by
      by_cases erases : b ∈ erasers
      · exact ⟨decoder, _, readFrom_eraser erases echo broken decoder typed⟩
      · have steers : b ∉ steering := fun steers => (mem_steering_iff.mp steers).elim first erases
        exact ⟨_, _, _, fun off => by rw [off]; rfl, fun rest => readFrom_cons steers decoder typed⟩
    obtain ⟨decoder', typed', sent, silent, goes⟩ := step
    obtain ⟨decoder'', typed'', sent', silent', goes'⟩ := ih others decoder' typed'
    refine ⟨decoder'', typed'', sent ++ sent', fun off => by rw [silent off, silent' off]; rfl, fun rest => ?_⟩
    rw [List.cons_append, goes, goes', LineRead.after_after]

/-- The bytes of a character that takes nothing back, and does not stop the line, steer nothing. -/
theorem not_mem_steering {c : Char} (plain : ∀ b ∈ String.utf8EncodeChar c, b ∉ stops)
    (kept : ¬ (c = '\x08' ∨ c = '\x7F')) : ∀ b ∈ String.utf8EncodeChar c, b ∉ steering := by
  intro b member steers
  have erases := (mem_steering_iff.mp steers).resolve_left (plain b member)
  obtain rfl | rfl : b = 0x08 ∨ b = 0x7F := by simpa [erasers] using erases
  · exact kept (.inl (Utf8.eq_ofNat_of_mem member (by decide)))
  · exact kept (.inr (Utf8.eq_ofNat_of_mem member (by decide)))

/-- Complete characters are typed one after the other. -/
theorem readFrom_keys {cs : List Char} (plain : ∀ b ∈ Utf8.encodeChars cs, b ∉ stops) (echo broken : Bool)
    (typed : List Char) :
    ∃ sent, ∀ rest, readFrom echo broken none typed.reverse (Utf8.encodeChars cs ++ rest) =
      (readFrom echo broken none (cs.foldl keystroke typed).reverse rest).after sent := by
  induction cs generalizing typed with
  | nil => exact ⟨[], fun _ => rfl⟩
  | cons c later ih =>
    rw [Utf8.encodeChars, List.flatMap_cons] at plain
    obtain ⟨first, others⟩ := List.forall_mem_append.mp plain
    have step : ∃ sent, ∀ rest, readFrom echo broken none typed.reverse (String.utf8EncodeChar c ++ rest) =
        (readFrom echo broken none (keystroke typed c).reverse rest).after sent := by
      rw [keystroke]
      split
      · next erases =>
        have single : ∃ b ∈ erasers, String.utf8EncodeChar c = [b] := by
          rcases erases with rfl | rfl
          · exact ⟨0x08, by decide, by decide⟩
          · exact ⟨0x7F, by decide, by decide⟩
        obtain ⟨b, member, alone⟩ := single
        obtain ⟨sent, -, goes⟩ := readFrom_eraser member echo broken none typed.reverse
        rw [List.tail_reverse] at goes
        exact ⟨sent, fun rest => by rw [alone]; exact goes rest⟩
      · next kept =>
        refine ⟨if echo then String.utf8EncodeChar c else [], fun rest => ?_⟩
        rw [readFrom_append (not_mem_steering first kept), Utf8.feeds_utf8EncodeChar, List.reverse_append]
    obtain ⟨sent, goes⟩ := step
    obtain ⟨sent', goes'⟩ := ih others (keystroke typed c)
    refine ⟨sent ++ sent', fun rest => ?_⟩
    rw [Utf8.encodeChars, List.flatMap_cons, ← Utf8.encodeChars, List.append_assoc, goes, goes', LineRead.after_after]
    rfl

/-- How the reading of a line ends at a byte that stops it. -/
def endAt (typed : List Char) (stop : UInt8) : LineEnd :=
  if stop = 0x03 then .interrupted else if stop = 0x04 then .ended .endOfInput else .line (String.ofList typed.reverse)

/-- What is sent at such a byte. -/
def closingAt (stop : UInt8) : List UInt8 :=
  if stop = 0x03 then 0x5E :: 0x43 :: crlf else crlf

section Stop

variable {stop : UInt8}

theorem readFrom_stop (halts : stop ∈ stops) (decoder : Utf8.Decoder) (typed : List Char) (rest : List UInt8) :
    readFrom echo broken decoder typed (stop :: rest) = ⟨endAt typed stop, closingAt stop, rest⟩ := by
  obtain rfl | rfl | rfl | rfl : stop = 0x03 ∨ stop = 0x04 ∨ stop = 0x0A ∨ stop = 0x0D := by simpa [stops] using halts
  all_goals rfl

theorem endAt_of_line (ends : stop = 0x0D ∨ stop = 0x0A) (typed : List Char) :
    stop ∈ stops ∧ endAt typed stop = .line (String.ofList typed.reverse) := by
  rcases ends with rfl | rfl <;> exact ⟨by decide, rfl⟩

/-- Bytes that steer nothing are decoded at once. -/
theorem outcome_of_decoded (plain : ∀ b ∈ before, b ∉ steering) (ends : stop = 0x0D ∨ stop = 0x0A) (rest : List UInt8) :
    (readLine echo broken (before ++ stop :: rest)).outcome = .line (String.ofList (Utf8.decode before)) := by
  obtain ⟨halts, line⟩ := endAt_of_line ends ((Utf8.feeds none before).2.reverse ++ [])
  rw [readLine, readFrom_append plain, readFrom_stop halts, line, List.append_nil, List.reverse_reverse, Utf8.decode,
    Utf8.decodeFrom_eq_feeds]
  rfl

/-- Complete characters leave what is left when each backspace has taken back the last one. -/
theorem outcome_of_keys {cs : List Char} (plain : ∀ b ∈ Utf8.encodeChars cs, b ∉ stops) (ends : stop = 0x0D ∨ stop = 0x0A)
    (rest : List UInt8) :
    (readLine echo broken (Utf8.encodeChars cs ++ stop :: rest)).outcome = .line (String.ofList (cs.foldl keystroke [])) := by
  obtain ⟨halts, line⟩ := endAt_of_line ends (cs.foldl keystroke []).reverse
  obtain ⟨sent, goes⟩ := readFrom_keys plain echo broken []
  rw [List.reverse_nil] at goes
  rw [readLine, goes, readFrom_stop halts, line, List.reverse_reverse]
  rfl

/-- A line that nothing stops is read to its end. -/
theorem readLine_unstopped (plain : ∀ b ∈ before, b ∉ stops) (echo broken : Bool) :
    let r := readLine echo broken before
    r.rest = [] ∧ r.outcome = .ended (if broken then .connectionLost else .endOfInput) ∧
      (echo = false → r.sent = if broken then [] else crlf) := by
  intro r
  obtain ⟨decoder, typed, sent, silent, goes⟩ := readFrom_before plain echo broken none []
  have read : r = (readFrom echo broken decoder typed []).after sent := by
    rw [← goes, List.append_nil]
    rfl
  rw [read, readFrom]
  cases broken <;> exact ⟨rfl, rfl, fun off => by rw [silent off]; rfl⟩

/-- A line is read up to the byte that stops it, and that says how the reading ends. -/
theorem readLine_stopped (plain : ∀ b ∈ before, b ∉ stops) (halts : stop ∈ stops) (echo broken : Bool) (rest : List UInt8) :
    ∃ typed sent, (echo = false → sent = []) ∧
      readLine echo broken (before ++ stop :: rest) = ⟨endAt typed stop, sent ++ closingAt stop, rest⟩ := by
  obtain ⟨decoder, typed, sent, silent, goes⟩ := readFrom_before plain echo broken none []
  refine ⟨typed, sent, silent, ?_⟩
  rw [readLine, goes, readFrom_stop halts]
  rfl

/-- What a line holds at its end. -/
theorem exists_line (plain : ∀ b ∈ before, b ∉ stops) (ends : stop = 0x0D ∨ stop = 0x0A) (echo broken : Bool)
    (rest : List UInt8) :
    ∃ text, (readLine echo broken (before ++ stop :: rest)).outcome = .line text ∧
      ((∀ b ∈ before, b ∉ erasers) → ∀ cs, Utf8.Decodes before cs ↔ cs = text.toList) ∧
      ∀ cs, before = Utf8.encodeChars cs → text.toList = cs.foldl keystroke [] := by
  obtain ⟨typed, sent, -, read⟩ := readLine_stopped plain (endAt_of_line ends []).1 echo broken rest
  have outcome := congrArg LineRead.outcome read
  rw [(endAt_of_line ends typed).2] at outcome
  refine ⟨_, outcome, fun kept cs => ?_, ?_⟩
  · have steers : ∀ b ∈ before, b ∉ steering := fun b member steers =>
      (mem_steering_iff.mp steers).elim (plain b member) (kept b member)
    have same := LineEnd.line.inj (outcome.symm.trans (outcome_of_decoded steers ends rest))
    rw [Utf8.decodes_iff, same, String.toList_ofList]
  · rintro cs rfl
    have same := LineEnd.line.inj (outcome.symm.trans (outcome_of_keys plain ends rest))
    rw [same, String.toList_ofList]

end Stop

/-- Reads a line faithfully and discreetly. Of every row of bytes just those up to the first one that stops the line are taken,
or all, and that byte says how the reading ends. What the line holds at its end is, without backspaces, all that was sent
before, decoded at once; and for complete characters with backspaces among them, what these leave. So a text that has no
steering bytes is read back. Without echo, what is sent tells nothing but which byte it was. -/
theorem readLine_faithful (echo broken : Bool) :
    (∀ bytes : List UInt8,
      let before := bytes.takeWhile (· ∉ stops)
      let r := readLine echo broken bytes
      match bytes.dropWhile (· ∉ stops) with
      | [] =>
        r.rest = [] ∧ r.outcome = .ended (if broken then .connectionLost else .endOfInput) ∧
          (echo = false → r.sent = if broken then [] else crlf)
      | stop :: rest =>
        r.rest = rest ∧ (stop = 0x03 → r.outcome = .interrupted) ∧ (stop = 0x04 → r.outcome = .ended .endOfInput) ∧
          (stop = 0x0D ∨ stop = 0x0A → ∃ text, r.outcome = .line text ∧
            ((∀ b ∈ before, b ∉ erasers) → ∀ cs, Utf8.Decodes before cs ↔ cs = text.toList) ∧
            ∀ cs, before = Utf8.encodeChars cs → text.toList = cs.foldl keystroke []) ∧
          (echo = false → r.sent = if stop = 0x03 then 0x5E :: 0x43 :: crlf else crlf)) ∧
    ∀ text, IsTypable text → ∀ stop, stop = 0x0D ∨ stop = 0x0A → ∀ rest,
      (readLine echo broken (Utf8.encode text ++ stop :: rest)).outcome = .line text := by
  constructor
  · intro bytes before r
    have plain : ∀ b ∈ before, b ∉ stops := by
      intro b member
      simpa using List.mem_takeWhile_imp member
    have whole : before ++ bytes.dropWhile (· ∉ stops) = bytes := List.takeWhile_append_dropWhile
    cases cut : bytes.dropWhile (· ∉ stops) with
    | nil =>
      have all : r = readLine echo broken before := by rw [← List.append_nil before, ← cut, whole]
      rw [all]
      exact readLine_unstopped plain echo broken
    | cons stop rest =>
      have halts : stop ∈ stops := by
        have head := List.head?_dropWhile_not (· ∉ stops) bytes
        rw [cut] at head
        simpa using head
      obtain ⟨typed, sent, silent, read⟩ := readLine_stopped plain halts echo broken rest
      have line (ends : stop = 0x0D ∨ stop = 0x0A) := exists_line plain ends echo broken rest
      rw [← cut, whole] at read line
      refine ⟨congrArg LineRead.rest read, ?_, ?_, line, fun off => ?_⟩
      · rintro rfl
        exact congrArg LineRead.outcome read
      · rintro rfl
        exact congrArg LineRead.outcome read
      · have sent_eq := congrArg LineRead.sent read
        rwa [silent off] at sent_eq
  · intro text typable stop ends rest
    rw [readLine_typed typable ends]

/-- A line with a character broken off in its middle and one at its end, and one with a character taken back. -/
theorem readLine_faithful_on_broken_off :
    let bytes : List UInt8 := [0x61, 0xE2, 0x82, 0x62, 0xC3]
    (∃ text, (readLine false false (bytes ++ [0x0D, 0x21])).outcome = .line text ∧ ∀ cs, Utf8.Decodes bytes cs ↔ cs = text.toList) ∧
      (readLine false false (bytes ++ [0x0D, 0x21])).rest = [0x21] ∧
      (readLine false false (bytes ++ [0x0D, 0x21])).sent = crlf ∧
      (∃ text, (readLine false false (Utf8.encode "aé\x7Fb" ++ [0x0A])).outcome = .line text ∧ text.toList = ['a', 'b']) ∧
      (readLine false false (Utf8.encode "aé" ++ [0x0D])).outcome = .line "aé" := by
  intro bytes
  obtain ⟨streams, typed⟩ := readLine_faithful false false
  have first := streams (bytes ++ [0x0D, 0x21])
  have second := streams (Utf8.encode "aé\x7Fb" ++ [0x0A])
  have cut : (bytes ++ [0x0D, 0x21]).dropWhile (· ∉ stops) = [0x0D, 0x21] := by decide
  have front : (bytes ++ [0x0D, 0x21]).takeWhile (· ∉ stops) = bytes := by decide
  have cut' : (Utf8.encode "aé\x7Fb" ++ [0x0A]).dropWhile (· ∉ stops) = [0x0A] := by decide
  have front' : (Utf8.encode "aé\x7Fb" ++ [0x0A]).takeWhile (· ∉ stops) = Utf8.encodeChars ['a', 'é', '\x7F', 'b'] := by decide
  rw [cut, front] at first
  rw [cut', front'] at second
  obtain ⟨rest, -, -, line, sent⟩ := first
  obtain ⟨-, -, -, keys, -⟩ := second
  obtain ⟨text, outcome, decoded, -⟩ := line (.inl rfl)
  obtain ⟨text', outcome', -, left⟩ := keys (.inr rfl)
  exact ⟨⟨text, outcome, decoded (by decide +kernel)⟩, rest, sent rfl, ⟨text', outcome', left _ rfl⟩,
    typed "aé" (by decide) 0x0D (.inl rfl) []⟩

end TreeShell.Console
