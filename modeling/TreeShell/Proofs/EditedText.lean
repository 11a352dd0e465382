import TreeShell.Console.Editor
import TreeShell.Proofs.Console.Typed

/-! # What the line editor gives back

The editor takes one line after the other until one of them, or `^C` or the end of the input, ends the edit. The lines
before that one are all it goes by (`Console.editFrom_lines`), and on every stream of bytes there is such a line
(`Console.exists_lines`). So text that is typed line by line comes back as it was typed, and `:a` brings the initial text
back whatever line feeds are in it (`Console.editText_faithful`).
-/

namespace TreeShell.Console

variable {broken : Bool} {initial text : String} {lines texts : List String} {bytes rest : List UInt8} {e : AnswerEnd}

/-- A line as it is typed, with the carriage return that ends it. -/
def keyed (text : String) : List UInt8 :=
  Utf8.encode text ++ [0x0D]

/-- The lines that the editor holds after one more. -/
def takeIn (initial : String) (lines : List String) (text : String) : List String :=
  if text = ":a" ∧ lines = [] then linesOf initial else lines ++ [text]

/-- The lines that the editor holds after some lines. -/
def held (initial : String) (texts : List String) : List String :=
  texts.foldl (takeIn initial) []

/-- How an edit ends that holds some lines, if it does at the next line. -/
def ending? (lines : List String) : LineEnd → Option AnswerEnd
  | .ended reason => some (.ended reason)
  | .interrupted => some (.answer none)
  | .line text =>
    if text = ":q!" then some (.answer none)
    else if text = ":wq" then some (.answer (some ("\n".intercalate lines)))
    else none

/-- Whether some lines are read from a stream, none of which ends an edit, and what is left of it behind them. -/
inductive Lines (broken : Bool) : List UInt8 → List String → List UInt8 → Prop
  | here (bytes : List UInt8) : Lines broken bytes [] bytes
  | line {bytes rest : List UInt8} {text : String} {texts : List String}
    (read : (readLine true broken bytes).outcome = .line text) (goesOn : text ≠ ":wq" ∧ text ≠ ":q!")
    (more : Lines broken (readLine true broken bytes).rest texts rest) : Lines broken bytes (text :: texts) rest

/-! ## What the editor holds -/

/-- Once the editor holds a line, every other one is ordinary text. -/
theorem foldl_takeIn (nonempty : lines ≠ []) (texts : List String) : texts.foldl (takeIn initial) lines = lines ++ texts := by
  induction texts generalizing lines with
  | nil => exact (List.append_nil lines).symm
  | cons text later ih =>
    have taken : takeIn initial lines text = lines ++ [text] := if_neg fun both => nonempty both.2
    rw [List.foldl_cons, taken, ih (by simp), List.append_assoc, List.singleton_append]

/-- Lines that do not begin with `:a` are held as they are. -/
theorem held_of_head (plain : texts.head? ≠ some ":a") : held initial texts = texts := by
  cases texts with
  | nil => rfl
  | cons first later =>
    have taken : takeIn initial [] first = [first] := if_neg fun both => plain (congrArg some both.1)
    rw [held, List.foldl_cons, taken, foldl_takeIn (by simp), List.singleton_append]

theorem linesOf_of_ne_empty (filled : initial ≠ "") : linesOf initial ≠ [] ∧ "\n".intercalate (linesOf initial) = initial := by
  rw [linesOf, if_neg filled]
  refine ⟨fun none => ?_, Text.intercalate_split '\n' initial⟩
  exact List.splitOn_ne_nil _ _ (List.map_eq_nil_iff.mp none)

/-- With `:a` the lines of the initial text come before the others. -/
theorem held_append (filled : initial ≠ "") (texts : List String) :
    held initial (":a" :: texts) = linesOf initial ++ texts :=
  foldl_takeIn (linesOf_of_ne_empty filled).1 texts

/-- Lines can be joined before others are joined to them. -/
theorem intercalate_append {sep : String} (nonempty : lines ≠ []) (texts : List String) :
    sep.intercalate (lines ++ texts) = sep.intercalate (sep.intercalate lines :: texts) := by
  obtain ⟨first, later, rfl⟩ := List.exists_cons_of_ne_nil nonempty
  induction later generalizing first with
  | nil => rw [String.intercalate_singleton, List.singleton_append]
  | cons second later ih =>
    have rest := ih second (by simp)
    rw [List.cons_append] at rest
    rw [List.cons_append, List.cons_append, String.intercalate_cons_cons, String.intercalate_cons_cons, rest,
      String.intercalate_cons_append]

/-! ## Reading on -/

/-- A line that ends the edit decides what comes of it. -/
theorem editFrom_of_ending (ends : ending? lines (readLine true broken bytes).outcome = some e) :
    editFrom broken initial lines bytes = ⟨e, (readLine true broken bytes).sent, (readLine true broken bytes).rest⟩ := by
  rw [editFrom]
  generalize readLine true broken bytes = r at ends
  obtain ⟨outcome, sent, rest⟩ := r
  cases outcome with
  | ended reason => exact congrArg (AnswerRead.mk · sent rest) (Option.some.inj ends)
  | interrupted => exact congrArg (AnswerRead.mk · sent rest) (Option.some.inj ends)
  | line text =>
    dsimp only [ending?] at ends ⊢
    split at ends
    · next cancels => rw [if_pos cancels, ← Option.some.inj ends]
    · next stays =>
      split at ends
      · next saves => rw [if_neg stays, if_pos saves, ← Option.some.inj ends]
      · cases ends

/-- Any other line is taken in. -/
theorem editFrom_of_line (read : (readLine true broken bytes).outcome = .line text) (goesOn : text ≠ ":wq" ∧ text ≠ ":q!")
    (initial : String) (lines : List String) :
    let later := editFrom broken initial (takeIn initial lines text) (readLine true broken bytes).rest
    (editFrom broken initial lines bytes).outcome = later.outcome ∧ (editFrom broken initial lines bytes).rest = later.rest := by
  intro later
  have unfolded : editFrom broken initial lines bytes =
      { editFrom broken initial (takeIn initial lines text) (readLine true broken bytes).rest with
        sent := (readLine true broken bytes).sent ++
          (editFrom broken initial (takeIn initial lines text) (readLine true broken bytes).rest).sent } := by
    rw [editFrom]
    generalize readLine true broken bytes = r at read
    obtain ⟨outcome, sent, rest⟩ := r
    obtain rfl : outcome = .line text := read
    dsimp only
    rw [if_neg goesOn.2, if_neg goesOn.1]
    rfl
  rw [unfolded]
  exact ⟨rfl, rfl⟩

/-- Behind some lines the editor is where it would be if it held them from the start. -/
theorem editFrom_lines (read : Lines broken bytes texts rest) (initial : String) (lines : List String) :
    let later := editFrom broken initial (texts.foldl (takeIn initial) lines) rest
    (editFrom broken initial lines bytes).outcome = later.outcome ∧ (editFrom broken initial lines bytes).rest = later.rest := by
  induction read generalizing lines with
  | here bytes => exact ⟨rfl, rfl⟩
  | line first goesOn more ih =>
    obtain ⟨outcome, left⟩ := editFrom_of_line first goesOn initial lines
    obtain ⟨outcome', left'⟩ := ih (takeIn initial lines _)
    exact ⟨outcome.trans outcome', left.trans left'⟩

/-- What comes of an edit is settled by the lines before the one that ends it. -/
theorem editText_of_lines (read : Lines broken bytes texts rest)
    (ends : ending? (held initial texts) (readLine true broken rest).outcome = some e) (label : String) :
    (editText broken label initial bytes).outcome = e ∧
      (editText broken label initial bytes).rest = (readLine true broken rest).rest := by
  obtain ⟨outcome, left⟩ := editFrom_lines read initial []
  have ended : editFrom broken initial (held initial texts) rest = _ := editFrom_of_ending ends
  rw [held] at ended
  rw [ended] at outcome left
  exact ⟨outcome, left⟩

/-- Every stream comes to a line that ends the edit, after at most as many lines as it has bytes. -/
theorem exists_lines (broken : Bool) (bytes : List UInt8) :
    ∃ texts rest, Lines broken bytes texts rest ∧ texts.length ≤ bytes.length ∧
      ∀ lines, (ending? lines (readLine true broken rest).outcome).isSome := by
  by_cases goesOn : ∃ text, (readLine true broken bytes).outcome = .line text ∧ text ≠ ":wq" ∧ text ≠ ":q!"
  · obtain ⟨text, read, goesOn⟩ := goesOn
    have shorter := rest_lt_of_line read
    obtain ⟨texts, rest, more, few, ends⟩ := exists_lines broken (readLine true broken bytes).rest
    refine ⟨text :: texts, rest, .line read goesOn more, ?_, ends⟩
    rw [List.length_cons]
    omega
  · refine ⟨[], bytes, .here bytes, Nat.zero_le _, fun lines => ?_⟩
    cases read : (readLine true broken bytes).outcome with
    | ended reason => rfl
    | interrupted => rfl
    | line text =>
      rw [ending?]
      split
      · rfl
      · split
        · rfl
        · next stays saves => exact absurd ⟨text, read, saves, stays⟩ goesOn
termination_by bytes.length
decreasing_by exact shorter

/-! ## Text that is typed -/

theorem readLine_keyed (typable : IsTypable text) (broken : Bool) (rest : List UInt8) :
    (readLine true broken (keyed text ++ rest)).outcome = .line text ∧ (readLine true broken (keyed text ++ rest)).rest = rest := by
  rw [keyed, List.append_assoc, List.singleton_append, readLine_typed typable (.inl rfl)]
  exact ⟨rfl, rfl⟩

/-- Typed lines are the lines that are read. -/
theorem lines_keyed (typable : ∀ text ∈ texts, IsTypable text ∧ text ≠ ":wq" ∧ text ≠ ":q!") (broken : Bool)
    (rest : List UInt8) : Lines broken (texts.flatMap keyed ++ rest) texts rest := by
  induction texts with
  | nil => exact .here rest
  | cons text later ih =>
    obtain ⟨⟨valid, goesOn⟩, others⟩ := List.forall_mem_cons.mp typable
    obtain ⟨read, left⟩ := readLine_keyed valid broken (later.flatMap keyed ++ rest)
    rw [List.flatMap_cons, List.append_assoc]
    exact .line read goesOn (left.symm ▸ ih others)

/-- What is typed in place of a line to give the edit up: `:q!`, or `^C`. -/
def givesUp : List (List UInt8) :=
  [keyed ":q!", [0x03]]

/-- `:wq` saves the lines that are held. -/
theorem editText_saved (read : Lines broken bytes texts (keyed ":wq" ++ rest)) (label initial : String) :
    (editText broken label initial bytes).outcome = .answer (some ("\n".intercalate (held initial texts))) ∧
      (editText broken label initial bytes).rest = rest := by
  have typable : IsTypable ":wq" := by decide
  obtain ⟨line, left⟩ := readLine_keyed typable broken rest
  have ends : ending? (held initial texts) (readLine true broken (keyed ":wq" ++ rest)).outcome =
      some (.answer (some ("\n".intercalate (held initial texts)))) := by
    rw [line]
    rfl
  have ended := editText_of_lines read ends label
  rwa [left] at ended

/-- What gives the edit up does so whatever is held. -/
theorem editText_cancelled {cancel : List UInt8} (listed : cancel ∈ givesUp) (read : Lines broken bytes texts (cancel ++ rest))
    (label : String) :
    (editText broken label initial bytes).outcome = .answer none ∧ (editText broken label initial bytes).rest = rest := by
  have cancels : ending? (held initial texts) (readLine true broken (cancel ++ rest)).outcome = some (.answer none) ∧
      (readLine true broken (cancel ++ rest)).rest = rest := by
    simp only [givesUp, List.mem_cons, List.not_mem_nil, or_false] at listed
    rcases listed with rfl | rfl
    · have typable : IsTypable ":q!" := by decide
      obtain ⟨line, left⟩ := readLine_keyed typable broken rest
      rw [line]
      exact ⟨rfl, left⟩
    · exact ⟨rfl, rfl⟩
  have ended := editText_of_lines read cancels.1 label
  rwa [cancels.2] at ended

/-- The editor gives back what is typed. With any label, any initial text and any lines that can be typed, none of which is
`:wq` or `:q!`:

- the lines and then `:wq` give the lines joined by line feeds, if the first one is not `:a`;
- with `:a` before them they give the initial text, unless that is empty, and the lines joined to it, whatever they are;
- the lines and then `:q!` or `^C` give nothing.

And on every stream of bytes an edit ends: after some lines, at most as many as there are bytes, comes one that saves or
cancels it, or the end of the input, and it gives what the lines before have led to. -/
theorem editText_faithful (broken : Bool) (label initial : String) :
    (∀ texts, (∀ text ∈ texts, IsTypable text ∧ text ≠ ":wq" ∧ text ≠ ":q!") → ∀ rest,
      let edit bytes := editText broken label initial (bytes ++ rest)
      let typed := texts.flatMap keyed
      (texts.head? ≠ some ":a" →
        (edit (typed ++ keyed ":wq")).outcome = .answer (some ("\n".intercalate texts)) ∧
          (edit (typed ++ keyed ":wq")).rest = rest) ∧
      (initial ≠ "" →
        (edit (keyed ":a" ++ typed ++ keyed ":wq")).outcome = .answer (some ("\n".intercalate (initial :: texts))) ∧
          (edit (keyed ":a" ++ typed ++ keyed ":wq")).rest = rest) ∧
      ∀ cancel ∈ givesUp, (edit (typed ++ cancel)).outcome = .answer none ∧ (edit (typed ++ cancel)).rest = rest) ∧
    ∀ bytes, ∃ texts rest, Lines broken bytes texts rest ∧ texts.length ≤ bytes.length ∧
      ending? (held initial texts) (readLine true broken rest).outcome = some (editText broken label initial bytes).outcome ∧
      (editText broken label initial bytes).rest = (readLine true broken rest).rest := by
  constructor
  · intro texts typable rest edit typed
    refine ⟨?_, ?_, ?_⟩
    · intro plain
      have read := lines_keyed typable broken (keyed ":wq" ++ rest)
      rw [← List.append_assoc] at read
      have saved := editText_saved read label initial
      rwa [held_of_head plain] at saved
    · intro filled
      have all : ∀ text ∈ ":a" :: texts, IsTypable text ∧ text ≠ ":wq" ∧ text ≠ ":q!" :=
        List.forall_mem_cons.mpr ⟨by decide, typable⟩
      have read := lines_keyed all broken (keyed ":wq" ++ rest)
      rw [← List.append_assoc, List.flatMap_cons] at read
      obtain ⟨nonempty, joined⟩ := linesOf_of_ne_empty filled
      have saved := editText_saved read label initial
      rwa [held_append filled, intercalate_append nonempty, joined] at saved
    · intro cancel listed
      have read := lines_keyed typable broken (cancel ++ rest)
      rw [← List.append_assoc] at read
      exact editText_cancelled listed read label
  · intro bytes
    obtain ⟨texts, rest, read, few, ends⟩ := exists_lines broken bytes
    obtain ⟨e, ended⟩ := Option.isSome_iff_exists.mp (ends (held initial texts))
    obtain ⟨outcome, left⟩ := editText_of_lines read ended label
    exact ⟨texts, rest, read, few, by rw [ended, outcome], left⟩

/-- Empty lines, one beyond ASCII and one that reads `:a` come back, also behind an initial text that ends with a line feed. -/
theorem editText_faithful_on_empty_lines :
    let texts := ["", "é", ":a", ""]
    let typed := texts.flatMap keyed
    (∀ text ∈ texts, IsTypable text ∧ text ≠ ":wq" ∧ text ≠ ":q!") ∧ texts.head? ≠ some ":a" ∧ "old\n" ≠ "" ∧
      (editText false "f" "old\n" (typed ++ keyed ":wq" ++ [0x21])).outcome = .answer (some "\né\n:a\n") ∧
      (editText false "f" "old\n" (keyed ":a" ++ typed ++ keyed ":wq" ++ [0x21])).outcome =
        .answer (some "old\n\n\né\n:a\n") ∧
      (editText false "f" "old\n" (typed ++ [0x03] ++ [0x21])).outcome = .answer none := by
  intro texts typed
  have typable : ∀ text ∈ texts, IsTypable text ∧ text ≠ ":wq" ∧ text ≠ ":q!" := by decide
  obtain ⟨save, append, cancel⟩ := (editText_faithful false "f" "old\n").1 texts typable [0x21]
  exact ⟨typable, by decide, by decide, (save (by decide)).1, (append (by decide)).1, (cancel [0x03] (by simp [givesUp])).1⟩

end TreeShell.Console
