import TreeShell.Value

/-! # Reading values from JSON

The reader takes one value with blanks around it. Numbers without fraction and exponent are integers of
any size, all others are rounded to double precision; of two entries of one name the later value wins at
the place of the first. The names `NaN`, `Infinity` and `-Infinity` are read as numbers.
-/

namespace TreeShell.Json

/-- The blanks of JSON. -/
def isSpace (c : Char) : Bool :=
  c = ' ' || c = '\t' || c = '\n' || c = '\r'

/-- The text after its leading blanks. -/
def skipSpace (cs : List Char) : List Char :=
  cs.dropWhile isSpace

/-- The value of a hexadecimal digit. -/
def hexDigit? (c : Char) : Option Nat :=
  if '0' ≤ c ∧ c ≤ '9' then some (c.toNat - '0'.toNat)
  else if 'a' ≤ c ∧ c ≤ 'f' then some (c.toNat - 'a'.toNat + 10)
  else if 'A' ≤ c ∧ c ≤ 'F' then some (c.toNat - 'A'.toNat + 10)
  else none

/-- The UTF-16 unit of four hexadecimal digits. -/
def unit? (a b c d : Char) : Option Nat := do
  return (((← hexDigit? a) * 16 + (← hexDigit? b)) * 16 + (← hexDigit? c)) * 16 + (← hexDigit? d)

/-- The character of a backslash escape that is not a `\u` escape. -/
def simpleEscape? (c : Char) : Option Char :=
  match c with
  | '"' => some '"'
  | '\\' => some '\\'
  | '/' => some '/'
  | 'b' => some '\x08'
  | 'f' => some '\x0c'
  | 'n' => some '\n'
  | 'r' => some '\r'
  | 't' => some '\t'
  | _ => none

def isHighSurrogate (u : Nat) : Bool := 0xD800 ≤ u && u ≤ 0xDBFF

def isLowSurrogate (u : Nat) : Bool := 0xDC00 ≤ u && u ≤ 0xDFFF

/-- The character of a unit that is not part of a pair; a lone surrogate is replaced. -/
def loneUnit (u : Nat) : Char :=
  if 0xD800 ≤ u ∧ u ≤ 0xDFFF then '\uFFFD' else Char.ofNat u

/-- The rest of a string after its opening quote, with the text that follows it. -/
def readString : List Char → Option (List Char × List Char)
  | [] => none
  | '"' :: rest => some ([], rest)
  | '\\' :: 'u' :: a :: b :: c :: d :: rest => do
    let u ← unit? a b c d
    match rest with
    | '\\' :: 'u' :: e :: f :: g :: h :: rest' =>
      let v ← unit? e f g h
      if isHighSurrogate u && isLowSurrogate v then
        let (cs, after) ← readString rest'
        return (Char.ofNat (0x10000 + (u - 0xD800) * 0x400 + (v - 0xDC00)) :: cs, after)
      else
        let (cs, after) ← readString ('\\' :: 'u' :: e :: f :: g :: h :: rest')
        return (loneUnit u :: cs, after)
    | rest =>
      let (cs, after) ← readString rest
      return (loneUnit u :: cs, after)
  | '\\' :: e :: rest => do
    let c ← simpleEscape? e
    let (cs, after) ← readString rest
    return (c :: cs, after)
  | c :: rest => do
    let (cs, after) ← readString rest
    return (c :: cs, after)

/-- The digits at the start of a text. -/
def takeDigits (cs : List Char) : List Char × List Char :=
  (cs.takeWhile Char.isDigit, cs.dropWhile Char.isDigit)

/-- The number that decimal digits stand for. -/
def natOfDigits (ds : List Char) : Nat :=
  ds.foldl (fun n c => n * 10 + (c.toNat - '0'.toNat)) 0

/-- An exponent part, if one stands at the start of a text. -/
def readExponent (cs : List Char) : Option Int × List Char :=
  match cs with
  | e :: rest =>
    if e = 'e' ∨ e = 'E' then
      let (negative, unsigned) : Bool × List Char :=
        match rest with
        | '-' :: r => (true, r)
        | '+' :: r => (false, r)
        | r => (false, r)
      let (ds, after) := takeDigits unsigned
      if ds.isEmpty then (none, cs)
      else
        let n : Int := natOfDigits ds
        (some (if negative then -n else n), after)
    else (none, cs)
  | [] => (none, cs)

/-- A fraction part, if one stands at the start of a text. -/
def readFraction (cs : List Char) : Option (List Char) × List Char :=
  match cs with
  | '.' :: rest =>
    let (ds, after) := takeDigits rest
    if ds.isEmpty then (none, cs) else (some ds, after)
  | _ => (none, cs)

/-- A number without its sign. -/
def readNumber (negative : Bool) (cs : List Char) : Option (Value × List Char) :=
  let (whole, rest) := takeDigits cs
  if whole.isEmpty then none
  else
    let (fraction, rest) := readFraction rest
    let (exponent, rest) := readExponent rest
    if fraction.isNone && exponent.isNone then
      let n : Int := natOfDigits whole
      some (.int (if negative then -n else n), rest)
    else
      let places := fraction.getD []
      let scale : Int := exponent.getD 0 - places.length
      some (.real (Binary64.ofDecimal negative (natOfDigits (whole ++ places)) scale), rest)

/-- The text after a given word. -/
def afterWord? (word : String) (cs : List Char) : Option (List Char) :=
  if word.toList.isPrefixOf cs then some (cs.drop word.length) else none

/-- A value that is neither a string nor a list nor a mapping. -/
def readScalar (cs : List Char) : Option (Value × List Char) :=
  match cs with
  | '-' :: rest =>
    match afterWord? "Infinity" rest with
    | some after => some (.real (Binary64.infinity true), after)
    | none => readNumber true rest
  | _ =>
    (afterWord? "null" cs).map (Value.null, ·)
      <|> (afterWord? "true" cs).map (Value.bool true, ·)
      <|> (afterWord? "false" cs).map (Value.bool false, ·)
      <|> (afterWord? "NaN" cs).map (Value.real Binary64.nan, ·)
      <|> (afterWord? "Infinity" cs).map (Value.real (Binary64.infinity false), ·)
      <|> readNumber false cs

mutual

/-- A value at the start of a text, blanks before it skipped; the count bounds the nesting and the number
of items. -/
def readValue : Nat → List Char → Option (Value × List Char)
  | 0, _ => none
  | bound + 1, cs =>
    match skipSpace cs with
    | '"' :: rest => (readString rest).map fun (s, after) => (.text (String.ofList s), after)
    | '[' :: rest =>
      match skipSpace rest with
      | ']' :: after => some (.list [], after)
      | rest => (readItems bound rest).map fun (vs, after) => (.list vs, after)
    | '\x7b' :: rest =>
      match skipSpace rest with
      | '\x7d' :: after => some (.mapping [], after)
      | rest => (readEntries bound rest).map fun (es, after) => (.mapping (Assoc.ofPairs es), after)
    | cs => readScalar cs

/-- The items of a list up to its closing bracket. -/
def readItems : Nat → List Char → Option (List Value × List Char)
  | 0, _ => none
  | bound + 1, cs => do
    let (v, rest) ← readValue bound cs
    match skipSpace rest with
    | ']' :: after => return ([v], after)
    | ',' :: rest =>
      let (vs, after) ← readItems bound rest
      return (v :: vs, after)
    | _ => none

/-- The entries of a mapping up to its closing brace. -/
def readEntries : Nat → List Char → Option (List (String × Value) × List Char)
  | 0, _ => none
  | bound + 1, cs =>
    match skipSpace cs with
    | '"' :: rest => do
      let (name, rest) ← readString rest
      match skipSpace rest with
      | ':' :: rest =>
        let (v, rest) ← readValue bound rest
        match skipSpace rest with
        | '\x7d' :: after => return ([(String.ofList name, v)], after)
        | ',' :: rest =>
          let (es, after) ← readEntries bound rest
          return ((String.ofList name, v) :: es, after)
        | _ => none
      | _ => none
    | _ => none

end

/-- The value that a text of JSON stands for. -/
def read? (s : String) : Option Value :=
  let cs := s.toList
  match readValue (cs.length + 1) cs with
  | some (v, rest) => if (skipSpace rest).isEmpty then some v else none
  | none => none

end TreeShell.Json
