import TreeShell.Value

/-! # Writing values as JSON

A value is written in ASCII on one line: a blank follows each comma and each colon, mappings keep their
order, and characters outside the printable ASCII range are written as `\u` escapes of their UTF-16
units. Numbers that are not finite are written as `NaN`, `Infinity` and `-Infinity`.
-/

namespace TreeShell.Json

/-- The escape of one UTF-16 unit. -/
def unitEscape (unit : Nat) : List Char :=
  '\\' :: 'u' :: Text.hexPadded 4 unit

/-- One character inside a JSON string. -/
def escapedChar (c : Char) : List Char :=
  if c = '"' ∨ c = '\\' then ['\\', c]
  else if c = '\n' then ['\\', 'n']
  else if c = '\r' then ['\\', 'r']
  else if c = '\t' then ['\\', 't']
  else if c = '\x08' then ['\\', 'b']
  else if c = '\x0c' then ['\\', 'f']
  else if 0x20 ≤ c.toNat ∧ c.toNat ≤ 0x7E then [c]
  else if c.toNat ≤ 0xFFFF then unitEscape c.toNat
  else
    let high := 0xD800 + (c.toNat - 0x10000) / 0x400
    let low := 0xDC00 + (c.toNat - 0x10000) % 0x400
    unitEscape high ++ unitEscape low

/-- A text as a JSON string. -/
def stringChars (s : String) : List Char :=
  '"' :: s.toList.flatMap escapedChar ++ ['"']

/-- A double precision number as JSON. -/
def realText (x : Binary64) : String :=
  if x.isNaN then "NaN"
  else if x.isInfinite then (if x.isNegative then "-Infinity" else "Infinity")
  else x.finiteText

mutual

/-- The characters of a value. -/
def valueChars : Value → List Char
  | .null => "null".toList
  | .bool true => "true".toList
  | .bool false => "false".toList
  | .int n => (toString n).toList
  | .real x => (realText x).toList
  | .text s => stringChars s
  | .list [] => "[]".toList
  | .list (v :: rest) => '[' :: valueChars v ++ itemChars rest
  | .mapping [] => "\x7b\x7d".toList
  | .mapping ((name, v) :: rest) =>
    '\x7b' :: stringChars name ++ ':' :: ' ' :: valueChars v ++ entryChars rest

/-- The rest of a list after one of its items. -/
def itemChars : List Value → List Char
  | [] => [']']
  | v :: rest => ',' :: ' ' :: valueChars v ++ itemChars rest

/-- The rest of a mapping after one of its entries. -/
def entryChars : List (String × Value) → List Char
  | [] => ['\x7d']
  | (name, v) :: rest => ',' :: ' ' :: stringChars name ++ ':' :: ' ' :: valueChars v ++ entryChars rest

end

/-- A value as one line of JSON. -/
def write (v : Value) : String :=
  String.ofList (valueChars v)

end TreeShell.Json
