import TreeShell.Text.Quoted
import TreeShell.Text.Utf8

/-! # Percent encoding

A text is written byte by byte in UTF-8; a byte that is not allowed as it is becomes `%` and its two
hexadecimal digits in upper case. Decoding takes every `%` with two such digits, in either case, for
the byte, and a byte sequence that is not UTF-8 loses its ill-formed parts.
-/

namespace TreeShell.Percent

/-- The characters of a key that stand for themselves in an address. -/
def isKept (c : Char) : Bool :=
  c.isAlphanum || "_.-~/@*".toList.contains c

/-- A hexadecimal digit in upper case. -/
def upperDigit (n : Nat) : Char :=
  if n < 10 then Char.ofNat (48 + n) else Char.ofNat (55 + n)

/-- One byte in written form. -/
def byteChars (b : UInt8) : List Char :=
  let c := Char.ofNat b.toNat
  if b < 0x80 ∧ isKept c then [c] else ['%', upperDigit (b.toNat / 16), upperDigit (b.toNat % 16)]

/-- The written form of a text. -/
def encode (s : String) : String :=
  String.ofList ((Utf8.encode s).flatMap byteChars)

/-- The value of a hexadecimal digit of either case. -/
def digit? (c : Char) : Option Nat :=
  if '0' ≤ c ∧ c ≤ '9' then some (c.toNat - 48)
  else if 'A' ≤ c ∧ c ≤ 'F' then some (c.toNat - 55)
  else if 'a' ≤ c ∧ c ≤ 'f' then some (c.toNat - 87)
  else none

/-- The byte of two hexadecimal digits. -/
def byte? (high low : Char) : Option UInt8 := do
  return UInt8.ofNat ((← digit? high) * 16 + (← digit? low))

/-- The bytes that a written form stands for. -/
def decodeBytes : List Char → List UInt8
  | '%' :: high :: low :: rest =>
    match byte? high low with
    | some b => b :: decodeBytes rest
    | none => String.utf8EncodeChar '%' ++ decodeBytes (high :: low :: rest)
  | c :: rest => String.utf8EncodeChar c ++ decodeBytes rest
  | [] => []

/-- The text that a written form stands for. -/
def decode (s : String) : String :=
  String.ofList (Utf8.decode (decodeBytes s.toList))

end TreeShell.Percent
