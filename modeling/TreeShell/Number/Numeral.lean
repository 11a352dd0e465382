import TreeShell.Text.Blank

/-! # Whole numbers in text

A whole number is written with an optional sign and decimal digits, blanks around it and single
underscores between digits. Either every decimal digit of Unicode counts, or the ten of ASCII.
-/

namespace TreeShell.Numeral

/-- The zeros of the scripts with decimal digits other than ASCII; the other nine digits follow each of
them. -/
def furtherZeros : List Nat :=
  [0x660, 0x6f0, 0x7c0, 0x966, 0x9e6, 0xa66, 0xae6, 0xb66, 0xbe6, 0xc66, 0xce6, 0xd66, 0xde6, 0xe50,
    0xed0, 0xf20, 0x1040, 0x1090, 0x17e0, 0x1810, 0x1946, 0x19d0, 0x1a80, 0x1a90, 0x1b50, 0x1bb0, 0x1c40,
    0x1c50, 0xa620, 0xa8d0, 0xa900, 0xa9d0, 0xa9f0, 0xaa50, 0xabf0, 0xff10, 0x104a0, 0x10d30, 0x11066,
    0x110f0, 0x11136, 0x111d0, 0x112f0, 0x11450, 0x114d0, 0x11650, 0x116c0, 0x11730, 0x118e0, 0x11950,
    0x11c50, 0x11d50, 0x11da0, 0x16a60, 0x16ac0, 0x16b50, 0x1d7ce, 0x1d7d8, 0x1d7e2, 0x1d7ec, 0x1d7f6,
    0x1e140, 0x1e2f0, 0x1e950, 0x1fbf0]

/-- The value of a decimal digit of ASCII. -/
def asciiDigit? (c : Char) : Option Nat :=
  if c.isDigit then some (c.toNat - 0x30) else none

/-- The value of a decimal digit of any script. -/
def digit? (c : Char) : Option Nat :=
  asciiDigit? c <|>
    (furtherZeros.find? fun first => first ≤ c.toNat && c.toNat < first + 10).map (c.toNat - ·)

/-- The number that digits stand for, given the number read so far and whether a digit came last. -/
def readDigits (digit : Char → Option Nat) (value : Nat) (afterDigit : Bool) : List Char → Option Nat
  | [] => if afterDigit then some value else none
  | '_' :: rest => if afterDigit then readDigits digit value false rest else none
  | c :: rest => (digit c).bind fun d => readDigits digit (value * 10 + d) true rest

/-- The number that a sign and digits stand for. -/
def readSigned (digit : Char → Option Nat) : List Char → Option Int
  | '-' :: rest => (readDigits digit 0 false rest).map fun n => -(n : Int)
  | '+' :: rest => (readDigits digit 0 false rest).map Int.ofNat
  | cs => (readDigits digit 0 false cs).map Int.ofNat

/-- The most digits that a number may have. -/
def maxDigits : Nat := 4300

/-- The whole number that a text stands for, in digits of any script. -/
def read? (s : String) : Option Int :=
  let cs := Text.trimChars s.toList
  if (cs.filterMap digit?).length > maxDigits then none else readSigned digit? cs

/-- A text without a fraction that consists of zeros. -/
def dropZeroFraction (cs : List Char) : List Char :=
  let whole := cs.takeWhile (· ≠ '.')
  let fraction := (cs.dropWhile (· ≠ '.')).drop 1
  if fraction.all (· = '0') then whole else cs

/-- The whole number that a text of ASCII digits stands for; a fraction of zeros is allowed. -/
def readDecimal? (s : String) : Option Int :=
  readSigned asciiDigit? (dropZeroFraction (Text.trimChars s.toList))

end TreeShell.Numeral
