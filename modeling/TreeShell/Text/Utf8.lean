/-! # UTF-8

The encoder writes each character in one to four bytes. The decoder takes one byte at a time and drops
what is not well formed: a byte that cannot continue the sequence before it ends that sequence, which is
lost, and starts anew. Its state is the open sequence: the bits collected so far, how many bytes are
still missing, and the range that the next byte has to lie in, which excludes overlong forms,
surrogates and code points above `U+10FFFF`.
-/

namespace TreeShell.Utf8

/-- The bytes of a list of characters. -/
def encodeChars (cs : List Char) : List UInt8 :=
  cs.flatMap String.utf8EncodeChar

/-- The bytes of a text. -/
def encode (s : String) : List UInt8 :=
  encodeChars s.toList

/-- An open sequence. -/
structure Sequence where
  /-- The bits of the bytes seen. -/
  bits : Nat
  /-- The number of bytes still missing, at least one. -/
  missing : Nat
  /-- The least next byte. -/
  least : UInt8
  /-- The greatest next byte. -/
  greatest : UInt8
deriving DecidableEq, Repr

/-- The decoder between two bytes: no open sequence, or one. -/
abbrev Decoder := Option Sequence

/-- The sequence that a byte opens, if it is a leading byte. -/
def openWith (b : UInt8) : Decoder :=
  if 0xC2 ≤ b ∧ b ≤ 0xDF then some ⟨b.toNat % 0x20, 1, 0x80, 0xBF⟩
  else if b = 0xE0 then some ⟨b.toNat % 0x10, 2, 0xA0, 0xBF⟩
  else if b = 0xED then some ⟨b.toNat % 0x10, 2, 0x80, 0x9F⟩
  else if 0xE1 ≤ b ∧ b ≤ 0xEF then some ⟨b.toNat % 0x10, 2, 0x80, 0xBF⟩
  else if b = 0xF0 then some ⟨b.toNat % 0x08, 3, 0x90, 0xBF⟩
  else if b = 0xF4 then some ⟨b.toNat % 0x08, 3, 0x80, 0x8F⟩
  else if 0xF1 ≤ b ∧ b ≤ 0xF3 then some ⟨b.toNat % 0x08, 3, 0x80, 0xBF⟩
  else none

/-- A byte outside any sequence: an ASCII character, a leading byte, or nothing. -/
def start (b : UInt8) : Decoder × List Char :=
  if b < 0x80 then (none, [Char.ofNat b.toNat]) else (openWith b, [])

/-- Takes one byte and gives the characters that it completes. -/
def feed (d : Decoder) (b : UInt8) : Decoder × List Char :=
  match d with
  | none => start b
  | some s =>
    if s.least ≤ b ∧ b ≤ s.greatest then
      let bits := s.bits * 0x40 + b.toNat % 0x40
      if s.missing ≤ 1 then (none, [Char.ofNat bits])
      else (some ⟨bits, s.missing - 1, 0x80, 0xBF⟩, [])
    else start b

/-- The characters of a sequence of bytes that follows an open sequence. -/
def decodeFrom (d : Decoder) : List UInt8 → List Char
  | [] => []
  | b :: bs => (feed d b).2 ++ decodeFrom (feed d b).1 bs

/-- The characters of a sequence of bytes, ill-formed parts dropped. -/
def decode (bs : List UInt8) : List Char :=
  decodeFrom none bs

end TreeShell.Utf8
