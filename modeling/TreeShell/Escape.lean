/-! # Code tables

A code table replaces single characters by words and leaves all other characters alone. Reading back
goes from left to right: where a code word begins, it stands for its character, and any other character
stands for itself. Two tables are in use: one for the segments of a path, and one for identities, where
a dot is written as a star so that mail addresses stay legible.
-/

namespace TreeShell

/-- A table of special characters with the word that each is written as. -/
structure CodeTable where
  /-- The special characters with their code words. -/
  codes : List (Char × List Char)
deriving DecidableEq, Repr

namespace CodeTable

/-- The written form of one character. -/
def word (t : CodeTable) (c : Char) : List Char :=
  (t.codes.lookup c).getD [c]

/-- The written form of a text. -/
def encode (t : CodeTable) (cs : List Char) : List Char :=
  cs.flatMap t.word

/-- The table entry whose code word the text begins with. -/
def match? (t : CodeTable) (cs : List Char) : Option (Char × List Char) :=
  t.codes.find? fun code => code.2.isPrefixOf cs

/-- Reads a text back, with the number of characters still covered by the last code word. -/
def decodeAfter (t : CodeTable) : Nat → List Char → List Char
  | _, [] => []
  | covered + 1, _ :: cs => t.decodeAfter covered cs
  | 0, c :: cs =>
    match t.match? (c :: cs) with
    | some (special, code) => special :: t.decodeAfter (code.length - 1) cs
    | none => c :: t.decodeAfter 0 cs

/-- The text that a written form stands for; a backslash that starts no code word is kept. -/
def decode (t : CodeTable) (cs : List Char) : List Char :=
  t.decodeAfter 0 cs

/-- The written form of a text. -/
def escape (t : CodeTable) (s : String) : String :=
  String.ofList (t.encode s.toList)

/-- The text that a written form stands for. -/
def unescape (t : CodeTable) (s : String) : String :=
  String.ofList (t.decode s.toList)

/-- Path segments: the characters that the store refuses inside a key are spelled out after a backslash,
and the backslash itself is doubled. -/
def segment : CodeTable where
  codes :=
    [('\\', "\\\\".toList), ('.', "\\period".toList), ('$', "\\dollar".toList), ('#', "\\hash".toList),
      ('[', "\\lbracket".toList), (']', "\\rbracket".toList), ('/', "\\slash".toList)]

/-- Identities: as for segments, but a dot becomes a star and the star is spelled out. -/
def identity : CodeTable where
  codes :=
    [('\\', "\\\\".toList), ('.', "*".toList), ('*', "\\star".toList), ('$', "\\dollar".toList),
      ('#', "\\hash".toList), ('[', "\\lbracket".toList), (']', "\\rbracket".toList),
      ('/', "\\slash".toList)]

example : segment.escape "a.b\\/c" = "a\\periodb\\\\\\slashc" := by decide
example : segment.unescape "\\\\period\\x" = "\\period\\x" := by decide
example : identity.escape "first.last@x*y" = "first*last@x\\stary" := by decide

end CodeTable

end TreeShell
