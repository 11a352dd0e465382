import TreeShell.Text.Blank

/-! # Paths

A path is a text. A resolved path is `/`, or a `/` before each of its segments, none of which is empty,
`.` or `..`. `Path.resolve` brings every text into that form against a working directory; the other
functions cut and glue paths at their slashes, and are defined on every text.
-/

namespace TreeShell.Path

/-- One segment of a walk, with the segments collected so far in reverse: empty segments and `.` stay,
`..` goes up and stops at the root. -/
def visit (trail : List String) (segment : String) : List String :=
  if segment = "" ∨ segment = "." then trail
  else if segment = ".." then trail.tail
  else segment :: trail

/-- The segments that a walk from the root along the given segments ends at. -/
def normalize (segments : List String) : List String :=
  (segments.foldl visit []).reverse

/-- The resolved path with the given segments. -/
def ofSegments (segments : List String) : String :=
  "/" ++ "/".intercalate segments

/-- The absolute path that a text names from a working directory; a text with a leading slash ignores
the directory. -/
def resolve (path cwd : String) : String :=
  let base := if Text.startsWith path "/" then "" else cwd
  ofSegments (normalize (Text.split '/' base ++ Text.split '/' path))

/-- The text before the last slash, `/` if that is empty; a text without a slash loses its last
character instead. -/
def parent (path : String) : String :=
  let cs := path.toList
  let before := if '/' ∈ cs then ((cs.reverse.dropWhile (· ≠ '/')).drop 1).reverse else cs.dropLast
  if before.isEmpty then "/" else String.ofList before

/-- The text after the last slash. -/
def name (path : String) : String :=
  String.ofList (path.toList.reverse.takeWhile (· ≠ '/')).reverse

/-- The path of a child of a directory. -/
def join (parent name : String) : String :=
  if parent = "/" then "/" ++ name else parent ++ "/" ++ name

/-- The segments of a path from the root down; the first character is taken for the leading slash. -/
def segments (path : String) : List String :=
  if path = "/" then [] else Text.split '/' (String.ofList (path.toList.drop 1))

/-- Whether a path is another one or lies below it. -/
def isWithin (path ancestor : String) : Bool :=
  ancestor = "/" || path = ancestor || Text.startsWith path (ancestor ++ "/")

/-- A path and its parents up to the root, which is left out, at most a given number of them. -/
def climb : Nat → String → List String
  | 0, _ => []
  | steps + 1, path => if path = "/" then [] else path :: climb steps (parent path)

/-- The proper ancestors of a path other than the root, nearest first. -/
def ancestors (path : String) : List String :=
  climb (segments path).length (parent path)

/-- A text that `resolve` leaves alone: `/`, or slash-led segments none of which is empty, `.` or `..`. -/
def IsResolved (path : String) : Prop :=
  ∃ segs : List String, (∀ s ∈ segs, s ≠ "" ∧ s ≠ "." ∧ s ≠ ".." ∧ '/' ∉ s.toList) ∧
    path = ofSegments segs

end TreeShell.Path
