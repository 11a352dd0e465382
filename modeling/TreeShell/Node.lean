import TreeShell.Key
import TreeShell.Store.Tree

/-! # Files and directories

What the store keeps at a path is a file or a directory. Every scalar is a file whose content is its
text, and a mapping is a directory whose names are the unescaped keys; when two keys stand for one name,
the later value wins at the place of the first. `Node.walk` lists all nodes below a directory, the
children of a directory before the directory itself.
-/

namespace TreeShell

/-- A node of the file tree. -/
inductive Node where
  | file (content : String)
  /-- The values of the children by their names. -/
  | directory (children : Entries)
deriving DecidableEq, Repr

namespace Node

/-- The children of a stored mapping by their names. -/
def childrenOf (entries : Entries) : Entries :=
  Assoc.ofPairs (entries.map fun e => (CodeTable.segment.unescape e.1, e.2))

/-- The node that a stored value stands for. -/
def ofValue? : Value → Option Node
  | .null => none
  | .mapping entries => some (.directory (childrenOf entries))
  | .bool true => some (.file "true")
  | .bool false => some (.file "false")
  | v => some (.file v.plain)

/-- The stored form of a node. -/
def toValue : Node → Value
  | .file content => .text content
  | .directory children =>
    .mapping (Assoc.ofPairs (children.map fun c => (CodeTable.segment.escape c.1, c.2)))

/-- Whether a node is a directory. -/
def isDirectory : Node → Bool
  | .directory _ => true
  | .file _ => false

/-- The names of the children of a node. -/
def names : Node → List String
  | .directory children => Assoc.names children
  | .file _ => []

/-- The child of a node with a name. -/
def child? : Node → String → Option Node
  | .directory children, name => (Assoc.get? children name).bind ofValue?
  | .file _, _ => none

/-- The listings of several children, last child first. -/
def joinListings (listings : Assoc (List (String × Option Node))) : List (String × Option Node) :=
  listings.reverse.flatMap (·.2)

mutual

/-- Every path at or below a path with its node, when the value at the path is given. -/
def listing (path : String) : Value → List (String × Option Node)
  | .mapping entries =>
    joinListings (Assoc.ofPairs (listings path entries)) ++ [(path, ofValue? (.mapping entries))]
  | v => [(path, ofValue? v)]

/-- The listings of the entries of a directory at a path, by the names of the children. -/
def listings (path : String) : List (String × Value) → List (String × List (String × Option Node))
  | [] => []
  | (key, v) :: rest =>
    (CodeTable.segment.unescape key, listing (Path.join path (CodeTable.segment.unescape key)) v) ::
      listings path rest

end

/-- Every path below the path of a directory with its node, children before their parents. -/
def walk (path : String) : Node → List (String × Option Node)
  | .file _ => []
  | .directory children =>
    (joinListings (children.map fun c => (c.1, listing (Path.join path c.1) c.2))).filter
      fun entry => entry.1 ≠ path

/-- Whether no entry of a listing comes after its parent. -/
def childrenFirst : List (String × Option Node) → Bool
  | [] => true
  | (path, _) :: rest => !(rest.any fun e => Path.parent e.1 = path) && childrenFirst rest

end Node

end TreeShell
