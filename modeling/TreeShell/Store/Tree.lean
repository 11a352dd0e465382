import TreeShell.Value

/-! # Trees of mappings

The remote store holds one tree of mappings in which nothing and an empty mapping are the same. Pruning
drops both from a value at every depth. A place in the tree is a list of names; `find` looks it up, and
`put` changes it: a value replaces whatever stood there and turns texts and numbers on the way into
mappings, and deleting a value takes along the mappings that it leaves empty.
-/

namespace TreeShell

namespace Value

mutual

/-- A value without the nulls and empty mappings in it; null if nothing is left. -/
def prune : Value → Value
  | .mapping entries =>
    match pruneEntries entries with
    | [] => .null
    | e :: rest => .mapping (e :: rest)
  | v => v

/-- The entries whose values are left after pruning. -/
def pruneEntries : List (String × Value) → List (String × Value)
  | [] => []
  | (name, v) :: rest =>
    match prune v with
    | .null => pruneEntries rest
    | w => (name, w) :: pruneEntries rest

end

mutual

/-- Whether a value holds no null and no empty mapping at any depth. -/
def Canonical : Value → Prop
  | .null => False
  | .mapping entries => entries ≠ [] ∧ CanonicalEntries entries
  | _ => True

def CanonicalEntries : List (String × Value) → Prop
  | [] => True
  | (_, v) :: rest => Canonical v ∧ CanonicalEntries rest

end

/-- The value at a place below a value, null where there is none. -/
def find : Value → List String → Value
  | v, [] => v
  | .mapping entries, name :: place =>
    match Assoc.get? entries name with
    | some v => v.find place
    | none => .null
  | _, _ :: _ => .null

end Value

namespace Entries

/-- The entries of a value; none unless it is a mapping. -/
def ofValue : Value → Entries
  | .mapping entries => entries
  | _ => []

/-- Stores an entry, or drops it when the value is null or an empty mapping. -/
def store (name : String) (value : Value) (entries : Entries) : Entries :=
  match value with
  | .null => Assoc.erase name entries
  | .mapping [] => Assoc.erase name entries
  | v => Assoc.insert name v entries

/-- Puts a pruned value at a place: null deletes, and deleting below something that is not a mapping
changes nothing. At the empty place the value becomes the whole tree. -/
def put : List String → Value → Entries → Entries
  | [], value, _ => ofValue value
  | [name], value, entries => store name value entries
  | name :: next :: place, value, entries =>
    match Assoc.get? entries name, value with
    | some (.mapping below), value => store name (.mapping (put (next :: place) value below)) entries
    | _, .null => entries
    | _, value => store name (.mapping (put (next :: place) value [])) entries

end Entries

end TreeShell
