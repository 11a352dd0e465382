import TreeShell.Key
import TreeShell.Store.Tree

/-! # The tree store

The store answers four calls, each addressed by a key: read a value, write one, write several below a
key in one go, and delete. The empty components of a key do not count. A store keeps only pruned values,
so a directory exists exactly while it has a child.
-/

namespace TreeShell

/-- A call on the tree store. -/
inductive StoreCall where
  | get (key : String)
  | set (key : String) (value : Value)
  | update (key : String) (pairs : List (String × Value))
  | remove (key : String)
deriving DecidableEq, Repr

namespace StoreCall

/-- The key that a call is addressed to. -/
def key : StoreCall → String
  | .get key => key
  | .set key _ => key
  | .update key _ => key
  | .remove key => key

/-- The name of a call. -/
def method : StoreCall → String
  | .get _ => "get"
  | .set _ _ => "set"
  | .update _ _ => "update"
  | .remove _ => "remove"

end StoreCall

/-- A call on the store that failed, with the key it was addressed to. -/
structure StoreError where
  message : String
  key : String
deriving DecidableEq, Repr

/-- The content of a tree store. -/
structure Store where
  root : Entries
deriving DecidableEq, Repr, Inhabited

namespace Store

/-- The store without content. -/
def empty : Store := ⟨[]⟩

/-- The store that a value describes: its pruned entries. -/
def ofValue (v : Value) : Store :=
  ⟨Entries.ofValue v.prune⟩

/-- The value at a place; an empty tree holds nothing at its root. -/
def find (s : Store) (place : List String) : Value :=
  match (Value.mapping s.root).find place with
  | .mapping [] => .null
  | v => v

/-- Puts a value at a place. -/
def put (s : Store) (place : List String) (value : Value) : Store :=
  ⟨Entries.put place value.prune s.root⟩

/-- The value at a key. -/
def get (s : Store) (key : String) : Value :=
  s.find (Key.components key)

/-- Writes a value at a key; null deletes. -/
def set (s : Store) (key : String) (value : Value) : Store :=
  s.put (Key.components key) value

/-- Writes values at several keys below a key, one after the other. -/
def update (s : Store) (key : String) (pairs : List (String × Value)) : Store :=
  pairs.foldl (fun s p => s.put (Key.components key ++ Key.components p.1) p.2) s

/-- Deletes what is at a key. -/
def remove (s : Store) (key : String) : Store :=
  s.put (Key.components key) .null

/-- Answers a call: the value read, null for the other calls, and the content afterwards. -/
def perform (s : Store) : StoreCall → Value × Store
  | .get key => (s.get key, s)
  | .set key value => (.null, s.set key value)
  | .update key pairs => (.null, s.update key pairs)
  | .remove key => (.null, s.remove key)

end Store

end TreeShell
