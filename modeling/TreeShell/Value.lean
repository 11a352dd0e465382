import TreeShell.Assoc
import TreeShell.Number.Binary64
import TreeShell.Text.Quoted

/-! # Values

The values of the remote tree and of the records that the shell writes: nothing, truth values, numbers,
texts, lists and mappings. A mapping keeps its names in order of insertion. `Value.literal` shows a value
with the text quoted, `Value.plain` shows a text as it is.
-/

namespace TreeShell

/-- A value of the remote tree. -/
inductive Value where
  | null
  | bool (b : Bool)
  | int (n : Int)
  | real (x : Binary64)
  | text (s : String)
  | list (items : List Value)
  | mapping (entries : List (String × Value))
deriving Repr, Inhabited

/-- The named children of a mapping. -/
abbrev Entries := Assoc Value

namespace Value

mutual

/-- Whether two values are the same, names in the same order. -/
def same : Value → Value → Bool
  | .null, .null => true
  | .bool a, .bool b => a = b
  | .int a, .int b => a = b
  | .real a, .real b => a = b
  | .text a, .text b => a = b
  | .list a, .list b => sameItems a b
  | .mapping a, .mapping b => sameEntries a b
  | _, _ => false

def sameItems : List Value → List Value → Bool
  | [], [] => true
  | a :: as, b :: bs => same a b && sameItems as bs
  | _, _ => false

def sameEntries : List (String × Value) → List (String × Value) → Bool
  | [], [] => true
  | (m, a) :: as, (n, b) :: bs => (m = n) && same a b && sameEntries as bs
  | _, _ => false

end

mutual

theorem same_iff : (a b : Value) → (same a b = true ↔ a = b)
  | .null, b => by cases b <;> simp [same]
  | .bool _, b => by cases b <;> simp [same]
  | .int _, b => by cases b <;> simp [same]
  | .real _, b => by cases b <;> simp [same]
  | .text _, b => by cases b <;> simp [same]
  | .list as, b => by
    cases b with
    | list bs => simp [same, sameItems_iff as bs]
    | _ => simp [same]
  | .mapping as, b => by
    cases b with
    | mapping bs => simp [same, sameEntries_iff as bs]
    | _ => simp [same]

theorem sameItems_iff : (as bs : List Value) → (sameItems as bs = true ↔ as = bs)
  | [], bs => by cases bs <;> simp [sameItems]
  | a :: as, bs => by
    cases bs with
    | nil => simp [sameItems]
    | cons b bs => simp [sameItems, same_iff a b, sameItems_iff as bs]

theorem sameEntries_iff : (as bs : List (String × Value)) → (sameEntries as bs = true ↔ as = bs)
  | [], bs => by cases bs <;> simp [sameEntries]
  | (m, a) :: as, bs => by
    cases bs with
    | nil => simp [sameEntries]
    | cons e bs =>
      obtain ⟨n, b⟩ := e
      simp [sameEntries, same_iff a b, sameEntries_iff as bs, and_assoc]

end

instance : DecidableEq Value := fun a b =>
  decidable_of_iff _ (same_iff a b)

/-- Whether a value is a mapping. -/
def isMapping : Value → Bool
  | .mapping _ => true
  | _ => false

mutual

/-- A value with its texts between quotes. -/
def literal : Value → String
  | .null => "None"
  | .bool true => "True"
  | .bool false => "False"
  | .int n => toString n
  | .real x => x.text
  | .text s => Text.quoted s
  | .list items => "[" ++ ", ".intercalate (literals items) ++ "]"
  | .mapping entries => "\x7b" ++ ", ".intercalate (entryLiterals entries) ++ "\x7d"

def literals : List Value → List String
  | [] => []
  | v :: rest => literal v :: literals rest

def entryLiterals : List (String × Value) → List String
  | [] => []
  | (name, v) :: rest => (Text.quoted name ++ ": " ++ literal v) :: entryLiterals rest

end

/-- A value as text: a text is itself, all else is its literal. -/
def plain : Value → String
  | .text s => s
  | v => literal v

end Value

end TreeShell
