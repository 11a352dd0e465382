/-! # Association lists by name

A finite map from names to values that remembers the order in which the names came. A new value for a
known name takes the place of the old one; a new name goes to the end. `get?_insert` and `get?_erase`
say what the two changes do to every name.
-/

namespace TreeShell

/-- Named values in the order of their first insertion. -/
abbrev Assoc (α : Type) := List (String × α)

namespace Assoc

variable {α β : Type}

/-- The value of a name. -/
def get? (entries : Assoc α) (name : String) : Option α :=
  List.lookup name entries

/-- Gives a name a value. -/
def insert (name : String) (value : α) : Assoc α → Assoc α
  | [] => [(name, value)]
  | (n, v) :: rest => if n = name then (n, value) :: rest else (n, v) :: insert name value rest

/-- Drops a name. -/
def erase (name : String) (entries : Assoc α) : Assoc α :=
  entries.filter fun e => e.1 ≠ name

/-- The names in order. -/
def names (entries : Assoc α) : List String :=
  entries.map (·.1)

/-- The map that a list of pairs builds when each is inserted in turn. -/
def ofPairs (pairs : List (String × α)) : Assoc α :=
  pairs.foldl (fun entries p => insert p.1 p.2 entries) []

@[simp]
theorem get?_nil (name : String) : get? ([] : Assoc α) name = none :=
  rfl

theorem get?_cons (n other : String) (v : α) (rest : Assoc α) :
    get? ((n, v) :: rest) other = if other = n then some v else get? rest other := by
  by_cases h : other = n
  · simp [get?, h]
  · have differs : (other == n) = false := by simpa using h
    simp [get?, List.lookup_cons, h, differs]

theorem get?_insert (name other : String) (value : α) (entries : Assoc α) :
    get? (insert name value entries) other = if other = name then some value else get? entries other := by
  induction entries with
  | nil => simp [insert, get?_cons]
  | cons e rest ih =>
    obtain ⟨n, v⟩ := e
    by_cases hn : n = name
    · subst hn
      by_cases h : other = n <;> simp [insert, get?_cons, h]
    · by_cases h : other = n
      · subst h
        simp [insert, get?_cons, hn]
      · simp [insert, get?_cons, hn, h, ih]

theorem get?_erase (name other : String) (entries : Assoc α) :
    get? (erase name entries) other = if other = name then none else get? entries other := by
  induction entries with
  | nil => simp [erase]
  | cons e rest ih =>
    obtain ⟨n, v⟩ := e
    by_cases hn : n = name
    · have dropped : erase name ((n, v) :: rest) = erase name rest := by simp [erase, hn]
      rw [dropped, ih, get?_cons, hn]
      by_cases h : other = name <;> simp [h]
    · have kept : erase name ((n, v) :: rest) = (n, v) :: erase name rest := by simp [erase, hn]
      rw [kept, get?_cons, get?_cons, ih]
      by_cases h : other = n
      · simp [h, hn]
      · simp [h]

end Assoc

end TreeShell
