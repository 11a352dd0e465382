import TreeShell.Proofs.Assoc
import TreeShell.Store.Basic

/-! # What a write does to a look-up

`Entries.put` changes a tree at one place. Seen through `Value.find`, it does three things: at and below
the place the value appears (`find_put_below`), above it the change shows inside the mapping there
(`find_put_above`), and nowhere else does anything change (`find_put_apart`). The three laws hold for
every tree, so what a store reads after a write follows from the places alone.
-/

namespace TreeShell

/-- Whether neither of two places is above the other. -/
def Apart (place other : List String) : Prop :=
  ¬ place <+: other ∧ ¬ other <+: place

instance (place other : List String) : Decidable (Apart place other) :=
  inferInstanceAs (Decidable (_ ∧ _))

theorem Apart.symm {place other : List String} (apart : Apart place other) : Apart other place :=
  ⟨apart.2, apart.1⟩

theorem Apart.cons_iff {name : String} {place other : List String} :
    Apart (name :: place) (name :: other) ↔ Apart place other := by
  simp [Apart]

theorem apart_cons_of_ne {m n : String} {place other : List String} (differs : m ≠ n) :
    Apart (m :: place) (n :: other) := by
  constructor <;> simp [List.cons_prefix_cons, differs, differs.symm]

/-- Places that begin differently stay apart however they go on. -/
theorem Apart.append {place other : List String} (apart : Apart place other) (p q : List String) :
    Apart (place ++ p) (other ++ q) := by
  constructor
  · intro above
    rcases List.prefix_or_prefix_of_prefix ((List.prefix_append place p).trans above)
      (List.prefix_append other q) with h | h
    · exact apart.1 h
    · exact apart.2 h
  · intro above
    rcases List.prefix_or_prefix_of_prefix ((List.prefix_append other q).trans above)
      (List.prefix_append place p) with h | h
    · exact apart.2 h
    · exact apart.1 h

theorem Apart.append_left {place other : List String} (apart : Apart place other) (rest : List String) :
    Apart (place ++ rest) other := by
  have longer := apart.append rest []
  rwa [List.append_nil] at longer

theorem Apart.append_right {place other : List String} (apart : Apart place other) (rest : List String) :
    Apart place (other ++ rest) :=
  (apart.symm.append_left rest).symm

theorem apart_concat {place : List String} {m n : String} (differs : m ≠ n) :
    Apart (place ++ [m]) (place ++ [n]) := by
  constructor <;> simp [List.prefix_append_right_inj, differs, differs.symm]

/-- A place is above another, below it, or apart from it. -/
theorem prefix_or_apart (place other : List String) :
    (∃ rest, other = place ++ rest) ∨ (∃ name rest, place = other ++ name :: rest) ∨ Apart place other := by
  by_cases below : place <+: other
  · exact .inl (below.imp fun _ h => h.symm)
  · by_cases above : other <+: place
    · obtain ⟨rest, rfl⟩ := above
      cases rest with
      | nil => simp at below
      | cons name rest => exact .inr (.inl ⟨name, rest, rfl⟩)
    · exact .inr (.inr ⟨below, above⟩)

namespace Value

/-- A value as a look-up at the root shows it: an empty mapping is nothing. -/
def settle : Value → Value
  | .mapping [] => .null
  | v => v

@[simp] theorem settle_null : settle .null = .null := rfl

theorem settle_of_canonical {v : Value} (canonical : v.Canonical) : v.settle = v := by
  cases v with
  | mapping entries =>
    cases entries with
    | nil => simp [Canonical] at canonical
    | cons _ _ => rfl
  | _ => rfl

theorem settle_of_settle_ne_null {v : Value} (there : v.settle ≠ .null) : v.settle = v := by
  cases v with
  | mapping entries =>
    cases entries with
    | nil => exact absurd rfl there
    | cons _ _ => rfl
  | _ => rfl

@[simp] theorem find_nil (v : Value) : v.find [] = v := by
  cases v <;> rfl

@[simp] theorem find_null (place : List String) : find .null place = .null := by
  cases place <;> rfl

theorem find_mapping_cons (entries : Entries) (name : String) (place : List String) :
    find (.mapping entries) (name :: place) = ((Assoc.get? entries name).getD .null).find place := by
  rw [find]
  cases Assoc.get? entries name with
  | none => simp
  | some v => rfl

theorem mapping_or_scalar (v : Value) : (∃ entries, v = .mapping entries) ∨ v.isMapping = false := by
  cases v with
  | mapping entries => exact .inl ⟨entries, rfl⟩
  | _ => exact .inr rfl

/-- Only a mapping has anything below it. -/
theorem find_cons_of_not_mapping {v : Value} (scalar : v.isMapping = false) (name : String)
    (place : List String) : v.find (name :: place) = .null := by
  cases v with
  | mapping entries => simp [isMapping] at scalar
  | _ => rfl

theorem find_append (v : Value) (place rest : List String) :
    v.find (place ++ rest) = (v.find place).find rest := by
  induction place generalizing v with
  | nil => simp
  | cons name place ih =>
    cases v with
    | mapping entries => simp only [List.cons_append, find_mapping_cons, ih]
    | _ => simp [find]

theorem sizeOf_find_singleton_lt {v : Value} {name : String} (there : v.find [name] ≠ .null) :
    sizeOf (v.find [name]) < sizeOf v := by
  cases v with
  | mapping entries =>
    rw [find_mapping_cons, find_nil] at there ⊢
    cases found : Assoc.get? entries name with
    | none => simp [found] at there
    | some w =>
      have member := List.sizeOf_lt_of_mem (Assoc.mem_of_get? found)
      simp only [Prod.mk.sizeOf_spec, mapping.sizeOf_spec, Option.getD_some] at member ⊢
      omega
  | _ => exact absurd rfl there

/-- What stands below a value is smaller. -/
theorem sizeOf_find_lt {v : Value} {place : List String} (below : place ≠ []) (there : v.find place ≠ .null) :
    sizeOf (v.find place) < sizeOf v := by
  induction place generalizing v with
  | nil => exact absurd rfl below
  | cons name place ih =>
    have split : v.find (name :: place) = (v.find [name]).find place := v.find_append [name] place
    have above : v.find [name] ≠ .null := by
      intro gone
      rw [split, gone, find_null] at there
      exact there rfl
    have first := sizeOf_find_singleton_lt above
    rw [split] at there ⊢
    by_cases deeper : place = []
    · rwa [deeper, find_nil]
    · exact Nat.lt_trans (ih deeper there) first

/-- A value is not a part of itself. -/
theorem find_ne_self {v : Value} {place : List String} (below : place ≠ []) (there : v.find place ≠ .null) :
    v.find place ≠ v := by
  intro same
  have smaller := sizeOf_find_lt below there
  rw [same] at smaller
  omega

@[simp] theorem find_settle_cons (v : Value) (name : String) (place : List String) :
    v.settle.find (name :: place) = v.find (name :: place) := by
  cases v with
  | mapping entries => cases entries <;> rfl
  | _ => rfl

@[simp] theorem settle_settle (v : Value) : v.settle.settle = v.settle := by
  cases v with
  | mapping entries => cases entries <;> rfl
  | _ => rfl

end Value

namespace Entries

/-- Storing settles the value and leaves the other names alone. -/
theorem get?_store (name other : String) (value : Value) (entries : Entries) :
    (Assoc.get? (store name value entries) other).getD .null =
      if other = name then value.settle else (Assoc.get? entries other).getD .null := by
  cases value with
  | null => by_cases same : other = name <;> simp [store, Assoc.get?_erase, same]
  | mapping below =>
    cases below with
    | nil => by_cases same : other = name <;> simp [store, Assoc.get?_erase, same, Value.settle]
    | cons _ _ => by_cases same : other = name <;> simp [store, Assoc.get?_insert, same, Value.settle]
  | _ => by_cases same : other = name <;> simp [store, Assoc.get?_insert, same, Value.settle]

theorem find_store_same (name : String) (place : List String) (value : Value) (entries : Entries) :
    Value.find (.mapping (store name value entries)) (name :: place) = value.settle.find place := by
  rw [Value.find_mapping_cons, get?_store, if_pos rfl]

theorem find_store_other {name other : String} (differs : other ≠ name) (place : List String)
    (value : Value) (entries : Entries) :
    Value.find (.mapping (store name value entries)) (other :: place) =
      Value.find (.mapping entries) (other :: place) := by
  rw [Value.find_mapping_cons, get?_store, if_neg differs, Value.find_mapping_cons]

/-- What a write further down makes of the value on its way; anything but a mapping gives way to a new one. -/
def putUnder (place : List String) (value : Value) (old : Value) : Value :=
  if value = .null ∧ old.isMapping = false then old else .mapping (put place value (ofValue old))

/-- A write below the first name stores a changed child, or deletes what is not there. -/
theorem put_cons_cons (name next : String) (place : List String) (value : Value) (entries : Entries) :
    (value = .null ∧ ((Assoc.get? entries name).getD .null).isMapping = false ∧
      put (name :: next :: place) value entries = entries) ∨
    (¬ (value = .null ∧ ((Assoc.get? entries name).getD .null).isMapping = false) ∧
      put (name :: next :: place) value entries =
        store name (.mapping (put (next :: place) value (ofValue ((Assoc.get? entries name).getD .null)))) entries) := by
  cases found : Assoc.get? entries name with
  | none => cases value <;> simp [put, found, Value.isMapping, ofValue]
  | some old => cases old <;> cases value <;> simp [put, found, Value.isMapping, ofValue]

theorem find_ofValue (v : Value) (name : String) (place : List String) :
    Value.find (.mapping (ofValue v)) (name :: place) = v.find (name :: place) := by
  cases v with
  | mapping entries => rfl
  | _ => rfl

theorem ofValue_settle (v : Value) : ofValue v.settle = ofValue v := by
  cases v with
  | mapping entries => cases entries <;> rfl
  | _ => rfl

/-- At a place and below it stands the value that was put there. -/
theorem find_put_below (name : String) (place rest : List String) (value : Value) (entries : Entries) :
    Value.find (.mapping (put (name :: place) value entries)) (name :: place ++ rest) =
      value.settle.find rest := by
  induction place generalizing name entries with
  | nil => exact find_store_same name rest value entries
  | cons next place ih =>
    rcases put_cons_cons name next place value entries with ⟨rfl, scalar, same⟩ | ⟨-, stored⟩
    · rw [same, List.cons_append, Value.find_mapping_cons, List.cons_append,
        Value.find_cons_of_not_mapping scalar]
      simp
    · rw [stored, List.cons_append, find_store_same, List.cons_append, Value.find_settle_cons]
      exact ih next _

/-- Away from a place nothing changes. -/
theorem find_put_apart {place other : List String} (apart : Apart place other) (value : Value)
    (entries : Entries) :
    Value.find (.mapping (put place value entries)) other = Value.find (.mapping entries) other := by
  induction place generalizing other entries with
  | nil => exact absurd List.nil_prefix apart.1
  | cons name place ih =>
    cases other with
    | nil => exact absurd List.nil_prefix apart.2
    | cons first other =>
      by_cases differs : first = name
      · subst differs
        have tails := Apart.cons_iff.mp apart
        cases place with
        | nil => exact absurd List.nil_prefix tails.1
        | cons next place =>
          cases other with
          | nil => exact absurd List.nil_prefix tails.2
          | cons second other =>
            rcases put_cons_cons first next place value entries with ⟨-, -, same⟩ | ⟨-, stored⟩
            · rw [same]
            · rw [stored, find_store_same, Value.find_settle_cons, ih tails, find_ofValue,
                Value.find_mapping_cons]
      · cases place with
        | nil => exact find_store_other differs other value entries
        | cons next place =>
          rcases put_cons_cons name next place value entries with ⟨-, -, same⟩ | ⟨-, stored⟩
          · rw [same]
          · rw [stored, find_store_other differs]

/-- Above a place the value on the way takes the change in. -/
theorem find_put_above (name next : String) (place rest : List String) (value : Value) (entries : Entries) :
    Value.find (.mapping (put (name :: place ++ next :: rest) value entries)) (name :: place) =
      (putUnder (next :: rest) value (Value.find (.mapping entries) (name :: place))).settle := by
  induction place generalizing name entries with
  | nil =>
    have before : Value.find (.mapping entries) [name] = (Assoc.get? entries name).getD .null := by
      rw [Value.find_mapping_cons, Value.find_nil]
    rw [before]
    rcases put_cons_cons name next rest value entries with ⟨rfl, scalar, same⟩ | ⟨takes, stored⟩
    · rw [List.singleton_append, same, before, putUnder, if_pos ⟨rfl, scalar⟩]
      cases old : (Assoc.get? entries name).getD .null with
      | mapping below => simp [old, Value.isMapping] at scalar
      | _ => rfl
    · rw [List.singleton_append, stored, find_store_same, Value.find_nil, putUnder, if_neg takes]
  | cons second place ih =>
    rcases put_cons_cons name second (place ++ next :: rest) value entries with
      ⟨rfl, scalar, same⟩ | ⟨-, stored⟩
    · rw [List.cons_append, List.cons_append, same, Value.find_mapping_cons,
        Value.find_cons_of_not_mapping scalar]
      simp [putUnder, Value.isMapping]
    · rw [List.cons_append, List.cons_append, stored, find_store_same, Value.find_settle_cons]
      rw [← List.cons_append, ih, find_ofValue, ← Value.find_mapping_cons]

end Entries

namespace Store

variable {place other : List String}

theorem find_eq_settle (s : Store) (place : List String) :
    s.find place = ((Value.mapping s.root).find place).settle := by
  unfold find Value.settle
  rfl

/-- A look-up can be taken up again at what a shorter one found. -/
theorem find_append (s : Store) (place rest : List String) :
    s.find (place ++ rest) = ((s.find place).find rest).settle := by
  rw [find_eq_settle, find_eq_settle, Value.find_append]
  cases rest with
  | nil => rw [Value.find_nil, Value.find_nil, Value.settle_settle]
  | cons name rest => rw [Value.find_settle_cons]

/-- Away from the place of a write a store reads as before. -/
theorem find_put_apart (apart : Apart place other) (s : Store) (value : Value) :
    (s.put place value).find other = s.find other := by
  rw [find_eq_settle, find_eq_settle, put, Entries.find_put_apart apart]

/-- So it does away from the key of a call. -/
theorem find_perform_apart {call : StoreCall} (apart : Apart (Key.components call.key) other) (s : Store) :
    (s.perform call).2.find other = s.find other := by
  cases call with
  | get key => rfl
  | set key value => exact find_put_apart apart s value
  | update key pairs =>
    induction pairs generalizing s with
    | nil => rfl
    | cons p rest ih => exact (ih _ apart).trans (find_put_apart (apart.append_left _) s p.2)
  | remove key => exact find_put_apart apart s .null

/-- At the place of a write and below it a store reads what was written. -/
theorem find_put_below (notRoot : place ≠ []) (s : Store) (value : Value) (rest : List String) :
    (s.put place value).find (place ++ rest) = (value.prune.settle.find rest).settle := by
  obtain ⟨name, place, rfl⟩ := List.exists_cons_of_ne_nil notRoot
  rw [find_eq_settle, put, Entries.find_put_below]

/-- At the place of a write a store reads what is left of the value when it is pruned. -/
theorem find_put_same (notRoot : place ≠ []) (s : Store) (value : Value) :
    (s.put place value).find place = value.prune.settle := by
  have found := find_put_below notRoot s value []
  rwa [List.append_nil, Value.find_nil, Value.settle_settle] at found

end Store

end TreeShell
