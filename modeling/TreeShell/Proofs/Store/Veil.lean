import TreeShell.Proofs.Assoc
import TreeShell.Proofs.Key.Components
import TreeShell.Proofs.Store.Lookup

/-! # Stores with the passwords hidden

`Store.blanked` replaces the text of every password by the empty text and leaves all else alone. Two
stores that are the same after blanking differ at most in passwords. Writing hides nothing that blanking
shows: blanking before a write makes no difference after it (`blanked_perform`), so equal calls keep two
such stores alike. Reading shows little: away from the passwords the same value, and everywhere a value
of the same outline.
-/

namespace TreeShell

namespace Value

/-- What a value is besides its texts: nothing, a scalar, or a mapping with names that hold mappings or
do not. -/
def outline : Value → Option (Option (Assoc Bool))
  | .null => none
  | .mapping entries => some (some (Assoc.adapt (fun _ v => v.isMapping) entries))
  | _ => some none

theorem outline_eq_none_iff {v : Value} : v.outline = none ↔ v = .null := by
  cases v <;> simp [outline]

theorem isMapping_of_outline {v w : Value} (same : v.outline = w.outline) : v.isMapping = w.isMapping := by
  cases v <;> cases w <;> simp_all [outline, isMapping]

theorem settle_of_outline {v w : Value} (same : v.outline = w.outline) :
    v.settle.outline = w.settle.outline := by
  have settled (v : Value) : v.settle.outline = if v.outline = some (some []) then none else v.outline := by
    cases v with
    | mapping entries => cases entries <;> simp [outline, settle, Assoc.adapt]
    | _ => simp [outline, settle]
  rw [settled, settled, same]

/-- A value with its text blanked out, if it is one. -/
def blank : Value → Value
  | .text _ => .text ""
  | v => v

/-- A mapping with each value changed by a function of its name; all else stays. -/
def adaptEntries (f : String → Value → Value) : Value → Value
  | .mapping entries => .mapping (Assoc.adapt f entries)
  | v => v

/-- A value changed at a place and nowhere else. -/
def adaptAt : List String → (Value → Value) → Value → Value
  | [], f => f
  | name :: place, f => adaptEntries fun n => if n = name then adaptAt place f else id

/-- A change of values that hides no structure: outlines stay, hiding twice is hiding once, and a write
below a value comes to the same whether the value was hidden before or not. -/
structure Veil (f : Value → Value) : Prop where
  outline_find : ∀ v place, ((f v).find place).outline = (v.find place).outline
  twice : ∀ v, f (f v) = f v
  write : ∀ next place value old,
    f (.mapping (Entries.put (next :: place) value (Entries.ofValue (f old)))) =
      f (.mapping (Entries.put (next :: place) value (Entries.ofValue old)))

namespace Veil

variable {f : Value → Value} {g : String → Value → Value}

theorem outline_eq (veil : Veil f) (v : Value) : (f v).outline = v.outline := by
  have here := veil.outline_find v []
  rwa [find_nil, find_nil] at here

theorem null (veil : Veil f) : f .null = .null :=
  outline_eq_none_iff.mp (veil.outline_eq .null)

theorem settle_eq_null_iff (veil : Veil f) (v : Value) : (f v).settle = .null ↔ v.settle = .null := by
  rw [← outline_eq_none_iff, ← outline_eq_none_iff, settle_of_outline (veil.outline_eq v)]

end Veil

theorem veil_id : Veil id :=
  ⟨fun _ _ => rfl, fun _ => rfl, fun _ _ _ _ => rfl⟩

theorem find_blank_cons (v : Value) (name : String) (place : List String) :
    v.blank.find (name :: place) = v.find (name :: place) := by
  cases v <;> rfl

theorem veil_blank : Veil blank where
  outline_find v place := by
    cases place with
    | nil => cases v <;> simp [blank, outline]
    | cons name place => rw [find_blank_cons]
  twice v := by cases v <;> rfl
  write next place value old := by
    have same : Entries.ofValue old.blank = Entries.ofValue old := by cases old <;> rfl
    rw [same]

end Value

namespace Entries

open Value

variable {g : String → Value → Value}

theorem store_eq (name : String) (value : Value) (entries : Entries) :
    store name value entries =
      if value.settle = .null then Assoc.erase name entries else Assoc.insert name value entries := by
  cases value with
  | mapping under => cases under <;> simp [store, settle]
  | _ => simp [store, settle]

theorem adapt_store (veil : ∀ n, Veil (g n)) (name : String) (value : Value) (entries : Entries) :
    Assoc.adapt g (store name value entries) = store name (g name value) (Assoc.adapt g entries) := by
  have kept := (veil name).settle_eq_null_iff value
  by_cases vanishes : value.settle = .null
  · rw [store_eq, store_eq, if_pos vanishes, if_pos (kept.mpr vanishes), Assoc.adapt_erase]
  · rw [store_eq, store_eq, if_neg vanishes, if_neg (mt kept.mp vanishes), Assoc.adapt_insert]

theorem adapt_twice (veil : ∀ n, Veil (g n)) (entries : Entries) :
    Assoc.adapt g (Assoc.adapt g entries) = Assoc.adapt g entries := by
  simp only [Assoc.adapt_adapt, (veil _).twice]

/-- Hiding values before a write makes no difference once they are hidden after it. -/
theorem adapt_put (veil : ∀ n, Veil (g n)) (place : List String) (value : Value) (entries : Entries) :
    Assoc.adapt g (put place value (Assoc.adapt g entries)) = Assoc.adapt g (put place value entries) := by
  cases place with
  | nil => rfl
  | cons name place =>
    cases place with
    | nil => rw [put, put, adapt_store veil, adapt_store veil, adapt_twice veil]
    | cons next place =>
      have child : (Assoc.get? (Assoc.adapt g entries) name).getD .null =
          g name ((Assoc.get? entries name).getD .null) := by
        rw [Assoc.get?_adapt]
        cases Assoc.get? entries name with
        | none => exact ((veil name).null).symm
        | some v => rfl
      have kind := isMapping_of_outline ((veil name).outline_eq ((Assoc.get? entries name).getD .null))
      rcases put_cons_cons name next place value entries with ⟨vanishes, scalar, same⟩ | ⟨takes, stored⟩
      · rcases put_cons_cons name next place value (Assoc.adapt g entries) with ⟨-, -, same'⟩ | ⟨takes, -⟩
        · rw [same, same', adapt_twice veil]
        · exact absurd ⟨vanishes, by rw [child, kind, scalar]⟩ takes
      · rcases put_cons_cons name next place value (Assoc.adapt g entries) with ⟨vanishes, scalar, -⟩ | ⟨-, stored'⟩
        · exact absurd ⟨vanishes, by rw [← kind, ← child, scalar]⟩ takes
        · rw [stored, stored', adapt_store veil, adapt_store veil, adapt_twice veil, child, (veil name).write]

end Entries

namespace Value

variable {f : Value → Value} {g : String → Value → Value}

theorem find_adaptEntries_cons {name : String} (null : g name .null = .null) (v : Value)
    (place : List String) : (adaptEntries g v).find (name :: place) = (g name (v.find [name])).find place := by
  cases v with
  | mapping entries =>
    rw [adaptEntries, find_mapping_cons, find_mapping_cons, find_nil, Assoc.get?_adapt]
    cases Assoc.get? entries name with
    | none => exact congrArg (fun v => v.find place) null.symm
    | some v => rfl
  | _ => simp [adaptEntries, find, null]

/-- Hiding the values of a mapping hides no structure if each of them is hidden so. -/
theorem veil_adaptEntries (veil : ∀ n, Veil (g n)) : Veil (adaptEntries g) where
  outline_find v place := by
    cases place with
    | nil =>
      cases v with
      | mapping entries =>
        have kinds (n : String) (v : Value) := isMapping_of_outline ((veil n).outline_eq v)
        simp only [find_nil, adaptEntries, outline, Assoc.adapt_adapt, kinds]
      | _ => rfl
    | cons name place =>
      rw [find_adaptEntries_cons (veil name).null, (veil name).outline_find, ← find_append]
      rfl
  twice v := by
    cases v with
    | mapping entries => exact congrArg mapping (Entries.adapt_twice veil entries)
    | _ => rfl
  write next place value old := by
    have same : Entries.ofValue (adaptEntries g old) = Assoc.adapt g (Entries.ofValue old) := by
      cases old <;> rfl
    rw [same, adaptEntries, Entries.adapt_put veil, adaptEntries]

theorem veil_adaptAt (veil : Veil f) (place : List String) : Veil (adaptAt place f) := by
  induction place with
  | nil => exact veil
  | cons name place ih =>
    refine veil_adaptEntries fun n => ?_
    split
    · exact ih
    · exact veil_id

theorem find_adaptAt_append (veil : Veil f) (place rest : List String) (v : Value) :
    (adaptAt place f v).find (place ++ rest) = (f (v.find place)).find rest := by
  induction place generalizing v with
  | nil => rw [find_nil]; rfl
  | cons name place ih =>
    have null := (veil_adaptAt veil place).null
    rw [adaptAt, List.cons_append, find_adaptEntries_cons (by simpa using null), if_pos rfl, ih, ← find_append]
    rfl

theorem find_adaptAt_apart (veil : Veil f) {place other : List String} (apart : Apart place other)
    (v : Value) : (adaptAt place f v).find other = v.find other := by
  induction place generalizing other v with
  | nil => exact absurd List.nil_prefix apart.1
  | cons name place ih =>
    have null := (veil_adaptAt veil place).null
    cases other with
    | nil => exact absurd List.nil_prefix apart.2
    | cons first other =>
      by_cases same : first = name
      · subst same
        rw [adaptAt, find_adaptEntries_cons (by simpa using null), if_pos rfl, ih (Apart.cons_iff.mp apart),
          ← find_append]
        rfl
      · rw [adaptAt, find_adaptEntries_cons (by simp [same]), if_neg same, id, ← find_append]
        rfl

end Value

namespace Store

open Key (passwordPlace)
open Value

/-- A store with the text of every password blanked out. -/
def blanked (s : Store) : Store :=
  ⟨Entries.ofValue (adaptAt passwordPlace (adaptEntries fun _ => blank) (.mapping s.root))⟩

theorem veil_passwords : Veil (adaptEntries fun _ => blank) :=
  veil_adaptEntries fun _ => veil_blank

/-- Blanking before a write makes no difference after it. -/
theorem blanked_put (s : Store) (place : List String) (value : Value) :
    (s.blanked.put place value).blanked = (s.put place value).blanked := by
  have veil (n : String) :
      Veil (if n = Key.treeRoot then adaptAt [Key.passwordDirectory] (adaptEntries fun _ => blank) else id) := by
    split
    · exact veil_adaptAt veil_passwords _
    · exact veil_id
  exact congrArg Store.mk (Entries.adapt_put veil place value.prune s.root)

theorem blanked_blanked (s : Store) : s.blanked.blanked = s.blanked := by
  have twice := (veil_adaptAt veil_passwords passwordPlace).twice (.mapping s.root)
  exact congrArg (fun v => (⟨Entries.ofValue v⟩ : Store)) twice

/-- Blanking before a call makes no difference after it. -/
theorem blanked_perform (s : Store) (call : StoreCall) :
    (s.blanked.perform call).2.blanked = (s.perform call).2.blanked := by
  cases call with
  | get key => exact blanked_blanked s
  | set key value => exact blanked_put s _ value
  | remove key => exact blanked_put s _ .null
  | update key pairs =>
    simp only [perform, update]
    -- on the way the two stores agree only after blanking
    suffices ∀ s t : Store, s.blanked = t.blanked →
        (pairs.foldl (fun s p => s.put (Key.components key ++ Key.components p.1) p.2) s).blanked =
          (pairs.foldl (fun s p => s.put (Key.components key ++ Key.components p.1) p.2) t).blanked from
      this _ _ (blanked_blanked s)
    induction pairs with
    | nil => exact fun _ _ alike => alike
    | cons p rest ih =>
      intro s t alike
      refine ih _ _ ?_
      rw [← blanked_put s, alike, blanked_put]

variable {s t : Store}

/-- The same call keeps two stores the same up to passwords. -/
theorem blanked_perform_congr (alike : s.blanked = t.blanked) (call : StoreCall) :
    (s.perform call).2.blanked = (t.perform call).2.blanked := by
  rw [← blanked_perform, alike, blanked_perform]

theorem find_blanked (s : Store) (place : List String) :
    s.blanked.find place =
      (Value.find (adaptAt passwordPlace (adaptEntries fun _ => blank) (.mapping s.root)) place).settle := by
  rw [find_eq_settle]
  rfl

/-- Wherever one looks, stores that are the same up to passwords show values of the same outline. -/
theorem outline_find_congr (alike : s.blanked = t.blanked) (place : List String) :
    (s.find place).outline = (t.find place).outline := by
  have kept (s : Store) : (s.blanked.find place).outline = (s.find place).outline := by
    rw [find_blanked, find_eq_settle]
    exact settle_of_outline ((veil_adaptAt veil_passwords _).outline_find _ place)
  rw [← kept s, alike, kept]

/-- Away from the passwords such stores show the same value. -/
theorem find_congr (alike : s.blanked = t.blanked) {place : List String} (apart : Apart passwordPlace place) :
    s.find place = t.find place := by
  have kept (s : Store) : s.blanked.find place = s.find place := by
    rw [find_blanked, find_eq_settle, find_adaptAt_apart veil_passwords apart]
  rw [← kept s, alike, kept]

/-- Where a password lies, such stores both show a text or the same value. -/
theorem blank_find_congr (alike : s.blanked = t.blanked) (entry : String) :
    (s.find (passwordPlace ++ [entry])).blank = (t.find (passwordPlace ++ [entry])).blank := by
  have commutes (v : Value) : v.blank.settle = v.settle.blank := by
    cases v with
    | mapping entries => cases entries <;> rfl
    | _ => rfl
  have kept (s : Store) :
      s.blanked.find (passwordPlace ++ [entry]) = (s.find (passwordPlace ++ [entry])).blank := by
    rw [find_blanked, find_eq_settle, find_adaptAt_append veil_passwords,
      find_adaptEntries_cons rfl, find_nil, Value.find_append, commutes]
  rw [← kept s, alike, kept]

end Store

end TreeShell
