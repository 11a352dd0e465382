import TreeShell.Assoc

/-! # Membership and order in association lists

A look-up and membership agree when no name comes twice (`get?_eq_some_iff`). The changes keep names
distinct, and everything in a changed list was there before or has just been put in. Replacing every
value by a function of its name and itself commutes with look-ups and changes (`adapt`).
-/

namespace TreeShell.Assoc

variable {α β γ : Type} {entries : Assoc α} {name : String} {value : α}

theorem mem_of_get? (found : get? entries name = some value) : (name, value) ∈ entries := by
  induction entries with
  | nil => simp at found
  | cons e rest ih =>
    obtain ⟨n, v⟩ := e
    rw [get?_cons] at found
    split at found
    · next same =>
      cases found
      simp [same]
    · exact List.mem_cons_of_mem _ (ih found)

theorem mem_names_of_mem {e : String × α} (member : e ∈ entries) : e.1 ∈ names entries :=
  List.mem_map_of_mem member

theorem get?_eq_none_iff : get? entries name = none ↔ name ∉ names entries := by
  induction entries with
  | nil => simp [names]
  | cons e rest ih =>
    obtain ⟨n, v⟩ := e
    by_cases same : name = n
    · simp [get?_cons, names, same]
    · rw [get?_cons, if_neg same, ih]
      simp [names, same]

theorem get?_eq_some_iff (distinct : (names entries).Nodup) :
    get? entries name = some value ↔ (name, value) ∈ entries := by
  refine ⟨mem_of_get?, fun member => ?_⟩
  induction entries with
  | nil => simp at member
  | cons e rest ih =>
    obtain ⟨n, v⟩ := e
    have parts := List.nodup_cons.mp (show (n :: names rest).Nodup from distinct)
    rw [get?_cons]
    rcases List.mem_cons.mp member with same | later
    · cases same
      simp
    · have differs : name ≠ n := by
        rintro rfl
        exact parts.1 (mem_names_of_mem later)
      rw [if_neg differs]
      exact ih parts.2 later

theorem names_insert (name : String) (value : α) (entries : Assoc α) :
    names (insert name value entries) =
      if name ∈ names entries then names entries else names entries ++ [name] := by
  induction entries with
  | nil => simp [insert, names]
  | cons e rest ih =>
    obtain ⟨n, v⟩ := e
    by_cases same : n = name
    · simp [insert, names, same]
    · have differs : ¬ name = n := fun h => same h.symm
      simp only [names, List.map_cons, List.mem_cons, insert, if_neg same, differs, false_or] at ih ⊢
      rw [ih]
      split <;> simp only [*, ↓reduceIte, List.cons_append]

theorem nodup_insert (name : String) (value : α) (distinct : (names entries).Nodup) :
    (names (insert name value entries)).Nodup := by
  rw [names_insert]
  split
  · exact distinct
  · next absent =>
    rw [List.nodup_append]
    refine ⟨distinct, by simp, ?_⟩
    rintro a member b last rfl
    exact absent (List.mem_singleton.mp last ▸ member)

theorem nodup_erase (name : String) (distinct : (names entries).Nodup) :
    (names (erase name entries)).Nodup :=
  distinct.sublist (List.filter_sublist.map _)

theorem mem_names_insert {other : String} (value : α) : other ∈ names (insert name value entries) ↔ other ∈ names entries ∨ other = name := by
  rw [names_insert]
  split
  · next known => exact ⟨.inl, fun h => h.elim id fun same => same ▸ known⟩
  · simp

theorem mem_names_erase {other : String} : other ∈ names (erase name entries) ↔ other ∈ names entries ∧ other ≠ name := by
  simp [names, erase, and_comm]

theorem insert_insert (name : String) (value later : α) (entries : Assoc α) :
    insert name later (insert name value entries) = insert name later entries := by
  induction entries with
  | nil => simp [insert]
  | cons e rest ih =>
    obtain ⟨n, v⟩ := e
    by_cases same : n = name
    · simp [insert, same]
    · simp only [insert, if_neg same, ih]

theorem erase_erase (name : String) (entries : Assoc α) : erase name (erase name entries) = erase name entries := by
  rw [erase, erase, List.filter_filter]
  simp

theorem erase_insert (name other : String) (value : α) (entries : Assoc α) :
    erase name (insert other value entries) =
      if other = name then erase name entries else insert other value (erase name entries) := by
  induction entries with
  | nil => by_cases same : other = name <;> simp [insert, erase, same]
  | cons e rest ih =>
    obtain ⟨n, v⟩ := e
    by_cases here : n = other
    · subst here
      by_cases same : n = name <;> simp [insert, erase, same]
    · by_cases dropped : n = name
      · subst dropped
        simpa [insert, erase, here, Ne.symm here] using ih
      · have first : erase name ((n, v) :: insert other value rest) = (n, v) :: erase name (insert other value rest) := by
          simp [erase, dropped]
        have kept : erase name ((n, v) :: rest) = (n, v) :: erase name rest := by simp [erase, dropped]
        rw [insert, if_neg here, first, ih, kept, insert, if_neg here]
        split <;> rfl

theorem mem_insert {e : String × α} (member : e ∈ insert name value entries) :
    e ∈ entries ∨ e = (name, value) := by
  induction entries with
  | nil => exact .inr (List.mem_singleton.mp member)
  | cons first rest ih =>
    obtain ⟨n, v⟩ := first
    rw [insert] at member
    split at member
    · next same =>
      rcases List.mem_cons.mp member with h | h
      · exact .inr (same ▸ h)
      · exact .inl (List.mem_cons_of_mem _ h)
    · rcases List.mem_cons.mp member with rfl | h
      · exact .inl (List.mem_cons_self ..)
      · exact (ih h).imp_left (List.mem_cons_of_mem _)

theorem mem_of_mem_erase {e : String × α} (member : e ∈ erase name entries) : e ∈ entries :=
  (List.mem_filter.mp member).1

/-- Whatever holds of the pairs holds of the map that they build. -/
theorem mem_ofPairs {pairs : List (String × α)} {e : String × α} (member : e ∈ ofPairs pairs) :
    e ∈ pairs := by
  suffices ∀ built : Assoc α, e ∈ pairs.foldl (fun entries p => insert p.1 p.2 entries) built →
      e ∈ built ∨ e ∈ pairs from (this [] member).resolve_left (List.not_mem_nil)
  clear member
  induction pairs with
  | nil => exact fun built member => .inl member
  | cons p rest ih =>
    intro built member
    rcases ih _ member with h | h
    · rcases mem_insert h with old | rfl
      · exact .inl old
      · exact .inr (List.mem_cons_self ..)
    · exact .inr (List.mem_cons_of_mem _ h)

theorem insert_of_not_mem (absent : name ∉ names entries) (value : α) :
    insert name value entries = entries ++ [(name, value)] := by
  induction entries with
  | nil => rfl
  | cons e rest ih =>
    obtain ⟨n, v⟩ := e
    have parts := not_or.mp (mt List.mem_cons.mpr (show name ∉ n :: names rest from absent))
    rw [insert, if_neg (Ne.symm parts.1), ih parts.2]
    rfl

/-- Pairs without a repeated name are the map that they build. -/
theorem ofPairs_of_nodup {pairs : List (String × α)} (distinct : (names pairs).Nodup) : ofPairs pairs = pairs := by
  suffices ∀ built : Assoc α, (names (built ++ pairs)).Nodup →
      pairs.foldl (fun entries p => insert p.1 p.2 entries) built = built ++ pairs from this [] distinct
  clear distinct
  induction pairs with
  | nil => exact fun built _ => (List.append_nil built).symm
  | cons p rest ih =>
    intro built distinct
    rw [List.append_cons] at distinct ⊢
    have absent : p.1 ∉ names built := by
      simp only [names, List.map_append, List.map_cons, List.map_nil] at distinct
      have front := (List.nodup_append.mp distinct).1
      rw [List.nodup_append] at front
      exact fun member => front.2.2 p.1 member p.1 (by simp) rfl
    rw [List.foldl_cons, insert_of_not_mem absent]
    exact ih _ distinct

theorem nodup_ofPairs (pairs : List (String × α)) : (names (ofPairs pairs)).Nodup := by
  suffices ∀ built : Assoc α, (names built).Nodup →
      (names (pairs.foldl (fun entries p => insert p.1 p.2 entries) built)).Nodup from this [] .nil
  induction pairs with
  | nil => exact fun built distinct => distinct
  | cons p rest ih => exact fun built distinct => ih _ (nodup_insert p.1 p.2 distinct)

theorem mem_names_ofPairs {pairs : List (String × α)} {name : String} :
    name ∈ names (ofPairs pairs) ↔ name ∈ names pairs := by
  suffices ∀ built : Assoc α, name ∈ names (pairs.foldl (fun entries p => insert p.1 p.2 entries) built) ↔
      name ∈ names built ∨ name ∈ names pairs from (this []).trans (by simp [names])
  induction pairs with
  | nil => simp [names]
  | cons p rest ih =>
    intro built
    rw [List.foldl_cons, ih, mem_names_insert, or_assoc]
    simp [names]

/-- Every value replaced by a function of its name and itself. -/
def adapt (f : String → α → β) (entries : Assoc α) : Assoc β :=
  entries.map fun e => (e.1, f e.1 e.2)

@[simp] theorem adapt_cons (f : String → α → β) (n : String) (v : α) (rest : Assoc α) :
    adapt f ((n, v) :: rest) = (n, f n v) :: adapt f rest := rfl

theorem adapt_adapt (f : String → α → β) (g : String → β → γ) (entries : Assoc α) :
    adapt g (adapt f entries) = adapt (fun n v => g n (f n v)) entries := by
  simp [adapt]

@[simp] theorem names_adapt (f : String → α → β) (entries : Assoc α) :
    names (adapt f entries) = names entries := by
  simp [names, adapt]

theorem get?_adapt (f : String → α → β) (entries : Assoc α) (name : String) :
    get? (adapt f entries) name = (get? entries name).map (f name) := by
  induction entries with
  | nil => rfl
  | cons e rest ih =>
    obtain ⟨n, v⟩ := e
    rw [adapt_cons, get?_cons, get?_cons, ih]
    split
    · next same => simp [same]
    · rfl

theorem adapt_insert (f : String → α → β) (name : String) (value : α) (entries : Assoc α) :
    adapt f (insert name value entries) = insert name (f name value) (adapt f entries) := by
  induction entries with
  | nil => rfl
  | cons e rest ih =>
    obtain ⟨n, v⟩ := e
    rw [adapt_cons, insert, insert]
    split
    · next same => simp [same]
    · rw [adapt_cons, ih]

theorem adapt_erase (f : String → α → β) (name : String) (entries : Assoc α) :
    adapt f (erase name entries) = erase name (adapt f entries) := by
  induction entries with
  | nil => rfl
  | cons e rest ih =>
    obtain ⟨n, v⟩ := e
    simp only [erase, adapt_cons, List.filter_cons] at ih ⊢
    split
    · rw [adapt_cons, ih]
    · exact ih

/-- A map that is built from pairs can be adapted before it is built. -/
theorem adapt_ofPairs (f : String → α → β) (pairs : List (String × α)) :
    adapt f (ofPairs pairs) = ofPairs (adapt f pairs) := by
  suffices ∀ built : Assoc α, adapt f (pairs.foldl (fun entries p => insert p.1 p.2 entries) built) =
      (adapt f pairs).foldl (fun entries p => insert p.1 p.2 entries) (adapt f built) from this []
  induction pairs with
  | nil => exact fun _ => rfl
  | cons p rest ih =>
    intro built
    rw [List.foldl_cons, ih, adapt_insert]
    rfl

end TreeShell.Assoc
