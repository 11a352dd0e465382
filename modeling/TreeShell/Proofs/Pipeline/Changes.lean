import TreeShell.Proofs.SessionIsolation

/-! # Changes of the working directory

A `cd` enters a directory and then remembers it, so every change of the working directory that a line makes is remembered at
once, but for the one at which the store has failed the line (`Program.Travels.paired`). `Act.changes` lists the changes
among some acts, each with whether it was remembered, and these alone settle what the working directory is and what the store
remembers (`Change.Settle.paired`).
-/

namespace TreeShell

open Program (Leads)

/-- A change of the working directory, and whether the store remembers it. -/
structure Change where
  path : String
  kept : Bool
deriving DecidableEq

/-- The changes of the working directory of an identity among some acts. One is kept if the directory is remembered next. -/
def Act.changes (identity : String) : List Act → List Change
  | [] => []
  | .entered path :: rest => ⟨path, decide (rest.head? = some (.remembers identity path))⟩ :: changes identity rest
  | _ :: rest => changes identity rest

/-- Whether every directory that is entered in some acts is remembered next, and nothing else is. -/
inductive Act.Paired (identity : String) : List Act → Prop
  | nil : Paired identity []
  | plain {a : Act} {later : List Act} (plain : a.IsPlain) (paired : Paired identity later) : Paired identity (a :: later)
  | visit {path : String} {later : List Act} (paired : Paired identity later) :
    Paired identity (.entered path :: .remembers identity path :: later)

namespace Act

variable {identity cwd path : String} {acts before now : List Act}

theorem changes_plain {a : Act} (plain : a.IsPlain) (later : List Act) :
    changes identity (a :: later) = changes identity later := by
  cases a with
  | entered path => exact plain.elim
  | _ => rfl

theorem changes_visit (path : String) (later : List Act) :
    changes identity (.entered path :: .remembers identity path :: later) = ⟨path, true⟩ :: changes identity later := by
  simp [changes, remembers]

/-- A change at the end is not kept, and those before it are as they were. -/
theorem changes_concat_entered (path : String) (paired : Paired identity acts) :
    changes identity (acts ++ [.entered path]) = changes identity acts ++ [⟨path, false⟩] := by
  induction paired with
  | nil => rfl
  | plain plain _ ih => rw [List.cons_append, changes_plain plain, changes_plain plain, ih]
  | visit _ ih => rw [List.cons_append, List.cons_append, changes_visit, changes_visit, ih, List.cons_append]

theorem Paired.append_plain (plain : ∀ a ∈ before, a.IsPlain) (paired : Paired identity now) :
    Paired identity (before ++ now) := by
  induction before with
  | nil => exact paired
  | cons a rest ih =>
    obtain ⟨first, later⟩ := List.forall_mem_cons.mp plain
    exact .plain first (ih later)

/-- Where nothing is cut off from the directory that it remembers, the rest of paired acts is paired. -/
theorem Paired.of_append (paired : Paired identity (before ++ now))
    (begins : before ≠ [] → ∀ path, now.head? ≠ some (.remembers identity path)) : Paired identity now := by
  generalize whole : before ++ now = acts at paired
  induction paired generalizing before with
  | nil => exact (List.append_eq_nil_iff.mp whole).2 ▸ .nil
  | @plain a later plain paired ih =>
    rcases List.append_eq_cons_iff.mp whole with ⟨rfl, rfl⟩ | ⟨before, rfl, rest⟩
    · exact .plain plain paired
    · exact ih (fun _ => begins (List.cons_ne_nil _ _)) rest.symm
  | @visit path later paired ih =>
    rcases List.append_eq_cons_iff.mp whole with ⟨rfl, rfl⟩ | ⟨before, rfl, rest⟩
    · exact .visit paired
    · rcases List.append_eq_cons_iff.mp rest.symm with ⟨rfl, rfl⟩ | ⟨before, rfl, others⟩
      · exact absurd rfl (begins (List.cons_ne_nil _ _) path)
      · exact ih (fun _ => begins (List.cons_ne_nil _ _)) others.symm

theorem kept_of_paired (paired : Paired identity acts) : ∀ change ∈ changes identity acts, change.kept = true := by
  induction paired with
  | nil => exact List.forall_mem_nil _
  | plain plain _ ih => rwa [changes_plain plain]
  | visit _ ih =>
    rw [changes_visit]
    exact List.forall_mem_cons.mpr ⟨rfl, ih⟩

end Act

theorem Journey.paired {identity cwd : String} {acts : List Act} (goes : Journey identity cwd acts) :
    Act.Paired identity acts := by
  induction goes with
  | stay => exact .nil
  | act plain _ ih => exact .plain plain ih
  | visit visit _ ih => exact .append_plain visit.plain (.visit ih)

/-- What a line goes on to do, from its start or from a prompt, is paired, unless it ends where the directory that it has
entered last is to be remembered. -/
theorem Program.Travels.paired {identity cwd : String} {p q : Program String} {before now : List Act}
    (travels : p.Travels identity) (leads : Leads cwd p (before ++ now) q)
    (begins : before ≠ [] → ∃ prompt answer rest, now = .asked prompt answer :: rest) :
    Act.Paired identity now ∨ ∃ path front next, now = front ++ [.entered path] ∧ Act.Paired identity front ∧
      q = .call (.set (Key.cwd identity) (.text path)) next := by
  rcases travels cwd _ q leads with goes | ⟨path, past, looks, next, whole, arrival, left⟩
  · refine .inl (goes.paired.of_append fun some path => ?_)
    obtain ⟨prompt, answer, rest, rfl⟩ := begins some
    exact nofun
  · right
    have goes := (arrival.goes.append (.of_plain arrival.visit.plain _)).paired
    rw [← List.append_assoc] at whole
    rcases now.eq_nil_or_concat with rfl | ⟨front, last, rfl⟩
    · cases before with
      | nil => simp at whole
      | cons a rest =>
        obtain ⟨prompt, answer, rest, absurd⟩ := begins (List.cons_ne_nil _ _)
        cases absurd
    · rw [List.concat_eq_append, ← List.append_assoc] at whole
      obtain ⟨front_eq, last_eq⟩ := List.append_inj' whole rfl
      obtain rfl := List.head_eq_of_cons_eq last_eq
      have both : Act.Paired identity (before ++ front) := front_eq ▸ goes
      refine ⟨path, front, next, List.concat_eq_append, both.of_append ?_, left⟩
      intro some other
      obtain ⟨prompt, answer, rest, now_eq⟩ := begins some
      cases front with
      | nil => exact nofun
      | cons a front =>
        obtain rfl := List.head_eq_of_cons_eq now_eq
        exact nofun

/-! ## What the changes settle -/

/-- Whether a working directory is the last one of some changes, and a value in the store the last one that was kept. -/
structure Change.Settle (changes : List Change) (cwd : String) (stored : Value) : Prop where
  entered : changes.getLast?.map (·.path) = some cwd
  remembered : (changes.filter (·.kept)).getLast?.map (Value.text ·.path) = some stored

namespace Change.Settle

variable {identity cwd path : String} {changes : List Change} {acts : List Act} {s : Store} {stored : Value}

theorem concat_kept (changes : List Change) (path : String) : Settle (changes ++ [⟨path, true⟩]) path (.text path) := by
  constructor <;> simp

theorem concat_lost (settle : Settle changes cwd stored) (path : String) :
    Settle (changes ++ [⟨path, false⟩]) path stored := by
  refine ⟨by simp, ?_⟩
  rw [List.filter_append]
  simpa using settle.remembered

/-- Paired acts go on as their changes say. -/
theorem paired (settle : Settle changes cwd (s.get (Key.cwd identity))) (paired : Act.Paired identity acts) :
    Settle (changes ++ Act.changes identity acts) (Act.cwdAfter cwd acts)
      ((s.after (Act.calls acts)).get (Key.cwd identity)) := by
  induction paired generalizing changes cwd s with
  | nil => rwa [Act.changes, List.append_nil]
  | @plain a later plain _ ih =>
    have same : (s.after (Act.calls [a])).get (Key.cwd identity) = s.get (Key.cwd identity) :=
      Store.get_cwd_of_plain (List.forall_mem_singleton.mpr plain) identity s
    have split : s.after (Act.calls (a :: later)) = (s.after (Act.calls [a])).after (Act.calls later) := by
      cases a <;> rfl
    rw [← same] at settle
    rw [Act.changes_plain plain, Journey.cwdAfter_act plain, split]
    exact ih settle
  | @visit path later _ ih =>
    have visited := concat_kept changes path
    have split : Act.calls (.entered path :: .remembers identity path :: later) =
        .set (Key.cwd identity) (.text path) :: Act.calls later := rfl
    rw [← Store.get_set_cwd s identity path] at visited
    rw [Act.changes_visit, List.append_cons, split, Store.after, List.foldl_cons]
    exact ih visited

/-- A change behind paired acts is lost. -/
theorem lost (settle : Settle changes cwd (s.get (Key.cwd identity))) (paired : Act.Paired identity acts) (path : String) :
    Settle (changes ++ Act.changes identity (acts ++ [.entered path])) (Act.cwdAfter cwd (acts ++ [.entered path]))
      ((s.after (Act.calls (acts ++ [.entered path]))).get (Key.cwd identity)) := by
  have silent : Act.calls (acts ++ [.entered path]) = Act.calls acts := by
    rw [Act.calls, List.filterMap_append]
    exact List.append_nil _
  rw [Act.changes_concat_entered path paired, ← List.append_assoc, Act.cwdAfter_append, silent]
  exact (settle.paired paired).concat_lost path

/-- The two agree exactly if the last change that was kept leads where the last change does. -/
theorem agree_iff (settle : Settle changes cwd stored) : stored = .text cwd ↔
    (changes.filter (·.kept)).getLast?.map (·.path) = changes.getLast?.map (·.path) := by
  obtain ⟨kept, last, rfl⟩ := Option.map_eq_some_iff.mp settle.remembered
  rw [settle.entered, last, Option.map_some, Option.some_inj, Value.text.injEq]

end Change.Settle

end TreeShell
