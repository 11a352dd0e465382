import Mathlib.Algebra.GroupWithZero.Nat
import Mathlib.Data.List.Perm.Basic
import TreeShell.Proofs.AuditTrail
import TreeShell.Proofs.Text.Sorted

/-! # What the audit reports show

The tables of the audit database only grow: a call that writes to an open database adds at most one row at the end of the
commands or of the elevations, or is refused and logged (`AuditCall.perform_of_open`), so after any calls these tables are
those of before and what the calls have added, in order (`AuditDatabase.after_of_open`). The reports read this history
newest first, and the commands also counted (`AuditDatabase.Tallies`).
-/

namespace TreeShell

namespace AuditTables

/-- Whether tables are open and hold the rows of others and then some more in the commands and the elevations. -/
structure ContinuesTo (t t' : AuditTables) (rows : List CommandRow) (checks : List (String × Bool)) : Prop where
  opened : t'.closed = false
  commands : t'.commands = (t.extend rows checks).commands
  elevations : t'.elevations = (t.extend rows checks).elevations

namespace ContinuesTo

variable {t t' t'' : AuditTables} {rows rows' : List CommandRow} {checks checks' : List (String × Bool)}

theorem refl (opened : t.closed = false) : t.ContinuesTo t [] [] :=
  ⟨opened, by rw [t.extend_nil], by rw [t.extend_nil]⟩

theorem withSessions (continues : t.ContinuesTo t' rows checks) (sessions : List SessionRow) :
    t.ContinuesTo { t' with sessions := sessions } rows checks :=
  ⟨continues.opened, continues.commands, continues.elevations⟩

theorem trans (first : t.ContinuesTo t' rows checks) (second : t'.ContinuesTo t'' rows' checks') :
    t.ContinuesTo t'' (rows ++ rows') (checks ++ checks') := by
  refine ⟨second.opened, ?_, ?_⟩
  · rw [second.commands, ← t.extend_extend, extend, extend, first.commands]
  · rw [second.elevations, ← t.extend_extend, extend, extend, first.elevations]

end ContinuesTo

end AuditTables

namespace AuditDatabase

variable {t t' : AuditTables} {statement : String} {apply : AuditTables → Except AuditError AuditTables}

theorem change_of_ok (opened : t.closed = false) (done : apply t = .ok t') :
    (enabled t).change statement apply = (enabled t', []) := by
  rw [change, if_neg (Bool.eq_false_iff.mp opened), done]

theorem change_of_error {error : AuditError} (opened : t.closed = false) (fails : apply t = .error error) :
    (enabled t).change statement apply = (enabled t, [.databaseRefused error.message statement]) := by
  rw [change, if_neg (Bool.eq_false_iff.mp opened), fails]

theorem change_of_closed (closed : t.closed = true) :
    (enabled t).change statement apply = (enabled t, [.databaseRefused AuditError.closed.message statement]) := by
  rw [change, if_pos closed]

end AuditDatabase

/-- A call that writes to the audit database. -/
inductive AuditCall where
  | insertSession (identity source : Option String)
  | closeSession (identity : Option String)
  | insertCommand (identity command : Option String) (elevated : Bool)
  | insertElevation (identity : Option String) (success : Bool)
deriving DecidableEq, Repr

namespace AuditCall

open AuditDatabase (change_of_ok change_of_error change_of_closed)

/-- Carries out a call. -/
def perform (db : AuditDatabase) : AuditCall → AuditDatabase × List Event
  | .insertSession identity source => db.insertSession identity source
  | .closeSession identity => db.closeSession identity
  | .insertCommand identity command elevated => db.insertCommand identity command elevated
  | .insertElevation identity success => db.insertElevation identity success

/-- The statement that a call has carried out. -/
def statement : AuditCall → String
  | .insertSession .. => "INSERT INTO sessions (identity, source) VALUES (?, ?)"
  | .closeSession .. =>
    "UPDATE sessions SET disconnected_at = datetime('now') " ++
      "WHERE identity = ? AND disconnected_at IS NULL"
  | .insertCommand .. => "INSERT INTO commands (identity, command, elevated) VALUES (?, ?, ?)"
  | .insertElevation .. => "INSERT INTO elevations (identity, success) VALUES (?, ?)"

/-- The table into which a call would insert a row without an identity. -/
def nameless? : AuditCall → Option String
  | .insertSession none _ => some "sessions"
  | .insertCommand none _ _ => some "commands"
  | .insertElevation none _ => some "elevations"
  | _ => none

/-- What is logged of a call that is refused for want of an identity. -/
def refusal? (c : AuditCall) : Option Event :=
  c.nameless?.map fun table => .databaseRefused ("NOT NULL constraint failed: " ++ table ++ ".identity") c.statement

/-- The row that a call adds to the commands. -/
def command? : AuditCall → Option CommandRow
  | .insertCommand (some identity) command elevated => some ⟨identity, command, elevated⟩
  | _ => none

/-- What a call adds to the elevations: whose check it was, and its outcome. -/
def elevation? : AuditCall → Option (String × Bool)
  | .insertElevation (some identity) success => some (identity, success)
  | _ => none

variable {t : AuditTables}

/-- A call is one statement. Without an identity it fails; else it is carried out and adds its row, if it has one. -/
theorem perform_eq_change (c : AuditCall) (db : AuditDatabase) :
    ∃ apply, c.perform db = db.change c.statement apply ∧ ∀ t, t.closed = false →
      (∃ table, c.nameless? = some table ∧ apply t = .error (.missingIdentity table) ∧
        c.command? = none ∧ c.elevation? = none) ∨
      c.nameless? = none ∧ ∃ t', apply t = .ok t' ∧ t.ContinuesTo t' c.command?.toList c.elevation?.toList := by
  have same {t : AuditTables} (opened : t.closed = false) := AuditTables.ContinuesTo.refl opened
  cases c with
  | insertSession identity source =>
    cases identity with
    | none => exact ⟨_, rfl, fun t _ => .inl ⟨_, rfl, rfl, rfl, rfl⟩⟩
    | some identity => exact ⟨_, rfl, fun t opened => .inr ⟨rfl, _, rfl, (same opened).withSessions _⟩⟩
  | closeSession identity => exact ⟨_, rfl, fun t opened => .inr ⟨rfl, _, rfl, (same opened).withSessions _⟩⟩
  | insertCommand identity command elevated =>
    cases identity with
    | none => exact ⟨_, rfl, fun t _ => .inl ⟨_, rfl, rfl, rfl, rfl⟩⟩
    | some identity =>
      let row : CommandRow := ⟨identity, command, elevated⟩
      refine ⟨_, rfl, fun t opened => .inr ⟨rfl, { t with commands := t.commands ++ [row] }, rfl, ?_⟩⟩
      exact ⟨opened, rfl, (List.append_nil _).symm⟩
  | insertElevation identity success =>
    cases identity with
    | none => exact ⟨_, rfl, fun t _ => .inl ⟨_, rfl, rfl, rfl, rfl⟩⟩
    | some identity =>
      let row (t : AuditTables) : ElevationRow := ⟨t.elevations.length + 1, identity, success⟩
      refine ⟨_, rfl, fun t opened => .inr ⟨rfl, { t with elevations := t.elevations ++ [row t] }, rfl, ?_⟩⟩
      exact ⟨opened, (List.append_nil _).symm, rfl⟩

/-- Without an identity nothing is inserted. -/
theorem perform_of_nameless {table : String} (opened : t.closed = false) {c : AuditCall}
    (nameless : c.nameless? = some table) :
    c.perform (.enabled t) =
      (.enabled t, [.databaseRefused ("NOT NULL constraint failed: " ++ table ++ ".identity") c.statement]) := by
  obtain ⟨apply, performed, cases⟩ := c.perform_eq_change (.enabled t)
  rcases cases t opened with ⟨other, missing, fails, -⟩ | ⟨named, -⟩
  · rw [performed, change_of_error opened fails, Option.some.inj (nameless.symm.trans missing)]
    rfl
  · rw [named] at nameless
    cases nameless

/-- A call on an open database adds its row, if it has one, and is logged only when it is refused. -/
theorem perform_of_open (opened : t.closed = false) (c : AuditCall) :
    ∃ t', c.perform (.enabled t) = (.enabled t', c.refusal?.toList) ∧
      t.ContinuesTo t' c.command?.toList c.elevation?.toList := by
  obtain ⟨apply, performed, cases⟩ := c.perform_eq_change (.enabled t)
  rcases cases t opened with ⟨table, missing, -, noCommand, noElevation⟩ | ⟨named, t', done, continues⟩
  · refine ⟨t, ?_, ?_⟩
    · rw [perform_of_nameless opened missing, refusal?, missing]
      rfl
    · rw [noCommand, noElevation]
      exact .refl opened
  · refine ⟨t', ?_, continues⟩
    rw [performed, change_of_ok opened done, refusal?, named]
    rfl

theorem perform_of_closed (closed : t.closed = true) (c : AuditCall) :
    c.perform (.enabled t) = (.enabled t, [.databaseRefused AuditError.closed.message c.statement]) := by
  obtain ⟨apply, performed, -⟩ := c.perform_eq_change (.enabled t)
  rw [performed, change_of_closed closed]

end AuditCall

namespace AuditDatabase

/-- The database after some calls, and what they have logged. -/
def after (db : AuditDatabase) : List AuditCall → AuditDatabase × List Event
  | [] => (db, [])
  | c :: rest => (((c.perform db).1.after rest).1, (c.perform db).2 ++ ((c.perform db).1.after rest).2)

variable {t : AuditTables}

/-- Calls on an open database add their rows in order. -/
theorem after_of_open (opened : t.closed = false) (calls : List AuditCall) :
    ∃ t', (enabled t).after calls = (enabled t', calls.filterMap AuditCall.refusal?) ∧
      t.ContinuesTo t' (calls.filterMap AuditCall.command?) (calls.filterMap AuditCall.elevation?) := by
  induction calls generalizing t with
  | nil => exact ⟨t, rfl, .refl opened⟩
  | cons c rest ih =>
    obtain ⟨t₁, performed, first⟩ := c.perform_of_open opened
    obtain ⟨t₂, later, second⟩ := ih first.opened
    have front {β : Type} (f : AuditCall → Option β) : (c :: rest).filterMap f = (f c).toList ++ rest.filterMap f := by
      cases found : f c <;> simp [found]
    refine ⟨t₂, ?_, ?_⟩
    · rw [after, performed, later, front]
    · rw [front, front]
      exact first.trans second

/-- Calls on a closed database are all refused. -/
theorem after_of_closed (closed : t.closed = true) (calls : List AuditCall) :
    (enabled t).after calls =
      (enabled t, calls.map fun c => .databaseRefused AuditError.closed.message c.statement) := by
  induction calls with
  | nil => rfl
  | cons c rest ih =>
    rw [after, c.perform_of_closed closed, ih]
    rfl

/-! ## Limits -/

/-- Whether rows are the first of all, as many as a limit allows; a negative limit allows any number. -/
def Limited {α : Type} (limit : Int) (all rows : List α) : Prop :=
  rows <+: all ∧ (rows.length : Int) = if limit < 0 then (all.length : Int) else min limit all.length

theorem limited_cut {α : Type} (limit : Int) (all : List α) : Limited limit all (cut limit all) := by
  rw [Limited, cut]
  split
  · exact ⟨List.prefix_rfl, rfl⟩
  · refine ⟨List.take_prefix .., ?_⟩
    rw [List.length_take]
    omega

/-- A limit leaves no choice. -/
theorem Limited.unique {α : Type} {limit : Int} {all rows rows' : List α} (limited : Limited limit all rows)
    (limited' : Limited limit all rows') : rows = rows' := by
  have long : rows.length = rows'.length := Int.ofNat_inj.mp (limited.2.trans limited'.2.symm)
  rw [List.prefix_iff_eq_take.mp limited.1, List.prefix_iff_eq_take.mp limited'.1, long]

/-! ## Counting -/

/-- Whether counts report how often each of some commands occurs, the more frequent first. -/
structure Tallies (commands : List (Option String)) (counts : List CommandCount) : Prop where
  distinct : (counts.map (·.command)).Nodup
  exact : ∀ r, r ∈ counts ↔ r.command ∈ commands ∧ r.count = commands.count r.command
  descending : counts.Pairwise fun a b => b.count ≤ a.count
  total : (counts.map (·.count)).sum = commands.length

section Distinct

variable {α : Type} [BEq α] [LawfulBEq α]

theorem nodup_eraseDups (l : List α) : l.eraseDups.Nodup := by
  match l with
  | [] => exact .nil
  | a :: rest =>
    rw [List.eraseDups_cons, List.nodup_cons]
    exact ⟨by simp, nodup_eraseDups _⟩
termination_by l.length
decreasing_by exact Nat.lt_succ_of_le (List.length_filter_le _ _)

/-- The distinct members account for all. -/
theorem sum_count_eraseDups (l : List α) : (l.eraseDups.map fun a => l.count a).sum = l.length := by
  match l with
  | [] => rfl
  | a :: rest =>
    have others := sum_count_eraseDups (rest.filter fun b => !b == a)
    have same (c : α) (listed : c ∈ (rest.filter fun b => !b == a).eraseDups) :
        (a :: rest).count c = (rest.filter fun b => !b == a).count c := by
      have differs := (List.mem_filter.mp (List.mem_eraseDups.mp listed)).2
      rw [List.count_filter (p := fun b => !b == a) differs, List.count_cons_of_ne]
      rintro rfl
      simp at differs
    have parts : rest.length = rest.count a + (rest.filter fun b => !b == a).length := by
      rw [List.count, ← List.countP_eq_length_filter, List.length_eq_countP_add_countP (fun b => b == a)]
      simp
    rw [List.eraseDups_cons, List.map_cons, List.sum_cons, List.map_congr_left same, others, List.count_cons_self,
      List.length_cons]
    omega
termination_by l.length
decreasing_by exact Nat.lt_succ_of_le (List.length_filter_le _ _)

end Distinct

/-- A count comes first if it is higher, or as high with no command or a command that is not after the other. -/
theorem before_iff {a b : CommandCount} : CommandCount.before a b = true ↔
    b.count < a.count ∨ a.count = b.count ∧ ∀ x, a.command = some x → ∃ y, b.command = some y ∧ x ≤ y := by
  obtain ⟨command, n⟩ := a
  obtain ⟨other, m⟩ := b
  rw [CommandCount.before]
  by_cases same : n = m
  · cases command <;> cases other <;> simp [same, Text.notAfter_iff]
  · simp [same]

theorem before_trans (a b c : CommandCount) (first : CommandCount.before a b = true)
    (second : CommandCount.before b c = true) : CommandCount.before a c = true := by
  rw [before_iff] at *
  rcases first with higher | ⟨same, first⟩
  · exact .inl (by omega)
  · rcases second with higher | ⟨same', second⟩
    · exact .inl (by omega)
    · refine .inr ⟨same.trans same', fun x own => ?_⟩
      obtain ⟨y, next, le⟩ := first x own
      obtain ⟨z, last, le'⟩ := second y next
      exact ⟨z, last, String.le_trans le le'⟩

theorem before_total (a b : CommandCount) : (CommandCount.before a b || CommandCount.before b a) = true := by
  rw [Bool.or_eq_true, before_iff, before_iff]
  rcases Nat.lt_trichotomy a.count b.count with lower | same | higher
  · exact .inr (.inl lower)
  · cases own : a.command with
    | none => exact .inl (.inr ⟨same, nofun⟩)
    | some x =>
      cases other : b.command with
      | none => exact .inr (.inr ⟨same.symm, nofun⟩)
      | some y =>
        rcases String.le_total x y with le | le
        · exact .inl (.inr ⟨same, by simpa using le⟩)
        · exact .inr (.inr ⟨same.symm, by simpa using le⟩)
  · exact .inl (.inl higher)

theorem tallies_sorted (commands : List (Option String)) :
    Tallies commands ((tally commands).mergeSort CommandCount.before) := by
  have perm := List.mergeSort_perm (tally commands) CommandCount.before
  have own : (tally commands).map (·.command) = commands.eraseDups := by
    simp [tally, Function.comp_def]
  have counted : (tally commands).map (·.count) = commands.eraseDups.map commands.count := by
    simp [tally, Function.comp_def]
  constructor
  · rw [(perm.map _).nodup_iff, own]
    exact nodup_eraseDups commands
  · intro r
    rw [perm.mem_iff, tally, List.mem_map]
    constructor
    · rintro ⟨c, listed, rfl⟩
      exact ⟨List.mem_eraseDups.mp listed, rfl⟩
    · rintro ⟨listed, exact⟩
      exact ⟨r.command, List.mem_eraseDups.mpr listed, by rw [← exact]⟩
  · apply (List.pairwise_mergeSort before_trans before_total (tally commands)).imp
    intro a b first
    rcases before_iff.mp first with higher | ⟨same, -⟩ <;> omega
  · rw [(perm.map _).sum_nat, counted, sum_count_eraseDups]

/-! ## Reports -/

theorem query_of_open {α : Type} (opened : t.closed = false) (rows : AuditTables → List α) :
    (enabled t).query rows = .ok (rows t) := by
  rw [query, if_neg (Bool.eq_false_iff.mp opened)]

/-- A missing or empty identity stands for all. -/
theorem elevationsOf_of_open (opened : t.closed = false) (identity : Option String) (limit : Int) :
    (enabled t).elevationsOf identity limit =
      .ok (cut limit (t.elevations.filter fun r => identity.getD "" = "" ∨ identity = some r.identity).reverse) := by
  rw [elevationsOf, query_of_open opened]
  cases identity with
  | none => simp
  | some name =>
    by_cases blank : name = ""
    · simp [blank]
    · simp [blank, eq_comm]

/-- The reports are exact. On an open database, after any calls that write to it:

- the rows of commands and elevations are those of before and those that the calls have added, in order, and nothing is
  logged but the refusals of calls without an identity;
- such a call changes nothing and is logged;
- the recent commands are the rows of the commands, newest first; the elevations of an identity are its rows, newest
  first, or all rows if it is missing or empty; the top commands count each distinct command, the most frequent first;
  all are cut to any limit, unless that is negative;
- after the database is closed, calls are only logged and leave all rows as they were. -/
theorem reports_exact (opened : t.closed = false) (calls : List AuditCall) :
    let history := t.extend (calls.filterMap AuditCall.command?) (calls.filterMap AuditCall.elevation?)
    ∃ tables, (enabled t).after calls = (enabled tables, calls.filterMap AuditCall.refusal?) ∧
      tables.commands = history.commands ∧ tables.elevations = history.elevations ∧
      (∀ c table, AuditCall.nameless? c = some table → c.perform (enabled tables) =
        (enabled tables, [.databaseRefused ("NOT NULL constraint failed: " ++ table ++ ".identity") c.statement])) ∧
      (∀ limit, ∃ rows, (enabled tables).recentCommands limit = .ok rows ∧ Limited limit history.commands.reverse rows) ∧
      (∀ identity limit, ∃ rows, (enabled tables).elevationsOf identity limit = .ok rows ∧
        Limited limit
          (history.elevations.filter fun r => identity.getD "" = "" ∨ identity = some r.identity).reverse rows) ∧
      (∃ counts, Tallies (history.commands.map (·.command)) counts ∧
        ∀ limit, ∃ rows, (enabled tables).topCommands limit = .ok rows ∧ Limited limit counts rows) ∧
      ∀ later, (enabled tables).close.after later = (enabled { tables with closed := true },
        later.map fun c => .databaseRefused "Cannot operate on a closed database." c.statement) := by
  obtain ⟨tables, performed, continues⟩ := after_of_open opened calls
  refine ⟨tables, performed, continues.commands, continues.elevations, ?_, ?_, ?_, ?_, ?_⟩
  · exact fun c table nameless => AuditCall.perform_of_nameless continues.opened nameless
  · intro limit
    refine ⟨_, query_of_open continues.opened _, ?_⟩
    rw [← continues.commands]
    exact limited_cut limit _
  · intro identity limit
    refine ⟨_, elevationsOf_of_open continues.opened identity limit, ?_⟩
    rw [← continues.elevations]
    exact limited_cut limit _
  · refine ⟨_, tallies_sorted _, fun limit => ⟨_, query_of_open continues.opened _, ?_⟩⟩
    rw [← continues.commands]
    exact limited_cut limit _
  · exact fun later => after_of_closed rfl later

/-- Commands of two identities and of none, one without a text and one without an identity. -/
theorem reports_exact_with_nulls :
    let calls : List AuditCall :=
      [.insertCommand (some "a") (some "ls") false, .insertCommand none (some "ls") true,
        .insertCommand (some "") none true, .closeSession none, .insertElevation (some "") true,
        .insertCommand (some "b") (some "ls") true]
    (openAt true ":memory:").1 = enabled {} ∧ ({} : AuditTables).closed = false ∧
      ∃ tables, (enabled {}).after calls = (enabled tables, calls.filterMap AuditCall.refusal?) ∧
        (AuditCall.insertCommand none none false).perform (enabled tables) = (enabled tables,
          [.databaseRefused ("NOT NULL constraint failed: " ++ "commands" ++ ".identity")
            "INSERT INTO commands (identity, command, elevated) VALUES (?, ?, ?)"]) ∧
        (enabled tables).recentCommands 1 = .ok [⟨"b", some "ls", true⟩] ∧
        (enabled tables).elevationsOf (some "a") (-1) = .ok [] ∧
        ∃ counts, Tallies [some "ls", none, some "ls"] counts ∧ (enabled tables).topCommands (-1) = .ok counts := by
  intro calls
  have opened : ({} : AuditTables).closed = false := rfl
  obtain ⟨tables, performed, commands, elevations, nameless, recent, checks, ⟨counts, tallies, top⟩, -⟩ :=
    reports_exact opened calls
  refine ⟨rfl, opened, tables, performed, nameless _ _ rfl, ?_, ?_, counts, tallies, ?_⟩
  · obtain ⟨rows, shown, limited⟩ := recent 1
    rw [shown, limited.unique (limited_cut 1 _)]
    rfl
  · obtain ⟨rows, shown, limited⟩ := checks (some "a") (-1)
    rw [shown, limited.unique (limited_cut (-1) _)]
    rfl
  · obtain ⟨rows, shown, limited⟩ := top (-1)
    rw [shown, limited.unique (limited_cut (-1) _)]
    rfl

end AuditDatabase

end TreeShell
