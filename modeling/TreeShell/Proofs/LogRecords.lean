import Mathlib.Data.List.Induction
import TreeShell.Event
import TreeShell.LogFiles
import TreeShell.Proofs.Json.FlatMappings
import TreeShell.Proofs.Text.Split

/-! # Log records cannot be forged or split

A log line is one record: it is printable ASCII throughout, so nothing in a field can end it, and reading
it as JSON gives the time, the type and the fields of the event in order, so no other event has the same
line. A log of these lines therefore has one line for each event, and where it is kept in several files, each of them has
whole lines (`LogRecord.log_faithful`). The fields that the shell gives its own events can all be logged in this way
(`Event.loggable_details`).
-/

namespace TreeShell

/-- What the fields of an event have to be for its line to show all of them: atoms of distinct names
besides those of the time stamp and of the type, and that under which the log is given. -/
structure Loggable (fields : List (String × Value)) : Prop where
  distinct : (Assoc.names fields).Nodup
  untimed : "timestamp" ∉ Assoc.names fields
  untyped : "event_type" ∉ Assoc.names fields
  unaddressed : "logger" ∉ Assoc.names fields
  atoms : ∀ field ∈ fields, field.2.IsAtom

theorem Event.loggable_details (e : Event) : Loggable e.details := by
  cases e with
  | removed path nodes elevation =>
    cases elevation <;> constructor <;> simp [details, Assoc.names, Value.IsAtom]
  | _ => constructor <;> simp [details, Assoc.names, Value.IsAtom]

/-- What is logged in one line. -/
@[ext] structure LogRecord where
  time : String
  type : String
  fields : List (String × Value)
  loggable : Loggable fields

/-- The record of an event at a time. -/
def Event.recordAt (e : Event) (time : String) : LogRecord :=
  ⟨time, e.type.1, e.details, e.loggable_details⟩

namespace LogRecord

/-- The time stamp, the type and the fields of a record, in order. -/
def entries (r : LogRecord) : List (String × Value) :=
  ("timestamp", .text r.time) :: ("event_type", .text r.type) :: r.fields

/-- The line of a record. -/
def line (r : LogRecord) : String :=
  logLine r.time (("event_type", .text r.type) :: r.fields)

/-- An event whose type stands in the field of that name is logged by its record. -/
theorem line_recordAt {e : Event} (typed : e.type.2 = true) (time : String) :
    (e.recordAt time).line = logLine time e.fields := by
  rw [line, Event.recordAt, Event.fields, if_pos typed]

theorem nodup_entries (r : LogRecord) : (Assoc.names r.entries).Nodup := by
  have typed : (Assoc.names (("event_type", Value.text r.type) :: r.fields)).Nodup :=
    List.nodup_cons.mpr ⟨r.loggable.untyped, r.loggable.distinct⟩
  refine List.nodup_cons.mpr ⟨fun member => ?_, typed⟩
  rcases List.mem_cons.mp member with same | later
  · exact (show "timestamp" ≠ "event_type" by decide) same
  · exact r.loggable.untimed later

theorem isAtom_entries (r : LogRecord) : ∀ e ∈ r.entries, e.2.IsAtom :=
  List.forall_mem_cons.mpr ⟨trivial, List.forall_mem_cons.mpr ⟨trivial, r.loggable.atoms⟩⟩

theorem line_eq_write (r : LogRecord) : r.line = Json.write (.mapping r.entries) :=
  congrArg (fun entries => Json.write (.mapping entries)) (Assoc.ofPairs_of_nodup r.nodup_entries)

theorem visible_line (r : LogRecord) : Json.Visible r.line.toList :=
  r.line_eq_write ▸ Json.visible_write r.isAtom_entries

theorem read?_line (r : LogRecord) : Json.read? r.line = some (.mapping r.entries) :=
  r.line_eq_write ▸ Json.read?_write r.nodup_entries r.isAtom_entries

/-- The line determines the record. -/
theorem eq_of_line_eq {r s : LogRecord} (same : r.line = s.line) : r = s := by
  have read := r.read?_line.symm.trans ((congrArg Json.read? same).trans s.read?_line)
  simp only [entries, Option.some.injEq, Value.mapping.injEq, List.cons.injEq, Prod.mk.injEq, Value.text.injEq,
    true_and] at read
  exact LogRecord.ext read.1 read.2.1 read.2.2

/-! ## A log -/

/-- A log after one more record. -/
def append (log : String) (r : LogRecord) : String :=
  log ++ r.line ++ "\n"

/-- The log that starts empty and gets some records. -/
def log (records : List LogRecord) : String :=
  records.foldl append ""

/-- The lines of a log, each of which ends in a line feed. -/
def lines (log : String) : List String :=
  (Text.split '\n' log).dropLast

theorem not_mem_line (r : LogRecord) : '\n' ∉ r.line.toList := fun member =>
  absurd (r.visible_line _ member).1 (by decide)

/-- A record adds its line to a log that ends in a line feed, and the log ends in one again. -/
theorem split_append {log : String} {written : List String} (ended : Text.split '\n' log = written ++ [""])
    (r : LogRecord) : Text.split '\n' (append log r) = written ++ [r.line] ++ [""] := by
  obtain ⟨front, pieces⟩ := Text.exists_split_append '\n' log
  have before : front ++ [Text.afterLast '\n' log ++ ""] = written ++ [""] :=
    (pieces "" (by simp)).symm.trans ((String.append_empty (s := log)).symm ▸ ended)
  obtain ⟨rfl, last⟩ := List.append_inj' before rfl
  have empty : Text.afterLast '\n' log = "" := by simpa using last
  calc Text.split '\n' (append log r)
    _ = Text.split '\n' (log ++ r.line) ++ Text.split '\n' "" := by
      rw [← Text.split_append, String.append_empty]
      rfl
    _ = front ++ [r.line] ++ [""] := by
      rw [pieces _ r.not_mem_line, empty, String.empty_append, Text.split_empty]

theorem split_log (records : List LogRecord) : Text.split '\n' (log records) = records.map line ++ [""] := by
  suffices ∀ start written, Text.split '\n' start = written ++ [""] →
      Text.split '\n' (records.foldl append start) = written ++ records.map line ++ [""] from
    this "" [] (Text.split_empty '\n')
  induction records with
  | nil =>
    intro start written ended
    rw [List.map_nil, List.append_nil]
    exact ended
  | cons r records ih =>
    intro start written ended
    rw [List.foldl_cons, ih _ _ (split_append ended r), List.map_cons, List.append_assoc written]
    rfl

/-! ## Its files -/

/-- The files of the log that starts empty and gets some records. -/
def files (kept : Retention) (records : List LogRecord) : LogFiles :=
  records.foldl (fun f r => f.write kept r.line) {}

/-- Whether files hold the last ones of some records, each file a log of its own, up to the file that is written. Some are
missing only if there is no room for another file. -/
def Held (kept : Retention) (records : List LogRecord) (f : LogFiles) : Prop :=
  ∃ dropped older current, records = dropped ++ List.flatten older ++ current ∧
    f.backups = (older.map log).reverse ∧ f.current = log current ∧
    (dropped = [] ∨ older.length = kept.backups) ∧ current.getLast? = records.getLast?

theorem log_concat (records : List LogRecord) (r : LogRecord) : log (records ++ [r]) = log records ++ (r.line ++ "\n") := by
  rw [log, List.foldl_append, ← log, ← String.append_assoc]
  rfl

theorem log_singleton (r : LogRecord) : log [r] = r.line ++ "\n" :=
  (log_concat [] r).trans String.empty_append

/-- When a file is set aside, the file of the oldest records makes room for it if need be. -/
theorem held_rotate {kept : Retention} (room : kept.backups ≠ 0) {dropped current : List LogRecord}
    {older : List (List LogRecord)} {f : LogFiles} (backups : f.backups = (older.map log).reverse)
    (written : f.current = log current) (full : dropped = [] ∨ older.length = kept.backups) :
    ∃ dropped' older', dropped ++ older.flatten ++ current = dropped' ++ List.flatten older' ∧
      (f.rotate kept).backups = (older'.map log).reverse ∧ (f.rotate kept).current = "" ∧
      (dropped' = [] ∨ older'.length = kept.backups) := by
  have rotated : f.rotate kept = { backups := (f.current :: f.backups).take kept.backups } := by
    rw [LogFiles.rotate, if_neg room]
  have all : f.current :: f.backups = ((older ++ [current]).map log).reverse := by
    rw [backups, written, List.map_append, List.reverse_append]
    rfl
  -- the files that are dropped are the first ones of all
  let excess := (older ++ [current]).length - kept.backups
  refine ⟨dropped ++ ((older ++ [current]).take excess).flatten, (older ++ [current]).drop excess, ?_, ?_, ?_, ?_⟩
  · rw [List.append_assoc dropped, List.append_assoc dropped, ← List.flatten_append, List.take_append_drop,
      List.flatten_append, List.flatten_singleton]
  · rw [rotated, all, List.take_reverse, List.length_map, List.map_drop]
  · rw [rotated]
  · by_cases fits : older.length < kept.backups
    · have kept_all : excess = 0 := by
        simp only [excess, List.length_append, List.length_singleton]
        omega
      left
      rcases full with none | exact
      · rw [kept_all, none]
        rfl
      · omega
    · right
      simp only [List.length_drop, excess, List.length_append, List.length_singleton]
      omega

/-- Every line that is written keeps it so. -/
theorem held_write {kept : Retention} {records : List LogRecord} {f : LogFiles} (held : Held kept records f)
    (r : LogRecord) : Held kept (records ++ [r]) (f.write kept r.line) := by
  obtain ⟨dropped, older, current, rfl, backups, written, full, -⟩ := held
  have goes_on : Held kept (dropped ++ older.flatten ++ current ++ [r])
      { f with current := f.current ++ (r.line ++ "\n") } := by
    refine ⟨dropped, older, current ++ [r], ?_, backups, ?_, full, ?_⟩
    · rw [List.append_assoc _ current]
    · rw [written, log_concat]
    · rw [List.getLast?_concat, List.getLast?_concat]
  rw [LogFiles.write]
  split
  · by_cases room : kept.backups = 0
    · rw [LogFiles.rotate, if_pos room]
      exact goes_on
    · obtain ⟨dropped', older', same, backups', empty, full'⟩ := held_rotate room backups written full
      refine ⟨dropped', older', [r], ?_, backups', ?_, full', ?_⟩
      · rw [same]
      · rw [empty, log_singleton, String.empty_append]
      · rw [List.getLast?_concat, List.getLast?_singleton]
  · exact goes_on

theorem held_files (kept : Retention) (records : List LogRecord) : Held kept records (files kept records) := by
  induction records using List.reverseRecOn with
  | nil => exact ⟨[], [], [], rfl, rfl, rfl, .inl rfl, rfl⟩
  | append_singleton records r ih =>
    rw [files, List.foldl_append]
    exact held_write ih r

/-- A log has one line for each event, in printable ASCII, each line is read as the very fields that were
logged, and different events have different lines. However much of it is kept, its files hold whole lines, which are those
of the last events. -/
theorem log_faithful (records : List LogRecord) :
    lines (log records) = records.map line ∧
    (log records).toList.count '\n' = records.length ∧
    (∀ r ∈ records, Json.Visible r.line.toList ∧ Json.read? r.line = some (.mapping r.entries)) ∧
    (∀ r ∈ records, ∀ s ∈ records, r ≠ s → r.line ≠ s.line) ∧
    ∀ kept, Held kept records (files kept records) := by
  refine ⟨?_, ?_, fun r _ => ⟨r.visible_line, r.read?_line⟩, fun r _ s _ differ same => differ (eq_of_line_eq same),
    fun kept => held_files kept records⟩
  · rw [lines, split_log, List.dropLast_concat]
  · have counted := Text.length_split '\n' (log records)
    rw [split_log, List.length_append, List.length_map, List.length_singleton] at counted
    exact (Nat.succ.inj counted).symm

/-- A command with line breaks, quotes and characters beyond the basic plane, and one that spells out how it was logged. -/
def forgedCommands : List Event :=
  [.shellCommand "alice" "/" "ls\n\"\\u😀" false, .shellCommand "alice" "/" "ls\\n\\\"\\\\u\\ud83d\\ude00" false]

/-- The two commands stay on lines of their own, which differ, and are read as they were typed. -/
theorem log_faithful_on_forged_commands :
    let logged := log (forgedCommands.map (Event.recordAt · "T"))
    lines logged = forgedCommands.map (fun e => logLine "T" e.fields) ∧ (lines logged).Nodup ∧
      ∀ e ∈ forgedCommands,
        Json.read? (logLine "T" e.fields) = some (.mapping (("timestamp", .text "T") :: e.fields)) := by
  intro logged
  obtain ⟨written, -, read, apart, -⟩ := log_faithful (forgedCommands.map (Event.recordAt · "T"))
  have typed : ∀ e ∈ forgedCommands, e.type.2 = true := by decide
  refine ⟨?_, ?_, fun e member => ?_⟩
  · rw [written, List.map_map]
    exact List.map_congr_left fun e member => line_recordAt (typed e member) "T"
  · have differ : (forgedCommands.map (Event.recordAt · "T")).Pairwise fun r s => r ≠ s := by
      simp [forgedCommands, Event.recordAt, Event.details]
    rw [written]
    exact List.pairwise_map.mpr (differ.imp_of_mem fun first second => apart _ first _ second)
  · have back := (read (e.recordAt "T") (List.mem_map_of_mem member)).2
    rw [line_recordAt (typed e member)] at back
    rw [back, Event.fields, if_pos (typed e member)]
    rfl

end LogRecord

end TreeShell
