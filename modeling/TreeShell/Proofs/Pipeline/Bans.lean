import TreeShell.Proofs.Pipeline.Interleaved
import TreeShell.Proofs.Pipeline.Parts

/-! # What lines do to the bans

The verbs never write at the bans, whatever elevation they have, and the moderation commands run in elevated stages
only. So a run of a line changes the bans only if it comes through a part with elevation (`carry_keepsBans`), and a
line that waits in another part will not change them when it goes on (`Suspended.carry_keepsBans`).
-/

namespace TreeShell

open Key (banRoot)
open Path (IsResolved)
open Verb

/-- What stands where the bans are. -/
def Store.bans (s : Store) : Value :=
  s.find [banRoot]

/-- Whether a store has the given bans. -/
def Store.HasBans (bans : Value) (s : Store) : Prop :=
  s.bans = bans

namespace Store

variable {s : Store} {bans : Value}

/-- A write under another root leaves the bans alone. -/
theorem HasBans.put (has : s.HasBans bans) {root : String} (apart : root ≠ banRoot) (place : List String) (value : Value) :
    (s.put (root :: place) value).HasBans bans :=
  (find_put_apart (apart_cons_of_ne apart) s value).trans has

theorem HasBans.set_node (has : s.HasBans bans) {path : String} (resolved : IsResolved path) (value : Value) :
    (s.set (Key.node path) value).HasBans bans := by
  obtain ⟨segs, names, rfl⟩ := resolved.exists_names
  rw [set, Key.components_node names]
  exact has.put (by decide) _ value

theorem HasBans.set_password (has : s.HasBans bans) {path : String} (ordinary : Key.IsOrdinary path) (value : Value) :
    (s.set (Key.password path) value).HasBans bans := by
  obtain ⟨segs, names, -, rfl⟩ := ordinary.exists_segments
  rw [set, Key.components_password names]
  exact has.put (by decide) _ value

/-- The verbs keep the bans, with elevation too. -/
theorem bans_upkeep (identity : String) (elevated : Bool) : Upkeep HasBans (fun _ => True) identity elevated where
  read _ _ := trivial
  text _ := trivial
  fresh := trivial
  write has writable _ := has.set_node writable.1 _
  remove has writable := has.set_node writable.1 .null
  forget has paths := removals_induction (fun _ _ _ has => has.put (by decide) _ .null) has
  protect has ordinary password := has.set_password ordinary _
  remember has path := by
    rw [set, Key.components_cwd]
    exact has.put (by decide) _ _

end Store

open Store (HasBans)

/-- Getting ready for a line keeps the bans, whatever the line was granted. -/
theorem Shell.begin_keepsBans (s : Shell) (w : World) (line : String) (granted : Option Elevation) :
    (s.begin w line granted).2.2.backend.store.HasBans w.backend.store.bans :=
  Shell.begin_keeps (Store.bans_upkeep s.identity false) line granted rfl

namespace Pipeline

/-- Whether a part runs with the elevation that was granted to its line. -/
def Part.elevated (granted : Option Elevation) (part : Part) : Bool :=
  part.asksElevation && granted.isSome

/-- Whether what is left of a part that waits keeps the bans, unless it runs with elevation. -/
def Suspended.KeepsBans (granted : Option Elevation) (s : Suspended) : Prop :=
  s.part.elevated granted = false → ∀ answer, (s.rest answer).Keeps HasBans fun _ => True

/-- Whether a line has kept the bans if it came through no part with elevation, and will where it waits. -/
structure Progress.KeepsBans (granted : Option Elevation) (bans : Value) (p : Progress) : Prop where
  now : (∀ part ∈ p.ran, part.elevated granted = false) → p.machine.world.backend.store.HasBans bans
  later : ∀ s ∈ p.stop.suspended?, s.KeepsBans granted

variable {identity : String} {granted : Option Elevation}

theorem runPart_keeps {part : Part} (plain : part.elevated granted = false) (result : StageResult) :
    (runPart identity granted result part).Keeps HasBans fun _ => True := by
  cases part with
  | stage text =>
    have same : runStage identity text result.output granted = runStage identity text result.output none := by
      cases granted with
      | none => rfl
      | some e => exact runStage_congr (by simpa [Part.elevated] using plain) result.output
    rw [runPart, same]
    exact (runStage_keeps (Store.bans_upkeep identity false) text result.output).mono fun _ _ => trivial
  | redirect target =>
    exact (writeTarget_keeps (Store.bans_upkeep identity _) target).bind fun _ _ => .pure trivial

/-- A line that is in one part and goes on with others keeps the bans if all of them do. -/
theorem through_keepsBans {part : Part} {p : Program StageResult} {next : StageResult → Machine → Progress}
    (keeps : part.elevated granted = false → p.Keeps HasBans fun _ => True)
    (goesOn : ∀ result m, (next result m).KeepsBans granted m.world.backend.store.bans) (later : List Part) (m : Machine) :
    (through part later next (p.run m)).KeepsBans granted m.world.backend.store.bans := by
  have run (plain : part.elevated granted = false) := (keeps plain).run m rfl
  generalize p.run m = ran at run
  obtain ⟨outcome, m'⟩ := ran
  -- where the part has elevation nothing is said of the bans now, but what waits later is judged by its own part
  cases outcome with
  | finished result =>
    refine ⟨fun plain => ?_, (goesOn result m').later⟩
    obtain ⟨first, others⟩ := List.forall_mem_cons.mp plain
    exact ((goesOn result m').now others).trans (run first).1
  | waiting prompt rest =>
    refine ⟨fun plain => (run (plain part (List.mem_singleton_self part))).1, fun s suspended => ?_⟩
    obtain rfl := Option.some.inj suspended
    exact fun plain => (run plain).2
  | failed error => exact ⟨fun plain => (run (plain part (List.mem_singleton_self part))).1, nofun⟩

/-- Parts without elevation keep the bans. -/
theorem carry_keepsBans (parts : List Part) (result : StageResult) (m : Machine) :
    (carry identity granted parts result m).KeepsBans granted m.world.backend.store.bans := by
  induction parts generalizing result m with
  | nil => exact ⟨fun _ => rfl, nofun⟩
  | cons part later ih => exact through_keepsBans (fun plain => runPart_keeps plain result) ih later m

/-- A line that waits goes on to keep the bans up to its next part with elevation. -/
theorem Suspended.carry_keepsBans {s : Suspended} (keeps : s.KeepsBans granted) (answer : Answer) (m : Machine) :
    (s.carry identity granted answer m).KeepsBans granted m.world.backend.store.bans :=
  through_keepsBans (fun plain => keeps plain answer) (Pipeline.carry_keepsBans s.later) s.later m

end Pipeline

end TreeShell
