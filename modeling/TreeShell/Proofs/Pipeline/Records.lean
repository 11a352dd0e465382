import TreeShell.Pipeline
import TreeShell.Proofs.Verb.Plans

/-! # What a line logs

A property of programs that sequences take over from their parts is one of lines as soon as the verbs and the few other
parts of a line have it (`Pipeline.run_of_parts`). One such property is to log nothing but events of some kind. A line
logs the removal of nodes, and that its redirect was refused, and nothing else (`Pipeline.run_logs`).
-/

namespace TreeShell

open Program (Leads)

/-- Whether an event is one that a line of an identity logs. -/
inductive Event.OfLine (identity : String) : Event → Prop
  | removed (path : String) (nodes : Nat) (elevation : Option String) : OfLine identity (.removed path nodes elevation)
  | redirectRefused (target reason : String) : OfLine identity (.redirectRefused identity target reason)

namespace Program

variable {α β : Type} {K : Event → Prop}

/-- Whether everything that a program can log is of some kind. -/
def Logs (K : Event → Prop) (p : Program α) : Prop :=
  ∀ cwd acts q, Leads cwd p acts q → ∀ e ∈ Act.events acts, K e

namespace Logs

theorem done (a : α) : Logs K (.done a) := by
  intro cwd acts q leads
  cases leads with
  | here => exact List.forall_mem_nil _

theorem call {request : StoreCall} {k : Value → Program α} (next : ∀ v, Logs K (k v)) : Logs K (.call request k) := by
  intro cwd acts q leads
  cases leads with
  | here => exact List.forall_mem_nil _
  | call s later =>
    have rest := next _ cwd _ q later
    exact rest

theorem cwd {k : String → Program α} (next : ∀ path, Logs K (k path)) : Logs K (.cwd k) := by
  intro cwd acts q leads
  cases leads with
  | here => exact List.forall_mem_nil _
  | cwd later => exact next _ cwd _ q later

theorem record {event : Event} (kind : K event) : Logs K (record event) := by
  intro cwd acts q leads
  cases leads with
  | here => exact List.forall_mem_nil _
  | log later =>
    cases later with
    | here => exact List.forall_mem_singleton.mpr kind

theorem bind {p : Program α} {f : α → Program β} (first : Logs K p) (next : ∀ a, Logs K (f a)) : Logs K (p >>= f) := by
  intro cwd acts q leads
  rcases leads.of_bind with ⟨p', inside, -⟩ | ⟨a, front, back, rfl, ended, goes⟩
  · exact first cwd acts p' inside
  · rw [Act.events, List.filterMap_append]
    exact List.forall_mem_append.mpr ⟨first cwd front _ ended, next a _ back q goes⟩

/-- A program that looks, and then follows one of some plans, logs what these plans log. -/
theorem of_plans {D : String → List Act → Prop} {p : Program α} (plans : ∀ cwd, Plans (D cwd) cwd p)
    (logs : ∀ cwd plan, D cwd plan → ∀ e ∈ Act.events plan, K e) : Logs K p := by
  intro cwd acts q leads e logged
  -- looks log nothing, so what is logged stands in the part of the plan that was followed
  obtain ⟨looks, done, rfl, looked, plan, along, planned⟩ := (plans cwd).leads leads
  rw [Act.events, List.filterMap_append] at logged
  rcases List.mem_append.mp logged with early | late
  · obtain ⟨a, member, event⟩ := List.mem_filterMap.mp early
    cases a with
    | logged e => exact (looked _ member).elim
    | _ => cases event
  · obtain ⟨rest, rfl⟩ := along
    refine logs cwd _ planned e ?_
    rw [Act.events, List.filterMap_append]
    exact List.mem_append_left _ late

end Logs

/-- Whether a property of programs is taken over by sequences from their parts. -/
structure Composes (P : ∀ {α : Type}, Program α → Prop) : Prop where
  pure : ∀ {α : Type} (a : α), P (pure a : Program α)
  bind : ∀ {α β : Type} {p : Program α} {f : α → Program β}, P p → (∀ a, P (f a)) → P (p >>= f)

theorem composes_logs (K : Event → Prop) : Composes fun p => Logs K p :=
  ⟨Logs.done, Logs.bind⟩

end Program

/-! ## Lines -/

section Parts

variable {P : ∀ {α : Type}, Program α → Prop} {identity : String}

theorem Command.program_of_parts (composes : Program.Composes P) (looks : P Program.workingDirectory)
    (verbs : ∀ (call : VerbCall) (elevation : Option Elevation), P (call.program identity elevation))
    (bans : ∀ target, P (Moderation.ban target) ∧ P (Moderation.unban target)) (lists : P Moderation.listBanned)
    (stdin : String) (elevation : Option Elevation) (command : Command) : P (command.program identity stdin elevation) := by
  have replies (call : VerbCall) : P (call.reply identity elevation) :=
    composes.bind (verbs call elevation) fun _ => composes.pure _
  cases command with
  | verb call =>
    cases call with
    | cat label =>
      rw [program]
      split
      · exact replies (.cat label)
      · exact composes.pure _
    | _ => exact replies _
  | pwd => exact looks
  | echo args | help => exact composes.pure _
  | ban target => exact (bans target).1
  | unban target => exact (bans target).2
  | listBanned => exact lists

namespace Pipeline

/-- What sequences take over from their parts, and the parts of lines have, lines have. -/
theorem run_of_parts (composes : Program.Composes P) (looks : P Program.workingDirectory)
    (verbs : ∀ (call : VerbCall) (elevation : Option Elevation), P (call.program identity elevation))
    (bans : ∀ target, P (Moderation.ban target) ∧ P (Moderation.unban target)) (lists : P Moderation.listBanned)
    (refuses : ∀ target reason, P (Program.record (.redirectRefused identity target reason))) (line : String)
    (granted : Option Elevation) : P (run identity line granted) := by
  have words (ws : List String) (stdin : String) (elevation : Option Elevation) :
      P (runWords identity ws stdin elevation) := by
    unfold runWords
    dsimp only
    cases Command.ofName? (ws.headD "") ws.tail with
    | none => exact composes.pure _
    | some command =>
      dsimp only
      split
      · exact composes.pure _
      · exact composes.bind (command.program_of_parts composes looks verbs bans lists stdin elevation) fun _ =>
          composes.pure _
  have stage (stage stdin : String) : P (runStage identity stage stdin granted) := by
    unfold runStage
    split
    · exact words ..
    · split
      · split
        · exact composes.pure _
        · split
          · exact composes.pure _
          · exact words ..
      · exact words ..
  have stages (ss : List String) (result : StageResult) : P (runStages identity granted ss result) := by
    induction ss generalizing result with
    | nil => exact composes.pure _
    | cons s rest ih => exact composes.bind (stage s result.output) ih
  refine composes.bind (stages _ _) fun result => ?_
  cases (CommandLine.parse line).target with
  | none => exact composes.pure _
  | some target =>
    refine composes.bind (composes.bind (verbs _ _) fun written => ?_) fun _ => composes.pure _
    cases written with
    | ok _ => exact composes.pure _
    | error refusal => exact refuses target _

end Pipeline

end Parts

/-- All that a verb logs is what it has removed. -/
theorem VerbCall.Plan.logs {cwd identity : String} {elevation : Option Elevation} {call : VerbCall} {plan : List Act}
    (planned : Plan cwd identity elevation call plan) : ∀ e ∈ Act.events plan, e.OfLine identity := by
  have protects {label path : String} {asked : Bool} {protection : List Act}
      (entered : Verb.Protection label path asked protection) : Act.events protection = [] := by
    cases entered <;> rfl
  have removes (path : String) (node : Node) (recursive : Bool) (reason : Option ElevationReason) :
      ∀ e ∈ Act.events (Verb.removal path node recursive reason), e.OfLine identity :=
    List.forall_mem_singleton.mpr (.removed ..)
  cases planned with
  | nothing | visit | copy | redirect => exact List.forall_mem_nil _
  | move => exact removes _ _ _ _
  | remove => exact removes _ _ _ _
  | make writable entered =>
    rw [Act.events, List.filterMap_append, ← Act.events, protects entered]
    exact List.forall_mem_nil _
  | @edit args protection existing answer writable entered =>
    rw [Act.events, List.filterMap_append, ← Act.events, protects entered]
    cases answer <;> exact List.forall_mem_nil _

/-- A line logs removals and a refused redirect. -/
theorem Pipeline.run_logs (identity line : String) (granted : Option Elevation) :
    (run identity line granted).Logs (Event.OfLine identity) := by
  refine run_of_parts (P := fun p => p.Logs (Event.OfLine identity)) (Program.composes_logs _) (.cwd .done)
    (fun call elevation => .of_plans (fun cwd => call.plans cwd identity elevation) fun _ _ planned => planned.logs)
    (fun target => ?_) ?_ (fun target reason => .record (.redirectRefused target reason)) line granted
  · constructor
    · unfold Moderation.ban
      split
      · exact .done _
      · exact .call fun _ => .done _
    · unfold Moderation.unban
      split
      · exact .done _
      · exact .call fun _ => .done _
  · refine .bind (.call fun v => ?_) fun banned => ?_
    · cases v <;> exact .done _
    · cases banned <;> exact .done _

end TreeShell
