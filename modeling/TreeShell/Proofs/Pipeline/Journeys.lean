import TreeShell.Pipeline
import TreeShell.Proofs.Key.Addresses
import TreeShell.Proofs.Verb.Plans

/-! # Where a line goes

A line changes the working directory of its identity by `cd` alone: it finds a directory at a resolved path, passes the
gate, enters the directory, and remembers it in the store (`Verb.Visit`). All else that a line does, with or without
elevation, leaves the working directories and what is remembered of them as they are. So what a line has done is a
journey from visit to visit (`Journey`), or one that was cut short by a failing store before the last directory was
remembered (`Pipeline.run_travels`). From its start or from a prompt a line goes on past its last visit, up to such a
cut, or without a visit (`Program.Travels.leg`).
-/

namespace TreeShell

open Path (IsResolved isResolved_resolve)
open Program (Only Plans Leads)

/-- Whether an act enters no directory, writes outside of what is remembered of working directories, and is no record
of a dropped line. -/
def Act.IsPlain : Act → Prop
  | .called (.get _) _ => True
  | .called request _ => ∃ root rest, Key.components request.key = root :: rest ∧ root ≠ Key.cwdRoot
  | .asked _ _ => True
  | .logged event => ∀ identity, event ≠ .promptAbandoned identity
  | .entered _ => False

/-- What remembers the working directory of an identity. -/
def Act.remembers (identity path : String) : Act :=
  .called (.set (Key.cwd identity) (.text path)) .null

theorem Act.Looks.isPlain {a : Act} (looks : a.Looks) : a.IsPlain := by
  cases a with
  | called request answer =>
    cases request with
    | get key => exact trivial
    | _ => exact looks.elim
  | asked prompt answer => exact trivial
  | _ => exact looks.elim

namespace Verb

/-- What a `cd` of an identity does in a working directory before it enters another: it finds one at the path, and
passes the gate. -/
structure Visit (identity cwd path : String) (looks : List Act) : Prop where
  resolved : IsResolved path
  found : ∃ value children gate label, looks = .called (.get (Key.node path)) value :: gate ∧
    loaded path value = some (.directory children) ∧ ∀ a ∈ gate, Unlocks label path a
  leads : ∃ label elevation, path = Path.resolve label cwd ∧
    Leads cwd (cd identity label elevation) looks (do
      Context.changeDirectory identity path
      return .ok ("Changed directory to '" ++ label ++ "'"))

end Verb

/-- What a line of an identity has done from a working directory on: plain acts and visits. -/
inductive Journey (identity : String) : String → List Act → Prop
  | stay (cwd : String) : Journey identity cwd []
  | act {cwd : String} {a : Act} {later : List Act} (plain : a.IsPlain) (goes : Journey identity cwd later) :
    Journey identity cwd (a :: later)
  | visit {cwd path : String} {looks later : List Act} (visit : Verb.Visit identity cwd path looks)
    (goes : Journey identity path later) :
    Journey identity cwd (looks ++ .entered path :: .remembers identity path :: later)

/-- A journey with a visit behind it, up to where the directory is entered. -/
structure Journey.Arrival (identity cwd path : String) (past looks : List Act) : Prop where
  goes : Journey identity cwd past
  visit : Verb.Visit identity (Act.cwdAfter cwd past) path looks

namespace Journey

variable {identity cwd path : String} {acts later past looks : List Act}

theorem of_plain (plain : ∀ a ∈ acts, a.IsPlain) (cwd : String) : Journey identity cwd acts := by
  induction acts with
  | nil => exact .stay cwd
  | cons a rest ih =>
    obtain ⟨first, others⟩ := List.forall_mem_cons.mp plain
    exact .act first (ih others)

theorem cwdAfter_visit (cwd path : String) (looks later : List Act) (identity : String) :
    Act.cwdAfter cwd (looks ++ .entered path :: .remembers identity path :: later) = Act.cwdAfter path later :=
  Act.cwdAfter_append ..

theorem cwdAfter_act {a : Act} (plain : a.IsPlain) (cwd : String) (later : List Act) :
    Act.cwdAfter cwd (a :: later) = Act.cwdAfter cwd later := by
  cases a with
  | entered path => exact plain.elim
  | _ => rfl

theorem append (goes : Journey identity cwd acts) (further : Journey identity (Act.cwdAfter cwd acts) later) :
    Journey identity cwd (acts ++ later) := by
  induction goes with
  | stay => exact further
  | act plain _ ih =>
    rw [cwdAfter_act plain] at further
    exact .act plain (ih further)
  | visit visit _ ih =>
    rw [cwdAfter_visit] at further
    rw [List.append_assoc]
    exact .visit visit (ih further)

theorem Arrival.after (arrival : Arrival identity (Act.cwdAfter cwd acts) path past looks) (goes : Journey identity cwd acts) :
    Arrival identity cwd path (acts ++ past) looks :=
  ⟨goes.append arrival.goes, Act.cwdAfter_append cwd acts past ▸ arrival.visit⟩

end Journey

namespace Program

variable {α β : Type} {identity : String}

/-- Whether all that a program can do for an identity is a journey, or one that stops where the directory that it has
entered is to be remembered. -/
def Travels (identity : String) (p : Program α) : Prop :=
  ∀ cwd acts q, Leads cwd p acts q → Journey identity cwd acts ∨
    ∃ path past looks next, acts = past ++ (looks ++ [.entered path]) ∧ Journey.Arrival identity cwd path past looks ∧
      q = .call (.set (Key.cwd identity) (.text path)) next

namespace Travels

theorem bind {p : Program α} {f : α → Program β} (first : Travels identity p) (next : ∀ a, Travels identity (f a)) :
    Travels identity (p >>= f) := by
  intro cwd acts q leads
  rcases leads.of_bind with ⟨p', inside, rfl⟩ | ⟨a, front, back, rfl, ended, goes⟩
  · refine (first cwd acts p' inside).imp_right ?_
    rintro ⟨path, past, looks, k, whole, arrival, rfl⟩
    exact ⟨path, past, looks, _, whole, arrival, rfl⟩
  · have whole : Journey identity cwd front := by
      refine (first cwd front _ ended).resolve_right ?_
      rintro ⟨_, _, _, _, _, _, ⟨⟩⟩
    rcases next a _ back q goes with further | ⟨path, past, looks, k, rfl, arrival, same⟩
    · exact .inl (whole.append further)
    · exact .inr ⟨path, front ++ past, looks, k, (List.append_assoc ..).symm, arrival.after whole, same⟩

theorem of_only {Q : α → Prop} {p : Program α} (only : ∀ cwd, Only Act.IsPlain cwd Q p) : Travels identity p :=
  fun cwd _ _ leads => .inl (.of_plain ((only cwd).leads leads).1 cwd)

theorem pure (a : α) : Travels identity (Pure.pure a) :=
  of_only (Q := fun _ => True) fun _ => .done trivial

theorem of_plans {D : String → List Act → Prop} {p : Program α} (plans : ∀ cwd, Plans (D cwd) cwd p)
    (plain : ∀ cwd plan, D cwd plan → ∀ a ∈ plan, a.IsPlain) : Travels identity p := by
  intro cwd acts q leads
  obtain ⟨looks, done, rfl, looked, plan, along, planned⟩ := (plans cwd).leads leads
  refine .inl (.of_plain (List.forall_mem_append.mpr ⟨fun a member => (looked a member).isPlain, ?_⟩) cwd)
  exact fun a member => plain cwd plan planned a (along.subset member)

end Travels

end Program

/-! ## The verbs -/

namespace Verb

variable {identity path label : String} {elevation : Option Elevation}

theorem plain_called (request : StoreCall) {root : String} {rest : List String}
    (place : Key.components request.key = root :: rest) (apart : root ≠ Key.cwdRoot) (answer : Value) :
    (Act.called request answer).IsPlain := by
  cases request with
  | get key => exact trivial
  | _ => exact ⟨root, rest, place, apart⟩

theorem plain_node (request : StoreCall) (resolved : IsResolved path) (place : request.key = Key.node path)
    (answer : Value) : (Act.called request answer).IsPlain := by
  obtain ⟨segs, names, rfl⟩ := resolved.exists_names
  exact plain_called request (place ▸ Key.components_node names) (by decide) answer

theorem plain_passwords (pairs : List (String × Value)) (answer : Value) :
    (Act.called (.update Key.passwords pairs) answer).IsPlain :=
  plain_called (.update Key.passwords pairs) Key.components_passwords (by decide) answer

theorem Protection.plain {protects : Bool} {protection : List Act} (resolved : IsResolved path)
    (entered : Protection label path protects protection) : ∀ a ∈ protection, a.IsPlain := by
  cases entered with
  | none => exact List.forall_mem_nil _
  | @set password filled =>
    obtain ⟨segs, names, rfl⟩ := resolved.exists_names
    have set := plain_called (.set _ (.text password)) (Key.components_password names) (by decide) .null
    exact List.forall_mem_cons.mpr ⟨trivial, List.forall_mem_cons.mpr ⟨trivial, List.forall_mem_singleton.mpr set⟩⟩

theorem plain_removal (resolved : IsResolved path) (node : Node) (recursive : Bool) (reason : Option ElevationReason) :
    ∀ a ∈ removal path node recursive reason, a.IsPlain := by
  have removed := plain_node (.remove _) resolved rfl .null
  have logged : (Act.logged (.removed path (removedPaths path node recursive).length (reason.map (·.text)))).IsPlain := nofun
  exact List.forall_mem_cons.mpr
    ⟨removed, List.forall_mem_cons.mpr ⟨plain_passwords .., List.forall_mem_singleton.mpr logged⟩⟩

theorem plain_write (resolved : IsResolved path) (value : Value) :
    (Act.called (.set (Key.node path) value) .null).IsPlain :=
  plain_node (.set _ value) resolved rfl .null

theorem plain_merge (resolved : IsResolved path) (pairs : List (String × Value)) :
    (Act.called (.update (Key.node path) pairs) .null).IsPlain :=
  plain_node (.update (Key.node path) pairs) resolved rfl .null

end Verb

open Verb

/-- All verbs but `cd` leave the working directories alone. -/
theorem VerbCall.Plan.plain {cwd identity : String} {elevation : Option Elevation} {call : VerbCall} {plan : List Act}
    (planned : Plan cwd identity elevation call plan) (stays : ∀ label, call ≠ .cd label) : ∀ a ∈ plan, a.IsPlain := by
  cases planned with
  | nothing => exact List.forall_mem_nil _
  | visit => exact absurd rfl (stays _)
  | copy writable => exact List.forall_mem_singleton.mpr (plain_write writable.1 _)
  | move found leaves arrives apart =>
    exact List.forall_mem_cons.mpr ⟨plain_write arrives.1 _, plain_removal leaves.1 _ _ _⟩
  | remove writable => exact plain_removal writable.1 _ _ _
  | @make args protection writable protects =>
    have made := plain_merge (writable.1.parent writable.2.1)
      [(CodeTable.segment.escape (Path.name (Path.resolve (Operand.ofArgs args).label cwd)), newDirectory)]
    exact List.forall_mem_append.mpr ⟨protects.plain writable.1, List.forall_mem_singleton.mpr made⟩
  | edit writable protects =>
    refine List.forall_mem_append.mpr ⟨protects.plain writable.1, ?_⟩
    refine List.forall_mem_cons.mpr ⟨plain_write writable.1 _, List.forall_mem_cons.mpr ⟨trivial, fun a member => ?_⟩⟩
    obtain ⟨text, -, rfl⟩ := Option.map_eq_some_iff.mp (Option.mem_toList.mp member)
    exact plain_write writable.1 _
  | redirect writable => exact List.forall_mem_singleton.mpr (plain_write writable.1 _)

theorem Verb.Visit.plain {identity cwd path : String} {looks : List Act} (visit : Visit identity cwd path looks) :
    ∀ a ∈ looks, a.IsPlain := by
  obtain ⟨value, children, passed, label, rfl, -, unlocks⟩ := visit.found
  exact List.forall_mem_cons.mpr ⟨trivial, fun a member => (unlocks a member).looks.isPlain⟩

namespace Verb

variable {identity cwd label path : String} {elevation : Option Elevation} {acts : List Act}

theorem eq_of_leads_locate (located : Leads cwd (locate label) acts (.done path)) :
    acts = [] ∧ path = Path.resolve label cwd := by
  cases located with
  | cwd next =>
    cases next with
    | here => exact ⟨rfl, rfl⟩

theorem eq_of_leads_load {node : Option Node} (found : Leads cwd (load path) acts (.done node)) :
    ∃ value, acts = [.called (.get (Key.node path)) value] ∧ node = loaded path value := by
  rw [load_eq] at found
  cases found with
  | call s next =>
    cases next with
    | here => exact ⟨_, rfl, rfl⟩

/-- What a `cd` does that finds a directory and passes the gate. -/
theorem visit_of_leads {children : Entries} {read passed : List Act} (filled : label ≠ "")
    (located : Leads cwd (locate label) [] (.done path))
    (found : Leads cwd (load path) read (.done (some (.directory children))))
    (passes : Leads cwd (gate label path elevation.isSome) passed (.done none)) :
    Visit identity cwd path (read ++ passed) := by
  obtain ⟨-, rfl⟩ := eq_of_leads_locate located
  obtain ⟨value, rfl, node⟩ := eq_of_leads_load found
  have unlocks := ((gate_unlocks label (Path.resolve label cwd) elevation.isSome).leads passes).1
  refine ⟨isResolved_resolve .., ⟨value, children, passed, label, rfl, node.symm, unlocks⟩, label, elevation, rfl, ?_⟩
  rw [cd, if_neg filled]
  exact (located.bind _).trans ((found.bind _).trans (passes.bind _))

/-- Behind its visit a `cd` enters the directory and remembers it, unless the store fails. -/
theorem Visit.travels {looks : List Act} {result : Result} {q : Program Result} (visit : Visit identity cwd path looks)
    (leads : Leads cwd (Context.changeDirectory identity path >>= fun _ => pure result) acts q) :
    Journey identity cwd (looks ++ acts) ∨
      ∃ path' past looks' next, looks ++ acts = past ++ (looks' ++ [.entered path']) ∧
        Journey.Arrival identity cwd path' past looks' ∧ q = .call (.set (Key.cwd identity) (.text path')) next := by
  change Leads cwd (.enter path (.call (.set (Key.cwd identity) (.text path)) fun _ => .done result)) acts q at leads
  cases leads with
  | here =>
    rw [List.append_nil]
    exact .inl (.of_plain visit.plain cwd)
  | enter next =>
    cases next with
    | here => exact .inr ⟨path, [], looks, _, rfl, ⟨.stay cwd, visit⟩, rfl⟩
    | call s next =>
      cases next with
      | here => exact .inl (.visit visit (.stay path))

/-- A `cd` visits a directory, or does nothing but look. -/
theorem cd_travels (identity label : String) (elevation : Option Elevation) :
    (cd identity label elevation).Travels identity := by
  intro cwd acts q leads
  have looking {looks : List Act} (looked : ∀ a ∈ looks, a.Looks) : Journey identity cwd looks :=
    .of_plain (fun a member => (looked a member).isPlain) cwd
  by_cases blank : label = ""
  · rw [cd, if_pos blank] at leads
    exact Program.Travels.pure _ cwd acts q leads
  · rw [cd, if_neg blank] at leads
    rcases (locate_looks label).split leads with looked | ⟨path, first, rest, rfl, -, -, located, behind⟩
    · exact .inl (looking looked)
    obtain ⟨rfl, -⟩ := eq_of_leads_locate located
    rcases (load_looks path).split behind with looked | ⟨node, read, rest, rfl, looked, -, found, behind⟩
    · exact .inl (looking looked)
    match node with
    | none | some (.file _) =>
      cases behind with
      | here => exact .inl (looking (by simpa using looked))
    | some (.directory children) =>
      rcases (gate_looks label path _).split behind with gated | ⟨refusal, passed, rest, rfl, gated, -, passes, behind⟩
      · have whole := List.forall_mem_append.mpr ⟨looked, gated⟩
        exact .inl (looking whole)
      cases refusal with
      | some refusal =>
        have whole := List.forall_mem_append.mpr ⟨looked, gated⟩
        cases behind with
        | here => exact .inl (looking (by simpa using whole))
      | none =>
        have visit : Visit identity cwd path (read ++ passed) := visit_of_leads blank located found passes
        exact List.append_assoc read passed rest ▸ visit.travels behind

end Verb

theorem VerbCall.travels (identity : String) (elevation : Option Elevation) (call : VerbCall) :
    (call.program identity elevation).Travels identity := by
  have others (stays : ∀ label, call ≠ .cd label) : (call.program identity elevation).Travels identity :=
    .of_plans (fun cwd => call.plans cwd identity elevation) fun _ _ planned => planned.plain stays
  cases call with
  | cd label => exact cd_travels identity label elevation
  | _ => exact others nofun

/-! ## Lines -/

theorem VerbCall.reply_travels (identity : String) (elevation : Option Elevation) (call : VerbCall) :
    (call.reply identity elevation).Travels identity :=
  (call.travels identity elevation).bind fun _ => .pure _

theorem Moderation.ban_plain (cwd target : String) : (ban target).Only Act.IsPlain cwd fun _ => True := by
  have place : Key.components (Key.ban "") = [Key.banRoot] := by decide
  unfold ban
  split
  · exact .done trivial
  · exact .call (fun v => plain_called (.update _ _) place (by decide) v) fun _ => .done trivial

theorem Moderation.unban_plain (cwd target : String) : (unban target).Only Act.IsPlain cwd fun _ => True := by
  unfold unban
  split
  · exact .done trivial
  · next filled =>
    have place := (Key.spells_ban filled).components_eq
    exact .call (fun v => plain_called (.remove _) place (by decide) v) fun _ => .done trivial

theorem Moderation.listBanned_plain (cwd : String) : listBanned.Only Act.IsPlain cwd fun _ => True := by
  have listed : BanList.list.Only Act.IsPlain cwd fun _ => True := by
    refine .call (fun _ => trivial) fun v => ?_
    cases v <;> exact .done trivial
  refine listed.bind fun banned _ => ?_
  cases banned <;> exact .done trivial

theorem Command.program_travels (identity stdin : String) (elevation : Option Elevation) (command : Command) :
    (command.program identity stdin elevation).Travels identity := by
  have replies (call : VerbCall) := call.reply_travels identity elevation
  cases command with
  | verb call =>
    cases call with
    | cat label =>
      rw [program]
      split
      · exact replies (.cat label)
      · exact .pure _
    | _ => exact replies _
  | pwd => exact .of_only (Q := fun _ => True) fun _ => .cwd (.done trivial)
  | echo args | help => exact .pure _
  | ban target => exact .of_only (Moderation.ban_plain · target)
  | unban target => exact .of_only (Moderation.unban_plain · target)
  | listBanned => exact .of_only Moderation.listBanned_plain

namespace Pipeline

variable {identity : String}

theorem runWords_travels (words : List String) (stdin : String) (elevation : Option Elevation) :
    (runWords identity words stdin elevation).Travels identity := by
  unfold runWords
  dsimp only
  cases Command.ofName? (words.headD "") words.tail with
  | none => exact .pure _
  | some command =>
    dsimp only
    split
    · exact .pure _
    · exact (command.program_travels identity stdin elevation).bind fun _ => .pure _

theorem runStage_travels (stage stdin : String) (granted : Option Elevation) :
    (runStage identity stage stdin granted).Travels identity := by
  unfold runStage
  split
  · exact runWords_travels [] stdin none
  · split
    · cases granted with
      | none => exact .pure _
      | some elevation =>
        dsimp only
        split
        · exact .pure _
        · exact runWords_travels _ stdin (some elevation)
    · exact runWords_travels _ stdin none

theorem runStages_travels (granted : Option Elevation) (stages : List String) (result : StageResult) :
    (runStages identity granted stages result).Travels identity := by
  induction stages generalizing result with
  | nil => exact .pure _
  | cons stage rest ih => exact (runStage_travels stage result.output granted).bind ih

theorem writeTarget_travels (target : String) (result : StageResult) :
    (writeTarget identity target result).Travels identity := by
  refine ((VerbCall.redirect target result.output).travels identity result.elevation).bind fun written => ?_
  cases written with
  | ok _ => exact .pure _
  | error refusal => exact .of_only (Q := fun _ => True) fun _ => .log nofun (.done trivial)

/-- All that a line can do is a journey, or one that a failing store has cut short. -/
theorem run_travels (identity line : String) (granted : Option Elevation) : (run identity line granted).Travels identity := by
  refine (runStages_travels granted _ _).bind fun result => ?_
  cases (CommandLine.parse line).target with
  | none => exact .pure _
  | some target => exact (writeTarget_travels target result).bind fun _ => .pure _

end Pipeline

/-! ## What a line leaves alone -/

/-- Whether an act is plain, or enters a directory or remembers one of the given identity. -/
inductive Act.IsOwn (identity : String) : Act → Prop
  | plain {a : Act} (plain : a.IsPlain) : IsOwn identity a
  | entered (path : String) : IsOwn identity (.entered path)
  | remembers (path : String) : IsOwn identity (.remembers identity path)

variable {identity other cwd path : String} {acts past looks before now : List Act}

theorem Verb.Visit.own (visit : Visit identity cwd path looks) {later : List Act} (own : ∀ a ∈ later, a.IsOwn identity) :
    ∀ a ∈ looks ++ .entered path :: later, a.IsOwn identity :=
  List.forall_mem_append.mpr
    ⟨fun a member => .plain (visit.plain a member), List.forall_mem_cons.mpr ⟨.entered path, own⟩⟩

theorem Journey.own (goes : Journey identity cwd acts) : ∀ a ∈ acts, a.IsOwn identity := by
  induction goes with
  | stay => exact List.forall_mem_nil _
  | act plain _ ih => exact List.forall_mem_cons.mpr ⟨.plain plain, ih⟩
  | visit visit _ ih => exact visit.own (List.forall_mem_cons.mpr ⟨.remembers _, ih⟩)

theorem Program.Travels.own {α : Type} {p q : Program α} (travels : p.Travels identity) (leads : Leads cwd p acts q) :
    ∀ a ∈ acts, a.IsOwn identity := by
  rcases travels cwd acts q leads with goes | ⟨path, past, looks, k, rfl, arrival, -⟩
  · exact goes.own
  · exact List.forall_mem_append.mpr ⟨arrival.goes.own, arrival.visit.own (List.forall_mem_nil _)⟩

/-- A line never logs that a line was dropped. -/
theorem Act.not_mem_events (own : ∀ a ∈ acts, a.IsOwn identity) (other : String) :
    Event.promptAbandoned other ∉ Act.events acts := by
  intro logged
  obtain ⟨a, member, event⟩ := List.mem_filterMap.mp logged
  cases a with
  | logged e =>
    obtain rfl := Option.some.inj event
    cases own _ member with
    | plain plain => exact plain other rfl
  | _ => cases event

/-- Calls that read, or are made elsewhere, leave a place alone. -/
theorem Store.find_after_apart {place : List String}
    (apart : ∀ request answer, .called request answer ∈ acts →
      (∃ key, request = .get key) ∨ Apart (Key.components request.key) place) (s : Store) :
    (s.after (Act.calls acts)).find place = s.find place := by
  induction acts generalizing s with
  | nil => rfl
  | cons a rest ih =>
    have later (s : Store) := ih (fun request answer member => apart request answer (List.mem_cons_of_mem _ member)) s
    cases a with
    | called request answer =>
      refine (later _).trans ?_
      rcases apart request answer (List.mem_cons_self ..) with ⟨key, rfl⟩ | apart
      · rfl
      · exact find_perform_apart apart s
    | _ => exact later s

theorem Act.IsPlain.apart {request : StoreCall} {answer : Value} (plain : (Act.called request answer).IsPlain)
    (identity : String) : (∃ key, request = .get key) ∨ Apart (Key.components request.key) (Key.components (Key.cwd identity)) := by
  cases request with
  | get key => exact .inl ⟨key, rfl⟩
  | _ =>
    obtain ⟨root, rest, place, apart⟩ := plain
    rw [place, Key.components_cwd]
    exact .inr (apart_cons_of_ne apart)

/-- Plain acts leave alone what is remembered of any identity. -/
theorem Store.get_cwd_of_plain (plain : ∀ a ∈ acts, a.IsPlain) (identity : String) (s : Store) :
    (s.after (Act.calls acts)).get (Key.cwd identity) = s.get (Key.cwd identity) :=
  find_after_apart (fun _ _ member => (plain _ member).apart identity) s

/-- What a line of one identity does leaves alone what is remembered of another. -/
theorem Store.get_cwd_of_own (own : ∀ a ∈ acts, a.IsOwn identity) (filled : identity ≠ "") (otherFilled : other ≠ "")
    (differs : other ≠ identity) (s : Store) :
    (s.after (Act.calls acts)).get (Key.cwd other) = s.get (Key.cwd other) := by
  refine find_after_apart (fun request answer member => ?_) s
  generalize act : Act.called request answer = a at member
  cases own a member with
  | plain plain => exact (act ▸ plain : (Act.called request answer).IsPlain).apart other
  | entered path => cases act
  | remembers path =>
    obtain ⟨rfl, -⟩ := Act.called.inj act
    exact .inr (Key.apart_cwd filled otherFilled (Ne.symm differs))

/-! ## Where a journey ends -/

theorem Act.cwdAfter_of_plain (plain : ∀ a ∈ acts, a.IsPlain) (cwd : String) : Act.cwdAfter cwd acts = cwd := by
  induction acts with
  | nil => rfl
  | cons a rest ih =>
    obtain ⟨first, later⟩ := List.forall_mem_cons.mp plain
    rw [Journey.cwdAfter_act first, ih later]

/-- A journey visits nothing, or it has a last visit. -/
theorem Journey.last (goes : Journey identity cwd acts) :
    (∀ a ∈ acts, a.IsPlain) ∨ ∃ path past looks back,
      acts = past ++ (looks ++ .entered path :: .remembers identity path :: back) ∧
        Arrival identity cwd path past looks ∧ ∀ a ∈ back, a.IsPlain := by
  induction goes with
  | stay => exact .inl (List.forall_mem_nil _)
  | @act cwd a later plain _ ih =>
    rcases ih with others | ⟨path, past, looks, back, rfl, arrival, still⟩
    · exact .inl (List.forall_mem_cons.mpr ⟨plain, others⟩)
    · refine .inr ⟨path, a :: past, looks, back, rfl, ⟨.act plain arrival.goes, ?_⟩, still⟩
      rw [cwdAfter_act plain]
      exact arrival.visit
  | @visit cwd first seen later visit _ ih =>
    rcases ih with others | ⟨path, past, looks, back, rfl, arrival, still⟩
    · exact .inr ⟨first, [], seen, later, rfl, ⟨.stay cwd, visit⟩, others⟩
    · refine .inr ⟨path, seen ++ .entered first :: .remembers identity first :: past, looks, back, ?_,
        ⟨.visit visit arrival.goes, ?_⟩, still⟩
      · simp
      · rw [cwdAfter_visit]
        exact arrival.visit

/-- How a line that has done something from a working directory on goes on to do more, and what is then left of it: it
visits nothing further, its last visit is among what it does now, or it stops where that is to be remembered. -/
inductive Leg (identity cwd : String) (before now : List Act) (left : Program String) : Prop
  | plain (plain : ∀ a ∈ now, a.IsPlain)
  | visit {path : String} {past looks front back : List Act} (arrival : Journey.Arrival identity cwd path past looks)
    (whole : before ++ now = past ++ (looks ++ .entered path :: .remembers identity path :: back))
    (part : now = front ++ .entered path :: .remembers identity path :: back) (plain : ∀ a ∈ back, a.IsPlain)
  | stuck {path : String} {past looks front : List Act} {next : Value → Program String}
    (arrival : Journey.Arrival identity cwd path past looks) (whole : before ++ now = past ++ (looks ++ [.entered path]))
    (part : now = front ++ [.entered path]) (left_eq : left = .call (.set (Key.cwd identity) (.text path)) next)

/-- Where a directory is entered in some acts that are done in two parts. -/
theorem Act.part_of_whole {front back : List Act} (whole : before ++ now = front ++ .entered path :: back) :
    (∃ front', now = front' ++ .entered path :: back) ∨ ∃ early, back = early ++ now ∧ before ≠ [] := by
  rcases List.append_eq_append_iff.mp whole with ⟨early, -, now_eq⟩ | ⟨early, before_eq, rest⟩
  · exact .inl ⟨early, now_eq⟩
  · rcases List.append_eq_cons_iff.mp rest.symm with ⟨-, now_eq⟩ | ⟨early', rfl, back_eq⟩
    · exact .inl ⟨[], now_eq⟩
    · exact .inr ⟨early', back_eq, by simp [before_eq]⟩

/-- A line goes on so, from its start or from a prompt. -/
theorem Program.Travels.leg {p q : Program String} (travels : p.Travels identity) (leads : Leads cwd p (before ++ now) q)
    (begins : before ≠ [] → ∃ prompt answer rest, now = .asked prompt answer :: rest) : Leg identity cwd before now q := by
  rcases travels cwd _ q leads with goes | ⟨path, past, looks, k, whole, arrival, left⟩
  · rcases goes.last with plain | ⟨path, past, looks, back, whole, arrival, plain⟩
    · exact .plain fun a member => plain a (List.mem_append_right _ member)
    · rcases Act.part_of_whole (whole.trans (List.append_assoc ..).symm) with ⟨front, part⟩ | ⟨early, back_eq, some⟩
      · exact .visit arrival whole part plain
      · obtain ⟨prompt, answer, rest, rfl⟩ := begins some
        refine .plain fun a member => plain a ?_
        rcases List.cons_eq_append_iff.mp back_eq with ⟨-, now_eq⟩ | ⟨early', -, back_eq⟩
        · cases now_eq
        · exact back_eq ▸ List.mem_append_right _ member
  · rcases Act.part_of_whole (whole.trans (List.append_assoc ..).symm) with ⟨front, part⟩ | ⟨early, back_eq, some⟩
    · exact .stuck arrival whole part left
    · obtain ⟨prompt, answer, rest, rfl⟩ := begins some
      cases (List.append_eq_nil_iff.mp back_eq.symm).2

end TreeShell
