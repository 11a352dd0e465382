import TreeShell.Proofs.Program.Plans
import TreeShell.Proofs.Verb.Outcome
import TreeShell.Proofs.Verb.Upkeep

/-! # The plans of the verbs

A verb looks until it knows what to do, and then follows one plan: it enters a directory, writes one value, moves or
removes a node with its passwords, makes a directory or edits a file, the last two behind a new password where one was
asked for (`VerbCall.Plan`). Whatever it reads, however it is answered, and wherever it stops, it has come some way
along such a plan (`VerbCall.plans`).
-/

namespace TreeShell

open Path (IsResolved isResolved_resolve)
open Program (Only Plans PlansAfter)

namespace Verb

variable {cwd label path : String} {elevation : Option Elevation} {D : List Act → Prop}

/-! ## Looking -/

theorem locate_looks (label : String) : (locate label).Only Act.Looks cwd (· = Path.resolve label cwd) :=
  .cwd (.done rfl)

/-- A look-up at the root finds a directory. -/
theorem load_looks (path : String) :
    (load path).Only Act.Looks cwd fun node => path = "/" → ∃ children, node = some (.directory children) := by
  rw [load_eq]
  refine .call (fun _ => trivial) fun _ => .done ?_
  rintro rfl
  exact loaded_root _

theorem nearestIsFile_looks (paths : List String) : (nearestIsFile paths).Only Act.Looks cwd fun _ => True := by
  induction paths with
  | nil => exact .done trivial
  | cons path rest ih =>
    refine (load_looks path).bind fun node _ => ?_
    cases node with
    | none => exact ih
    | some node => cases node <;> exact .done trivial

theorem belowFile_looks (label path : String) : (belowFile label path).Only Act.Looks cwd fun r => r = none → True := by
  refine (nearestIsFile_looks _).bind fun found _ => ?_
  cases found <;> exact .done fun _ => trivial

theorem belowFileIf_looks (absent : Bool) (label path : String) :
    (if absent then belowFile label path else pure none : Program _).Only Act.Looks cwd fun r => r = none → True := by
  cases absent with
  | true => exact belowFile_looks label path
  | false => exact .done fun _ => trivial

/-- Whether an act is part of the gate of a path: a look at its password, or the prompt for it. -/
inductive Unlocks (label path : String) : Act → Prop
  | read (value : Value) : Unlocks label path (.called (.get (Key.password path)) value)
  | ask (attempt : Answer) : Unlocks label path (.asked (passwordPrompt label) attempt)

theorem Unlocks.looks {act : Act} (unlocks : Unlocks label path act) : act.Looks := by
  cases unlocks with
  | read value => exact trivial
  | ask attempt => exact rfl

/-- The gate lets only elevation pass to metadata. -/
theorem gate_unlocks (label path : String) (elevated : Bool) :
    (gate label path elevated).Only (Unlocks label path) cwd
      fun r => r = none → elevated = true ∨ Key.isMetadata path = false := by
  cases elevated with
  | true => exact .done fun _ => .inl rfl
  | false =>
    rw [gate_eq]
    split
    · exact .done nofun
    · next outside =>
      have free : Key.isMetadata path = false := by simpa using outside
      refine .call .read fun _ => ?_
      split
      · exact .ask .ask fun _ => .call .read fun _ => .done fun _ => .inr free
      · exact .done fun _ => .inr free

theorem gate_looks (label path : String) (elevated : Bool) :
    (gate label path elevated).Only Act.Looks cwd
      fun r => r = none → elevated = true ∨ Key.isMetadata path = false :=
  (gate_unlocks label path elevated).mono (fun _ => Unlocks.looks) fun _ passed => passed

/-! ## Parts of plans -/

/-- What gives a path a new password, if one is asked for: it is entered twice and then set. -/
inductive Protection (label path : String) : Bool → List Act → Prop
  | none : Protection label path false []
  | set {password : String} (filled : password ≠ "") :
    Protection label path true
      [.asked (newPasswordPrompt label) (some password), .asked confirmPrompt (some password),
        .called (.set (Key.password path) (.text password)) .null]

theorem newPassword_eq (label path : String) :
    newPassword label path =
      .ask (newPasswordPrompt label) fun first =>
        match first with
        | none => .done (some .cancelled)
        | some first =>
          if first = "" then .done (some .cancelled)
          else .ask confirmPrompt fun second =>
            if second = some first then .call (.set (Key.password path) (.text first)) fun _ => .done none
            else .done (some .passwordsDiffer) := by
  refine congrArg (Program.ask _) (funext fun first => ?_)
  cases first with
  | none => rfl
  | some first =>
    change (if first = "" then _ else _) = (if first = "" then _ else _)
    split
    · rfl
    · refine congrArg (Program.ask _) (funext fun second => ?_)
      change (if second = some first then _ else _) = (if second = some first then _ else _)
      split <;> rfl

theorem isWrite_set (key : String) (value : Value) : (StoreCall.set key value).IsWrite :=
  fun _ => rfl

theorem isWrite_update (key : String) (pairs : List (String × Value)) : (StoreCall.update key pairs).IsWrite :=
  fun _ => rfl

theorem isWrite_remove (key : String) : (StoreCall.remove key).IsWrite :=
  fun _ => rfl

/-- A new password, and what comes after it. -/
theorem plans_newPasswordIf {protects : Bool} {f : Option Refusal → Program Result} (nothing : D [])
    (refuses : ∀ r, ∃ result, f (some r) = .done result)
    (next : ∀ protection, Protection label path protects protection →
      Program.Follows (fun plan => D (protection ++ plan)) (f none)) :
    Plans D cwd ((if protects then newPassword label path else pure none) >>= f) := by
  cases protects with
  | false => exact .of_follows (next [] .none)
  | true =>
    have stops (r : Refusal) : Plans D cwd (f (some r)) := by
      obtain ⟨result, same⟩ := refuses r
      rw [same]
      exact .pure nothing result
    have entered (a : Answer) : ∀ act ∈ [Act.asked (newPasswordPrompt label) a], act.Looks :=
      List.forall_mem_singleton.mpr rfl
    have confirmed (a b : Answer) :
        ∀ act ∈ [Act.asked (newPasswordPrompt label) a, .asked confirmPrompt b], act.Looks :=
      List.forall_mem_cons.mpr ⟨rfl, List.forall_mem_singleton.mpr rfl⟩
    rw [if_pos rfl, newPassword_eq]
    refine PlansAfter.ask nothing (List.forall_mem_nil _) fun first => ?_
    cases first with
    | none => exact .of_plans (entered none) (stops .cancelled)
    | some first =>
      by_cases empty : first = ""
      · simp only [empty, if_true]
        exact .of_plans (entered _) (stops .cancelled)
      · simp only [empty, if_false]
        refine PlansAfter.ask nothing (entered _) fun second => ?_
        by_cases same : second = some first
        · subst same
          simp only [if_true]
          exact .of_follows (.write (isWrite_set _ _) (next _ (.set empty)))
        · simp only [same, if_false]
          exact .of_plans (confirmed _ _) (stops .passwordsDiffer)

/-- What removes a node with its passwords. -/
def removal (path : String) (node : Node) (recursive : Bool) (reason : Option ElevationReason) : List Act :=
  [.called (.remove (Key.node path)) .null,
    .called (.update Key.passwords (Vault.removals (removedPaths path node recursive))) .null,
    .logged (.removed path (removedPaths path node recursive).length (reason.map (·.text)))]

theorem removeNode_follows {path : String} {node : Node} {recursive : Bool} {reason : Option ElevationReason}
    (whole : D (removal path node recursive reason)) (result : Result) :
    Program.Follows D (removeNode path node recursive reason >>= fun _ => pure result) :=
  .write (isWrite_remove _) (.write (isWrite_update _ _) (.log (.done whole)))

/-- What writes the text of a file once. -/
def save (path text : String) : Act :=
  .called (.set (Key.node path) (.text text)) .null

end Verb

open Verb

/-- The plans of a verb in a working directory. A plan that writes does so where the verb may. -/
inductive VerbCall.Plan (cwd identity : String) (elevation : Option Elevation) : VerbCall → List Act → Prop
  | nothing {call : VerbCall} : Plan cwd identity elevation call []
  | visit {label : String} :
    Plan cwd identity elevation (.cd label)
      [.entered (Path.resolve label cwd), .called (.set (Key.cwd identity) (.text (Path.resolve label cwd))) .null]
  | copy {source target : String} {value : Value} (writable : Writable elevation.isSome (Path.resolve target cwd)) :
    Plan cwd identity elevation (.cp source target) [.called (.set (Key.node (Path.resolve target cwd)) value) .null]
  | move {source target final : String} {value : Value} {node : Node} (found : Node.ofValue? value = some node)
    (leaves : Writable elevation.isSome (Path.resolve source cwd)) (arrives : Writable elevation.isSome final)
    (apart : Path.isWithin final (Path.resolve source cwd) = false) :
    Plan cwd identity elevation (.mv source target)
      (.called (.set (Key.node final) value) .null ::
        removal (Path.resolve source cwd) node node.isDirectory (some .earlierStep))
  | remove {args : List String} {node : Node} (writable : Writable elevation.isSome (Path.resolve (removalLabel args) cwd)) :
    Plan cwd identity elevation (.rm args)
      (removal (Path.resolve (removalLabel args) cwd) node (args.contains "-r") (elevation.map (·.reason)))
  | make {args : List String} {protection : List Act}
    (writable : Writable elevation.isSome (Path.resolve (Operand.ofArgs args).label cwd))
    (protects : Protection (Operand.ofArgs args).label (Path.resolve (Operand.ofArgs args).label cwd)
      ((Operand.ofArgs args).protects && elevation.isNone) protection) :
    Plan cwd identity elevation (.mkdir args)
      (protection ++
        [.called (.update (Key.node (Path.parent (Path.resolve (Operand.ofArgs args).label cwd)))
          [(CodeTable.segment.escape (Path.name (Path.resolve (Operand.ofArgs args).label cwd)), newDirectory)]) .null])
  | edit {args : List String} {protection : List Act} {existing : String} {answer : Answer}
    (writable : Writable elevation.isSome (Path.resolve (Operand.ofArgs args).label cwd))
    (protects : Protection (Operand.ofArgs args).label (Path.resolve (Operand.ofArgs args).label cwd)
      ((Operand.ofArgs args).protects && elevation.isNone) protection) :
    Plan cwd identity elevation (.vim args)
      (protection ++
        save (Path.resolve (Operand.ofArgs args).label cwd) existing ::
          .asked (editPrompt (Operand.ofArgs args).label existing) answer ::
            (answer.map (save (Path.resolve (Operand.ofArgs args).label cwd))).toList)
  | redirect {label text : String} (writable : Writable elevation.isSome (Path.resolve label cwd)) :
    Plan cwd identity elevation (.redirect label text) [save (Path.resolve label cwd) text]

namespace Verb

variable {cwd identity : String} {elevation : Option Elevation}

theorem ls_looks (label : String) (elevation : Option Elevation) :
    (ls label elevation).Only Act.Looks cwd fun _ => True := by
  refine (locate_looks label).bind fun path _ => (load_looks path).bind fun node _ => ?_
  cases node with
  | none => exact .done trivial
  | some node =>
    refine (gate_looks _ path _).past (fun _ => .done trivial) fun _ => ?_
    cases node <;> exact .done trivial

theorem file_looks (label : String) (elevation : Option Elevation) :
    (file label elevation).Only Act.Looks cwd fun _ => True := by
  unfold file
  split
  · exact .done trivial
  · refine (locate_looks label).bind fun path _ => (load_looks path).bind fun node _ => ?_
    cases node with
    | none => exact .done trivial
    | some node =>
      refine (gate_looks label path _).past (fun _ => .done trivial) fun _ => ?_
      cases node <;> exact .done trivial

theorem cat_looks (label : String) (elevation : Option Elevation) :
    (cat label elevation).Only Act.Looks cwd fun _ => True := by
  unfold cat
  split
  · exact .done trivial
  · refine (locate_looks label).bind fun path _ => (load_looks path).bind fun node _ => ?_
    cases node with
    | none => exact .done trivial
    | some node =>
      refine (gate_looks label path _).past (fun _ => .done trivial) fun _ => ?_
      cases node <;> exact .done trivial

theorem cd_plans (label : String) :
    Plans (VerbCall.Plan cwd identity elevation (.cd label)) cwd (cd identity label elevation) := by
  unfold cd
  split
  · exact .pure .nothing _
  · refine .bind .nothing (locate_looks label) fun path located => ?_
    refine .bind .nothing (load_looks path) fun node _ => ?_
    cases node with
    | none => exact .pure .nothing _
    | some node =>
      cases node with
      | file content => exact .pure .nothing _
      | directory children =>
        refine .past .nothing (gate_looks label path _) (fun _ => .pure .nothing _) fun _ => ?_
        subst located
        exact .of_follows (.enter (.write (isWrite_set _ _) (.done .visit)))

theorem cp_plans (source target : String) :
    Plans (VerbCall.Plan cwd identity elevation (.cp source target)) cwd (cp source target elevation) := by
  unfold cp
  split
  · exact .pure .nothing _
  · refine .bind .nothing (locate_looks source) fun sourcePath _ => ?_
    refine .bind .nothing (locate_looks target) fun targetPath located => ?_
    split
    · exact .pure .nothing _
    · have read : (Program.fetch (Key.node sourcePath)).Only Act.Looks cwd fun _ => True :=
        .call (fun _ => trivial) fun _ => .done trivial
      refine .bind .nothing read fun value _ => ?_
      split
      · exact .pure .nothing _
      · refine .past .nothing (gate_looks source sourcePath _) (fun _ => .pure .nothing _) fun _ => ?_
        dsimp only
        split
        · exact .pure .nothing _
        · next targetNotRoot =>
          split
          · exact .pure .nothing _
          · refine .past .nothing (belowFile_looks target targetPath) (fun _ => .pure .nothing _) fun _ => ?_
            refine .past .nothing (gate_looks target targetPath _) (fun _ => .pure .nothing _) fun allowed => ?_
            subst located
            have writable : Writable elevation.isSome (Path.resolve target cwd) :=
              ⟨isResolved_resolve .., targetNotRoot, allowed⟩
            exact .of_follows (.write (isWrite_set _ _) (.done (.copy writable)))

theorem mv_plans (source target : String) :
    Plans (VerbCall.Plan cwd identity elevation (.mv source target)) cwd (mv source target elevation) := by
  unfold mv
  split
  · exact .pure .nothing _
  · refine .bind .nothing (locate_looks source) fun sourcePath sourceLocated => ?_
    refine .bind .nothing (locate_looks target) fun targetPath targetLocated => ?_
    split
    · exact .pure .nothing _
    · next sourceNotRoot =>
      have read : (Program.fetch (Key.node sourcePath)).Only Act.Looks cwd fun _ => True :=
        .call (fun _ => trivial) fun _ => .done trivial
      refine .bind .nothing read fun value _ => ?_
      cases found : Node.ofValue? value with
      | none => exact .pure .nothing _
      | some node =>
        dsimp only
        split
        · exact .pure .nothing _
        · refine .past .nothing (gate_looks source sourcePath _) (fun _ => .pure .nothing _) fun allowed => ?_
          refine .bind .nothing (load_looks targetPath) fun there atRoot => ?_
          have sourceResolved : IsResolved sourcePath := sourceLocated ▸ isResolved_resolve ..
          have targetResolved : IsResolved targetPath := targetLocated ▸ isResolved_resolve ..
          have arrives : IsResolved (destination sourcePath targetPath there) ∧
              destination sourcePath targetPath there ≠ "/" := by
            rcases there with _ | content | children
            · exact ⟨targetResolved, fun root => absurd (atRoot root) nofun⟩
            · exact ⟨targetResolved, fun root => absurd (atRoot root) nofun⟩
            · exact targetResolved.join_name sourceResolved sourceNotRoot
          split
          · exact .pure .nothing _
          · next apart =>
            split
            · exact .pure .nothing _
            · next outside =>
              refine .past .nothing (belowFile_looks target _) (fun _ => .pure .nothing _) fun _ => ?_
              subst sourceLocated
              refine .of_follows (.write (isWrite_set _ _) (removeNode_follows (.move found ?_ ?_ ?_) _))
              · exact ⟨sourceResolved, sourceNotRoot, allowed⟩
              · exact ⟨arrives.1, arrives.2, by grind⟩
              · exact Bool.eq_false_iff.mpr apart

theorem rm_plans (args : List String) : Plans (VerbCall.Plan cwd identity elevation (.rm args)) cwd (rm args elevation) := by
  unfold rm
  dsimp only
  split
  · exact .pure .nothing _
  · refine .bind .nothing (locate_looks (removalLabel args)) fun path located => ?_
    split
    · exact .pure .nothing _
    · next notRoot =>
      split
      · exact .pure .nothing _
      · refine .bind .nothing (load_looks path) fun node _ => ?_
        cases node with
        | none => exact .pure .nothing _
        | some node =>
          dsimp only
          split
          · exact .pure .nothing _
          · refine .past .nothing (gate_looks _ path _) (fun _ => .pure .nothing _) fun allowed => ?_
            dsimp only
            split
            · exact .pure .nothing _
            · subst located
              exact .of_follows (removeNode_follows (.remove ⟨isResolved_resolve .., notRoot, allowed⟩) _)

theorem mkdir_plans (args : List String) :
    Plans (VerbCall.Plan cwd identity elevation (.mkdir args)) cwd (mkdir args elevation) := by
  unfold mkdir
  dsimp only
  split
  · exact .pure .nothing _
  · refine .bind .nothing (locate_looks _) fun path located => ?_
    split
    · exact .pure .nothing _
    · next notRoot =>
      split
      · exact .pure .nothing _
      · next outside =>
        refine .bind .nothing (load_looks _) fun parent _ => ?_
        split
        · split
          · exact .pure .nothing _
          · subst located
            have unelevated : elevation.isNone = !elevation.isSome := by cases elevation <;> rfl
            have writable : Writable elevation.isSome (Path.resolve (Operand.ofArgs args).label cwd) :=
              ⟨isResolved_resolve .., notRoot, by grind⟩
            refine plans_newPasswordIf .nothing (fun r => ⟨_, rfl⟩) fun protection protects => ?_
            exact .write (isWrite_update _ _) (.done (.make writable protects))
        · exact .pure .nothing _

theorem vim_plans (args : List String) : Plans (VerbCall.Plan cwd identity elevation (.vim args)) cwd (vim args elevation) := by
  unfold vim
  dsimp only
  split
  · exact .pure .nothing _
  · refine .bind .nothing (locate_looks _) fun path located => ?_
    refine .bind .nothing (load_looks path) fun node atRoot => ?_
    split
    · exact .pure .nothing _
    · next notDirectory =>
      have notRoot : path ≠ "/" := fun root => (atRoot root).elim notDirectory
      refine .past .nothing (belowFileIf_looks _ _ path) (fun _ => .pure .nothing _) fun _ => ?_
      refine .past .nothing (gate_looks _ path _) (fun _ => .pure .nothing _) fun allowed => ?_
      subst located
      have writable : Writable elevation.isSome (Path.resolve (Operand.ofArgs args).label cwd) :=
        ⟨isResolved_resolve .., notRoot, allowed⟩
      refine plans_newPasswordIf .nothing (fun r => ⟨_, rfl⟩) fun protection protects => ?_
      refine .write (isWrite_set _ _) (.ask fun answer => ?_)
      cases answer with
      | none => exact .done (.edit writable protects)
      | some edited => exact .write (isWrite_set _ _) (.done (.edit writable protects))

theorem redirect_plans (label text : String) :
    Plans (VerbCall.Plan cwd identity elevation (.redirect label text)) cwd (redirect label text elevation) := by
  refine .bind .nothing (locate_looks label) fun path located => ?_
  split
  · exact .pure .nothing _
  · refine .bind .nothing (load_looks path) fun node atRoot => ?_
    split
    · exact .pure .nothing _
    · next notDirectory =>
      have notRoot : path ≠ "/" := fun root => (atRoot root).elim notDirectory
      refine .past .nothing (belowFileIf_looks _ label path) (fun _ => .pure .nothing _) fun _ => ?_
      refine .past .nothing (gate_looks label path _) (fun _ => .pure .nothing _) fun allowed => ?_
      subst located
      exact .of_follows (.write (isWrite_set _ _) (.done (.redirect ⟨isResolved_resolve .., notRoot, allowed⟩)))

end Verb

/-- A verb looks and follows one of its plans. -/
theorem VerbCall.plans (cwd identity : String) (elevation : Option Elevation) (call : VerbCall) :
    Plans (VerbCall.Plan cwd identity elevation call) cwd (call.program identity elevation) := by
  cases call with
  | ls label => exact .of_only .nothing (ls_looks label elevation)
  | file label => exact .of_only .nothing (file_looks label elevation)
  | cat label => exact .of_only .nothing (cat_looks label elevation)
  | cd label => exact cd_plans label
  | cp source target => exact cp_plans source target
  | mv source target => exact mv_plans source target
  | mkdir args => exact mkdir_plans args
  | rm args => exact rm_plans args
  | vim args => exact vim_plans args
  | redirect label text => exact redirect_plans label text

end TreeShell
