import TreeShell.Proofs.Program.InStep
import TreeShell.Proofs.Verb.Guard
import TreeShell.Command

/-! # Elevation passes every gate

With elevation no verb asks for a password: its gate lets it pass at once, and it sets none.
-/

namespace TreeShell

namespace Program

variable {α β : Type}

/-- Whether a program never asks for the password of a path, whatever it reads and is answered. -/
inductive NeverAsks : Program α → Prop
  | done (a : α) : NeverAsks (.done a)
  | call {request : StoreCall} {k : Value → Program α} (next : ∀ v, NeverAsks (k v)) : NeverAsks (.call request k)
  | ask {prompt : Prompt} {k : Answer → Program α} (free : prompt.asksPassword = false) (next : ∀ a, NeverAsks (k a)) :
    NeverAsks (.ask prompt k)
  | log {event : Event} {p : Program α} (next : NeverAsks p) : NeverAsks (.log event p)
  | cwd {k : String → Program α} (next : ∀ path, NeverAsks (k path)) : NeverAsks (.cwd k)
  | enter {path : String} {p : Program α} (next : NeverAsks p) : NeverAsks (.enter path p)

namespace NeverAsks

theorem pure (a : α) : NeverAsks (Pure.pure a) :=
  .done a

theorem bind {p : Program α} {f : α → Program β} (first : NeverAsks p) (next : ∀ a, NeverAsks (f a)) :
    NeverAsks (p >>= f) := by
  induction first with
  | done a => exact next a
  | call _ ih => exact .call ih
  | ask free _ ih => exact .ask free ih
  | log _ ih => exact .log ih
  | cwd _ ih => exact .cwd ih
  | enter _ ih => exact .enter ih

/-- A check that may refuse, and what comes after it. -/
theorem past {p : Program (Option Refusal)} {f : Option Refusal → Program β} (first : NeverAsks p)
    (refuses : ∀ r, NeverAsks (f (some r))) (next : NeverAsks (f none)) : NeverAsks (p >>= f) := by
  refine first.bind fun refusal => ?_
  cases refusal with
  | some refusal => exact refuses refusal
  | none => exact next

theorem fetch (key : String) : NeverAsks (Program.fetch key) :=
  .call .done

theorem write (key : String) (value : Value) : NeverAsks (Program.write key value) :=
  .call fun _ => .done ()

theorem merge (key : String) (pairs : List (String × Value)) : NeverAsks (Program.merge key pairs) :=
  .call fun _ => .done ()

/-- A program that never asks for a password shows no prompt for one. -/
theorem of_mem_prompts {p : Program α} (never : NeverAsks p) (answers : List Answer) (m : Machine) {prompt : Prompt}
    (shown : prompt ∈ (p.converse answers m).prompts) : prompt.asksPassword = false := by
  induction never generalizing answers m with
  | done a => exact absurd shown List.not_mem_nil
  | call _ ih =>
    rw [converse] at shown
    split at shown
    · exact ih _ _ _ shown
    · exact absurd shown List.not_mem_nil
  | ask free _ ih =>
    rcases List.mem_cons.mp shown with rfl | later
    · exact free
    · exact ih _ _ _ later
  | log _ ih => exact ih _ _ shown
  | cwd _ ih => exact ih _ _ _ shown
  | enter _ ih => exact ih _ _ shown

end NeverAsks

end Program

namespace Verb

open Program (NeverAsks)
open Program.NeverAsks (pure fetch write merge)

variable {label path : String} {e : Elevation}

theorem locate_neverAsks (label : String) : NeverAsks (locate label) :=
  .cwd fun _ => .done _

theorem load_neverAsks (path : String) : NeverAsks (load path) := by
  rw [load_eq]
  exact .call fun _ => .done _

theorem nearestIsFile_neverAsks (paths : List String) : NeverAsks (nearestIsFile paths) := by
  induction paths with
  | nil => exact pure false
  | cons path rest ih =>
    refine (load_neverAsks path).bind fun node => ?_
    cases node with
    | none => exact ih
    | some node => cases node <;> exact pure _

theorem belowFile_neverAsks (label path : String) : NeverAsks (belowFile label path) := by
  refine (nearestIsFile_neverAsks _).bind fun found => ?_
  cases found <;> exact pure _

theorem belowFileIf_neverAsks (absent : Bool) (label path : String) :
    NeverAsks (if absent then belowFile label path else Pure.pure none) := by
  cases absent with
  | true => exact belowFile_neverAsks label path
  | false => exact pure none

theorem gate_neverAsks (label path : String) (e : Elevation) : NeverAsks (gate label path (some e).isSome) :=
  pure none

theorem removeNode_neverAsks (path : String) (node : Node) (recursive : Bool) (reason : Option ElevationReason) :
    NeverAsks (removeNode path node recursive reason) :=
  .call fun _ => .call fun _ => .log (.done ())

theorem ls_neverAsks (label : String) (e : Elevation) : NeverAsks (ls label (some e)) := by
  refine (locate_neverAsks label).bind fun path => (load_neverAsks path).bind fun node => ?_
  cases node with
  | none => exact pure _
  | some node =>
    refine (gate_neverAsks _ path e).past (fun _ => pure _) ?_
    cases node <;> exact pure _

theorem file_neverAsks (label : String) (e : Elevation) : NeverAsks (file label (some e)) := by
  unfold file
  split
  · exact pure _
  · refine (locate_neverAsks label).bind fun path => (load_neverAsks path).bind fun node => ?_
    cases node with
    | none => exact pure _
    | some node =>
      refine (gate_neverAsks label path e).past (fun _ => pure _) ?_
      cases node <;> exact pure _

theorem cat_neverAsks (label : String) (e : Elevation) : NeverAsks (cat label (some e)) := by
  unfold cat
  split
  · exact pure _
  · refine (locate_neverAsks label).bind fun path => (load_neverAsks path).bind fun node => ?_
    cases node with
    | none => exact pure _
    | some node =>
      refine (gate_neverAsks label path e).past (fun _ => pure _) ?_
      cases node <;> exact pure _

theorem cd_neverAsks (identity label : String) (e : Elevation) : NeverAsks (cd identity label (some e)) := by
  unfold cd
  split
  · exact pure _
  · refine (locate_neverAsks label).bind fun path => (load_neverAsks path).bind fun node => ?_
    cases node with
    | none => exact pure _
    | some node =>
      cases node with
      | file content => exact pure _
      | directory children =>
        refine (gate_neverAsks label path e).past (fun _ => pure _) ?_
        exact (NeverAsks.enter (write _ _)).bind fun _ => pure _

theorem cp_neverAsks (source target : String) (e : Elevation) : NeverAsks (cp source target (some e)) := by
  unfold cp
  split
  · exact pure _
  · refine (locate_neverAsks source).bind fun sourcePath => (locate_neverAsks target).bind fun targetPath => ?_
    split
    · exact pure _
    · refine (fetch _).bind fun value => ?_
      split
      · exact pure _
      · refine (gate_neverAsks source sourcePath e).past (fun _ => pure _) ?_
        dsimp only
        split
        · exact pure _
        · split
          · exact pure _
          · refine (belowFile_neverAsks target targetPath).past (fun _ => pure _) ?_
            refine (gate_neverAsks target targetPath e).past (fun _ => pure _) ?_
            exact (write _ _).bind fun _ => pure _

theorem mv_neverAsks (source target : String) (e : Elevation) : NeverAsks (mv source target (some e)) := by
  unfold mv
  split
  · exact pure _
  · refine (locate_neverAsks source).bind fun sourcePath => (locate_neverAsks target).bind fun targetPath => ?_
    split
    · exact pure _
    · refine (fetch _).bind fun value => ?_
      cases Node.ofValue? value with
      | none => exact pure _
      | some node =>
        dsimp only
        split
        · exact pure _
        · refine (gate_neverAsks source sourcePath e).past (fun _ => pure _) ?_
          refine (load_neverAsks targetPath).bind fun found => ?_
          split
          · exact pure _
          · split
            · exact pure _
            · refine (belowFile_neverAsks target _).past (fun _ => pure _) ?_
              exact (write _ _).bind fun _ => (removeNode_neverAsks ..).bind fun _ => pure _

theorem rm_neverAsks (args : List String) (e : Elevation) : NeverAsks (rm args (some e)) := by
  unfold rm
  dsimp only
  split
  · exact pure _
  · refine (locate_neverAsks _).bind fun path => ?_
    split
    · exact pure _
    · split
      · exact pure _
      · refine (load_neverAsks path).bind fun node => ?_
        cases node with
        | none => exact pure _
        | some node =>
          dsimp only
          split
          · exact pure _
          · refine (gate_neverAsks _ path e).past (fun _ => pure _) ?_
            dsimp only
            split
            · exact pure _
            · exact (removeNode_neverAsks ..).bind fun _ => pure _

theorem mkdir_neverAsks (args : List String) (e : Elevation) : NeverAsks (mkdir args (some e)) := by
  unfold mkdir
  simp only [Option.isNone_some, Bool.and_false, Bool.false_eq_true, if_false]
  split
  · exact pure _
  · refine (locate_neverAsks _).bind fun path => ?_
    split
    · exact pure _
    · refine (load_neverAsks _).bind fun parent => ?_
      split
      · split
        · exact pure _
        · exact (merge _ _).bind fun _ => pure _
      · exact pure _

theorem vim_neverAsks (args : List String) (e : Elevation) : NeverAsks (vim args (some e)) := by
  unfold vim
  simp only [Option.isNone_some, Bool.and_false, Bool.false_eq_true, if_false]
  split
  · exact pure _
  · refine (locate_neverAsks _).bind fun path => (load_neverAsks path).bind fun node => ?_
    split
    · exact pure _
    · refine (belowFileIf_neverAsks _ _ path).past (fun _ => pure _) ?_
      refine (gate_neverAsks _ path e).past (fun _ => pure _) ((pure none).past (fun _ => pure _) ?_)
      refine (write _ _).bind fun _ => .ask rfl fun answer => ?_
      cases answer with
      | none => exact pure _
      | some edited => exact (write _ _).bind fun _ => pure _

theorem redirect_neverAsks (label text : String) (e : Elevation) : NeverAsks (redirect label text (some e)) := by
  refine (locate_neverAsks label).bind fun path => ?_
  split
  · exact pure _
  · refine (load_neverAsks path).bind fun node => ?_
    split
    · exact pure _
    · refine (belowFileIf_neverAsks _ label path).past (fun _ => pure _) ?_
      refine (gate_neverAsks label path e).past (fun _ => pure _) ?_
      exact (write _ _).bind fun _ => pure _

end Verb

/-- With elevation no call asks for a password. -/
theorem VerbCall.neverAsks (call : VerbCall) (identity : String) (e : Elevation) :
    Program.NeverAsks (call.program identity (some e)) := by
  cases call with
  | ls label => exact Verb.ls_neverAsks label e
  | file label => exact Verb.file_neverAsks label e
  | cat label => exact Verb.cat_neverAsks label e
  | cd label => exact Verb.cd_neverAsks identity label e
  | cp source target => exact Verb.cp_neverAsks source target e
  | mv source target => exact Verb.mv_neverAsks source target e
  | mkdir args => exact Verb.mkdir_neverAsks args e
  | rm args => exact Verb.rm_neverAsks args e
  | vim args => exact Verb.vim_neverAsks args e
  | redirect label text => exact Verb.redirect_neverAsks label text e

end TreeShell
