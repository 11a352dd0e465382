import TreeShell.Proofs.Program.Keeps
import TreeShell.Proofs.Verb.Passwords

/-! # Properties of the store that verbs keep

Verbs write in few ways: they put a value at a path or remove what is there, set a password or drop several, and
remember a working directory. A property of the store that survives these writes survives every verb, also one
that waits at a prompt while others work on the store (`VerbCall.keeps`). A value that is put somewhere was read
from such a store, or is a text or a new directory; what may be asked of it is a property of values.
-/

namespace TreeShell

open Key (IsOrdinary)
open Path (IsResolved isResolved_resolve)
open Verb
open Program (Keeps)

namespace Verb

/-- Whether a verb may write at a path: any but the root, and metadata with elevation only. -/
def Writable (elevated : Bool) (path : String) : Prop :=
  IsResolved path ∧ path ≠ "/" ∧ (elevated = true ∨ Key.isMetadata path = false)

/-- What each property of a family has to survive so that the verbs of an identity keep it, given a property of the
values that they put somewhere. -/
structure Upkeep {ι : Type} (I : ι → Store → Prop) (V : Value → Prop) (identity : String) (elevated : Bool) : Prop where
  read : ∀ {i s path}, I i s → Writable elevated path → V (s.get (Key.node path))
  text : ∀ text, V (.text text)
  fresh : V newDirectory
  write : ∀ {i s path value}, I i s → Writable elevated path → V value → I i (s.set (Key.node path) value)
  remove : ∀ {i s path}, I i s → Writable elevated path → I i (s.remove (Key.node path))
  forget : ∀ {i s}, I i s → ∀ paths, I i (s.update Key.passwords (Vault.removals paths))
  protect : ∀ {i s path}, I i s → IsOrdinary path → ∀ password, I i (s.set (Key.password path) (.text password))
  remember : ∀ {i s}, I i s → ∀ path, I i (s.set (Key.cwd identity) (.text path))

variable {ι : Type} {I : ι → Store → Prop} {V : Value → Prop} {identity label path : String} {elevation : Option Elevation}

theorem Writable.ordinary (writable : Writable false path) : IsOrdinary path :=
  ⟨writable.1, writable.2.1, writable.2.2.resolve_left nofun⟩

/-! ## The checks -/

theorem locate_keeps (label : String) : (locate label).Keeps I IsResolved :=
  .cwd fun _ => .done (isResolved_resolve ..)

/-- A look-up at the root finds a directory. -/
theorem load_keeps (path : String) :
    (load path).Keeps I fun node => path = "/" → ∃ children, node = some (.directory children) := by
  rw [load_eq]
  refine .call (fun holds => holds) fun _ => .done ?_
  rintro rfl
  exact loaded_root _

theorem nearestIsFile_keeps (paths : List String) : (nearestIsFile paths).Keeps I fun _ => True := by
  induction paths with
  | nil => exact .pure trivial
  | cons path rest ih =>
    refine (load_keeps path).bind fun node _ => ?_
    cases node with
    | none => exact ih
    | some node => cases node <;> exact .pure trivial

theorem belowFile_keeps (label path : String) : (belowFile label path).Keeps I fun r => r = none → True := by
  refine (nearestIsFile_keeps _).bind fun found _ => ?_
  cases found <;> exact .pure fun _ => trivial

theorem belowFileIf_keeps (absent : Bool) (label path : String) :
    (if absent then belowFile label path else pure none : Program _).Keeps I fun r => r = none → True := by
  cases absent with
  | true => exact belowFile_keeps label path
  | false => exact .pure fun _ => trivial

/-- The gate lets only elevation pass to metadata. -/
theorem gate_keeps (label path : String) (elevated : Bool) :
    (gate label path elevated).Keeps I fun r => r = none → elevated = true ∨ Key.isMetadata path = false := by
  cases elevated with
  | true => exact .pure fun _ => .inl rfl
  | false =>
    rw [gate_eq]
    split
    · exact .done nofun
    · next outside =>
      have free : Key.isMetadata path = false := by simpa using outside
      refine .call (fun holds => holds) fun _ => ?_
      split
      · exact .ask fun _ => .call (fun holds => holds) fun _ => .done fun _ => .inr free
      · exact .done fun _ => .inr free

variable (upkeep : Upkeep I V identity elevation.isSome)
include upkeep

theorem newPasswordIf_keeps {protects : Bool} (ordinary : protects = true → IsOrdinary path) (label : String) :
    (if protects then newPassword label path else pure none : Program _).Keeps I fun r => r = none → True := by
  cases protects with
  | false => exact .pure fun _ => trivial
  | true =>
    refine (Keeps.prompt _).bind fun first _ => ?_
    cases first with
    | none => exact .pure fun _ => trivial
    | some first =>
      dsimp only
      split
      · exact .pure fun _ => trivial
      · refine (Keeps.prompt _).bind fun second _ => ?_
        split
        · refine Keeps.bind (Q := fun _ => True) (.write fun holds => ?_) fun _ _ => .pure fun _ => trivial
          exact upkeep.protect holds (ordinary rfl) first
        · exact .pure fun _ => trivial

theorem removeNode_keeps (writable : Writable elevation.isSome path) (node : Node) (recursive : Bool)
    (reason : Option ElevationReason) : (removeNode path node recursive reason).Keeps I fun _ => True :=
  (Keeps.delete (I := I) fun holds => upkeep.remove holds writable).bind fun _ _ =>
    (Keeps.merge (I := I) fun holds => upkeep.forget holds _).bind fun _ _ => .record _

/-! ## The verbs -/

omit upkeep in
theorem ls_keeps (label : String) (elevation : Option Elevation) : (ls label elevation).Keeps I fun _ => True := by
  refine (locate_keeps label).bind fun path _ => (load_keeps path).bind fun node _ => ?_
  cases node with
  | none => exact .pure trivial
  | some node =>
    refine (gate_keeps _ path _).past (fun _ => .pure trivial) fun _ => ?_
    cases node <;> exact .pure trivial

omit upkeep in
theorem file_keeps (label : String) (elevation : Option Elevation) : (file label elevation).Keeps I fun _ => True := by
  unfold file
  split
  · exact .pure trivial
  · refine (locate_keeps label).bind fun path _ => (load_keeps path).bind fun node _ => ?_
    cases node with
    | none => exact .pure trivial
    | some node =>
      refine (gate_keeps label path _).past (fun _ => .pure trivial) fun _ => ?_
      cases node <;> exact .pure trivial

omit upkeep in
theorem cat_keeps (label : String) (elevation : Option Elevation) : (cat label elevation).Keeps I fun _ => True := by
  unfold cat
  split
  · exact .pure trivial
  · refine (locate_keeps label).bind fun path _ => (load_keeps path).bind fun node _ => ?_
    cases node with
    | none => exact .pure trivial
    | some node =>
      refine (gate_keeps label path _).past (fun _ => .pure trivial) fun _ => ?_
      cases node <;> exact .pure trivial

theorem cd_keeps (label : String) : (cd identity label elevation).Keeps I fun _ => True := by
  unfold cd
  split
  · exact .pure trivial
  · refine (locate_keeps label).bind fun path _ => (load_keeps path).bind fun node _ => ?_
    cases node with
    | none => exact .pure trivial
    | some node =>
      cases node with
      | file content => exact .pure trivial
      | directory children =>
        refine (gate_keeps label path _).past (fun _ => .pure trivial) fun _ => ?_
        refine Keeps.bind (Q := fun _ => True) ?_ fun _ _ => .pure trivial
        exact (Keeps.changeDirectory path).bind fun _ _ => .write fun holds => upkeep.remember holds path

theorem cp_keeps (source target : String) : (cp source target elevation).Keeps I fun _ => True := by
  unfold cp
  split
  · exact .pure trivial
  · refine (locate_keeps source).bind fun sourcePath sourceResolved =>
      (locate_keeps target).bind fun targetPath targetResolved => ?_
    split
    · exact .pure trivial
    · next sourceNotRoot =>
      -- whether the source may be read is known only behind the gate
      have read : (Program.fetch (Key.node sourcePath)).Keeps I
          fun v => Writable elevation.isSome sourcePath → V v :=
        .fetch fun holds readable => upkeep.read holds readable
      refine read.bind fun value known => ?_
      split
      · exact .pure trivial
      · refine (gate_keeps source sourcePath _).past (fun _ => .pure trivial) fun sourceAllowed => ?_
        dsimp only
        split
        · exact .pure trivial
        · next targetNotRoot =>
          split
          · exact .pure trivial
          · refine (belowFile_keeps target targetPath).past (fun _ => .pure trivial) fun _ => ?_
            refine (gate_keeps target targetPath _).past (fun _ => .pure trivial) fun targetAllowed => ?_
            refine Keeps.bind (Q := fun _ => True) (.write fun holds => ?_) fun _ _ => .pure trivial
            exact upkeep.write holds ⟨targetResolved, targetNotRoot, targetAllowed⟩
              (known ⟨sourceResolved, sourceNotRoot, sourceAllowed⟩)

theorem mv_keeps (source target : String) : (mv source target elevation).Keeps I fun _ => True := by
  unfold mv
  split
  · exact .pure trivial
  · refine (locate_keeps source).bind fun sourcePath sourceResolved =>
      (locate_keeps target).bind fun targetPath targetResolved => ?_
    split
    · exact .pure trivial
    · next sourceNotRoot =>
      have read : (Program.fetch (Key.node sourcePath)).Keeps I
          fun v => Writable elevation.isSome sourcePath → V v :=
        .fetch fun holds readable => upkeep.read holds readable
      refine read.bind fun value known => ?_
      cases Node.ofValue? value with
      | none => exact .pure trivial
      | some node =>
        dsimp only
        split
        · exact .pure trivial
        · refine (gate_keeps source sourcePath _).past (fun _ => .pure trivial) fun sourceAllowed => ?_
          have sourceWritable : Writable elevation.isSome sourcePath := ⟨sourceResolved, sourceNotRoot, sourceAllowed⟩
          refine (load_keeps targetPath).bind fun found atRoot => ?_
          have arrives : IsResolved (destination sourcePath targetPath found) ∧
              destination sourcePath targetPath found ≠ "/" := by
            rcases found with _ | content | children
            · exact ⟨targetResolved, fun root => absurd (atRoot root) nofun⟩
            · exact ⟨targetResolved, fun root => absurd (atRoot root) nofun⟩
            · exact targetResolved.join_name sourceResolved sourceNotRoot
          split
          · exact .pure trivial
          · split
            · exact .pure trivial
            · next outside =>
              refine (belowFile_keeps target _).past (fun _ => .pure trivial) fun _ => ?_
              refine Keeps.bind (Q := fun _ => True) (.write fun holds => ?_) fun _ _ => ?_
              · exact upkeep.write holds ⟨arrives.1, arrives.2, by grind⟩ (known sourceWritable)
              · exact (removeNode_keeps upkeep sourceWritable ..).bind fun _ _ => .pure trivial

theorem rm_keeps (args : List String) : (rm args elevation).Keeps I fun _ => True := by
  unfold rm
  dsimp only
  split
  · exact .pure trivial
  · refine (locate_keeps _).bind fun path resolved => ?_
    split
    · exact .pure trivial
    · next notRoot =>
      split
      · exact .pure trivial
      · next outside =>
        refine (load_keeps path).bind fun node _ => ?_
        cases node with
        | none => exact .pure trivial
        | some node =>
          dsimp only
          split
          · exact .pure trivial
          · refine (gate_keeps _ path _).past (fun _ => .pure trivial) fun allowed => ?_
            dsimp only
            split
            · exact .pure trivial
            · exact (removeNode_keeps upkeep ⟨resolved, notRoot, allowed⟩ ..).bind fun _ _ => .pure trivial

theorem mkdir_keeps (args : List String) : (mkdir args elevation).Keeps I fun _ => True := by
  have unelevated : elevation.isNone = !elevation.isSome := by cases elevation <;> rfl
  unfold mkdir
  dsimp only
  rw [unelevated]
  split
  · exact .pure trivial
  · refine (locate_keeps _).bind fun path resolved => ?_
    split
    · exact .pure trivial
    · next notRoot =>
      split
      · exact .pure trivial
      · next outside =>
        have writable : Writable elevation.isSome path := ⟨resolved, notRoot, by grind⟩
        refine (load_keeps _).bind fun parent _ => ?_
        split
        · split
          · exact .pure trivial
          · have ordinary (protects : ((Operand.ofArgs args).protects && !elevation.isSome) = true) : IsOrdinary path :=
              ⟨resolved, notRoot, by grind⟩
            refine (newPasswordIf_keeps upkeep ordinary _).past (fun _ => .pure trivial) fun _ => ?_
            refine Keeps.bind (Q := fun _ => True) (.merge fun holds => ?_) fun _ _ => .pure trivial
            rw [Store.update_parent resolved notRoot]
            exact upkeep.write holds writable upkeep.fresh
        · exact .pure trivial

theorem vim_keeps (args : List String) : (vim args elevation).Keeps I fun _ => True := by
  have unelevated : elevation.isNone = !elevation.isSome := by cases elevation <;> rfl
  unfold vim
  dsimp only
  rw [unelevated]
  split
  · exact .pure trivial
  · refine (locate_keeps _).bind fun path resolved => (load_keeps path).bind fun node atRoot => ?_
    split
    · exact .pure trivial
    · next notDirectory =>
      have notRoot : path ≠ "/" := fun root => (atRoot root).elim notDirectory
      refine (belowFileIf_keeps _ _ path).past (fun _ => .pure trivial) fun _ => ?_
      refine (gate_keeps _ path _).past (fun _ => .pure trivial) fun allowed => ?_
      have writable : Writable elevation.isSome path := ⟨resolved, notRoot, allowed⟩
      have ordinary (protects : ((Operand.ofArgs args).protects && !elevation.isSome) = true) : IsOrdinary path :=
        ⟨resolved, notRoot, by grind⟩
      have saves (text : String) : (Program.write (Key.node path) (.text text)).Keeps I fun _ => True :=
        .write fun holds => upkeep.write holds writable (upkeep.text text)
      refine (newPasswordIf_keeps upkeep ordinary _).past (fun _ => .pure trivial) fun _ => ?_
      refine (saves _).bind fun _ _ => (Keeps.prompt _).bind fun answer _ => ?_
      cases answer with
      | none => exact .pure trivial
      | some edited => exact (saves edited).bind fun _ _ => .pure trivial

theorem redirect_keeps (label text : String) : (redirect label text elevation).Keeps I fun _ => True := by
  refine (locate_keeps label).bind fun path resolved => ?_
  split
  · exact .pure trivial
  · refine (load_keeps path).bind fun node atRoot => ?_
    split
    · exact .pure trivial
    · next notDirectory =>
      have notRoot : path ≠ "/" := fun root => (atRoot root).elim notDirectory
      refine (belowFileIf_keeps _ label path).past (fun _ => .pure trivial) fun _ => ?_
      refine (gate_keeps label path _).past (fun _ => .pure trivial) fun allowed => ?_
      refine Keeps.bind (Q := fun _ => True) (.write fun holds => ?_) fun _ _ => .pure trivial
      exact upkeep.write holds ⟨resolved, notRoot, allowed⟩ (upkeep.text text)

end Verb

/-- A property of the store that survives the writes of verbs survives every call. -/
theorem VerbCall.keeps {ι : Type} {I : ι → Store → Prop} {V : Value → Prop} {identity : String} {elevation : Option Elevation}
    (upkeep : Upkeep I V identity elevation.isSome) (call : VerbCall) :
    (call.program identity elevation).Keeps I fun _ => True := by
  cases call with
  | ls label => exact ls_keeps label elevation
  | file label => exact file_keeps label elevation
  | cat label => exact cat_keeps label elevation
  | cd label => exact cd_keeps upkeep label
  | cp source target => exact cp_keeps upkeep source target
  | mv source target => exact mv_keeps upkeep source target
  | mkdir args => exact mkdir_keeps upkeep args
  | rm args => exact rm_keeps upkeep args
  | vim args => exact vim_keeps upkeep args
  | redirect label text => exact redirect_keeps upkeep label text

end TreeShell
