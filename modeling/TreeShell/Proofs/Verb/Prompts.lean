import TreeShell.Command
import TreeShell.Proofs.Program.Prompts
import TreeShell.Proofs.Verb.Guard

/-! # How many prompts a verb shows

A verb asks for passwords at its gates and for a new password at most once, and only `vim` opens an editor, once. With
elevation all gates are open and no password is set, so what is left is the editor (`VerbCall.shows`).
-/

namespace TreeShell

/-- The number of secrets that are asked for with an elevation, or without one. -/
def secretsBound (elevation : Option Elevation) (n : Nat) : Nat :=
  if elevation.isSome then 0 else n

namespace Verb

variable {elevation : Option Elevation}

theorem secretsBound_mono (elevation : Option Elevation) {m n : Nat} (le : m ≤ n) :
    secretsBound elevation m ≤ secretsBound elevation n := by
  cases elevation with
  | none => exact le
  | some _ => exact Nat.le_refl 0

/-! ## The checks -/

theorem locate_shows (label : String) : (locate label).Shows 0 0 :=
  .cwd fun _ => .done

theorem load_shows (path : String) : (load path).Shows 0 0 := by
  rw [load_eq]
  exact .call fun _ => .done

theorem fetch_shows (key : String) : (Program.fetch key).Shows 0 0 :=
  .call fun _ => .done

theorem nearestIsFile_shows (paths : List String) : (nearestIsFile paths).Shows 0 0 := by
  induction paths with
  | nil => exact .done
  | cons path rest ih =>
    refine (load_shows path).after fun node => ?_
    cases node with
    | none => exact ih
    | some node => cases node <;> exact .done

theorem belowFile_shows (label path : String) : (belowFile label path).Shows 0 0 := by
  refine (nearestIsFile_shows _).after fun found => ?_
  cases found <;> exact .done

theorem belowFileIf_shows (absent : Bool) (label path : String) :
    (if absent then belowFile label path else pure none : Program _).Shows 0 0 := by
  cases absent with
  | true => exact belowFile_shows label path
  | false => exact .done

/-- The gate asks for one password. -/
theorem gate_shows {n e : Nat} {next : Option Refusal → Program Result} (label path : String)
    (refuses : ∀ r, (next (some r)).Shows 0 0) (passes : (next none).Shows (secretsBound elevation n) e) :
    (gate label path elevation.isSome >>= next).Shows (secretsBound elevation (n + 1)) e := by
  have refused (r : Refusal) {s e : Nat} : (next (some r)).Shows s e := (refuses r).mono (Nat.zero_le s) (Nat.zero_le e)
  cases elevation with
  | some _ => exact passes
  | none =>
    rw [Option.isSome_none, gate_eq]
    split
    · exact refused _
    · refine .call fun v => ?_
      change ((if (Vault.password? v).isSome = true then _ else _) >>= next).Shows (n + 1) e
      split
      · refine .secret rfl fun _ => .call fun v => ?_
        change (next (if Vault.opens v _ then none else some .wrongPassword)).Shows n e
        split
        · exact passes
        · exact refused _
      · exact passes.mono (Nat.le_succ n) (Nat.le_refl e)

/-- A new password is asked for twice, without elevation. -/
theorem newPassword_shows {n e : Nat} {next : Option Refusal → Program Result} (asked : Bool) (label path : String)
    (refuses : ∀ r, (next (some r)).Shows 0 0) (passes : (next none).Shows (secretsBound elevation n) e) :
    ((if asked && elevation.isNone then newPassword label path else pure none) >>= next).Shows
      (secretsBound elevation (n + 2)) e := by
  have refused (r : Refusal) {s e : Nat} : (next (some r)).Shows s e := (refuses r).mono (Nat.zero_le s) (Nat.zero_le e)
  cases elevation with
  | some _ =>
    rw [Option.isNone_some, Bool.and_false]
    exact passes
  | none =>
    cases asked with
    | false => exact passes.mono (Nat.le_add_right n 2) (Nat.le_refl e)
    | true =>
      refine .secret rfl fun first => ?_
      cases first with
      | none => exact refused _
      | some first =>
        change Program.Shows (n + 1) e ((if first = "" then _ else _) >>= next)
        split
        · exact refused _
        · refine .secret rfl fun second => ?_
          change Program.Shows n e ((if second = some first then _ else _) >>= next)
          split
          · exact .call fun _ => passes
          · exact refused _

theorem removeNode_shows (path : String) (node : Node) (recursive : Bool) (reason : Option ElevationReason) :
    (removeNode path node recursive reason).Shows 0 0 :=
  .call fun _ => .call fun _ => .log .done

/-! ## The verbs -/

theorem ls_shows (label : String) : (ls label elevation).Shows (secretsBound elevation 1) 0 := by
  refine (locate_shows label).after fun path => (load_shows path).after fun node => ?_
  cases node with
  | none => exact .done
  | some node =>
    cases node <;> exact gate_shows (n := 0) _ path (fun _ => .done) .done

theorem file_shows (label : String) : (file label elevation).Shows (secretsBound elevation 1) 0 := by
  unfold file
  split
  · exact .done
  · refine (locate_shows label).after fun path => (load_shows path).after fun node => ?_
    cases node with
    | none => exact .done
    | some node =>
      cases node <;> exact gate_shows (n := 0) label path (fun _ => .done) .done

theorem cat_shows (label : String) : (cat label elevation).Shows (secretsBound elevation 1) 0 := by
  unfold cat
  split
  · exact .done
  · refine (locate_shows label).after fun path => (load_shows path).after fun node => ?_
    cases node with
    | none => exact .done
    | some node =>
      cases node <;> exact gate_shows (n := 0) label path (fun _ => .done) .done

theorem cd_shows (identity label : String) : (cd identity label elevation).Shows (secretsBound elevation 1) 0 := by
  unfold cd
  split
  · exact .done
  · refine (locate_shows label).after fun path => (load_shows path).after fun node => ?_
    match node with
    | none | some (.file _) => exact .done
    | some (.directory _) =>
      exact gate_shows (n := 0) label path (fun _ => .done) (.enter (.call fun _ => .done))

/-- A copy has two gates. -/
theorem cp_shows (source target : String) : (cp source target elevation).Shows (secretsBound elevation 2) 0 := by
  unfold cp
  split
  · exact .done
  · refine (locate_shows source).after fun sourcePath => (locate_shows target).after fun targetPath => ?_
    split
    · exact .done
    · refine (fetch_shows _).after fun value => ?_
      split
      · exact .done
      · refine gate_shows (n := 1) source sourcePath (fun _ => .done) ?_
        dsimp only
        split
        · exact .done
        · split
          · exact .done
          · refine (belowFile_shows target targetPath).after fun refusal => ?_
            cases refusal with
            | some refusal => exact .done
            | none => exact gate_shows (n := 0) target targetPath (fun _ => .done) (.call fun _ => .done)

theorem mv_shows (source target : String) : (mv source target elevation).Shows (secretsBound elevation 1) 0 := by
  unfold mv
  split
  · exact .done
  · refine (locate_shows source).after fun sourcePath => (locate_shows target).after fun targetPath => ?_
    split
    · exact .done
    · refine (fetch_shows _).after fun value => ?_
      cases Node.ofValue? value with
      | none => exact .done
      | some node =>
        dsimp only
        split
        · exact .done
        · refine gate_shows (n := 0) source sourcePath (fun _ => .done) ?_
          refine (load_shows targetPath).after fun there => ?_
          split
          · exact .done
          · split
            · exact .done
            · refine (belowFile_shows target _).after fun refusal => ?_
              cases refusal with
              | some refusal => exact .done
              | none => exact .call fun _ => (removeNode_shows ..).after fun _ => .done

theorem rm_shows (args : List String) : (rm args elevation).Shows (secretsBound elevation 1) 0 := by
  unfold rm
  dsimp only
  split
  · exact .done
  · refine (locate_shows _).after fun path => ?_
    split
    · exact .done
    · split
      · exact .done
      · refine (load_shows path).after fun node => ?_
        cases node with
        | none => exact .done
        | some node =>
          dsimp only
          split
          · exact .done
          · refine gate_shows (n := 0) _ path (fun _ => .done) ?_
            dsimp only
            split
            · exact .done
            · exact (removeNode_shows ..).after fun _ => .done

theorem mkdir_shows (args : List String) : (mkdir args elevation).Shows (secretsBound elevation 2) 0 := by
  unfold mkdir
  dsimp only
  split
  · exact .done
  · refine (locate_shows _).after fun path => ?_
    split
    · exact .done
    · split
      · exact .done
      · refine (load_shows _).after fun parent => ?_
        split
        · split
          · exact .done
          · exact newPassword_shows (n := 0) _ _ path (fun _ => .done) (.call fun _ => .done)
        · exact .done

/-- The one verb with an editor, behind a gate and a new password. -/
theorem vim_shows (args : List String) : (vim args elevation).Shows (secretsBound elevation 3) 1 := by
  unfold vim
  dsimp only
  split
  · exact .done
  · refine (locate_shows _).after fun path => (load_shows path).after fun node => ?_
    split
    · exact .done
    · refine (belowFileIf_shows _ _ path).after fun refusal => ?_
      cases refusal with
      | some refusal => exact .done
      | none =>
        refine gate_shows (n := 2) _ path (fun _ => .done) ?_
        refine newPassword_shows (n := 0) _ _ path (fun _ => .done) (.call fun _ => .edit rfl fun answer => ?_)
        cases answer with
        | none => exact .done
        | some edited => exact .call fun _ => .done

theorem redirect_shows (label text : String) : (redirect label text elevation).Shows (secretsBound elevation 1) 0 := by
  refine (locate_shows label).after fun path => ?_
  split
  · exact .done
  · refine (load_shows path).after fun node => ?_
    split
    · exact .done
    · refine (belowFileIf_shows _ label path).after fun refusal => ?_
      cases refusal with
      | some refusal => exact .done
      | none => exact gate_shows (n := 0) label path (fun _ => .done) (.call fun _ => .done)

end Verb

/-- A verb asks for three secrets at most and opens one editor at most; with elevation it asks for no secret. -/
theorem VerbCall.shows (identity : String) (elevation : Option Elevation) (call : VerbCall) :
    (call.program identity elevation).Shows (secretsBound elevation 3) 1 := by
  have one {p : Program Verb.Result} (shows : p.Shows (secretsBound elevation 1) 0) :
      p.Shows (secretsBound elevation 3) 1 :=
    shows.mono (Verb.secretsBound_mono elevation (by decide)) (Nat.zero_le 1)
  have two {p : Program Verb.Result} (shows : p.Shows (secretsBound elevation 2) 0) :
      p.Shows (secretsBound elevation 3) 1 :=
    shows.mono (Verb.secretsBound_mono elevation (by decide)) (Nat.zero_le 1)
  cases call with
  | ls label => exact one (Verb.ls_shows label)
  | file label => exact one (Verb.file_shows label)
  | cd label => exact one (Verb.cd_shows identity label)
  | cat label => exact one (Verb.cat_shows label)
  | cp source target => exact two (Verb.cp_shows source target)
  | mv source target => exact one (Verb.mv_shows source target)
  | mkdir args => exact two (Verb.mkdir_shows args)
  | rm args => exact one (Verb.rm_shows args)
  | vim args => exact Verb.vim_shows args
  | redirect label text => exact one (Verb.redirect_shows label text)

end TreeShell
