import TreeShell.Command
import TreeShell.Proofs.Program.Lockstep

/-! # Verbs without elevation are discreet

Without elevation a verb learns nothing of passwords beyond what its gate asks for. Of a node in the
password directory it sees the outline only, before the gate refuses the path; of the root it sees the
names and kinds of the children. All that it writes comes from ordinary paths and from answers.
-/

namespace TreeShell

open Key (IsOrdinary)

variable {c label path : String}

namespace Store

variable {s t : Store}

theorem get_node_congr (alike : s.blanked = t.blanked) (ordinary : IsOrdinary path) :
    s.get (Key.node path) = t.get (Key.node path) := by
  obtain ⟨segs, names, notRoot, rfl⟩ := ordinary.exists_segments
  refine find_congr alike ?_
  rw [Key.components_node names]
  exact Key.apart_passwordPlace names notRoot ordinary.2.2

end Store

/-- Whether two look-ups of a path found nodes that differ at most in passwords. -/
inductive NodesAlike (path : String) : Option Node → Option Node → Prop
  | none : NodesAlike path none none
  | file {content content'} (same : IsOrdinary path → content = content') :
    NodesAlike path (some (.file content)) (some (.file content'))
  | directory {children children'}
    (outline : Assoc.adapt (fun _ v => v.isMapping) children = Assoc.adapt (fun _ v => v.isMapping) children')
    (same : IsOrdinary path → children = children') :
    NodesAlike path (some (.directory children)) (some (.directory children'))

namespace NodesAlike

variable {n n' : Option Node}

theorem eq_of_ordinary (alike : NodesAlike path n n') (ordinary : IsOrdinary path) : n = n' := by
  cases alike with
  | none => rfl
  | file same => rw [same ordinary]
  | directory _ same => rw [same ordinary]

theorem ofValue? {v v' : Value} (outline : v.outline = v'.outline) (same : IsOrdinary path → v = v') :
    NodesAlike path (Node.ofValue? v) (Node.ofValue? v') := by
  have scalar (w w' : Value) (isFile : ∃ content, Node.ofValue? w = some (.file content))
      (isFile' : ∃ content, Node.ofValue? w' = some (.file content)) (same : IsOrdinary path → w = w') :
      NodesAlike path (Node.ofValue? w) (Node.ofValue? w') := by
    obtain ⟨content, found⟩ := isFile
    obtain ⟨content', found'⟩ := isFile'
    rw [found, found']
    refine .file fun ordinary => ?_
    have both := congrArg Node.ofValue? (same ordinary)
    rw [found, found'] at both
    simpa using both
  have file (w : Value) (isScalar : w.outline = some Option.none) :
      ∃ content, Node.ofValue? w = some (.file content) := by
    cases w with
    | bool b => cases b <;> exact ⟨_, rfl⟩
    | null => simp [Value.outline] at isScalar
    | mapping entries => simp [Value.outline] at isScalar
    | _ => exact ⟨_, rfl⟩
  cases v with
  | null =>
    rw [Value.outline_eq_none_iff.mp outline.symm]
    exact .none
  | mapping entries =>
    cases v' with
    | mapping entries' =>
      refine .directory ?_ fun ordinary => by rw [Value.mapping.inj (same ordinary)]
      have kinds : Assoc.adapt (fun _ v => v.isMapping) entries = Assoc.adapt (fun _ v => v.isMapping) entries' := by
        simpa [Value.outline] using outline
      have renamed (entries : Entries) : Assoc.adapt (fun _ v => v.isMapping) (Node.childrenOf entries) =
          Assoc.ofPairs ((Assoc.adapt (fun _ v => v.isMapping) entries).map fun e =>
            (CodeTable.segment.unescape e.1, e.2)) := by
        rw [Node.childrenOf, Assoc.adapt_ofPairs]
        simp [Assoc.adapt, Function.comp_def]
      rw [renamed, kinds, renamed]
    | _ => simp [Value.outline] at outline
  | _ => exact scalar _ _ (file _ rfl) (file _ (outline ▸ rfl)) same

end NodesAlike

namespace Verb

open Lockstep (pure)

/-- What a look-up of a node gives in two runs. -/
theorem load_lockstep (path : String) :
    Lockstep (fun c' n n' => c' = c ∧ NodesAlike path n n' ∧ (path = "/" → ∃ children, n = some (.directory children)))
      c (load path) (load path) := by
  rw [load_eq]
  refine .get fun s t alike => .done ⟨rfl, ?_, ?_⟩
  · have outline := Store.outline_find_congr alike (Key.components (Key.node path))
    have found := NodesAlike.ofValue? outline (fun ordinary : IsOrdinary path => Store.get_node_congr alike ordinary)
    by_cases root : path = "/"
    · subst root
      have notOrdinary : ¬ IsOrdinary "/" := fun ordinary => ordinary.2.1 rfl
      rw [loaded, loaded]
      change NodesAlike "/" (Node.ofValue? (s.get (Key.node "/"))) (Node.ofValue? (t.get (Key.node "/"))) at found
      generalize Node.ofValue? (s.get (Key.node "/")) = n at found ⊢
      generalize Node.ofValue? (t.get (Key.node "/")) = n' at found ⊢
      cases found with
      | directory outline _ => exact .directory outline fun ordinary => absurd ordinary notOrdinary
      | _ => exact .directory rfl fun _ => rfl
    · rw [loaded_of_ne_root root, loaded_of_ne_root root]
      exact found
  · rintro rfl
    exact loaded_root _

theorem locate_lockstep (label : String) :
    Lockstep (fun c' p p' => c' = c ∧ p = Path.resolve label c ∧ p' = Path.resolve label c) c
      (locate label) (locate label) :=
  .cwd (.done ⟨rfl, rfl, rfl⟩)

theorem nearestIsFile_lockstep (paths : List String) :
    Lockstep (fun c' b b' => c' = c ∧ b = b') c (nearestIsFile paths) (nearestIsFile paths) := by
  induction paths with
  | nil => exact .pure ⟨rfl, rfl⟩
  | cons path rest ih =>
    refine (load_lockstep path).bind ?_
    rintro c' n n' ⟨rfl, alike, -⟩
    cases alike with
    | none => exact ih
    | file _ => exact .pure ⟨rfl, rfl⟩
    | directory _ _ => exact .pure ⟨rfl, rfl⟩

theorem belowFile_lockstep (label path : String) :
    Lockstep (fun c' r r' => c' = c ∧ r = r') c (belowFile label path) (belowFile label path) := by
  refine (nearestIsFile_lockstep _).bind ?_
  rintro c' b b' ⟨rfl, rfl⟩
  split <;> exact .pure ⟨rfl, rfl⟩

/-- What the gate gives in two runs, and that a path that passes is not metadata. -/
theorem gate_lockstep (at_label : path = Path.resolve label c) :
    Lockstep (fun c' r r' => c' = c ∧ r = r' ∧ (r = none → Key.isMetadata path = false)) c
      (gate label path false) (gate label path false) := by
  rw [gate_eq]
  split
  · exact .done ⟨rfl, rfl, by simp⟩
  · next outside =>
    refine .get fun s t alike => ?_
    rw [Bool.not_eq_true] at outside
    subst at_label
    let verdict (opens : Bool) : Program (Option Refusal) := .done (if opens then none else some .wrongPassword)
    have same := Store.password?_congr alike (Path.isResolved_resolve label c)
    rw [Store.password?, Store.password?] at same
    rw [same]
    cases (Vault.password? (t.get (Key.password (Path.resolve label c)))).isSome with
    | false => exact .done ⟨rfl, rfl, fun _ => outside⟩
    | true =>
      refine @Lockstep.gate _ _ _ c label verdict verdict fun opens => ?_
      exact .done ⟨rfl, rfl, fun _ => outside⟩

theorem newPassword_lockstep (label path : String) :
    Lockstep (fun c' r r' => c' = c ∧ r = r') c (newPassword label path) (newPassword label path) := by
  have setFree (other : String) : (⟨"Set password for '" ++ label ++ "':", .secret, ""⟩ : Prompt) ≠ passwordPrompt other := by
    intro same
    have first := congrArg (fun p => p.label.toList.head?) same
    simp [passwordPrompt] at first
  have confirmFree (other : String) : (⟨"Confirm password:", .secret, ""⟩ : Prompt) ≠ passwordPrompt other := by
    intro same
    have first := congrArg (fun p => p.label.toList.head?) same
    simp [passwordPrompt] at first
  refine (Lockstep.prompt setFree).bind ?_
  rintro c' first first' ⟨rfl, rfl⟩
  cases first with
  | none => exact .pure ⟨rfl, rfl⟩
  | some first =>
    dsimp only
    split
    · exact .pure ⟨rfl, rfl⟩
    · refine (Lockstep.prompt confirmFree).bind ?_
      rintro c'' second second' ⟨rfl, rfl⟩
      split
      · refine (Lockstep.write _ _).bind ?_
        rintro c' - - rfl
        exact .pure ⟨rfl, rfl⟩
      · exact .pure ⟨rfl, rfl⟩

theorem newPasswordIf_lockstep (protects : Prop) [Decidable protects] (label path : String) :
    Lockstep (fun c' r r' => c' = c ∧ r = r') c
      (if protects then newPassword label path else Pure.pure none)
      (if protects then newPassword label path else Pure.pure none) := by
  split
  · exact newPassword_lockstep _ _
  · exact .pure ⟨rfl, rfl⟩

theorem belowFileIf_lockstep (absent : Prop) [Decidable absent] (label path : String) :
    Lockstep (fun c' r r' => c' = c ∧ r = r') c
      (if absent then belowFile label path else Pure.pure none)
      (if absent then belowFile label path else Pure.pure none) := by
  split
  · exact belowFile_lockstep _ _
  · exact .pure ⟨rfl, rfl⟩

/-- A listing shows the outline of a directory only. -/
theorem directoryListing_congr {children children' : Entries} {elevated : Bool}
    (outline : Assoc.adapt (fun _ v => v.isMapping) children = Assoc.adapt (fun _ v => v.isMapping) children') :
    directoryListing path children elevated = directoryListing path children' elevated := by
  have names : Assoc.names children = Assoc.names children' := by
    rw [← Assoc.names_adapt (fun _ v => v.isMapping), outline, Assoc.names_adapt]
  have kinds (n : String) : (Assoc.get? children n).map Value.isMapping = (Assoc.get? children' n).map Value.isMapping := by
    have looked := congrArg (fun entries => Assoc.get? entries n) outline
    simpa only [Assoc.get?_adapt] using looked
  simp only [directoryListing, visibleNames, names, kinds]

theorem ls_discreet (label : String) : Discreet c (ls label none) := by
  refine (locate_lockstep label).bind ?_
  rintro c path path' ⟨rfl, rfl, rfl⟩
  refine (load_lockstep _).bind ?_
  rintro c' n n' ⟨rfl, alike, -⟩
  -- without an operand the gate names the path, which stands for itself
  have at_label : Path.resolve label c' =
      Path.resolve (if label = "" then Path.resolve label c' else label) c' := by
    split
    · exact ((Path.isResolved_resolve label c').resolve_eq c').symm
    · rfl
  cases alike with
  | none => exact .pure rfl
  | file _ =>
    refine (gate_lockstep at_label).bind ?_
    rintro c r r' ⟨rfl, rfl, -⟩
    cases r <;> exact .pure rfl
  | directory outline _ =>
    refine (gate_lockstep at_label).bind ?_
    rintro c r r' ⟨rfl, rfl, -⟩
    cases r with
    | some refusal => exact .pure rfl
    | none => exact .pure (congrArg _ (directoryListing_congr outline))

theorem file_discreet (label : String) : Discreet c (file label none) := by
  unfold file
  split
  · exact .pure rfl
  · refine (locate_lockstep label).bind ?_
    rintro c path path' ⟨rfl, rfl, rfl⟩
    refine (load_lockstep _).bind ?_
    rintro c' n n' ⟨rfl, alike, -⟩
    cases alike with
    | none => exact .pure rfl
    | file _ =>
      refine (gate_lockstep rfl).bind ?_
      rintro c r r' ⟨rfl, rfl, -⟩
      cases r <;> exact .pure rfl
    | directory _ _ =>
      refine (gate_lockstep rfl).bind ?_
      rintro c r r' ⟨rfl, rfl, -⟩
      cases r <;> exact .pure rfl

theorem cd_discreet (identity label : String) : Discreet c (cd identity label none) := by
  unfold cd
  split
  · exact .pure rfl
  · refine (locate_lockstep label).bind ?_
    rintro c path path' ⟨rfl, rfl, rfl⟩
    refine (load_lockstep _).bind ?_
    rintro c' n n' ⟨rfl, alike, -⟩
    cases alike with
    | none => exact .pure rfl
    | file _ => exact .pure rfl
    | directory _ _ =>
      refine (gate_lockstep rfl).bind ?_
      rintro c r r' ⟨rfl, rfl, -⟩
      cases r with
      | some refusal => exact .pure rfl
      | none =>
        have moved : Lockstep (fun _ _ _ => True) c (Context.changeDirectory identity (Path.resolve label c))
            (Context.changeDirectory identity (Path.resolve label c)) :=
          (Lockstep.changeDirectory _).bind fun _ _ _ _ => (Lockstep.write _ _).mono fun _ _ _ _ => trivial
        exact moved.bind fun _ _ _ _ => .pure rfl

theorem cat_discreet (label : String) : Discreet c (cat label none) := by
  unfold cat
  split
  · exact .pure rfl
  · refine (locate_lockstep label).bind ?_
    rintro c path path' ⟨rfl, rfl, rfl⟩
    refine (load_lockstep _).bind ?_
    rintro c' n n' ⟨rfl, alike, root⟩
    cases alike with
    | none => exact .pure rfl
    | file same =>
      refine (gate_lockstep rfl).bind ?_
      rintro c r r' ⟨rfl, rfl, passed⟩
      cases r with
      | some refusal => exact .pure rfl
      | none =>
        have notRoot : Path.resolve label c ≠ "/" := fun h => by simpa using root h
        exact .pure (congrArg _ (same ⟨Path.isResolved_resolve .., notRoot, passed rfl⟩))
    | directory _ _ =>
      refine (gate_lockstep rfl).bind ?_
      rintro c r r' ⟨rfl, rfl, -⟩
      cases r <;> exact .pure rfl

/-- What a read of the node at a path gives in two runs, before it is taken for a node. -/
theorem fetch_lockstep (path : String) :
    Lockstep (fun c' v v' => c' = c ∧ v.outline = v'.outline ∧ (IsOrdinary path → v = v')) c
      (Program.fetch (Key.node path)) (Program.fetch (Key.node path)) :=
  .get fun _ _ alike => .done ⟨rfl, Store.outline_find_congr alike _, Store.get_node_congr alike⟩

theorem cp_discreet (source target : String) : Discreet c (cp source target none) := by
  unfold cp
  split
  · exact .pure rfl
  · refine (locate_lockstep source).bind ?_
    rintro c sourcePath - ⟨rfl, rfl, rfl⟩
    refine (locate_lockstep target).bind ?_
    rintro c targetPath - ⟨rfl, rfl, rfl⟩
    split
    · exact .pure rfl
    · next notRoot =>
      refine (fetch_lockstep _).bind ?_
      rintro c' v v' ⟨rfl, outline, same⟩
      by_cases absent : v = .null
      · have absent' : v' = .null := Value.outline_eq_none_iff.mp (by rw [← outline, absent]; rfl)
        subst absent absent'
        exact .pure rfl
      · have present : v' ≠ .null := fun absent' =>
          absent (Value.outline_eq_none_iff.mp (by rw [outline, absent']; rfl))
        rw [if_neg absent, if_neg present]
        refine (gate_lockstep rfl).bind ?_
        rintro c r r' ⟨rfl, rfl, passed⟩
        cases r with
        | some refusal => exact .pure rfl
        | none =>
          have unchanged := same ⟨Path.isResolved_resolve .., notRoot, passed rfl⟩
          subst unchanged
          dsimp only
          split
          · exact .pure rfl
          · split
            · exact .pure rfl
            · refine (belowFile_lockstep _ _).bind ?_
              rintro c' r r' ⟨rfl, rfl⟩
              cases r with
              | some refusal => exact .pure rfl
              | none =>
                refine (gate_lockstep rfl).bind ?_
                rintro c r r' ⟨rfl, rfl, -⟩
                cases r with
                | some refusal => exact .pure rfl
                | none =>
                  refine (Lockstep.write _ _).bind ?_
                  rintro c' - - rfl
                  exact .pure rfl

/-- The removal of a node is the same in both runs. -/
theorem removeNode_lockstep (path : String) (node : Node) (recursive : Bool) (reason : Option ElevationReason) :
    Lockstep (fun c' _ _ => c' = c) c (removeNode path node recursive reason) (removeNode path node recursive reason) := by
  refine (Lockstep.delete _).bind ?_
  rintro c' - - rfl
  have removed : Lockstep (fun c _ _ => c = c') c' (Vault.removeMany (removedPaths path node recursive))
      (Vault.removeMany (removedPaths path node recursive)) := by
    unfold Vault.removeMany
    split
    · exact .pure rfl
    · exact Lockstep.merge _ _
  refine removed.bind ?_
  rintro c - - rfl
  exact Lockstep.record _

theorem mv_discreet (source target : String) : Discreet c (mv source target none) := by
  unfold mv
  split
  · exact .pure rfl
  · refine (locate_lockstep source).bind ?_
    rintro c sourcePath - ⟨rfl, rfl, rfl⟩
    refine (locate_lockstep target).bind ?_
    rintro c targetPath - ⟨rfl, rfl, rfl⟩
    split
    · exact .pure rfl
    · next notRoot =>
      refine (fetch_lockstep _).bind ?_
      rintro c' v v' ⟨rfl, outline, same⟩
      have alike := NodesAlike.ofValue? outline same
      cases found : Node.ofValue? v with
      | none =>
        cases found' : Node.ofValue? v' with
        | none => exact .pure rfl
        | some _ =>
          rw [found, found'] at alike
          cases alike
      | some node =>
        cases found' : Node.ofValue? v' with
        | none =>
          rw [found, found'] at alike
          cases alike
        | some node' =>
        dsimp only
        split
        · exact .pure rfl
        · refine (gate_lockstep rfl).bind ?_
          rintro c r r' ⟨rfl, rfl, passed⟩
          cases r with
          | some refusal => exact .pure rfl
          | none =>
            have unchanged := same ⟨Path.isResolved_resolve .., notRoot, passed rfl⟩
            subst unchanged
            obtain rfl : node = node' := by simpa [found] using found'
            refine (load_lockstep _).bind ?_
            rintro c' n n' ⟨rfl, alike, -⟩
            have target : destination (Path.resolve source c') (Path.resolve target c') n =
                destination (Path.resolve source c') (Path.resolve target c') n' := by
              cases alike <;> rfl
            rw [target]
            split
            · exact .pure rfl
            · split
              · exact .pure rfl
              · refine (belowFile_lockstep _ _).bind ?_
                rintro c r r' ⟨rfl, rfl⟩
                cases r with
                | some refusal => exact .pure rfl
                | none =>
                  refine (Lockstep.write _ _).bind ?_
                  rintro c' - - rfl
                  refine (removeNode_lockstep _ _ _ _).bind ?_
                  rintro c - - rfl
                  exact .pure rfl

theorem mkdir_discreet (args : List String) : Discreet c (mkdir args none) := by
  unfold mkdir
  dsimp only
  split
  · exact .pure rfl
  · refine (locate_lockstep _).bind ?_
    rintro c path - ⟨rfl, rfl, rfl⟩
    split
    · exact .pure rfl
    · split
      · exact .pure rfl
      · refine (load_lockstep _).bind ?_
        rintro c' n n' ⟨rfl, alike, -⟩
        cases alike with
        | none => exact .pure rfl
        | file _ => exact .pure rfl
        | @directory children children' outline _ =>
          have taken (n : String) : (Assoc.get? children n).isSome = (Assoc.get? children' n).isSome := by
            have looked := congrArg (fun entries => (Assoc.get? entries n).isSome) outline
            simpa only [Assoc.get?_adapt, Option.isSome_map] using looked
          dsimp only
          rw [taken]
          split
          · exact .pure rfl
          · refine (newPasswordIf_lockstep _ _ _).bind ?_
            rintro c r r' ⟨rfl, rfl⟩
            cases r with
            | some refusal => exact .pure rfl
            | none =>
              refine (Lockstep.merge _ _).bind ?_
              rintro c' - - rfl
              exact .pure rfl

theorem rm_discreet (args : List String) : Discreet c (rm args none) := by
  unfold rm
  dsimp only
  split
  · exact .pure rfl
  · refine (locate_lockstep _).bind ?_
    rintro c path - ⟨rfl, rfl, rfl⟩
    split
    · exact .pure rfl
    · next notRoot =>
      split
      · exact .pure rfl
      · next outside =>
        refine (load_lockstep _).bind ?_
        rintro c' n n' ⟨rfl, alike, -⟩
        have unchanged := alike.eq_of_ordinary ⟨Path.isResolved_resolve .., notRoot, by simpa using outside⟩
        subst unchanged
        cases n with
        | none => exact .pure rfl
        | some node =>
          dsimp only
          split
          · exact .pure rfl
          · refine (gate_lockstep rfl).bind ?_
            rintro c r r' ⟨rfl, rfl, -⟩
            cases r with
            | some refusal => exact .pure rfl
            | none =>
              dsimp only
              split
              · exact .pure rfl
              · refine (removeNode_lockstep _ _ _ _).bind ?_
                rintro c' - - rfl
                exact .pure rfl

/-- What an editor prompt gives in two runs. -/
theorem edit_lockstep (label existing : String) :
    Lockstep (fun c' a a' => c' = c ∧ a = a') c (Program.prompt ⟨"Editing '" ++ label ++ "'", .edit, existing⟩)
      (Program.prompt ⟨"Editing '" ++ label ++ "'", .edit, existing⟩) := by
  refine Lockstep.prompt fun other same => ?_
  have kinds := congrArg Prompt.kind same
  simp [passwordPrompt] at kinds

/-- What `vim` does once the gate is passed. -/
theorem edited_lockstep (protects : Bool) (label path existing : String) :
    Discreet c (do
      match ← (if protects && (none : Option Elevation).isNone then newPassword label path else Pure.pure none) with
      | some refusal => return .error refusal
      | none =>
        Program.write (Key.node path) (.text existing)
        match ← Program.prompt ⟨"Editing '" ++ label ++ "'", .edit, existing⟩ with
        | none => return .ok "vim: editing canceled"
        | some edited =>
          Program.write (Key.node path) (.text edited)
          return .ok ("File '" ++ label ++ "' saved.") : Program Result) := by
  refine (newPasswordIf_lockstep _ _ _).bind ?_
  rintro c r r' ⟨rfl, rfl⟩
  cases r with
  | some refusal => exact .pure rfl
  | none =>
    refine (Lockstep.write _ _).bind ?_
    rintro c' - - rfl
    refine (edit_lockstep _ _).bind ?_
    rintro c answer answer' ⟨rfl, rfl⟩
    cases answer with
    | none => exact .pure rfl
    | some edited =>
      refine (Lockstep.write _ _).bind ?_
      rintro c' - - rfl
      exact .pure rfl

theorem vim_discreet (args : List String) : Discreet c (vim args none) := by
  unfold vim
  dsimp only
  split
  · exact .pure rfl
  · refine (locate_lockstep _).bind ?_
    rintro c path - ⟨rfl, rfl, rfl⟩
    refine (load_lockstep _).bind ?_
    rintro c' n n' ⟨rfl, alike, root⟩
    cases alike with
    | directory _ _ => exact .pure rfl
    | none =>
      refine (belowFileIf_lockstep _ _ _).bind ?_
      rintro c r r' ⟨rfl, rfl⟩
      cases r with
      | some refusal => exact .pure rfl
      | none =>
        refine (gate_lockstep rfl).bind ?_
        rintro c' r r' ⟨rfl, rfl, -⟩
        cases r with
        | some refusal => exact .pure rfl
        | none => exact edited_lockstep _ _ _ _
    | file same =>
      refine (belowFileIf_lockstep _ _ _).bind ?_
      rintro c r r' ⟨rfl, rfl⟩
      cases r with
      | some refusal => exact .pure rfl
      | none =>
        refine (gate_lockstep rfl).bind ?_
        rintro c' r r' ⟨rfl, rfl, passed⟩
        cases r with
        | some refusal => exact .pure rfl
        | none =>
          have notRoot : Path.resolve (Operand.ofArgs args).label c' ≠ "/" := fun h => by simpa using root h
          have unchanged := same ⟨Path.isResolved_resolve .., notRoot, passed rfl⟩
          subst unchanged
          exact edited_lockstep _ _ _ _

/-- What a redirect does once it has looked its target up. -/
theorem redirected_lockstep (absent : Bool) (label text : String) :
    Discreet c (do
      match ← (if absent then belowFile label (Path.resolve label c) else Pure.pure none) with
      | some refusal => return .error refusal
      | none =>
        match ← gate label (Path.resolve label c) (none : Option Elevation).isSome with
        | some refusal => return .error refusal
        | none =>
          Program.write (Key.node (Path.resolve label c)) (.text text)
          return .ok "" : Program Result) := by
  refine (belowFileIf_lockstep _ _ _).bind ?_
  rintro c r r' ⟨rfl, rfl⟩
  cases r with
  | some refusal => exact .pure rfl
  | none =>
    refine (gate_lockstep rfl).bind ?_
    rintro c' r r' ⟨rfl, rfl, -⟩
    cases r with
    | some refusal => exact .pure rfl
    | none =>
      refine (Lockstep.write _ _).bind ?_
      rintro c - - rfl
      exact .pure rfl

theorem redirect_discreet (label text : String) : Discreet c (redirect label text none) := by
  refine (locate_lockstep label).bind ?_
  rintro c path - ⟨rfl, rfl, rfl⟩
  split
  · exact .pure rfl
  · refine (load_lockstep _).bind ?_
    rintro c' n n' ⟨rfl, alike, -⟩
    cases alike with
    | directory _ _ => exact .pure rfl
    | none => exact redirected_lockstep true label text
    | file _ => exact redirected_lockstep false label text

end Verb

/-- Every verb is discreet without elevation. -/
theorem VerbCall.program_discreet (identity : String) (call : VerbCall) :
    Discreet c (call.program identity none) := by
  cases call with
  | ls label => exact Verb.ls_discreet label
  | file label => exact Verb.file_discreet label
  | cd label => exact Verb.cd_discreet identity label
  | cat label => exact Verb.cat_discreet label
  | cp source target => exact Verb.cp_discreet source target
  | mv source target => exact Verb.mv_discreet source target
  | mkdir args => exact Verb.mkdir_discreet args
  | rm args => exact Verb.rm_discreet args
  | vim args => exact Verb.vim_discreet args
  | redirect label text => exact Verb.redirect_discreet label text

end TreeShell
