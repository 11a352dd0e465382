import TreeShell.Command
import TreeShell.Proofs.Program.Solo
import TreeShell.Proofs.Verb.Guard

/-! # What a verb comes to without faults

Alone on a store without faults a verb either refuses, and then nothing has happened but prompts, or it
has checked all that it checks and makes its writes. There is one case lemma a verb; each names the checks
that have been passed and gives the session afterwards in terms of the one before.
-/

namespace TreeShell

/-- Whether the nearest of the given paths that holds a node holds a file. -/
def Store.fileNearest (s : Store) : List String → Bool
  | [] => false
  | path :: rest =>
    match s.node? path with
    | some (.file _) => true
    | some (.directory _) => false
    | none => s.fileNearest rest

namespace Verb

/-- The prompt for a new password of the path with the given label. -/
def newPasswordPrompt (label : String) : Prompt :=
  { label := "Set password for '" ++ label ++ "':" }

/-- The prompt for a new password once more. -/
def confirmPrompt : Prompt :=
  { label := "Confirm password:" }

/-- The editor with the text of the file with the given label. -/
def editPrompt (label existing : String) : Prompt :=
  ⟨"Editing '" ++ label ++ "'", .edit, existing⟩

end Verb

open Verb

/-- Whether a session may touch a path: with elevation, or if the path is not metadata and its password,
if it has one, was the answer to the prompt for it. -/
def Solo.Cleared (u : Solo) (label path : String) (elevated : Bool) : Prop :=
  elevated = true ∨ (Key.isMetadata path = false ∧
    ∀ password, u.store.password? path = some password → (passwordPrompt label, some password) ∈ u.asked)

namespace Solo

variable {u v w : Solo} {label path : String} {elevated : Bool}

/-- What was cleared stays so while there are only prompts. -/
theorem Cleared.mono (cleared : u.Cleared label path elevated) (asks : u.Asks v) :
    v.Cleared label path elevated := by
  refine cleared.imp_right fun ⟨outside, given⟩ => ⟨outside, fun password found => ?_⟩
  exact asks.asked.subset (given password (asks.store ▸ found))

/-- Whether the second session is the first after a new password was entered twice for a path, if one was
to be set at all. -/
inductive Enters (label path : String) (u : Solo) : Bool → Solo → Prop
  | unprotected : Enters label path u false u
  | entered {password : String} (filled : password ≠ "") (first : u.answer = some password)
    (second : (u.ask (newPasswordPrompt label)).answer = some password) :
    Enters label path u true
      (((u.ask (newPasswordPrompt label)).ask confirmPrompt).perform (.set (Key.password path) (.text password)))

end Solo

namespace Verb

variable {u v : Solo} {label path : String} {elevation : Option Elevation}

/-- Whether a verb has refused, with nothing but prompts before. -/
structure Refused (u : Solo) (r : Result × Solo) : Prop where
  refusal : ∃ refusal, r.1 = .error refusal
  asks : u.Asks r.2

theorem Refused.not_replied {r : Result × Solo} (refused : Refused u r) (reply : String) : r.1 ≠ .ok reply := by
  obtain ⟨⟨refusal, same⟩, -⟩ := refused
  rw [same]
  exact nofun

theorem refused_now (asks : u.Asks v) (refusal : Refusal) : Refused u (.error refusal, v) :=
  ⟨⟨refusal, rfl⟩, asks⟩

@[simp] theorem play_locate (label : String) (u : Solo) :
    (locate label).play u = (Path.resolve label u.cwd, u) := rfl

@[simp] theorem play_load (path : String) (u : Solo) : (load path).play u = (u.store.node? path, u) := by
  rw [load_eq, Program.play_call_get, Program.play_done, Store.node?]

theorem play_nearestIsFile (paths : List String) (u : Solo) :
    (nearestIsFile paths).play u = (u.store.fileNearest paths, u) := by
  induction paths with
  | nil => rfl
  | cons path rest ih =>
    rw [nearestIsFile, Program.play_bind, play_load, Store.fileNearest]
    cases u.store.node? path with
    | none => exact ih
    | some node => cases node <;> rfl

/-- The check for a file above a path refuses, or there is none. -/
theorem belowFile_cases (label path : String) (u : Solo) :
    (∃ refusal, (belowFile label path).play u = (some refusal, u)) ∨
      (u.store.fileNearest (Path.ancestors path) = false ∧ (belowFile label path).play u = (none, u)) := by
  rw [belowFile, Program.play_bind_eq (play_nearestIsFile _ u)]
  cases u.store.fileNearest (Path.ancestors path) with
  | true => exact .inl ⟨_, rfl⟩
  | false => exact .inr ⟨rfl, rfl⟩

theorem belowFileIf_cases (absent : Bool) (label path : String) (u : Solo) :
    (∃ refusal, (if absent then belowFile label path else pure none : Program _).play u = (some refusal, u)) ∨
      ((absent = true → u.store.fileNearest (Path.ancestors path) = false) ∧
        (if absent then belowFile label path else pure none : Program _).play u = (none, u)) := by
  cases absent with
  | true =>
    rcases belowFile_cases label path u with refused | ⟨free, passed⟩
    · exact .inl refused
    · exact .inr ⟨fun _ => free, passed⟩
  | false => exact .inr ⟨nofun, rfl⟩

@[simp] theorem play_gate_elevated (label path : String) (u : Solo) :
    (gate label path true).play u = (none, u) := rfl

/-- The gate without elevation asks once if the path has a password, and not at all otherwise. -/
theorem play_gate (label path : String) (u : Solo) :
    (gate label path false).play u =
      if Key.isMetadata path then (some .metadata, u)
      else
        match u.store.password? path with
        | none => (none, u)
        | some password =>
          (if u.answer = some password then none else some .wrongPassword, u.ask (passwordPrompt label)) := by
  rw [gate_eq]
  split
  · rw [Program.play_done]
  · rw [Program.play_call_get, ← Store.password?]
    cases found : u.store.password? path with
    | none => rw [Option.isSome_none, if_neg nofun, Program.play_done]
    | some password =>
      have opens : Vault.opens (u.store.get (Key.password path)) u.answer = decide (u.answer = some password) := by
        rw [Store.password?] at found
        rw [Vault.opens, found]
      rw [Option.isSome_some, if_pos rfl, Program.play_ask, Program.play_call_get, Program.play_done, Solo.store_ask, opens]
      simp

/-- The gate refuses after prompts, or clears the path. -/
theorem gate_cases (label path : String) (elevated : Bool) (u : Solo) :
    (∃ refusal v, u.Asks v ∧ (gate label path elevated).play u = (some refusal, v)) ∨
      (∃ v, u.Asks v ∧ v.Cleared label path elevated ∧ (gate label path elevated).play u = (none, v)) := by
  cases elevated with
  | true => exact .inr ⟨u, .refl u, .inl rfl, rfl⟩
  | false =>
    rw [play_gate]
    cases outside : Key.isMetadata path with
    | true => exact .inl ⟨_, u, .refl u, rfl⟩
    | false =>
      cases found : u.store.password? path with
      | none => exact .inr ⟨u, .refl u, .inr ⟨outside, by simp [found]⟩, rfl⟩
      | some password =>
        by_cases right : u.answer = some password
        · refine .inr ⟨u.ask (passwordPrompt label), u.asks_ask _, .inr ⟨outside, ?_⟩, by simp [right]⟩
          intro other same
          obtain rfl : password = other := by simpa [found, Solo.ask] using same
          simp [Solo.ask, right]
        · exact .inl ⟨.wrongPassword, u.ask (passwordPrompt label), u.asks_ask _, by simp [right]⟩

/-- Setting a password refuses after prompts, or the password was entered twice. -/
theorem newPassword_cases (label path : String) (protects : Bool) (u : Solo) :
    (∃ refusal v, u.Asks v ∧
      (if protects then newPassword label path else pure none : Program _).play u = (some refusal, v)) ∨
    (∃ v, u.Enters label path protects v ∧
      (if protects then newPassword label path else pure none : Program _).play u = (none, v)) := by
  cases protects with
  | false => exact .inr ⟨u, .unprotected, rfl⟩
  | true =>
    have once := u.asks_ask (newPasswordPrompt label)
    have twice := once.trans ((u.ask (newPasswordPrompt label)).asks_ask confirmPrompt)
    rw [if_pos rfl, newPassword, Program.play_bind, Program.play_prompt]
    cases first : u.answer with
    | none => exact .inl ⟨_, _, once, rfl⟩
    | some password =>
      dsimp only
      by_cases empty : password = ""
      · rw [if_pos empty]
        exact .inl ⟨_, _, once, rfl⟩
      · rw [if_neg empty, Program.play_bind, Program.play_prompt]
        by_cases second : (u.ask (newPasswordPrompt label)).answer = some password
        · rw [if_pos (by exact second)]
          exact .inr ⟨_, .entered empty first second, rfl⟩
        · rw [if_neg (by exact second)]
          exact .inl ⟨_, _, twice, rfl⟩

/-- A verb that only replies behind the gate brings prompts at most. -/
theorem asks_of_gate {next : Option Refusal → Program Result} (replies : ∀ r v, ((next r).play v).2 = v)
    (label path : String) (elevated : Bool) (u : Solo) :
    u.Asks ((gate label path elevated >>= next).play u).2 := by
  rw [Program.play_bind]
  rcases gate_cases label path elevated u with ⟨refusal, v, asks, refused⟩ | ⟨v, asks, -, passed⟩
  · rw [refused, replies]
    exact asks
  · rw [passed, replies]
    exact asks

theorem ls_asks (label : String) (elevation : Option Elevation) (u : Solo) :
    u.Asks ((ls label elevation).play u).2 := by
  simp only [ls, Program.play_bind, play_locate, play_load]
  cases u.store.node? (Path.resolve label u.cwd) with
  | none => exact .refl u
  | some node =>
    refine asks_of_gate (fun r v => ?_) _ _ _ u
    cases r <;> cases node <;> rfl

theorem file_asks (label : String) (elevation : Option Elevation) (u : Solo) :
    u.Asks ((file label elevation).play u).2 := by
  unfold file
  split
  · exact .refl u
  · simp only [Program.play_bind, play_locate, play_load]
    cases u.store.node? (Path.resolve label u.cwd) with
    | none => exact .refl u
    | some node =>
      refine asks_of_gate (fun r v => ?_) _ _ _ u
      cases r <;> cases node <;> rfl

theorem cat_asks (label : String) (elevation : Option Elevation) (u : Solo) :
    u.Asks ((cat label elevation).play u).2 := by
  unfold cat
  split
  · exact .refl u
  · simp only [Program.play_bind, play_locate, play_load]
    cases u.store.node? (Path.resolve label u.cwd) with
    | none => exact .refl u
    | some node =>
      refine asks_of_gate (fun r v => ?_) _ _ _ u
      cases r <;> cases node <;> rfl

/-- `cd` refuses, or a directory that it has cleared becomes the working directory and is remembered. -/
theorem cd_cases (identity label : String) (elevation : Option Elevation) (u : Solo) :
    Refused u ((cd identity label elevation).play u) ∨
      ∃ v, u.Asks v ∧ v.Cleared label (Path.resolve label u.cwd) elevation.isSome ∧
        (∃ children, u.store.node? (Path.resolve label u.cwd) = some (.directory children)) ∧
        (cd identity label elevation).play u = (.ok ("Changed directory to '" ++ label ++ "'"),
          (v.enter (Path.resolve label u.cwd)).perform
            (.set (Key.cwd identity) (.text (Path.resolve label u.cwd)))) := by
  unfold cd
  split
  · exact .inl (refused_now (.refl u) _)
  · simp only [Program.play_bind, play_locate, play_load]
    cases u.store.node? (Path.resolve label u.cwd) with
    | none => exact .inl (refused_now (.refl u) _)
    | some node =>
      cases node with
      | file content => exact .inl (refused_now (.refl u) _)
      | directory children =>
        simp only [Program.play_bind]
        rcases gate_cases label (Path.resolve label u.cwd) elevation.isSome u with
          ⟨refusal, v, asks, refused⟩ | ⟨v, asks, cleared, passed⟩
        · rw [refused]
          exact .inl (refused_now asks _)
        · rw [passed]
          exact .inr ⟨v, asks, cleared, ⟨children, rfl⟩, rfl⟩

/-- What `cp` has made sure of when it writes. -/
structure CopyReady (u v : Solo) (source target : String) (elevated : Bool) : Prop where
  asks : u.Asks v
  sourceNotRoot : Path.resolve source u.cwd ≠ "/"
  targetNotRoot : Path.resolve target u.cwd ≠ "/"
  present : u.store.get (Key.node (Path.resolve source u.cwd)) ≠ .null
  sourceCleared : v.Cleared source (Path.resolve source u.cwd) elevated
  targetCleared : v.Cleared target (Path.resolve target u.cwd) elevated
  free : u.store.fileNearest (Path.ancestors (Path.resolve target u.cwd)) = false

/-- `cp` refuses, or puts the value of the source at the target. -/
theorem cp_cases (source target : String) (elevation : Option Elevation) (u : Solo) :
    Refused u ((cp source target elevation).play u) ∨
      ∃ v, CopyReady u v source target elevation.isSome ∧
        (cp source target elevation).play u = (.ok ("Copied '" ++ source ++ "' to '" ++ target ++ "'"),
          v.perform (.set (Key.node (Path.resolve target u.cwd))
            (u.store.get (Key.node (Path.resolve source u.cwd))))) := by
  generalize played : (cp source target elevation).play u = r
  unfold cp at played
  split at played
  · exact .inl (played ▸ refused_now (.refl u) _)
  · rw [Program.play_bind_eq (play_locate source u), Program.play_bind_eq (play_locate target u)] at played
    split at played
    · exact .inl (played ▸ refused_now (.refl u) _)
    · next sourceNotRoot =>
      rw [Program.play_bind_eq (Program.play_fetch _ u)] at played
      split at played
      · exact .inl (played ▸ refused_now (.refl u) _)
      · next present =>
        rcases gate_cases source (Path.resolve source u.cwd) elevation.isSome u with
          ⟨refusal, v, asks, refused⟩ | ⟨v, asks, sourceCleared, passed⟩
        · rw [Program.play_bind_eq refused] at played
          exact .inl (played ▸ refused_now asks _)
        · rw [Program.play_bind_eq passed] at played
          dsimp only at played
          split at played
          · exact .inl (played ▸ refused_now asks _)
          · next targetNotRoot =>
            split at played
            · exact .inl (played ▸ refused_now asks _)
            · rcases belowFile_cases target (Path.resolve target u.cwd) v with ⟨refusal, refused⟩ | ⟨free, passed⟩
              · rw [Program.play_bind_eq refused] at played
                exact .inl (played ▸ refused_now asks _)
              · rw [Program.play_bind_eq passed] at played
                rw [asks.store] at free
                rcases gate_cases target (Path.resolve target u.cwd) elevation.isSome v with
                  ⟨refusal, w, more, refused⟩ | ⟨w, more, targetCleared, passed⟩
                · rw [Program.play_bind_eq refused] at played
                  exact .inl (played ▸ refused_now (asks.trans more) _)
                · rw [Program.play_bind_eq passed] at played
                  refine .inr ⟨w, ⟨asks.trans more, sourceNotRoot, targetNotRoot, present, ?_, targetCleared, free⟩,
                    played.symm⟩
                  exact sourceCleared.mono more

/-- The session after a node was removed with its passwords. -/
def removed (u : Solo) (path : String) (node : Node) (recursive : Bool) (reason : Option ElevationReason) : Solo :=
  ((u.perform (.remove (Key.node path))).perform
    (.update Key.passwords (Vault.removals (removedPaths path node recursive)))).record
    (.removed path (removedPaths path node recursive).length (reason.map (·.text)))

theorem play_removeNode (path : String) (node : Node) (recursive : Bool) (reason : Option ElevationReason)
    (u : Solo) :
    (removeNode path node recursive reason).play u = ((), removed u path node recursive reason) := by
  rfl

/-- The path at which `mv` puts its source. -/
def arrival (s : Store) (cwd source target : String) : String :=
  destination (Path.resolve source cwd) (Path.resolve target cwd) (s.node? (Path.resolve target cwd))

/-- What `mv` has made sure of when it writes. -/
structure MoveReady (u v : Solo) (source target : String) (elevated : Bool) (node : Node) : Prop where
  asks : u.Asks v
  sourceNotRoot : Path.resolve source u.cwd ≠ "/"
  found : Node.ofValue? (u.store.get (Key.node (Path.resolve source u.cwd))) = some node
  notPlaceholder : elevated = true ∨ Path.name (Path.resolve source u.cwd) ≠ placeholderName
  sourceCleared : v.Cleared source (Path.resolve source u.cwd) elevated
  notWithin : Path.isWithin (arrival u.store u.cwd source target) (Path.resolve source u.cwd) = false
  outside : elevated = true ∨ Key.isMetadata (arrival u.store u.cwd source target) = false
  free : u.store.fileNearest (Path.ancestors (arrival u.store u.cwd source target)) = false

/-- `mv` refuses, or puts the value of the source where it arrives and removes the source. -/
theorem mv_cases (source target : String) (elevation : Option Elevation) (u : Solo) :
    Refused u ((mv source target elevation).play u) ∨
      ∃ v node, MoveReady u v source target elevation.isSome node ∧
        (mv source target elevation).play u =
          (.ok ("Moved '" ++ source ++ "' to '" ++ Path.name (arrival u.store u.cwd source target) ++ "'"),
            removed (v.perform (.set (Key.node (arrival u.store u.cwd source target))
              (u.store.get (Key.node (Path.resolve source u.cwd))))) (Path.resolve source u.cwd) node
              node.isDirectory (some .earlierStep)) := by
  generalize played : (mv source target elevation).play u = r
  unfold mv at played
  split at played
  · exact .inl (played ▸ refused_now (.refl u) _)
  · rw [Program.play_bind_eq (play_locate source u), Program.play_bind_eq (play_locate target u)] at played
    split at played
    · exact .inl (played ▸ refused_now (.refl u) _)
    · next sourceNotRoot =>
      rw [Program.play_bind_eq (Program.play_fetch _ u)] at played
      cases found : Node.ofValue? (u.store.get (Key.node (Path.resolve source u.cwd))) with
      | none =>
        rw [found] at played
        exact .inl (played ▸ refused_now (.refl u) _)
      | some node =>
        rw [found] at played
        dsimp only at played
        split at played
        · exact .inl (played ▸ refused_now (.refl u) _)
        · next movable =>
          rcases gate_cases source (Path.resolve source u.cwd) elevation.isSome u with
            ⟨refusal, v, asks, refused⟩ | ⟨v, asks, sourceCleared, passed⟩
          · rw [Program.play_bind_eq refused] at played
            exact .inl (played ▸ refused_now asks _)
          · rw [Program.play_bind_eq passed] at played
            dsimp only at played
            rw [Program.play_bind_eq (play_load _ v), asks.store, ← arrival] at played
            split at played
            · exact .inl (played ▸ refused_now asks _)
            · next notWithin =>
              split at played
              · exact .inl (played ▸ refused_now asks _)
              · next outside =>
                rcases belowFile_cases target (arrival u.store u.cwd source target) v with
                  ⟨refusal, refused⟩ | ⟨free, passed⟩
                · rw [Program.play_bind_eq refused] at played
                  exact .inl (played ▸ refused_now asks _)
                · rw [Program.play_bind_eq passed] at played
                  rw [asks.store] at free
                  dsimp only at played
                  rw [Program.play_bind_eq (Program.play_write _ _ v), Program.play_bind_eq (play_removeNode ..)] at played
                  refine .inr ⟨v, node, ?_, played.symm⟩
                  exact ⟨asks, sourceNotRoot, found, by grind, sourceCleared, by simpa using notWithin, by grind, free⟩

/-- The operand of `rm`. -/
def removalLabel (args : List String) : String :=
  (args.find? (· ≠ "-r")).getD ""

/-- What `rm` has made sure of when it removes. -/
structure RemoveReady (u v : Solo) (args : List String) (elevated : Bool) (node : Node) : Prop where
  asks : u.Asks v
  notRoot : Path.resolve (removalLabel args) u.cwd ≠ "/"
  outside : Key.isMetadata (Path.resolve (removalLabel args) u.cwd) = false
  found : u.store.node? (Path.resolve (removalLabel args) u.cwd) = some node
  notPlaceholder : elevated = true ∨ Path.name (Path.resolve (removalLabel args) u.cwd) ≠ placeholderName
  cleared : v.Cleared (removalLabel args) (Path.resolve (removalLabel args) u.cwd) elevated
  whole : node.isDirectory = true → args.contains "-r" = true ∨ node.names = []

/-- `rm` refuses, or removes its operand. -/
theorem rm_cases (args : List String) (elevation : Option Elevation) (u : Solo) :
    Refused u ((rm args elevation).play u) ∨
      ∃ v node, RemoveReady u v args elevation.isSome node ∧
        (rm args elevation).play u =
          (.ok ((if node.isDirectory then "Removed directory '" else "Removed file '") ++ removalLabel args ++ "'"),
            removed v (Path.resolve (removalLabel args) u.cwd) node (args.contains "-r")
              (elevation.map (·.reason))) := by
  generalize played : (rm args elevation).play u = r
  unfold rm at played
  dsimp only at played
  rw [← removalLabel] at played
  split at played
  · exact .inl (played ▸ refused_now (.refl u) _)
  · rw [Program.play_bind_eq (play_locate _ u)] at played
    split at played
    · exact .inl (played ▸ refused_now (.refl u) _)
    · next notRoot =>
      split at played
      · exact .inl (played ▸ refused_now (.refl u) _)
      · next outside =>
        rw [Program.play_bind_eq (play_load _ u)] at played
        cases found : u.store.node? (Path.resolve (removalLabel args) u.cwd) with
        | none =>
          rw [found] at played
          exact .inl (played ▸ refused_now (.refl u) _)
        | some node =>
          rw [found] at played
          dsimp only at played
          split at played
          · exact .inl (played ▸ refused_now (.refl u) _)
          · next removable =>
            rcases gate_cases (removalLabel args) (Path.resolve (removalLabel args) u.cwd) elevation.isSome u with
              ⟨refusal, v, asks, refused⟩ | ⟨v, asks, cleared, passed⟩
            · rw [Program.play_bind_eq refused] at played
              exact .inl (played ▸ refused_now asks _)
            · rw [Program.play_bind_eq passed] at played
              dsimp only at played
              split at played
              · exact .inl (played ▸ refused_now asks _)
              · next whole =>
                rw [Program.play_bind_eq (play_removeNode ..)] at played
                refine .inr ⟨v, node, ?_, played.symm⟩
                refine ⟨asks, notRoot, by simpa using outside, found, ?_, cleared, by grind⟩
                cases elevation with
                | none => exact .inr fun same => removable ⟨same, rfl⟩
                | some _ => exact .inl rfl

/-- What `mkdir` has made sure of when it writes, with the session after a password was set. -/
structure MakeReady (u v : Solo) (operand : Operand) (elevated : Bool) : Prop where
  notRoot : Path.resolve operand.label u.cwd ≠ "/"
  outside : elevated = true ∨ Key.isMetadata (Path.resolve operand.label u.cwd) = false
  parent : ∃ siblings, u.store.node? (Path.parent (Path.resolve operand.label u.cwd)) = some (.directory siblings) ∧
    Assoc.get? siblings (Path.name (Path.resolve operand.label u.cwd)) = none
  enters : u.Enters operand.label (Path.resolve operand.label u.cwd) (operand.protects && !elevated) v

/-- `mkdir` refuses, or makes its operand in the parent, after it has set the password. -/
theorem mkdir_cases (args : List String) (elevation : Option Elevation) (u : Solo) :
    Refused u ((mkdir args elevation).play u) ∨
      ∃ v, MakeReady u v (Operand.ofArgs args) elevation.isSome ∧
        (mkdir args elevation).play u = (.ok ("Directory '" ++ (Operand.ofArgs args).label ++ "' created" ++
            (if (Operand.ofArgs args).protects && !elevation.isSome then " (password-protected)" else "")),
          v.perform (.update (Key.node (Path.parent (Path.resolve (Operand.ofArgs args).label u.cwd)))
            [(CodeTable.segment.escape (Path.name (Path.resolve (Operand.ofArgs args).label u.cwd)), newDirectory)])) := by
  have unelevated : elevation.isNone = !elevation.isSome := by cases elevation <;> rfl
  generalize played : (mkdir args elevation).play u = r
  unfold mkdir at played
  dsimp only at played
  rw [unelevated] at played
  split at played
  · exact .inl (played ▸ refused_now (.refl u) _)
  · rw [Program.play_bind_eq (play_locate _ u)] at played
    split at played
    · exact .inl (played ▸ refused_now (.refl u) _)
    · next notRoot =>
      split at played
      · exact .inl (played ▸ refused_now (.refl u) _)
      · next outside =>
        rw [Program.play_bind_eq (play_load _ u)] at played
        split at played
        · next siblings found =>
          split at played
          · exact .inl (played ▸ refused_now (.refl u) _)
          · next free =>
            rcases newPassword_cases (Operand.ofArgs args).label (Path.resolve (Operand.ofArgs args).label u.cwd)
              ((Operand.ofArgs args).protects && !elevation.isSome) u with
              ⟨refusal, v, asks, refused⟩ | ⟨v, enters, passed⟩
            · rw [Program.play_bind_eq refused] at played
              exact .inl (played ▸ refused_now asks _)
            · rw [Program.play_bind_eq passed] at played
              dsimp only at played
              rw [Program.play_bind_eq (Program.play_merge _ _ v)] at played
              refine .inr ⟨v, ?_, played.symm⟩
              exact ⟨notRoot, by grind, ⟨siblings, found, by simpa using free⟩, enters⟩
        · exact .inl (played ▸ refused_now (.refl u) _)

/-- What `vim` has made sure of when it writes, with the sessions before and after a password was set. -/
structure EditReady (u v w : Solo) (operand : Operand) (elevated : Bool) : Prop where
  asks : u.Asks v
  cleared : v.Cleared operand.label (Path.resolve operand.label u.cwd) elevated
  notDirectory : ∀ children, u.store.node? (Path.resolve operand.label u.cwd) ≠ some (.directory children)
  free : u.store.node? (Path.resolve operand.label u.cwd) = none →
    u.store.fileNearest (Path.ancestors (Path.resolve operand.label u.cwd)) = false
  enters : v.Enters operand.label (Path.resolve operand.label u.cwd) (operand.protects && !elevated) w

/-- The session when the editor closes: what was there has been written again. -/
def begun (u v : Solo) (label : String) : Solo :=
  (v.perform (.set (Key.node (Path.resolve label u.cwd))
    (.text (contentOf (u.store.node? (Path.resolve label u.cwd)))))).ask
    (editPrompt label (contentOf (u.store.node? (Path.resolve label u.cwd))))

theorem store_begun (u v : Solo) (label : String) : (begun u v label).store =
    v.store.set (Key.node (Path.resolve label u.cwd)) (.text (contentOf (u.store.node? (Path.resolve label u.cwd)))) := by
  rw [begun, Solo.store_ask, Solo.store_perform_set]

theorem cwd_begun (u v : Solo) (label : String) : (begun u v label).cwd = v.cwd := by
  rw [begun, Solo.ask, Solo.perform]

theorem events_begun (u v : Solo) (label : String) : (begun u v label).events = v.events := by
  rw [begun, Solo.ask, Solo.perform]

theorem asked_begun (u v : Solo) (label : String) : v.asked <+: (begun u v label).asked := by
  rw [begun, Solo.ask, Solo.asked_perform]
  exact List.prefix_append ..

/-- The two replies of an edit differ, whatever the file is called: they begin with different letters. -/
theorem saved_ne_canceled (label : String) : "File '" ++ label ++ "' saved." ≠ "vim: editing canceled" := by
  intro same
  have first := congrArg (·.toList.head?) same
  simp at first

/-- `vim` refuses, or writes what was there, shows the editor, and writes what comes out of it. -/
theorem vim_cases (args : List String) (elevation : Option Elevation) (u : Solo) :
    Refused u ((vim args elevation).play u) ∨
      ∃ v w, EditReady u v w (Operand.ofArgs args) elevation.isSome ∧
        ((vim args elevation).play u = (.ok "vim: editing canceled", begun u w (Operand.ofArgs args).label) ∨
          ∃ text, (begun u w (Operand.ofArgs args).label).asked.getLast? = some (editPrompt (Operand.ofArgs args).label
              (contentOf (u.store.node? (Path.resolve (Operand.ofArgs args).label u.cwd))), some text) ∧
            (vim args elevation).play u = (.ok ("File '" ++ (Operand.ofArgs args).label ++ "' saved."),
              (begun u w (Operand.ofArgs args).label).perform
                (.set (Key.node (Path.resolve (Operand.ofArgs args).label u.cwd)) (.text text)))) := by
  generalize played : (vim args elevation).play u = r
  have unelevated : elevation.isNone = !elevation.isSome := by cases elevation <;> rfl
  unfold vim at played
  dsimp only at played
  rw [unelevated] at played
  split at played
  · exact .inl (played ▸ refused_now (.refl u) _)
  · rw [Program.play_bind_eq (play_locate _ u), Program.play_bind_eq (play_load _ u)] at played
    split at played
    · exact .inl (played ▸ refused_now (.refl u) _)
    · next notDirectory =>
      rcases belowFileIf_cases (u.store.node? (Path.resolve (Operand.ofArgs args).label u.cwd)).isNone
        (Operand.ofArgs args).label (Path.resolve (Operand.ofArgs args).label u.cwd) u with
        ⟨refusal, refused⟩ | ⟨free, passed⟩
      · rw [Program.play_bind_eq refused] at played
        exact .inl (played ▸ refused_now (.refl u) _)
      · rw [Program.play_bind_eq passed] at played
        dsimp only at played
        rcases gate_cases (Operand.ofArgs args).label (Path.resolve (Operand.ofArgs args).label u.cwd)
          elevation.isSome u with ⟨refusal, v, asks, refused⟩ | ⟨v, asks, cleared, passed⟩
        · rw [Program.play_bind_eq refused] at played
          exact .inl (played ▸ refused_now asks _)
        · rw [Program.play_bind_eq passed] at played
          dsimp only at played
          rcases newPassword_cases (Operand.ofArgs args).label (Path.resolve (Operand.ofArgs args).label u.cwd)
            ((Operand.ofArgs args).protects && !elevation.isSome) v with
            ⟨refusal, w, more, refused⟩ | ⟨w, enters, passed⟩
          · rw [Program.play_bind_eq refused] at played
            exact .inl (played ▸ refused_now (asks.trans more) _)
          · rw [Program.play_bind_eq passed] at played
            dsimp only at played
            rw [Program.play_bind_eq (Program.play_write _ _ w), Program.play_bind_eq (Program.play_prompt _ _),
              ← editPrompt, ← begun] at played
            refine .inr ⟨v, w, ⟨asks, cleared, notDirectory, fun absent => free (by simp [absent]), enters⟩, ?_⟩
            rw [Solo.answer_perform] at played
            cases answered : w.answer with
            | none =>
              rw [answered] at played
              dsimp only at played
              rw [Program.play_pure] at played
              exact .inl played.symm
            | some text =>
              rw [answered] at played
              dsimp only at played
              rw [Program.play_bind_eq (Program.play_write _ _ _), Program.play_pure] at played
              refine .inr ⟨text, ?_, played.symm⟩
              rw [← answered, begun, Solo.ask, List.getLast?_concat, Solo.answer_perform]

/-- What a redirect has made sure of when it writes. -/
structure RedirectReady (u v : Solo) (label : String) (elevated : Bool) : Prop where
  asks : u.Asks v
  cleared : v.Cleared label (Path.resolve label u.cwd) elevated
  notDirectory : ∀ children, u.store.node? (Path.resolve label u.cwd) ≠ some (.directory children)
  free : u.store.node? (Path.resolve label u.cwd) = none →
    u.store.fileNearest (Path.ancestors (Path.resolve label u.cwd)) = false

/-- A redirect refuses, or writes its text to the target. -/
theorem redirect_cases (label text : String) (elevation : Option Elevation) (u : Solo) :
    Refused u ((redirect label text elevation).play u) ∨
      ∃ v, RedirectReady u v label elevation.isSome ∧
        (redirect label text elevation).play u =
          (.ok "", v.perform (.set (Key.node (Path.resolve label u.cwd)) (.text text))) := by
  generalize played : (redirect label text elevation).play u = r
  unfold redirect at played
  rw [Program.play_bind_eq (play_locate _ u)] at played
  split at played
  · exact .inl (played ▸ refused_now (.refl u) _)
  · rw [Program.play_bind_eq (play_load _ u)] at played
    split at played
    · exact .inl (played ▸ refused_now (.refl u) _)
    · next notDirectory =>
      rcases belowFileIf_cases (u.store.node? (Path.resolve label u.cwd)).isNone label (Path.resolve label u.cwd) u with
        ⟨refusal, refused⟩ | ⟨free, passed⟩
      · rw [Program.play_bind_eq refused] at played
        exact .inl (played ▸ refused_now (.refl u) _)
      · rw [Program.play_bind_eq passed] at played
        dsimp only at played
        rcases gate_cases label (Path.resolve label u.cwd) elevation.isSome u with
          ⟨refusal, v, asks, refused⟩ | ⟨v, asks, cleared, passed⟩
        · rw [Program.play_bind_eq refused] at played
          exact .inl (played ▸ refused_now asks _)
        · rw [Program.play_bind_eq passed] at played
          refine .inr ⟨v, ⟨asks, cleared, notDirectory, fun absent => free (by simp [absent])⟩, played.symm⟩

end Verb

end TreeShell
