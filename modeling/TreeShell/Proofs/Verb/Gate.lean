import TreeShell.Proofs.Program.InStep
import TreeShell.Proofs.Store.SameFiles
import TreeShell.Proofs.Verb.Passwords

/-! # Verbs behind the gate

A call that asks for passwords is followed alongside one that has none to ask for: without passwords on its
operands, or with elevation. Up to the gate both see the same files. At the gate the first refuses after a
wrong password, with nothing but prompts before; else it goes on, as the second does, and from there on the
two act in step (`VerbCall.conforms`).
-/

namespace TreeShell

open Path (IsResolved isResolved_resolve)
open Verb

/-! ## Operands -/

namespace VerbCall

/-- The path that a label names, with the label; an empty label is none. -/
def named (cwd label : String) : List (String × String) :=
  if label = "" then [] else [(label, Path.resolve label cwd)]

/-- The operands of a call with the labels that a prompt shows for them. -/
def operands (cwd : String) : VerbCall → List (String × String)
  | .ls label => [(if label = "" then Path.resolve label cwd else label, Path.resolve label cwd)]
  | .file label | .cd label | .cat label => named cwd label
  | .cp source target | .mv source target => named cwd source ++ named cwd target
  | .rm args => named cwd (removalLabel args)
  | .mkdir args | .vim args => named cwd (Operand.ofArgs args).label
  | .redirect label _ => [(label, Path.resolve label cwd)]

/-- Whether a call is one of a verb behind the gate that sets no password. -/
def IsGated : VerbCall → Prop
  | .mkdir _ => False
  | .vim args => (Operand.ofArgs args).protects = false
  | _ => True

instance : (call : VerbCall) → Decidable call.IsGated
  | .mkdir _ => .isFalse id
  | .vim args => inferInstanceAs (Decidable ((Operand.ofArgs args).protects = false))
  | .ls _ | .file _ | .cd _ | .cat _ | .cp _ _ | .mv _ _ | .rm _ | .redirect _ _ => .isTrue trivial

theorem mem_named {cwd label : String} (filled : label ≠ "") : (label, Path.resolve label cwd) ∈ named cwd label := by
  rw [named, if_neg filled]
  exact List.mem_singleton_self _

theorem isResolved_of_mem_operands {call : VerbCall} {cwd : String} {op : String × String}
    (member : op ∈ call.operands cwd) : IsResolved op.2 := by
  have each {label : String} (inside : op ∈ named cwd label) : IsResolved op.2 := by
    rw [named] at inside
    split at inside
    · exact absurd inside List.not_mem_nil
    · rw [List.mem_singleton.mp inside]
      exact isResolved_resolve ..
  cases call with
  | ls label | redirect label text =>
    rw [List.mem_singleton.mp member]
    exact isResolved_resolve ..
  | file label | cd label | cat label | rm args | mkdir args | vim args => exact each member
  | cp source target | mv source target => exact (List.mem_append.mp member).elim each each

end VerbCall

@[simp] theorem Prompt.asksPassword_passwordPrompt (label : String) : (passwordPrompt label).asksPassword = true := by
  have begins : Text.startsWith ("Password for '" ++ label ++ "':") "Password for '" = true := by
    rw [Text.startsWith_iff, String.toList_append, String.toList_append, List.append_assoc]
    exact List.prefix_append ..
  rw [asksPassword, passwordPrompt, begins]
  rfl

/-! ## Up to the gate -/

/-- Whether a session has only been asked for passwords of the given operands, and answered each right. -/
structure Solo.Unlocked (operands : List (String × String)) (u v : Solo) : Prop where
  asks : u.Asks v
  right : ∃ given, v.asked = u.asked ++ given ∧ ∀ q ∈ given, ∃ op ∈ operands, ∃ password,
    u.store.password? op.2 = some password ∧ q = (passwordPrompt op.1, some password)

/-- Whether a session has been asked for passwords of the given operands and answered the last one wrong. -/
structure Solo.Barred (operands : List (String × String)) (u v : Solo) : Prop where
  asks : u.Asks v
  wrong : ∃ w, u.Unlocked operands w ∧ ∃ op ∈ operands, ∃ password answer,
    u.store.password? op.2 = some password ∧ answer ≠ some password ∧
      v.asked = w.asked ++ [(passwordPrompt op.1, answer)]

namespace Solo.Unlocked

variable {operands : List (String × String)} {u v : Solo} {label path password : String}

theorem refl (operands : List (String × String)) (u : Solo) : u.Unlocked operands u :=
  ⟨.refl u, [], (List.append_nil _).symm, by simp⟩

theorem ask (unlocked : u.Unlocked operands v) (member : (label, path) ∈ operands)
    (found : u.store.password? path = some password) (right : v.answer = some password) :
    u.Unlocked operands (v.ask (passwordPrompt label)) := by
  obtain ⟨given, asked, each⟩ := unlocked.right
  refine ⟨unlocked.asks.trans (v.asks_ask _), given ++ [(passwordPrompt label, v.answer)], ?_, fun q inside => ?_⟩
  · rw [Solo.ask, asked, List.append_assoc]
  · rcases List.mem_append.mp inside with before | last
    · exact each q before
    · rw [List.mem_singleton.mp last, right]
      exact ⟨_, member, password, found, rfl⟩

theorem bar (unlocked : u.Unlocked operands v) (member : (label, path) ∈ operands)
    (found : u.store.password? path = some password) (wrong : v.answer ≠ some password) :
    u.Barred operands (v.ask (passwordPrompt label)) :=
  ⟨unlocked.asks.trans (v.asks_ask _), v, unlocked, _, member, password, v.answer, found, wrong, rfl⟩

end Solo.Unlocked

/-- What makes a second run, on another store and perhaps with elevation, free to pass where the first is
asked for passwords. -/
structure Passage (operands : List (String × String)) (s t : Store) (elevation : Option Elevation) : Prop where
  files : s.SameFiles t
  outside : ∀ op ∈ operands, Key.isMetadata op.2 = false
  passes : ∀ op ∈ operands, elevation.isSome = true ∨ t.password? op.2 = none

namespace Passage

variable {operands : List (String × String)} {s t : Store} {elevation : Option Elevation} {label path : String}

theorem outside_of_mem (passage : Passage operands s t elevation) (member : (label, path) ∈ operands) :
    Key.isMetadata path = false :=
  passage.outside _ member

/-- What both runs find at the path of an operand. -/
theorem node?_cases (passage : Passage operands s t elevation) (member : (label, path) ∈ operands)
    (resolved : IsResolved path) : Store.SameNode path (s.node? path) (t.node? path) :=
  passage.files.node?_cases resolved (passage.outside_of_mem member)

end Passage

/-- Whether a program conforms to another that runs on a store of its own: it ends at a wrong password, with
nothing but prompts before, or after right ones acts in step with the other. -/
def Conforms (operands : List (String × String)) (u : Solo) (t : Store) (p p' : Program Result) : Prop :=
  ∀ v, u.Unlocked operands v →
    (∃ w, u.Barred operands w ∧ p.play v = (.error .wrongPassword, w)) ∨
    ∃ w, u.Unlocked operands w ∧ ∀ w', w'.store = t → w'.cwd = u.cwd → w'.answers = w.answers →
      (p.play v).1 = (p'.play w').1 ∧ Solo.Abreast w w' (p.play v).2 (p'.play w').2

namespace Conforms

variable {α : Type} {operands : List (String × String)} {u : Solo} {t : Store} {p p' : Program Result}
  {label path : String} {elevation : Option Elevation}

theorem of_inStep (inStep : Program.InStep p p') : Conforms operands u t p p' := by
  intro v unlocked
  refine .inr ⟨v, unlocked, fun w' _ cwd answers => inStep (.start ?_ answers.symm)⟩
  rw [cwd, unlocked.asks.cwd]

theorem pure (r : Result) : Conforms operands u t (Pure.pure r) (Pure.pure r) :=
  of_inStep (.pure r)

/-- A part that only looks, and finds what it looks for in the store and the working directory. -/
theorem look {q q' : Program α} {f f' : α → Program Result} {a a' : α}
    (here : ∀ v, v.store = u.store → v.cwd = u.cwd → q.play v = (a, v))
    (there : ∀ v, v.store = t → v.cwd = u.cwd → q'.play v = (a', v)) (next : Conforms operands u t (f a) (f' a')) :
    Conforms operands u t (q >>= f) (q' >>= f') := by
  intro v unlocked
  rw [Program.play_bind_eq (here v unlocked.asks.store unlocked.asks.cwd)]
  rcases next v unlocked with barred | ⟨w, unlocked, follows⟩
  · exact .inl barred
  · refine .inr ⟨w, unlocked, fun w' store cwd answers => ?_⟩
    rw [Program.play_bind_eq (there w' store cwd)]
    exact follows w' store cwd answers

theorem locate {f f' : String → Program Result}
    (next : Conforms operands u t (f (Path.resolve label u.cwd)) (f' (Path.resolve label u.cwd))) :
    Conforms operands u t (Verb.locate label >>= f) (Verb.locate label >>= f') :=
  .look (fun v _ cwd => by rw [play_locate, cwd]) (fun v _ cwd => by rw [play_locate, cwd]) next

theorem fetch {key : String} {f f' : Value → Program Result}
    (next : Conforms operands u t (f (u.store.get key)) (f' (t.get key))) :
    Conforms operands u t (Program.fetch key >>= f) (Program.fetch key >>= f') :=
  .look (fun v store _ => by rw [Program.play_fetch, store]) (fun v store _ => by rw [Program.play_fetch, store]) next

theorem load {f f' : Option Node → Program Result}
    (next : Conforms operands u t (f (u.store.node? path)) (f' (t.node? path))) :
    Conforms operands u t (Verb.load path >>= f) (Verb.load path >>= f') :=
  .look (fun v store _ => by rw [play_load, store]) (fun v store _ => by rw [play_load, store]) next

/-- A look-up of an operand goes on from nodes that are the same but for passwords. -/
theorem loadOperand (passage : Passage operands u.store t elevation) (member : (label, path) ∈ operands)
    (resolved : IsResolved path) {f f' : Option Node → Program Result}
    (next : ∀ node other, Store.SameNode path node other → Conforms operands u t (f node) (f' other)) :
    Conforms operands u t (Verb.load path >>= f) (Verb.load path >>= f') :=
  .load (next _ _ (passage.node?_cases member resolved))

/-- The check for a file above a path comes out the same in both runs. -/
theorem belowFile (files : u.store.SameFiles t) (resolved : IsResolved path) (outside : Key.isMetadata path = false)
    {f f' : Option Refusal → Program Result} (refuses : ∀ r, Conforms operands u t (f (some r)) (f' (some r)))
    (next : Conforms operands u t (f none) (f' none)) :
    Conforms operands u t (Verb.belowFile label path >>= f) (Verb.belowFile label path >>= f') := by
  have checked (s : Store) (same : s.fileNearest (Path.ancestors path) = u.store.fileNearest (Path.ancestors path))
      (v : Solo) (store : v.store = s) : (Verb.belowFile label path).play v =
        (if u.store.fileNearest (Path.ancestors path) then some (.notDirectory label) else none, v) := by
    rw [Verb.belowFile, Program.play_bind_eq (play_nearestIsFile _ v), store, same]
    split <;> rfl
  refine .look (fun v store _ => checked _ rfl v store)
    (fun v store _ => checked t (files.fileNearest_eq resolved outside) v store) ?_
  split
  · exact refuses _
  · exact next

theorem belowFileIf (absent : Bool) (files : u.store.SameFiles t) (resolved : IsResolved path)
    (outside : Key.isMetadata path = false) {f f' : Option Refusal → Program Result}
    (refuses : ∀ r, Conforms operands u t (f (some r)) (f' (some r))) (next : Conforms operands u t (f none) (f' none)) :
    Conforms operands u t ((if absent then Verb.belowFile label path else Pure.pure none) >>= f)
      ((if absent then Verb.belowFile label path else Pure.pure none) >>= f') := by
  cases absent with
  | true => exact .belowFile files resolved outside refuses next
  | false => exact next

/-- The gate asks in the first run, if there is a password, and not in the second. -/
theorem gate (passage : Passage operands u.store t elevation) (member : (label, path) ∈ operands)
    {f f' : Option Refusal → Program Result} (refuses : ∀ r, f (some r) = Pure.pure (.error r))
    (next : Conforms operands u t (f none) (f' none)) :
    Conforms operands u t (Verb.gate label path (none : Option Elevation).isSome >>= f)
      (Verb.gate label path elevation.isSome >>= f') := by
  have outside := passage.outside_of_mem member
  have through (w' : Solo) (store : w'.store = t) : (Verb.gate label path elevation.isSome).play w' = (none, w') := by
    rcases passage.passes _ member with elevated | free
    · rw [elevated, play_gate_elevated]
    · cases elevation with
      | some e => exact play_gate_elevated label path w'
      | none =>
        rw [Option.isSome_none, play_gate, outside, store, free]
        rfl
  -- behind the gate both runs go on, from any session that has been let through
  have goes {v : Solo} (unlocked : u.Unlocked operands v) :
      (∃ w, u.Barred operands w ∧ (f none).play v = (.error .wrongPassword, w)) ∨
      ∃ w, u.Unlocked operands w ∧ ∀ w', w'.store = t → w'.cwd = u.cwd → w'.answers = w.answers →
        ((f none).play v).1 = ((Verb.gate label path elevation.isSome >>= f').play w').1 ∧
          Solo.Abreast w w' ((f none).play v).2 ((Verb.gate label path elevation.isSome >>= f').play w').2 := by
    rcases next v unlocked with barred | ⟨w, unlocked, follows⟩
    · exact .inl barred
    · refine .inr ⟨w, unlocked, fun w' store cwd answers => ?_⟩
      rw [Program.play_bind_eq (through w' store)]
      exact follows w' store cwd answers
  intro v unlocked
  have asked := play_gate label path v
  rw [outside, unlocked.asks.store] at asked
  rw [Option.isSome_none]
  cases found : u.store.password? path with
  | none =>
    rw [found] at asked
    rw [Program.play_bind_eq asked]
    exact goes unlocked
  | some password =>
    rw [found] at asked
    dsimp only at asked
    by_cases right : v.answer = some password
    · rw [if_pos right] at asked
      rw [Program.play_bind_eq asked]
      exact goes (unlocked.ask member found right)
    · rw [if_neg right] at asked
      rw [Program.play_bind_eq asked, refuses]
      exact .inl ⟨_, unlocked.bar member found right, rfl⟩

end Conforms

/-! ## The verbs -/

namespace Verb

variable {operands : List (String × String)} {u : Solo} {t : Store} {elevation : Option Elevation} {label : String}

theorem file_conforms (passage : Passage operands u.store t elevation)
    (member : label ≠ "" → (label, Path.resolve label u.cwd) ∈ operands) :
    Conforms operands u t (file label none) (file label elevation) := by
  unfold file
  by_cases empty : label = ""
  · rw [if_pos empty, if_pos empty]
    exact .pure _
  · rw [if_neg empty, if_neg empty]
    refine .locate (.loadOperand passage (member empty) (isResolved_resolve ..) fun node other nodes => ?_)
    cases nodes with
    | absent => exact .pure _
    | file content => exact .gate passage (member empty) (fun _ => rfl) (.pure _)
    | directory listing same => exact .gate passage (member empty) (fun _ => rfl) (.pure _)

theorem cat_conforms (passage : Passage operands u.store t elevation)
    (member : label ≠ "" → (label, Path.resolve label u.cwd) ∈ operands) :
    Conforms operands u t (cat label none) (cat label elevation) := by
  unfold cat
  by_cases empty : label = ""
  · rw [if_pos empty, if_pos empty]
    exact .pure _
  · rw [if_neg empty, if_neg empty]
    refine .locate (.loadOperand passage (member empty) (isResolved_resolve ..) fun node other nodes => ?_)
    cases nodes with
    | absent => exact .pure _
    | file content => exact .gate passage (member empty) (fun _ => rfl) (.pure _)
    | directory listing same => exact .gate passage (member empty) (fun _ => rfl) (.pure _)

theorem cd_conforms (identity : String) (passage : Passage operands u.store t elevation)
    (member : label ≠ "" → (label, Path.resolve label u.cwd) ∈ operands) :
    Conforms operands u t (cd identity label none) (cd identity label elevation) := by
  unfold cd
  by_cases empty : label = ""
  · rw [if_pos empty, if_pos empty]
    exact .pure _
  · rw [if_neg empty, if_neg empty]
    refine .locate (.loadOperand passage (member empty) (isResolved_resolve ..) fun node other nodes => ?_)
    cases nodes with
    | absent => exact .pure _
    | file content => exact .pure _
    | directory listing same =>
      refine .gate passage (member empty) (fun _ => rfl) (.of_inStep ?_)
      exact (Program.InStep.changeDirectory _ |>.bind fun _ => .write _ _).bind fun _ => .pure _

/-- The root shows its passwords to `ls` with elevation only, so there the runs would differ. -/
theorem ls_conforms (passage : Passage operands u.store t elevation)
    (member : (if label = "" then Path.resolve label u.cwd else label, Path.resolve label u.cwd) ∈ operands)
    (plain : elevation.isSome = true → Path.resolve label u.cwd ≠ "/") :
    Conforms operands u t (ls label none) (ls label elevation) := by
  unfold ls
  refine .locate (.loadOperand passage member (isResolved_resolve ..) fun node other nodes => ?_)
  cases nodes with
  | absent => exact .pure _
  | file content => exact .gate passage member (fun _ => rfl) (.pure _)
  | @directory children others listing same =>
    refine .gate passage member (fun _ => rfl) ?_
    have shown : directoryListing (Path.resolve label u.cwd) others elevation.isSome =
        directoryListing (Path.resolve label u.cwd) children false := by
      cases elevation with
      | none => exact listing
      | some e =>
        have notRoot := plain rfl
        rw [same notRoot]
        simp [directoryListing, visibleNames, notRoot]
    dsimp only [Option.isSome_none]
    rw [shown]
    exact .pure _

theorem redirect_conforms {text : String} (passage : Passage operands u.store t elevation)
    (member : (label, Path.resolve label u.cwd) ∈ operands) :
    Conforms operands u t (redirect label text none) (redirect label text elevation) := by
  have outside := passage.outside_of_mem member
  have resolved := isResolved_resolve label u.cwd
  unfold redirect
  refine .locate ?_
  simp only [outside, Bool.false_and, Bool.false_eq_true, if_false]
  refine .loadOperand passage member resolved fun node other nodes => ?_
  cases nodes with
  | absent | file content =>
    refine .belowFileIf _ passage.files resolved outside (fun _ => .pure _) ?_
    refine .gate passage member (fun _ => rfl) (.of_inStep ?_)
    exact (Program.InStep.write _ _).bind fun _ => .pure _
  | directory listing same => exact .pure _

theorem vim_conforms {args : List String} (passage : Passage operands u.store t elevation)
    (plain : (Operand.ofArgs args).protects = false)
    (member : (Operand.ofArgs args).label ≠ "" →
      ((Operand.ofArgs args).label, Path.resolve (Operand.ofArgs args).label u.cwd) ∈ operands) :
    Conforms operands u t (vim args none) (vim args elevation) := by
  unfold vim
  dsimp only
  generalize Operand.ofArgs args = operand at plain member
  by_cases empty : operand.label = ""
  · rw [if_pos empty, if_pos empty]
    exact .pure _
  · have resolved := isResolved_resolve operand.label u.cwd
    have outside := passage.outside_of_mem (member empty)
    rw [if_neg empty, if_neg empty]
    refine .locate (.loadOperand passage (member empty) resolved fun node other nodes => ?_)
    simp only [plain, Bool.false_and, Bool.false_eq_true, if_false]
    cases nodes with
    | absent | file content =>
      refine .belowFileIf _ passage.files resolved outside (fun _ => .pure _) ?_
      refine .gate passage (member empty) (fun _ => rfl) (.of_inStep ?_)
      refine (Program.InStep.write _ _).bind fun _ => (Program.InStep.prompt rfl).bind fun answer => ?_
      cases answer with
      | none => exact .pure _
      | some edited => exact (Program.InStep.write _ _).bind fun _ => .pure _
    | directory listing same => exact .pure _

/-- Removals act in step whatever their reasons. -/
theorem removeNode_inStep (path : String) (node : Node) (recursive : Bool) (reason reason' : Option ElevationReason) :
    Program.InStep (removeNode path node recursive reason) (removeNode path node recursive reason') :=
  (Program.InStep.delete _).bind fun _ => (Program.InStep.merge _ _).bind fun _ => .record _ _

theorem rm_conforms {args : List String} (passage : Passage operands u.store t elevation)
    (member : removalLabel args ≠ "" → (removalLabel args, Path.resolve (removalLabel args) u.cwd) ∈ operands)
    (movable : elevation.isSome = true → Path.name (Path.resolve (removalLabel args) u.cwd) ≠ placeholderName) :
    Conforms operands u t (rm args none) (rm args elevation) := by
  unfold rm
  dsimp only
  rw [← removalLabel]
  by_cases empty : removalLabel args = ""
  · rw [if_pos empty, if_pos empty]
    exact .pure _
  · have resolved := isResolved_resolve (removalLabel args) u.cwd
    have outside := passage.outside_of_mem (member empty)
    rw [if_neg empty, if_neg empty]
    refine .locate ?_
    by_cases root : Path.resolve (removalLabel args) u.cwd = "/"
    · rw [if_pos root, if_pos root]
      exact .pure _
    · simp only [root, outside, Bool.false_eq_true, if_false]
      refine .loadOperand passage (member empty) resolved fun node other nodes => ?_
      have same : other = node := by
        cases nodes with
        | absent | file content => rfl
        | directory listing same => rw [same root]
      subst same
      cases other with
      | none => exact .pure _
      | some node =>
        dsimp only
        by_cases placeholder : Path.name (Path.resolve (removalLabel args) u.cwd) = placeholderName
        · have unelevated : elevation = none := by
            cases elevation with
            | none => rfl
            | some e => exact absurd placeholder (movable rfl)
          subst unelevated
          rw [if_pos ⟨placeholder, rfl⟩]
          exact .pure _
        · have stays (e : Option Elevation) :
              ¬ (Path.name (Path.resolve (removalLabel args) u.cwd) = placeholderName ∧ e.isNone = true) :=
            fun both => placeholder both.1
          rw [if_neg (stays none), if_neg (stays elevation)]
          refine .gate passage (member empty) (fun _ => rfl) ?_
          dsimp only
          split
          · exact .pure _
          · exact .of_inStep ((removeNode_inStep ..).bind fun _ => .pure _)

theorem cp_conforms {source target : String} (passage : Passage operands u.store t elevation)
    (sourceMember : source ≠ "" → (source, Path.resolve source u.cwd) ∈ operands)
    (targetMember : target ≠ "" → (target, Path.resolve target u.cwd) ∈ operands) :
    Conforms operands u t (cp source target none) (cp source target elevation) := by
  unfold cp
  by_cases missing : source = "" ∨ target = ""
  · rw [if_pos missing, if_pos missing]
    exact .pure _
  · obtain ⟨sourceFilled, targetFilled⟩ := not_or.mp missing
    have sourceOperand := sourceMember sourceFilled
    have targetOperand := targetMember targetFilled
    have outside := passage.outside_of_mem targetOperand
    rw [if_neg missing, if_neg missing]
    refine .locate (.locate ?_)
    by_cases root : Path.resolve source u.cwd = "/"
    · rw [if_pos root, if_pos root]
      exact .pure _
    · rw [if_neg root, if_neg root]
      refine .fetch ?_
      rw [passage.files.node _ ⟨isResolved_resolve .., root, passage.outside_of_mem sourceOperand⟩]
      split
      · exact .pure _
      · refine .gate passage sourceOperand (fun _ => rfl) ?_
        simp only [outside, Bool.false_and, Bool.false_eq_true, if_false]
        split
        · exact .pure _
        · refine .belowFile passage.files (isResolved_resolve ..) outside (fun _ => .pure _) ?_
          refine .gate passage targetOperand (fun _ => rfl) (.of_inStep ?_)
          exact (Program.InStep.write _ _).bind fun _ => .pure _

theorem mv_conforms {source target : String} (passage : Passage operands u.store t elevation)
    (sourceMember : source ≠ "" → (source, Path.resolve source u.cwd) ∈ operands)
    (targetMember : target ≠ "" → (target, Path.resolve target u.cwd) ∈ operands)
    (arrives : Key.isMetadata (arrival u.store u.cwd source target) = false)
    (movable : elevation.isSome = true → Path.name (Path.resolve source u.cwd) ≠ placeholderName) :
    Conforms operands u t (mv source target none) (mv source target elevation) := by
  unfold mv
  by_cases missing : source = "" ∨ target = ""
  · rw [if_pos missing, if_pos missing]
    exact .pure _
  · obtain ⟨sourceFilled, targetFilled⟩ := not_or.mp missing
    have sourceOperand := sourceMember sourceFilled
    rw [if_neg missing, if_neg missing]
    refine .locate (.locate ?_)
    by_cases root : Path.resolve source u.cwd = "/"
    · rw [if_pos root, if_pos root]
      exact .pure _
    · rw [if_neg root, if_neg root]
      refine .fetch ?_
      rw [passage.files.node _ ⟨isResolved_resolve .., root, passage.outside_of_mem sourceOperand⟩]
      cases Node.ofValue? (u.store.get (Key.node (Path.resolve source u.cwd))) with
      | none => exact .pure _
      | some node =>
        dsimp only
        by_cases placeholder : Path.name (Path.resolve source u.cwd) = placeholderName
        · have unelevated : elevation = none := by
            cases elevation with
            | none => rfl
            | some e => exact absurd placeholder (movable rfl)
          subst unelevated
          rw [if_pos ⟨placeholder, rfl⟩]
          exact .pure _
        · rw [if_neg fun both => placeholder both.1, if_neg fun both => placeholder both.1]
          refine .gate passage sourceOperand (fun _ => rfl) (.load ?_)
          have same : destination (Path.resolve source u.cwd) (Path.resolve target u.cwd)
              (t.node? (Path.resolve target u.cwd)) = arrival u.store u.cwd source target := by
            have nodes := passage.node?_cases (targetMember targetFilled) (isResolved_resolve ..)
            rw [arrival]
            generalize u.store.node? (Path.resolve target u.cwd) = here at nodes
            generalize t.node? (Path.resolve target u.cwd) = there at nodes
            cases nodes with
            | absent | file content => rfl
            | directory listing same => rfl
          rw [← arrival, same]
          split
          · exact .pure _
          · simp only [arrives, Bool.false_and, Bool.false_eq_true, if_false]
            refine .belowFile passage.files (isResolved_arrival root u.store target).1 arrives (fun _ => .pure _) ?_
            exact .of_inStep ((Program.InStep.write _ _).bind fun _ => (removeNode_inStep ..).bind fun _ => .pure _)

end Verb

namespace VerbCall

/-- Whether elevation gives a call nothing but free passage: it does not remove or move a placeholder, nor
list the root. -/
def OnlyPasses (cwd : String) : VerbCall → Prop
  | .rm args => Path.name (Path.resolve (removalLabel args) cwd) ≠ placeholderName
  | .mv source _ => Path.name (Path.resolve source cwd) ≠ placeholderName
  | .ls label => Path.resolve label cwd ≠ "/"
  | _ => True

instance (cwd : String) : (call : VerbCall) → Decidable (call.OnlyPasses cwd)
  | .rm args => inferInstanceAs (Decidable (Path.name (Path.resolve (removalLabel args) cwd) ≠ placeholderName))
  | .mv source _ => inferInstanceAs (Decidable (Path.name (Path.resolve source cwd) ≠ placeholderName))
  | .ls label => inferInstanceAs (Decidable (Path.resolve label cwd ≠ "/"))
  | .file _ | .cd _ | .cat _ | .cp _ _ | .mkdir _ | .vim _ | .redirect _ _ => .isTrue trivial

/-- Every call behind the gate conforms to itself with free passage. -/
theorem conforms (call : VerbCall) (identity : String) {u : Solo} {t : Store} {elevation : Option Elevation}
    (gated : call.IsGated) (passage : Passage (call.operands u.cwd) u.store t elevation)
    (arrives : ∀ source target, call = .mv source target →
      Key.isMetadata (arrival u.store u.cwd source target) = false)
    (onlyPasses : elevation.isSome = true → call.OnlyPasses u.cwd) :
    Conforms (call.operands u.cwd) u t (call.program identity none) (call.program identity elevation) := by
  cases call with
  | ls label => exact ls_conforms passage (List.mem_singleton_self _) onlyPasses
  | file label => exact file_conforms passage mem_named
  | cat label => exact cat_conforms passage mem_named
  | cd label => exact cd_conforms identity passage mem_named
  | cp source target =>
    exact cp_conforms passage (fun filled => List.mem_append_left _ (mem_named filled))
      fun filled => List.mem_append_right _ (mem_named filled)
  | mv source target =>
    exact mv_conforms passage (fun filled => List.mem_append_left _ (mem_named filled))
      (fun filled => List.mem_append_right _ (mem_named filled)) (arrives source target rfl) onlyPasses
  | mkdir args => exact gated.elim
  | rm args => exact rm_conforms passage mem_named onlyPasses
  | vim args => exact vim_conforms passage gated mem_named
  | redirect label text => exact redirect_conforms passage (List.mem_singleton_self _)

end VerbCall

end TreeShell
