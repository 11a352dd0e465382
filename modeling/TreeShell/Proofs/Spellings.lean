import TreeShell.Proofs.Path.Composition
import TreeShell.Proofs.Program.Paraphrase
import TreeShell.Proofs.Verb.Plans

/-! # One normal form for all spellings

A user may write a path in many ways, and the working directory that the store remembers may be written in many ways too.
All of them resolve to one normal form, in one step or in several. A verb goes by the normal form alone: two calls whose
operands resolve to the same paths meet the same checks of metadata and passwords, with the same outcome and the same effect,
and what they show differs at most in the labels (`Path.resolve_normalizes`).
-/

namespace TreeShell

open Path (isResolved_resolve)
open Program (Paraphrase)
open Verb

/-- Whether two labels are spellings of one path, each from a working directory of its own. An empty label, which stands for
no operand, is a spelling of empty labels only. -/
structure Path.Synonyms (c c' label other : String) : Prop where
  same : Path.resolve label c = Path.resolve other c'
  empty : label = "" ↔ other = ""

/-- Whether a refusal has the cause of another one, and its wording but for the spelling of labels. -/
structure Refusal.Respelled (spellings : List (String × String)) (r r' : Refusal) : Prop where
  cause : r.ctorIdx = r'.ctorIdx
  text : Text.Respelled spellings r.text r'.text

/-- Whether two verbs both reply or both refuse, in the same words but for the spelling of labels. -/
inductive Verb.Respelled (spellings : List (String × String)) : Result → Result → Prop
  | ok {s s' : String} (reply : Text.Respelled spellings s s') : Respelled spellings (.ok s) (.ok s')
  | error {r r' : Refusal} (refusal : r.Respelled spellings r') : Respelled spellings (.error r) (.error r')

/-- Whether two calls are of the same verb with the same options, and their labels spell the same paths, each from a working
directory of its own. The labels are listed in pairs. -/
inductive VerbCall.Synonyms (c c' : String) : VerbCall → VerbCall → List (String × String) → Prop
  | ls {label other} (same : Path.Synonyms c c' label other) : Synonyms c c' (.ls label) (.ls other) [(label, other)]
  | file {label other} (same : Path.Synonyms c c' label other) : Synonyms c c' (.file label) (.file other) [(label, other)]
  | cd {label other} (same : Path.Synonyms c c' label other) : Synonyms c c' (.cd label) (.cd other) [(label, other)]
  | cat {label other} (same : Path.Synonyms c c' label other) : Synonyms c c' (.cat label) (.cat other) [(label, other)]
  | cp {source target source' target'} (sources : Path.Synonyms c c' source source')
    (targets : Path.Synonyms c c' target target') :
    Synonyms c c' (.cp source target) (.cp source' target') [(source, source'), (target, target')]
  | mv {source target source' target'} (sources : Path.Synonyms c c' source source')
    (targets : Path.Synonyms c c' target target') :
    Synonyms c c' (.mv source target) (.mv source' target') [(source, source'), (target, target')]
  | mkdir {args args'} (protects : (Operand.ofArgs args).protects = (Operand.ofArgs args').protects)
    (same : Path.Synonyms c c' (Operand.ofArgs args).label (Operand.ofArgs args').label) :
    Synonyms c c' (.mkdir args) (.mkdir args') [((Operand.ofArgs args).label, (Operand.ofArgs args').label)]
  | rm {args args'} (recursive : args.contains "-r" = args'.contains "-r")
    (same : Path.Synonyms c c' (removalLabel args) (removalLabel args')) :
    Synonyms c c' (.rm args) (.rm args') [(removalLabel args, removalLabel args')]
  | vim {args args'} (protects : (Operand.ofArgs args).protects = (Operand.ofArgs args').protects)
    (same : Path.Synonyms c c' (Operand.ofArgs args).label (Operand.ofArgs args').label) :
    Synonyms c c' (.vim args) (.vim args') [((Operand.ofArgs args).label, (Operand.ofArgs args').label)]
  | redirect {label other text} (same : Path.Synonyms c c' label other) :
    Synonyms c c' (.redirect label text) (.redirect other text) [(label, other)]

/-- The normal form of a label is a spelling of it from anywhere. -/
theorem Path.Synonyms.normal {label : String} (filled : label ≠ "") (c c' : String) :
    Path.Synonyms c c' label (Path.resolve label c) where
  same := ((isResolved_resolve label c).resolve_eq c').symm
  empty := by
    refine ⟨fun empty => absurd empty filled, fun empty => ?_⟩
    have absolute := (isResolved_resolve label c).absolute
    rw [empty] at absolute
    exact absurd absolute (by decide)

variable {spellings : List (String × String)} {c c' label other : String} {elevation : Option Elevation}

/-- A label between two texts. -/
theorem Text.Respelled.around (listed : (label, other) ∈ spellings) (before after : String) :
    Text.Respelled spellings (before ++ label ++ after) (before ++ other ++ after) :=
  .append (.append (.same _) (.label listed)) (.same _)

/-- What stands for a label that is missing is the same under another spelling. -/
theorem Path.Synonyms.shown (synonyms : Path.Synonyms c c' label other) (listed : (label, other) ∈ spellings)
    (default : String) :
    Text.Respelled spellings (if label = "" then default else label) (if other = "" then default else other) := by
  by_cases empty : label = ""
  · rw [if_pos empty, if_pos (synonyms.empty.mp empty)]
    exact .same _
  · rw [if_neg empty, if_neg (mt synonyms.empty.mpr empty)]
    exact .label listed

theorem Refusal.Respelled.refl (r : Refusal) : r.Respelled spellings r :=
  ⟨rfl, .same _⟩

namespace Verb

/-! ## The checks -/

theorem fetch_paraphrase (key : String) :
    Paraphrase spellings (· = ·) c c' (Program.fetch key) (Program.fetch key) :=
  .single _ _

theorem load_paraphrase (path : String) : Paraphrase spellings (· = ·) c c' (load path) (load path) := by
  rw [load_eq]
  exact .single _ _

theorem nearestIsFile_paraphrase (paths : List String) :
    Paraphrase spellings (· = ·) c c' (nearestIsFile paths) (nearestIsFile paths) := by
  induction paths generalizing c c' with
  | nil => exact .pure rfl
  | cons path rest ih =>
    refine (load_paraphrase path).bind ?_
    rintro c c' node - rfl
    cases node with
    | none => exact ih
    | some node => cases node <;> exact .pure rfl

theorem belowFile_paraphrase (listed : (label, other) ∈ spellings) (path : String) :
    Paraphrase spellings (Option.Rel (Refusal.Respelled spellings)) c c' (belowFile label path) (belowFile other path) := by
  refine (nearestIsFile_paraphrase _).bind ?_
  rintro c c' found - rfl
  exact .ite Iff.rfl (fun _ => .pure (.some ⟨rfl, .append (.same _) (.label listed)⟩)) fun _ => .pure .none

theorem belowFileIf_paraphrase (absent : Bool) (listed : (label, other) ∈ spellings) (path : String) :
    Paraphrase spellings (Option.Rel (Refusal.Respelled spellings)) c c'
      (if absent then belowFile label path else pure none) (if absent then belowFile other path else pure none) :=
  .ite Iff.rfl (fun _ => belowFile_paraphrase listed path) fun _ => .pure .none

/-- The gate of a path decides alike under all labels. -/
theorem gate_paraphrase (shown : Text.Respelled spellings label other) (path : String) (elevated : Bool) :
    Paraphrase spellings (Option.Rel (Refusal.Respelled spellings)) c c' (gate label path elevated)
      (gate other path elevated) := by
  cases elevated with
  | true => exact .pure .none
  | false =>
    rw [gate_eq, gate_eq]
    refine .ite Iff.rfl (fun _ => .done (.some (.refl _))) fun _ => .call fun v => ?_
    refine .ite Iff.rfl (fun _ => ?_) fun _ => .done .none
    refine .ask ⟨.append (.append (.same _) shown) (.same _), rfl, rfl⟩ fun attempt => .call fun v => .done ?_
    split
    · exact .none
    · exact .some (.refl _)

theorem newPasswordIf_paraphrase (protects : Bool) (listed : (label, other) ∈ spellings) (path : String) :
    Paraphrase spellings (Option.Rel (Refusal.Respelled spellings)) c c'
      (if protects then newPassword label path else pure none) (if protects then newPassword other path else pure none) := by
  refine .ite Iff.rfl (fun _ => ?_) fun _ => .pure .none
  rw [newPassword_eq, newPassword_eq]
  refine .ask ⟨.around listed _ _, rfl, rfl⟩ fun first => ?_
  cases first with
  | none => exact .done (.some (.refl _))
  | some first =>
    refine .ite Iff.rfl (fun _ => .done (.some (.refl _))) fun _ => .ask ⟨.same _, rfl, rfl⟩ fun second => ?_
    exact .ite Iff.rfl (fun _ => .call fun _ => .done .none) fun _ => .done (.some (.refl _))

theorem removeNode_paraphrase (path : String) (node : Node) (recursive : Bool) (reason : Option ElevationReason) :
    Paraphrase spellings (· = ·) c c' (removeNode path node recursive reason) (removeNode path node recursive reason) := by
  refine .call fun _ => ?_
  have removed : Paraphrase spellings (· = ·) c c' (Vault.removeMany (removedPaths path node recursive))
      (Vault.removeMany (removedPaths path node recursive)) :=
    .ite Iff.rfl (fun _ => .pure rfl) fun _ => .single _ _
  exact removed.bind fun _ _ _ _ _ => .log (.done rfl)

/-! ## Parts of verbs -/

theorem locate_paraphrase {f f' : String → Program Result} (synonyms : Path.Synonyms c c' label other)
    (next : ∀ path, Paraphrase spellings (Respelled spellings) c c' (f path) (f' path)) :
    Paraphrase spellings (Respelled spellings) c c' (locate label >>= f) (locate other >>= f') := by
  refine .cwd ?_
  change Paraphrase spellings _ c c' (f (Path.resolve label c)) (f' (Path.resolve other c'))
  rw [← synonyms.same]
  exact next _

/-- A check that refuses alike, and what comes after it. -/
theorem past_paraphrase {p p' : Program (Option Refusal)} {f f' : Option Refusal → Program Result}
    (first : Paraphrase spellings (Option.Rel (Refusal.Respelled spellings)) c c' p p')
    (refuses : ∀ r, f (some r) = pure (.error r)) (refuses' : ∀ r, f' (some r) = pure (.error r))
    (next : ∀ c c', Paraphrase spellings (Respelled spellings) c c' (f none) (f' none)) :
    Paraphrase spellings (Respelled spellings) c c' (p >>= f) (p' >>= f') := by
  refine first.bind fun c c' r r' checked => ?_
  cases checked with
  | none => exact next c c'
  | some refusal =>
    rw [refuses, refuses']
    exact .pure (.error refusal)

/-- A verb refuses a missing operand alike. -/
theorem missing_paraphrase {P P' : Prop} [Decidable P] [Decidable P'] {p p' : Program Result} (same : P ↔ P')
    (next : Paraphrase spellings (Respelled spellings) c c' p p') :
    Paraphrase spellings (Respelled spellings) c c' (if P then pure (.error .missingOperand) else p)
      (if P' then pure (.error .missingOperand) else p') :=
  .ite same (fun _ => .pure (.error (.refl _))) fun _ => next

/-! ## The verbs -/

theorem ls_paraphrase (synonyms : Path.Synonyms c c' label other) (listed : (label, other) ∈ spellings) :
    Paraphrase spellings (Respelled spellings) c c' (ls label elevation) (ls other elevation) := by
  refine locate_paraphrase synonyms fun path => (load_paraphrase path).bind ?_
  rintro c c' node - rfl
  cases node with
  | none => exact .pure (.error ⟨rfl, .append (.same _) (.label listed)⟩)
  | some node =>
    refine past_paraphrase (gate_paraphrase (synonyms.shown listed path) path _) (fun _ => rfl) (fun _ => rfl) fun _ _ => ?_
    cases node with
    | file content => exact .pure (.ok (.append (.same _) (synonyms.shown listed _)))
    | directory children => exact .pure (.ok (.same _))

theorem file_paraphrase (synonyms : Path.Synonyms c c' label other) (listed : (label, other) ∈ spellings) :
    Paraphrase spellings (Respelled spellings) c c' (file label elevation) (file other elevation) := by
  refine missing_paraphrase synonyms.empty (locate_paraphrase synonyms fun path => (load_paraphrase path).bind ?_)
  rintro c c' node - rfl
  cases node with
  | none => exact .pure (.error ⟨rfl, .append (.same _) (.label listed)⟩)
  | some node =>
    refine past_paraphrase (gate_paraphrase (.label listed) path _) (fun _ => rfl) (fun _ => rfl) fun _ _ => ?_
    cases node <;> exact .pure (.ok (.append (.same _) (.around listed _ _)))

theorem cd_paraphrase (identity : String) (synonyms : Path.Synonyms c c' label other)
    (listed : (label, other) ∈ spellings) :
    Paraphrase spellings (Respelled spellings) c c' (cd identity label elevation) (cd identity other elevation) := by
  refine missing_paraphrase synonyms.empty (locate_paraphrase synonyms fun path => (load_paraphrase path).bind ?_)
  rintro c c' node - rfl
  cases node with
  | none => exact .pure (.error ⟨rfl, .append (.same _) (.label listed)⟩)
  | some node =>
    cases node with
    | file content => exact .pure (.error ⟨rfl, .append (.same _) (.label listed)⟩)
    | directory children =>
      refine past_paraphrase (gate_paraphrase (.label listed) path _) (fun _ => rfl) (fun _ => rfl) fun _ _ => ?_
      exact .enter (.call fun _ => .done (.ok (.around listed _ _)))

theorem cat_paraphrase (synonyms : Path.Synonyms c c' label other) (listed : (label, other) ∈ spellings) :
    Paraphrase spellings (Respelled spellings) c c' (cat label elevation) (cat other elevation) := by
  refine missing_paraphrase synonyms.empty (locate_paraphrase synonyms fun path => (load_paraphrase path).bind ?_)
  rintro c c' node - rfl
  cases node with
  | none => exact .pure (.error ⟨rfl, .append (.same _) (.label listed)⟩)
  | some node =>
    refine past_paraphrase (gate_paraphrase (.label listed) path _) (fun _ => rfl) (fun _ => rfl) fun _ _ => ?_
    cases node with
    | file content => exact .pure (.ok (.same _))
    | directory children => exact .pure (.error ⟨rfl, .append (.same _) (.label listed)⟩)

section

variable {source source' target target' : String}

theorem cp_paraphrase (sources : Path.Synonyms c c' source source') (targets : Path.Synonyms c c' target target')
    (sourceListed : (source, source') ∈ spellings) (targetListed : (target, target') ∈ spellings) :
    Paraphrase spellings (Respelled spellings) c c' (cp source target elevation) (cp source' target' elevation) := by
  refine missing_paraphrase (or_congr sources.empty targets.empty) ?_
  refine locate_paraphrase sources fun sourcePath => locate_paraphrase targets fun targetPath => ?_
  refine .ite Iff.rfl (fun _ => .pure (.error (.refl _))) fun _ => (fetch_paraphrase _).bind ?_
  rintro c c' value - rfl
  refine .ite Iff.rfl (fun _ => .pure (.error ⟨rfl, .append (.same _) (.label sourceListed)⟩)) fun _ => ?_
  refine past_paraphrase (gate_paraphrase (.label sourceListed) _ _) (fun _ => rfl) (fun _ => rfl) fun _ _ => ?_
  refine .ite Iff.rfl (fun _ => .pure (.error (.refl _))) fun _ => ?_
  refine .ite Iff.rfl (fun _ => .pure (.error (.refl _))) fun _ => ?_
  refine past_paraphrase (belowFile_paraphrase targetListed _) (fun _ => rfl) (fun _ => rfl) fun _ _ => ?_
  refine past_paraphrase (gate_paraphrase (.label targetListed) _ _) (fun _ => rfl) (fun _ => rfl) fun _ _ => ?_
  refine .call fun _ => .pure (.ok (.append (.append (.append (.append ?_ ?_) ?_) ?_) ?_))
  · exact .same _
  · exact .label sourceListed
  · exact .same _
  · exact .label targetListed
  · exact .same _

theorem mv_paraphrase (sources : Path.Synonyms c c' source source') (targets : Path.Synonyms c c' target target')
    (sourceListed : (source, source') ∈ spellings) (targetListed : (target, target') ∈ spellings) :
    Paraphrase spellings (Respelled spellings) c c' (mv source target elevation) (mv source' target' elevation) := by
  refine missing_paraphrase (or_congr sources.empty targets.empty) ?_
  refine locate_paraphrase sources fun sourcePath => locate_paraphrase targets fun targetPath => ?_
  refine .ite Iff.rfl (fun _ => .pure (.error (.refl _))) fun _ => (fetch_paraphrase _).bind ?_
  rintro c c' value - rfl
  cases Node.ofValue? value with
  | none => exact .pure (.error ⟨rfl, .append (.same _) (.label sourceListed)⟩)
  | some node =>
    refine .ite Iff.rfl (fun _ => .pure (.error (.refl _))) fun _ => ?_
    refine past_paraphrase (gate_paraphrase (.label sourceListed) _ _) (fun _ => rfl) (fun _ => rfl) fun _ _ => ?_
    refine (load_paraphrase targetPath).bind ?_
    rintro c c' there - rfl
    refine .ite Iff.rfl (fun _ => .pure (.error ⟨rfl, .around sourceListed _ _⟩)) fun _ => ?_
    refine .ite Iff.rfl (fun _ => .pure (.error (.refl _))) fun _ => ?_
    refine past_paraphrase (belowFile_paraphrase targetListed _) (fun _ => rfl) (fun _ => rfl) fun _ _ => ?_
    refine .call fun _ => (removeNode_paraphrase _ _ _ _).bind fun _ _ _ _ _ => ?_
    exact .pure (.ok (.append (.append (.around sourceListed _ _) (.same _)) (.same _)))

end

section

variable {args args' : List String}

theorem mkdir_paraphrase (protects : (Operand.ofArgs args).protects = (Operand.ofArgs args').protects)
    (synonyms : Path.Synonyms c c' (Operand.ofArgs args).label (Operand.ofArgs args').label)
    (listed : ((Operand.ofArgs args).label, (Operand.ofArgs args').label) ∈ spellings) :
    Paraphrase spellings (Respelled spellings) c c' (mkdir args elevation) (mkdir args' elevation) := by
  refine missing_paraphrase synonyms.empty (locate_paraphrase synonyms fun path => ?_)
  refine .ite Iff.rfl (fun _ => .pure (.error ⟨rfl, .append (.same _) (.label listed)⟩)) fun _ => ?_
  refine .ite Iff.rfl (fun _ => .pure (.error (.refl _))) fun _ => (load_paraphrase _).bind ?_
  rintro c c' node - rfl
  cases node with
  | none => exact .pure (.error ⟨rfl, .append (.same _) (.label listed)⟩)
  | some node =>
    cases node with
    | file content => exact .pure (.error ⟨rfl, .append (.same _) (.label listed)⟩)
    | directory siblings =>
      refine .ite Iff.rfl (fun _ => .pure (.error ⟨rfl, .append (.same _) (.label listed)⟩)) fun _ => ?_
      rw [protects]
      refine past_paraphrase (newPasswordIf_paraphrase _ listed _) (fun _ => rfl) (fun _ => rfl) fun _ _ => ?_
      exact .call fun _ => .pure (.ok (.append (.around listed _ _) (.same _)))

theorem rm_paraphrase (recursive : args.contains "-r" = args'.contains "-r")
    (synonyms : Path.Synonyms c c' (removalLabel args) (removalLabel args'))
    (listed : (removalLabel args, removalLabel args') ∈ spellings) :
    Paraphrase spellings (Respelled spellings) c c' (rm args elevation) (rm args' elevation) := by
  refine missing_paraphrase synonyms.empty (locate_paraphrase synonyms fun path => ?_)
  refine .ite Iff.rfl (fun _ => .pure (.error (.refl _))) fun _ => ?_
  refine .ite Iff.rfl (fun _ => .pure (.error (.refl _))) fun _ => (load_paraphrase _).bind ?_
  rintro c c' node - rfl
  cases node with
  | none => exact .pure (.error ⟨rfl, .append (.same _) (.label listed)⟩)
  | some node =>
    refine .ite Iff.rfl (fun _ => .pure (.error (.refl _))) fun _ => ?_
    refine past_paraphrase (gate_paraphrase (.label listed) _ _) (fun _ => rfl) (fun _ => rfl) fun _ _ => ?_
    rw [recursive]
    refine .ite Iff.rfl (fun _ => .pure (.error (.refl _))) fun _ => ?_
    exact (removeNode_paraphrase _ _ _ _).bind fun _ _ _ _ _ => .pure (.ok (.around listed _ _))

theorem vim_paraphrase (protects : (Operand.ofArgs args).protects = (Operand.ofArgs args').protects)
    (synonyms : Path.Synonyms c c' (Operand.ofArgs args).label (Operand.ofArgs args').label)
    (listed : ((Operand.ofArgs args).label, (Operand.ofArgs args').label) ∈ spellings) :
    Paraphrase spellings (Respelled spellings) c c' (vim args elevation) (vim args' elevation) := by
  refine missing_paraphrase synonyms.empty (locate_paraphrase synonyms fun path => (load_paraphrase path).bind ?_)
  rintro c c' node - rfl
  split
  · exact .pure (.error ⟨rfl, .append (.same _) (.label listed)⟩)
  · refine past_paraphrase (belowFileIf_paraphrase _ listed _) (fun _ => rfl) (fun _ => rfl) fun _ _ => ?_
    refine past_paraphrase (gate_paraphrase (.label listed) _ _) (fun _ => rfl) (fun _ => rfl) fun _ _ => ?_
    rw [protects]
    refine past_paraphrase (newPasswordIf_paraphrase _ listed _) (fun _ => rfl) (fun _ => rfl) fun _ _ => .call fun _ => ?_
    refine .ask ⟨.around listed _ _, rfl, rfl⟩ fun edited => ?_
    cases edited with
    | none => exact .pure (.ok (.same _))
    | some edited => exact .call fun _ => .pure (.ok (.around listed _ _))

end

theorem redirect_paraphrase (text : String) (synonyms : Path.Synonyms c c' label other)
    (listed : (label, other) ∈ spellings) :
    Paraphrase spellings (Respelled spellings) c c' (redirect label text elevation) (redirect other text elevation) := by
  refine locate_paraphrase synonyms fun path => ?_
  refine .ite Iff.rfl (fun _ => .pure (.error ⟨rfl, .append (.same _) (.label listed)⟩)) fun _ => (load_paraphrase path).bind ?_
  rintro c c' node - rfl
  split
  · exact .pure (.error ⟨rfl, .append (.same _) (.label listed)⟩)
  · refine past_paraphrase (belowFileIf_paraphrase _ listed _) (fun _ => rfl) (fun _ => rfl) fun _ _ => ?_
    refine past_paraphrase (gate_paraphrase (.label listed) _ _) (fun _ => rfl) (fun _ => rfl) fun _ _ => ?_
    exact .call fun _ => .pure (.ok (.same _))

end Verb

/-- Calls whose labels spell the same paths do the same. -/
theorem VerbCall.Synonyms.paraphrase {call call' : VerbCall} (synonyms : call.Synonyms c c' call' spellings)
    (identity : String) :
    Paraphrase spellings (Respelled spellings) c c' (call.program identity elevation) (call'.program identity elevation) := by
  cases synonyms with
  | ls same => exact ls_paraphrase same (List.mem_singleton_self _)
  | file same => exact file_paraphrase same (List.mem_singleton_self _)
  | cd same => exact cd_paraphrase identity same (List.mem_singleton_self _)
  | cat same => exact cat_paraphrase same (List.mem_singleton_self _)
  | cp sources targets =>
    exact cp_paraphrase sources targets (List.mem_cons_self ..) (List.mem_cons_of_mem _ (List.mem_singleton_self _))
  | mv sources targets =>
    exact mv_paraphrase sources targets (List.mem_cons_self ..) (List.mem_cons_of_mem _ (List.mem_singleton_self _))
  | mkdir protects same => exact mkdir_paraphrase protects same (List.mem_singleton_self _)
  | rm recursive same => exact rm_paraphrase recursive same (List.mem_singleton_self _)
  | vim protects same => exact vim_paraphrase protects same (List.mem_singleton_self _)
  | redirect same => exact redirect_paraphrase _ same (List.mem_singleton_self _)

namespace Path

/-- Every spelling of a path has one normal form. What a text resolves to is the root or a slash before each of some proper
names, resolving it again changes nothing, and it does not matter whether the working directory was resolved before; what one
text and then another one without a slash in front lead to is what both lead to with a slash between them. So a label and its
normal form name the same path from anywhere, and calls whose labels spell the same paths, from whatever working
directories, meet the same checks: with the same answers they are asked the same and come to the same end and the same
effect, but for the spelling of labels in what they show. -/
theorem resolve_normalizes (p q c d : String) :
    IsResolved (resolve p c) ∧ resolve (resolve p c) d = resolve p c ∧ resolve p (resolve c "/") = resolve p c ∧
    (p ≠ "" → Text.startsWith q "/" = false → resolve q (resolve p c) = resolve (p ++ "/" ++ q) c) ∧
    (p ≠ "" → Synonyms c d p (resolve p c)) ∧
    ∀ {call call' : VerbCall} {spellings : List (String × String)}, call.Synonyms c d call' spellings →
      ∀ identity elevation answers w, Dialogue.Paraphrases spellings (Verb.Respelled spellings) c d
        ((call.program identity elevation).converse answers ⟨w, c⟩)
        ((call'.program identity elevation).converse answers ⟨w, d⟩) :=
  ⟨isResolved_resolve p c, (isResolved_resolve p c).resolve_eq d, resolve_resolve_cwd p c,
    fun filled relative => resolve_resolve_slash filled relative c, fun filled => .normal filled c d,
    fun synonyms identity _ answers w => (synonyms.paraphrase identity).converse answers w⟩

/-- A way up and down again from a directory that is itself spelled oddly does not get around the password of a file. -/
theorem resolve_normalizes_at_gate :
    let s : Store := ⟨[("shellFS", .mapping [("d", .mapping [("f", .text "x")]),
      ("__PASSWORDS__", .mapping [(Key.passwordEntry "/d/f", .text "pw")])])]⟩
    let w : World := { backend := { store := s } }
    resolve "f" (resolve "../d" "/d/./") = resolve ("../d" ++ "/" ++ "f") "/d/./" ∧
      (((VerbCall.cat "../d//f").program "alice" none).converse [some "guess"] ⟨w, "/d/./"⟩).result =
        .ok (.error .wrongPassword) := by
  intro s w
  obtain ⟨-, -, -, composes, -, checked⟩ := resolve_normalizes "../d" "f" "/d/./" "/"
  refine ⟨composes (by decide) (by decide), ?_⟩
  have synonyms : Synonyms "/d/./" "/" "../d//f" "/d/f" := ⟨by decide +kernel, by decide⟩
  have refused : (((VerbCall.cat "/d/f").program "alice" none).converse [some "guess"] ⟨w, "/"⟩).result =
      .ok (.error .wrongPassword) := by decide +kernel
  rcases (checked (.cat synonyms) "alice" none [some "guess"] w).result with ⟨error, -, failed⟩ | ⟨r, r', ended, ended', same⟩
  · cases refused.symm.trans failed
  · obtain rfl : _ = r' := Except.ok.inj (refused.symm.trans ended')
    cases same with
    | @error refusal _ respelled =>
      have cause := respelled.cause
      rw [ended]
      cases refusal with
      | wrongPassword => rfl
      | _ => cases cause

end Path

end TreeShell
