import Mathlib.Data.List.Forall2
import TreeShell.Program

/-! # Programs that do the same under other labels

Users name a path in many ways, each from a working directory of its own. Two programs, each in its working directory,
paraphrase each other if they make the same calls, log the same events and enter the same directories, and what they
show differs at most in how some labels are spelled. Sequences of such programs are such programs (`Paraphrase.bind`),
and with the same answers they have the same dialogue but for the spelling, and the same effects (`Paraphrase.converse`).
-/

namespace TreeShell

/-- Whether a text is another one with some of the labels in it spelled differently. -/
inductive Text.Respelled (spellings : List (String × String)) : String → String → Prop
  | same (s : String) : Respelled spellings s s
  | label {label other : String} (listed : (label, other) ∈ spellings) : Respelled spellings label other
  | append {s s' t t' : String} (front : Respelled spellings s s') (back : Respelled spellings t t') :
    Respelled spellings (s ++ t) (s' ++ t')

/-- Whether a prompt is another one but for the spelling of labels. -/
structure Prompt.Respelled (spellings : List (String × String)) (p p' : Prompt) : Prop where
  label : Text.Respelled spellings p.label p'.label
  kind : p.kind = p'.kind
  initial : p.initial = p'.initial

/-- Whether two dialogues, each from a working directory of its own, show prompts that are the same but for the spelling of
labels, fail in the same way or come to results that agree, and have the same effects. -/
structure Dialogue.Paraphrases {α β : Type} (spellings : List (String × String)) (agree : α → β → Prop) (c c' : String)
    (d : Dialogue α) (d' : Dialogue β) : Prop where
  prompts : List.Forall₂ (Prompt.Respelled spellings) d.prompts d'.prompts
  result : (∃ error, d.result = .error error ∧ d'.result = .error error) ∨
    ∃ a b, d.result = .ok a ∧ d'.result = .ok b ∧ agree a b
  world : d.machine.world = d'.machine.world
  /-- Both have entered one directory, or both are where they were. -/
  cwd : d.machine.cwd = d'.machine.cwd ∨ (d.machine.cwd = c ∧ d'.machine.cwd = c')

namespace Program

/-- Whether two programs, each in a working directory of its own, do the same but for the spelling of labels, to results
that agree. -/
inductive Paraphrase (spellings : List (String × String)) {α β : Type} (agree : α → β → Prop) :
    String → String → Program α → Program β → Prop
  | done {c c' a b} (result : agree a b) : Paraphrase spellings agree c c' (.done a) (.done b)
  | call {c c' request k k'} (next : ∀ v, Paraphrase spellings agree c c' (k v) (k' v)) :
    Paraphrase spellings agree c c' (.call request k) (.call request k')
  | ask {c c' prompt prompt' k k'} (shown : Prompt.Respelled spellings prompt prompt')
    (next : ∀ answer, Paraphrase spellings agree c c' (k answer) (k' answer)) :
    Paraphrase spellings agree c c' (.ask prompt k) (.ask prompt' k')
  | log {c c' event p q} (next : Paraphrase spellings agree c c' p q) :
    Paraphrase spellings agree c c' (.log event p) (.log event q)
  | cwd {c c' k k'} (next : Paraphrase spellings agree c c' (k c) (k' c')) :
    Paraphrase spellings agree c c' (.cwd k) (.cwd k')
  | enter {c c' path p q} (next : Paraphrase spellings agree path path p q) :
    Paraphrase spellings agree c c' (.enter path p) (.enter path q)

namespace Paraphrase

variable {α β γ δ : Type} {spellings : List (String × String)} {agree : α → β → Prop} {agree' : γ → δ → Prop}
  {c c' : String} {p : Program α} {q : Program β}

/-- A sequence paraphrases another one if its parts do, the later ones wherever the first have come to. -/
theorem bind {f : α → Program γ} {g : β → Program δ} (first : Paraphrase spellings agree c c' p q)
    (next : ∀ c c' a b, agree a b → Paraphrase spellings agree' c c' (f a) (g b)) :
    Paraphrase spellings agree' c c' (p >>= f) (q >>= g) := by
  induction first with
  | done result => exact next _ _ _ _ result
  | call _ ih => exact .call ih
  | ask shown _ ih => exact .ask shown ih
  | log _ ih => exact .log ih
  | cwd _ ih => exact .cwd ih
  | enter _ ih => exact .enter ih

theorem pure {a : α} {b : β} (result : agree a b) :
    Paraphrase spellings agree c c' (Pure.pure a : Program α) (Pure.pure b : Program β) :=
  .done result

/-- A choice that is made alike. -/
theorem ite {P P' : Prop} [Decidable P] [Decidable P'] {p' : Program α} {q' : Program β} (same : P ↔ P')
    (yes : P → Paraphrase spellings agree c c' p q) (no : ¬P → Paraphrase spellings agree c c' p' q') :
    Paraphrase spellings agree c c' (if P then p else p') (if P' then q else q') := by
  by_cases holds : P
  · rw [if_pos holds, if_pos (same.mp holds)]
    exact yes holds
  · rw [if_neg holds, if_neg (mt same.mpr holds)]
    exact no holds

/-- A program that makes one call and gives what it makes of the answer. -/
theorem single (request : StoreCall) (f : Value → α) :
    Paraphrase spellings (· = ·) c c' (.call request fun v => .done (f v)) (.call request fun v => .done (f v)) :=
  .call fun _ => .done rfl

/-- With the same answers, programs that paraphrase each other have dialogues that do. -/
theorem converse (first : Paraphrase spellings agree c c' p q) (answers : List Answer) (w : World) :
    Dialogue.Paraphrases spellings agree c c' (p.converse answers ⟨w, c⟩) (q.converse answers ⟨w, c'⟩) := by
  induction first generalizing answers w with
  | done result => exact ⟨.nil, .inr ⟨_, _, rfl, rfl, result⟩, rfl, .inr ⟨rfl, rfl⟩⟩
  | @call c c' request k k' _ ih =>
    rw [Program.converse, Program.converse]
    rcases w.backend.call request with ⟨error | v, backend⟩
    · exact ⟨.nil, .inl ⟨error, rfl, rfl⟩, rfl, .inr ⟨rfl, rfl⟩⟩
    · exact ih v answers { w with backend := backend }
  | ask shown _ ih =>
    obtain ⟨prompts, result, world, cwd⟩ := ih answers.head?.join answers.tail w
    exact ⟨.cons shown prompts, result, world, cwd⟩
  | @log c c' event p q _ ih => exact ih answers (w.record event)
  | cwd _ ih => exact ih answers w
  | @enter c c' path p q _ ih =>
    -- once both have entered the same directory, they stay together
    obtain ⟨prompts, result, world, cwd⟩ := ih answers w
    exact ⟨prompts, result, world, .inl (cwd.elim id fun both => both.1.trans both.2.symm)⟩

end Paraphrase

end Program

end TreeShell
