import TreeShell.Proofs.Chat.Steps
import TreeShell.Proofs.Shell.Talk

/-! # The talks of a chat

A step of a chat hands one request to the shell of its identity, or none. So a chat carries on one talk with each
identity, and a step goes into the talk of its own identity alone. `Chat.follow` keeps these talks beside the chat; they
are sound, and their shells are those of the chat (`Followed.Faithful.step`).
-/

namespace TreeShell.Chat

open Shell (Request)

/-- The request that a step hands to the shell of its identity, with the world that it meets, if it hands on any. -/
def request? (c : Chat) : Step → Option (World × Request)
  | .handle identity message password =>
    (c.admits identity message password).map fun r => (r.2.world, .exec (commandOf message) r.1)
  | .respond identity answer => if identity = "" then none else some (c.world, .resume answer)

/-- What is known of a step that hands a request to the shell of its identity. -/
structure Hands (c : Chat) (s : Step) (w : World) (request : Request) : Prop where
  filled : s.identity ≠ ""
  store : w.backend.store = c.world.backend.store
  response : (c.step s).1 = ((c.shellOf s.identity).request w request).response.map c.frame
  world : (c.step s).2.world = ((c.shellOf s.identity).request w request).world
  shells : (c.step s).2.shells =
    Assoc.insert ((c.shellOf s.identity).request w request).shell.identity ((c.shellOf s.identity).request w request).shell
      c.shells

variable {c : Chat} {s : Step} {w : World} {request : Request}

theorem hands_of_request? (found : c.request? s = some (w, request)) : c.Hands s w request := by
  cases s with
  | handle identity message password =>
    obtain ⟨⟨granted, c'⟩, admits, same⟩ := Option.map_eq_some_iff.mp found
    obtain ⟨rfl, rfl⟩ := Prod.mk.inj same
    have admitted := admitted_of_admits admits
    have stepped : c.step (.handle identity message password) = _ := admitted.handled
    have frames : c'.frame = c.frame := by
      funext r
      cases r <;> simp only [frame, admitted.same.hint]
    rw [delegate, admitted.same.shellOf, frames] at stepped
    refine ⟨admitted.named, admitted.same.store, ?_, ?_, ?_⟩
    all_goals rw [stepped]
    · rfl
    · rfl
    · rw [withShell, admitted.same.shells]
      rfl
  | respond identity answer =>
    rw [request?] at found
    split at found
    · cases found
    · next filled =>
      obtain ⟨rfl, rfl⟩ := Prod.mk.inj (Option.some.inj found)
      have stepped : c.step (.respond identity answer) = _ := if_neg filled
      refine ⟨filled, rfl, ?_, ?_, ?_⟩
      all_goals rw [stepped]
      all_goals rfl

/-- A step that hands no request on leaves the shells and the store alone. -/
theorem sameShells_of_request? (found : c.request? s = none) : c.SameShells (c.step s).2 := by
  cases s with
  | handle identity message password => exact handle_of_not_admitted (Option.map_eq_none_iff.mp found)
  | respond identity answer =>
    rw [request?] at found
    split at found
    · next blank =>
      have stepped : c.step (.respond identity answer) = _ := if_pos blank
      rw [stepped]
      exact .refl c
    · cases found

/-- A chat with the talk of every identity. -/
structure Followed where
  chat : Chat
  talks : String → Talk := fun identity => { shell := { identity := identity } }

namespace Followed

/-- A followed chat after a step. -/
def step (f : Followed) (s : Step) : Followed where
  chat := (f.chat.step s).2
  talks :=
    match f.chat.request? s with
    | none => f.talks
    | some (w, request) => Function.update f.talks s.identity ((f.talks s.identity).step w request)

/-- What the shell of its identity does in a step. -/
def acts (f : Followed) (s : Step) : List Act :=
  match f.chat.request? s with
  | none => []
  | some (w, request) => (f.talks s.identity).acts w request

end Followed

/-- A chat after some steps, followed from its start. -/
def follow (start : Chat) (steps : List Step) : Followed :=
  steps.foldl Followed.step { chat := start }

theorem follow_concat (start : Chat) (steps : List Step) (s : Step) :
    start.follow (steps ++ [s]) = (start.follow steps).step s := by
  rw [follow, List.foldl_append]
  rfl

/-- Following a chat changes nothing. -/
theorem chat_follow (start : Chat) (steps : List Step) : (start.follow steps).chat = start.after steps := by
  induction steps using List.reverseRecOn with
  | nil => rfl
  | append_singleton steps s ih => rw [follow_concat, after_concat, ← ih, Followed.step]

namespace Followed

/-- Whether the talks are those of the chat: each is sound, and with the shell of its identity, which is at the root until
it has read the working directory. -/
structure Faithful (f : Followed) : Prop where
  shell : ∀ identity, f.chat.shellOf identity = (f.talks identity).shell
  named : ∀ identity, (f.talks identity).shell.identity = identity
  sound : ∀ identity, (f.talks identity).Sound
  unread : ∀ identity, (f.talks identity).shell.loaded = false → (f.talks identity).shell.cwd = "/"

variable {f : Followed}

theorem talks_step_of_request? (found : f.chat.request? s = some (w, request)) (identity : String) :
    (f.step s).talks identity =
      if identity = s.identity then (f.talks identity).step w request else f.talks identity := by
  rw [step, found]
  dsimp only
  split
  · next own => rw [own, Function.update_self]
  · next other => rw [Function.update_of_ne other]

theorem talks_step_of_none (found : f.chat.request? s = none) : (f.step s).talks = f.talks := by
  rw [step, found]

theorem Faithful.filled (faithful : f.Faithful) (found : f.chat.request? s = some (w, request)) :
    (f.talks s.identity).shell.identity ≠ "" := by
  rw [faithful.named]
  exact (hands_of_request? found).filled

theorem shellOf_step_of_request? (found : f.chat.request? s = some (w, request)) (faithful : f.Faithful) (identity : String) :
    (f.step s).chat.shellOf identity =
      if identity = s.identity then ((f.talks identity).step w request).shell else f.chat.shellOf identity := by
  have shells := (hands_of_request? found).shells
  have own := (faithful.sound s.identity).identity_step (faithful.filled found) w request
  rw [faithful.named] at own
  rw [faithful.shell, show ((f.talks s.identity).shell.request w request).shell.identity = s.identity from own] at shells
  rw [step, shellOf, shells, Assoc.get?_insert]
  split
  · next same => rw [same]; rfl
  · rfl

/-- A step leaves what is seen of a chat faithful. -/
theorem Faithful.step (faithful : f.Faithful) (s : Step) : (f.step s).Faithful := by
  cases found : f.chat.request? s with
  | none =>
    have same := sameShells_of_request? found
    have talks := talks_step_of_none found
    refine ⟨fun identity => ?_, fun identity => ?_, fun identity => ?_, fun identity => ?_⟩ <;> rw [talks]
    · exact (same.shellOf identity).trans (faithful.shell identity)
    · exact faithful.named identity
    · exact faithful.sound identity
    · exact faithful.unread identity
  | some handed =>
    obtain ⟨w, request⟩ := handed
    have talks := talks_step_of_request? found
    have shells := shellOf_step_of_request? found faithful
    have filled := faithful.filled found
    refine ⟨fun identity => ?_, fun identity => ?_, fun identity => ?_, fun identity => ?_⟩
    all_goals
      rw [talks]
      by_cases own : identity = s.identity
    · rw [shells, if_pos own, if_pos own]
    · rw [shells, if_neg own, if_neg own, faithful.shell]
    · rw [if_pos own, own, (faithful.sound _).identity_step filled, faithful.named]
    · rw [if_neg own, faithful.named]
    · rw [if_pos own, own]
      exact (faithful.sound _).step filled w request
    · rw [if_neg own]
      exact faithful.sound identity
    · rw [if_pos own, own]
      exact (faithful.sound _).unread_step filled (faithful.unread _) w request
    · rw [if_neg own]
      exact faithful.unread identity

end Followed

/-- A chat in which nothing waits at first is followed faithfully. -/
theorem faithful_follow {start : Chat} (fresh : start.shells = []) (steps : List Step) : (start.follow steps).Faithful := by
  induction steps using List.reverseRecOn with
  | nil =>
    refine ⟨fun identity => ?_, fun _ => rfl, fun _ => .of_idle rfl, fun _ _ => rfl⟩
    rw [follow, List.foldl_nil, shellOf, fresh]
    rfl
  | append_singleton steps s ih => exact follow_concat start steps s ▸ ih.step s

end TreeShell.Chat
