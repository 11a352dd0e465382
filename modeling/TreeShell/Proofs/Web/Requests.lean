import TreeShell.Proofs.Console.Runs
import TreeShell.Web.Server

/-! # What a request to the dashboard comes to

A request to the dashboard asks for a step of the chat if it posts a message or an answer of a sender who is signed in
(`step?`). No other request changes anything. A step of which no call fails is answered with status 200; one of which a
call fails is answered with status 502 and recorded (`answered`).
-/

namespace TreeShell.Web

/-- What a body asks the chat for on behalf of a sender, if it has the form for its route. -/
def action? (route : Route) (body : Option Value) : Option (String → Chat.Step) :=
  match route with
  | .message => (messageOf? body).map fun m identity => .handle identity m.1 m.2
  | .answer => (answerOf? body).map fun answer identity => .respond identity answer
  | _ => none

/-- The step of the chat that a request asks for. -/
def step? (request : Request) : Option Chat.Step := do
  let route ← routeOf? request.target
  let action ← action? route request.body
  let identity ← request.identity
  if request.method = route.method ∧ identity ≠ "" then some (action identity) else none

variable {c : Chat} {request : Request} {s : Chat.Step} {route : Route} {action : String → Chat.Step}

theorem respond_of_action (found : action? route request.body = some action) (c : Chat) :
    respond c request route = withIdentity c request.identity (fun identity => c.step (action identity)) ∧
      ∀ identity, (action identity).identity = identity := by
  cases route with
  | message =>
    obtain ⟨m, read, rfl⟩ := Option.map_eq_some_iff.mp found
    rw [respond, read]
    exact ⟨rfl, fun _ => rfl⟩
  | answer =>
    obtain ⟨answer, read, rfl⟩ := Option.map_eq_some_iff.mp found
    rw [respond, read]
    exact ⟨rfl, fun _ => rfl⟩
  | _ => cases found

theorem respond_of_no_action (nothing : action? route request.body = none) (c : Chat) :
    ∃ response, respond c request route = (.ok response, c) := by
  cases route with
  | message =>
    rw [respond, Option.map_eq_none_iff.mp nothing]
    exact ⟨_, rfl⟩
  | answer =>
    rw [respond, Option.map_eq_none_iff.mp nothing]
    exact ⟨_, rfl⟩
  | elevations =>
    rw [respond]
    split <;> exact ⟨_, rfl⟩
  | _ => exact ⟨_, rfl⟩

theorem chatResponse_ok {identity : String} {r : Except ShellError TreeShell.Response × Chat} {response : TreeShell.Response}
    (answered : r.1 = .ok response) : chatResponse identity r = (.ok ⟨200, .json (responseValue response)⟩, r.2) := by
  obtain ⟨_, c⟩ := r
  obtain rfl := answered
  rfl

theorem chatResponse_failed {identity : String} {r : Except ShellError TreeShell.Response × Chat} {error : StoreError}
    (failed : r.1 = .error (.store error)) :
    chatResponse identity r =
      (.ok ⟨502, .json (.mapping
          [("status", .text "error"), ("text", .text ("shell: storage error: " ++ error.message))])⟩,
        r.2.record (.storeFailure identity error.message)) := by
  obtain ⟨_, c⟩ := r
  obtain rfl := failed
  rfl

/-- A request that asks for a step is answered with what the chat makes of it. -/
theorem handle_of_step? (found : step? request = some s) (c : Chat) :
    s.identity ≠ "" ∧ handle c request = chatResponse s.identity (c.step s) := by
  simp only [step?, Option.bind_eq_bind, Option.bind_eq_some_iff] at found
  obtain ⟨route, routed, action, read, identity, signed, found⟩ := found
  split at found
  · next asks =>
    obtain ⟨responds, named⟩ := respond_of_action read c
    obtain rfl := Option.some.inj found
    rw [handle, routed, named]
    dsimp only
    rw [if_pos asks.1, responds, signed, withIdentity, if_neg asks.2]
    exact ⟨asks.2, rfl⟩
  · cases found

/-- A request that asks for no step changes nothing. -/
theorem handle_of_no_step (nothing : step? request = none) (c : Chat) :
    ∃ response, handle c request = (.ok response, c) := by
  rw [handle]
  cases routed : routeOf? request.target with
  | none => exact ⟨_, rfl⟩
  | some route =>
    dsimp only
    split
    · next asks =>
      cases read : action? route request.body with
      | none => exact respond_of_no_action read c
      | some action =>
        rw [(respond_of_action read c).1]
        cases signed : request.identity with
        | none => exact ⟨_, rfl⟩
        | some identity =>
          rw [withIdentity]
          split
          · exact ⟨_, rfl⟩
          · next filled => simp [step?, routed, read, signed, asks, filled] at nothing
    · exact ⟨_, rfl⟩

/-- How a request is answered. -/
inductive Answered (c : Chat) (request : Request) : Prop
  /-- It asks for no step, and nothing happens. -/
  | unasked (nothing : step? request = none) (same : ∃ response, handle c request = (.ok response, c))
  /-- No call of its step fails. -/
  | served (s : Chat.Step) (response : TreeShell.Response) (found : step? request = some s)
    (met : c.world.backend.errors (c.calls s) = []) (returns : (c.step s).1 = .ok response)
    (answered : handle c request = (.ok ⟨200, .json (responseValue response)⟩, (c.step s).2))
  /-- One call of its step fails; nothing waits any more, unless the step had not reached the shell. -/
  | failed (s : Chat.Step) (error : StoreError) (found : step? request = some s)
    (met : c.world.backend.errors (c.calls s) = [error])
    (answered : handle c request =
      (.ok ⟨502, .json (.mapping
          [("status", .text "error"), ("text", .text ("shell: storage error: " ++ error.message))])⟩,
        (c.step s).2.record (.storeFailure s.identity error.message)))
    (dropped : ((c.step s).2.shellOf s.identity).pending = none ∨
      c.request? s = none ∧ (c.step s).2.shells = c.shells)

theorem answered (settled : c.Settled) (ascii : c.gate.IsAscii) (request : Request) : Answered c request := by
  cases found : step? request with
  | none => exact .unasked found (handle_of_no_step found c)
  | some s =>
    obtain ⟨filled, handled⟩ := handle_of_step? found c
    obtain ⟨met, store, dropped⟩ := settled.answered filled
    cases result : (c.step s).1 with
    | ok response =>
      rw [result] at met
      exact .served s response found met result (handled.trans (chatResponse_ok result))
    | error error =>
      obtain ⟨e, rfl⟩ := store ascii error result
      rw [result] at met
      exact .failed s e found met (handled.trans (chatResponse_failed result)) (dropped _ result)

/-- A request goes on with the chat by its calls, and records the one that fails. -/
theorem attended (settled : c.Settled) (ascii : c.gate.IsAscii) (found : step? request = some s) :
    c.Attended s.identity (c.calls s) (handle c request).2 := by
  have went := settled.went_step (handle_of_step? found c).1
  cases answered settled ascii request with
  | unasked nothing => cases nothing.symm.trans found
  | served s' response found' met returns answered =>
    obtain rfl := Option.some.inj (found'.symm.trans found)
    rw [answered]
    exact went.attended met
  | failed s' error found' met answered =>
    obtain rfl := Option.some.inj (found'.symm.trans found)
    rw [answered]
    exact went.attended_record met

end TreeShell.Web
