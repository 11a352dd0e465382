import TreeShell.Proofs.Store.Urls

/-! # Requests to the remote store

A client of the remote store performs calls against a server of which nothing is assumed: it answers each
request as it likes, depending on all that came before. In every such run a call that has something to
send sends exactly one request, to the address of its key, and it fails, with one record, exactly if that
request does (`RemoteStore.requests_faithful`).
-/

namespace TreeShell

/-- A call on the remote store and what came of it. -/
structure Exchange where
  call : StoreCall
  /-- The requests that were sent, each with its response. -/
  sent : List (HttpRequest × HttpResponse)
  result : Except StoreError Value
  events : List Event

namespace RemoteStore

/-! ## What a call asks for -/

/-- The method and the body that a call asks for; only a change without entries asks for nothing. -/
inductive Asks : StoreCall → String → Option Value → Prop
  | get (key : String) : Asks (.get key) "GET" none
  | put (key : String) {value : Value} (given : value ≠ .null) : Asks (.set key value) "PUT" (some value)
  | clear (key : String) : Asks (.set key .null) "DELETE" none
  | patch (key : String) {pairs : List (String × Value)} (filled : pairs ≠ []) :
      Asks (.update key pairs) "PATCH" (some (.mapping pairs))
  | remove (key : String) : Asks (.remove key) "DELETE" none

theorem verb?_cases (call : StoreCall) :
    (verb? call = none ∧ ∃ key, call = .update key []) ∨
      ∃ method body, verb? call = some (method, body) ∧ Asks call method body := by
  cases call with
  | get key => exact .inr ⟨_, _, rfl, .get key⟩
  | set key value =>
    by_cases given : value = .null
    · subst given
      exact .inr ⟨_, _, rfl, .clear key⟩
    · exact .inr ⟨_, _, verb?.eq_3 _ _ given, .put key given⟩
  | update key pairs =>
    cases pairs with
    | nil => exact .inl ⟨rfl, key, rfl⟩
    | cons p rest => exact .inr ⟨_, _, rfl, .patch key (List.cons_ne_nil p rest)⟩
  | remove key => exact .inr ⟨_, _, rfl, .remove key⟩

/-- Whether a request of a method failed with its response: no connection, a bad status, or, only when getting, a body
that does not decode. -/
def Fails (method : String) (response : HttpResponse) : Prop :=
  response.connectionError.isSome ∨ response.statusError.isSome ∨ method = "GET" ∧ response.bodyError.isSome

theorem isSome_failure? (method : String) (response : HttpResponse) :
    (failure? method response).isSome ↔ Fails method response := by
  by_cases getting : method = "GET" <;> simp [failure?, Fails, getting]

/-! ## Runs -/

section Runs

variable {σ : Type} (r : RemoteStore) (respond : σ → HttpRequest → HttpResponse × σ)

/-- Performs a call against a server in some state. -/
def perform (server : σ) (call : StoreCall) : Exchange × σ :=
  match r.request? call with
  | none => (⟨call, [], (answer call {}).1, (answer call {}).2⟩, server)
  | some request =>
    let (response, after) := respond server request
    (⟨call, [(request, response)], (answer call response).1, (answer call response).2⟩, after)

/-- Performs calls one after the other. -/
def run : σ → List StoreCall → List Exchange
  | _, [] => []
  | server, call :: calls =>
    let (exchange, after) := r.perform respond server call
    exchange :: run after calls

end Runs

/-- The fields of the record of a failed request. -/
def failureFields (method key error : String) : List (String × Value) :=
  [("event", .text "store_error"), ("method", .text method), ("key", .text key), ("error", .text error)]

/-- Whether a call failed for its key, with one record, exactly if its request did. -/
def Follows (x : Exchange) (method : String) (response : HttpResponse) : Prop :=
  Fails method response ∧
      (∃ error record, x.result = .error ⟨method ++ " " ++ x.call.key ++ " failed: " ++ error, x.call.key⟩ ∧
        x.events = [record] ∧ record.fields = failureFields method x.call.key error) ∨
    ¬ Fails method response ∧ x.result = .ok (if method = "GET" then response.body else .null) ∧ x.events = []

/-- Whether a call went as it should: a change without entries sent nothing, and any other call sent the request that it
asks for to the address of its key, and went as that request did. -/
def IsFaithful (base : String) (x : Exchange) : Prop :=
  (∃ key, x.call = .update key []) ∧ x.sent = [] ∧ x.result = .ok .null ∧ x.events = [] ∨
    ∃ request response, x.sent = [(request, response)] ∧ Asks x.call request.method request.body ∧
      request.url = base ++ "/" ++ Percent.encode (dropOuterSlashes x.call.key) ++ ".json" ∧
      Follows x request.method response

section Runs

variable {σ : Type} {r : RemoteStore} {respond : σ → HttpRequest → HttpResponse × σ} {server : σ}

theorem follows_answer {call : StoreCall} {method : String} {body : Option Value}
    (verb : verb? call = some (method, body)) (sent : List (HttpRequest × HttpResponse)) (response : HttpResponse) :
    Follows ⟨call, sent, (answer call response).1, (answer call response).2⟩ method response := by
  have failed := isSome_failure? method response
  cases failure : failure? method response with
  | none =>
    refine .inr ⟨fun fails => ?_, ?_, ?_⟩
    · have recorded := failed.mpr fails
      simp [failure] at recorded
    · simp [answer, verb, failure]
    · simp [answer, verb, failure]
  | some error =>
    refine .inl ⟨failed.mp (by simp [failure]), error, .requestFailure method call.key error, ?_, ?_, rfl⟩
    · simp [answer, verb, failure]
    · simp [answer, verb, failure]

theorem perform_call (call : StoreCall) : (r.perform respond server call).1.call = call := by
  unfold perform
  split <;> rfl

/-- One call goes as it should, whatever the server answers. -/
theorem isFaithful_perform (call : StoreCall) : IsFaithful r.base (r.perform respond server call).1 := by
  unfold perform
  rcases verb?_cases call with ⟨verb, key, rfl⟩ | ⟨method, body, verb, asks⟩
  · exact .inl ⟨⟨key, rfl⟩, rfl, rfl, rfl⟩
  · have sent : r.request? call = some (r.requestFor method call.key body (method ≠ "GET")) := by
      rw [request?, verb]
      rfl
    rw [sent]
    exact .inr ⟨_, _, rfl, asks, rfl, follows_answer verb _ _⟩

theorem run_calls (calls : List StoreCall) : (r.run respond server calls).map Exchange.call = calls := by
  induction calls generalizing server with
  | nil => rfl
  | cons call calls ih => rw [run, List.map_cons, perform_call, ih]

/-- So does every call of a run. -/
theorem isFaithful_run (calls : List StoreCall) : ∀ x ∈ r.run respond server calls, IsFaithful r.base x := by
  induction calls generalizing server with
  | nil => exact List.forall_mem_nil _
  | cons call calls ih => exact List.forall_mem_cons.mpr ⟨isFaithful_perform call, ih⟩

end Runs

/-! ## Addresses -/

/-- Whether a text is written in characters that stand for themselves in an address and in percent escapes, which decode
to its bytes in UTF-8. -/
structure Encodes (s written : String) : Prop where
  alphabet : ∀ c ∈ written.toList, c.isAlphanum = true ∨ c ∈ "_.-~/@*%".toList
  bytes : Percent.decodeBytes written.toList = Utf8.encode s
  decoded : Percent.decode written = s

theorem encodes_encode (s : String) : Encodes s (Percent.encode s) where
  alphabet c member := by
    have allowed := Percent.isKept_or_percent member
    simp only [Percent.isKept, Bool.or_eq_true, List.contains_iff_mem] at allowed
    rcases allowed with (alphanumeric | kept) | rfl
    · exact .inl alphanumeric
    · exact .inr (List.mem_append_left ['%'] kept)
    · exact .inr (by decide)
  bytes := Percent.decodeBytes_encode s
  decoded := Percent.decode_encode s

/-- The requests of a client address keys faithfully and fail uniformly. Against every server and in every sequence of
calls:
- a change without entries sends nothing, and any other call sends exactly one request, to the address of its key;
- it fails for that key, with one record, exactly if that request does, and nothing is sent again;
- the address is that of the database without slashes at its end, then the key without its outer slashes in percent
  encoding, which decodes to it, and an ending; different keys of the shell have different addresses. -/
theorem requests_faithful {url : String} (given : url ≠ "") (credential : String) (timeout : Value) :
    ∃ r, connect? url credential timeout = some r ∧
      ((∃ n, url.toList = r.base.toList ++ List.replicate n '/') ∧ r.base.toList.getLast? ≠ some '/') ∧
      (∀ (σ : Type) (respond : σ → HttpRequest → HttpResponse × σ) (server : σ) (calls : List StoreCall),
        (r.run respond server calls).map Exchange.call = calls ∧
        ∀ x ∈ r.run respond server calls, IsFaithful r.base x) ∧
      (∀ key, StripsTo key (dropOuterSlashes key) ∧
        Encodes (dropOuterSlashes key) (Percent.encode (dropOuterSlashes key))) ∧
      Function.Injective Percent.encode ∧
      ∀ key rival, IsAddress key → IsAddress rival → key ≠ rival → r.urlOf key ≠ r.urlOf rival :=
  ⟨⟨Text.dropTrailing '/' url, credential, timeout⟩, if_neg given, Text.exists_dropTrailing '/' url,
    fun _ _ _ calls => ⟨run_calls calls, isFaithful_run calls⟩,
    fun key => ⟨stripsTo_dropOuterSlashes key, encodes_encode _⟩, Percent.encode_injective,
    fun _ _ address rivalAddress differs => urlOf_ne _ address rivalAddress differs⟩

/-- A server that refuses deletions, and the two keys without a name behind their prefix. -/
theorem requests_faithful_refused :
    ∃ r, connect? "https://db.example.com/" "tok" (.int 5) = some r ∧
      (∀ x ∈ r.run (fun (served : Nat) request =>
            (if request.method = "DELETE" then { statusError := some "401" } else {}, served + 1))
          0 [.get "shellFS/a\\periodtxt", .update "ban" [], .remove "/x/"], IsFaithful r.base x) ∧
      r.urlOf (Key.ban "") ≠ r.urlOf (Key.cwd "") := by
  have given : "https://db.example.com/" ≠ "" := by decide
  obtain ⟨r, connected, -, runs, -, -, apart⟩ := requests_faithful given "tok" (.int 5)
  exact ⟨r, connected, (runs Nat _ 0 _).2, apart _ _ (.ban "") (.cwd "") (by decide)⟩

example : (RemoteStore.mk "https://db.example.com" "" .null).urlOf "/shellFS/a\\periodtxt" =
    "https://db.example.com/shellFS/a%5Cperiodtxt.json" := by
  decide

end RemoteStore

end TreeShell
