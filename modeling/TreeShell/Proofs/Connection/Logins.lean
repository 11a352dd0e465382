import TreeShell.Connection.Login

/-! # Who is let in

What an attempt to log in comes to depends on what the connection expects, and on nothing that was tried before. After
some attempts the connection knows the name of the last one that was accepted (`Login.attempts_login`), and a user is let
in at the end if that was the last one of all (`Login.attempts_accepted`).
-/

namespace TreeShell.Login

/-- Whether an attempt is accepted. -/
def accepts (l : Login) (tried : String × String) : Bool :=
  (l.attempt tried.1 tried.2).accepted

/-- The name of the last attempt that is accepted; none accepted, it stays what it was. -/
def nameAfter (l : Login) (tries : List (String × String)) : String :=
  ((tries.filter l.accepts).getLast?.map Prod.fst).getD l.username

variable {l : Login} {username password : String}

/-- An attempt is accepted if it has the user and the password that are expected; without an expected user any name
will do, with any password. -/
theorem accepts_iff :
    l.accepts (username, password) = true ↔
      if l.expected.user = "" then username ≠ "" else username = l.expected.user ∧ password = l.expected.password := by
  rw [accepts, attempt]
  split
  · split
    · next blank => exact ⟨nofun, fun filled => absurd blank filled⟩
    · next filled => exact ⟨fun _ => filled, fun _ => rfl⟩
  · split
    · next right => exact ⟨fun _ => right, fun _ => rfl⟩
    · next wrong => exact ⟨nofun, fun right => absurd right wrong⟩

/-- Who is accepted does not depend on who was before. -/
theorem accepts_named (l : Login) (name : String) : ({ l with username := name } : Login).accepts = l.accepts :=
  funext fun _ => Bool.eq_iff_iff.mpr (accepts_iff.trans (accepts_iff (l := l)).symm)

/-- Nobody is let in without a name. -/
theorem ne_empty_of_accepts (accepted : l.accepts (username, password) = true) : username ≠ "" := by
  have known := accepts_iff.mp accepted
  split at known
  · exact known
  · next expected => exact known.1 ▸ expected

theorem attempt_login (l : Login) (tried : String × String) :
    (l.attempt tried.1 tried.2).login = { l with username := if l.accepts tried then tried.1 else l.username } := by
  rw [accepts, attempt]
  split
  · split <;> rfl
  · split <;> rfl

theorem attempt_events (l : Login) (username password : String) :
    ∀ e ∈ (l.attempt username password).events, ∃ result, e = .loginAttempt l.source username result := by
  rw [attempt]
  split
  · split
    · exact List.forall_mem_nil _
    · exact List.forall_mem_singleton.mpr ⟨_, rfl⟩
  · split <;> exact List.forall_mem_singleton.mpr ⟨_, rfl⟩

theorem attempts_cons (l : Login) (tried : String × String) (rest : List (String × String)) :
    l.attempts (tried :: rest) =
      (if rest = [] then l.accepts tried else ((l.attempt tried.1 tried.2).login.attempts rest).1,
        (l.attempt tried.1 tried.2).events ++ ((l.attempt tried.1 tried.2).login.attempts rest).2.1,
        ((l.attempt tried.1 tried.2).login.attempts rest).2.2) := by
  cases rest with
  | nil =>
    rw [if_pos rfl, attempts, attempts, List.append_nil]
    rfl
  | cons next rest =>
    rw [if_neg (List.cons_ne_nil _ _), attempts]

/-- Attempts change nothing but the name, which is that of the last one that is accepted. -/
theorem attempts_login (l : Login) (tries : List (String × String)) :
    (l.attempts tries).2.2 = { l with username := l.nameAfter tries } := by
  induction tries generalizing l with
  | nil => rfl
  | cons tried rest ih =>
    rw [attempts_cons]
    dsimp only
    rw [ih, attempt_login]
    have same := accepts_named l (if l.accepts tried then tried.1 else l.username)
    rw [nameAfter, nameAfter, same, List.filter_cons]
    split
    · rw [List.getLast?_cons]
      cases (rest.filter l.accepts).getLast? <;> rfl
    · rfl

/-- A user is let in if the last attempt is accepted. -/
theorem attempts_accepted (l : Login) (tries : List (String × String)) :
    (l.attempts tries).1 = tries.getLast?.any l.accepts := by
  induction tries generalizing l with
  | nil => rfl
  | cons tried rest ih =>
    rw [attempts_cons]
    dsimp only
    rw [ih, attempt_login, accepts_named l (if l.accepts tried then tried.1 else l.username)]
    cases rest with
    | nil => rfl
    | cons next rest => rw [if_neg (List.cons_ne_nil _ _), List.getLast?_cons_cons]

/-- All that attempts log is that they were made. -/
theorem attempts_events (l : Login) (tries : List (String × String)) :
    ∀ e ∈ (l.attempts tries).2.1, ∃ username result, e = .loginAttempt l.source username result := by
  induction tries generalizing l with
  | nil => exact List.forall_mem_nil _
  | cons tried rest ih =>
    have later := ih (l.attempt tried.1 tried.2).login
    rw [attempt_login] at later
    rw [attempts_cons, attempt_login]
    exact List.forall_mem_append.mpr ⟨fun e member => ⟨tried.1, l.attempt_events _ _ e member⟩, later⟩

/-- If any attempt is accepted, the name that is known is that of one that is. -/
theorem exists_accepted {tries : List (String × String)} (entered : ∃ tried ∈ tries, l.accepts tried = true) :
    ∃ password, (l.nameAfter tries, password) ∈ tries ∧ l.accepts (l.nameAfter tries, password) = true := by
  obtain ⟨tried, member, accepted⟩ := entered
  have some_accepted : tries.filter l.accepts ≠ [] :=
    List.ne_nil_of_mem (List.mem_filter.mpr ⟨member, accepted⟩)
  obtain ⟨last, found⟩ := Option.ne_none_iff_exists'.mp (mt List.getLast?_eq_none_iff.mp some_accepted)
  have named : l.nameAfter tries = last.1 := by
    rw [nameAfter, found]
    rfl
  rw [named]
  exact ⟨last.2, List.mem_filter.mp (List.mem_of_getLast? found)⟩

end TreeShell.Login
