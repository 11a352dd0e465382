import TreeShell.Proofs.Connection.Handling

/-! # The rows of the sessions

A connection inserts a row when its channel opens, and when it ends it marks all rows of its user as closed. So the rows of
a user that are not closed are fewer than the open connections of that user as soon as one of these has outlived another
(`open_rows_eq_iff`), and as many otherwise.
-/

namespace TreeShell

namespace Connection

/-- A client for whom a channel has opened. -/
structure Guest where
  source : String
  identity : String
  filled : identity ≠ ""
  /-- Whether the connection is still open. -/
  present : Bool := true
  /-- Whether a connection of the same user has ended since this one opened. -/
  outlived : Bool := false

namespace Guest

/-- A guest after the end of a connection of a user. -/
def afterEndOf (identity : String) (g : Guest) : Guest :=
  if g.identity = identity then { g with outlived := true } else g

/-- A guest whose connection has ended. -/
def gone (g : Guest) : Guest :=
  { g with present := false }

/-- The row of a guest. -/
def row (g : Guest) : SessionRow :=
  ⟨g.identity, some g.source, g.outlived⟩

theorem row_afterEndOf (identity : String) (g : Guest) : (g.afterEndOf identity).row = g.row.endFor identity := by
  by_cases same : g.identity = identity
  · simp [afterEndOf, SessionRow.endFor, row, same]
  · simp [afterEndOf, SessionRow.endFor, row, same]

/-- The end of a connection outlives its own guest, and no guest comes back. -/
theorem afterEndOf_spec (identity : String) (g : Guest) :
    (g.afterEndOf identity).present = g.present ∧
      ((g.afterEndOf identity).outlived = true ↔ g.outlived = true ∨ g.identity = identity) := by
  by_cases same : g.identity = identity
  · simp [afterEndOf, same]
  · simp [afterEndOf, same]

end Guest

/-- What happens to the connections on one chat. -/
inductive Happening where
  /-- A channel opens. -/
  | opens (source identity : String) (filled : identity ≠ "")
  /-- The connection that was opened at a place in order ends. -/
  | ends (place : Nat)
  /-- A request to the chat. -/
  | asks (s : Chat.Step)

/-- A chat with all guests so far, in the order in which they came. -/
structure House where
  chat : Chat
  guests : List Guest := []

namespace House

/-- The house after a happening. -/
def step (h : House) : Happening → House
  | .opens source identity filled =>
    ⟨begin source identity h.chat, h.guests ++ [{ source := source, identity := identity, filled := filled }]⟩
  | .ends place =>
    match h.guests[place]? with
    | none => h
    | some g =>
      if g.present then
        ⟨finish g.source g.identity h.chat, (h.guests.set place g.gone).map (Guest.afterEndOf g.identity)⟩
      else h
  | .asks s => { h with chat := (h.chat.step s).2 }

/-- The house after some happenings. -/
def after (h : House) (happenings : List Happening) : House :=
  happenings.foldl step h

/-- The number of open connections of a user. -/
def connections (h : House) (identity : String) : Nat :=
  h.guests.countP fun g => g.identity = identity && g.present

/-- The number of rows of a user that are not closed. -/
def openRows (h : House) (identity : String) : Nat :=
  ((h.chat.sessions?.map Prod.fst).getD []).countP fun r => r.identity = identity && !r.closed

/-- Whether the sessions are the closed ones of before and those of the guests, and all guests who are gone have been
outlived. -/
structure Kept (rows : List SessionRow) (h : House) : Prop where
  sessions : h.chat.sessions? = some (rows ++ h.guests.map Guest.row, false)
  gone : ∀ g ∈ h.guests, g.present = false → g.outlived = true

variable {rows : List SessionRow} {h : House}

/-- In the rows it makes no difference whether a guest has gone. -/
theorem map_row_set {guests : List Guest} {place : Nat} {g : Guest} (found : guests[place]? = some g) :
    (guests.set place g.gone).map Guest.row = guests.map Guest.row := by
  obtain ⟨inside, -⟩ := List.getElem?_eq_some_iff.mp found
  refine List.ext_getElem? fun i => ?_
  rw [List.getElem?_map, List.getElem?_map, List.getElem?_set, if_pos inside]
  split
  · next here =>
    rw [← here, found]
    rfl
  · rfl

theorem map_endFor_of_closed (ended : ∀ r ∈ rows, r.closed = true) (identity : String) :
    rows.map (SessionRow.endFor identity) = rows := by
  conv_rhs => rw [← List.map_id rows]
  refine List.map_congr_left fun r member => ?_
  rw [SessionRow.endFor, id, ← ended r member]
  split <;> rfl

theorem Kept.step (ended : ∀ r ∈ rows, r.closed = true) (kept : Kept rows h) (happening : Happening) :
    Kept rows (h.step happening) := by
  cases happening with
  | opens source identity filled =>
    constructor
    · simp [House.step, sessions?_begin, kept.sessions, Guest.row]
    · exact List.forall_mem_append.mpr ⟨kept.gone, List.forall_mem_singleton.mpr nofun⟩
  | ends place =>
    rw [House.step]
    split
    · exact kept
    · next g found =>
      split
      · next present =>
        constructor
        · have guests : ((h.guests.set place g.gone).map (Guest.afterEndOf g.identity)).map Guest.row =
              (h.guests.map Guest.row).map (SessionRow.endFor g.identity) := by
            rw [← map_row_set found]
            simp [Function.comp_def, Guest.row_afterEndOf]
          dsimp only
          rw [guests, sessions?_finish g.filled, kept.sessions, Option.map_some, if_neg Bool.false_ne_true, List.map_append,
            map_endFor_of_closed ended]
        · intro g' member
          obtain ⟨g₀, inside, rfl⟩ := List.mem_map.mp member
          obtain ⟨stays, outlived⟩ := g₀.afterEndOf_spec g.identity
          intro gone
          rw [stays] at gone
          rw [outlived]
          rcases List.mem_or_eq_of_mem_set inside with old | rfl
          · exact .inl (kept.gone g₀ old gone)
          · exact .inr rfl
      · exact kept
  | asks s =>
    exact ⟨(h.chat.sessions?_step s).trans kept.sessions, kept.gone⟩

theorem Kept.after (ended : ∀ r ∈ rows, r.closed = true) (kept : Kept rows h) (happenings : List Happening) :
    Kept rows (h.after happenings) := by
  induction happenings generalizing h with
  | nil => exact kept
  | cons happening rest ih => exact ih (kept.step ended happening)

/-- The rows that are not closed are those of the guests who have not been outlived. -/
theorem Kept.openRows_eq (ended : ∀ r ∈ rows, r.closed = true) (kept : Kept rows h) (identity : String) :
    h.openRows identity = h.guests.countP fun g => g.identity = identity && !g.outlived := by
  have before : rows.countP (fun r => r.identity = identity && !r.closed) = 0 := by
    refine List.countP_eq_zero.mpr fun r member => ?_
    simp [ended r member]
  rw [openRows, kept.sessions, Option.map_some, Option.getD_some, List.countP_append, before, Nat.zero_add, List.countP_map]
  rfl

/-- The open connections are those with an open row, and those that have been outlived. -/
theorem Kept.connections_eq (ended : ∀ r ∈ rows, r.closed = true) (kept : Kept rows h) (identity : String) :
    h.connections identity =
      h.openRows identity + h.guests.countP fun g => g.identity = identity && g.present && g.outlived := by
  -- who has not been outlived is still there, since the end of a connection outlives its own guest
  have spared : (h.guests.countP fun g => g.identity = identity && !g.outlived) =
      h.guests.countP fun g => g.identity = identity && g.present && !g.outlived := by
    refine List.countP_congr fun g member => ?_
    have gone := kept.gone g member
    cases present : g.present with
    | true => simp
    | false => simp [gone present]
  rw [kept.openRows_eq ended, spared, connections, List.countP_eq_countP_filter_add _ _ fun g => !g.outlived,
    List.countP_filter, List.countP_filter]
  simp

end House

/-- The rows of the sessions follow the connections until one outlives another. On an open database in which all sessions
are closed, after any openings and ends of connections and any requests to the chat in between:

- the rows are those of before, and one for each connection that was opened, which is closed exactly if a connection of
  the same user has ended since;
- the open connections of a user are as many as the rows of the user that are not closed and the open connections that
  have been outlived;
- so these numbers are equal exactly if no open connection of the user has been outlived. -/
theorem open_rows_eq_iff {start : Chat} {rows : List SessionRow} (opened : start.sessions? = some (rows, false))
    (ended : ∀ r ∈ rows, r.closed = true) (happenings : List Happening) (identity : String) :
    ((House.mk start []).after happenings).chat.sessions? =
        some (rows ++ ((House.mk start []).after happenings).guests.map Guest.row, false) ∧
      ((House.mk start []).after happenings).connections identity =
        ((House.mk start []).after happenings).openRows identity +
          ((House.mk start []).after happenings).guests.countP
            (fun g => g.identity = identity && g.present && g.outlived) ∧
      (((House.mk start []).after happenings).openRows identity =
          ((House.mk start []).after happenings).connections identity ↔
        ∀ g ∈ ((House.mk start []).after happenings).guests,
          g.identity = identity → g.present = true → g.outlived = false) := by
  have empty : House.Kept rows ⟨start, []⟩ := by
    refine ⟨?_, List.forall_mem_nil _⟩
    rw [List.map_nil, List.append_nil]
    exact opened
  have kept := empty.after ended happenings
  generalize (House.mk start []).after happenings = h at kept
  have counted := kept.connections_eq ended identity
  refine ⟨kept.sessions, counted, ?_⟩
  rw [counted, Nat.left_eq_add, List.countP_eq_zero]
  simp

/-- Two connections of one user, the first of which ends. -/
def overlap : List Happening :=
  [.opens "10.0.0.1" "alice" (by decide), .opens "10.0.0.2" "alice" (by decide), .ends 0]

/-- The end of the first connection closes the row of the second one, too. -/
theorem open_rows_eq_iff_overlap :
    ((House.mk { Chat.blank with database := some (.enabled {}) } []).after overlap).chat.sessions? =
        some ([⟨"alice", some "10.0.0.1", true⟩, ⟨"alice", some "10.0.0.2", true⟩], false) ∧
      ((House.mk { Chat.blank with database := some (.enabled {}) } []).after overlap).connections "alice" = 1 := by
  obtain ⟨rows, connections, -⟩ := @open_rows_eq_iff { Chat.blank with database := some (.enabled {}) } [] rfl
    (List.forall_mem_nil _) overlap "alice"
  exact ⟨rows.trans (by decide +kernel), connections.trans (by decide +kernel)⟩

/-- So not every open connection has an open row. -/
theorem open_rows_fewer :
    ¬ ∀ (start : Chat) (rows : List SessionRow), start.sessions? = some (rows, false) → (∀ r ∈ rows, r.closed = true) →
      ∀ happenings identity, ((House.mk start []).after happenings).openRows identity =
        ((House.mk start []).after happenings).connections identity := by
  intro follow
  have equal := follow { Chat.blank with database := some (.enabled {}) } [] rfl (List.forall_mem_nil _) overlap "alice"
  exact absurd equal (by decide +kernel)

end Connection

end TreeShell
