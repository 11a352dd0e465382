import TreeShell.Proofs.Verb.Passwords

/-! # Protected destinations

Whoever does not know the password of a path cannot change what stands there with `cp`, `vim` or a
redirect, since these ask for it. `mv` asks for the password of its source only, so it changes what stands
at a protected destination whenever it does not refuse and brings another value
(`VerbCall.destination_changed_iff`).
-/

namespace TreeShell

open Key (IsOrdinary)
open Path (IsName IsResolved ofSegments)
open Verb

/-- The path at which a verb that writes a node puts it. -/
def VerbCall.destination? (s : Store) (cwd : String) : VerbCall → Option String
  | .cp _ target => some (Path.resolve target cwd)
  | .mv source target => some (arrival s cwd source target)
  | .vim args => some (Path.resolve (Operand.ofArgs args).label cwd)
  | .redirect label _ => some (Path.resolve label cwd)
  | _ => none

/-- Whether a password was among the answers. -/
def Solo.Knows (u : Solo) (password : String) : Prop :=
  ∃ q ∈ u.asked, q.2 = some password

/-- Whoever is cleared for a protected path knows its password. -/
theorem Solo.Cleared.knows {u v : Solo} {label path password : String} (cleared : v.Cleared label path false)
    (asks : u.Asks v) (found : u.store.password? path = some password) : v.Knows password := by
  rw [← asks.store] at found
  exact ⟨_, cleared.given found, rfl⟩

theorem Solo.knows_perform {u : Solo} {request : StoreCall} {password : String} :
    (u.perform request).Knows password ↔ u.Knows password :=
  Iff.rfl

theorem Solo.Knows.mono {u v : Solo} {password : String} (knows : u.Knows password) (later : u.asked <+: v.asked) :
    v.Knows password := by
  obtain ⟨q, asked, answered⟩ := knows
  exact ⟨q, later.subset asked, answered⟩

/-- Putting what stands at one path at another and removing it changes the other, unless the same stands
there. -/
theorem Store.moved_changed_iff {s : Store} {arrival source : String} (canonical : Value.CanonicalEntries s.root)
    (arrivalResolved : IsResolved arrival) (sourceResolved : IsResolved source)
    (notWithin : Path.isWithin arrival source = false) (there : s.get (Key.node source) ≠ .null) :
    ((s.set (Key.node arrival) (s.get (Key.node source))).remove (Key.node source)).get (Key.node arrival) ≠
        s.get (Key.node arrival) ↔
      s.get (Key.node source) ≠ s.get (Key.node arrival) := by
  have brought := settled_get canonical sourceResolved
  have before := settled_get canonical arrivalResolved
  have arrived := get_node_set arrivalResolved s (s.get (Key.node source))
  have gone := get_node_set sourceResolved (s.set (Key.node arrival) (s.get (Key.node source))) .null
  rw [brought.prune_eq, brought.settle_eq] at arrived
  rw [remove_eq_set]
  obtain ⟨segs, names, rfl⟩ := arrivalResolved.exists_names
  obtain ⟨others, otherNames, rfl⟩ := sourceResolved.exists_names
  have apart : ¬ others <+: segs := by
    rw [← Path.isWithin_ofSegments names otherNames, notWithin]
    exact nofun
  rcases prefix_or_apart segs others with ⟨rest, rfl⟩ | ⟨name, rest, rfl⟩ | aside
  · -- the source lies below: it was a part of what stood there, and is missing from what stands there now
    have deeper : rest.map CodeTable.segment.escape ≠ [] := by
      intro here
      rw [List.map_eq_nil_iff.mp here, List.append_nil] at apart
      exact apart List.prefix_rfl
    have valids (n : String) (member : n ∈ rest) : IsName n := otherNames n (List.mem_append_right _ member)
    have part := get_node_append names valids s
    have remains := get_node_append names valids ((s.set (Key.node (ofSegments segs))
      (s.get (Key.node (ofSegments (segs ++ rest))))).set (Key.node (ofSegments (segs ++ rest))) .null)
    constructor
    · intro _
      rw [(before.find _).settle_eq] at part
      rw [part] at there ⊢
      exact Value.find_ne_self deeper there
    · intro _ same
      rw [same, ← part, gone] at remains
      exact there remains.symm
  · exact absurd (List.prefix_append ..) apart
  · rw [get_node_set_apart names otherNames aside.symm, arrived]

namespace Verb

variable {u : Solo} {password : String}

theorem cp_refused {source target : String} (found : u.store.password? (Path.resolve target u.cwd) = some password)
    (unknown : ¬ ((cp source target none).play u).2.Knows password) : Refused u ((cp source target none).play u) := by
  rcases cp_cases source target none u with refused | ⟨v, ready, played⟩
  · exact refused
  · have knows : v.Knows password := ready.targetCleared.knows ready.asks found
    rw [played, Solo.knows_perform] at unknown
    exact absurd knows unknown

theorem redirect_refused {label text : String} (found : u.store.password? (Path.resolve label u.cwd) = some password)
    (unknown : ¬ ((redirect label text none).play u).2.Knows password) :
    Refused u ((redirect label text none).play u) := by
  rcases redirect_cases label text none u with refused | ⟨v, ready, played⟩
  · exact refused
  · have knows : v.Knows password := ready.cleared.knows ready.asks found
    rw [played, Solo.knows_perform] at unknown
    exact absurd knows unknown

theorem vim_refused {args : List String}
    (found : u.store.password? (Path.resolve (Operand.ofArgs args).label u.cwd) = some password)
    (unknown : ¬ ((vim args none).play u).2.Knows password) : Refused u ((vim args none).play u) := by
  rcases vim_cases args none u with refused | ⟨v, w, ready, edited⟩
  · exact refused
  · have knows : v.Knows password := ready.cleared.knows ready.asks found
    have entered : v.asked <+: w.asked := by
      rcases ready.enters.entries ready.ordinary.1 with ⟨-, rfl⟩ | ⟨-, -, -, -, later, -⟩
      · exact List.prefix_rfl
      · exact later
    have shown := entered.trans (asked_begun u w (Operand.ofArgs args).label)
    rcases edited with played | ⟨text, -, played⟩
    · rw [played] at unknown
      exact absurd (knows.mono shown) unknown
    · rw [played, Solo.knows_perform] at unknown
      exact absurd (knows.mono shown) unknown

/-- A move changes what stands at its destination exactly if it does not refuse and brings another value. -/
theorem mv_changed_iff (canonical : Value.CanonicalEntries u.store.root) (source target : String) :
    ((mv source target none).play u).2.store.get (Key.node (arrival u.store u.cwd source target)) ≠
        u.store.get (Key.node (arrival u.store u.cwd source target)) ↔
      u.store.get (Key.node (Path.resolve source u.cwd)) ≠ u.store.get (Key.node (arrival u.store u.cwd source target)) ∧
        ∃ reply, ((mv source target none).play u).1 = .ok reply := by
  rcases mv_cases source target none u with refused | ⟨v, node, ready, played⟩
  · obtain ⟨refusal, result⟩ := refused.refusal
    rw [refused.asks.store, result]
    constructor
    · exact fun changed => absurd rfl changed
    · rintro ⟨-, reply, replied⟩
      cases replied
  · have there : u.store.get (Key.node (Path.resolve source u.cwd)) ≠ .null := by
      intro gone
      have found := ready.found
      rw [gone] at found
      cases found
    have replied : ∃ reply, ((mv source target none).play u).1 = .ok reply := by
      rw [played]
      exact ⟨_, rfl⟩
    rw [and_iff_left replied, ← Store.moved_changed_iff canonical ready.arrival_ordinary.1 ready.source_ordinary.1
      ready.notWithin there, played, removed, Solo.store_record, Solo.store_perform_update,
      Store.get_node_update_passwords ready.arrival_ordinary, Solo.store_perform_remove, Solo.store_perform_set,
      ready.asks.store]

end Verb

/-- What a call without elevation changes at a protected destination whose password is not among its
answers: nothing, unless it is a move that does not refuse and brings another value, and then it does. -/
theorem VerbCall.destination_changed_iff (call : VerbCall) (identity : String) (answers : List Answer) {m : Machine}
    (noFaults : m.world.backend.faults = FaultSchedule.none)
    (canonical : Value.CanonicalEntries m.world.backend.store.root) {path password : String}
    (writes : call.destination? m.world.backend.store m.cwd = some path)
    (isProtected : m.world.backend.store.password? path = some password)
    (unknown : ∀ q ∈ exchanges ((call.program identity none).converse answers m).prompts answers,
      q.2 ≠ some password) :
    let d := (call.program identity none).converse answers m
    let s := m.world.backend.store
    let t := d.machine.world.backend.store
    t.get (Key.node path) ≠ s.get (Key.node path) ↔
      (∃ source target, call = .mv source target ∧
        s.get (Key.node (Path.resolve source m.cwd)) ≠ s.get (Key.node path)) ∧
      Replied d.result := by
  obtain ⟨result, store, -, -, asked⟩ := (call.program identity none).converse_eq_play answers noFaults
  dsimp only
  rw [result, store]
  rw [← asked] at unknown
  have ignorant : ¬ ((call.program identity none).play (m.solo answers)).2.Knows password := by
    rintro ⟨q, member, same⟩
    exact unknown q member same
  by_cases moves : ∃ source target, call = .mv source target
  · obtain ⟨source, target, rfl⟩ := moves
    obtain rfl := Option.some.inj writes
    have changed := mv_changed_iff (u := m.solo answers) canonical source target
    constructor
    · intro differs
      obtain ⟨other, reply, replied⟩ := changed.mp differs
      exact ⟨⟨source, target, rfl, other⟩, reply, congrArg _ replied⟩
    · rintro ⟨⟨_, _, same, other⟩, reply, replied⟩
      cases same
      exact changed.mpr ⟨other, reply, Except.ok.inj replied⟩
  · have refused : Refused (m.solo answers) ((call.program identity none).play (m.solo answers)) := by
      cases call with
      | cp source target =>
        obtain rfl := Option.some.inj writes
        exact cp_refused isProtected ignorant
      | vim args =>
        obtain rfl := Option.some.inj writes
        exact vim_refused isProtected ignorant
      | redirect label text =>
        obtain rfl := Option.some.inj writes
        exact redirect_refused isProtected ignorant
      | mv source target => exact absurd ⟨source, target, rfl⟩ moves
      | _ => exact absurd writes nofun
    rw [refused.asks.store]
    constructor
    · exact fun changed => absurd rfl changed
    · rintro ⟨⟨source, target, same, -⟩, -⟩
      exact absurd ⟨source, target, same⟩ moves

/-- A protected file stays when a copy is refused, and is lost when a move asks for nothing. -/
theorem VerbCall.destination_changed_by_move :
    let s : Store := ⟨[("shellFS", .mapping [("a", .text "x"), ("b", .text "y"),
      ("__PASSWORDS__", .mapping [("b", .text "pw")])])]⟩
    let m : Machine := ⟨{ backend := { store := s } }, "/"⟩
    let after (call : VerbCall) (answers : List Answer) : Store :=
      ((call.program "alice" none).converse answers m).machine.world.backend.store
    (after (.cp "/a" "/b") [some "guess"]).get (Key.node "/b") = s.get (Key.node "/b") ∧
      (after (.mv "/a" "/b") []).get (Key.node "/b") ≠ s.get (Key.node "/b") := by
  intro s m after
  have canonical : Value.CanonicalEntries s.root := by decide
  have locked : s.password? "/b" = some "pw" := by decide +kernel
  constructor
  · have changed := (VerbCall.cp "/a" "/b").destination_changed_iff "alice" [some "guess"] (m := m) rfl canonical
      (by decide +kernel : _ = some "/b") locked (by decide +kernel)
    apply Decidable.byContradiction
    intro differs
    obtain ⟨⟨_, _, same, -⟩, -⟩ := changed.mp differs
    exact absurd same nofun
  · refine ((VerbCall.mv "/a" "/b").destination_changed_iff "alice" [] (m := m) rfl canonical
      (by decide +kernel : _ = some "/b") locked (by decide +kernel)).mpr ?_
    exact ⟨⟨"/a", "/b", rfl, by decide +kernel⟩, by decide +kernel⟩

/-- It is not so that only those who give the password of a destination change what stands there. -/
theorem VerbCall.protected_destination_overwritten :
    ¬ ∀ (call : VerbCall) (identity : String) (answers : List Answer) (m : Machine) (path password : String),
      m.world.backend.faults = FaultSchedule.none → Value.CanonicalEntries m.world.backend.store.root →
      call.destination? m.world.backend.store m.cwd = some path →
      m.world.backend.store.get (Key.node path) ≠ .null → m.world.backend.store.password? path = some password →
      (∀ q ∈ exchanges ((call.program identity none).converse answers m).prompts answers, q.2 ≠ some password) →
      ((call.program identity none).converse answers m).machine.world.backend.store.get (Key.node path) =
        m.world.backend.store.get (Key.node path) := by
  intro protects
  have kept := protects (.mv "/a" "/b") "alice" []
    ⟨{ backend := { store := ⟨[("shellFS", .mapping [("a", .text "x"), ("b", .text "y"),
      ("__PASSWORDS__", .mapping [("b", .text "pw")])])]⟩ } }, "/"⟩ "/b" "pw" rfl (by decide) (by decide +kernel)
    (by decide +kernel) (by decide +kernel) (by decide +kernel)
  exact absurd kept (by decide +kernel)

end TreeShell
