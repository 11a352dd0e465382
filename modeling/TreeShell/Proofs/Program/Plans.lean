import TreeShell.Proofs.Program.Acts

/-! # Programs that look first and then follow a plan

Most programs read the store and ask the user until they know what to do, and then write. What is read and asked makes
no difference, so a program can be summed up by its plans: whatever it has done so far, it has looked, and then it has
come some way along one of them (`Program.Plans`). Faults and prompts without an answer only stop it on the way.
-/

namespace TreeShell

/-- Whether an act is a read, or a prompt for a password. -/
def Act.Looks : Act → Prop
  | .called (.get _) _ => True
  | .asked prompt _ => prompt.kind = .secret
  | _ => False

/-- Whether a call answers null on every store. -/
def StoreCall.IsWrite (request : StoreCall) : Prop :=
  ∀ s : Store, (s.perform request).1 = .null

/-- Looking leaves the store alone. -/
theorem Store.after_of_looks {looks : List Act} (looked : ∀ a ∈ looks, a.Looks) (done : List Act) (s : Store) :
    s.after (Act.calls (looks ++ done)) = s.after (Act.calls done) := by
  induction looks with
  | nil => rfl
  | cons a rest ih =>
    obtain ⟨first, later⟩ := List.forall_mem_cons.mp looked
    cases a with
    | called request answer =>
      cases request with
      | get key => exact ih later
      | _ => exact first.elim
    | _ => exact ih later

namespace Program

variable {α β ρ : Type} {L M : Act → Prop} {cwd : String} {Q R : α → Prop} {D E : List Act → Prop}

/-- Whether all that a program can do from a working directory has a property, and its result another. It enters no
directory. -/
inductive Only (L : Act → Prop) (cwd : String) (Q : α → Prop) : Program α → Prop
  | done {a : α} (holds : Q a) : Only L cwd Q (.done a)
  | call {request : StoreCall} {k : Value → Program α} (plain : ∀ v, L (.called request v))
    (next : ∀ v, Only L cwd Q (k v)) : Only L cwd Q (.call request k)
  | ask {prompt : Prompt} {k : Answer → Program α} (plain : ∀ a, L (.asked prompt a)) (next : ∀ a, Only L cwd Q (k a)) :
    Only L cwd Q (.ask prompt k)
  | log {event : Event} {p : Program α} (plain : L (.logged event)) (next : Only L cwd Q p) : Only L cwd Q (.log event p)
  | cwd {k : String → Program α} (next : Only L cwd Q (k cwd)) : Only L cwd Q (.cwd k)

namespace Only

theorem bind {S : β → Prop} {p : Program α} {f : α → Program β} (first : Only L cwd Q p)
    (next : ∀ a, Q a → Only L cwd S (f a)) : Only L cwd S (p >>= f) := by
  induction first with
  | done holds => exact next _ holds
  | call plain _ ih => exact .call plain ih
  | ask plain _ ih => exact .ask plain ih
  | log plain _ ih => exact .log plain ih
  | cwd _ ih => exact .cwd ih

/-- A check that may refuse, and what comes after it. -/
theorem past {S : β → Prop} {p : Program (Option ρ)} {f : Option ρ → Program β} {P : Prop}
    (first : Only L cwd (fun r => r = none → P) p) (refuses : ∀ r, Only L cwd S (f (some r)))
    (next : P → Only L cwd S (f none)) : Only L cwd S (p >>= f) := by
  refine first.bind fun refusal passed => ?_
  cases refusal with
  | some refusal => exact refuses refusal
  | none => exact next (passed rfl)

theorem mono {p : Program α} (only : Only L cwd Q p) (acts : ∀ a, L a → M a) (result : ∀ a, Q a → R a) :
    Only M cwd R p := by
  induction only with
  | done holds => exact .done (result _ holds)
  | call plain _ ih => exact .call (fun v => acts _ (plain v)) ih
  | ask plain _ ih => exact .ask (fun a => acts _ (plain a)) ih
  | log plain _ ih => exact .log (acts _ plain) ih
  | cwd _ ih => exact .cwd ih

theorem leads {p q : Program α} {acts : List Act} (only : Only L cwd Q p) (leads : Leads cwd p acts q) :
    (∀ a ∈ acts, L a) ∧ Act.cwdAfter cwd acts = cwd ∧ ∀ a, q = .done a → Q a := by
  induction only generalizing acts with
  | done holds =>
    cases leads with
    | here => exact ⟨List.forall_mem_nil _, rfl, fun a same => Program.done.inj same ▸ holds⟩
  | call plain _ ih =>
    cases leads with
    | here => exact ⟨List.forall_mem_nil _, rfl, nofun⟩
    | call s next =>
      obtain ⟨all, rest⟩ := ih _ next
      exact ⟨List.forall_mem_cons.mpr ⟨plain _, all⟩, rest⟩
  | ask plain _ ih =>
    cases leads with
    | here => exact ⟨List.forall_mem_nil _, rfl, nofun⟩
    | ask answer next =>
      obtain ⟨all, rest⟩ := ih _ next
      exact ⟨List.forall_mem_cons.mpr ⟨plain _, all⟩, rest⟩
  | log plain _ ih =>
    cases leads with
    | here => exact ⟨List.forall_mem_nil _, rfl, nofun⟩
    | log next =>
      obtain ⟨all, rest⟩ := ih next
      exact ⟨List.forall_mem_cons.mpr ⟨plain, all⟩, rest⟩
  | cwd _ ih =>
    cases leads with
    | here => exact ⟨List.forall_mem_nil _, rfl, nofun⟩
    | cwd next => exact ih next

/-- A sequence is still within such a first part, or that has ended where it began and the other goes on. -/
theorem split {p : Program α} {f : α → Program β} {q : Program β} {acts : List Act} (only : Only L cwd Q p)
    (leads : Leads cwd (p >>= f) acts q) :
    (∀ a ∈ acts, L a) ∨ ∃ r first rest, acts = first ++ rest ∧ (∀ a ∈ first, L a) ∧ Q r ∧ Leads cwd p first (.done r) ∧
      Leads cwd (f r) rest q := by
  rcases leads.of_bind with ⟨p', inside, rfl⟩ | ⟨r, first, rest, rfl, ended, goes⟩
  · exact .inl (only.leads inside).1
  · obtain ⟨all, stays, result⟩ := only.leads ended
    rw [stays] at goes
    exact .inr ⟨r, first, rest, rfl, all, result r rfl, ended, goes⟩

end Only

/-- Whether a program does one of some lists of acts step by step, and reads nothing. -/
inductive Follows : (List Act → Prop) → Program α → Prop
  | done {D : List Act → Prop} {a : α} (ends : D []) : Follows D (.done a)
  | write {D : List Act → Prop} {request : StoreCall} {k : Value → Program α} (write : request.IsWrite)
    (next : Follows (fun plan => D (.called request .null :: plan)) (k .null)) : Follows D (.call request k)
  | ask {D : List Act → Prop} {prompt : Prompt} {k : Answer → Program α}
    (next : ∀ a, Follows (fun plan => D (.asked prompt a :: plan)) (k a)) : Follows D (.ask prompt k)
  | log {D : List Act → Prop} {event : Event} {p : Program α} (next : Follows (fun plan => D (.logged event :: plan)) p) :
    Follows D (.log event p)
  | enter {D : List Act → Prop} {path : String} {p : Program α}
    (next : Follows (fun plan => D (.entered path :: plan)) p) : Follows D (.enter path p)

theorem Follows.exists_plan {p : Program α} (follows : Follows D p) : ∃ plan, D plan := by
  induction follows with
  | done ends => exact ⟨[], ends⟩
  | write _ _ ih => exact ih.imp' _ fun _ whole => whole
  | ask _ ih => exact (ih none).imp' _ fun _ whole => whole
  | log _ ih => exact ih.imp' _ fun _ whole => whole
  | enter _ ih => exact ih.imp' _ fun _ whole => whole

/-- Such a program has always come some way along one of the lists. -/
theorem Follows.leads {p q : Program α} {acts : List Act} (follows : Follows D p) (leads : Leads cwd p acts q) :
    ∃ plan, acts <+: plan ∧ D plan := by
  induction follows generalizing cwd acts with
  | done ends =>
    cases leads with
    | here => exact ⟨[], List.prefix_rfl, ends⟩
  | write write next ih =>
    cases leads with
    | here => exact (Follows.write write next).exists_plan.imp fun plan whole => ⟨List.nil_prefix, whole⟩
    | call s rest =>
      rw [write s] at rest ⊢
      obtain ⟨plan, along, whole⟩ := ih rest
      exact ⟨_, (List.prefix_cons_inj _).mpr along, whole⟩
  | ask next ih =>
    cases leads with
    | here => exact (Follows.ask next).exists_plan.imp fun plan whole => ⟨List.nil_prefix, whole⟩
    | ask answer rest =>
      obtain ⟨plan, along, whole⟩ := ih answer rest
      exact ⟨_, (List.prefix_cons_inj _).mpr along, whole⟩
  | log next ih =>
    cases leads with
    | here => exact (Follows.log next).exists_plan.imp fun plan whole => ⟨List.nil_prefix, whole⟩
    | log rest =>
      obtain ⟨plan, along, whole⟩ := ih rest
      exact ⟨_, (List.prefix_cons_inj _).mpr along, whole⟩
  | enter next ih =>
    cases leads with
    | here => exact (Follows.enter next).exists_plan.imp fun plan whole => ⟨List.nil_prefix, whole⟩
    | enter rest =>
      obtain ⟨plan, along, whole⟩ := ih rest
      exact ⟨_, (List.prefix_cons_inj _).mpr along, whole⟩

/-- Some acts that change nothing, and then some way along a plan. -/
structure Way (D : List Act → Prop) (looks done : List Act) : Prop where
  look : ∀ a ∈ looks, a.Looks
  along : ∃ plan, done <+: plan ∧ D plan

/-- Less of it is such a way too. -/
theorem Way.of_prefix {looks done past : List Act} (way : Way D looks done) (within : past <+: looks ++ done) :
    ∃ looks done, past = looks ++ done ∧ Way D looks done := by
  obtain ⟨plan, along, whole⟩ := way.along
  rcases List.prefix_or_prefix_of_prefix within (List.prefix_append looks done) with short | ⟨done', rfl⟩
  · exact ⟨past, [], (List.append_nil _).symm, fun a member => way.look a (short.subset member), plan, List.nil_prefix, whole⟩
  · exact ⟨looks, done', rfl, way.look, plan, ((List.prefix_append_right_inj looks).mp within).trans along, whole⟩

/-- Whether a program that comes after some acts, from a working directory, goes on so that in all it has looked and
then followed a plan. -/
def PlansAfter (D : List Act → Prop) (seen : List Act) (cwd : String) (p : Program α) : Prop :=
  ∀ acts q, Leads cwd p acts q → ∃ looks done, seen ++ acts = looks ++ done ∧ Way D looks done

/-- Whether a program, from a working directory, looks and then follows a plan. -/
def Plans (D : List Act → Prop) (cwd : String) (p : Program α) : Prop :=
  PlansAfter D [] cwd p

namespace PlansAfter

variable {seen : List Act} {p : Program α}

/-- What was seen before is the beginning of the plan. -/
theorem of_follows (follows : Follows (fun plan => D (seen ++ plan)) p) : PlansAfter D seen cwd p := by
  intro acts q leads
  obtain ⟨plan, along, whole⟩ := follows.leads leads
  exact ⟨[], seen ++ acts, rfl, List.forall_mem_nil _, seen ++ plan, (List.prefix_append_right_inj seen).mpr along, whole⟩

/-- What was seen before does not belong to the plan. -/
theorem of_plans (looked : ∀ a ∈ seen, a.Looks) (plans : Plans D cwd p) : PlansAfter D seen cwd p := by
  intro acts q leads
  obtain ⟨looks, done, cut, way⟩ := plans acts q leads
  refine ⟨seen ++ looks, done, ?_, fun act member => ?_, way.along⟩
  · rw [show acts = looks ++ done from cut, List.append_assoc]
  · exact (List.mem_append.mp member).elim (looked act) (way.look act)

/-- Whether a prompt belongs to the plan may turn on its answer. -/
theorem ask {prompt : Prompt} {k : Answer → Program α} (nothing : D []) (looked : ∀ a ∈ seen, a.Looks)
    (next : ∀ a, PlansAfter D (seen ++ [.asked prompt a]) cwd (k a)) : PlansAfter D seen cwd (.ask prompt k) := by
  intro acts q leads
  cases leads with
  | here => exact ⟨seen, [], rfl, looked, [], List.prefix_rfl, nothing⟩
  | ask answer rest =>
    obtain ⟨looks, done, cut, way⟩ := next answer _ q rest
    exact ⟨looks, done, (List.append_cons ..).trans cut, way⟩

end PlansAfter

namespace Plans

theorem leads {p q : Program α} {acts : List Act} (plans : Plans D cwd p) (leads : Leads cwd p acts q) :
    ∃ looks done, acts = looks ++ done ∧ Way D looks done :=
  plans acts q leads

theorem of_follows {p : Program α} (follows : Follows D p) : Plans D cwd p :=
  PlansAfter.of_follows follows

theorem pure (nothing : D []) (a : α) : Plans D cwd (Pure.pure a) :=
  of_follows (.done nothing)

/-- A program that only looks. -/
theorem of_only {p : Program α} (nothing : D []) (only : Only Act.Looks cwd Q p) : Plans D cwd p :=
  fun acts _ leads => ⟨acts, [], (List.append_nil _).symm, (only.leads leads).1, [], List.prefix_rfl, nothing⟩

/-- A program that looks, and then plans. -/
theorem bind {p : Program α} {f : α → Program β} (nothing : D []) (first : Only Act.Looks cwd Q p)
    (next : ∀ a, Q a → Plans D cwd (f a)) : Plans D cwd (p >>= f) := by
  intro acts q leads
  rcases first.split leads with looked | ⟨a, looks, rest, rfl, looked, result, -, goes⟩
  · exact ⟨acts, [], (List.append_nil _).symm, looked, [], List.prefix_rfl, nothing⟩
  · exact PlansAfter.of_plans looked (next a result) rest q goes

/-- A check that may refuse, and what comes after it. -/
theorem past {p : Program (Option ρ)} {f : Option ρ → Program β} {P : Prop} (nothing : D [])
    (first : Only Act.Looks cwd (fun r => r = none → P) p) (refuses : ∀ r, Plans D cwd (f (some r)))
    (next : P → Plans D cwd (f none)) : Plans D cwd (p >>= f) := by
  refine bind nothing first fun refusal passed => ?_
  cases refusal with
  | some refusal => exact refuses refusal
  | none => exact next (passed rfl)

end Plans

end Program

end TreeShell
