import TreeShell.Proofs.Key.Places
import TreeShell.Verb.Guard

/-! # The shared checks as single calls

A look-up of a node or of a password is one read of the store and a function of the value read
(`load_eq`, `Vault.get_eq`, `Vault.check_eq`). The gate without elevation reads the password of its path,
and if there is one asks for it once and compares (`gate_eq`).
-/

namespace TreeShell

namespace Vault

/-- The password that a stored value stands for. -/
def password? : Value → Option String
  | .text password => some password
  | _ => none

/-- Whether an attempt opens a path with the given stored value. -/
def opens (stored : Value) (attempt : Answer) : Bool :=
  match password? stored with
  | none => true
  | some password => attempt = some password

theorem get_eq (path : String) :
    get path = .call (.get (Key.password path)) fun v => .done (password? v) := by
  refine congrArg (Program.call _) (funext fun v => ?_)
  cases v <;> rfl

theorem isProtected_eq (path : String) :
    isProtected path = .call (.get (Key.password path)) fun v => .done (password? v).isSome := by
  rw [isProtected, get_eq]
  rfl

theorem check_eq (path : String) (attempt : Answer) :
    check path attempt false = .call (.get (Key.password path)) fun v => .done (opens v attempt) := by
  simp only [check, get_eq, Bool.false_eq_true, if_false]
  refine congrArg (Program.call _) (funext fun v => ?_)
  cases v <;> rfl

end Vault

/-- The password of a path. -/
def Store.password? (s : Store) (path : String) : Option String :=
  Vault.password? (s.get (Key.password path))

/-- Whether an attempt opens a path. -/
def Store.opens (s : Store) (path : String) (attempt : Answer) : Bool :=
  Vault.opens (s.get (Key.password path)) attempt

namespace Verb

/-- The prompt for the password of the path with the given label. -/
def passwordPrompt (label : String) : Prompt :=
  { label := "Password for '" ++ label ++ "':" }

theorem passwordPrompt_inj {label label' : String} :
    passwordPrompt label = passwordPrompt label' ↔ label = label' := by
  refine ⟨fun same => ?_, congrArg passwordPrompt⟩
  have chars := congrArg (fun p => p.label.toList) same
  simp only [passwordPrompt, String.toList_append, List.append_assoc] at chars
  exact String.toList_injective (List.append_cancel_right (List.append_cancel_left chars))

/-- The node that a look-up at a path makes of the stored value. -/
def loaded (path : String) (v : Value) : Option Node :=
  match Node.ofValue? v with
  | some (.directory children) => some (.directory children)
  | node => if path = "/" then some (.directory []) else node

end Verb

/-- The node at a path; the root is always a directory. -/
def Store.node? (s : Store) (path : String) : Option Node :=
  Verb.loaded path (s.get (Key.node path))

namespace Verb

theorem load_eq (path : String) :
    load path = .call (.get (Key.node path)) fun v => .done (loaded path v) := by
  refine congrArg (Program.call _) (funext fun v => ?_)
  simp only [loaded, Program.bind]
  cases Node.ofValue? v with
  | none => rfl
  | some node => cases node <;> rfl

theorem loaded_of_ne_root {path : String} (notRoot : path ≠ "/") (v : Value) :
    loaded path v = Node.ofValue? v := by
  rw [loaded]
  split
  · next found => exact found.symm
  · rw [if_neg notRoot]

/-- The root is a directory, whatever is stored. -/
theorem loaded_root (v : Value) : ∃ children, loaded "/" v = some (.directory children) := by
  rw [loaded]
  split
  · exact ⟨_, rfl⟩
  · exact ⟨[], if_pos rfl⟩

/-- Without elevation the gate refuses metadata, and lets a protected path pass with its password only. -/
theorem gate_eq (label path : String) :
    gate label path false =
      if Key.isMetadata path then .done (some .metadata)
      else .call (.get (Key.password path)) fun v =>
        if (Vault.password? v).isSome then
          .ask (passwordPrompt label) fun attempt => .call (.get (Key.password path)) fun v =>
            .done (if Vault.opens v attempt then none else some .wrongPassword)
        else .done none := by
  simp only [gate, Vault.isProtected_eq, Vault.check_eq, Bool.false_eq_true, if_false]
  split
  · rfl
  · refine congrArg (Program.call _) (funext fun v => ?_)
    change (if (Vault.password? v).isSome = true then _ else _) = _
    split
    · refine congrArg (Program.ask _) (funext fun attempt => congrArg (Program.call _) (funext fun v => ?_))
      change (if Vault.opens v attempt = true then _ else _) = _
      split <;> rfl
    · rfl

end Verb

end TreeShell
