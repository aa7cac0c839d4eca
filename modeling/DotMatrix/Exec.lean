import DotMatrix.Fault
import DotMatrix.Journal

/-!
# Operations on a state

An operation on a state of type `σ` ends with a value or a fault, and in both cases with a state:
what was done before a fault stays done.  It also leaves records, which it cannot look at, so what
an operation does never depends on what was reported before it.

* `Exec σ α` is the monad of these operations.
* `Outcome σ α` is what one leaves behind.
-/

set_option autoImplicit false

namespace DotMatrix

/-- What an operation leaves behind. -/
structure Outcome (σ α : Type) where
  /-- The value it ended with, or the fault that stopped it. -/
  result : Except Fault α
  /-- The state it left, also when it was stopped. -/
  state : σ
  /-- What it reported, in order. -/
  records : Array Record

instance {σ α : Type} [h : Nonempty σ] : Nonempty (Outcome σ α) :=
  h.elim fun s ↦ ⟨.error .runaway, s, #[]⟩

/-- An operation on a state of type `σ` that yields an `α`. -/
def Exec (σ α : Type) : Type := σ → Outcome σ α

namespace Exec

variable {σ α β : Type}

/-- Do nothing and yield a value. -/
@[always_inline, inline]
protected def pure (a : α) : Exec σ α := fun s ↦ ⟨.ok a, s, #[]⟩

/-- One operation after another; a fault in the first stops both. -/
@[always_inline, inline]
protected def bind (x : Exec σ α) (f : α → Exec σ β) : Exec σ β := fun s ↦
  match x s with
  | ⟨.ok a, s', before⟩ =>
    match f a s' with
    | ⟨r, s'', after⟩ => ⟨r, s'', before ++ after⟩
  | ⟨.error e, s', before⟩ => ⟨.error e, s', before⟩

@[always_inline]
instance : Monad (Exec σ) where
  pure := Exec.pure
  bind := Exec.bind

protected theorem bind_pure (x : Exec σ α) : x.bind Exec.pure = x := by
  funext s
  unfold Exec.bind Exec.pure
  rcases x s with ⟨_ | a, s', l⟩
  · rfl
  · simp

protected theorem pure_bind (a : α) (f : α → Exec σ β) : (Exec.pure a).bind f = f a := by
  funext s
  simp [Exec.bind, Exec.pure]

protected theorem bind_assoc {γ : Type} (x : Exec σ α) (f : α → Exec σ β) (g : β → Exec σ γ) :
    (x.bind f).bind g = x.bind fun a ↦ (f a).bind g := by
  funext s
  unfold Exec.bind
  rcases x s with ⟨_ | a, s', l⟩
  · rfl
  · dsimp only
    generalize f a s' = o
    rcases o with ⟨_ | b, s'', l'⟩
    · rfl
    · simp

instance : LawfulMonad (Exec σ) :=
  LawfulMonad.mk' _ Exec.bind_pure Exec.pure_bind Exec.bind_assoc

/-- Stop with a fault. -/
@[always_inline, inline]
def fail (fault : Fault) : Exec σ α := fun s ↦ ⟨.error fault, s, #[]⟩

/-- Go on with a value, or stop with a fault. -/
@[always_inline, inline]
def ofExcept (result : Except Fault α) : Exec σ α := fun s ↦ ⟨result, s, #[]⟩

/-- Look at the state. -/
@[always_inline, inline]
def gets (f : σ → α) : Exec σ α := fun s ↦ ⟨.ok (f s), s, #[]⟩

/-- Change the state. -/
@[always_inline, inline]
def modify (f : σ → σ) : Exec σ Unit := fun s ↦ ⟨.ok (), f s, #[]⟩

/-- Leave a record. -/
@[always_inline, inline]
def emit (record : Record) : Exec σ Unit := fun s ↦ ⟨.ok (), s, #[record]⟩

/-- Report a notice. -/
@[always_inline, inline]
def report (notice : Notice) : Exec σ Unit := emit (.notice notice)

end Exec

end DotMatrix
