/-
  Descent/Run.lean
  ================
  **Computations that keep a journal.**

  A run starts from a journal and has one of three outcomes: it returns a value,
  it raises a fault, or its fuel is exhausted.  The first two carry the journal as
  it stands at that moment, so what was recorded before a fault is not lost.

  Fuel is the price of totality.  A grammar may refer to itself without reading
  anything, and such a grammar has no answer; whatever recurses is therefore given
  a number of steps, and `exhausted` says that they were too few.  It is not an
  answer of the grammar, and more fuel may turn it into one.
-/
import Descent.Journal

namespace Descent

/-- How a computation ends. -/
inductive Outcome (α : Type) where
  | returned (value : α) (journal : Journal)
  | raised (fault : Fault) (journal : Journal)
  /-- Without an answer, for want of fuel. -/
  | exhausted
deriving Inhabited

/-- A computation that keeps a journal. -/
def Run (α : Type) : Type := Journal → Outcome α

namespace Run

@[inline] protected def pure {α : Type} (a : α) : Run α := fun j => .returned a j

/-- Goes on with the value, if there is one. -/
@[inline] protected def bind {α β : Type} (x : Run α) (f : α → Run β) : Run β := fun j =>
  match x j with
  | .returned a j' => f a j'
  | .raised fault j' => .raised fault j'
  | .exhausted => .exhausted

instance : Monad Run where
  pure := Run.pure
  bind := Run.bind

@[simp] theorem pure_apply {α : Type} (a : α) (j : Journal) :
    (pure a : Run α) j = .returned a j := rfl

theorem bind_apply {α β : Type} (x : Run α) (f : α → Run β) (j : Journal) :
    (x >>= f) j =
      match x j with
      | .returned a j' => f a j'
      | .raised fault j' => .raised fault j'
      | .exhausted => .exhausted := rfl

theorem bind_pure_self {α : Type} (x : Run α) : (x >>= pure) = x := by
  funext j
  rw [bind_apply]
  cases x j <;> rfl

theorem bind_bind {α β γ : Type} (x : Run α) (f : α → Run β) (g : β → Run γ) :
    (x >>= f) >>= g = x >>= fun a => f a >>= g := by
  funext j
  simp only [bind_apply]
  cases x j <;> rfl

instance : LawfulMonad Run :=
  LawfulMonad.mk' Run bind_pure_self (fun _ _ => rfl) bind_bind

def raise {α : Type} (fault : Fault) : Run α := fun j => .raised fault j

/-- Has no answer, for want of fuel. -/
def exhausted {α : Type} : Run α := fun _ => .exhausted

/-- Whether the library is logging, at this moment. -/
def debugging : Run Bool := fun j => .returned j.debug j

def write (line : String) : Run Unit := fun j => .returned () (j.write line)

/-- Writes a line to the log if the library is logging at this moment. -/
@[inline] def debugLine (line : String) : Run Unit := do
  if ← debugging then write line else pure ()

end Run

/-- Lets a user function act on the journal. -/
def Response.run {α : Type} (r : Response α) : Run α := fun j =>
  match r.outcome with
  | .ok a => .returned a (j.performAll r.effects)
  | .error fault => .raised fault (j.performAll r.effects)

end Descent
