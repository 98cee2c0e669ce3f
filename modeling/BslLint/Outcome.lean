/-!
What a computation over offsets comes to. Offsets and lengths are 64-bit numbers: a sum that does
not fit breaks off the whole computation, whereas an error only ends the step that met it. The two
are kept apart, so that a caller can recover from an error (`attempt`) and never from an abort.
-/

namespace BslLint

/-- Why a computation breaks off: a sum of offsets left the 64-bit range, or a text was to be cut at
an offset that is no boundary of it. -/
inductive Abort where
  | overflow
  | offBoundary
deriving DecidableEq, Repr

/-- A value, an error of kind `ε`, or the end of the whole computation. -/
inductive Outcome (ε : Type) (α : Type) where
  | ok (value : α)
  | error (cause : ε)
  | abort (cause : Abort)
deriving DecidableEq, Repr

/-- A computation that knows no error of its own and can only break off. -/
abbrev Checked (α : Type) := Outcome Empty α

namespace Outcome

def bind {ε α β : Type} (x : Outcome ε α) (f : α → Outcome ε β) : Outcome ε β :=
  match x with
  | .ok a => f a
  | .error e => .error e
  | .abort c => .abort c

instance {ε : Type} : Monad (Outcome ε) where
  pure := .ok
  bind := Outcome.bind

@[simp] theorem pure_eq {ε α : Type} (a : α) : (pure a : Outcome ε α) = .ok a := rfl

@[simp] theorem ok_bind {ε α β : Type} (a : α) (f : α → Outcome ε β) :
    (Outcome.ok a >>= f) = f a := rfl

@[simp] theorem error_bind {ε α β : Type} (e : ε) (f : α → Outcome ε β) :
    (Outcome.error e >>= f) = .error e := rfl

@[simp] theorem abort_bind {ε α β : Type} (c : Abort) (f : α → Outcome ε β) :
    (Outcome.abort c >>= f) = .abort c := rfl

instance {ε : Type} : LawfulMonad (Outcome ε) where
  map_const := rfl
  id_map x := by cases x <;> rfl
  seqLeft_eq x y := by cases x <;> cases y <;> rfl
  seqRight_eq x y := by cases x <;> cases y <;> rfl
  pure_seq f x := by cases x <;> rfl
  bind_pure_comp f x := by cases x <;> rfl
  bind_map f x := by cases f <;> rfl
  pure_bind a f := rfl
  bind_assoc x f g := by cases x <;> rfl

def attempt {ε ε' α : Type} : Outcome ε α → Outcome ε' (Except ε α)
  | .ok a => .ok (.ok a)
  | .error e => .ok (.error e)
  | .abort c => .abort c

/-- A computation without errors, where errors are possible. -/
def lift {ε α : Type} : Checked α → Outcome ε α
  | .ok a => .ok a
  | .abort c => .abort c

/-- Runs a step over a list from left to right and collects the results. -/
def mapList {ε α β : Type} (f : α → Outcome ε β) : List α → Outcome ε (List β)
  | [] => .ok []
  | a :: rest => do
    let b ← f a
    let bs ← mapList f rest
    return b :: bs

/-- Runs a step over a list from left to right, each from the state that the last one left. -/
def foldList {ε α σ : Type} (f : σ → α → Outcome ε σ) (s : σ) : List α → Outcome ε σ
  | [] => .ok s
  | a :: rest => do foldList f (← f s a) rest

end Outcome

/-- Offsets stay below this bound, the number of 64-bit words. -/
def offsetLimit : Nat := 18446744073709551616

def addOffsets {ε : Type} (m n : Nat) : Outcome ε Nat :=
  if m + n < offsetLimit then .ok (m + n) else .abort .overflow

theorem addOffsets_of_lt {ε : Type} {m n : Nat} (h : m + n < offsetLimit) :
    (addOffsets m n : Outcome ε Nat) = .ok (m + n) := if_pos h

end BslLint
