import BslLint.Outcome
import Mathlib.Tactic.Common

/-!
Reasoning about outcomes: how a sequence of steps comes to a value, and what holds of the value of
a computation that cannot break off.

`Safe x P` says that `x` does not break off and that its value, if it has one, satisfies `P`. An
error is allowed, so that a step with errors stays safe until it is asked for its errors
(`Safe.attempt`); a computation without errors of its own is safe exactly when it has a value that
satisfies `P` (`safe_checked_iff`).
-/

namespace BslLint.Outcome

variable {ε ε' α β σ : Type}

lemma bind_eq_ok_iff {x : Outcome ε α} {f : α → Outcome ε β} {b : β} :
    (x >>= f) = .ok b ↔ ∃ a, x = .ok a ∧ f a = .ok b := by
  cases x <;> simp

/-- The computation has a value. -/
def Succeeds (x : Outcome ε α) : Prop := ∃ a, x = .ok a

instance (x : Outcome ε α) : Decidable x.Succeeds :=
  match x with
  | .ok a => isTrue ⟨a, rfl⟩
  | .error _ => isFalse nofun
  | .abort _ => isFalse nofun

lemma bind_ne_error {x : Outcome ε α} {f : α → Outcome ε β} {e : ε} (hx : x ≠ .error e)
    (hf : ∀ a, f a ≠ .error e) : (x >>= f) ≠ .error e := by
  cases x with
  | ok a => exact hf a
  | error e' => simpa using hx
  | abort c => simp

lemma addOffsets_eq_ok_iff {m n k : Nat} :
    (addOffsets m n : Outcome ε Nat) = .ok k ↔ m + n < offsetLimit ∧ k = m + n := by
  unfold addOffsets
  split <;> simp [*, eq_comm]

lemma addOffsets_ne_error {m n : Nat} {e : ε} : (addOffsets m n : Outcome ε Nat) ≠ .error e := by
  unfold addOffsets
  split <;> simp

lemma attempt_cases {x : Outcome ε α} {r : Except ε α}
    (h : (x.attempt : Outcome ε' (Except ε α)) = .ok r) :
    (∃ a, x = .ok a ∧ r = .ok a) ∨ ∃ e, x = .error e ∧ r = .error e := by
  cases x with
  | ok a =>
    cases h
    exact Or.inl ⟨a, rfl, rfl⟩
  | error e =>
    cases h
    exact Or.inr ⟨e, rfl, rfl⟩
  | abort c => cases h

lemma mapList_unit_eq_ok_iff {f : α → Outcome ε Unit} {l : List α} :
    (∃ us, mapList f l = .ok us) ↔ ∀ a ∈ l, f a = .ok () := by
  induction l with
  | nil => simp [mapList]
  | cons a l ih =>
    simp only [mapList, bind_eq_ok_iff, pure_eq, List.forall_mem_cons, ← ih]
    constructor
    · rintro ⟨us, ⟨⟩, ha, vs, hvs, -⟩
      exact ⟨ha, vs, hvs⟩
    · rintro ⟨ha, vs, hvs⟩
      exact ⟨() :: vs, (), ha, vs, hvs, rfl⟩

lemma mapList_of_forall {f : α → Outcome ε β} {g : α → β} {l : List α}
    (h : ∀ a ∈ l, f a = .ok (g a)) : mapList f l = .ok (l.map g) := by
  induction l with
  | nil => rfl
  | cons a l ih =>
    obtain ⟨ha, hl⟩ := List.forall_mem_cons.1 h
    rw [mapList, ha, ok_bind, ih hl]
    rfl

@[simp] lemma foldList_nil (f : σ → α → Outcome ε σ) (s : σ) : foldList f s [] = .ok s := rfl

@[simp] lemma foldList_cons (f : σ → α → Outcome ε σ) (s : σ) (a : α) (l : List α) :
    foldList f s (a :: l) = f s a >>= fun s' => foldList f s' l := rfl

lemma foldList_append (f : σ → α → Outcome ε σ) (s : σ) (l m : List α) :
    foldList f s (l ++ m) = foldList f s l >>= fun s' => foldList f s' m := by
  induction l generalizing s with
  | nil => rfl
  | cons a l ih => simp only [List.cons_append, foldList_cons, ih, bind_assoc]

lemma foldList_ne_error {f : σ → α → Outcome ε σ} {e : ε} (hf : ∀ s a, f s a ≠ .error e) {s : σ}
    {l : List α} : foldList f s l ≠ .error e := by
  induction l generalizing s with
  | nil => simp
  | cons a l ih =>
    rw [foldList_cons]
    exact bind_ne_error (hf s a) fun _ => ih

/-! ### Safety -/

/-- The computation does not break off, and its value, if it has one, has the property. -/
def Safe (x : Outcome ε α) (P : α → Prop) : Prop :=
  match x with
  | .ok a => P a
  | .error _ => True
  | .abort _ => False

@[simp] lemma safe_ok {a : α} {P : α → Prop} : Safe (.ok a : Outcome ε α) P ↔ P a := Iff.rfl

@[simp] lemma safe_error {e : ε} {P : α → Prop} : Safe (.error e : Outcome ε α) P ↔ True := Iff.rfl

@[simp] lemma safe_abort {c : Abort} {P : α → Prop} :
    Safe (.abort c : Outcome ε α) P ↔ False := Iff.rfl

lemma Safe.bind {x : Outcome ε α} {f : α → Outcome ε β} {P : α → Prop} {Q : β → Prop}
    (hx : Safe x P) (hf : ∀ a, P a → Safe (f a) Q) : Safe (x >>= f) Q := by
  cases x with
  | ok a => exact hf a hx
  | error e => trivial
  | abort c => exact hx

lemma Safe.mono {x : Outcome ε α} {P Q : α → Prop} (hx : Safe x P) (h : ∀ a, P a → Q a) :
    Safe x Q := by
  cases x with
  | ok a => exact h a hx
  | error e => trivial
  | abort c => exact hx

lemma Safe.attempt {x : Outcome ε α} {P : α → Prop} (hx : Safe x P) :
    Safe (x.attempt : Outcome ε' (Except ε α)) fun r => ∀ a, r = .ok a → P a := by
  cases x with
  | ok a =>
    rintro b ⟨⟩
    exact hx
  | error e => simp [Outcome.attempt]
  | abort c => exact hx

lemma Safe.foldList {f : σ → α → Outcome ε σ} {I : σ → Prop} {l : List α}
    (hf : ∀ s, I s → ∀ a ∈ l, Safe (f s a) I) {s : σ} (hs : I s) :
    Safe (Outcome.foldList f s l) I := by
  induction l generalizing s with
  | nil => exact hs
  | cons a l ih =>
    rw [foldList_cons]
    refine Safe.bind (hf s hs a (by simp)) fun s' hs' => ?_
    exact ih (fun s hs b hb => hf s hs b (by simp [hb])) hs'

lemma safe_checked_iff {x : Checked α} {P : α → Prop} :
    Safe x P ↔ ∃ a, x = .ok a ∧ P a := by
  cases x with
  | ok a => simp
  | error e => exact e.elim
  | abort c => simp

end BslLint.Outcome
