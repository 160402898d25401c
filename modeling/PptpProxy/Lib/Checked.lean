/-
  C functions whose memory accesses are checked.

  A load behind the valid part of a buffer, a store into a buffer that is too small and a `size_t`
  subtraction below zero pass without a word in C.  Over the operations of this file each of them ends
  the run with a `Fault`.  To show a function safe, write it over them and show that it returns `.ok` of
  what the plain function computes.  Every operation has one rule that says when it succeeds; the rule
  of the counting loop takes an invariant.
-/
import Mathlib.Data.List.Basic

namespace CLib

universe u

/-- What C would have let pass. -/
inductive Fault
  /-- A load of `count` cells from `index` on, of a buffer with `length` valid ones. -/
  | load (index count length : Nat)
  /-- A store of `count` cells into a buffer of `capacity`. -/
  | store (count capacity : Nat)
  | underflow (a b : Nat)
  deriving DecidableEq, Repr

/-- The result of a checked run. -/
abbrev Checked (α : Type u) := Except Fault α

section

variable {α β : Type u}

@[simp] theorem ok_bind (x : α) (f : α → Checked β) : ((.ok x : Checked α) >>= f) = f x := rfl

/-- `b[i]`. -/
def load (b : List α) (i : Nat) : Checked α :=
  match b[i]? with
  | none => .error (.load i 1 b.length)
  | some x => .ok x

/-- `memcpy` out of `b`: the `count` cells from `offset` on. -/
def loadBlock (b : List α) (offset count : Nat) : Checked (List α) :=
  if b.length < offset + count then .error (.load offset count b.length)
  else .ok ((b.drop offset).take count)

/-- `memcpy` into a buffer of `capacity` cells, and a terminator behind it. -/
def storeString (capacity : Nat) (s : List α) : Checked (List α) :=
  if capacity < s.length + 1 then .error (.store (s.length + 1) capacity) else .ok s

/-- A `size_t` subtraction that is not meant to wrap around. -/
def subtract (a b : Nat) : Checked Nat :=
  if a < b then .error (.underflow a b) else .ok (a - b)

theorem load_ok {b : List α} {i : Nat} {x : α} (h : b[i]? = some x) : load b i = .ok x := by
  unfold load
  rw [h]

/-- One behind the end. -/
example : load [5, 1] 2 = (.error (.load 2 1 2) : Checked Nat) := rfl

theorem loadBlock_ok {b : List α} {offset count : Nat} (h : offset + count ≤ b.length) :
    loadBlock b offset count = .ok ((b.drop offset).take count) :=
  if_neg (Nat.not_lt.mpr h)

/-- The rest of a buffer is its tail. -/
theorem loadBlock_rest {b : List α} {offset : Nat} (h : offset ≤ b.length) :
    loadBlock b offset (b.length - offset) = .ok (b.drop offset) := by
  rw [loadBlock_ok (by omega), List.take_of_length_le (Nat.le_of_eq List.length_drop)]

theorem storeString_ok {capacity : Nat} {s : List α} (h : s.length < capacity) :
    storeString capacity s = .ok s :=
  if_neg (Nat.not_lt.mpr h)

theorem subtract_ok {a b : Nat} (h : b ≤ a) : subtract a b = .ok (a - b) :=
  if_neg (Nat.not_lt.mpr h)

end

/-! ## Loops -/

section

variable {σ : Type u} {f : Nat → σ → Checked σ}

/-- `for (; n > 0; --n, ++i)`: the body gets the index and the loop's state. -/
def loop (f : Nat → σ → Checked σ) : Nat → Nat → σ → Checked σ
  | 0, _, s => .ok s
  | n + 1, i, s => f i s >>= loop f n (i + 1)

/-- **The loop rule.**  A body that keeps the invariant without a fault makes a loop that does. -/
theorem loop_ok {P : Nat → σ → Prop} {n i : Nat} {s : σ} (hinit : P i s)
    (hbody : ∀ j t, i ≤ j → j < i + n → P j t → ∃ t', f j t = .ok t' ∧ P (j + 1) t') :
    ∃ s', loop f n i s = .ok s' ∧ P (i + n) s' := by
  induction n generalizing i s with
  | zero => exact ⟨s, rfl, hinit⟩
  | succ n ih =>
    obtain ⟨t, hstep, ht⟩ := hbody i s (Nat.le_refl i) (by omega) hinit
    obtain ⟨s', hrest, hs'⟩ := ih ht fun j u hij hj hu => hbody j u (by omega) (by omega) hu
    refine ⟨s', ?_, by rwa [show i + (n + 1) = i + 1 + n by omega]⟩
    rw [loop, hstep, ok_bind, hrest]

end

end CLib
