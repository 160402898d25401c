/-
  Byte stuffing: contents between flags on a line that reserves some symbols.

  The sender puts an escape in front of the symbols of `out` and transforms them; the receiver knows
  the symbols of `inn` as special, undoes an escape, and drops the other special ones as noise of the
  line.  Contents come back unchanged when the sender escapes at least what the receiver takes for
  special.
-/
import Mathlib.Data.List.Basic

namespace CLib

universe u

/-- The reserved symbols of a line and the transformation under an escape. -/
structure Stuffing (α : Type u) where
  esc : α
  flag : α
  trans : α → α
  trans_trans : ∀ x, trans (trans x) = x

namespace Stuffing

section

variable {α : Type u} (f : Stuffing α)

/-- One symbol on the line. -/
def stuffOne (out : α → Bool) (x : α) : List α := if out x then [f.esc, f.trans x] else [x]

/-- Contents on the line. -/
def stuff (out : α → Bool) (xs : List α) : List α := xs.flatMap (f.stuffOne out)

@[simp] theorem stuff_nil (out : α → Bool) : f.stuff out [] = [] := rfl

@[simp] theorem stuff_cons (out : α → Bool) (x : α) (xs : List α) :
    f.stuff out (x :: xs) = f.stuffOne out x ++ f.stuff out xs := List.flatMap_cons

theorem stuff_append (out : α → Bool) (xs ys : List α) :
    f.stuff out (xs ++ ys) = f.stuff out xs ++ f.stuff out ys := List.flatMap_append

/-- No flag inside. -/
theorem flag_notMem_stuff {out : α → Bool} (hflag : out f.flag = true) (hesc : f.esc ≠ f.flag)
    (htrans : out (f.trans f.flag) = false) (xs : List α) : f.flag ∉ f.stuff out xs := by
  intro hmem
  obtain ⟨x, -, hx⟩ := List.mem_flatMap.mp hmem
  unfold stuffOne at hx
  by_cases hout : out x = true
  · rw [if_pos hout] at hx
    rcases List.mem_cons.mp hx with h | h
    · exact hesc h.symm
    · have hx' : x = f.trans f.flag := by
        rw [List.mem_singleton.mp h, f.trans_trans]
      rw [hx', htrans] at hout
      exact Bool.false_ne_true hout
  · rw [if_neg hout] at hx
    rw [List.mem_singleton.mp hx] at hflag
    exact hout hflag

variable [DecidableEq α]

/-- What a receiver makes of flag-free input; `e` says that an escape is pending. -/
def unstuff (inn : α → Bool) : Bool → List α → List α
  | _, [] => []
  | e, x :: xs =>
    if inn x then unstuff inn (e || decide (x = f.esc)) xs
    else (if e then f.trans x else x) :: unstuff inn false xs

/-- Whether an escape is pending behind the input. -/
def pending (inn : α → Bool) : Bool → List α → Bool
  | e, [] => e
  | e, x :: xs =>
    if inn x then pending inn (e || decide (x = f.esc)) xs else pending inn false xs

/-- The sender escapes what the receiver takes for special, and escaped symbols are not special. -/
structure Covers (out inn : α → Bool) : Prop where
  esc : inn f.esc = true
  special : ∀ x, inn x = true → out x = true
  plain : ∀ x, out x = true → inn (f.trans x) = false

theorem unstuff_append (inn : α → Bool) (e : Bool) (xs ys : List α) :
    f.unstuff inn e (xs ++ ys) =
      f.unstuff inn e xs ++ f.unstuff inn (f.pending inn e xs) ys := by
  induction xs generalizing e with
  | nil => rfl
  | cons x xs ih =>
    by_cases hx : inn x = true
    · simp only [List.cons_append, unstuff, pending, if_pos hx, ih]
    · simp only [List.cons_append, unstuff, pending, if_neg hx, ih]

theorem pending_append (inn : α → Bool) (e : Bool) (xs ys : List α) :
    f.pending inn e (xs ++ ys) = f.pending inn (f.pending inn e xs) ys := by
  induction xs generalizing e with
  | nil => rfl
  | cons x xs ih =>
    by_cases hx : inn x = true
    · simp only [List.cons_append, pending, if_pos hx, ih]
    · simp only [List.cons_append, pending, if_neg hx, ih]

variable {f} {out inn : α → Bool}

theorem Covers.unstuff_stuffOne (h : f.Covers out inn) (x : α) (ys : List α) :
    f.unstuff inn false (f.stuffOne out x ++ ys) = x :: f.unstuff inn false ys := by
  by_cases hx : out x = true
  · have hplain : ¬ inn (f.trans x) = true := by
      rw [h.plain x hx]
      exact Bool.false_ne_true
    simp only [stuffOne, if_pos hx, List.cons_append, List.nil_append, unstuff, if_pos h.esc,
      if_neg hplain, Bool.false_or, decide_true, if_true, f.trans_trans]
  · have hspecial : ¬ inn x = true := fun hi => hx (h.special x hi)
    simp [stuffOne, hx, unstuff, hspecial]

/-- The round trip. -/
theorem Covers.unstuff_stuff (h : f.Covers out inn) (xs ys : List α) :
    f.unstuff inn false (f.stuff out xs ++ ys) = xs ++ f.unstuff inn false ys := by
  induction xs with
  | nil => rfl
  | cons x xs ih =>
    rw [stuff_cons, List.append_assoc, h.unstuff_stuffOne, ih]
    rfl

/-! ## Cutting at flags -/

/-- The contents that a flag has closed; `front` is the open one. -/
def frames (flag : α) (front : List α) : List α → List (List α)
  | [] => []
  | x :: xs => if x = flag then front :: frames flag [] xs else frames flag (front ++ [x]) xs

/-- The contents that no flag has closed. -/
def rest (flag : α) (front : List α) : List α → List α
  | [] => front
  | x :: xs => if x = flag then rest flag [] xs else rest flag (front ++ [x]) xs

theorem frames_append (flag : α) (front xs ys : List α) :
    frames flag front (xs ++ ys) =
      frames flag front xs ++ frames flag (rest flag front xs) ys := by
  induction xs generalizing front with
  | nil => rfl
  | cons x xs ih =>
    by_cases hx : x = flag
    · simp only [List.cons_append, frames, rest, if_pos hx, ih]
    · simp only [List.cons_append, frames, rest, if_neg hx, ih]

theorem rest_append (flag : α) (front xs ys : List α) :
    rest flag front (xs ++ ys) = rest flag (rest flag front xs) ys := by
  induction xs generalizing front with
  | nil => rfl
  | cons x xs ih =>
    by_cases hx : x = flag
    · simp only [List.cons_append, rest, if_pos hx, ih]
    · simp only [List.cons_append, rest, if_neg hx, ih]

theorem frames_flagFree {flag : α} (front : List α) {xs : List α} (h : flag ∉ xs) :
    frames flag front xs = [] ∧ rest flag front xs = front ++ xs := by
  induction xs generalizing front with
  | nil => exact ⟨rfl, (List.append_nil _).symm⟩
  | cons x xs ih =>
    have hx : x ≠ flag := fun he => h (he ▸ List.mem_cons_self)
    obtain ⟨hf, hr⟩ := ih (front ++ [x]) fun hm => h (List.mem_cons_of_mem x hm)
    simp only [frames, rest, if_neg hx, hf, hr, List.append_assoc, List.cons_append,
      List.nil_append, and_self]

/-- A flag closes what is open, whatever it is. -/
theorem frames_flag (flag : α) (front : List α) :
    frames flag front [flag] = [front] ∧ rest flag front [flag] = [] := by
  simp [frames, rest]

end

end Stuffing
end CLib
