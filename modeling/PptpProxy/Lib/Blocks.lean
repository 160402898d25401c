/-
  Functions that take a message block by block, such as hash functions.

  `consume` feeds the full blocks of a message and keeps the rest.  A caller that feeds the message in
  pieces, holding the rest back each time, ends where it would have ended with the whole message.
-/
import Mathlib.Data.List.Basic

namespace CLib
namespace Blocks

universe u v

variable {α : Type u} {σ : Type v} (size : Nat) (process : σ → List α → σ)

/-- The full blocks of a message, in at most `fuel` turns, and what is left. -/
def consume : Nat → σ → List α → σ × List α
  | 0, s, xs => (s, xs)
  | fuel + 1, s, xs =>
    if size ≤ xs.length then consume fuel (process s (xs.take size)) (xs.drop size) else (s, xs)

/-- The full blocks of a message. -/
def feed (s : σ) (xs : List α) : σ × List α := consume size process xs.length s xs

theorem consume_short (fuel : Nat) (s : σ) {xs : List α} (h : xs.length < size) :
    consume size process fuel s xs = (s, xs) := by
  cases fuel with
  | zero => rfl
  | succ fuel => exact if_neg (Nat.not_le.mpr h)

section

variable (hsize : 0 < size)

include hsize

/-- More turns than there are blocks change nothing. -/
theorem consume_fuel (fuel fuel' : Nat) (s : σ) (xs : List α) (h : xs.length ≤ fuel)
    (h' : xs.length ≤ fuel') :
    consume size process fuel s xs = consume size process fuel' s xs := by
  induction fuel generalizing fuel' s xs with
  | zero =>
    have hlen : xs.length < size := by omega
    rw [consume_short size process 0 s hlen, consume_short size process fuel' s hlen]
  | succ fuel ih =>
    by_cases hfull : size ≤ xs.length
    · cases fuel' with
      | zero => omega
      | succ fuel' =>
        have hdrop : (xs.drop size).length ≤ xs.length - size := Nat.le_of_eq List.length_drop
        unfold consume
        rw [if_pos hfull, if_pos hfull]
        exact ih fuel' _ _ (by omega) (by omega)
    · have hlen : xs.length < size := Nat.not_le.mp hfull
      rw [consume_short size process _ s hlen, consume_short size process _ s hlen]

theorem feed_full (s : σ) {xs : List α} (h : size ≤ xs.length) :
    feed size process s xs = feed size process (process s (xs.take size)) (xs.drop size) := by
  obtain ⟨n, hn⟩ : ∃ n, xs.length = n + 1 := ⟨xs.length - 1, by omega⟩
  have hdrop : (xs.drop size).length ≤ n := by
    rw [List.length_drop]
    omega
  unfold feed
  rw [hn, consume, if_pos h]
  exact consume_fuel size process hsize n _ _ _ hdrop (Nat.le_refl _)

omit hsize in
theorem feed_short (s : σ) {xs : List α} (h : xs.length < size) : feed size process s xs = (s, xs) :=
  consume_short size process _ s h

/-- What is left is what the block size does not divide. -/
theorem feed_rest_length (s : σ) (xs : List α) :
    (feed size process s xs).2.length = xs.length % size := by
  induction hn : xs.length using Nat.strongRecOn generalizing s xs with
  | ind n ih =>
    by_cases hfull : size ≤ xs.length
    · rw [feed_full size process hsize s hfull,
        ih (xs.drop size).length (by rw [List.length_drop]; omega) _ _ rfl, List.length_drop,
        ← Nat.mod_eq_sub_mod hfull, hn]
    · rw [feed_short size process s (Nat.not_le.mp hfull), ← hn]
      exact (Nat.mod_eq_of_lt (Nat.not_le.mp hfull)).symm

/-- In pieces. -/
theorem feed_append (s : σ) (xs ys : List α) :
    feed size process s (xs ++ ys) =
      feed size process (feed size process s xs).1 ((feed size process s xs).2 ++ ys) := by
  induction hn : xs.length using Nat.strongRecOn generalizing s xs with
  | ind n ih =>
    by_cases hfull : size ≤ xs.length
    · have hfull' : size ≤ (xs ++ ys).length := by
        rw [List.length_append]
        omega
      rw [feed_full size process hsize s hfull, feed_full size process hsize s hfull',
        List.take_append_of_le_length hfull, List.drop_append_of_le_length hfull]
      exact ih (xs.drop size).length (by rw [List.length_drop]; omega) _ _ rfl
    · rw [feed_short size process s (Nat.not_le.mp hfull)]

end

end Blocks
end CLib
