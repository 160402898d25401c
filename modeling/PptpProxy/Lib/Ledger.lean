/-
  A ledger of handles: a table of holders, the set of live handles, and the books of every handle
  ever taken and ever given back.

  `Ledger` is the invariant of a table that neither leaks a handle nor gives one back twice:
  live handles and table entries are in bijection, and every handle was given back as often as it
  was taken, apart from the one time it is held now.  Handles may be REUSED: the same value can be
  taken again once it has been given back, which is what makes the books a count and not a set.

  The rules cover what a holder can do: keep (`keep`), take a free handle (`take`), give one back
  (`release`), or take one and give it back without ever entering it (`pass`).

  `sum_change` is for tables of AMOUNTS: what one entry does to the total.
-/
import Mathlib.Algebra.BigOperators.Group.Finset.Basic
import Mathlib.Data.List.Basic
import Mathlib.Logic.Function.Basic

namespace Books

variable {ι α : Type} [DecidableEq ι] [DecidableEq α]

/-- The table `hold` and the books agree. -/
structure Ledger (hold : ι → Option α) (live taken given : List α) : Prop where
  isLive : ∀ i x, hold i = some x → x ∈ live
  holder : ∀ x ∈ live, ∃ i, hold i = some x
  unique : ∀ i j x, hold i = some x → hold j = some x → i = j
  nodup : live.Nodup
  balance : ∀ x, taken.count x = given.count x + live.count x

variable {hold : ι → Option α} {live taken given : List α}

omit [DecidableEq ι] in
theorem Ledger.empty : Ledger (fun _ : ι => (none : Option α)) [] [] [] :=
  ⟨fun _ _ h => (by cases h), fun _ h => (by cases h), fun _ _ _ h => (by cases h), .nil,
    fun _ => rfl⟩

/-- A holder that keeps what it has. -/
theorem Ledger.keep (h : Ledger hold live taken given) {i : ι} {v : Option α} (hv : v = hold i) :
    Ledger (Function.update hold i v) live taken given := by
  rw [hv, Function.update_eq_self]
  exact h

/-- A free holder takes a handle that is not live. -/
theorem Ledger.take (h : Ledger hold live taken given) {i : ι} {x : α} (hi : hold i = none)
    (hx : x ∉ live) :
    Ledger (Function.update hold i (some x)) (x :: live) (x :: taken) given := by
  -- a handle somebody else holds is live, hence not `x`
  have hother : ∀ j y, hold j = some y → j ≠ i ∧ y ≠ x := by
    intro j y hj
    refine ⟨?_, ?_⟩
    · rintro rfl
      rw [hi] at hj
      cases hj
    · rintro rfl
      exact hx (h.isLive j y hj)
  have hcases : ∀ j y, Function.update hold i (some x) j = some y →
      (j = i ∧ y = x) ∨ (j ≠ i ∧ hold j = some y) := by
    intro j y hj
    by_cases hji : j = i
    · subst hji
      rw [Function.update_self] at hj
      exact Or.inl ⟨rfl, (Option.some.inj hj).symm⟩
    · rw [Function.update_of_ne hji] at hj
      exact Or.inr ⟨hji, hj⟩
  refine ⟨?_, ?_, ?_, List.nodup_cons.mpr ⟨hx, h.nodup⟩, ?_⟩
  · intro j y hj
    rcases hcases j y hj with ⟨-, rfl⟩ | ⟨-, hj⟩
    · exact List.mem_cons_self
    · exact List.mem_cons_of_mem x (h.isLive j y hj)
  · intro y hy
    rcases List.mem_cons.mp hy with rfl | hy
    · exact ⟨i, Function.update_self ..⟩
    · obtain ⟨j, hj⟩ := h.holder y hy
      exact ⟨j, by rw [Function.update_of_ne (hother j y hj).1]; exact hj⟩
  · intro j k y hj hk
    rcases hcases j y hj with ⟨rfl, hyx⟩ | ⟨-, hj'⟩
    · rcases hcases k y hk with ⟨rfl, -⟩ | ⟨-, hk'⟩
      · rfl
      · exact absurd hyx (hother k y hk').2
    · rcases hcases k y hk with ⟨-, hyx⟩ | ⟨-, hk'⟩
      · exact absurd hyx (hother j y hj').2
      · exact h.unique j k y hj' hk'
  · intro y
    have := h.balance y
    rw [List.count_cons, List.count_cons]
    omega

/-- A holder gives its handle back. -/
theorem Ledger.release (h : Ledger hold live taken given) {i : ι} {x : α} (hi : hold i = some x) :
    Ledger (Function.update hold i none) (live.erase x) taken (x :: given) := by
  have hcases : ∀ j y, Function.update hold i none j = some y → j ≠ i ∧ hold j = some y := by
    intro j y hj
    by_cases hji : j = i
    · subst hji
      rw [Function.update_self] at hj
      cases hj
    · rw [Function.update_of_ne hji] at hj
      exact ⟨hji, hj⟩
  refine ⟨?_, ?_, ?_, h.nodup.erase x, ?_⟩
  · intro j y hj
    obtain ⟨hji, hj⟩ := hcases j y hj
    have hyx : y ≠ x := by
      rintro rfl
      exact hji (h.unique j i y hj hi)
    exact (List.mem_erase_of_ne hyx).mpr (h.isLive j y hj)
  · intro y hy
    obtain ⟨j, hj⟩ := h.holder y (List.mem_of_mem_erase hy)
    have hji : j ≠ i := by
      rintro rfl
      obtain rfl : x = y := Option.some.inj (hi.symm.trans hj)
      exact h.nodup.not_mem_erase hy
    exact ⟨j, by rw [Function.update_of_ne hji]; exact hj⟩
  · intro j k y hj hk
    exact h.unique j k y (hcases j y hj).2 (hcases k y hk).2
  · intro y
    have hb := h.balance y
    by_cases hyx : y = x
    · subst hyx
      have hpos : 0 < live.count y := List.count_pos_iff.mpr (h.isLive i y hi)
      rw [List.count_cons_self, List.count_erase_self]
      omega
    · rw [List.count_cons_of_ne (fun he => hyx he.symm), List.count_erase_of_ne hyx]
      exact hb

omit [DecidableEq ι] in
/-- A handle that is taken and given back at once is never entered. -/
theorem Ledger.pass (h : Ledger hold live taken given) (x : α) :
    Ledger hold ((x :: live).erase x) (x :: taken) (x :: given) := by
  rw [List.erase_cons_head]
  refine ⟨h.isLive, h.holder, h.unique, h.nodup, ?_⟩
  intro y
  have := h.balance y
  rw [List.count_cons, List.count_cons]
  omega

/-- The total of a table when one entry changes. -/
theorem sum_change [Fintype ι] {f g : ι → Nat} {i : ι} (h : ∀ j, j ≠ i → g j = f j) :
    ∑ j, g j + f i = ∑ j, f j + g i := by
  have hf := Finset.sum_erase_add Finset.univ f (Finset.mem_univ i)
  have hg := Finset.sum_erase_add Finset.univ g (Finset.mem_univ i)
  have hrest : ∑ j ∈ Finset.univ.erase i, g j = ∑ j ∈ Finset.univ.erase i, f j :=
    Finset.sum_congr rfl fun j hj => h j (Finset.ne_of_mem_erase hj)
  omega

end Books
