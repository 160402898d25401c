/-
  Cyclic redundancy checks in the reflected form that serial links use: a shift register of `w` bits
  that takes a message bit by bit, lowest bit of every word first.

  The register is linear and forgets nothing, which gives the table method, the detection of every
  burst error of at most `w` bits, and the constant that a receiver finds behind an intact message.
-/
import Mathlib.Data.List.GetD

namespace CLib
namespace Crc

section

variable {w : Nat} (poly : BitVec w)

/-- One bit into the register: the register moves towards its low end, and the polynomial is added
    when the bit that falls out differs from the one that comes in. -/
def step (s : BitVec w) (b : Bool) : BitVec w :=
  (s >>> 1) ^^^ (if s.getLsbD 0 ^^ b then poly else 0#w)

/-- The register after `bits`. -/
def run (s : BitVec w) (bits : List Bool) : BitVec w := bits.foldl (step poly) s

/-- The register after `n` zero bits. -/
def shift (n : Nat) (s : BitVec w) : BitVec w := run poly s (List.replicate n false)

/-- The bits of a word in the order in which they enter, the lowest one first. -/
def bits {n : Nat} (x : BitVec n) : List Bool := (List.range n).map x.getLsbD

/-- The word whose low end is `bs`. -/
def word (w : Nat) : List Bool → BitVec w
  | [] => 0#w
  | b :: bs => (word w bs <<< 1) ^^^ (if b then 1#w else 0#w)

@[simp] theorem run_nil (s : BitVec w) : run poly s [] = s := rfl

@[simp] theorem run_cons (s : BitVec w) (b : Bool) (bs : List Bool) :
    run poly s (b :: bs) = run poly (step poly s b) bs := rfl

theorem run_append (s : BitVec w) (u v : List Bool) :
    run poly s (u ++ v) = run poly (run poly s u) v :=
  List.foldl_append

@[simp] theorem shift_zero (s : BitVec w) : shift poly 0 s = s := rfl

theorem shift_succ (n : Nat) (s : BitVec w) :
    shift poly (n + 1) s = shift poly n (step poly s false) := rfl

@[simp] theorem bits_length {n : Nat} (x : BitVec n) : (bits x).length = n := by
  simp [bits]

/-! ## The register is linear -/

theorem step_xor (s t : BitVec w) (a b : Bool) :
    step poly (s ^^^ t) (a ^^ b) = step poly s a ^^^ step poly t b := by
  apply BitVec.eq_of_getLsbD_eq
  intro i hi
  unfold step
  simp only [BitVec.getLsbD_xor, BitVec.getLsbD_ushiftRight]
  cases s.getLsbD 0 <;> cases t.getLsbD 0 <;> cases a <;> cases b <;>
    cases s.getLsbD (1 + i) <;> cases t.getLsbD (1 + i) <;> cases poly.getLsbD i <;> simp

theorem shift_xor (n : Nat) (s t : BitVec w) :
    shift poly n (s ^^^ t) = shift poly n s ^^^ shift poly n t := by
  induction n generalizing s t with
  | zero => rfl
  | succ n ih =>
    have h : step poly (s ^^^ t) false = step poly s false ^^^ step poly t false :=
      step_xor poly s t false false
    rw [shift_succ, h, ih]
    rfl

/-- A register whose low `n` bits are zero only moves. -/
theorem shift_high (n : Nat) (s : BitVec w) (h : ∀ i, i < n → s.getLsbD i = false) :
    shift poly n s = s >>> n := by
  induction n generalizing s with
  | zero => simp
  | succ n ih =>
    have h0 : step poly s false = s >>> 1 := by
      unfold step
      rw [h 0 (Nat.succ_pos n)]
      simp
    rw [shift_succ, h0, ih]
    · rw [← BitVec.shiftRight_add, Nat.add_comm]
    · intro i hi
      rw [BitVec.getLsbD_ushiftRight]
      exact h (1 + i) (by omega)

/-! ## Up to `w` bits can wait in the register -/

theorem word_getLsbD (bs : List Bool) (i : Nat) (hi : i < w) :
    (word w bs).getLsbD i = bs.getD i false := by
  induction bs generalizing i with
  | nil => simp [word]
  | cons b bs ih =>
    simp only [word, BitVec.getLsbD_xor, BitVec.getLsbD_shiftLeft]
    cases i with
    | zero => cases b <;> simp [hi]
    | succ i =>
      have h := ih i (by omega)
      cases b <;> simp [hi, h]

/-- Feeding at most `w` bits is adding them to the register and feeding zeros. -/
theorem run_word (s : BitVec w) (bs : List Bool) (h : bs.length ≤ w) :
    run poly s bs = shift poly bs.length (s ^^^ word w bs) := by
  induction bs generalizing s with
  | nil => simp [word]
  | cons b bs ih =>
    have hw : 0 < w := by
      rw [List.length_cons] at h
      omega
    have hlen : bs.length < w := h
    have hstep : step poly (s ^^^ word w (b :: bs)) false = step poly s b ^^^ word w bs := by
      apply BitVec.eq_of_getLsbD_eq
      intro i hi
      have hword : (word w (b :: bs)).getLsbD (1 + i) = (word w bs).getLsbD i := by
        rcases Nat.lt_or_ge (1 + i) w with hlt | hge
        · rw [word_getLsbD _ _ hlt, word_getLsbD _ _ hi, Nat.add_comm, List.getD_cons_succ]
        · rw [BitVec.getLsbD_of_ge _ _ hge, word_getLsbD _ _ hi,
            List.getD_eq_default bs false (by omega)]
      have hbit : (word w (b :: bs)).getLsbD 0 = b := by
        rw [word_getLsbD _ _ hw, List.getD_cons_zero]
      simp only [step, BitVec.getLsbD_xor, BitVec.getLsbD_ushiftRight, hword, hbit, Bool.xor_false,
        Bool.xor_assoc]
      congr 1
      exact Bool.xor_comm _ _
    rw [run_cons, ih _ (Nat.le_of_lt hlen), List.length_cons, shift_succ, hstep]

theorem bits_getD {n : Nat} (x : BitVec n) (i : Nat) : (bits x).getD i false = x.getLsbD i := by
  rw [bits, List.getD_eq_getElem?_getD, List.getElem?_map]
  rcases Nat.lt_or_ge i n with hi | hi
  · rw [List.getElem?_range hi]
    rfl
  · rw [List.getElem?_eq_none (by simpa using hi), BitVec.getLsbD_of_ge _ _ hi]
    rfl

theorem word_bits {n : Nat} (x : BitVec n) : word w (bits x) = x.setWidth w := by
  apply BitVec.eq_of_getLsbD_eq
  intro i hi
  rw [word_getLsbD _ _ hi, bits_getD, BitVec.getLsbD_setWidth]
  simp [hi]

theorem bits_injective {n : Nat} {x y : BitVec n} (h : bits x = bits y) : x = y := by
  apply BitVec.eq_of_getLsbD_eq
  intro i _
  rw [← bits_getD, ← bits_getD, h]

/-- A word is sent low part first. -/
theorem bits_append {m n : Nat} (hi : BitVec m) (lo : BitVec n) :
    bits (hi ++ lo) = bits lo ++ bits hi := by
  apply List.ext_getElem?
  intro i
  rcases Nat.lt_or_ge i n with hlo | hlo
  · rw [List.getElem?_append_left (by simpa using hlo)]
    simp [bits, hlo, Nat.lt_add_left m hlo, BitVec.getLsbD_append, - BitVec.getLsbD_eq_getElem]
  · rw [List.getElem?_append_right (by simpa using hlo), bits_length]
    rcases Nat.lt_or_ge i (m + n) with hmn | hmn
    · simp [bits, hmn, show i - n < m by omega, BitVec.getLsbD_append, Nat.not_lt.mpr hlo,
        - BitVec.getLsbD_eq_getElem]
    · rw [List.getElem?_eq_none (by simpa using hmn), List.getElem?_eq_none (by simp; omega)]

theorem word_injective {u v : List Bool} (hl : u.length = v.length) (hu : u.length ≤ w)
    (h : word w u = word w v) : u = v := by
  apply List.ext_getElem hl
  intro i hi hi'
  have hget : (word w u).getLsbD i = (word w v).getLsbD i := by rw [h]
  rwa [word_getLsbD _ _ (by omega), word_getLsbD _ _ (by omega), List.getD_eq_getElem u _ hi,
    List.getD_eq_getElem v _ hi'] at hget

/-- `n` bits at a time with a table of `2 ^ n` entries: the part of the register that falls out picks
    the entry. -/
theorem run_bits {n : Nat} (hn : n ≤ w) (s : BitVec w) (x : BitVec n) :
    run poly s (bits x) =
      (s >>> n) ^^^ shift poly n ((((s ^^^ x.setWidth w)).setWidth n).setWidth w) := by
  have hsplit : s ^^^ x.setWidth w =
      (s >>> n <<< n) ^^^ ((s ^^^ x.setWidth w).setWidth n).setWidth w := by
    apply BitVec.eq_of_getLsbD_eq
    intro i hi
    rcases Nat.lt_or_ge i n with hlo | hlo
    · simp [hi, hlo]
    · simp [hi, Nat.not_lt.mpr hlo, BitVec.getLsbD_of_ge x i hlo, Nat.add_sub_cancel' hlo]
  have hhigh : shift poly n (s >>> n <<< n) = s >>> n := by
    rw [shift_high]
    · apply BitVec.eq_of_getLsbD_eq
      intro i hi
      simp only [BitVec.getLsbD_ushiftRight, BitVec.getLsbD_shiftLeft, Nat.add_sub_cancel_left]
      rcases Nat.lt_or_ge (n + i) w with hlt | hge
      · simp [hlt]
      · simp [Nat.not_lt.mpr hge, BitVec.getLsbD_of_ge s _ hge]
    · intro i hi
      simp [hi]
  rw [run_word poly s _ (by simpa using hn), word_bits, bits_length,
    congrArg (shift poly n) hsplit, shift_xor, hhigh]

/-! ## Nothing is forgotten

  The polynomial has its highest bit set (the constant term of the usual notation), so the bit that
  falls out can be read off the register behind it. -/

theorem step_injective (hp : poly.getLsbD (w - 1) = true) {s t : BitVec w} {b : Bool}
    (h : step poly s b = step poly t b) : s = t := by
  have hw : 0 < w := by
    rcases Nat.eq_zero_or_pos w with h0 | h0
    · subst h0
      rw [BitVec.getLsbD_of_ge _ _ (Nat.le_refl _)] at hp
      cases hp
    · exact h0
  have hbit : ∀ (x : BitVec w), (step poly x b).getLsbD (w - 1) = (x.getLsbD 0 ^^ b) := by
    intro x
    unfold step
    rw [BitVec.getLsbD_xor, BitVec.getLsbD_ushiftRight, BitVec.getLsbD_of_ge _ _ (by omega)]
    cases x.getLsbD 0 ^^ b <;> simp [hp]
  have h0 : s.getLsbD 0 = t.getLsbD 0 := by
    have hx := hbit s
    rw [h, hbit t] at hx
    cases hs : s.getLsbD 0 <;> cases ht : t.getLsbD 0 <;> cases b <;> simp_all
  have hshift : s >>> 1 = t >>> 1 := by
    unfold step at h
    rw [h0] at h
    exact (BitVec.xor_left_inj _).mp h
  apply BitVec.eq_of_getLsbD_eq
  intro i hi
  cases i with
  | zero => exact h0
  | succ i =>
    have hi' : (s >>> 1).getLsbD i = (t >>> 1).getLsbD i := by rw [hshift]
    rwa [BitVec.getLsbD_ushiftRight, BitVec.getLsbD_ushiftRight, Nat.add_comm] at hi'

theorem run_injective (hp : poly.getLsbD (w - 1) = true) (bs : List Bool) {s t : BitVec w}
    (h : run poly s bs = run poly t bs) : s = t := by
  induction bs generalizing s t with
  | nil => exact h
  | cons b bs ih => exact step_injective poly hp (ih h)

/-- The register tells apart any two inputs of one length up to `w`. -/
theorem run_input_injective (hp : poly.getLsbD (w - 1) = true) (s : BitVec w) {u v : List Bool}
    (hl : u.length = v.length) (hu : u.length ≤ w) (h : run poly s u = run poly s v) : u = v := by
  rw [run_word poly s u hu, run_word poly s v (hl ▸ hu), ← hl] at h
  have hx := run_injective poly hp _ h
  exact word_injective hl hu ((BitVec.xor_right_inj _).mp hx)

def residue : BitVec w := shift poly w (BitVec.allOnes w)

theorem run_complement (s : BitVec w) : run poly s (bits (~~~s)) = residue poly := by
  have hx : s ^^^ ~~~s = BitVec.allOnes w := by
    apply BitVec.eq_of_getLsbD_eq
    intro i hi
    simp [hi]
  rw [run_word poly s _ (Nat.le_of_eq (bits_length _)), word_bits, BitVec.setWidth_eq, bits_length, hx]
  rfl

theorem run_eq_residue_iff (hp : poly.getLsbD (w - 1) = true) (s : BitVec w) {u : List Bool}
    (hu : u.length = w) : run poly s u = residue poly ↔ u = bits (~~~s) := by
  constructor
  · intro h
    rw [← run_complement poly s] at h
    exact run_input_injective poly hp s (by rw [hu, bits_length]) (Nat.le_of_eq hu) h
  · rintro rfl
    exact run_complement poly s

end

end Crc
end CLib
