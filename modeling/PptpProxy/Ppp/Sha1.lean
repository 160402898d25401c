/-
  `polarssl/sha1.c`, the digest that MPPE keys are derived with.

  `unsigned long` has 64 bits here, of which the code keeps the lower 32 meaningful.  A digest is
  computed in pieces (`sha1_starts`, `sha1_update` for each, `sha1_finish`); it is the digest of the whole.
-/
import PptpProxy.Lib.Blocks
import PptpProxy.Lib.CString

namespace PptpProxy.Ppp

open CLib

/-- `state` of `sha1_context`. -/
structure Sha1State where
  a : BitVec 64
  b : BitVec 64
  c : BitVec 64
  d : BitVec 64
  e : BitVec 64
  deriving DecidableEq, Repr

/-- `GET_ULONG_BE`. -/
def getUlongBe (b : Bytes) (i : Nat) : BitVec 64 :=
  ((b.getD i 0).toBitVec.setWidth 64 <<< 24) ||| ((b.getD (i + 1) 0).toBitVec.setWidth 64 <<< 16) |||
    ((b.getD (i + 2) 0).toBitVec.setWidth 64 <<< 8) ||| (b.getD (i + 3) 0).toBitVec.setWidth 64

/-- `PUT_ULONG_BE`. -/
def putUlongBe (n : BitVec 64) : Bytes :=
  [⟨(n >>> 24).setWidth 8⟩, ⟨(n >>> 16).setWidth 8⟩, ⟨(n >>> 8).setWidth 8⟩, ⟨n.setWidth 8⟩]

/-- `S(x,n)`. -/
def sha1S (x : BitVec 64) (n : Nat) : BitVec 64 := (x <<< n) ||| ((x &&& 0xFFFFFFFF) >>> (32 - n))

/-- `F`, which is defined four times. -/
def sha1F (t : Nat) (x y z : BitVec 64) : BitVec 64 :=
  if t < 20 then z ^^^ (x &&& (y ^^^ z))
  else if t < 40 then x ^^^ y ^^^ z
  else if t < 60 then (x &&& y) ||| (z &&& (x ||| y))
  else x ^^^ y ^^^ z

/-- `K`. -/
def sha1K (t : Nat) : BitVec 64 :=
  if t < 20 then 0x5A827999 else if t < 40 then 0x6ED9EBA1 else if t < 60 then 0x8F1BBCDC
  else 0xCA62C1D6

/-- `R(t)` from the seventeenth round on, and `W[t]` before. -/
def sha1R (w : List (BitVec 64)) (t : Nat) : BitVec 64 × List (BitVec 64) :=
  if t < 16 then (w.getD t 0, w)
  else
    let temp := w.getD ((t - 3) % 16) 0 ^^^ w.getD ((t - 8) % 16) 0 ^^^ w.getD ((t - 14) % 16) 0 ^^^
      w.getD (t % 16) 0
    (sha1S temp 1, w.set (t % 16) (sha1S temp 1))

/-- The rounds from `t` on, `n` of them; what `P` does by renaming its arguments is done by moving the
    values. -/
def sha1Rounds (w : List (BitVec 64)) (s : Sha1State) (t : Nat) : Nat → Sha1State
  | 0 => s
  | n + 1 =>
    let (x, w) := sha1R w t
    sha1Rounds w
      ⟨s.e + (sha1S s.a 5 + sha1F t s.b s.c s.d + sha1K t + x), s.a, sha1S s.b 30, s.c, s.d⟩ (t + 1) n

/-- `sha1_process`. -/
def sha1Process (s : Sha1State) (data : Bytes) : Sha1State :=
  let w := (List.range 16).map fun i => getUlongBe data (4 * i)
  let r := sha1Rounds w s 0 80
  ⟨s.a + r.a, s.b + r.b, s.c + r.c, s.d + r.d, s.e + r.e⟩

/-- `sha1_context`. -/
structure Sha1Context where
  total0 : BitVec 64
  total1 : BitVec 64
  state : Sha1State
  buffer : Bytes
  deriving DecidableEq, Repr

/-- `sha1_starts`; the buffer is not initialised. -/
def sha1Starts (buffer : Bytes) : Sha1Context :=
  ⟨0, 0, ⟨0x67452301, 0xEFCDAB89, 0x98BADCFE, 0x10325476, 0xC3D2E1F0⟩, buffer⟩

/-- The bytes of the buffer in front of `total[0] & 0x3F`. -/
def Sha1Context.left (ctx : Sha1Context) : Nat := (ctx.total0 &&& 0x3F).toNat

/-- `MEMCPY` into the buffer. -/
def copyInto (buffer : Bytes) (offset : Nat) (input : Bytes) : Bytes :=
  buffer.take offset ++ input ++ buffer.drop (offset + input.length)

/-- The loop and the end of `sha1_update`. -/
def sha1Blocks (ctx : Sha1Context) (left : Nat) (input : Bytes) : Sha1Context :=
  let (state, rest) := Blocks.feed 64 sha1Process ctx.state input
  { ctx with state := state, buffer := copyInto ctx.buffer left rest }

/-- `sha1_update`. -/
def sha1Update (ctx : Sha1Context) (input : Bytes) : Sha1Context :=
  if input.length = 0 then ctx
  else
    let left := ctx.left
    let fill := 64 - left
    let total0 := (ctx.total0 + BitVec.ofNat 64 input.length) &&& 0xFFFFFFFF
    let total1 := if total0 < BitVec.ofNat 64 input.length then ctx.total1 + 1 else ctx.total1
    let ctx := { ctx with total0 := total0, total1 := total1 }
    if 0 < left ∧ fill ≤ input.length then
      let buffer := copyInto ctx.buffer left (input.take fill)
      let ctx := { ctx with buffer := buffer, state := sha1Process ctx.state buffer }
      sha1Blocks ctx 0 (input.drop fill)
    else sha1Blocks ctx left input

/-- `sha1_padding`. -/
def sha1Padding : Bytes := 0x80 :: List.replicate 63 0

/-- `sha1_finish`. -/
def sha1Finish (ctx : Sha1Context) : Bytes :=
  let high := (ctx.total0 >>> 29) ||| (ctx.total1 <<< 3)
  let low := ctx.total0 <<< 3
  let last := ctx.left
  let padn := if last < 56 then 56 - last else 120 - last
  let msglen := putUlongBe high ++ putUlongBe low
  let ctx := sha1Update (sha1Update ctx (sha1Padding.take padn)) msglen
  putUlongBe ctx.state.a ++ putUlongBe ctx.state.b ++ putUlongBe ctx.state.c ++
    putUlongBe ctx.state.d ++ putUlongBe ctx.state.e

/-- `sha1`. -/
def sha1 (input : Bytes) : Bytes := sha1Finish (sha1Update (sha1Starts (List.replicate 64 0)) input)

/-! ## In pieces -/

def sha1Init : Sha1State := ⟨0x67452301, 0xEFCDAB89, 0x98BADCFE, 0x10325476, 0xC3D2E1F0⟩

/-- How many bytes of padding follow a message. -/
def padding (length : Nat) : Nat := if length % 64 < 56 then 56 - length % 64 else 120 - length % 64

/-- A message with its padding and its length in bits. -/
def sha1Message (m : Bytes) : Bytes :=
  m ++ sha1Padding.take (padding m.length) ++
    (putUlongBe (BitVec.ofNat 64 m.length >>> 29) ++ putUlongBe (BitVec.ofNat 64 m.length <<< 3))

/-- The digest without a buffer: the blocks of the padded message, one after the other. -/
def sha1Digest (m : Bytes) : Bytes :=
  let s := (Blocks.feed 64 sha1Process sha1Init (sha1Message m)).1
  putUlongBe s.a ++ putUlongBe s.b ++ putUlongBe s.c ++ putUlongBe s.d ++ putUlongBe s.e

/-- The context has taken `m`: the full blocks are in the state and the rest is in the buffer. -/
structure Taken (ctx : Sha1Context) (m : Bytes) : Prop where
  length : m.length < 4294967296
  total0 : ctx.total0 = BitVec.ofNat 64 m.length
  total1 : ctx.total1 = 0
  room : ctx.buffer.length = 64
  blocks : Blocks.feed 64 sha1Process sha1Init m = (ctx.state, ctx.buffer.take (m.length % 64))

theorem and_low {x n : Nat} (hx : x < 4294967296) (mask : BitVec 64)
    (hmask : mask = BitVec.ofNat 64 (2 ^ n - 1)) (hn : n ≤ 32) :
    (BitVec.ofNat 64 x &&& mask).toNat = x % 2 ^ n := by
  have hpow : 2 ^ n ≤ 2 ^ 32 := Nat.pow_le_pow_right (by decide) hn
  rw [hmask, BitVec.toNat_and, BitVec.toNat_ofNat, BitVec.toNat_ofNat, Nat.mod_eq_of_lt (by omega),
    Nat.mod_eq_of_lt (by omega), Nat.and_two_pow_sub_one_eq_mod]

theorem Taken.left {ctx : Sha1Context} {m : Bytes} (h : Taken ctx m) :
    ctx.left = m.length % 64 := by
  unfold Sha1Context.left
  rw [h.total0]
  exact and_low h.length _ rfl (n := 6) (by decide)

theorem copyInto_length {buffer input : Bytes} {offset : Nat}
    (h : offset + input.length ≤ buffer.length) :
    (copyInto buffer offset input).length = buffer.length := by
  unfold copyInto
  simp only [List.length_append, List.length_take, List.length_drop]
  omega

theorem copyInto_take {buffer input : Bytes} {offset : Nat}
    (h : offset + input.length ≤ buffer.length) :
    (copyInto buffer offset input).take (offset + input.length) = buffer.take offset ++ input := by
  unfold copyInto
  rw [List.take_append_of_le_length (by simp; omega), List.take_of_length_le (by simp)]

theorem taken_starts (buffer : Bytes) (h : buffer.length = 64) : Taken (sha1Starts buffer) [] :=
  ⟨by decide, rfl, rfl, h, rfl⟩

/-- One piece. -/
theorem Taken.update {ctx : Sha1Context} {m : Bytes} (h : Taken ctx m) (input : Bytes)
    (hlen : (m ++ input).length < 4294967296) : Taken (sha1Update ctx input) (m ++ input) := by
  by_cases hempty : input.length = 0
  · have hnil : input = [] := List.length_eq_zero_iff.mp hempty
    rw [sha1Update, if_pos hempty, hnil, List.append_nil]
    exact h
  have hlen' : m.length + input.length < 4294967296 := by
    rwa [List.length_append] at hlen
  have htotal0 : (ctx.total0 + BitVec.ofNat 64 input.length) &&& 0xFFFFFFFF =
      BitVec.ofNat 64 (m ++ input).length := by
    have hsum : ctx.total0 + BitVec.ofNat 64 input.length = BitVec.ofNat 64 (m ++ input).length := by
      rw [h.total0, List.length_append, BitVec.ofNat_add]
    apply BitVec.eq_of_toNat_eq
    rw [hsum, and_low hlen 0xFFFFFFFF rfl (n := 32) (by decide), BitVec.toNat_ofNat]
    omega
  have hcarry : ¬ BitVec.ofNat 64 (m ++ input).length < BitVec.ofNat 64 input.length := by
    rw [BitVec.lt_def, BitVec.toNat_ofNat, BitVec.toNat_ofNat, Nat.mod_eq_of_lt (by omega),
      Nat.mod_eq_of_lt (by omega), List.length_append]
    omega
  -- both ways out leave what `feed` leaves
  have hend : ∀ (state : Sha1State) (buffer rest : Bytes) (left : Nat), buffer.length = 64 →
      Blocks.feed 64 sha1Process sha1Init (m ++ input) =
        ((Blocks.feed 64 sha1Process state rest).1,
          buffer.take left ++ (Blocks.feed 64 sha1Process state rest).2) →
      left + (Blocks.feed 64 sha1Process state rest).2.length = (m ++ input).length % 64 →
      Taken (sha1Blocks ⟨BitVec.ofNat 64 (m ++ input).length, ctx.total1, state, buffer⟩ left rest)
        (m ++ input) := by
    intro state buffer rest left hbuffer hfeed hleft
    have hroom : left + (Blocks.feed 64 sha1Process state rest).2.length ≤ buffer.length := by
      rw [hleft, hbuffer]
      exact Nat.le_of_lt (Nat.mod_lt _ (by decide))
    refine ⟨hlen, rfl, h.total1, ?_, ?_⟩
    · exact (copyInto_length hroom).trans hbuffer
    · rw [hfeed, ← hleft]
      exact congrArg _ (copyInto_take hroom).symm
  have hleft := h.left
  have hmod : m.length % 64 < 64 := Nat.mod_lt _ (by decide)
  have htake : (ctx.buffer.take (m.length % 64)).length = m.length % 64 := by
    rw [List.length_take, h.room]
    omega
  have happend : Blocks.feed 64 sha1Process sha1Init (m ++ input) =
      Blocks.feed 64 sha1Process ctx.state (ctx.buffer.take (m.length % 64) ++ input) := by
    rw [Blocks.feed_append 64 sha1Process (by decide), h.blocks]
  have hrest := Blocks.feed_rest_length 64 sha1Process (by decide) sha1Init (m ++ input)
  rw [sha1Update, if_neg hempty]
  simp only [htotal0, hleft, if_neg hcarry]
  by_cases hfill : 0 < m.length % 64 ∧ 64 - m.length % 64 ≤ input.length
  · rw [if_pos hfill]
    have hblock : copyInto ctx.buffer (m.length % 64) (input.take (64 - m.length % 64)) =
        (ctx.buffer.take (m.length % 64) ++ input).take 64 := by
      have hcut : (input.take (64 - m.length % 64)).length = 64 - m.length % 64 := by
        rw [List.length_take]
        omega
      have hwhole : (ctx.buffer.take (m.length % 64)).take 64 = ctx.buffer.take (m.length % 64) :=
        List.take_of_length_le (by rw [htake]; omega)
      unfold copyInto
      rw [hcut, List.drop_of_length_le (by rw [h.room]; omega), List.append_nil,
        List.take_append, htake, hwhole]
    have hdrop : (ctx.buffer.take (m.length % 64) ++ input).drop 64 =
        input.drop (64 - m.length % 64) := by
      rw [List.drop_append, htake, List.drop_of_length_le (by rw [htake]; omega), List.nil_append]
    have hfull : 64 ≤ (ctx.buffer.take (m.length % 64) ++ input).length := by
      rw [List.length_append, htake]
      omega
    rw [Blocks.feed_full 64 sha1Process (by decide) _ hfull, hdrop, ← hblock] at happend
    refine hend _ _ _ 0 ?_ ?_ ?_
    · rw [copyInto_length (by rw [List.length_take, h.room]; omega), h.room]
    · rw [happend]
      rfl
    · rw [happend] at hrest
      rw [Nat.zero_add]
      exact hrest
  · rw [if_neg hfill]
    refine hend ctx.state ctx.buffer input (m.length % 64) h.room ?_ ?_
    · rcases Nat.eq_zero_or_pos (m.length % 64) with hzero | hpos
      · rw [happend, hzero, List.take_zero, List.nil_append, List.nil_append]
      · have hshort : input.length < 64 - m.length % 64 :=
          Nat.not_le.mp fun hle => hfill ⟨hpos, hle⟩
        rw [happend, Blocks.feed_short 64 sha1Process _ (by rw [List.length_append, htake]; omega),
          Blocks.feed_short 64 sha1Process _ (by omega)]
    · rcases Nat.eq_zero_or_pos (m.length % 64) with hzero | hpos
      · rw [happend, hzero, List.take_zero, List.nil_append] at hrest
        rw [hzero, Nat.zero_add]
        exact hrest
      · have hshort : input.length < 64 - m.length % 64 :=
          Nat.not_le.mp fun hle => hfill ⟨hpos, hle⟩
        rw [Blocks.feed_short 64 sha1Process _ (by omega), List.length_append]
        show m.length % 64 + input.length = (m.length + input.length) % 64
        omega

theorem Taken.updates {ctx : Sha1Context} {m : Bytes} (h : Taken ctx m) (pieces : List Bytes)
    (hlen : (m ++ pieces.flatten).length < 4294967296) :
    Taken (pieces.foldl sha1Update ctx) (m ++ pieces.flatten) := by
  induction pieces generalizing ctx m with
  | nil =>
    rw [List.flatten_nil, List.append_nil]
    exact h
  | cons piece pieces ih =>
    rw [List.flatten_cons, ← List.append_assoc] at hlen ⊢
    have hpiece : (m ++ piece).length < 4294967296 := by
      simp only [List.length_append] at hlen ⊢
      omega
    exact ih (h.update piece hpiece) hlen

theorem putUlongBe_length (n : BitVec 64) : (putUlongBe n).length = 4 := rfl

/-- The padding and the length end a block. -/
theorem Taken.finish {ctx : Sha1Context} {m : Bytes} (h : Taken ctx m)
    (hlen : m.length + 128 < 4294967296) : sha1Finish ctx = sha1Digest m := by
  have hmod : m.length % 64 < 64 := Nat.mod_lt _ (by decide)
  have hpad : (sha1Padding.take (padding m.length)).length ≤ 64 := by
    rw [List.length_take]
    exact Nat.min_le_right _ _
  have hhigh : (BitVec.ofNat 64 m.length >>> 29) ||| ((0 : BitVec 64) <<< 3) =
      BitVec.ofNat 64 m.length >>> 29 := by
    simp
  have hpadded := h.update (sha1Padding.take (padding m.length)) (by
    rw [List.length_append]
    omega)
  have hall := hpadded.update (putUlongBe (BitVec.ofNat 64 m.length >>> 29) ++
    putUlongBe (BitVec.ofNat 64 m.length <<< 3)) (by
    simp only [List.length_append, putUlongBe_length] at hpad ⊢
    omega)
  have hpadn : (if ctx.left < 56 then 56 - ctx.left else 120 - ctx.left) = padding m.length := by
    rw [h.left]
    rfl
  unfold sha1Finish sha1Digest
  simp only [hpadn, h.total0, h.total1, hhigh]
  rw [sha1Message, hall.blocks]

/-- A digest in pieces, whatever the buffer held before, is the digest of the whole. -/
theorem sha1_pieces (buffer : Bytes) (hbuffer : buffer.length = 64) (pieces : List Bytes)
    (hlen : pieces.flatten.length + 128 < 4294967296) :
    sha1Finish (pieces.foldl sha1Update (sha1Starts buffer)) = sha1Digest pieces.flatten := by
  have htaken := (taken_starts buffer hbuffer).updates pieces (by
    rw [List.nil_append]
    omega)
  rw [List.nil_append] at htaken
  exact htaken.finish hlen

/-- "abc", in two pieces. -/
theorem sha1_pieces_abc :
    sha1Finish ([[0x61], [0x62, 0x63]].foldl sha1Update (sha1Starts (List.replicate 64 0xaa))) =
      sha1Digest [0x61, 0x62, 0x63] :=
  sha1_pieces (List.replicate 64 0xaa) rfl [[0x61], [0x62, 0x63]] (by decide)

example : (sha1Digest [0x61, 0x62, 0x63]).take 4 = [0xa9, 0x99, 0x3e, 0x36] := by decide +kernel

end PptpProxy.Ppp
