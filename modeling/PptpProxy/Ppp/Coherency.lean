/-
  Two ends of an MPPE link: a compressor, and a decompressor with the same keys.

  In the stateless mode the key turns with every packet, and the receiver turns its own as often as the
  count has moved: `Behind g` says that it is `g` turns behind.  A packet that is lost adds one, a packet
  that arrives brings it back to none.
-/
import PptpProxy.Ppp.Mppe
import PptpProxy.Ppp.Sha1
import Mathlib.Logic.Function.Iterate

namespace PptpProxy.Ppp

open CLib

variable {sha1 : Bytes → Bytes}

/-! ## Headers -/

/-- The bits of a compressor: the frame is encrypted, and the flush bit is set or not. -/
def SendBits (b : BitVec 8) : Prop := b = mppeBitEncrypted ∨ b = mppeBitEncrypted ||| mppeBitFlushed

theorem SendBits.flushed {b : BitVec 8} (h : SendBits b) : SendBits (b ||| mppeBitFlushed) := by
  rcases h with rfl | rfl
  · exact Or.inr rfl
  · exact Or.inr rfl

theorem SendBits.cleared {b : BitVec 8} (h : SendBits b) : SendBits (b &&& ~~~mppeBitFlushed) := by
  rcases h with rfl | rfl
  · exact Or.inl rfl
  · exact Or.inl rfl

theorem setWidth4_shift (ccount : BitVec 12) (b : BitVec 8) (hb : SendBits b) :
    (((ccount >>> 8).setWidth 8 ||| b).setWidth 4 ++ ccount.setWidth 8 : BitVec 12) = ccount := by
  have hlow : b.setWidth 4 = 0 := by
    rcases hb with rfl | rfl <;> rfl
  have hor : ((ccount >>> 8).setWidth 8 ||| b).setWidth 4 = (ccount >>> 8).setWidth 4 := by
    rw [BitVec.setWidth_or, hlow]
    simp
  rw [hor]
  apply BitVec.eq_of_getLsbD_eq
  intro i hi
  rw [BitVec.getLsbD_append]
  rcases Nat.lt_or_ge i 8 with h8 | h8
  · simp [h8]
  · simp [Nat.not_lt.mpr h8, Nat.add_sub_cancel' h8, show i - 8 < 4 by omega]

theorem high_clear (ccount : BitVec 12) : (ccount >>> 8).setWidth 8 &&& 0xf0 = 0 := by
  apply BitVec.eq_of_getLsbD_eq
  intro i hi
  have hmask : (0xf0 : BitVec 8).getLsbD i = decide (4 ≤ i) := by
    revert i
    decide
  rw [BitVec.getLsbD_and, hmask, BitVec.getLsbD_setWidth, BitVec.getLsbD_ushiftRight]
  rcases Nat.lt_or_ge i 4 with h4 | h4
  · simp [Nat.not_le.mpr h4]
  · rw [BitVec.getLsbD_of_ge _ _ (by omega)]
    simp

/-- The bits of the header are those of the sender. -/
theorem header_bits (ccount : BitVec 12) (b mask : BitVec 8) (hmask : mask &&& 0xf0 = mask) :
    ((ccount >>> 8).setWidth 8 ||| b) &&& mask = b &&& mask := by
  have hzero : (ccount >>> 8).setWidth 8 &&& mask = 0 := by
    rw [← hmask, BitVec.and_comm mask, ← BitVec.and_assoc, high_clear]
    simp
  rw [BitVec.and_comm, BitVec.and_or_distrib_left, BitVec.and_comm mask, hzero,
    BitVec.and_comm mask b]
  simp

/-- What a receiver reads in a header that a sender has written. -/
theorem mppeDecompress_header {b : BitVec 8} (hb : SendBits b) (d : MppeState) (ccount : BitVec 12)
    (text : Bytes) :
    mppeDecompress sha1 d (mppeHeader b ccount ++ text) =
      if !d.stateful && !decide (b &&& mppeBitFlushed ≠ 0) then sanityError d 100
      else if d.stateful && flagPacket ccount && !decide (b &&& mppeBitFlushed ≠ 0) then
        sanityError d 100
      else if !d.stateful then decompressStateless sha1 d ccount text
      else decompressStateful sha1 d (decide (b &&& mppeBitFlushed ≠ 0)) ccount text := by
  have henc : ¬ ((ccount >>> 8).setWidth 8 ||| b) &&& mppeBitEncrypted = 0 := by
    rw [header_bits ccount b _ rfl]
    rcases hb with rfl | rfl <;> decide
  have hflush : ((ccount >>> 8).setWidth 8 ||| b) &&& mppeBitFlushed = b &&& mppeBitFlushed :=
    header_bits ccount b _ rfl
  show mppeDecompress sha1 d (_ :: _ :: text) = _
  unfold mppeDecompress
  simp only [if_neg henc, hflush, setWidth4_shift ccount b hb]

/-! ## Turning keys -/

/-- The key after `n` packets. -/
def turns (sha1 : Bytes → Bytes) (n : Nat) (k : MppeKey) : MppeKey :=
  (fun k => mppeRekey sha1 k false)^[n] k

/-- The same key, apart from what is left of the keystream. -/
structure SameKey (a b : MppeKey) : Prop where
  master : a.masterKey = b.masterKey
  session : a.sessionKey = b.sessionKey
  keylen : a.keylen = b.keylen

theorem SameKey.rekey {a b : MppeKey} (h : SameKey a b) (initialKey : Bool) :
    mppeRekey sha1 a initialKey = mppeRekey sha1 b initialKey := by
  obtain ⟨aa, am, as, al⟩ := a
  obtain ⟨ba, bm, bs, bl⟩ := b
  obtain ⟨rfl, rfl, rfl⟩ := h
  rfl

theorem sameKey_arc4 (k : MppeKey) (ctx : Arc4) : SameKey { k with arc4 := ctx } k := ⟨rfl, rfl, rfl⟩

theorem turns_succ (n : Nat) (k : MppeKey) :
    turns sha1 (n + 1) k = mppeRekey sha1 (turns sha1 n k) false :=
  Function.iterate_succ_apply' _ n k

theorem turns_succ_inner (n : Nat) (k : MppeKey) :
    turns sha1 (n + 1) k = turns sha1 n (mppeRekey sha1 k false) := rfl

/-! ## The loops of the receiver -/

/-- Both counts are below the modulus, so the remainder is the difference. -/
theorem countAhead_eq (ccount old : BitVec 12) :
    countAhead ccount old = (ccount.toNat : Int) - old.toNat := by
  have h1 := ccount.isLt
  have h2 := old.isLt
  unfold countAhead
  rcases Nat.le_total old.toNat ccount.toNat with h | h
  · exact Int.tmod_eq_of_lt (by omega) (by omega)
  · have hneg : (ccount.toNat : Int) - old.toNat = -((old.toNat : Int) - ccount.toNat) := by omega
    rw [hneg, Int.neg_tmod, Int.tmod_eq_of_lt (by omega) (by omega)]

/-- The key is turned as often as the count has to move. -/
theorem mppeCatchUp_eq (ccount : BitVec 12) (n : Nat) (s : MppeState)
    (h : (ccount - s.ccount).toNat ≤ n) :
    mppeCatchUp sha1 ccount n s =
      { s with key := turns sha1 (ccount - s.ccount).toNat s.key, ccount := ccount } := by
  induction n generalizing s with
  | zero =>
    have hzero : (ccount - s.ccount).toNat = 0 := by omega
    have heq : s.ccount = ccount := by bv_omega
    rw [hzero, mppeCatchUp, ← heq]
    rfl
  | succ n ih =>
    unfold mppeCatchUp
    by_cases heq : s.ccount = ccount
    · have hzero : (ccount - s.ccount).toNat = 0 := by
        rw [heq]
        simp
      rw [if_pos heq, hzero, ← heq]
      rfl
    · have hstep : (ccount - s.ccount).toNat = (ccount - (s.ccount + 1)).toNat + 1 := by bv_omega
      rw [if_neg heq, ih _ (by show (ccount - (s.ccount + 1)).toNat ≤ n; omega), hstep,
        turns_succ_inner]

/-- A stateless packet, without the loop: it is late when its count is more than half the space larger;
    otherwise the key is turned as often as the count has moved, modulo the space. -/
theorem decompressStateless_eq (d : MppeState) (ccount : BitVec 12) (text : Bytes) :
    decompressStateless sha1 d ccount text =
      if d.ccount.toNat + 2048 < ccount.toNat then sanityError d 1
      else mppeDecrypt { d with
        key := turns sha1 (ccount - d.ccount).toNat d.key, ccount := ccount } text := by
  have hlate : 2048 < countAhead ccount d.ccount ↔ d.ccount.toNat + 2048 < ccount.toNat := by
    rw [countAhead_eq]
    omega
  have hfuel : (ccount - d.ccount).toNat ≤ 4096 := Nat.le_of_lt (ccount - d.ccount).isLt
  unfold decompressStateless
  rw [mppeCatchUp_eq ccount 4096 d hfuel]
  by_cases h : d.ccount.toNat + 2048 < ccount.toNat
  · rw [if_pos h, if_pos (hlate.mpr h)]
  · rw [if_neg h, if_neg fun h' => h (hlate.mp h')]

/-! ## The stateless mode, with losses -/

/-- The receiver `d` is `g` turns behind the sender `c`. -/
structure Behind (sha1 : Bytes → Bytes) (g : Nat) (c d : MppeState) : Prop where
  key : SameKey c.key (turns sha1 g d.key)
  count : c.ccount = d.ccount + BitVec.ofNat 12 g
  sender : c.stateful = false
  receiver : d.stateful = false
  bits : SendBits c.bits

/-- Whether a packet turns the key. -/
def turning (c : MppeState) : Bool :=
  !c.stateful || flagPacket (c.ccount + 1) || decide (c.bits &&& mppeBitFlushed ≠ 0)

/-- The key and the bits of the next packet. -/
def nextKey (sha1 : Bytes → Bytes) (c : MppeState) : MppeKey :=
  if turning c then mppeRekey sha1 c.key false else c.key

def nextBits (c : MppeState) : BitVec 8 :=
  if turning c then c.bits ||| mppeBitFlushed else c.bits

theorem mppeCompress_eq (c : MppeState) (protocol : BitVec 16) (pb : Bytes) :
    mppeCompress sha1 true c protocol pb =
      (some (mppeHeader (nextBits c) (c.ccount + 1) ++
        (arc4Crypt (nextKey sha1 c).arc4 (hiByte protocol :: loByte protocol :: pb)).1),
      { c with
        ccount := c.ccount + 1
        bits := nextBits c &&& ~~~mppeBitFlushed
        key := { nextKey sha1 c with
          arc4 := (arc4Crypt (nextKey sha1 c).arc4 (hiByte protocol :: loByte protocol :: pb)).2 } }) := by
  unfold mppeCompress nextKey nextBits turning
  by_cases ht : (!c.stateful || flagPacket (c.ccount + 1) ||
      decide (c.bits &&& mppeBitFlushed ≠ 0)) = true
  · simp only [Bool.not_true, Bool.false_eq_true, if_false, ht, if_true]
  · simp only [Bool.not_true, Bool.false_eq_true, if_false, ht]

/-- The packets that turn the key are those that carry the flush bit. -/
theorem nextBits_flushed {c : MppeState} (h : SendBits c.bits) :
    SendBits (nextBits c) ∧ decide (nextBits c &&& mppeBitFlushed ≠ 0) = turning c := by
  unfold nextBits
  by_cases ht : turning c = true
  · rw [if_pos ht, ht]
    refine ⟨h.flushed, decide_eq_true ?_⟩
    rcases h with hb | hb <;> rw [hb] <;> decide
  · rw [if_neg ht]
    have hf : turning c = false := by simpa using ht
    refine ⟨h, ?_⟩
    rw [hf]
    unfold turning at hf
    simp only [Bool.or_eq_false_iff] at hf
    exact hf.2

theorem nextKey_stateless {c : MppeState} (h : c.stateful = false) :
    nextKey sha1 c = mppeRekey sha1 c.key false ∧ nextBits c = c.bits ||| mppeBitFlushed := by
  have ht : turning c = true := by simp [turning, h]
  exact ⟨if_pos ht, if_pos ht⟩

/-- A packet is sent: the receiver is one turn more behind. -/
theorem Behind.sent {g : Nat} {c d : MppeState} (h : Behind sha1 g c d) (protocol : BitVec 16)
    (pb : Bytes) : Behind sha1 (g + 1) (mppeCompress sha1 true c protocol pb).2 d := by
  rw [mppeCompress_eq]
  refine ⟨?_, ?_, h.sender, h.receiver, (nextBits_flushed h.bits).1.cleared⟩
  · rw [turns_succ, ← h.key.rekey, (nextKey_stateless h.sender).1]
    exact sameKey_arc4 _ _
  · show c.ccount + 1 = _
    rw [h.count]
    bv_omega

/-- A stateless packet at a receiver that is `g` turns behind. -/
theorem Behind.decompress {g : Nat} {c d : MppeState} (h : Behind sha1 g c d) (hg : g < 2048)
    (text : Bytes) :
    mppeDecompress sha1 d (mppeHeader (nextBits c) (c.ccount + 1) ++
        (arc4Crypt (nextKey sha1 c).arc4 text).1) =
      ({ d with
          key := { nextKey sha1 c with arc4 := (arc4Crypt (nextKey sha1 c).arc4 text).2 }
          ccount := c.ccount + 1
          sanityErrors := d.sanityErrors >>> 1 }, [], some text) := by
  have hcount : c.ccount + 1 - d.ccount = BitVec.ofNat 12 (g + 1) := by
    rw [h.count]
    bv_omega
  have hturns : (c.ccount + 1 - d.ccount).toNat = g + 1 := by
    rw [hcount, BitVec.toNat_ofNat]
    exact Nat.mod_eq_of_lt (by omega)
  have hlate : ¬ d.ccount.toNat + 2048 < (c.ccount + 1).toNat := by
    have := d.ccount.isLt
    have := (c.ccount + 1).isLt
    rw [BitVec.toNat_sub] at hturns
    omega
  have hkey : turns sha1 (g + 1) d.key = nextKey sha1 c := by
    rw [turns_succ, (nextKey_stateless h.sender).1, h.key.rekey]
  have hturning : turning c = true := by simp [turning, h.sender]
  obtain ⟨hbits, hflush⟩ := nextBits_flushed h.bits
  rw [mppeDecompress_header hbits, hflush, hturning]
  simp only [h.receiver, Bool.not_false, Bool.not_true, Bool.and_false, Bool.false_eq_true,
    if_false, if_true]
  rw [decompressStateless_eq, if_neg hlate, hturns, hkey]
  unfold mppeDecrypt arc4Crypt
  simp only [Keystream.crypt_crypt, h.receiver]

/-- The packet arrives: it is what was sent, and the receiver is up to date. -/
theorem Behind.arrived {g : Nat} {c d : MppeState} (h : Behind sha1 g c d) (hg : g < 2048)
    (protocol : BitVec 16) (pb : Bytes) :
    ∃ packet d', (mppeCompress sha1 true c protocol pb).1 = some packet ∧
      mppeDecompress sha1 d packet = (d', [], some (hiByte protocol :: loByte protocol :: pb)) ∧
      Behind sha1 0 (mppeCompress sha1 true c protocol pb).2 d' := by
  have hdec := h.decompress hg (hiByte protocol :: loByte protocol :: pb)
  rw [mppeCompress_eq]
  exact ⟨_, _, rfl, hdec, ⟨⟨rfl, rfl, rfl⟩, (BitVec.add_zero _).symm, h.sender, h.receiver,
    (nextBits_flushed h.bits).1.cleared⟩⟩

/-- A Reset-Request only sets the flush bit. -/
theorem Behind.reset {g : Nat} {c d : MppeState} (h : Behind sha1 g c d) :
    Behind sha1 g (mppeCompReset c) d :=
  ⟨h.key, h.count, h.sender, h.receiver, h.bits.flushed⟩

/-! ## Both modes, without losses -/

/-- The two ends agree, keystream included. -/
structure InStep (c d : MppeState) : Prop where
  key : c.key = d.key
  count : c.ccount = d.ccount
  mode : c.stateful = d.stateful
  normal : d.discard = false
  bits : SendBits c.bits

theorem InStep.reset {c d : MppeState} (h : InStep c d) : InStep (mppeCompReset c) d :=
  ⟨h.key, h.count, h.mode, h.normal, h.bits.flushed⟩

theorem InStep.behind {c d : MppeState} (h : InStep c d) (hmode : d.stateful = false) :
    Behind sha1 0 c d :=
  ⟨h.key ▸ ⟨rfl, rfl, rfl⟩, by rw [h.count]; exact (BitVec.add_zero _).symm, h.mode.trans hmode, hmode,
    h.bits⟩

/-- A stateful packet that is the next one. -/
theorem InStep.decompress (sha1 : Bytes → Bytes) {c d : MppeState} (h : InStep c d)
    (hmode : d.stateful = true) (text : Bytes) :
    mppeDecompress sha1 d (mppeHeader (nextBits c) (c.ccount + 1) ++
        (arc4Crypt (nextKey sha1 c).arc4 text).1) =
      ({ d with
          key := { nextKey sha1 c with arc4 := (arc4Crypt (nextKey sha1 c).arc4 text).2 }
          ccount := c.ccount + 1
          sanityErrors := d.sanityErrors >>> 1 }, [], some text) := by
  obtain ⟨hbits, hflush⟩ := nextBits_flushed h.bits
  have hflag : (flagPacket (c.ccount + 1) && !turning c) = false := by
    unfold turning
    cases flagPacket (c.ccount + 1) <;> simp
  have hnext : ¬ (c.ccount + 1 ≠ d.ccount + 1) := by
    rw [h.count]
    exact not_not_intro rfl
  rw [mppeDecompress_header hbits, hflush]
  simp only [hmode, Bool.not_true, Bool.false_and, Bool.true_and, hflag, Bool.false_eq_true, if_false]
  unfold decompressStateful
  simp only [h.normal, Bool.not_false, if_true, if_neg hnext]
  unfold mppeDecrypt arc4Crypt nextKey
  rw [h.key, h.count]
  by_cases ht : turning c = true
  · simp only [ht, if_true, Keystream.crypt_crypt, hmode]
  · simp only [ht, if_false, Keystream.crypt_crypt, hmode, Bool.false_eq_true]

/-- A packet that arrives in order, in either mode. -/
theorem InStep.arrived {c d : MppeState} (h : InStep c d) (protocol : BitVec 16) (pb : Bytes) :
    ∃ packet d', (mppeCompress sha1 true c protocol pb).1 = some packet ∧
      mppeDecompress sha1 d packet = (d', [], some (hiByte protocol :: loByte protocol :: pb)) ∧
      InStep (mppeCompress sha1 true c protocol pb).2 d' := by
  have hstep : ∀ s : Nat, InStep (mppeCompress sha1 true c protocol pb).2
      { d with
        key := { nextKey sha1 c with
          arc4 := (arc4Crypt (nextKey sha1 c).arc4 (hiByte protocol :: loByte protocol :: pb)).2 }
        ccount := c.ccount + 1
        sanityErrors := s } := by
    intro s
    rw [mppeCompress_eq]
    exact ⟨rfl, rfl, h.mode, h.normal, (nextBits_flushed h.bits).1.cleared⟩
  cases hmode : d.stateful with
  | false =>
    have hbehind : Behind sha1 0 c d := h.behind hmode
    have hdec := hbehind.decompress (by decide)
      (hiByte protocol :: loByte protocol :: pb)
    exact ⟨_, _, congrArg Prod.fst (mppeCompress_eq c protocol pb), hdec, hstep _⟩
  | true =>
    have hdec := h.decompress sha1 hmode (hiByte protocol :: loByte protocol :: pb)
    exact ⟨_, _, congrArg Prod.fst (mppeCompress_eq c protocol pb), hdec, hstep _⟩

/-! ## Runs -/

/-- What happens at the sender: a packet, for which there may be no memory and which may get lost on
    its way, or a Reset-Request from the other side. -/
inductive TunnelEvent
  | packet (protocol : BitVec 16) (pb : Bytes) (alloc arrives : Bool)
  | reset
  deriving Repr

/-- What `mppe_decompress` returns at the packets that arrive, and what it asks for there. -/
def tunnelRun (sha1 : Bytes → Bytes) (c d : MppeState) :
    List TunnelEvent → List (List MppeCall × Option Bytes)
  | [] => []
  | .reset :: events => tunnelRun sha1 (mppeCompReset c) d events
  | .packet protocol pb alloc arrives :: events =>
    match mppeCompress sha1 alloc c protocol pb with
    | (none, c) => tunnelRun sha1 c d events
    | (some packet, c) =>
      if arrives then
        match mppeDecompress sha1 d packet with
        | (d, calls, plain) => (calls, plain) :: tunnelRun sha1 c d events
      else tunnelRun sha1 c d events

/-- The packets that arrive, protocol number first. -/
def arrivals : List TunnelEvent → List Bytes
  | [] => []
  | .packet protocol pb true true :: events =>
    (hiByte protocol :: loByte protocol :: pb) :: arrivals events
  | _ :: events => arrivals events

/-- No 2048 packets in a row get lost, with `g` lost just before. -/
def FewLost : Nat → List TunnelEvent → Prop
  | _, [] => True
  | g, .packet _ _ true true :: events => g < 2048 ∧ FewLost 0 events
  | g, .packet _ _ true false :: events => FewLost (g + 1) events
  | g, _ :: events => FewLost g events

/-- Nothing is lost. -/
def NoneLost : List TunnelEvent → Prop
  | [] => True
  | .packet _ _ true false :: _ => False
  | _ :: events => NoneLost events

theorem mppeCompress_noMemory (c : MppeState) (protocol : BitVec 16) (pb : Bytes) :
    mppeCompress sha1 false c protocol pb = (none, c) := rfl

theorem tunnelRun_arrives {c d d' : MppeState} {protocol : BitVec 16} {pb packet plain : Bytes}
    {events : List TunnelEvent} (hsend : (mppeCompress sha1 true c protocol pb).1 = some packet)
    (hdec : mppeDecompress sha1 d packet = (d', [], some plain)) :
    tunnelRun sha1 c d (.packet protocol pb true true :: events) =
      ([], some plain) :: tunnelRun sha1 (mppeCompress sha1 true c protocol pb).2 d' events := by
  rw [tunnelRun]
  generalize mppeCompress sha1 true c protocol pb = r at hsend
  obtain ⟨sent, c'⟩ := r
  cases hsend
  simp only [hdec, if_true]

theorem tunnelRun_lost {c d : MppeState} {protocol : BitVec 16} {pb : Bytes}
    {events : List TunnelEvent} :
    tunnelRun sha1 c d (.packet protocol pb true false :: events) =
      tunnelRun sha1 (mppeCompress sha1 true c protocol pb).2 d events := by
  rw [tunnelRun, mppeCompress_eq]
  rfl

theorem Behind.run {g : Nat} {c d : MppeState} (h : Behind sha1 g c d) (events : List TunnelEvent)
    (hlost : FewLost g events) :
    tunnelRun sha1 c d events = (arrivals events).map fun plain => ([], some plain) := by
  induction events generalizing g c d with
  | nil => rfl
  | cons event events ih =>
    cases event with
    | reset => exact ih h.reset hlost
    | packet protocol pb alloc arrives =>
      cases alloc with
      | false => exact ih h hlost
      | true =>
        cases arrives with
        | false =>
          rw [tunnelRun_lost]
          exact ih (h.sent protocol pb) hlost
        | true =>
          obtain ⟨packet, d', hsend, hdec, hnext⟩ := h.arrived hlost.1 protocol pb
          rw [tunnelRun_arrives hsend hdec, ih hnext hlost.2]
          rfl

theorem InStep.run {c d : MppeState} (h : InStep c d) (events : List TunnelEvent)
    (hlost : NoneLost events) :
    tunnelRun sha1 c d events = (arrivals events).map fun plain => ([], some plain) := by
  induction events generalizing c d with
  | nil => rfl
  | cons event events ih =>
    cases event with
    | reset => exact ih h.reset hlost
    | packet protocol pb alloc arrives =>
      cases alloc with
      | false => exact ih h hlost
      | true =>
        cases arrives with
        | false => exact hlost.elim
        | true =>
          obtain ⟨packet, d', hsend, hdec, hnext⟩ := h.arrived protocol pb
          rw [tunnelRun_arrives hsend hdec, ih hnext hlost]
          rfl

theorem mppeInit_known (s : MppeState) {options : MppeOptions}
    (hkey : (options.opt128 || options.opt40) = true) :
    (mppeInit sha1 s options).1.discard = s.discard ∧
      (mppeInit sha1 s options).1.stateful = (s.stateful || options.stateful) ∧
      SendBits (mppeInit sha1 s options).1.bits := by
  have hknown : (!options.opt128 && !options.opt40) = false := by
    revert hkey
    cases options.opt128 <;> cases options.opt40 <;> simp
  unfold mppeInit
  simp only [hknown, Bool.false_eq_true, if_false]
  exact ⟨trivial, trivial, Or.inl rfl⟩

/-- Both ends behind `mppe_init`, with the same master key and options. -/
theorem mppeInit_inStep (s : MppeState) {options : MppeOptions} (hs : s.discard = false)
    (hkey : (options.opt128 || options.opt40) = true) :
    InStep (mppeInit sha1 s options).1 (mppeInit sha1 s options).1 :=
  have h := mppeInit_known s hkey
  ⟨rfl, rfl, rfl, h.1.trans hs, h.2.2⟩

/-- The stateless mode, from `mppe_init` on: whatever is lost, as long as no 2048 packets in a row are,
    each packet that arrives is decrypted to what was sent. -/
theorem tunnel_stateless (sha1 : Bytes → Bytes) (s : MppeState) (options : MppeOptions)
    (hs : s.discard = false) (hkey : (options.opt128 || options.opt40) = true)
    (hmode : (s.stateful || options.stateful) = false) (events : List TunnelEvent)
    (hlost : FewLost 0 events) :
    tunnelRun sha1 (mppeInit sha1 s options).1 (mppeInit sha1 s options).1 events =
      (arrivals events).map fun plain => ([], some plain) :=
  ((mppeInit_inStep s hs hkey).behind ((mppeInit_known s hkey).2.1.trans hmode)).run events hlost

/-- A state that `ppp_start` has cleared, with a master key. -/
def clearedState : MppeState where
  key := ⟨⟨0, 0, []⟩, List.replicate 16 0x5c, List.replicate 16 0, 0⟩
  bits := 0
  ccount := 0
  sanityErrors := 0
  stateful := false
  discard := false

/-- The second packet is lost. -/
theorem tunnel_stateless_gap :
    tunnelRun Ppp.sha1 (mppeInit Ppp.sha1 clearedState ⟨true, false, false⟩).1
        (mppeInit Ppp.sha1 clearedState ⟨true, false, false⟩).1
        [.packet 0x21 [1] true true, .packet 0x21 [2] true false, .reset, .packet 0x21 [3] true true] =
      [([], some [0x00, 0x21, 1]), ([], some [0x00, 0x21, 3])] :=
  tunnel_stateless Ppp.sha1 clearedState ⟨true, false, false⟩ rfl rfl rfl
    [.packet 0x21 [1] true true, .packet 0x21 [2] true false, .reset, .packet 0x21 [3] true true]
    ⟨by decide, by decide, trivial⟩

/-- Either mode, when nothing is lost: the key turns in step, at every packet, or at flag packets and
    behind Reset-Requests only. -/
theorem tunnel_inOrder (sha1 : Bytes → Bytes) (s : MppeState) (options : MppeOptions)
    (hs : s.discard = false) (hkey : (options.opt128 || options.opt40) = true)
    (events : List TunnelEvent) (hlost : NoneLost events) :
    tunnelRun sha1 (mppeInit sha1 s options).1 (mppeInit sha1 s options).1 events =
      (arrivals events).map fun plain => ([], some plain) :=
  (mppeInit_inStep s hs hkey).run events hlost

/-- Forty bits, stateful, with a Reset-Request. -/
theorem tunnel_inOrder_stateful :
    tunnelRun Ppp.sha1 (mppeInit Ppp.sha1 clearedState ⟨false, true, true⟩).1
        (mppeInit Ppp.sha1 clearedState ⟨false, true, true⟩).1
        [.packet 0x21 [1] true true, .reset, .packet 0x21 [2] false true, .packet 0x21 [3] true true] =
      [([], some [0x00, 0x21, 1]), ([], some [0x00, 0x21, 3])] :=
  tunnel_inOrder Ppp.sha1 clearedState ⟨false, true, true⟩ rfl rfl
    [.packet 0x21 [1] true true, .reset, .packet 0x21 [2] false true, .packet 0x21 [3] true true]
    trivial

/-! ## Packets that overtake each other -/

/-- A stateless packet that comes `t` places late.  It is discarded only when the count has gone
    around in between: otherwise the difference of the counts is negative in C, the packet is accepted,
    and the key is turned around the whole space. -/
theorem late_packet (sha1 : Bytes → Bytes) (d : MppeState) (hmode : d.stateful = false) (t : Nat)
    (ht : 0 < t) (hspace : t < 2048) (text : Bytes) :
    mppeDecompress sha1 d
        (mppeHeader (mppeBitEncrypted ||| mppeBitFlushed) (d.ccount - BitVec.ofNat 12 t) ++ text) =
      if d.ccount.toNat < t then sanityError d 1
      else mppeDecrypt { d with
        key := turns sha1 (4096 - t) d.key, ccount := d.ccount - BitVec.ofNat 12 t } text := by
  have hlt := d.ccount.isLt
  have hofNat : (BitVec.ofNat 12 t).toNat = t := by
    rw [BitVec.toNat_ofNat]
    exact Nat.mod_eq_of_lt (by omega)
  have hcount : (d.ccount - BitVec.ofNat 12 t).toNat = (4096 - t + d.ccount.toNat) % 4096 := by
    rw [BitVec.toNat_sub, hofNat]
  have hturns : (d.ccount - BitVec.ofNat 12 t - d.ccount).toNat = 4096 - t := by
    rw [BitVec.toNat_sub, hcount]
    omega
  have hlate : d.ccount.toNat + 2048 < (d.ccount - BitVec.ofNat 12 t).toNat ↔ d.ccount.toNat < t := by
    rw [hcount]
    omega
  have hflush : decide ((mppeBitEncrypted ||| mppeBitFlushed) &&& mppeBitFlushed ≠ 0) = true := by
    decide
  rw [mppeDecompress_header (Or.inr rfl), hflush]
  simp only [hmode, Bool.not_false, Bool.not_true, Bool.and_false, Bool.false_eq_true, if_false,
    if_true]
  rw [decompressStateless_eq, hturns]
  by_cases h : d.ccount.toNat < t
  · rw [if_pos h, if_pos (hlate.mpr h)]
  · rw [if_neg h, if_neg fun h' => h (hlate.mp h'), hmode]

/-- The packet before the last one. -/
theorem late_packet_previous :
    (mppeDecompress Ppp.sha1 { clearedState with ccount := 7 }
      (mppeHeader (mppeBitEncrypted ||| mppeBitFlushed) (7 - BitVec.ofNat 12 1) ++ [])).1.ccount = 6 := by
  rw [late_packet Ppp.sha1 { clearedState with ccount := 7 } rfl 1 (by decide) (by decide) []]
  rfl

end PptpProxy.Ppp
