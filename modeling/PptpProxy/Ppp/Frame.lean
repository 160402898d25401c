/-
  The frame format of `netif/ppp/pppos.c`: the check sequence with its table, the map of the characters
  that are escaped on the line, and the fields in front of a payload.

  `deframe` says in one piece what the contents of a frame mean: the byte automaton of `pppos_input`
  is compared with it, and so is what `pppos_netif_output` sends.
-/
import PptpProxy.Lib.CString
import PptpProxy.Lib.Crc
import PptpProxy.Lib.Stuffing
import Mathlib.Data.List.GetD

namespace PptpProxy.Ppp

open CLib

/-! ## The frame check sequence -/

def pppFcsPolynomial : BitVec 16 := 0x8408

/-- `fcstab`, as the source lists it. -/
def fcstab : List (BitVec 16) := [
  0x0000, 0x1189, 0x2312, 0x329b, 0x4624, 0x57ad, 0x6536, 0x74bf,
  0x8c48, 0x9dc1, 0xaf5a, 0xbed3, 0xca6c, 0xdbe5, 0xe97e, 0xf8f7,
  0x1081, 0x0108, 0x3393, 0x221a, 0x56a5, 0x472c, 0x75b7, 0x643e,
  0x9cc9, 0x8d40, 0xbfdb, 0xae52, 0xdaed, 0xcb64, 0xf9ff, 0xe876,
  0x2102, 0x308b, 0x0210, 0x1399, 0x6726, 0x76af, 0x4434, 0x55bd,
  0xad4a, 0xbcc3, 0x8e58, 0x9fd1, 0xeb6e, 0xfae7, 0xc87c, 0xd9f5,
  0x3183, 0x200a, 0x1291, 0x0318, 0x77a7, 0x662e, 0x54b5, 0x453c,
  0xbdcb, 0xac42, 0x9ed9, 0x8f50, 0xfbef, 0xea66, 0xd8fd, 0xc974,
  0x4204, 0x538d, 0x6116, 0x709f, 0x0420, 0x15a9, 0x2732, 0x36bb,
  0xce4c, 0xdfc5, 0xed5e, 0xfcd7, 0x8868, 0x99e1, 0xab7a, 0xbaf3,
  0x5285, 0x430c, 0x7197, 0x601e, 0x14a1, 0x0528, 0x37b3, 0x263a,
  0xdecd, 0xcf44, 0xfddf, 0xec56, 0x98e9, 0x8960, 0xbbfb, 0xaa72,
  0x6306, 0x728f, 0x4014, 0x519d, 0x2522, 0x34ab, 0x0630, 0x17b9,
  0xef4e, 0xfec7, 0xcc5c, 0xddd5, 0xa96a, 0xb8e3, 0x8a78, 0x9bf1,
  0x7387, 0x620e, 0x5095, 0x411c, 0x35a3, 0x242a, 0x16b1, 0x0738,
  0xffcf, 0xee46, 0xdcdd, 0xcd54, 0xb9eb, 0xa862, 0x9af9, 0x8b70,
  0x8408, 0x9581, 0xa71a, 0xb693, 0xc22c, 0xd3a5, 0xe13e, 0xf0b7,
  0x0840, 0x19c9, 0x2b52, 0x3adb, 0x4e64, 0x5fed, 0x6d76, 0x7cff,
  0x9489, 0x8500, 0xb79b, 0xa612, 0xd2ad, 0xc324, 0xf1bf, 0xe036,
  0x18c1, 0x0948, 0x3bd3, 0x2a5a, 0x5ee5, 0x4f6c, 0x7df7, 0x6c7e,
  0xa50a, 0xb483, 0x8618, 0x9791, 0xe32e, 0xf2a7, 0xc03c, 0xd1b5,
  0x2942, 0x38cb, 0x0a50, 0x1bd9, 0x6f66, 0x7eef, 0x4c74, 0x5dfd,
  0xb58b, 0xa402, 0x9699, 0x8710, 0xf3af, 0xe226, 0xd0bd, 0xc134,
  0x39c3, 0x284a, 0x1ad1, 0x0b58, 0x7fe7, 0x6e6e, 0x5cf5, 0x4d7c,
  0xc60c, 0xd785, 0xe51e, 0xf497, 0x8028, 0x91a1, 0xa33a, 0xb2b3,
  0x4a44, 0x5bcd, 0x6956, 0x78df, 0x0c60, 0x1de9, 0x2f72, 0x3efb,
  0xd68d, 0xc704, 0xf59f, 0xe416, 0x90a9, 0x8120, 0xb3bb, 0xa232,
  0x5ac5, 0x4b4c, 0x79d7, 0x685e, 0x1ce1, 0x0d68, 0x3ff3, 0x2e7a,
  0xe70e, 0xf687, 0xc41c, 0xd595, 0xa12a, 0xb0a3, 0x8238, 0x93b1,
  0x6b46, 0x7acf, 0x4854, 0x59dd, 0x2d62, 0x3ceb, 0x0e70, 0x1ff9,
  0xf78f, 0xe606, 0xd49d, 0xc514, 0xb1ab, 0xa022, 0x92b9, 0x8330,
  0x7bc7, 0x6a4e, 0x58d5, 0x495c, 0x3de3, 0x2c6a, 0x1ef1, 0x0f78]

/-- `PPP_FCS`. -/
def pppFcs (fcs : BitVec 16) (c : UInt8) : BitVec 16 :=
  (fcs >>> 8) ^^^ fcstab.getD ((fcs ^^^ c.toBitVec.setWidth 16) &&& 0xff).toNat 0

def pppInitFcs : BitVec 16 := 0xffff
def pppGoodFcs : BitVec 16 := 0xf0b8

/-- `ppp_get_fcs`, the loop that the table replaces. -/
def pppGetFcs (byte : BitVec 16) : Nat → BitVec 16
  | 0 => byte
  | bit + 1 =>
    pppGetFcs (if byte.getLsbD 0 then (byte >>> 1) ^^^ pppFcsPolynomial else byte >>> 1) bit

/-- `fcstab` is what `genfcstab` computes. -/
theorem fcstab_eq : fcstab = (List.range 256).map fun i => pppGetFcs (BitVec.ofNat 16 i) 8 := by
  decide +kernel

theorem pppGetFcs_eq (byte : BitVec 16) (n : Nat) :
    pppGetFcs byte n = Crc.shift pppFcsPolynomial n byte := by
  induction n generalizing byte with
  | zero => rfl
  | succ n ih =>
    rw [pppGetFcs, ih, Crc.shift_succ]
    congr 1
    cases h : byte.getLsbD 0 <;> simp [Crc.step, h, -BitVec.getLsbD_eq_getElem]

/-- The bits of a message in line order. -/
def lineBits (bs : Bytes) : List Bool := bs.flatMap fun b => Crc.bits b.toBitVec

/-- The table gives eight turns of the shift register at once. -/
theorem pppFcs_eq (fcs : BitVec 16) (c : UInt8) :
    pppFcs fcs c = Crc.run pppFcsPolynomial fcs (Crc.bits c.toBitVec) := by
  have hindex : ((fcs ^^^ c.toBitVec.setWidth 16) &&& 0xff) =
      ((fcs ^^^ c.toBitVec.setWidth 16).setWidth 8).setWidth 16 := by
    apply BitVec.eq_of_getLsbD_eq
    intro i hi
    have hmask : (0xff : BitVec 16).getLsbD i = decide (i < 8) := by
      revert i
      decide
    rw [BitVec.getLsbD_and, hmask, BitVec.getLsbD_setWidth, BitVec.getLsbD_setWidth]
    simp only [hi, decide_true, Bool.true_and]
    exact Bool.and_comm _ _
  have hlt : ((fcs ^^^ c.toBitVec.setWidth 16).setWidth 8).toNat < 256 :=
    ((fcs ^^^ c.toBitVec.setWidth 16).setWidth 8).isLt
  rw [Crc.run_bits _ (by decide), pppFcs, hindex, fcstab_eq, ← pppGetFcs_eq]
  congr 1
  rw [BitVec.toNat_setWidth, Nat.mod_eq_of_lt (Nat.lt_of_lt_of_le hlt (by decide)),
    List.getD_eq_getElem _ _ (by simpa using hlt), List.getElem_map, List.getElem_range,
    BitVec.ofNat_toNat]

theorem foldl_pppFcs (fcs : BitVec 16) (bs : Bytes) :
    bs.foldl pppFcs fcs = Crc.run pppFcsPolynomial fcs (lineBits bs) := by
  induction bs generalizing fcs with
  | nil => rfl
  | cons c bs ih =>
    rw [List.foldl_cons, ih, pppFcs_eq, ← Crc.run_append]
    rfl

theorem polynomial_top : pppFcsPolynomial.getLsbD (16 - 1) = true := rfl

/-- `PPP_GOODFCS` is the residue of the polynomial. -/
theorem goodFcs_residue : pppGoodFcs = Crc.residue pppFcsPolynomial := by decide

/-- The two bytes that `pppos_output_last` appends: `~(*fcs) & 0xFF` and `(~(*fcs) >> 8) & 0xFF`. -/
def trailer (fcs : BitVec 16) : Bytes := [⟨(~~~fcs).setWidth 8⟩, ⟨(~~~fcs >>> 8).setWidth 8⟩]

theorem lineBits_trailer (fcs : BitVec 16) : lineBits (trailer fcs) = Crc.bits (~~~fcs) := by
  have h : ~~~fcs = (~~~fcs >>> 8).setWidth 8 ++ (~~~fcs).setWidth 8 := by
    apply BitVec.eq_of_getLsbD_eq
    intro i hi
    rw [BitVec.getLsbD_append]
    rcases Nat.lt_or_ge i 8 with h8 | h8
    · simp [h8, hi]
    · simp [Nat.not_lt.mpr h8, Nat.add_sub_cancel' h8, show i - 8 < 8 by omega]
  rw [congrArg Crc.bits h, Crc.bits_append]
  simp [lineBits, trailer]

/-- The check value of a whole frame is good exactly when its last two bytes are the trailer of the
    others. -/
theorem good_iff (fcs : BitVec 16) (a b : UInt8) :
    [a, b].foldl pppFcs fcs = pppGoodFcs ↔ [a, b] = trailer fcs := by
  have hlen : (lineBits [a, b]).length = 16 := by simp [lineBits]
  rw [foldl_pppFcs, goodFcs_residue, Crc.run_eq_residue_iff _ polynomial_top _ hlen,
    ← lineBits_trailer]
  constructor
  · intro h
    have h' : Crc.bits a.toBitVec ++ Crc.bits b.toBitVec =
        Crc.bits ((~~~fcs).setWidth 8) ++ Crc.bits ((~~~fcs >>> 8).setWidth 8) := by
      simpa [lineBits, trailer] using h
    obtain ⟨ha, hb⟩ := List.append_inj h' (by simp)
    have ha' := Crc.bits_injective ha
    have hb' := Crc.bits_injective hb
    cases a
    cases b
    simp only at ha' hb'
    rw [ha', hb']
    rfl
  · intro h
    rw [h]

/-! ## Escapes -/

def pppAllstations : UInt8 := 0xff
def pppUi : UInt8 := 0x03
def pppFlag : UInt8 := 0x7e
def pppEscape : UInt8 := 0x7d
def pppTrans : UInt8 := 0x20

/-- `ext_accm`. -/
abbrev ExtAccm := Fin 32 → BitVec 8

theorem octet_index (c : UInt8) : c.toNat / 8 < 32 :=
  Nat.div_lt_of_lt_mul c.toNat_lt

/-- `ESCAPE_P`. -/
def escapeP (accm : ExtAccm) (c : UInt8) : Bool :=
  decide (accm ⟨c.toNat / 8, octet_index c⟩ &&& (1#8 <<< (c.toNat % 8)) ≠ 0)

/-- The map that `pppos_connect` starts with: cleared, then `[15] = 0x60`. -/
def connectAccm : ExtAccm := fun i => if i = 15 then 0x60 else 0

/-- The bits of the 32 control codes, as `pppos_send_config` and `pppos_recv_config` load them. -/
def loadAccm (accm : BitVec 32) (m : ExtAccm) : ExtAccm := fun i =>
  if i.val < 4 then (accm >>> (8 * i.val)).setWidth 8 else m i

/-- A map as it can be during a session. -/
def SessionAccm (m : ExtAccm) : Prop := ∃ accm, m = loadAccm accm connectAccm

theorem connectAccm_session : SessionAccm connectAccm := by
  refine ⟨0, funext fun i => ?_⟩
  revert i
  decide

theorem loadAccm_session (accm : BitVec 32) {m : ExtAccm} (h : SessionAccm m) :
    SessionAccm (loadAccm accm m) := by
  obtain ⟨a, rfl⟩ := h
  refine ⟨accm, funext fun i => ?_⟩
  unfold loadAccm
  by_cases hi : i.val < 4
  · simp only [if_pos hi]
  · simp only [if_neg hi]

/-- Beyond the control codes only the escape and the flag are special. -/
theorem escapeP_printable {m : ExtAccm} (h : SessionAccm m) {c : UInt8} (hc : 32 ≤ c.toNat) :
    escapeP m c = (decide (c = pppEscape) || decide (c = pppFlag)) := by
  obtain ⟨a, rfl⟩ := h
  have hindex : ¬ c.toNat / 8 < 4 := by omega
  have hbase : escapeP (loadAccm a connectAccm) c = escapeP connectAccm c := by
    simp only [escapeP, loadAccm, if_neg hindex]
  have hall : ∀ x : BitVec 8, 32 ≤ x.toNat → escapeP connectAccm ⟨x⟩ =
      (decide ((⟨x⟩ : UInt8) = pppEscape) || decide ((⟨x⟩ : UInt8) = pppFlag)) := by
    decide +kernel
  rw [hbase]
  exact hall c.toBitVec hc

theorem escapeP_escape {m : ExtAccm} (h : SessionAccm m) : escapeP m pppEscape = true := by
  rw [escapeP_printable h (by decide)]
  rfl

theorem escapeP_flag {m : ExtAccm} (h : SessionAccm m) : escapeP m pppFlag = true := by
  rw [escapeP_printable h (by decide)]
  rfl

/-- A control code is special when its bit is set. -/
theorem escapeP_control (accm : BitVec 32) (m : ExtAccm) {c : UInt8} (hc : c.toNat < 32) :
    escapeP (loadAccm accm m) c = accm.getLsbD c.toNat := by
  have hindex : c.toNat / 8 < 4 := by omega
  have hbit : ((accm >>> (8 * (c.toNat / 8))).setWidth 8).getLsbD (c.toNat % 8) =
      accm.getLsbD c.toNat := by
    rw [BitVec.getLsbD_setWidth, BitVec.getLsbD_ushiftRight, Nat.div_add_mod]
    simp [Nat.mod_lt c.toNat (show 0 < 8 by decide)]
  have hmask : (1#8 <<< (c.toNat % 8)) = BitVec.twoPow 8 (c.toNat % 8) := rfl
  simp only [escapeP, loadAccm, if_pos hindex, hmask, BitVec.and_twoPow, hbit]
  cases accm.getLsbD c.toNat
  · simp
  · have hne : BitVec.twoPow 8 (c.toNat % 8) ≠ 0 := by
      have : ∀ k : Fin 8, BitVec.twoPow 8 k.val ≠ 0 := by decide
      exact this ⟨c.toNat % 8, Nat.mod_lt _ (by decide)⟩
    simpa using hne

/-- The reserved bytes of the line. -/
def hdlc : Stuffing UInt8 where
  esc := pppEscape
  flag := pppFlag
  trans c := c ^^^ pppTrans
  trans_trans c := by rw [UInt8.xor_assoc, UInt8.xor_self, UInt8.xor_zero]

/-- An escaped byte is a printable one, and not reserved. -/
theorem escaped_plain {out inn : ExtAccm} (ho : SessionAccm out) (hi : SessionAccm inn) {c : UInt8}
    (hc : escapeP out c = true) : escapeP inn (c ^^^ pppTrans) = false := by
  have hall : ∀ x : BitVec 8, x.toNat < 32 ∨ (⟨x⟩ : UInt8) = pppEscape ∨ (⟨x⟩ : UInt8) = pppFlag →
      32 ≤ ((⟨x⟩ : UInt8) ^^^ pppTrans).toNat ∧ (⟨x⟩ : UInt8) ^^^ pppTrans ≠ pppEscape ∧
        (⟨x⟩ : UInt8) ^^^ pppTrans ≠ pppFlag := by
    decide +kernel
  have hcase : c.toNat < 32 ∨ c = pppEscape ∨ c = pppFlag := by
    rcases Nat.lt_or_ge c.toNat 32 with h | h
    · exact Or.inl h
    · rw [escapeP_printable ho h] at hc
      simpa using Or.inr hc
  obtain ⟨hp, hesc, hflag⟩ := hall c.toBitVec hcase
  rw [escapeP_printable hi hp]
  simp [hesc, hflag]

/-- A receiver undoes what a sender did that escapes at least the codes the receiver drops. -/
theorem hdlc_covers {out inn : ExtAccm} (ho : SessionAccm out) (hi : SessionAccm inn)
    (h : ∀ c, escapeP inn c = true → escapeP out c = true) :
    hdlc.Covers (escapeP out) (escapeP inn) where
  esc := escapeP_escape hi
  special := h
  plain _ hc := escaped_plain ho hi hc

theorem flag_free {out : ExtAccm} (ho : SessionAccm out) (u : Bytes) :
    pppFlag ∉ hdlc.stuff (escapeP out) u :=
  Stuffing.flag_notMem_stuff hdlc (escapeP_flag ho) (by decide)
    (escaped_plain ho ho (escapeP_flag ho)) u

/-! ## Contents of a frame -/

/-- `protocol >> 8` as a byte. -/
def hiByte (protocol : BitVec 16) : UInt8 := ⟨(protocol >>> 8).setWidth 8⟩

/-- `protocol & 0xFF`. -/
def loByte (protocol : BitVec 16) : UInt8 := ⟨protocol.setWidth 8⟩

/-- `(u16_t)hi << 8 | lo`. -/
def join (hi lo : UInt8) : BitVec 16 :=
  (hi.toBitVec.setWidth 16 <<< 8) ||| lo.toBitVec.setWidth 16

@[simp] theorem hiByte_join (hi lo : UInt8) : hiByte (join hi lo) = hi := by
  unfold hiByte join
  congr 1
  apply BitVec.eq_of_getLsbD_eq
  intro i h
  simp [h, show 8 + i < 16 by omega]

@[simp] theorem loByte_join (hi lo : UInt8) : loByte (join hi lo) = lo := by
  unfold loByte join
  congr 1
  apply BitVec.eq_of_getLsbD_eq
  intro i h
  simp [h]

theorem join_bytes (protocol : BitVec 16) : join (hiByte protocol) (loByte protocol) = protocol := by
  apply BitVec.eq_of_getLsbD_eq
  intro i h
  unfold join hiByte loByte
  rcases Nat.lt_or_ge i 8 with h8 | h8
  · simp [h, h8]
  · simp [h, Nat.not_lt.mpr h8, Nat.add_sub_cancel' h8, show i - 8 < 8 by omega]

/-- A field that may be left out. -/
def dropField (c : UInt8) : Bytes → Bytes
  | [] => []
  | b :: u => if b = c then u else b :: u

/-- The second byte of a protocol field. -/
def protocolSecond (c : UInt8) : Bytes → Option (BitVec 16 × Bytes)
  | [] => none
  | d :: u => some (join c d, u)

/-- The protocol field, of one byte when that is odd. -/
def protocolField : Bytes → Option (BitVec 16 × Bytes)
  | [] => none
  | c :: u => if c &&& 1 ≠ 0 then some (c.toBitVec.setWidth 16, u) else protocolSecond c u

theorem dropField_cons (c b : UInt8) (u : Bytes) :
    dropField c (b :: u) = if b = c then u else b :: u := rfl

theorem protocolField_cons (c : UInt8) (u : Bytes) :
    protocolField (c :: u) =
      if c &&& 1 ≠ 0 then some (c.toBitVec.setWidth 16, u) else protocolSecond c u := rfl

/-- Address, control and protocol field. -/
def header (u : Bytes) : Option (BitVec 16 × Bytes) :=
  protocolField (dropField pppUi (dropField pppAllstations u))

/-- The most bytes behind the protocol field, check sequence included. -/
def maxData : Nat := 2826

/-- What the contents of a frame say: protocol and payload. -/
def deframe (u : Bytes) : Option Bytes :=
  match header u with
  | none => none
  | some (protocol, data) =>
    if u.foldl pppFcs pppInitFcs = pppGoodFcs ∧ data ≠ [] ∧ data.length ≤ maxData then
      some ((hiByte protocol :: loByte protocol :: data).take data.length)
    else none

/-- The protocol field of a sender. -/
def protocolBytes (pcomp : Bool) (protocol : BitVec 16) : Bytes :=
  (if !pcomp || decide (0xff < protocol) then [hiByte protocol] else []) ++ [loByte protocol]

/-- The fields that a sender puts in front of the payload. -/
def fields (accomp pcomp : Bool) (protocol : BitVec 16) : Bytes :=
  (if accomp then [] else [pppAllstations, pppUi]) ++ protocolBytes pcomp protocol

/-- A frame's contents: a body and its check sequence. -/
def sealed (body : Bytes) : Bytes := body ++ trailer (body.foldl pppFcs pppInitFcs)

theorem sealed_good (body : Bytes) : (sealed body).foldl pppFcs pppInitFcs = pppGoodFcs := by
  rw [sealed, List.foldl_append]
  exact (good_iff _ _ _).mpr rfl

/-- A good check value means a sealed body. -/
theorem good_sealed {u : Bytes} (hlen : 2 ≤ u.length)
    (h : u.foldl pppFcs pppInitFcs = pppGoodFcs) : ∃ body, u = sealed body := by
  refine ⟨u.take (u.length - 2), ?_⟩
  have hsplit : u.take (u.length - 2) ++ u.drop (u.length - 2) = u := List.take_append_drop _ _
  have hdrop : (u.drop (u.length - 2)).length = 2 := by
    rw [List.length_drop]
    omega
  obtain ⟨a, b, hab⟩ := List.length_eq_two.mp hdrop
  rw [hab] at hsplit
  rw [← hsplit, List.foldl_append] at h
  have htrailer := (good_iff _ _ _).mp h
  rw [sealed, ← htrailer]
  exact hsplit.symm

/-- The protocol numbers that may stand in a frame: the last byte is odd and the first one even, and
    where both compressions are on, the single byte is not one of a left-out field. -/
structure Plain (accomp pcomp : Bool) (protocol : BitVec 16) : Prop where
  odd : loByte protocol &&& 1 ≠ 0
  even : hiByte protocol &&& 1 = 0
  address : accomp = true → pcomp = true → protocol ≠ 0xff
  control : accomp = true → pcomp = true → protocol ≠ 0x03

instance (accomp pcomp : Bool) (protocol : BitVec 16) : Decidable (Plain accomp pcomp protocol) :=
  decidable_of_iff (loByte protocol &&& 1 ≠ 0 ∧ hiByte protocol &&& 1 = 0 ∧
      (accomp = true → pcomp = true → protocol ≠ 0xff) ∧
      (accomp = true → pcomp = true → protocol ≠ 0x03))
    ⟨fun ⟨a, b, c, d⟩ => ⟨a, b, c, d⟩, fun ⟨a, b, c, d⟩ => ⟨a, b, c, d⟩⟩

theorem even_ne {c : UInt8} (h : c &&& 1 = 0) : c ≠ pppAllstations ∧ c ≠ pppUi := by
  constructor <;> rintro rfl <;> exact absurd h (by decide)

theorem protocolField_two {hi lo : UInt8} (h : hi &&& 1 = 0) (u : Bytes) :
    protocolField (hi :: lo :: u) = some (join hi lo, u) :=
  if_neg (not_not_intro h)

theorem protocolField_one {c : UInt8} (h : c &&& 1 ≠ 0) (u : Bytes) :
    protocolField (c :: u) = some (c.toBitVec.setWidth 16, u) :=
  if_pos h

theorem loByte_small {protocol : BitVec 16} (h : ¬ (0xff : BitVec 16) < protocol) :
    (loByte protocol).toBitVec.setWidth 16 = protocol := by
  have hle : protocol.toNat ≤ 255 := BitVec.le_def.mp (BitVec.not_lt.mp h)
  apply BitVec.eq_of_toNat_eq
  simp [loByte, Nat.mod_eq_of_lt (show protocol.toNat < 256 by omega),
    Nat.mod_eq_of_lt protocol.isLt]

/-- The two forms of the protocol field. -/
theorem protocolBytes_cases (pcomp : Bool) (protocol : BitVec 16) :
    protocolBytes pcomp protocol = [hiByte protocol, loByte protocol] ∨
      (pcomp = true ∧ (loByte protocol).toBitVec.setWidth 16 = protocol ∧
        protocolBytes pcomp protocol = [loByte protocol]) := by
  unfold protocolBytes
  by_cases hp : (!pcomp || decide (0xff < protocol)) = true
  · rw [if_pos hp]
    exact Or.inl rfl
  · rw [if_neg hp]
    have hlong : ¬ (0xff : BitVec 16) < protocol := by
      intro hlt
      rw [decide_eq_true hlt, Bool.or_true] at hp
      exact hp rfl
    cases pcomp with
    | false => exact absurd rfl hp
    | true => exact Or.inr ⟨rfl, loByte_small hlong, rfl⟩

/-- A receiver finds the fields that a sender put there. -/
theorem header_fields {accomp pcomp : Bool} {protocol : BitVec 16} (h : Plain accomp pcomp protocol)
    (u : Bytes) : header (fields accomp pcomp protocol ++ u) = some (protocol, u) := by
  have hfield : protocolField (protocolBytes pcomp protocol ++ u) = some (protocol, u) := by
    rcases protocolBytes_cases pcomp protocol with hb | ⟨-, hlo, hb⟩
    · rw [hb, List.cons_append, List.cons_append, List.nil_append, protocolField_two h.even,
        join_bytes]
    · rw [hb, List.cons_append, List.nil_append, protocolField_one h.odd, hlo]
  unfold header fields
  cases accomp with
  | false => exact hfield
  | true =>
    -- nothing is left out that the protocol field could be taken for
    have hdrop : dropField pppUi (dropField pppAllstations (protocolBytes pcomp protocol ++ u)) =
        protocolBytes pcomp protocol ++ u := by
      rcases protocolBytes_cases pcomp protocol with hb | ⟨hpc, hlo, hb⟩
      · obtain ⟨haddr, hctl⟩ := even_ne h.even
        rw [hb]
        simp only [List.cons_append, dropField, if_neg haddr, if_neg hctl]
      · have hne : ∀ c : UInt8, protocol ≠ c.toBitVec.setWidth 16 → loByte protocol ≠ c := by
          rintro c hc rfl
          exact hc hlo.symm
        have haddr := hne pppAllstations (h.address rfl hpc)
        have hctl := hne pppUi (h.control rfl hpc)
        rw [hb]
        simp only [List.cons_append, dropField, if_neg haddr, if_neg hctl]
    rw [if_pos rfl, List.nil_append, hdrop, hfield]

/-- The round trip of one frame. -/
theorem deframe_sealed {accomp pcomp : Bool} {protocol : BitVec 16}
    (h : Plain accomp pcomp protocol) {payload : Bytes} (hlen : payload.length + 2 ≤ maxData) :
    deframe (sealed (fields accomp pcomp protocol ++ payload)) =
      some (hiByte protocol :: loByte protocol :: payload) := by
  have hheader : header (sealed (fields accomp pcomp protocol ++ payload)) =
      some (protocol, payload ++ trailer ((fields accomp pcomp protocol ++ payload).foldl pppFcs
        pppInitFcs)) := by
    rw [sealed, List.append_assoc]
    exact header_fields h _
  have hlen' : ∀ fcs, (payload ++ trailer fcs).length = payload.length + 2 := by
    intro fcs
    rw [List.length_append]
    rfl
  unfold deframe
  rw [hheader]
  simp only [sealed_good, hlen', true_and]
  rw [if_pos ⟨by simp [trailer], hlen⟩]
  simp

end PptpProxy.Ppp
