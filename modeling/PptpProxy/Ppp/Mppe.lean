/-
  `netif/ppp/mppe.c` with `polarssl/arc4.c`: the encryption of the packets in the tunnel.

  The fields of `ppp_mppe_state` that make up the key are a structure of their own, since `mppe_rekey`
  reads and writes nothing else.  `sha1` stands for the digest of `polarssl/sha1.c`; nothing is asked of
  it.  The coherency count is always reduced by `MPPE_CCOUNT_SPACE` and is a 12-bit word.  A packet is
  the list of its bytes.
-/
import PptpProxy.Lib.Keystream
import PptpProxy.Ppp.Frame

namespace PptpProxy.Ppp

open CLib

/-! ## `arc4.c` -/

/-- `arc4_context`. -/
structure Arc4 where
  x : UInt8
  y : UInt8
  m : List UInt8
  deriving DecidableEq, Repr

def Arc4.at (m : List UInt8) (i : UInt8) : UInt8 := m.getD i.toNat 0

/-- The second loop of `arc4_setup`, from `i` on for `n` turns. -/
def arc4Schedule (key : Bytes) (m : List UInt8) (j k : UInt8) (i : Nat) : Nat → List UInt8
  | 0 => m
  | n + 1 =>
    let k := if key.length ≤ k.toNat then 0 else k
    let a := m.getD i 0
    let j := j + a + key.getD k.toNat 0
    let m := (m.set i (Arc4.at m j)).set j.toNat a
    arc4Schedule key m j (k + 1) (i + 1) n

/-- `arc4_setup`. -/
def arc4Setup (key : Bytes) : Arc4 :=
  ⟨0, 0, arc4Schedule key ((List.range 256).map UInt8.ofNat) 0 0 0 256⟩

/-- One turn of the loop of `arc4_crypt`: the key byte. -/
def arc4Next (ctx : Arc4) : UInt8 × Arc4 :=
  let x := ctx.x + 1
  let a := Arc4.at ctx.m x
  let y := ctx.y + a
  let b := Arc4.at ctx.m y
  let m := (ctx.m.set x.toNat b).set y.toNat a
  (Arc4.at m (a + b), ⟨x, y, m⟩)

def arc4 : Keystream Arc4 := ⟨arc4Next⟩

/-- `arc4_crypt`. -/
def arc4Crypt (ctx : Arc4) (buf : Bytes) : Bytes × Arc4 := arc4.crypt ctx buf

/-! ## Keys -/

/-- The key part of `ppp_mppe_state`. -/
structure MppeKey where
  arc4 : Arc4
  masterKey : Bytes
  sessionKey : Bytes
  keylen : Nat
  deriving DecidableEq, Repr

def mppeSha1Pad1 : Bytes := List.replicate 40 0x00
def mppeSha1Pad2 : Bytes := List.replicate 40 0xf2

/-- `mppe_rekey`. -/
def mppeRekey (sha1 : Bytes → Bytes) (k : MppeKey) (initialKey : Bool) : MppeKey :=
  let digest := sha1 (k.masterKey.take k.keylen ++ mppeSha1Pad1 ++ k.sessionKey.take k.keylen ++
    mppeSha1Pad2)
  let key := digest.take k.keylen
  let key := if initialKey then key else (arc4Crypt (arc4Setup (digest.take k.keylen)) key).1
  -- 40-bit keys: three bytes are public
  let key := if k.keylen = 8 then [0xd1, 0x26, 0x9e] ++ key.drop 3 else key
  { k with arc4 := arc4Setup key, sessionKey := key ++ k.sessionKey.drop k.keylen }

/-! ## States -/

/-- `ppp_mppe_state`. -/
structure MppeState where
  key : MppeKey
  bits : BitVec 8
  ccount : BitVec 12
  sanityErrors : Nat
  stateful : Bool
  discard : Bool
  deriving DecidableEq, Repr

def mppeBitFlushed : BitVec 8 := 0x80
def mppeBitEncrypted : BitVec 8 := 0x10
def sanityMax : Nat := 1600

/-- What a function of this file asks of the rest of the stack. -/
inductive MppeCall
  | lcpClose
  | ccpResetrequest
  deriving DecidableEq, Repr

/-- The options of `mppe_init`. -/
structure MppeOptions where
  opt128 : Bool
  opt40 : Bool
  stateful : Bool
  deriving DecidableEq, Repr

/-- `mppe_init`, for a state that `ppp_start` has cleared and whose master key is set. -/
def mppeInit (sha1 : Bytes → Bytes) (s : MppeState) (options : MppeOptions) :
    MppeState × List MppeCall :=
  let s := { s with key := { s.key with sessionKey := s.key.masterKey } }
  if !options.opt128 && !options.opt40 then (s, [.lcpClose])
  else
    let key := { s.key with keylen := if options.opt128 then 16 else 8 }
    ({ s with
      key := mppeRekey sha1 key true
      stateful := s.stateful || options.stateful
      ccount := BitVec.allOnes 12
      bits := mppeBitEncrypted }, [])

/-- `mppe_comp_reset`. -/
def mppeCompReset (s : MppeState) : MppeState := { s with bits := s.bits ||| mppeBitFlushed }

/-- A packet whose count ends in `0xff`. -/
def flagPacket (ccount : BitVec 12) : Bool := ccount.setWidth 8 == 0xff

/-- The two bytes of the header: bits and count. -/
def mppeHeader (bits : BitVec 8) (ccount : BitVec 12) : Bytes :=
  [⟨(ccount >>> 8).setWidth 8 ||| bits⟩, ⟨ccount.setWidth 8⟩]

/-- `mppe_compress`; `alloc` says whether there is memory for the copy. -/
def mppeCompress (sha1 : Bytes → Bytes) (alloc : Bool) (s : MppeState) (protocol : BitVec 16)
    (pb : Bytes) : Option Bytes × MppeState :=
  if !alloc then (none, s)
  else
    let s := { s with ccount := s.ccount + 1 }
    let s :=
      if !s.stateful || flagPacket s.ccount || s.bits &&& mppeBitFlushed ≠ 0 then
        { s with key := mppeRekey sha1 s.key false, bits := s.bits ||| mppeBitFlushed }
      else s
    let header := mppeHeader s.bits s.ccount
    let (text, ctx) := arc4Crypt s.key.arc4 (hiByte protocol :: loByte protocol :: pb)
    (some (header ++ text),
      { s with bits := s.bits &&& ~~~mppeBitFlushed, key := { s.key with arc4 := ctx } })

/-! ## Decryption -/

/-- `sanity_error`, behind the errors that are added: the link is closed when there have been too many. -/
def sanityError (s : MppeState) (errors : Nat) : MppeState × List MppeCall × Option Bytes :=
  let s := { s with sanityErrors := (s.sanityErrors + errors) % 65536 }
  (s, if sanityMax ≤ s.sanityErrors then [.lcpClose] else [], none)

/-- "Rekey for every packet", until the count is `ccount`. -/
def mppeCatchUp (sha1 : Bytes → Bytes) (ccount : BitVec 12) : Nat → MppeState → MppeState
  | 0, s => s
  | n + 1, s =>
    if s.ccount = ccount then s
    else mppeCatchUp sha1 ccount n
      { s with key := mppeRekey sha1 s.key false, ccount := s.ccount + 1 }

/-- "Rekey for every missed flag packet", until the high part of the count is that of `ccount`. -/
def mppeCatchUpFlags (sha1 : Bytes → Bytes) (ccount : BitVec 12) : Nat → MppeState → MppeState
  | 0, s => s
  | n + 1, s =>
    if ccount &&& ~~~0xff = s.ccount &&& ~~~0xff then s
    else mppeCatchUpFlags sha1 ccount n
      { s with key := mppeRekey sha1 s.key false, ccount := s.ccount + 256 }

/-- "Decrypt the packet." -/
def mppeDecrypt (s : MppeState) (text : Bytes) : MppeState × List MppeCall × Option Bytes :=
  let (plain, ctx) := arc4Crypt s.key.arc4 text
  ({ s with key := { s.key with arc4 := ctx }, sanityErrors := s.sanityErrors >>> 1 }, [], some plain)

/-- The difference of two counts as C computes it: both are promoted to `int`, and the remainder has the
    sign of the difference. -/
def countAhead (ccount old : BitVec 12) : Int := ((ccount.toNat : Int) - old.toNat).tmod 4096

/-- The part of `mppe_decompress` for the stateless mode. -/
def decompressStateless (sha1 : Bytes → Bytes) (s : MppeState) (ccount : BitVec 12) (text : Bytes) :
    MppeState × List MppeCall × Option Bytes :=
  if 2048 < countAhead ccount s.ccount then sanityError s 1
  else mppeDecrypt (mppeCatchUp sha1 ccount 4096 s) text

/-- The part for the stateful mode. -/
def decompressStateful (sha1 : Bytes → Bytes) (s : MppeState) (flushed : Bool) (ccount : BitVec 12)
    (text : Bytes) : MppeState × List MppeCall × Option Bytes :=
  let rekeyed (s : MppeState) : MppeState :=
    if flushed then { s with key := mppeRekey sha1 s.key false } else s
  if !s.discard then
    let s := { s with ccount := s.ccount + 1 }
    if ccount ≠ s.ccount then ({ s with discard := true }, [.ccpResetrequest], none)
    else mppeDecrypt (rekeyed s) text
  else if !flushed then (s, [], none)
  else
    let s := mppeCatchUpFlags sha1 ccount 16 s
    mppeDecrypt (rekeyed { s with discard := false, ccount := ccount }) text

/-- `mppe_decompress`. -/
def mppeDecompress (sha1 : Bytes → Bytes) (s : MppeState) (pb : Bytes) :
    MppeState × List MppeCall × Option Bytes :=
  match pb with
  | b0 :: b1 :: text =>
    let flushed := b0.toBitVec &&& mppeBitFlushed ≠ 0
    let ccount : BitVec 12 := (b0.toBitVec.setWidth 4 ++ b1.toBitVec)
    if b0.toBitVec &&& mppeBitEncrypted = 0 then sanityError s 100
    else if !s.stateful && !flushed then sanityError s 100
    else if s.stateful && flagPacket ccount && !flushed then sanityError s 100
    else if !s.stateful then decompressStateless sha1 s ccount text
    else decompressStateful sha1 s flushed ccount text
  | _ => sanityError s 100

end PptpProxy.Ppp
