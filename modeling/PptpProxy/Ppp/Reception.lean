/-
  What `pppos_input` hands to `ppp_input`, said without the automaton: the contents between two flags,
  read by `deframe`.

  The automaton is followed byte by byte.  `At` relates its state to the bytes since the last flag:
  the check value and the pending escape are functions of them, and the parser state and the pbufs
  hold what `scan` makes of them.  One lemma per kind of byte keeps `At`, and the loop is an induction
  over the stream.
-/
import PptpProxy.Ppp.Pppos

namespace PptpProxy.Ppp

open CLib

universe u

/-! ## The contents, read from left to right -/

/-- How far the contents of a frame have been read. -/
inductive Progress
  | address
  | control
  | protocol1
  | protocol2 (c : UInt8)
  | data (protocol : BitVec 16) (d : Bytes)
  | tooBig

namespace Progress

def nextProtocol (c : UInt8) : Progress :=
  if c &&& 1 ≠ 0 then .data (c.toBitVec.setWidth 16) [] else .protocol2 c

def nextControl (c : UInt8) : Progress := if c = pppUi then .protocol1 else nextProtocol c

def next : Progress → UInt8 → Progress
  | .address, c => if c = pppAllstations then .control else nextControl c
  | .control, c => nextControl c
  | .protocol1, c => nextProtocol c
  | .protocol2 b, c => .data (join b c) []
  | .data protocol d, c => if d.length = maxData then .tooBig else .data protocol (d ++ [c])
  | .tooBig, _ => .tooBig

theorem next_address (c : UInt8) :
    next .address c = if c = pppAllstations then .control else nextControl c := rfl

theorem next_data (protocol : BitVec 16) (d : Bytes) (c : UInt8) :
    next (.data protocol d) c =
      if d.length = maxData then .tooBig else .data protocol (d ++ [c]) := rfl

/-- Protocol and data, once the data has begun. -/
def settled : Progress → Option (BitVec 16 × Bytes)
  | .data protocol d => some (protocol, d)
  | _ => none

end Progress

/-- The progress behind `u`. -/
def scan (u : Bytes) : Progress := u.foldl Progress.next .address

theorem scan_snoc (u : Bytes) (c : UInt8) : scan (u ++ [c]) = (scan u).next c := by
  simp [scan]

theorem foldl_tooBig (u : Bytes) : u.foldl Progress.next .tooBig = .tooBig := by
  induction u with
  | nil => rfl
  | cons c u ih => exact ih

/-- The data that fits. -/
def fits (x : BitVec 16 × Bytes) : Option (BitVec 16 × Bytes) :=
  if x.2.length ≤ maxData then some x else none

theorem settled_data (protocol : BitVec 16) (d u : Bytes) (h : d.length ≤ maxData) :
    (u.foldl Progress.next (.data protocol d)).settled = fits (protocol, d ++ u) := by
  induction u generalizing d with
  | nil => simp [fits, h, Progress.settled]
  | cons c u ih =>
    rw [List.foldl_cons, Progress.next_data]
    by_cases hd : d.length = maxData
    · have hbig : ¬ (d ++ c :: u).length ≤ maxData := by
        simp only [List.length_append, List.length_cons]
        omega
      rw [if_pos hd, foldl_tooBig, fits, if_neg hbig]
      rfl
    · rw [if_neg hd, ih _ (by simp; omega), List.append_assoc]
      rfl

theorem settled_protocol2 (b : UInt8) (u : Bytes) :
    (u.foldl Progress.next (.protocol2 b)).settled =
      (protocolSecond b u).bind fits := by
  cases u with
  | nil => rfl
  | cons c u => exact settled_data (join b c) [] u (Nat.zero_le _)

theorem settled_nextProtocol (c : UInt8) (u : Bytes) :
    (u.foldl Progress.next (Progress.nextProtocol c)).settled =
      (protocolField (c :: u)).bind fits := by
  rw [Progress.nextProtocol, protocolField_cons]
  by_cases hc : c &&& 1 ≠ 0
  · rw [if_pos hc, if_pos hc]
    exact settled_data _ [] u (Nat.zero_le _)
  · rw [if_neg hc, if_neg hc]
    exact settled_protocol2 c u

theorem settled_protocol1 (u : Bytes) :
    (u.foldl Progress.next .protocol1).settled = (protocolField u).bind fits := by
  cases u with
  | nil => rfl
  | cons c u => exact settled_nextProtocol c u

theorem settled_nextControl (c : UInt8) (u : Bytes) :
    (u.foldl Progress.next (Progress.nextControl c)).settled =
      (protocolField (dropField pppUi (c :: u))).bind fits := by
  rw [Progress.nextControl, dropField_cons]
  by_cases hc : c = pppUi
  · rw [if_pos hc, if_pos hc]
    exact settled_protocol1 u
  · rw [if_neg hc, if_neg hc]
    exact settled_nextProtocol c u

/-- The scan finds the header and stops at data that does not fit. -/
theorem settled_scan (u : Bytes) : (scan u).settled = (header u).bind fits := by
  unfold scan header
  cases u with
  | nil => rfl
  | cons c u =>
    rw [List.foldl_cons, Progress.next_address, dropField_cons pppAllstations]
    by_cases hc : c = pppAllstations
    · rw [if_pos hc, if_pos hc]
      cases u with
      | nil => rfl
      | cons c u => exact settled_nextControl c u
    · rw [if_neg hc, if_neg hc]
      exact settled_nextControl c u

/-- What a flag makes of the contents in front of it. -/
def flagged (fcs : BitVec 16) : Progress → Option Bytes
  | .data protocol d =>
    if fcs = pppGoodFcs ∧ d ≠ [] then some ((hiByte protocol :: loByte protocol :: d).take d.length)
    else none
  | _ => none

theorem deframe_eq (u : Bytes) :
    deframe u = flagged (u.foldl pppFcs pppInitFcs) (scan u) := by
  have h := settled_scan u
  unfold deframe
  cases hu : header u with
  | none =>
    rw [hu] at h
    cases hs : scan u with
    | data protocol d =>
      rw [hs] at h
      cases h
    | _ => rfl
  | some x =>
    obtain ⟨protocol, d⟩ := x
    rw [hu, Option.bind_some, fits] at h
    by_cases hfit : d.length ≤ maxData
    · rw [if_pos hfit] at h
      cases hs : scan u with
      | data protocol' d' =>
        rw [hs] at h
        cases h
        simp only [flagged, hfit, and_true]
      | _ =>
        rw [hs] at h
        cases h
    · rw [if_neg hfit] at h
      simp only [hfit, and_false, if_false]
      cases hs : scan u with
      | data protocol' d' =>
        rw [hs] at h
        cases h
      | _ => rfl

/-! ## The pbufs -/

/-- The pbufs that hold the data `d` behind its protocol number. -/
inductive Loaded (protocol : BitVec 16) : Bytes → InPacket → Prop
  | empty : Loaded protocol [] .empty
  | single {d : Bytes} (some : d ≠ []) (room : d.length + 2 ≤ pbufPoolBufsize) :
    Loaded protocol d (.single (hiByte protocol :: loByte protocol :: d))
  | chain {d first tail : Bytes} (bytes : first ++ tail = hiByte protocol :: loByte protocol :: d)
    (full : first.length = pbufPoolBufsize) (some : tail ≠ [])
    (room : tail.length ≤ pbufPoolBufsize) : Loaded protocol d (.chain [first] tail)

/-- A packet is not empty once there is data. -/
theorem Loaded.empty_iff {protocol : BitVec 16} {d : Bytes} {k : InPacket}
    (h : Loaded protocol d k) : k = .empty ↔ d = [] := by
  cases h with
  | empty => simp
  | single hsome _ => simp [hsome]
  | chain bytes full hsome room =>
    have hlen := congrArg List.length bytes
    have htail := List.length_pos_iff.mpr hsome
    simp only [List.length_append, List.length_cons, full] at hlen
    constructor
    · intro hk
      cases hk
    · rintro rfl
      simp only [List.length_nil, pbufPoolBufsize] at hlen
      omega

theorem pbufRealloc_flatten (chain : List Bytes) (n : Nat) (h : chain ≠ []) :
    (pbufRealloc chain n).flatten = chain.flatten.take n := by
  induction chain generalizing n with
  | nil => exact absurd rfl h
  | cons q rest ih =>
    unfold pbufRealloc
    by_cases hq : q.length < n
    · rw [if_pos hq, List.flatten_cons, List.flatten_cons, List.take_append,
        List.take_of_length_le (Nat.le_of_lt hq)]
      cases rest with
      | nil => simp [pbufRealloc]
      | cons r rest => rw [ih _ (List.cons_ne_nil _ _)]
    · rw [if_neg hq, List.flatten_cons, List.flatten_cons,
        List.take_append_of_le_length (Nat.not_lt.mp hq)]
      simp

/-- Both ways to trim a packet take off its last two bytes. -/
theorem trimmed_flatten (k : InPacket) :
    k.trimmed.flatten = k.chained.flatten.take (k.chained.flatten.length - 2) := by
  cases k with
  | empty => rfl
  | single tail =>
    show (if 2 < tail.length then [tail.take (tail.length - 2)]
      else pbufRealloc [tail] (tail.length - 2)).flatten = _
    by_cases ht : 2 < tail.length
    · rw [if_pos ht]
      simp [InPacket.chained]
    · rw [if_neg ht, pbufRealloc_flatten _ _ (List.cons_ne_nil _ _)]
      simp [InPacket.chained]
  | chain head tail =>
    show (if 2 < tail.length then head ++ [tail.take (tail.length - 2)]
      else pbufRealloc (head ++ [tail]) ((head ++ [tail]).flatten.length - 2)).flatten = _
    by_cases ht : 2 < tail.length
    · have hhead : head.flatten.take (head.flatten.length + tail.length - 2) = head.flatten :=
        List.take_of_length_le (by omega)
      have hrest : head.flatten.length + tail.length - 2 - head.flatten.length = tail.length - 2 := by
        omega
      rw [if_pos ht]
      simp only [InPacket.chained, List.flatten_append, List.flatten_singleton, List.length_append]
      rw [List.take_append, hhead, hrest]
    · rw [if_neg ht, pbufRealloc_flatten _ _ (by simp)]
      rfl

/-- What is dispatched: the protocol number and the data without its check sequence. -/
theorem Loaded.trimmed {protocol : BitVec 16} {d : Bytes} {k : InPacket} (h : Loaded protocol d k)
    (hd : d ≠ []) :
    k.trimmed.flatten = (hiByte protocol :: loByte protocol :: d).take d.length := by
  have hbytes : k.chained.flatten = hiByte protocol :: loByte protocol :: d := by
    cases h with
    | empty => exact absurd rfl hd
    | single => simp [InPacket.chained]
    | chain bytes => simpa [InPacket.chained] using bytes
  rw [trimmed_flatten, hbytes]
  rfl

section

variable {σ : Type u} (deliver : σ → Bytes → σ)

/-- A quiet surrounding: the pool does not run dry, and `ppp_input` leaves the link as it is. -/
def steady : Upper σ where
  pbufAlloc s := (true, s)
  pbufFree s _ := s
  vjUncompressErr s := s
  pppInput s p inp := (deliver s inp.flatten, p)

/-- A new pbuf for a packet whose pbufs are full. -/
theorem inputNewPbuf_steady (s : σ) (p : Pppos) (c : UInt8) :
    inputNewPbuf (steady deliver) s p c =
      (s, if p.inPacket.chained ≠ [] ∧ 1652 < p.inPacket.chained.flatten.length then
            { p with inPacket := .empty, inState := .pdIdle }
          else if p.inPacket.chained = [] then
            { p with inPacket := .single [hiByte p.inProtocol, loByte p.inProtocol, c] }
          else { p with inPacket := .chain p.inPacket.chained [c] }) := by
  have hlimit : pppMru + pppMru / 10 + 2 = 1652 := rfl
  unfold inputNewPbuf
  rw [hlimit]
  by_cases hbig : p.inPacket.chained ≠ [] ∧ 1652 < p.inPacket.chained.flatten.length
  · rw [if_pos hbig, if_pos hbig]
    rfl
  · rw [if_neg hbig, if_neg hbig]
    by_cases hempty : p.inPacket.chained = []
    · simp only [steady, if_pos hempty]
    · simp only [steady, if_neg hempty]

/-- One more byte of data. -/
theorem Loaded.inputData {p : Pppos} {d : Bytes} (h : Loaded p.inProtocol d p.inPacket) (s : σ)
    (c : UInt8) (hd : d.length ≠ maxData) :
    ∃ k, inputData (steady deliver) s p c = (s, { p with inPacket := k }) ∧
      Loaded p.inProtocol (d ++ [c]) k := by
  have hne : d ++ [c] ≠ [] := by simp
  unfold Ppp.inputData
  cases hk : p.inPacket with
  | empty =>
    rw [hk] at h
    cases h
    refine ⟨_, ?_, Loaded.single hne (by simp [pbufPoolBufsize])⟩
    simp [inputNewPbuf_steady, hk, InPacket.chained]
  | single tail =>
    rw [hk] at h
    obtain - | ⟨hsome, hroom⟩ := h
    by_cases hfull : (hiByte p.inProtocol :: loByte p.inProtocol :: d).length = pbufPoolBufsize
    · have hchain : Loaded p.inProtocol (d ++ [c])
          (.chain [hiByte p.inProtocol :: loByte p.inProtocol :: d] [c]) :=
        Loaded.chain rfl hfull (List.cons_ne_nil _ _) (by simp [pbufPoolBufsize])
      refine ⟨_, ?_, hchain⟩
      have hsmall : ¬ 1652 < (hiByte p.inProtocol :: loByte p.inProtocol :: d).length := by
        rw [hfull]
        decide
      simp only [if_pos hfull, inputNewPbuf_steady, hk, InPacket.chained, List.flatten_singleton,
        hsmall, and_false, if_false, List.cons_ne_nil]
    · refine ⟨_, if_neg hfull, ?_⟩
      simp only [List.length_cons] at hfull
      exact Loaded.single hne (by simp; omega)
  | chain head tail =>
    rw [hk] at h
    obtain - | - | ⟨hbytes, hlen, hsome, hroom⟩ := h
    have htotal := congrArg List.length hbytes
    simp only [List.length_append, List.length_cons, hlen] at htotal
    have hnot : ¬ tail.length = pbufPoolBufsize := by
      intro hfull
      apply hd
      simp only [pbufPoolBufsize, maxData] at *
      omega
    refine ⟨_, if_neg hnot, Loaded.chain ?_ hlen (by simp) (by simp; omega)⟩
    rw [← List.append_assoc, hbytes]
    rfl

/-- The byte that is too much. -/
theorem Loaded.inputData_tooBig {p : Pppos} {d : Bytes} (h : Loaded p.inProtocol d p.inPacket)
    (s : σ) (c : UInt8) (hd : d.length = maxData) :
    Ppp.inputData (steady deliver) s p c =
      (s, { p with inPacket := .empty, inState := .pdIdle }) := by
  unfold Ppp.inputData
  cases hk : p.inPacket with
  | empty =>
    rw [hk] at h
    cases h
    exact absurd hd (by decide)
  | single tail =>
    rw [hk] at h
    obtain - | ⟨-, hroom⟩ := h
    simp only [pbufPoolBufsize, maxData] at hroom hd
    omega
  | chain head tail =>
    rw [hk] at h
    obtain - | - | ⟨hbytes, hlen, hsome, hroom⟩ := h
    have htotal := congrArg List.length hbytes
    simp only [List.length_append, List.length_cons, hlen] at htotal
    have hfull : tail.length = pbufPoolBufsize := by
      simp only [pbufPoolBufsize, maxData] at *
      omega
    simp [inputNewPbuf_steady, hk, InPacket.chained, hlen, hfull, pbufPoolBufsize]

/-! ## The automaton -/

/-- The parser state that belongs to a progress. -/
inductive Holds (p : Pppos) : Progress → Prop
  | address (state : p.inState = .pdAddress) (packet : p.inPacket = .empty) : Holds p .address
  | control (state : p.inState = .pdControl) (packet : p.inPacket = .empty) : Holds p .control
  | protocol1 (state : p.inState = .pdProtocol1) (packet : p.inPacket = .empty) : Holds p .protocol1
  | protocol2 {c : UInt8} (state : p.inState = .pdProtocol2) (packet : p.inPacket = .empty)
    (protocol : p.inProtocol = c.toBitVec.setWidth 16 <<< 8) : Holds p (.protocol2 c)
  | data {d : Bytes} (state : p.inState = .pdData) (packet : Loaded p.inProtocol d p.inPacket) :
    Holds p (.data p.inProtocol d)
  | tooBig (state : p.inState = .pdIdle) (packet : p.inPacket = .empty) : Holds p .tooBig

/-- The bytes since the last flag, and the control block behind them. -/
structure At (m : ExtAccm) (front : Bytes) (p : Pppos) : Prop where
  opened : p.isOpen = true
  accm : p.inAccm = m
  escaped : p.inEscaped = hdlc.pending (escapeP m) false front
  fcs : p.inFcs = (hdlc.unstuff (escapeP m) false front).foldl pppFcs pppInitFcs
  progress : Holds p (scan (hdlc.unstuff (escapeP m) false front))

/-- Before the first flag. -/
structure Waiting (m : ExtAccm) (p : Pppos) : Prop where
  opened : p.isOpen = true
  accm : p.inAccm = m
  state : p.inState = .pdIdle
  packet : p.inPacket = .empty

theorem connect_waiting : Waiting connectAccm ppposConnect := ⟨rfl, rfl, rfl, rfl⟩

theorem Holds.protocol1_next {p : Pppos} (hpacket : p.inPacket = .empty) (c : UInt8) :
    Holds (inputProtocol1 p c) (Progress.nextProtocol c) := by
  unfold inputProtocol1 Progress.nextProtocol
  by_cases hc : c &&& 1 ≠ 0
  · rw [if_pos hc, if_pos hc]
    refine Holds.data (p := { p with inProtocol := c.toBitVec.setWidth 16, inState := .pdData })
      rfl ?_
    show Loaded _ [] p.inPacket
    rw [hpacket]
    exact Loaded.empty
  · rw [if_neg hc, if_neg hc]
    exact Holds.protocol2 rfl hpacket rfl

theorem Holds.control_next {p : Pppos} (hpacket : p.inPacket = .empty) (c : UInt8) :
    Holds (inputControl p c) (Progress.nextControl c) := by
  unfold inputControl Progress.nextControl
  by_cases hc : c = pppUi
  · rw [if_pos hc, if_pos hc]
    exact Holds.protocol1 rfl hpacket
  · rw [if_neg hc, if_neg hc]
    exact Holds.protocol1_next hpacket c

/-- What a byte of contents does not touch. -/
structure SameLine (p p' : Pppos) : Prop where
  opened : p'.isOpen = p.isOpen
  accm : p'.inAccm = p.inAccm
  escaped : p'.inEscaped = p.inEscaped
  fcs : p'.inFcs = p.inFcs

theorem sameLine_protocol1 (p : Pppos) (c : UInt8) : SameLine p (inputProtocol1 p c) := by
  unfold inputProtocol1
  split <;> exact ⟨rfl, rfl, rfl, rfl⟩

theorem sameLine_control (p : Pppos) (c : UInt8) : SameLine p (inputControl p c) := by
  unfold inputControl
  split
  · exact ⟨rfl, rfl, rfl, rfl⟩
  · exact sameLine_protocol1 p c

/-- One byte of contents: the parser state follows the progress. -/
theorem Holds.next {p : Pppos} {pr : Progress} (h : Holds p pr) (s : σ) (c : UInt8) :
    ∃ p', inputOther (steady deliver) s p c = (s, p') ∧ Holds p' (pr.next c) ∧ SameLine p p' := by
  unfold inputOther
  cases h with
  | address hstate hpacket =>
    simp only [hstate]
    refine ⟨_, rfl, ?_⟩
    rw [Progress.next_address, inputAddress]
    by_cases hc : c = pppAllstations
    · rw [if_pos hc, if_pos hc]
      exact ⟨Holds.control rfl hpacket, ⟨rfl, rfl, rfl, rfl⟩⟩
    · rw [if_neg hc, if_neg hc]
      exact ⟨Holds.control_next hpacket c, sameLine_control p c⟩
  | control hstate hpacket =>
    simp only [hstate]
    exact ⟨_, rfl, Holds.control_next hpacket c, sameLine_control p c⟩
  | protocol1 hstate hpacket =>
    simp only [hstate]
    exact ⟨_, rfl, Holds.protocol1_next hpacket c, sameLine_protocol1 p c⟩
  | protocol2 hstate hpacket hprotocol =>
    rename_i b
    simp only [hstate]
    refine ⟨_, rfl, ?_, ⟨rfl, rfl, rfl, rfl⟩⟩
    rw [hprotocol]
    refine Holds.data (p := { p with inProtocol := join b c, inState := .pdData }) rfl ?_
    show Loaded _ [] p.inPacket
    rw [hpacket]
    exact Loaded.empty
  | data hstate hloaded =>
    rename_i d
    simp only [hstate]
    rw [Progress.next_data]
    by_cases hd : d.length = maxData
    · rw [if_pos hd, hloaded.inputData_tooBig deliver s c hd]
      exact ⟨_, rfl, Holds.tooBig rfl rfl, ⟨rfl, rfl, rfl, rfl⟩⟩
    · obtain ⟨k, hk, hloaded'⟩ := hloaded.inputData deliver s c hd
      rw [if_neg hd, hk]
      exact ⟨_, rfl, Holds.data (p := { p with inPacket := k }) hstate hloaded', ⟨rfl, rfl, rfl, rfl⟩⟩
  | tooBig hstate hpacket =>
    simp only [hstate]
    exact ⟨_, rfl, Holds.tooBig hstate hpacket, ⟨rfl, rfl, rfl, rfl⟩⟩

/-- The check value and the escape are not read by the parser. -/
theorem Holds.congr {p p' : Pppos} {pr : Progress} (h : Holds p pr) (hstate : p'.inState = p.inState)
    (hpacket : p'.inPacket = p.inPacket) (hprotocol : p'.inProtocol = p.inProtocol) :
    Holds p' pr := by
  cases h with
  | address a b => exact Holds.address (hstate.trans a) (hpacket.trans b)
  | control a b => exact Holds.control (hstate.trans a) (hpacket.trans b)
  | protocol1 a b => exact Holds.protocol1 (hstate.trans a) (hpacket.trans b)
  | protocol2 a b c => exact Holds.protocol2 (hstate.trans a) (hpacket.trans b) (hprotocol.trans c)
  | data a b =>
    rw [← hprotocol]
    refine Holds.data (hstate.trans a) ?_
    rw [hprotocol, hpacket]
    exact b
  | tooBig a b => exact Holds.tooBig (hstate.trans a) (hpacket.trans b)

variable {m : ExtAccm}

theorem hdlc_step (front : Bytes) (c : UInt8) :
    hdlc.unstuff (escapeP m) false (front ++ [c]) = hdlc.unstuff (escapeP m) false front ++
        (if escapeP m c then [] else
          [if hdlc.pending (escapeP m) false front then c ^^^ pppTrans else c]) ∧
      hdlc.pending (escapeP m) false (front ++ [c]) =
        (escapeP m c && (hdlc.pending (escapeP m) false front || decide (c = pppEscape))) := by
  rw [Stuffing.unstuff_append, Stuffing.pending_append]
  by_cases hc : escapeP m c = true
  · simp only [Stuffing.unstuff, Stuffing.pending, hc, if_true, Bool.true_and, true_and]
    rfl
  · simp only [Stuffing.unstuff, Stuffing.pending, hc, if_false, Bool.false_and, Bool.false_eq_true,
      and_true]
    rfl

theorem inputChar_special {p : Pppos} {c : UInt8} (h : escapeP p.inAccm c = true) (s : σ) :
    inputChar (steady deliver) s p c =
      if c = pppEscape then (s, { p with inEscaped := true }, false)
      else if c = pppFlag then inputFlag (steady deliver) s p
      else (s, p, false) :=
  if_pos h

theorem inputChar_plain {p p' : Pppos} {s : σ} {c : UInt8} (h : ¬ escapeP p.inAccm c = true)
    (hother : inputOther (steady deliver) s { p with inEscaped := false }
      (if p.inEscaped then c ^^^ pppTrans else c) = (s, p')) :
    inputChar (steady deliver) s p c =
      (s, { p' with inFcs := pppFcs p'.inFcs (if p.inEscaped then c ^^^ pppTrans else c) }, false) := by
  unfold inputChar
  rw [if_neg h]
  simp only [hother]

/-- A byte other than the flag. -/
theorem At.char {front : Bytes} {p : Pppos} (h : At m front p) (s : σ)
    {c : UInt8} (hc : c ≠ pppFlag) :
    ∃ p', inputChar (steady deliver) s p c = (s, p', false) ∧ At m (front ++ [c]) p' := by
  obtain ⟨hunstuff, hpending⟩ := hdlc_step (m := m) front c
  have haccm : escapeP p.inAccm c = escapeP m c := by rw [h.accm]
  by_cases hesc : escapeP m c = true
  · rw [inputChar_special deliver (haccm.trans hesc)]
    simp only [hesc, if_true, List.append_nil, Bool.true_and] at hunstuff hpending
    by_cases hce : c = pppEscape
    · rw [if_pos hce]
      refine ⟨_, rfl, ⟨h.opened, h.accm, ?_, ?_, ?_⟩⟩
      · rw [hpending, decide_eq_true hce, Bool.or_true]
      · rw [hunstuff]
        exact h.fcs
      · rw [hunstuff]
        exact h.progress.congr rfl rfl rfl
    · rw [if_neg hce, if_neg hc]
      refine ⟨_, rfl, ⟨h.opened, h.accm, ?_, ?_, ?_⟩⟩
      · rw [hpending, decide_eq_false hce, Bool.or_false]
        exact h.escaped
      · rw [hunstuff]
        exact h.fcs
      · rw [hunstuff]
        exact h.progress
  · simp only [hesc, if_false, Bool.false_and, Bool.false_eq_true, ← h.escaped] at hunstuff hpending
    have hclear : Holds { p with inEscaped := false } (scan (hdlc.unstuff (escapeP m) false front)) :=
      h.progress.congr rfl rfl rfl
    obtain ⟨p', hp', hholds, hsame⟩ := hclear.next deliver s
      (if p.inEscaped then c ^^^ pppTrans else c)
    refine ⟨_, inputChar_plain deliver (haccm ▸ hesc) hp', ⟨hsame.opened.trans h.opened, hsame.accm.trans h.accm, ?_, ?_, ?_⟩⟩
    · rw [hpending]
      exact hsame.escaped
    · rw [hunstuff, List.foldl_append, List.foldl_cons, List.foldl_nil]
      show pppFcs p'.inFcs _ = _
      rw [hsame.fcs]
      exact congrArg (pppFcs · _) h.fcs
    · rw [hunstuff, scan_snoc]
      exact hholds.congr rfl rfl rfl

/-- Behind a flag everything starts anew. -/
theorem prepared {p : Pppos} (hopen : p.isOpen = true) (haccm : p.inAccm = m)
    (hpacket : p.inPacket = .empty) : At m [] p.prepare :=
  ⟨hopen, haccm, rfl, rfl, Holds.address rfl hpacket⟩

/-- The flag: what the contents in front of it say is delivered. -/
theorem At.flag {front : Bytes} {p : Pppos} (hm : SessionAccm m) (h : At m front p) (s : σ) :
    ∃ p', inputChar (steady deliver) s p pppFlag =
        ((deframe (hdlc.unstuff (escapeP m) false front)).elim s (deliver s), p', false) ∧
      At m [] p' := by
  have hflag : escapeP p.inAccm pppFlag = true := by
    rw [h.accm]
    exact escapeP_flag hm
  have hne : ¬ pppFlag = pppEscape := by decide
  rw [inputChar_special deliver hflag, if_neg hne, if_pos rfl, deframe_eq, ← h.fcs]
  have hprogress := h.progress
  unfold inputFlag
  generalize scan (hdlc.unstuff (escapeP m) false front) = pr at hprogress
  cases hprogress with
  | address hstate hpacket =>
    simp only [hstate]
    exact ⟨_, rfl, prepared h.opened h.accm hpacket⟩
  | control hstate hpacket =>
    simp only [hstate]
    exact ⟨_, rfl, prepared h.opened h.accm rfl⟩
  | protocol1 hstate hpacket =>
    simp only [hstate]
    exact ⟨_, rfl, prepared h.opened h.accm rfl⟩
  | protocol2 hstate hpacket hprotocol =>
    simp only [hstate]
    exact ⟨_, rfl, prepared h.opened h.accm rfl⟩
  | data hstate hloaded =>
    rename_i d
    simp only [hstate, flagged]
    by_cases hgood : p.inFcs = pppGoodFcs ∧ d ≠ []
    · have hkeep : ¬ (p.inFcs ≠ pppGoodFcs ∨ p.inPacket = .empty) := by
        rw [hloaded.empty_iff]
        tauto
      rw [if_neg hkeep, if_pos hgood, ← hloaded.trimmed hgood.2]
      exact ⟨_, if_pos h.opened, prepared h.opened h.accm rfl⟩
    · have hdrop : p.inFcs ≠ pppGoodFcs ∨ p.inPacket = .empty := by
        rw [hloaded.empty_iff]
        tauto
      rw [if_pos hdrop, if_neg hgood]
      exact ⟨_, rfl, prepared h.opened h.accm rfl⟩
  | tooBig hstate hpacket =>
    simp only [hstate]
    exact ⟨_, rfl, prepared h.opened h.accm hpacket⟩

/-- The packets in a stream whose open contents are `front`. -/
def accepted (m : ExtAccm) (front stream : Bytes) : List Bytes :=
  (Stuffing.frames pppFlag front stream).filterMap fun f => deframe (hdlc.unstuff (escapeP m) false f)

theorem accepted_append (front xs ys : Bytes) :
    accepted m front (xs ++ ys) =
      accepted m front xs ++ accepted m (Stuffing.rest pppFlag front xs) ys := by
  rw [accepted, Stuffing.frames_append, List.filterMap_append]
  rfl

theorem accepted_flag (front : Bytes) :
    accepted m front [pppFlag] = (deframe (hdlc.unstuff (escapeP m) false front)).toList := by
  rw [accepted, (Stuffing.frames_flag pppFlag front).1]
  cases h : deframe (hdlc.unstuff (escapeP m) false front) <;> simp [h]

/-- The loop over any stream. -/
theorem At.loop (hm : SessionAccm m) (stream : Bytes) {front : Bytes} {p : Pppos}
    (h : At m front p) (s : σ) :
    ∃ p', inputLoop (steady deliver) s p stream =
        ((accepted m front stream).foldl deliver s, p') ∧
      At m (Stuffing.rest pppFlag front stream) p' := by
  induction stream generalizing front p s with
  | nil => exact ⟨p, rfl, h⟩
  | cons c stream ih =>
    have hsplit := accepted_append (m := m) front [c] stream
    rw [List.singleton_append] at hsplit
    unfold inputLoop
    by_cases hc : c = pppFlag
    · subst hc
      obtain ⟨p', hchar, hat⟩ := h.flag deliver hm s
      obtain ⟨p'', hloop, hat'⟩ := ih hat
        ((deframe (hdlc.unstuff (escapeP m) false front)).elim s (deliver s))
      refine ⟨p'', ?_, ?_⟩
      · rw [hsplit, accepted_flag, (Stuffing.frames_flag pppFlag front).2, List.foldl_append]
        simp only [hchar, hloop]
        cases deframe (hdlc.unstuff (escapeP m) false front) <;> rfl
      · simpa [Stuffing.rest] using hat'
    · obtain ⟨p', hchar, hat⟩ := h.char deliver s hc
      obtain ⟨p'', hloop, hat'⟩ := ih hat s
      have hfree : pppFlag ∉ [c] := by
        rw [List.mem_singleton]
        exact Ne.symm hc
      obtain ⟨hframes, hrest⟩ := Stuffing.frames_flagFree front hfree
      refine ⟨p'', ?_, ?_⟩
      · rw [hsplit, accepted, hframes, hrest]
        simp only [hchar, hloop]
        rfl
      · simpa [Stuffing.rest, hc] using hat'

/-- Before the first flag a byte is lost. -/
theorem Waiting.char {p : Pppos} (h : Waiting m p) (s : σ) {c : UInt8} (hc : c ≠ pppFlag) :
    ∃ p', inputChar (steady deliver) s p c = (s, p', false) ∧ Waiting m p' := by
  by_cases hesc : escapeP p.inAccm c = true
  · rw [inputChar_special deliver hesc, if_neg hc]
    by_cases hce : c = pppEscape
    · rw [if_pos hce]
      exact ⟨_, rfl, ⟨h.opened, h.accm, h.state, h.packet⟩⟩
    · rw [if_neg hce]
      exact ⟨_, rfl, h⟩
  · have hother : inputOther (steady deliver) s { p with inEscaped := false }
        (if p.inEscaped then c ^^^ pppTrans else c) = (s, { p with inEscaped := false }) := by
      unfold inputOther
      simp only [h.state]
    exact ⟨_, inputChar_plain deliver hesc hother, ⟨h.opened, h.accm, h.state, h.packet⟩⟩

theorem Waiting.flag {p : Pppos} (hm : SessionAccm m) (h : Waiting m p) (s : σ) :
    ∃ p', inputChar (steady deliver) s p pppFlag = (s, p', false) ∧ At m [] p' := by
  have hflag : escapeP p.inAccm pppFlag = true := by
    rw [h.accm]
    exact escapeP_flag hm
  have hne : ¬ pppFlag = pppEscape := by decide
  rw [inputChar_special deliver hflag, if_neg hne, if_pos rfl]
  unfold inputFlag
  simp only [h.state]
  exact ⟨_, rfl, prepared h.opened h.accm h.packet⟩

/-- Nothing is delivered before the first flag, and it opens the first frame. -/
theorem Waiting.loop (hm : SessionAccm m) (stream front : Bytes) {p : Pppos} (h : Waiting m p)
    (s : σ) :
    (inputLoop (steady deliver) s p stream).1 =
      ((Stuffing.frames pppFlag front stream).tail.filterMap fun f =>
        deframe (hdlc.unstuff (escapeP m) false f)).foldl deliver s := by
  induction stream generalizing front p with
  | nil => rfl
  | cons c stream ih =>
    unfold inputLoop Stuffing.frames
    by_cases hc : c = pppFlag
    · subst hc
      obtain ⟨p', hchar, hat⟩ := h.flag deliver hm s
      obtain ⟨p'', hloop, -⟩ := hat.loop deliver hm stream s
      simp only [hchar, hloop, if_true, List.tail_cons]
      rfl
    · obtain ⟨p', hchar, hwait⟩ := h.char deliver s hc
      simp only [hchar, if_neg hc]
      exact ih (front ++ [c]) hwait

/-- What a session delivers, over any stream of bytes: the contents between flags that `deframe`
    accepts, in order, and nothing else. -/
theorem ppposInput_delivers (hm : SessionAccm m) (stream : Bytes) {p : Pppos} (h : Waiting m p)
    (s : σ) :
    (ppposInput (steady deliver) s p stream).1 =
      ((Stuffing.frames pppFlag [] stream).tail.filterMap fun f =>
        deframe (hdlc.unstuff (escapeP m) false f)).foldl deliver s := by
  unfold ppposInput
  rw [if_pos h.opened]
  exact h.loop deliver hm stream [] s

end

/-- The receiver that keeps a list of its packets. -/
def recorder : Upper (List Bytes) := steady fun packets packet => packets ++ [packet]

/-- Noise, a good frame, and a frame that has been cut off. -/
theorem ppposInput_delivers_good :
    (ppposInput recorder [] ppposConnect ([0x45, 0x7d] ++ pppFlag ::
      (hdlc.stuff (escapeP connectAccm) (sealed (fields false false 0x21 ++ [0x7e, 0x45])) ++
        [pppFlag, 0xff, 0x03, 0x00, 0x21, 0x45, pppFlag]))).1 = [[0x00, 0x21, 0x7e, 0x45]] :=
  (ppposInput_delivers _ connectAccm_session _ connect_waiting []).trans (by decide +kernel)

end PptpProxy.Ppp
