/-
  What holds of `pppos_input` whatever goes on around it: reads may be cut anywhere, the pool may run
  dry, and `ppp_input` may reconfigure or close the link.
-/
import PptpProxy.Ppp.Reception

namespace PptpProxy.Ppp

open CLib

universe u

/-! ## Segments -/

section

variable {σ : Type u} (e : Upper σ)

theorem inputFlag_open (s : σ) {p : Pppos} (h : p.isOpen = true) :
    (inputFlag e s p).2.2 = !(inputFlag e s p).2.1.isOpen := by
  unfold inputFlag
  cases p.inState with
  | pdIdle => simp [Pppos.prepare, h]
  | pdAddress => simp [Pppos.prepare, h]
  | pdControl => simp [Pppos.prepare, ppposInputDrop, ppposInputFreeCurrentPacket, h]
  | pdProtocol1 => simp [Pppos.prepare, ppposInputDrop, ppposInputFreeCurrentPacket, h]
  | pdProtocol2 => simp [Pppos.prepare, ppposInputDrop, ppposInputFreeCurrentPacket, h]
  | pdData =>
    by_cases hdrop : p.inFcs ≠ pppGoodFcs ∨ p.inPacket = .empty
    · simp [if_pos hdrop, Pppos.prepare, ppposInputDrop, ppposInputFreeCurrentPacket, h]
    · simp only [if_neg hdrop]
      by_cases hopen : (dispatch e s p).2.isOpen = true
      · simp [hopen, Pppos.prepare]
      · simp [hopen]

theorem inputOther_open (s : σ) (p : Pppos) (c : UInt8) :
    (inputOther e s p c).2.isOpen = p.isOpen := by
  have hnew : (inputNewPbuf e s p c).2.isOpen = p.isOpen := by
    unfold inputNewPbuf
    by_cases hbig : p.inPacket.chained ≠ [] ∧
        pppMru + pppMru / 10 + 2 < p.inPacket.chained.flatten.length
    · simp only [if_pos hbig]
      rfl
    · simp only [if_neg hbig]
      rcases e.pbufAlloc s with ⟨_ | _, s'⟩
      · rfl
      · by_cases hhead : p.inPacket.chained = []
        · simp only [if_pos hhead]
        · simp only [if_neg hhead]
  unfold inputOther
  cases p.inState with
  | pdIdle => rfl
  | pdAddress =>
    show (inputAddress p c).isOpen = _
    unfold inputAddress
    split
    · rfl
    · exact (sameLine_control p c).opened
  | pdControl => exact (sameLine_control p c).opened
  | pdProtocol1 => exact (sameLine_protocol1 p c).opened
  | pdProtocol2 => rfl
  | pdData =>
    show (inputData e s p c).2.isOpen = _
    unfold inputData
    split
    · exact hnew
    · split
      · exact hnew
      · rfl
    · split
      · exact hnew
      · rfl

/-- The loop is left exactly when the link has been closed. -/
theorem inputChar_open (s : σ) {p : Pppos} (h : p.isOpen = true) (c : UInt8) :
    (inputChar e s p c).2.2 = !(inputChar e s p c).2.1.isOpen := by
  unfold inputChar
  split
  · split
    · simp [h]
    · split
      · exact inputFlag_open e s h
      · simp [h]
  · have hother := inputOther_open e s { p with inEscaped := false }
      (if p.inEscaped then c ^^^ pppTrans else c)
    show false = !(inputOther e s { p with inEscaped := false }
      (if p.inEscaped then c ^^^ pppTrans else c)).2.isOpen
    rw [hother]
    show false = !p.isOpen
    rw [h]
    rfl

/-- A closed link reads nothing, an open one reads on where it was. -/
theorem ppposInput_append (s : σ) (p : Pppos) (a b : Bytes) :
    ppposInput e s p (a ++ b) =
      ppposInput e (ppposInput e s p a).1 (ppposInput e s p a).2 b := by
  by_cases hopen : p.isOpen = true
  · induction a generalizing s p with
    | nil => simp [ppposInput, inputLoop]
    | cons c a ih =>
      have hstop := inputChar_open e s hopen c
      have hcons : ∀ rest, ppposInput e s p (c :: rest) =
          if (inputChar e s p c).2.2 then ((inputChar e s p c).1, (inputChar e s p c).2.1)
          else ppposInput e (inputChar e s p c).1 (inputChar e s p c).2.1 rest := by
        intro rest
        unfold ppposInput
        rw [if_pos hopen, inputLoop]
        generalize inputChar e s p c = r at hstop
        obtain ⟨s', p', stop⟩ := r
        simp only at hstop
        subst hstop
        by_cases hp : p'.isOpen = true <;> simp [hp]
      rw [List.cons_append, hcons, hcons]
      by_cases hc : (inputChar e s p c).2.2 = true
      · have hclosed : ¬ (inputChar e s p c).2.1.isOpen = true := by
          rw [hc] at hstop
          simpa using hstop.symm
        rw [if_pos hc, if_pos hc, ppposInput, if_neg hclosed]
      · have hopen' : (inputChar e s p c).2.1.isOpen = true := by
          simpa [hc] using hstop
        rw [if_neg hc, if_neg hc]
        exact ih _ _ hopen'
  · simp [ppposInput, hopen]

/-- How the bytes are cut into reads makes no difference, whatever the surrounding does. -/
theorem ppposInput_reads (s : σ) (p : Pppos) (reads : List Bytes) :
    reads.foldl (fun r bytes => ppposInput e r.1 r.2 bytes) (s, p) =
      ppposInput e s p reads.flatten := by
  induction reads generalizing s p with
  | nil => by_cases h : p.isOpen = true <;> simp [ppposInput, inputLoop, h]
  | cons bytes reads ih => rw [List.foldl_cons, List.flatten_cons, ppposInput_append, ih]

/-- Two cuttings of the same bytes leave the link and everything around it in the same state, although
    `ppp_input` may reconfigure or close the link in the middle of a read. -/
theorem ppposInput_cutting (s : σ) (p : Pppos) (reads reads' : List Bytes)
    (h : reads.flatten = reads'.flatten) :
    reads.foldl (fun r bytes => ppposInput e r.1 r.2 bytes) (s, p) =
      reads'.foldl (fun r bytes => ppposInput e r.1 r.2 bytes) (s, p) := by
  rw [ppposInput_reads, ppposInput_reads, h]

/-- A frame in one read, and byte by byte. -/
theorem ppposInput_cutting_bytes :
    ([[0x7e, 0xff, 0x03, 0x00, 0x21, 0x7e]] : List Bytes).foldl
        (fun r bytes => ppposInput recorder r.1 r.2 bytes) ([], ppposConnect) =
      ([[0x7e], [0xff], [0x03], [0x00], [0x21], [0x7e]] : List Bytes).foldl
        (fun r bytes => ppposInput recorder r.1 r.2 bytes) ([], ppposConnect) :=
  ppposInput_cutting recorder [] ppposConnect [[0x7e, 0xff, 0x03, 0x00, 0x21, 0x7e]]
    [[0x7e], [0xff], [0x03], [0x00], [0x21], [0x7e]] rfl

end

/-! ## Properties of the surroundings -/

section

variable {σ : Type u} {e : Upper σ} {P : σ → Prop}

/-- Everything that the receiver calls keeps a property of what is around the link. -/
structure Upper.Keeps (e : Upper σ) (P : σ → Prop) : Prop where
  pbufAlloc : ∀ s, P s → P (e.pbufAlloc s).2
  pbufFree : ∀ s n, P s → P (e.pbufFree s n)
  vjUncompressErr : ∀ s, P s → P (e.vjUncompressErr s)
  pppInput : ∀ s p inp, P s → P (e.pppInput s p inp).1

theorem Upper.Keeps.drop (h : e.Keeps P) {s : σ} (hs : P s) (p : Pppos) :
    P (ppposInputDrop e s p).1 :=
  h.vjUncompressErr _ (h.pbufFree _ _ hs)

theorem Upper.Keeps.flag (h : e.Keeps P) {s : σ} (hs : P s) (p : Pppos) :
    P (inputFlag e s p).1 := by
  unfold inputFlag
  cases p.inState with
  | pdIdle => exact hs
  | pdAddress => exact hs
  | pdControl => exact h.drop hs p
  | pdProtocol1 => exact h.drop hs p
  | pdProtocol2 => exact h.drop hs p
  | pdData =>
    by_cases hdrop : p.inFcs ≠ pppGoodFcs ∨ p.inPacket = .empty
    · simp only [if_pos hdrop]
      exact h.drop hs p
    · have hdispatch : P (dispatch e s p).1 := h.pppInput _ _ _ (h.pbufFree _ _ hs)
      simp only [if_neg hdrop]
      by_cases hopen : (dispatch e s p).2.isOpen = true
      · simp only [if_pos hopen]
        exact hdispatch
      · simp only [if_neg hopen]
        exact hdispatch

theorem Upper.Keeps.newPbuf (h : e.Keeps P) {s : σ} (hs : P s) (p : Pppos) (c : UInt8) :
    P (inputNewPbuf e s p c).1 := by
  unfold inputNewPbuf
  by_cases hbig : p.inPacket.chained ≠ [] ∧
      pppMru + pppMru / 10 + 2 < p.inPacket.chained.flatten.length
  · simp only [if_pos hbig]
    exact h.drop hs p
  · simp only [if_neg hbig]
    have halloc := h.pbufAlloc s hs
    generalize e.pbufAlloc s = r at halloc
    obtain ⟨_ | _, s'⟩ := r
    · exact h.drop halloc p
    · by_cases hhead : p.inPacket.chained = []
      · simp only [if_pos hhead]
        exact halloc
      · simp only [if_neg hhead]
        exact halloc

theorem Upper.Keeps.other (h : e.Keeps P) {s : σ} (hs : P s) (p : Pppos) (c : UInt8) :
    P (inputOther e s p c).1 := by
  unfold inputOther
  cases p.inState with
  | pdIdle => exact hs
  | pdAddress => exact hs
  | pdControl => exact hs
  | pdProtocol1 => exact hs
  | pdProtocol2 => exact hs
  | pdData =>
    show P (inputData e s p c).1
    unfold inputData
    split
    · exact h.newPbuf hs p c
    · split
      · exact h.newPbuf hs p c
      · exact hs
    · split
      · exact h.newPbuf hs p c
      · exact hs

theorem Upper.Keeps.char (h : e.Keeps P) {s : σ} (hs : P s) (p : Pppos) (c : UInt8) :
    P (inputChar e s p c).1 := by
  unfold inputChar
  split
  · split
    · exact hs
    · split
      · exact h.flag hs p
      · exact hs
  · exact h.other hs _ _

/-- A property that every call keeps is kept by every read. -/
theorem Upper.Keeps.input (h : e.Keeps P) (bytes : Bytes) {s : σ} (hs : P s) (p : Pppos) :
    P (ppposInput e s p bytes).1 := by
  have hloop : ∀ (s : σ) (p : Pppos), P s → P (inputLoop e s p bytes).1 := by
    induction bytes with
    | nil => exact fun s p hs => hs
    | cons c bytes ih =>
      intro s p hs
      have hchar := h.char hs p c
      unfold inputLoop
      generalize inputChar e s p c = r at hchar
      obtain ⟨s', p', _ | _⟩ := r
      · exact ih s' p' hchar
      · exact hchar
  unfold ppposInput
  split
  · exact hloop s p hs
  · exact hs

end

/-! ## The pbuf pool -/

/-- What `ppp_input` and the timers of the PPP core do to the link. -/
inductive LinkCall
  | sendConfig (accm : BitVec 32) (pcomp accomp : Bool)
  | recvConfig (accm : BitVec 32)
  | disconnect
  deriving Repr

/-- The books of the pool.  `answers` are what the next allocations will return and `calls` what
    `ppp_input` will do at the next packets. -/
structure Pool where
  answers : List Bool
  calls : List (List LinkCall)
  allocated : Nat
  freed : Nat
  handed : Nat

/-- One call from above. -/
def LinkCall.run (e : Upper Pool) (r : Pool × Pppos) : LinkCall → Pool × Pppos
  | .sendConfig accm pcomp accomp => (r.1, ppposSendConfig r.2 accm pcomp accomp)
  | .recvConfig accm => (r.1, ppposRecvConfig r.2 accm)
  | .disconnect => ppposDisconnect e r.1 r.2

def poolAlloc (s : Pool) : Bool × Pool :=
  match s.answers with
  | true :: answers => (true, { s with answers := answers, allocated := s.allocated + 1 })
  | false :: answers => (false, { s with answers := answers })
  | [] => (false, s)

/-- The pool by itself. -/
def bookkeeper : Upper Pool where
  pbufAlloc := poolAlloc
  pbufFree s n := { s with freed := s.freed + n }
  vjUncompressErr s := s
  pppInput s p _ := (s, p)

/-- The pool, and a `ppp_input` that calls back; it owns the pbufs of the packet from then on. -/
def surrounded : Upper Pool :=
  { bookkeeper with
    pppInput := fun s p inp =>
      s.calls.headI.foldl (LinkCall.run bookkeeper)
        ({ s with calls := s.calls.tail, handed := s.handed + inp.length }, p) }

/-- Every pbuf that was allocated has been freed, has been handed on, or is part of the packet that is
    coming in; and that is two pbufs at most. -/
structure Balanced (s : Pool) (p : Pppos) : Prop where
  books : s.allocated = s.freed + s.handed + p.inPacket.chained.length
  pair : ∀ head tail, p.inPacket = .chain head tail →
    ∃ first, head = [first] ∧ first.length = pbufPoolBufsize

theorem Balanced.congr {s : Pool} {p p' : Pppos} (h : Balanced s p)
    (hpacket : p'.inPacket = p.inPacket) : Balanced s p' :=
  ⟨hpacket ▸ h.books, fun head tail hk => h.pair head tail (hpacket ▸ hk)⟩

theorem Balanced.dropped {s : Pool} {p : Pppos} (h : Balanced s p) (p' : Pppos)
    (hpacket : p'.inPacket = .empty) :
    Balanced { s with freed := s.freed + p.inPacket.chained.length } p' := by
  refine ⟨?_, fun head tail hk => by rw [hpacket] at hk; cases hk⟩
  have hbooks := h.books
  have hnone : p'.inPacket.chained.length = 0 := by
    rw [hpacket]
    rfl
  show s.allocated = s.freed + p.inPacket.chained.length + s.handed + p'.inPacket.chained.length
  omega

theorem Balanced.call {r : Pool × Pppos} (h : Balanced r.1 r.2) (c : LinkCall) :
    Balanced (c.run bookkeeper r).1 (c.run bookkeeper r).2 := by
  cases c with
  | sendConfig accm pcomp accomp => exact h.congr rfl
  | recvConfig accm => exact h.congr rfl
  | disconnect =>
    have hclosed : Balanced r.1 { r.2 with isOpen := false } := h.congr rfl
    exact hclosed.dropped _ rfl

theorem Balanced.calls {r : Pool × Pppos} (h : Balanced r.1 r.2) (cs : List LinkCall) :
    Balanced (cs.foldl (LinkCall.run bookkeeper) r).1 (cs.foldl (LinkCall.run bookkeeper) r).2 := by
  induction cs generalizing r with
  | nil => exact h
  | cons c cs ih => exact ih (h.call c)

theorem pbufRealloc_length (chain : List Bytes) (n : Nat) :
    (pbufRealloc chain n).length ≤ chain.length := by
  induction chain generalizing n with
  | nil => exact Nat.le_refl 0
  | cons q rest ih =>
    unfold pbufRealloc
    split
    · exact Nat.succ_le_succ (ih _)
    · exact Nat.succ_le_succ (Nat.zero_le _)

theorem trimmed_length (k : InPacket) : k.trimmed.length ≤ k.chained.length := by
  cases k with
  | empty => exact Nat.le_refl 0
  | single tail =>
    show (if 2 < tail.length then [tail.take (tail.length - 2)]
      else pbufRealloc [tail] (tail.length - 2)).length ≤ 1
    split
    · exact Nat.le_refl 1
    · exact pbufRealloc_length [tail] _
  | chain head tail =>
    show (if 2 < tail.length then head ++ [tail.take (tail.length - 2)]
      else pbufRealloc (head ++ [tail]) ((head ++ [tail]).flatten.length - 2)).length ≤
        (head ++ [tail]).length
    split
    · simp
    · exact pbufRealloc_length _ _

theorem Balanced.dispatch {s : Pool} {p : Pppos} (h : Balanced s p) :
    Balanced (dispatch surrounded s p).1 (dispatch surrounded s p).2 := by
  have hbooks := h.books
  have hle := trimmed_length p.inPacket
  refine Balanced.calls (r := (_, _)) ⟨?_, fun head tail hk => by cases hk⟩ _
  show s.allocated = s.freed + (p.inPacket.chained.length - p.inPacket.trimmed.length) +
    (s.handed + p.inPacket.trimmed.length) + 0
  omega

theorem Balanced.flag {s : Pool} {p : Pppos} (h : Balanced s p) :
    Balanced (inputFlag surrounded s p).1 (inputFlag surrounded s p).2.1 := by
  have hdrop : Balanced (ppposInputDrop surrounded s p).1 (ppposInputDrop surrounded s p).2.prepare :=
    h.dropped _ rfl
  unfold inputFlag
  cases p.inState with
  | pdIdle => exact h.congr rfl
  | pdAddress => exact h.congr rfl
  | pdControl => exact hdrop
  | pdProtocol1 => exact hdrop
  | pdProtocol2 => exact hdrop
  | pdData =>
    by_cases hbad : p.inFcs ≠ pppGoodFcs ∨ p.inPacket = .empty
    · simp only [if_pos hbad]
      exact hdrop
    · simp only [if_neg hbad]
      split
      · exact h.dispatch.congr rfl
      · exact h.dispatch

theorem poolAlloc_cases (s : Pool) :
    (poolAlloc s).2.freed = s.freed ∧ (poolAlloc s).2.handed = s.handed ∧
      (poolAlloc s).2.allocated = s.allocated + (poolAlloc s).1.toNat := by
  unfold poolAlloc
  split <;> exact ⟨rfl, rfl, rfl⟩

/-- A packet that asks for a new pbuf: none of it is there, or its last pbuf is full. -/
def WantsPbuf (p : Pppos) : Prop :=
  match p.inPacket with
  | .empty => True
  | .single tail => tail.length = pbufPoolBufsize
  | .chain _ tail => tail.length = pbufPoolBufsize

/-- There is room for one more, or the packet is given up. -/
theorem Balanced.newPbuf {s : Pool} {p : Pppos} (h : Balanced s p) (c : UInt8) (hp : WantsPbuf p) :
    Balanced (inputNewPbuf surrounded s p c).1 (inputNewPbuf surrounded s p c).2 := by
  have hlimit : pppMru + pppMru / 10 + 2 = 1652 := rfl
  unfold inputNewPbuf
  rw [hlimit]
  by_cases hbig : p.inPacket.chained ≠ [] ∧ 1652 < p.inPacket.chained.flatten.length
  · simp only [if_pos hbig]
    exact h.dropped _ rfl
  · simp only [if_neg hbig]
    obtain ⟨hfreed, hhanded, hallocated⟩ := poolAlloc_cases s
    have hcall : surrounded.pbufAlloc s = poolAlloc s := rfl
    rw [hcall]
    have hbooks := h.books
    generalize poolAlloc s = r at hfreed hhanded hallocated
    obtain ⟨_ | _, s'⟩ := r
    · have hsame : Balanced s' p := by
        refine ⟨?_, h.pair⟩
        simp only [Bool.toNat_false] at hallocated hfreed hhanded
        omega
      exact hsame.dropped _ rfl
    · simp only [Bool.toNat_true] at hallocated hfreed hhanded
      by_cases hnone : p.inPacket.chained = []
      · simp only [if_pos hnone]
        refine ⟨?_, fun head tail hk => by cases hk⟩
        rw [hnone, List.length_nil] at hbooks
        show s'.allocated = s'.freed + s'.handed + 1
        omega
      · simp only [if_neg hnone]
        refine ⟨?_, ?_⟩
        · show s'.allocated = s'.freed + s'.handed + (p.inPacket.chained ++ [[c]]).length
          rw [List.length_append, List.length_singleton]
          omega
        · intro head tail hk
          cases hk
          unfold WantsPbuf at hp
          cases hpacket : p.inPacket with
          | empty =>
            rw [hpacket] at hnone
            exact absurd rfl hnone
          | single tail =>
            rw [hpacket] at hp
            exact ⟨tail, rfl, hp⟩
          | chain head tail =>
            obtain ⟨first, rfl, hfirst⟩ := h.pair head tail hpacket
            rw [hpacket] at hp hbig
            refine absurd ⟨List.cons_ne_nil _ _, ?_⟩ hbig
            have hlen : ([first] ++ [tail] : List Bytes).flatten.length = 1414 + 1414 := by
              simp only [List.flatten_append, List.flatten_singleton, List.length_append, hfirst, hp,
                pbufPoolBufsize]
            show 1652 < ([first] ++ [tail] : List Bytes).flatten.length
            omega

theorem Balanced.other {s : Pool} {p : Pppos} (h : Balanced s p) (c : UInt8) :
    Balanced (inputOther surrounded s p c).1 (inputOther surrounded s p c).2 := by
  unfold inputOther
  cases p.inState with
  | pdIdle => exact h
  | pdAddress =>
    refine h.congr ?_
    show (inputAddress p c).inPacket = _
    unfold inputAddress inputControl inputProtocol1
    split
    · rfl
    · split
      · rfl
      · split <;> rfl
  | pdControl =>
    refine h.congr ?_
    show (inputControl p c).inPacket = _
    unfold inputControl inputProtocol1
    split
    · rfl
    · split <;> rfl
  | pdProtocol1 =>
    refine h.congr ?_
    show (inputProtocol1 p c).inPacket = _
    unfold inputProtocol1
    split <;> rfl
  | pdProtocol2 => exact h.congr rfl
  | pdData =>
    show Balanced (inputData surrounded s p c).1 (inputData surrounded s p c).2
    unfold inputData
    cases hk : p.inPacket with
    | empty =>
      refine h.newPbuf c ?_
      simp only [WantsPbuf, hk]
    | single tail =>
      by_cases hfull : tail.length = pbufPoolBufsize
      · simp only [if_pos hfull]
        refine h.newPbuf c ?_
        simp only [WantsPbuf, hk, hfull]
      · simp only [if_neg hfull]
        have hbooks := h.books
        rw [hk] at hbooks
        exact ⟨hbooks, fun head tail hk => by cases hk⟩
    | chain head tail =>
      by_cases hfull : tail.length = pbufPoolBufsize
      · simp only [if_pos hfull]
        refine h.newPbuf c ?_
        simp only [WantsPbuf, hk, hfull]
      · simp only [if_neg hfull]
        have hbooks := h.books
        rw [hk] at hbooks
        refine ⟨by simpa [InPacket.chained] using hbooks, fun head' tail' hk' => ?_⟩
        cases hk'
        exact h.pair head tail hk

theorem Balanced.char {s : Pool} {p : Pppos} (h : Balanced s p) (c : UInt8) :
    Balanced (inputChar surrounded s p c).1 (inputChar surrounded s p c).2.1 := by
  unfold inputChar
  split
  · split
    · exact h.congr rfl
    · split
      · exact h.flag
      · exact h
  · have hclear : Balanced s { p with inEscaped := false } := h.congr rfl
    exact (hclear.other (if p.inEscaped then c ^^^ pppTrans else c)).congr rfl

theorem Balanced.loop (stream : Bytes) {s : Pool} {p : Pppos} (h : Balanced s p) :
    Balanced (inputLoop surrounded s p stream).1 (inputLoop surrounded s p stream).2 := by
  induction stream generalizing s p with
  | nil => exact h
  | cons c stream ih =>
    have hchar := h.char c
    unfold inputLoop
    generalize inputChar surrounded s p c = r at hchar
    obtain ⟨s', p', stop⟩ := r
    cases stop with
    | true => exact hchar
    | false => exact ih hchar

/-- What happens to the link: a read, or a call from above. -/
inductive LinkEvent
  | read (bytes : Bytes)
  | call (c : LinkCall)

def LinkEvent.run (r : Pool × Pppos) : LinkEvent → Pool × Pppos
  | .read bytes => ppposInput surrounded r.1 r.2 bytes
  | .call c => c.run bookkeeper r

theorem Balanced.events (events : List LinkEvent) {r : Pool × Pppos} (h : Balanced r.1 r.2) :
    Balanced (events.foldl LinkEvent.run r).1 (events.foldl LinkEvent.run r).2 := by
  induction events generalizing r with
  | nil => exact h
  | cons event events ih =>
    refine ih ?_
    cases event with
    | read bytes =>
      show Balanced (ppposInput surrounded r.1 r.2 bytes).1 (ppposInput surrounded r.1 r.2 bytes).2
      unfold ppposInput
      split
      · exact h.loop bytes
      · exact h
    | call c => exact h.call c

end PptpProxy.Ppp
