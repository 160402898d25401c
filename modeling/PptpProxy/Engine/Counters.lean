/-
  The traffic counters, and the clock behind STATUS.

  `sent_bytes` and `received_bytes` are global: two callbacks bump them and `ppp_status` resets them
  when the link comes up.  That they belong to the CURRENT link session rests on the teardown: when
  the link comes up no slot has a pcb, so no callback of an earlier session can come any more.

  A `Meter` runs beside the engine and keeps the books the counters are compared with: what was
  written on and acknowledged for each pcb since it was allocated, and what was written and received
  since the link came up.  lwIP and the clock are assumed to be sane (`Meter.sane`), and nothing else.
  The potential in the argument is the sum over the table of what each slot's pcb still has to be
  acknowledged (`Meter.owes`).
-/
import PptpProxy.Engine.Counting

namespace PptpProxy

open CLib Sys Books

/-! ## The meter -/

structure Meter where
  /-- Per pcb, since it was allocated: what `tcp_write` accepted, and what lwIP reported as sent. -/
  written : PcbId → Nat
  acked : PcbId → Nat
  /-- Since the link came up: what `tcp_write` accepted, and the payloads `on_tcp_receive` accepted. -/
  sent : Nat
  received : Nat
  /-- The monotonic clock when it was last read. -/
  clock : UInt64

namespace Meter

def initial : Meter := ⟨fun _ => 0, fun _ => 0, 0, 0, 0⟩

def io (m : Meter) : Io → Meter
  | .tcpNew (some p) =>
    { m with written := Function.update m.written p 0, acked := Function.update m.acked p 0 }
  | .tcpWrite p d .ok =>
    { m with written := Function.update m.written p (m.written p + d.length)
             sent := m.sent + d.length }
  | .pbufCopyPartial d => { m with received := m.received + d.length }
  | _ => m

def ios (m : Meter) (l : List Io) : Meter := l.foldl io m

/-- What lwIP or the clock says with an event. -/
def hears (m : Meter) : Event → Meter
  | .sent p n _ => { m with acked := Function.update m.acked p (m.acked p + n) }
  | .pppStatus _ _ _ now | .control _ _ now => { m with clock := now }
  | _ => m

/-- A link that comes up begins a session. -/
def session (m : Meter) (before after : Bool) : Meter :=
  if before = false ∧ after = true then { m with sent := 0, received := 0 } else m

/-- What is assumed of lwIP and of the clock: what is reported as sent on a pcb adds up to at most
    what was written on it; the clock never goes back and is not zero. -/
def sane (m : Meter) : Event → Prop
  | .sent p n _ => m.acked p + n ≤ m.written p
  | .pppStatus _ _ _ now | .control _ _ now => m.clock ≤ now ∧ now ≠ 0
  | _ => True

/-- What the slot's pcb still has to be acknowledged. -/
def owes (m : Meter) (c : Connection) : Nat :=
  match c.tcp with
  | some p => m.written p - m.acked p
  | none => 0

end Meter

/-- The engine with a meter beside it. -/
def metered (L : Lwip) : System (State × Meter) Event where
  init x := Started x.1 ∧ x.2 = Meter.initial
  enabled x e := enabled x.1 e ∧ x.2.sane e
  step x e :=
    ((exec L x.1 e).state,
      ((x.2.hears e).ios (exec L x.1 e).io).session x.1.linkUp (exec L x.1 e).state.linkUp)

/-! ## What a move does to the meter -/

/-- Interactions the meter does not read. -/
def Unmetered : Io → Prop
  | .tcpNew (some _) | .tcpWrite _ _ .ok | .pbufCopyPartial _ | .countReceived _ => False
  | _ => True

theorem receivedIn_append (io io' : List Io) :
    receivedIn (io ++ io') = receivedIn io + receivedIn io' := by
  simp [receivedIn]

section

variable {m : Meter} {c c' : Connection} {io io' : List Io}

theorem Meter.ios_append : m.ios (io ++ io') = (m.ios io).ios io' := List.foldl_append

theorem unmetered_ios (h : ∀ x ∈ io, Unmetered x) : m.ios io = m ∧ receivedIn io = 0 := by
  induction io with
  | nil => exact ⟨rfl, rfl⟩
  | cons x io ih =>
    obtain ⟨hm, hr⟩ := ih fun y hy => h y (List.mem_cons_of_mem x hy)
    have hx : m.io x = m ∧ receivedIn [x] = 0 := by
      have := h x List.mem_cons_self
      cases x with
      | tcpNew p => cases p with
        | none => exact ⟨rfl, rfl⟩
        | some p => exact this.elim
      | tcpWrite p d r => cases r with
        | ok => exact this.elim
        | _ => exact ⟨rfl, rfl⟩
      | pbufCopyPartial d => exact this.elim
      | countReceived n => exact this.elim
      | _ => exact ⟨rfl, rfl⟩
    refine ⟨?_, ?_⟩
    · show (m.io x).ios io = m
      rw [hx.1, hm]
    · rw [← List.singleton_append, receivedIn_append, hx.2, hr]

theorem allocated_ios {p : PcbId} (h : ∀ x ∈ io, Unmetered x) :
    m.ios (.tcpNew (some p) :: io) = m.io (.tcpNew (some p)) ∧
      receivedIn (.tcpNew (some p) :: io) = 0 := by
  obtain ⟨hm, hr⟩ := unmetered_ios (m := m.io (.tcpNew (some p))) h
  refine ⟨hm, ?_⟩
  rw [← List.singleton_append, receivedIn_append, hr]
  rfl

theorem AppendsOnly.unmetered (h : AppendsOnly io) : ∀ x ∈ io, Unmetered x :=
  h.all fun _ _ _ => trivial

theorem closeIo_unmetered (c : Connection) : ∀ x ∈ closeIo c, Unmetered x := by
  refine closeIo_all c (fun _ => trivial) ?_ (fun _ => trivial)
  simp [clearCallbacks, Unmetered]

/-- What a move that takes the slot from `c` to `c'` is to the meter. -/
inductive Charges (m : Meter) (c c' : Connection) (io : List Io) : Prop
  | nothing (hm : m.ios io = m ∧ receivedIn io = 0) (htcp : c'.tcp = c.tcp ∨ c'.tcp = none)
  | write {p : PcbId} {d : Bytes} (hm : m.ios io = m.io (.tcpWrite p d .ok) ∧ receivedIn io = 0)
      (htcp : c.tcp = some p) (htcp' : c'.tcp = some p)
  | receive {d : Bytes} (hm : m.ios io = m.io (.pbufCopyPartial d) ∧ receivedIn io = d.length)
      (htcp : c'.tcp = c.tcp)
  | allocate {p : PcbId} {rest : List Io} (hio : io = .tcpNew (some p) :: rest)
      (hm : m.ios io = m.io (.tcpNew (some p)) ∧ receivedIn io = 0)
      (htcp : c'.tcp = some p ∨ c'.tcp = none)

theorem Move.charges {up : Bool} (hm : Move up c io c') (m : Meter) : Charges m c c' io := by
  have hone : ∀ {x : Io}, Unmetered x → m.ios [x] = m ∧ receivedIn [x] = 0 :=
    fun hx => unmetered_ios (List.forall_mem_singleton.mpr hx)
  cases hm with
  | quiet hq =>
    refine .nothing (unmetered_ios fun x hx => ?_) (Or.inl rfl)
    have := hq x hx
    cases x with
    | tcpWrite p d r => cases r with
      | ok => exact this.2 rfl
      | _ => exact trivial
    | countSent _ => exact trivial
    | tcpSndbuf _ _ => exact trivial
    | dnsGethostbyname _ _ => exact trivial
    | _ => exact this.elim
  | accepted _ _ _ => exact .nothing (hone trivial) (Or.inr rfl)
  | acceptedForward _ _ _ => exact .nothing (hone trivial) (Or.inr rfl)
  | acceptClosed _ _ hc => exact .nothing ⟨rfl, rfl⟩ (Or.inr hc.tcp)
  | readHeader _ _ _ => exact .nothing (hone trivial) (Or.inl rfl)
  | greeted _ _ _ _ _ hio => exact .nothing (unmetered_ios hio.unmetered) (Or.inl rfl)
  | targeted _ _ ht _ hio => exact .nothing (unmetered_ios hio.unmetered) (Or.inl ht.frame.2.1)
  | asked _ _ _ _ => exact .nothing (hone trivial) (Or.inl rfl)
  | answered => exact .nothing (hone trivial) (Or.inl rfl)
  | opened _ _ _ _ => exact .allocate rfl ⟨rfl, rfl⟩ (Or.inl rfl)
  | @openFailed _ p address e _ _ _ _ _ hc =>
    have hio : installCallbacks p ++ [.tcpConnect p address c.port e] ++
        closeIo { c with tcp := some p, phase := .connecting } =
        .tcpNew (some p) :: ([.tcpArg p true, .tcpRecv p true, .tcpSent p true, .tcpErr p true,
          .tcpPoll p true, .tcpConnect p address c.port e] ++
          closeIo { c with tcp := some p, phase := .connecting }) := rfl
    rw [hio]
    refine .allocate rfl (allocated_ios (List.forall_mem_append.mpr ⟨?_, closeIo_unmetered _⟩))
      (Or.inr hc.tcp)
    simp [Unmetered]
  | connected _ _ _ hio =>
    exact .nothing (unmetered_ios (List.forall_mem_cons.mpr ⟨trivial, hio.unmetered⟩)) (Or.inl rfl)
  | flushed htcp _ => exact .write ⟨rfl, rfl⟩ htcp htcp
  | received _ _ _ => exact .receive ⟨rfl, by simp [receivedIn]⟩ rfl
  | finished _ _ =>
    refine .nothing (unmetered_ios ?_) (Or.inr rfl)
    refine List.forall_mem_append.mpr ⟨by simp [clearCallbacks, Unmetered], ?_⟩
    refine List.forall_mem_cons.mpr ⟨trivial, ?_⟩
    split <;> simp [Unmetered]
  | errored _ => exact .nothing (hone trivial) (Or.inr rfl)
  | drained _ => exact .nothing (hone trivial) (Or.inl rfl)
  | readStream _ _ _ hio =>
    exact .nothing (unmetered_ios (List.forall_mem_cons.mpr ⟨trivial, hio.unmetered⟩)) (Or.inl rfl)
  | closed hpre hc =>
    refine .nothing (unmetered_ios (List.forall_mem_append.mpr ⟨fun x hx => ?_,
      closeIo_unmetered c⟩)) (Or.inr hc.tcp)
    have := hpre x hx
    cases x with
    | tcpNew p => cases p with
      | none => exact trivial
      | some p => exact this.elim
    | read _ _ => exact trivial
    | appendBytes _ _ _ => exact trivial
    | countSent _ => exact trivial
    | dnsGethostbyname _ _ => exact trivial
    | _ => exact this.elim

theorem Meter.owes_none (h : c.tcp = none) : m.owes c = 0 := by
  unfold Meter.owes
  rw [h]

theorem Meter.owes_some {p : PcbId} (h : c.tcp = some p) :
    m.owes c = m.written p - m.acked p := by
  unfold Meter.owes
  rw [h]

theorem Meter.owes_congr {m' : Meter}
    (h : ∀ p, c.tcp = some p → m'.written p = m.written p ∧ m'.acked p = m.acked p) :
    m'.owes c = m.owes c := by
  cases hc : c.tcp with
  | none => rw [owes_none hc, owes_none hc]
  | some p => rw [owes_some hc, owes_some hc, (h p hc).1, (h p hc).2]

/-- A slot's debt grows by no more than what was written. -/
theorem Charges.owes (h : Charges m c c' io) :
    (m.ios io).owes c' + m.sent ≤ m.owes c + (m.ios io).sent := by
  cases h with
  | nothing hm htcp =>
    rw [hm.1]
    rcases htcp with htcp | htcp
    · unfold Meter.owes
      rw [htcp]
    · rw [Meter.owes_none htcp]
      omega
  | write hm htcp htcp' =>
    rw [hm.1, Meter.owes_some htcp, Meter.owes_some htcp']
    simp only [Meter.io, Function.update_self]
    omega
  | receive hm htcp =>
    rw [hm.1]
    unfold Meter.owes
    rw [htcp]
    rfl
  | allocate _ hm htcp =>
    rw [hm.1]
    rcases htcp with htcp | htcp
    · rw [Meter.owes_some htcp]
      simp only [Meter.io, Function.update_self]
      omega
    · rw [Meter.owes_none htcp]
      simp only [Meter.io]
      omega

theorem Charges.received (h : Charges m c c' io) :
    (m.ios io).received = m.received + receivedIn io := by
  cases h with
  | nothing hm _ => rw [hm.1, hm.2]; rfl
  | write hm _ _ => rw [hm.1, hm.2]; rfl
  | receive hm _ => rw [hm.1, hm.2]; rfl
  | allocate _ hm _ => rw [hm.1, hm.2]; rfl

/-- lwIP has not reported more than was written, for any pcb in the table. -/
def Covered (m : Meter) (conn : Slot → Connection) : Prop :=
  ∀ i p, (conn i).tcp = some p → m.acked p ≤ m.written p

/-- A slot's own pcb stays covered. -/
theorem Charges.covered (h : Charges m c c' io)
    (hc : ∀ p, c.tcp = some p → m.acked p ≤ m.written p) {p : PcbId} (hp : c'.tcp = some p) :
    (m.ios io).acked p ≤ (m.ios io).written p := by
  cases h with
  | nothing hm htcp =>
    rw [hm.1]
    rcases htcp with htcp | htcp
    · exact hc p (htcp.symm.trans hp)
    · rw [htcp] at hp
      cases hp
  | write hm htcp htcp' =>
    obtain rfl := Option.some.inj (htcp'.symm.trans hp)
    have := hc _ htcp
    rw [hm.1]
    simp only [Meter.io, Function.update_self]
    omega
  | receive hm htcp =>
    rw [hm.1]
    exact hc p (htcp.symm.trans hp)
  | allocate _ hm htcp =>
    rcases htcp with htcp | htcp
    · obtain rfl := Option.some.inj (htcp.symm.trans hp)
      rw [hm.1]
      simp only [Meter.io, Function.update_self]
      omega
    · rw [htcp] at hp
      cases hp

/-- The books of other slots' pcbs are not touched. -/
theorem Charges.spares {conn : Slot → Connection} {w : World} {used : Int → Prop} {may : Permit}
    {i j : Slot} (h : Charges m (conn i) c' io) (hown : PcbOwned conn w.pcb)
    (hf : Fair used may i w io) (hji : j ≠ i) {q : PcbId} (hq : (conn j).tcp = some q) :
    (m.ios io).written q = m.written q ∧ (m.ios io).acked q = m.acked q := by
  cases h with
  | nothing hm _ =>
    rw [hm.1]
    exact ⟨rfl, rfl⟩
  | @write p d hm htcp _ =>
    have hne : q ≠ p := by
      rintro rfl
      exact hji (hown.unique hq htcp)
    rw [hm.1]
    exact ⟨Function.update_of_ne hne .., rfl⟩
  | receive hm _ =>
    rw [hm.1]
    exact ⟨rfl, rfl⟩
  | @allocate p rest hio hm _ =>
    -- lwIP hands out a pcb that is not alive
    have hne : q ≠ p := by
      rintro rfl
      subst hio
      have hfresh : w.pcb q = none := hf.1
      rw [hown.live j q hq] at hfresh
      cases hfresh
    rw [hm.1]
    exact ⟨Function.update_of_ne hne .., Function.update_of_ne hne ..⟩

end

/-! ## What a path does -/

section

variable {clients answers : Prop} {s s' : State} {io : List Io} {m : Meter}

/-- An `Env` change leaves the counters, the link and the table alone. -/
theorem Env.still (h : Env s io s') : s'.conn = s.conn ∧ s'.sentBytes = s.sentBytes ∧
    s'.receivedBytes = s.receivedBytes ∧ s'.connectedSinceMs = s.connectedSinceMs ∧
    sentIn io = 0 ∧ ∀ x ∈ io, Unmetered x := by
  cases h with
  | watch _ => exact ⟨rfl, rfl, rfl, rfl, rfl, fun x hx => (by cases hx)⟩
  | control _ => exact ⟨rfl, rfl, rfl, rfl, rfl, fun x hx => (by cases hx)⟩
  | turnAway _ => exact ⟨rfl, rfl, rfl, rfl, rfl, by simp [Unmetered]⟩
  | reap _ => exact ⟨rfl, rfl, rfl, rfl, rfl, fun x hx => (by cases hx)⟩

/-- A path adds to the counters what its interactions say, and leaves the link alone. -/
theorem Path.counts (hp : Path clients answers s io s') :
    s'.sentBytes = s.sentBytes + UInt64.ofNat (sentIn io) ∧
    s'.receivedBytes = s.receivedBytes + UInt64.ofNat (receivedIn io) ∧
    s'.linkUp = s.linkUp ∧ s'.connectedSinceMs = s.connectedSinceMs := by
  induction hp with
  | nil => exact ⟨by simp [sentIn], by simp [receivedIn], rfl, rfl⟩
  | move _ _ _ ih =>
    obtain ⟨h1, h2, h3, h4⟩ := ih
    refine ⟨?_, ?_, h3, h4⟩
    · rw [h1, sentIn_append, UInt64.ofNat_add, ← UInt64.add_assoc]
      rfl
    · rw [h2, receivedIn_append, UInt64.ofNat_add, ← UInt64.add_assoc]
      rfl
  | env he _ ih =>
    obtain ⟨h1, h2, h3, h4⟩ := ih
    obtain ⟨-, e1, e2, e4, e5, e6⟩ := he.still
    refine ⟨?_, ?_, h3.trans he.linkUp, h4.trans e4⟩
    · rw [h1, e1, sentIn_append, e5, Nat.zero_add]
    · rw [h2, e2, receivedIn_append, (unmetered_ios (m := Meter.initial) e6).2, Nat.zero_add]

/-- **A path keeps the books.**  The debt of the whole table grows by no more than what is written. -/
theorem Path.books (hp : Path clients answers s io s') (hg : Good s) (hcov : Covered m s.conn) :
    Covered (m.ios io) s'.conn ∧
    ∑ i, (m.ios io).owes (s'.conn i) + m.sent ≤ ∑ i, m.owes (s.conn i) + (m.ios io).sent ∧
    (m.ios io).received = m.received + receivedIn io := by
  induction hp generalizing m with
  | nil => exact ⟨hcov, Nat.le_refl _, rfl⟩
  | @move s s' i c' io io' hm hf _ ih =>
    have hch := hm.charges m
    have hspare : ∀ j, j ≠ i → ∀ q, (s.conn j).tcp = some q →
        (m.ios io).written q = m.written q ∧ (m.ios io).acked q = m.acked q :=
      fun j hj q hq => hch.spares hg.owned.pcbs hf hj hq
    have hcov₁ : Covered (m.ios io) (Function.update s.conn i c') := by
      intro j q hq
      by_cases hj : j = i
      · subst hj
        rw [Function.update_self] at hq
        exact hch.covered (hcov j) hq
      · rw [Function.update_of_ne hj] at hq
        rw [(hspare j hj q hq).1, (hspare j hj q hq).2]
        exact hcov j q hq
    -- only the entry of slot `i` changes
    have hdebt : ∑ j, (m.ios io).owes (Function.update s.conn i c' j) + m.owes (s.conn i) =
        ∑ j, m.owes (s.conn j) + (m.ios io).owes (Function.update s.conn i c' i) := by
      refine sum_change (f := fun j => m.owes (s.conn j))
        (g := fun j => (m.ios io).owes (Function.update s.conn i c' j)) ?_
      intro j hj
      rw [Function.update_of_ne hj]
      exact Meter.owes_congr (hspare j hj)
    rw [Function.update_self] at hdebt
    obtain ⟨h1, h2, h3⟩ := ih (hg.move hm hf) (m := m.ios io) hcov₁
    rw [Meter.ios_append]
    refine ⟨h1, ?_, ?_⟩
    · have howes := hch.owes
      have h2' : ∑ j, ((m.ios io).ios io').owes (s'.conn j) + (m.ios io).sent ≤
          ∑ j, (m.ios io).owes (Function.update s.conn i c' j) + ((m.ios io).ios io').sent := h2
      omega
    · rw [h3, hch.received, receivedIn_append, Nat.add_assoc]
  | @env s s₁ s' io io' he _ ih =>
    obtain ⟨hconn, -, -, -, -, hun⟩ := he.still
    obtain ⟨hm, hr⟩ := unmetered_ios (m := m) hun
    obtain ⟨h1, h2, h3⟩ := ih (he.good hg) (m := m) (hconn ▸ hcov)
    rw [Meter.ios_append, hm, receivedIn_append, hr, Nat.zero_add]
    rw [hconn] at h2
    exact ⟨h1, h2, h3⟩

end

/-! ## The invariant -/

/-- The engine and its meter agree. -/
structure InStep (s : State) (m : Meter) : Prop where
  covered : Covered m s.conn
  received : s.receivedBytes = UInt64.ofNat m.received
  /-- What is counted as sent and what is still to be acknowledged has been written. -/
  sent : ∃ k, s.sentBytes = UInt64.ofNat k ∧ k + ∑ i, m.owes (s.conn i) ≤ m.sent
  down : s.linkUp = false → s.connectedSinceMs = 0
  up : s.linkUp = true → s.connectedSinceMs ≠ 0
  clock : s.connectedSinceMs ≤ m.clock

theorem Meter.ios_clock (m : Meter) (l : List Io) : (m.ios l).clock = m.clock := by
  induction l generalizing m with
  | nil => rfl
  | cons x l ih =>
    show ((m.io x).ios l).clock = m.clock
    rw [ih]
    unfold Meter.io
    split <;> rfl

section

variable {L : Lwip} {s : State} {m : Meter} {e : Event}

theorem InStep.initial (h : Started s) : InStep s Meter.initial := by
  obtain ⟨_, _, _, _, _, _, _, -, -, -, -, rfl⟩ := h
  have hclock : (0 : UInt64) ≤ 0 := by decide
  refine ⟨fun i p hp => Nat.le_refl 0, rfl, ⟨0, rfl, ?_⟩, fun _ => rfl, fun h => (by cases h),
    hclock⟩
  rw [Finset.sum_eq_zero fun i _ => Meter.owes_none rfl]
  exact Nat.le_refl 0

/-- What lwIP reports as sent is taken off the debt of the slot that has the pcb. -/
theorem hears_books (hg : Good s) (he : enabled s e) (hsane : m.sane e) (hcov : Covered m s.conn) :
    Covered (m.hears e) s.conn ∧
    ∑ i, (m.hears e).owes (s.conn i) + e.acknowledged = ∑ i, m.owes (s.conn i) ∧
    (m.hears e).sent = m.sent ∧ (m.hears e).received = m.received ∧
    m.clock ≤ (m.hears e).clock := by
  have hsame : m.clock ≤ m.clock := by simp
  cases e with
  | sent p n a =>
    obtain ⟨i, hi⟩ := hg.owner he (p := p) rfl
    have hle : m.acked p + n ≤ m.written p := hsane
    have hother : ∀ j q, j ≠ i → (s.conn j).tcp = some q →
        (m.hears (.sent p n a)).acked q = m.acked q := by
      intro j q hj hq
      refine Function.update_of_ne ?_ ..
      rintro rfl
      exact hj (hg.owned.pcbs.unique hq hi)
    have hself : (m.hears (.sent p n a)).acked p = m.acked p + n := Function.update_self ..
    refine ⟨?_, ?_, rfl, rfl, hsame⟩
    · intro j q hq
      by_cases hj : j = i
      · subst hj
        obtain rfl := Option.some.inj (hi.symm.trans hq)
        rw [hself]
        exact hle
      · rw [hother j q hj hq]
        exact hcov j q hq
    · have hdebt := sum_change (f := fun j => m.owes (s.conn j))
        (g := fun j => (m.hears (.sent p n a)).owes (s.conn j)) (i := i)
        fun j hj => Meter.owes_congr fun q hq => ⟨rfl, hother j q hj hq⟩
      have hw : (m.hears (.sent p n a)).written p = m.written p := rfl
      rw [Meter.owes_some hi, Meter.owes_some hi, hself, hw] at hdebt
      show _ + n = _
      omega
  | pppStatus status tx rx now => exact ⟨hcov, Nat.add_zero _, rfl, rfl, hsane.1⟩
  | control message listen now => exact ⟨hcov, Nat.add_zero _, rfl, rfl, hsane.1⟩
  | _ => exact ⟨hcov, Nat.add_zero _, rfl, rfl, hsame⟩

/-- What an event adds along its path keeps the agreement. -/
theorem InStep.path {clients answers : Prop} {s' : State} {io : List Io} (h : InStep s m)
    (hg : Good s) (he : enabled s e) (hsane : m.sane e) (hp : Path clients answers s io s')
    (hsent : sentIn io = e.acknowledged) : InStep s' ((m.hears e).ios io) := by
  obtain ⟨hcov, hdebt, hw, hr, hclock⟩ := hears_books hg he hsane h.covered
  obtain ⟨hcov', hdebt', hr'⟩ := hp.books hg hcov
  obtain ⟨c1, c2, c3, c4⟩ := hp.counts
  obtain ⟨k, hk, hle⟩ := h.sent
  refine ⟨hcov', ?_, ⟨k + e.acknowledged, ?_, ?_⟩, ?_, ?_, ?_⟩
  · rw [c2, h.received, hr', hr, UInt64.ofNat_add]
  · rw [c1, hk, hsent, UInt64.ofNat_add]
  · omega
  · rw [c3, c4]
    exact h.down
  · rw [c3, c4]
    exact h.up
  · rw [c4, Meter.ios_clock]
    exact UInt64.le_trans h.clock hclock

/-- A session begins only when a link that was down comes up. -/
theorem Meter.session_same {before after : Bool} (h : ¬ (before = false ∧ after = true)) :
    m.session before after = m := if_neg h

/-- **The agreement is kept by every event.** -/
theorem InStep.step (h : InStep s m) (hg : Good s) (he : enabled s e) (hsane : m.sane e) :
    InStep (exec L s e).state
      (((m.hears e).ios (exec L s e).io).session s.linkUp (exec L s e).state.linkUp) := by
  have hsent := sentIn_exec (L := L) hg he
  cases e with
  | pppStatus status tx rx now =>
    show InStep (s.pppStatus status tx rx now).1
      (((m.hears _).ios (s.pppStatus status tx rx now).2).session s.linkUp
        (s.pppStatus status tx rx now).1.linkUp)
    obtain ⟨hclock, hnow⟩ := hsane
    by_cases hup : status = 0 ∧ tx = ciMppe ∧ rx = ciMppe
    · cases hwas : s.linkUp with
      | true =>
        -- a repeated report: only the clock has moved on
        have hstay : s.pppStatus status tx rx now = (s, []) := by
          unfold State.pppStatus
          rw [if_pos hup, if_pos hwas]
        rw [hstay, Meter.session_same (by simp)]
        exact ⟨h.covered, h.received, h.sent, h.down, h.up, UInt64.le_trans h.clock hclock⟩
      | false =>
        have hrise : s.pppStatus status tx rx now = ({ s with
            linkUp := true, connectedSinceMs := now, sentBytes := 0, receivedBytes := 0 }, []) := by
          unfold State.pppStatus
          rw [if_pos hup, hwas, if_neg (by decide)]
        rw [hrise]
        refine ⟨h.covered, rfl, ⟨0, rfl, ?_⟩, fun hd => (by cases hd), fun _ => hnow, ?_⟩
        · -- no slot has a pcb, so nothing is owed
          show 0 + ∑ i, Meter.owes _ (s.conn i) ≤ _
          rw [Finset.sum_eq_zero fun i _ => Meter.owes_none (hg.noPcb_down hwas i)]
          exact Nat.zero_le _
        · show now ≤ now
          exact UInt64.le_refl now
    · have hpath : Path True True s s.closeAll.2 s.closeAll.1 := closeAll_path
      have hclosed := h.path hg he ⟨hclock, hnow⟩ hpath (by
        rw [sentIn_uncounted closeAll_uncounted]
        rfl)
      rw [pppStatus_down hup, Meter.session_same (by simp)]
      refine ⟨hclosed.covered, hclosed.received, hclosed.sent, fun _ => rfl,
        fun hd => (by cases hd), ?_⟩
      exact UInt64.zero_le
  | stop =>
    have hpath : Path True True s s.closeAll.2 s.closeAll.1 := closeAll_path
    have hclosed := h.path hg he hsane hpath hsent
    have hlink : s.closeAll.1.linkUp = s.linkUp := hpath.counts.2.2.1
    show InStep { s.closeAll.1 with running := false }
      (((m.hears .stop).ios s.closeAll.2).session s.linkUp s.closeAll.1.linkUp)
    rw [Meter.session_same (by rw [hlink]; simp)]
    exact ⟨hclosed.covered, hclosed.received, hclosed.sent, hclosed.down, hclosed.up,
      hclosed.clock⟩
  | _ =>
    have hpath := ordinary_path L hg he trivial
    have hlink := hpath.counts.2.2.1
    rw [Meter.session_same (by rw [hlink]; simp)]
    exact h.path hg he hsane hpath hsent

end

/-! ## Every run -/

theorem metered_reach {L : Lwip} {x : State × Meter} (h : (metered L).Reach x) :
    (engine L).Reach x.1 ∧ InStep x.1 x.2 := by
  refine System.Reach.invariant (P := fun x => (engine L).Reach x.1 ∧ InStep x.1 x.2) ?_ ?_ h
  · rintro ⟨s, m⟩ ⟨hs, rfl⟩
    exact ⟨.init hs, .initial hs⟩
  · rintro ⟨s, m⟩ e - ⟨hr, hin⟩ ⟨he, hsane⟩
    exact ⟨hr.step he, hin.step (reach_good hr) he hsane⟩

/-- **The counters belong to the current link session.**  In every reachable state of the engine
    with its meter: `received_bytes` is what `on_tcp_receive` accepted since the link last came up,
    `sent_bytes` is at most what `tcp_write` accepted since then, a repeated report that the link is
    up changes neither of them nor `connected_since_ms`, and `connected_since_ms` is 0 while the
    link is down and never ahead of the clock, so that the subtraction behind STATUS is exact. -/
theorem session_counters {L : Lwip} {s : State} {m : Meter} (h : (metered L).Reach (s, m)) :
    s.receivedBytes = UInt64.ofNat m.received ∧
    s.sentBytes.toNat ≤ m.sent ∧
    (∀ now, s.linkUp = true →
      ((exec L s (.pppStatus 0 ciMppe ciMppe now)).state.sentBytes = s.sentBytes ∧
        (exec L s (.pppStatus 0 ciMppe ciMppe now)).state.receivedBytes = s.receivedBytes ∧
        (exec L s (.pppStatus 0 ciMppe ciMppe now)).state.connectedSinceMs = s.connectedSinceMs)) ∧
    (s.linkUp = false → s.connectedSinceMs = 0) ∧
    (s.linkUp = true → s.connectedSinceMs ≠ 0 ∧ s.connectedSinceMs ≤ m.clock ∧
      ∀ message listen now, m.sane (.control message listen now) →
        s.connectedSinceMs ≤ now ∧ ((now - s.connectedSinceMs) / 1000).toNat =
          (now.toNat - s.connectedSinceMs.toNat) / 1000) := by
  have hin : InStep s m := (metered_reach h).2
  refine ⟨hin.received, ?_, ?_, hin.down, ?_⟩
  · obtain ⟨k, hk, hle⟩ := hin.sent
    have hmod : s.sentBytes.toNat = k % 2 ^ 64 := by rw [hk, UInt64.toNat_ofNat']
    have := Nat.mod_le k (2 ^ 64)
    omega
  · intro now hup
    have hstay : s.pppStatus 0 ciMppe ciMppe now = (s, []) := by
      unfold State.pppStatus
      rw [if_pos ⟨rfl, rfl, rfl⟩, if_pos hup]
    show (s.pppStatus 0 ciMppe ciMppe now).1.sentBytes = _ ∧
      (s.pppStatus 0 ciMppe ciMppe now).1.receivedBytes = _ ∧
      (s.pppStatus 0 ciMppe ciMppe now).1.connectedSinceMs = _
    rw [hstay]
    exact ⟨rfl, rfl, rfl⟩
  · intro hup
    refine ⟨hin.up hup, hin.clock, ?_⟩
    intro message listen now hsane
    have hle := UInt64.le_trans hin.clock hsane.1
    refine ⟨hle, ?_⟩
    rw [UInt64.toNat_div, UInt64.toNat_sub_of_le _ _ hle]
    rfl

/-- Where neither lwIP reports nor the clock is read, a run of the engine is one with a meter. -/
theorem metered_run {L : Lwip} {s : State} {m : Meter} (h : (metered L).Reach (s, m))
    {es : List Event} (hrun : (engine L).Run s es) (hsane : ∀ e ∈ es, ∀ m : Meter, m.sane e) :
    ∃ m', (metered L).Reach ((engine L).run s es, m') := by
  induction es generalizing s m with
  | nil => exact ⟨m, h⟩
  | cons e es ih =>
    have hstep := h.step (e := e) ⟨hrun.1, hsane e List.mem_cons_self m⟩
    exact ih hstep hrun.2 fun e he => hsane e (List.mem_cons_of_mem _ he)

/-- The link comes up, a client is connected, and the remote sends two bytes. -/
theorem session_counters_hi : ∃ m, (metered sampleLwip).Reach (sampleReceived, m) ∧
    sampleReceived.connectedSinceMs = 1 ∧ UInt64.ofNat m.received = 2 := by
  obtain ⟨⟨he, hrun⟩, hend⟩ := sampleReceived_leads
  have hsane : Meter.initial.sane (.pppStatus 0 ciMppe ciMppe 1) :=
    ⟨(by decide : (0 : UInt64) ≤ 1), (by decide : (1 : UInt64) ≠ 0)⟩
  have hstart : (metered sampleLwip).Reach (sampleStart, Meter.initial) :=
    .init ⟨sampleStart_started, rfl⟩
  have hup := hstart.step (e := Event.pppStatus 0 ciMppe ciMppe 1) ⟨he, hsane⟩
  have hquiet : ∀ e ∈ [.top fun _ => willing 0, .accept 2 20 true (willing 0),
      .connected 7 .ok (willing 0), .receive 7 (some (ascii "hi")) (willing 0)],
      ∀ m : Meter, m.sane e := by
    intro e he m
    simp only [List.mem_cons, List.not_mem_nil, or_false] at he
    rcases he with rfl | rfl | rfl | rfl <;> exact trivial
  obtain ⟨m, hm⟩ := metered_run hup hrun hquiet
  have hm' : (metered sampleLwip).Reach (sampleReceived, m) := hend ▸ hm
  exact ⟨m, hm', rfl, (session_counters hm').1.symm⟩

end PptpProxy
