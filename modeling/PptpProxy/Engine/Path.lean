/-
  The invariant of the engine, and paths.

  `Good` is the invariant all the safety results rest on: resources are owned (`Owned`), each slot is
  in order on its own (`SlotOk`), the listener table is in order, client descriptors are nobody
  else's, and the READ GATE holds: a slot the connection loop has still to serve and whose descriptor
  `select` may report has room for a full read.

  `Path` is what one event does, cut into moves and into the few changes that touch no slot (`Env`);
  `Turn` is the change of the link or of `running` an event may end with.  An invariant is checked
  per move; `Path.good` does it for `Good`.
-/
import PptpProxy.Engine.Ownership
import PptpProxy.Listener.Apply

namespace PptpProxy

open CLib Sys Books

/-! ## One slot -/

/-- What holds of a slot on its own, given the state of the link. -/
structure SlotOk (up : Bool) (c : Connection) : Prop where
  isOpen : 0 ≤ c.fd → c.phase ≠ .connectionClosed
  /-- While the link is down an open slot is still collecting its request. -/
  down : up = false → 0 ≤ c.fd → c.phase.collecting = true
  header : c.header.length < maxHeader
  toRemote : c.toRemote.length ≤ bufferSize
  toLocal : c.toLocal.length ≤ bufferSize
  /-- Nothing is for the remote before the request is known. -/
  unasked : c.phase.collecting = true → c.toRemote = []
  /-- Before the slot streams, the client has at most the answer to its greeting to get. -/
  greeted : c.phase ≠ .streaming → c.toLocal.length ≤ 2
  ungreeted : c.phase = .socksGreeting → c.toLocal = []

theorem SlotOk.initial (up : Bool) : SlotOk up Connection.initial := by
  refine ⟨?_, ?_, ?_, ?_, ?_, ?_, ?_, ?_⟩ <;> simp [Connection.initial, maxHeader, bufferSize]

/-- A closed slot is in order. -/
theorem SlotOk.closed (up : Bool) {c c' : Connection} (h : Closed c c') : SlotOk up c' := by
  refine ⟨?_, ?_, ?_, ?_, ?_, fun _ => h.toRemote, ?_, fun _ => h.toLocal⟩
  · intro hfd
    rw [h.fd] at hfd
    exact absurd hfd (by decide)
  · intro _ hfd
    rw [h.fd] at hfd
    exact absurd hfd (by decide)
  · rw [h.header]
    decide
  · rw [h.toRemote]
    decide
  · rw [h.toLocal]
    decide
  · intro _
    rw [h.toLocal]
    decide

/-- The line `parse_http` writes is shorter than its buffer. -/
theorem originRequest_length {first : Bytes} {o : OriginRequest}
    (h : originRequest first = some o) : o.line.length < 4096 := by
  unfold originRequest at h
  split at h
  · cases h
  · split at h
    · cases h
    · split at h
      · cases h
      · split at h
        · obtain ⟨line, hline, rfl⟩ := Option.map_eq_some_iff.mp h
          unfold newFirst at hline
          dsimp only at hline
          split at hline
          · cases hline
          · rename_i hlen
            obtain rfl := Option.some.inj hline
            exact Nat.not_le.mp hlen
        · cases h

/-- What a request leaves in the slot: at most a request line and a header for the remote. -/
theorem Targets.sizes {up : Bool} {c c' : Connection} {io : List Io} (h : SlotOk up c)
    (ht : Targets c io c') :
    c'.toLocal = c.toLocal ∧ c'.header.length < maxHeader ∧
      c'.toRemote.length < 4096 + maxHeader := by
  obtain ⟨-, -, -, hcol⟩ := ht.frame
  have hempty := h.unasked hcol
  have hlen := h.header
  cases ht with
  | connect hphase _ _ _ hk =>
    refine ⟨rfl, hlen, ?_⟩
    show (c.toRemote ++ c.header.drop _).length < _
    rw [hempty, List.nil_append, List.length_drop]
    omega
  | origin hphase hn _ hline =>
    refine ⟨rfl, hlen, ?_⟩
    have := originRequest_length hline
    show (_ ++ c.header.drop _).length < _
    rw [List.length_append, List.length_drop]
    omega
  | socks hphase hdecode =>
    refine ⟨rfl, by show ([] : Bytes).length < maxHeader; decide, ?_⟩
    show (c.toRemote ++ c.header.drop _).length < _
    rw [hempty, List.nil_append, List.length_drop]
    omega

/-- **A move keeps its slot in order.** -/
theorem SlotOk.move {up : Bool} {c c' : Connection} {io : List Io} (h : SlotOk up c)
    (hm : Move up c io c') : SlotOk up c' := by
  cases hm with
  | quiet _ => exact h
  | accepted _ _ _ =>
    rename_i fd kind _ _ hkind
    -- the slot was zeroed for the client, so every bound is about an empty buffer
    cases kind with
    | forward => exact absurd rfl hkind
    | httpProxy =>
      refine ⟨?_, ?_, ?_, ?_, ?_, ?_, ?_, ?_⟩ <;>
        simp [Connection.accepted, Connection.initial, maxHeader, bufferSize,
          ConnectionPhase.collecting]
    | socksProxy =>
      refine ⟨?_, ?_, ?_, ?_, ?_, ?_, ?_, ?_⟩ <;>
        simp [Connection.accepted, Connection.initial, maxHeader, bufferSize,
          ConnectionPhase.collecting]
  | acceptedForward hup _ _ =>
    subst hup
    refine ⟨?_, ?_, ?_, ?_, ?_, ?_, ?_, ?_⟩ <;>
      simp [Connection.accepted, Connection.initial, maxHeader, bufferSize]
  | acceptClosed _ _ hc => exact .closed up hc
  | readHeader hfd hphase hlen =>
    exact ⟨h.isOpen, h.down, hlen, h.toRemote, h.toLocal, h.unasked, h.greeted, h.ungreeted⟩
  | greeted hfd hphase htwo hlen hroom _ =>
    have hcol : c.phase.collecting = true := by rw [hphase]; rfl
    refine ⟨fun _ h => (by cases h), fun _ _ => rfl, ?_, h.toRemote, hroom,
      fun _ => h.unasked hcol, fun _ => ?_, fun hp => (by cases hp)⟩
    · show (c.header.drop _).length < maxHeader
      have := h.header
      rw [List.length_drop]
      omega
    · -- the greeting is answered once, into an empty buffer
      show (c.toLocal ++ greetingOk).length ≤ 2
      rw [h.ungreeted hphase]
      decide
  | targeted hup hfd ht hroom _ =>
    obtain ⟨hlocal, hheader, -⟩ := ht.sizes h
    obtain ⟨-, -, -, hcol⟩ := ht.frame
    have hns : c.phase ≠ .streaming := ConnectionPhase.ne_of_collecting hcol rfl
    refine ⟨fun _ h => (by cases h), fun hd => ?_, hheader, hroom, ?_, fun hc => (by cases hc),
      fun _ => ?_, fun hp => (by cases hp)⟩
    · rw [hup] at hd
      cases hd
    · exact hlocal ▸ h.toLocal
    · exact hlocal ▸ h.greeted hns
  | asked hup _ hphase _ =>
    exact ⟨h.isOpen, h.down, h.header, h.toRemote, h.toLocal, h.unasked, h.greeted, h.ungreeted⟩
  | answered =>
    exact ⟨h.isOpen, h.down, h.header, h.toRemote, h.toLocal, h.unasked, h.greeted, h.ungreeted⟩
  | opened hup hfd hphase _ =>
    refine ⟨fun _ h => (by cases h), fun hd => ?_, h.header, h.toRemote, h.toLocal,
      fun hc => (by cases hc), fun _ => h.greeted (by rw [hphase]; decide), fun hp => (by cases hp)⟩
    rw [hup] at hd
    cases hd
  | openFailed _ _ _ _ _ hc => exact .closed up hc
  | connected htcp hphase hroom _ =>
    refine ⟨fun _ h => (by cases h), fun hd hfd => ?_, h.header, h.toRemote, hroom,
      fun hc => (by cases hc), fun hp => absurd rfl hp, fun hp => (by cases hp)⟩
    -- a connecting slot is not collecting, so the link is up
    have := h.down hd hfd
    rw [hphase] at this
    cases this
  | flushed _ _ =>
    refine ⟨h.isOpen, h.down, h.header, ?_, h.toLocal, ?_, h.greeted, h.ungreeted⟩
    · show (c.toRemote.drop _).length ≤ bufferSize
      have := h.toRemote
      rw [List.length_drop]
      omega
    · intro hc
      show c.toRemote.drop _ = []
      rw [h.unasked hc, List.drop_nil]
  | received _ hphase hroom =>
    refine ⟨h.isOpen, h.down, h.header, h.toRemote, hroom, h.unasked, ?_, ?_⟩
    · intro hp
      exact absurd hphase hp
    · intro hp
      rw [show _ = c.phase from rfl, hphase] at hp
      cases hp
  | finished _ _ =>
    exact ⟨h.isOpen, h.down, h.header, h.toRemote, h.toLocal, h.unasked, h.greeted, h.ungreeted⟩
  | errored _ =>
    exact ⟨h.isOpen, h.down, h.header, h.toRemote, h.toLocal, h.unasked, h.greeted, h.ungreeted⟩
  | drained _ =>
    have hdrop : ∀ n k, c.toLocal.length ≤ k → (c.toLocal.drop n).length ≤ k := by
      intro n k hk
      rw [List.length_drop]
      omega
    refine ⟨h.isOpen, h.down, h.header, h.toRemote, hdrop _ _ h.toLocal, h.unasked,
      fun hp => hdrop _ _ (h.greeted hp), ?_⟩
    intro hp
    show c.toLocal.drop _ = []
    rw [h.ungreeted hp, List.drop_nil]
  | readStream _ hphase hroom _ =>
    refine ⟨h.isOpen, h.down, h.header, hroom, h.toLocal, ?_, h.greeted, h.ungreeted⟩
    intro hc
    rw [ConnectionPhase.not_collecting hphase] at hc
    cases hc
  | closed _ hc => exact .closed up hc

/-- A link that comes up disturbs no slot, and one that goes down no closed slot. -/
theorem SlotOk.linkUp {up : Bool} {c : Connection} (h : SlotOk up c) : SlotOk true c :=
  ⟨h.isOpen, fun hd => (by cases hd), h.header, h.toRemote, h.toLocal, h.unasked, h.greeted,
    h.ungreeted⟩

theorem SlotOk.linkDown {up : Bool} {c : Connection} (h : SlotOk up c) (hfd : c.fd < 0) :
    SlotOk false c :=
  ⟨h.isOpen, fun _ h0 => absurd h0 (by omega), h.header, h.toRemote, h.toLocal, h.unasked,
    h.greeted, h.ungreeted⟩

/-! ## The whole state -/

namespace State

/-- The descriptors of the process that are not clients'. -/
def used (s : State) (fd : Int) : Prop :=
  fd ∈ s.sockets.sockets.map Prod.fst ∨ fd = s.ptyFd ∨ fd = s.controlFd

end State

/-- The read gate: a slot that is still to be served and may be readable has room for a read. -/
def Gate (conn : Slot → Connection) (readfds : Int → Bool) (next : Nat) : Prop :=
  ∀ i : Slot, next ≤ i → 0 ≤ (conn i).fd → readfds (conn i).fd = true →
    (conn i).toRemote.length + maxHeader ≤ bufferSize

/-- **The invariant of the engine.** -/
structure Good (s : State) : Prop where
  owned : Owned s.conn s.world
  slots : ∀ i, SlotOk s.linkUp (s.conn i)
  gate : Gate s.conn s.readfds s.next
  table : TableOk s.listeners s.sockets
  apart : ∀ fd ∈ s.world.fds, ¬ s.used fd
  /-- A lookup of an earlier link session is for a closed slot. -/
  session : ∀ q ∈ s.world.dns, 0 ≤ (s.conn q.slot).fd → q.epoch = s.world.epoch

/-! ## What a move does to the shared parts -/

section

variable {used : Int → Prop} {may : Permit} {i : Slot} {w : World} {up : Bool}
  {c c' : Connection} {io : List Io}

theorem World.onPcb_frame {p : PcbId} {f : Pcb → Option Pcb} :
    (w.onPcb p f).fds = w.fds ∧ (w.onPcb p f).dns = w.dns ∧ (w.onPcb p f).epoch = w.epoch := by
  unfold World.onPcb
  split
  · exact ⟨rfl, rfl, rfl⟩
  · exact ⟨rfl, rfl, rfl⟩

/-- One interaction opens no descriptor that is used elsewhere, and asks for lookups of its slot in
    the current session only. -/
theorem World.io_frame {x : Io} (h : Granted used may i w x) :
    (∀ fd ∈ (w.io i x).fds, fd ∈ w.fds ∨ ¬ used fd) ∧
    (∀ q ∈ (w.io i x).dns, q ∈ w.dns ∨ q = ⟨i, w.epoch⟩) ∧ (w.io i x).epoch = w.epoch := by
  have hnothing : (∀ fd ∈ w.fds, fd ∈ w.fds ∨ ¬ used fd) ∧
      (∀ q ∈ w.dns, q ∈ w.dns ∨ q = ⟨i, w.epoch⟩) ∧ w.epoch = w.epoch :=
    ⟨fun _ => Or.inl, fun _ => Or.inl, rfl⟩
  have hon : ∀ p f, (∀ fd ∈ (w.onPcb p f).fds, fd ∈ w.fds ∨ ¬ used fd) ∧
      (∀ q ∈ (w.onPcb p f).dns, q ∈ w.dns ∨ q = ⟨i, w.epoch⟩) ∧
      (w.onPcb p f).epoch = w.epoch := by
    intro p f
    obtain ⟨h1, h2, h3⟩ := World.onPcb_frame (w := w) (p := p) (f := f)
    rw [h1, h2, h3]
    exact hnothing
  cases x with
  | accept fd =>
    refine ⟨?_, hnothing.2⟩
    intro fd' hfd'
    rcases List.mem_cons.mp hfd' with rfl | hfd'
    · exact Or.inr h.2.2.2
    · exact Or.inl hfd'
  | close fd =>
    exact ⟨fun fd' hfd' => Or.inl (List.mem_of_mem_erase hfd'), hnothing.2⟩
  | tcpNew p => cases p with
    | none => exact hnothing
    | some p => exact hnothing
  | dnsGethostbyname host r =>
    by_cases hr : r = .inprogress
    · have hw : w.io i (.dnsGethostbyname host r) = { w with dns := ⟨i, w.epoch⟩ :: w.dns } :=
        if_pos hr
      rw [hw]
      refine ⟨hnothing.1, ?_, rfl⟩
      intro q hq
      rcases List.mem_cons.mp hq with rfl | hq
      · exact Or.inr rfl
      · exact Or.inl hq
    · have hw : w.io i (.dnsGethostbyname host r) = w := if_neg hr
      rw [hw]
      exact hnothing
  | dnsFound epoch =>
    exact ⟨hnothing.1, fun q hq => Or.inl (List.mem_of_mem_erase hq), rfl⟩
  | _ => first | exact hnothing | exact hon _ _

theorem World.ios_frame (h : Fair used may i w io) :
    (∀ fd ∈ (w.ios i io).fds, fd ∈ w.fds ∨ ¬ used fd) ∧
    (∀ q ∈ (w.ios i io).dns, q ∈ w.dns ∨ q = ⟨i, w.epoch⟩) ∧ (w.ios i io).epoch = w.epoch := by
  induction io generalizing w with
  | nil => exact ⟨fun _ => Or.inl, fun _ => Or.inl, rfl⟩
  | cons x io ih =>
    obtain ⟨f1, q1, e1⟩ := World.io_frame h.1
    obtain ⟨f2, q2, e2⟩ := ih h.2
    refine ⟨?_, ?_, e2.trans e1⟩
    · intro fd hfd
      rcases f2 fd hfd with hfd | hno
      · exact f1 fd hfd
      · exact Or.inr hno
    · intro q hq
      rcases q2 q hq with hq | rfl
      · exact q1 q hq
      · exact Or.inr (by rw [e1])

/-- The descriptor of a slot changes only when it is given up or when a free slot gets a client. -/
theorem Move.fd_cases (hm : Move up c io c') :
    c'.fd = c.fd ∨ c'.fd = -1 ∨ (c.fd < 0 ∧ c.resolving = false ∧ c'.toRemote = []) := by
  cases hm with
  | accepted hfree hidle _ => exact Or.inr (Or.inr ⟨hfree, hidle, rfl⟩)
  | acceptedForward _ hfree hidle => exact Or.inr (Or.inr ⟨hfree, hidle, rfl⟩)
  | acceptClosed _ _ hc => exact Or.inr (Or.inl hc.fd)
  | openFailed _ _ _ _ _ hc => exact Or.inr (Or.inl hc.fd)
  | closed _ hc => exact Or.inr (Or.inl hc.fd)
  | targeted _ _ ht _ _ => exact Or.inl ht.frame.1
  | _ => exact Or.inl rfl

/-- Only a read fills `to_remote` beyond a request. -/
theorem Move.toRemote_cases (hm : Move up c io c') (h : SlotOk up c) :
    (∃ fd d, Io.read fd d ∈ io) ∨ c'.toRemote.length ≤ c.toRemote.length ∨
      c'.toRemote.length < 4096 + maxHeader := by
  have hclosed : ∀ {c₁ : Connection}, c₁.toRemote = [] → c₁.toRemote.length ≤ c.toRemote.length := by
    intro c₁ he
    rw [he]
    exact Nat.zero_le _
  cases hm with
  | accepted _ _ _ => exact Or.inr (Or.inl (Nat.zero_le _))
  | acceptedForward _ _ _ => exact Or.inr (Or.inl (Nat.zero_le _))
  | acceptClosed _ _ hc => exact Or.inr (Or.inl (hclosed hc.toRemote))
  | openFailed _ _ _ _ _ hc => exact Or.inr (Or.inl (hclosed hc.toRemote))
  | closed _ hc => exact Or.inr (Or.inl (hclosed hc.toRemote))
  | targeted _ _ ht _ _ => exact Or.inr (Or.inr (ht.sizes h).2.2)
  | readStream _ _ _ _ => exact Or.inl ⟨_, _, List.mem_cons_self⟩
  | flushed _ _ =>
    refine Or.inr (Or.inl ?_)
    show (c.toRemote.drop _).length ≤ _
    rw [List.length_drop]
    omega
  | _ => exact Or.inr (Or.inl (Nat.le_refl _))

/-- Out of its turn a slot is not read. -/
theorem Fair.no_read (h : Fair used may i w io) (ht : ¬ may.turn) {fd : Int} {d : Bytes} :
    Io.read fd d ∉ io := by
  induction io generalizing w with
  | nil => exact List.not_mem_nil
  | cons x io ih =>
    intro hmem
    rcases List.mem_cons.mp hmem with rfl | hmem
    · exact ht h.1
    · exact ih h.2 hmem

end

/-- **A granted move keeps the invariant.** -/
theorem Good.move {s : State} {i : Slot} {c' : Connection} {io : List Io} (h : Good s)
    {clients answers : Prop} (hm : Move s.linkUp (s.conn i) io c')
    (hf : Fair s.used ⟨i.val < s.next, clients, answers⟩ i s.world io) :
    Good (s.put i c' io) := by
  obtain ⟨hfds, hdns, hepoch⟩ := World.ios_frame hf
  -- what is true of all slots has to be checked for slot `i` only
  have hslot : ∀ {P : Slot → Connection → Prop}, P i c' → (∀ j, j ≠ i → P j (s.conn j)) →
      ∀ j, P j (Function.update s.conn i c' j) := by
    intro P hi hother j
    by_cases hj : j = i
    · subst hj
      rw [Function.update_self]
      exact hi
    · rw [Function.update_of_ne hj]
      exact hother j hj
  refine ⟨h.owned.move hm hf, ?_, ?_, h.table, ?_, ?_⟩
  · exact hslot ((h.slots i).move hm) fun j _ => h.slots j
  · refine hslot (P := fun j c => s.next ≤ j.val → 0 ≤ c.fd → s.readfds c.fd = true →
      c.toRemote.length + maxHeader ≤ bufferSize) ?_ fun j _ => h.gate j
    intro hnext h0 hread
    -- the slot is still to be served, so it was not read; what else fills `to_remote` leaves room
    rcases hm.toRemote_cases (h.slots i) with ⟨fd, d, hmem⟩ | hle | hlt
    · exact absurd hmem (hf.no_read (Nat.not_lt.mpr hnext))
    · rcases hm.fd_cases with hfd | hfd | ⟨-, -, hempty⟩
      · have := h.gate i hnext (hfd ▸ h0) (hfd ▸ hread)
        omega
      · omega
      · -- a descriptor number reused within the iteration belongs to an empty slot
        rw [hempty]
        decide
    · simp only [maxHeader, bufferSize] at hlt ⊢
      omega
  · intro fd hfd
    rcases hfds fd hfd with hfd | hno
    · exact h.apart fd hfd
    · exact hno
  · intro q hq h0
    show q.epoch = (s.world.ios i io).epoch
    rw [hepoch]
    rcases hdns q hq with hq | rfl
    · by_cases hj : q.slot = i
      · have hfdq : (Function.update s.conn i c' q.slot).fd = c'.fd := by
          rw [hj, Function.update_self]
        rw [show ((s.put i c' io).conn q.slot).fd = c'.fd from hfdq] at h0
        rcases hm.fd_cases with hfd | hfd | ⟨-, hidle, -⟩
        · exact h.session q hq (by rw [hj, ← hfd]; exact h0)
        · omega
        · -- a free slot has no lookup
          have hcount := h.owned.dns.count i
          rw [hidle] at hcount
          have hmem : q ∈ s.world.dns.filter (·.slot = i) :=
            List.mem_filter.mpr ⟨hq, by simpa using hj⟩
          rw [List.length_eq_zero_iff.mp hcount] at hmem
          cases hmem
      · have hfdq : (Function.update s.conn i c' q.slot).fd = (s.conn q.slot).fd := by
          rw [Function.update_of_ne hj]
        exact h.session q hq (by rw [← hfdq]; exact h0)
    · rfl

/-! ## Paths -/

/-- A change that touches no slot. -/
inductive Env : State → List Io → State → Prop
  /-- The descriptor sets, and how far the connection loop is. -/
  | watch {s : State} {readfds writefds : Int → Bool} {next : Nat}
      (hgate : Gate s.conn readfds next) :
      Env s [] { s with readfds := readfds, writefds := writefds, next := next }
  | control {s : State} {message : Bytes} {listen : Nat → Int} {now : UInt64}
      (hfresh : ListenFresh (fun fd => fd ∈ s.world.fds ∨ fd = s.ptyFd ∨ fd = s.controlFd)
        s.sockets (controlIo s message listen now)) : Env s [] (s.control message listen now)
  | turnAway {s : State} {fd : Int} (hfree : ¬ s.inUse fd) :
      Env s [.accept fd, .close fd] (s.turnAway fd).1
  | reap {s : State} {p : PcbId} (hp : s.world.has p (! ·.armed) = true) :
      Env s [] { s with world := { s.world with pcb := Function.update s.world.pcb p none } }

/-- What an event may end with. -/
inductive Turn : State → State → Prop
  | none {s : State} : Turn s s
  | linkUp {s : State} {now : UInt64} : Turn s
      { s with linkUp := true, connectedSinceMs := now, sentBytes := 0, receivedBytes := 0 }
  | linkDown {s : State} (hclosed : ∀ i, (s.conn i).fd < 0) : Turn s
      { s with linkUp := false, connectedSinceMs := 0,
               world := { s.world with epoch := s.world.epoch + 1 } }
  | stop {s : State} : Turn s { s with running := false }

/-- The events in which a slot may get a client, and in which lwIP answers a lookup. -/
def Event.accepts : Event → Prop
  | .accept _ _ _ _ => True
  | _ => False

def Event.answers : Event → Prop
  | .dnsDone _ _ _ => True
  | _ => False

/-- What an event does, up to its turn; whether slots get clients in it and whether it answers a
    lookup is up to the event. -/
inductive Path (clients answers : Prop) : State → List Io → State → Prop
  | nil {s : State} : Path clients answers s [] s
  | move {s s' : State} {i : Slot} {c' : Connection} {io io' : List Io}
      (hm : Move s.linkUp (s.conn i) io c')
      (hf : Fair s.used ⟨i.val < s.next, clients, answers⟩ i s.world io)
      (hs : Path clients answers (s.put i c' io) io' s') : Path clients answers s (io ++ io') s'
  | env {s s₁ s' : State} {io io' : List Io} (he : Env s io s₁)
      (hs : Path clients answers s₁ io' s') : Path clients answers s (io ++ io') s'

section

variable {clients answers : Prop}

theorem Path.append {s s₁ s' : State} {io io' : List Io} (h : Path clients answers s io s₁)
    (h' : Path clients answers s₁ io' s') : Path clients answers s (io ++ io') s' := by
  induction h with
  | nil => exact h'
  | move hm hf _ ih =>
    rw [List.append_assoc]
    exact .move hm hf (ih h')
  | env he _ ih =>
    rw [List.append_assoc]
    exact .env he (ih h')

theorem Env.path {s s' : State} {io : List Io} (h : Env s io s') : Path clients answers s io s' :=
  List.append_nil io ▸ .env h .nil

theorem Env.good {s s' : State} {io : List Io} (h : Good s) (he : Env s io s') : Good s' := by
  cases he with
  | watch hgate => exact ⟨h.owned, h.slots, hgate, h.table, h.apart, h.session⟩
  | control hfresh =>
    obtain ⟨htable, hopened⟩ := handleControl_tableOk h.table hfresh
    refine ⟨h.owned, h.slots, h.gate, htable, ?_, h.session⟩
    -- a listening socket was one before, or its descriptor is new to the process
    intro fd hfd hused
    rcases hused with hsocket | hother
    · rcases hopened fd hsocket with hold | hno
      · exact h.apart fd hfd (Or.inl hold)
      · exact hno (Or.inl hfd)
    · exact h.apart fd hfd (Or.inr hother)
  | turnAway hfree =>
    rename_i fd
    have hworld : s.world.ios ⟨0, by decide⟩ [.accept fd, .close fd] =
        { s.world with fds := (fd :: s.world.fds).erase fd, accepted := fd :: s.world.accepted,
                       closed := fd :: s.world.closed } := by
      show ({ s.world with
              fds := (fd :: s.world.fds).erase fd, accepted := fd :: s.world.accepted,
              closed := fd :: s.world.closed,
              fault := s.world.fault || ! decide (fd ∈ fd :: s.world.fds) } : World) = _
      rw [decide_eq_true List.mem_cons_self, Bool.not_true, Bool.or_false]
    have hgood : Good { s with world := { s.world with
        fds := (fd :: s.world.fds).erase fd, accepted := fd :: s.world.accepted,
        closed := fd :: s.world.closed } } := by
      refine ⟨⟨h.owned.pcbs, Ledger.pass h.owned.fds fd, h.owned.dns, h.owned.free,
        h.owned.fault⟩, h.slots, h.gate, h.table, ?_, h.session⟩
      intro fd' hfd'
      dsimp only at hfd'
      rw [List.erase_cons_head] at hfd'
      exact h.apart fd' hfd'
    show Good { s with world := _ }
    rw [hworld]
    exact hgood
  | reap hp =>
    rename_i p
    -- nobody owns a pcb without callbacks
    have hfree : ∀ i, (s.conn i).tcp ≠ some p := by
      intro i hi
      unfold World.has at hp
      rw [h.owned.pcbs.live i p hi] at hp
      cases hp
    refine ⟨⟨⟨h.owned.pcbs.phase, ?_, ?_⟩, h.owned.fds, h.owned.dns, h.owned.free, h.owned.fault⟩,
      h.slots, h.gate, h.table, h.apart, h.session⟩
    · intro i q hq
      show Function.update s.world.pcb p none q = _
      rw [Function.update_of_ne]
      · exact h.owned.pcbs.live i q hq
      · rintro rfl
        exact hfree i hq
    · intro q b hb
      have hne : q ≠ p := by
        rintro rfl
        dsimp only at hb
        rw [Function.update_self] at hb
        cases hb
      dsimp only at hb
      rw [Function.update_of_ne hne] at hb
      exact h.owned.pcbs.owner q b hb

theorem Path.good {s s' : State} {io : List Io} (h : Good s) (hp : Path clients answers s io s') :
    Good s' := by
  induction hp with
  | nil => exact h
  | move hm hf _ ih => exact ih (h.move hm hf)
  | env he _ ih => exact ih (he.good h)

theorem Turn.good {s s' : State} (h : Good s) (ht : Turn s s') : Good s' := by
  cases ht with
  | none => exact h
  | linkUp =>
    exact ⟨h.owned, fun i => (h.slots i).linkUp, h.gate, h.table, h.apart, h.session⟩
  | linkDown hclosed =>
    refine ⟨⟨h.owned.pcbs, h.owned.fds, h.owned.dns, h.owned.free, h.owned.fault⟩,
      fun i => (h.slots i).linkDown (hclosed i), h.gate, h.table, h.apart, ?_⟩
    -- every slot is closed, so no lookup is for an open one
    intro q _ h0
    have := hclosed q.slot
    exact absurd h0 (by show ¬ 0 ≤ (s.conn q.slot).fd; omega)
  | stop => exact ⟨h.owned, h.slots, h.gate, h.table, h.apart, h.session⟩

end

end PptpProxy
