/-
  Who owns what: pcbs, client descriptors and outstanding lookups against the 128 slots.

  Three invariants, one per kind of resource, each with update rules (`PcbOwned.replace`, the rules
  of `Books.Ledger`, `DnsOwned.replace`) that say what has to be checked when a single slot and the
  world change together.  `Owned.move` discharges the rules for every move of `Lifecycle`.
-/
import PptpProxy.Engine.Machine
import PptpProxy.Engine.Refine
import PptpProxy.Lib.Ledger

namespace PptpProxy

open CLib Sys Books

/-! ## What the standard call sequences do to the world -/

section Worlds

variable {w : World} {i : Slot} {p : PcbId} {b : Pcb}

theorem World.onPcb_of_some {f : Pcb → Option Pcb} (h : w.pcb p = some b) :
    w.onPcb p f = { w with pcb := Function.update w.pcb p (f b) } := by
  unfold World.onPcb
  rw [h]

/-- A call that only looks at a live pcb changes nothing. -/
theorem World.onPcb_some (h : w.pcb p = some b) : w.onPcb p some = w := by
  rw [World.onPcb_of_some h, ← h, Function.update_eq_self]

/-- The pcb slot `i` owns in the given phase. -/
def ownedPcb (i : Slot) (phase : ConnectionPhase) : Pcb :=
  ⟨some i, true, true, true, true, if phase = .streaming then .established else .synSent⟩

theorem World.ios_clear (h : w.pcb p = some b) :
    w.ios i (clearCallbacks p) =
      { w with pcb := Function.update w.pcb p (some ⟨none, false, false, false, false, b.state⟩) } := by
  simp [clearCallbacks, World.io, World.onPcb, h]

theorem World.ios_install {address : IpAddr} {port : Int} {e : Err} :
    w.ios i (installCallbacks p ++ [.tcpConnect p address port e]) =
      { w with pcb := Function.update w.pcb p
                (some ⟨some i, true, true, true, true, if e = .ok then .synSent else .closed⟩) } := by
  simp [installCallbacks, World.io, World.onPcb, Pcb.fresh]

/-- `close_connection` on a slot whose pcb is alive: the pcb is freed and the descriptor closed. -/
theorem World.ios_closeIo {c : Connection} (h : ∀ p, c.tcp = some p → ∃ b, w.pcb p = some b) :
    w.ios i (closeIo c) =
      { w with
        pcb := match c.tcp with
          | some p => Function.update w.pcb p none
          | none => w.pcb
        fds := if 0 ≤ c.fd then w.fds.erase c.fd else w.fds
        closed := if 0 ≤ c.fd then c.fd :: w.closed else w.closed
        fault := w.fault || decide (0 ≤ c.fd ∧ c.fd ∉ w.fds) } := by
  have hfd : w.ios i (if 0 ≤ c.fd then [.close c.fd] else []) =
      { w with
        fds := if 0 ≤ c.fd then w.fds.erase c.fd else w.fds
        closed := if 0 ≤ c.fd then c.fd :: w.closed else w.closed
        fault := w.fault || decide (0 ≤ c.fd ∧ c.fd ∉ w.fds) } := by
    by_cases hc : 0 ≤ c.fd <;> simp [hc, World.io]
  unfold closeIo
  rw [World.ios_append, hfd]
  cases htcp : c.tcp with
  | none => rfl
  | some p =>
    obtain ⟨b, hb⟩ := h p htcp
    simp [clearCallbacks, World.io, World.onPcb, hb]

/-- Interactions that only read, count or append leave the world alone. -/
theorem World.ios_passing {up : Bool} {io : List Io} (h : ∀ x ∈ io, Passing up x) :
    w.ios i io = w := by
  induction io generalizing w with
  | nil => rfl
  | cons x io ih =>
    have hx : w.io i x = w := by
      have hp := h x List.mem_cons_self
      cases x with
      | tcpNew q => cases q with
        | none => rfl
        | some q => exact hp.elim
      | dnsGethostbyname host r => exact if_neg hp.2
      | read _ _ => rfl
      | appendBytes _ _ _ => rfl
      | countSent _ => rfl
      | _ => exact hp.elim
    rw [World.ios_cons, hx]
    exact ih fun y hy => h y (List.mem_cons_of_mem x hy)

theorem World.ios_appends {io : List Io} (h : AppendsOnly io) : w.ios i io = w :=
  World.ios_passing (h.passing : ∀ x ∈ io, Passing true x)

/-- Interactions of a `quiet` move leave the world alone when the slot's pcb is alive. -/
theorem World.ios_quiet {up : Bool} {c : Connection} {io : List Io}
    (hpcb : ∀ p, c.tcp = some p → ∃ b, w.pcb p = some b) (h : ∀ x ∈ io, Quiet up c x) :
    w.ios i io = w := by
  induction io generalizing w with
  | nil => rfl
  | cons x io ih =>
    have hx : w.io i x = w := by
      have hp := h x List.mem_cons_self
      cases x with
      | tcpSndbuf p n =>
        obtain ⟨b, hb⟩ := hpcb p hp
        exact World.onPcb_some hb
      | tcpWrite p d r =>
        obtain ⟨b, hb⟩ := hpcb p hp.1
        exact World.onPcb_some hb
      | dnsGethostbyname host r => exact if_neg hp.2
      | countSent _ => rfl
      | _ => exact hp.elim
    rw [World.ios_cons, hx]
    exact ih hpcb fun y hy => h y (List.mem_cons_of_mem x hy)

/-- `flush_remote` and the receive callback only look at the pcb. -/
theorem World.ios_flushed {n : Nat} {d : Bytes} {r : Err} (h : w.pcb p = some b) :
    w.ios i [.tcpSndbuf p n, .tcpWrite p d r, .tcpOutput p] = w := by
  simp [World.io, World.onPcb_some h]

theorem World.ios_received {n m : Nat} {d : Bytes} (h : w.pcb p = some b) :
    w.ios i [.pbufCopyPartial d, .countReceived m, .tcpRecved p n] = w := by
  simp [World.io, World.onPcb_some h]

/-- The handshake is over. -/
theorem World.ios_connected {io : List Io} (h : w.pcb p = some b) (hio : AppendsOnly io) :
    w.ios i (.connected p :: io) =
      { w with pcb := Function.update w.pcb p (some { b with state := .established }) } := by
  rw [World.ios_cons, World.ios_appends hio]
  exact World.onPcb_of_some h

theorem World.ios_errored (h : w.pcb p = some b) :
    w.ios i [.errored p] = { w with pcb := Function.update w.pcb p none } :=
  World.onPcb_of_some h

/-- After FIN the pcb has no callbacks; it lives on until lwIP frees it, unless it was aborted. -/
theorem World.ios_finished {r : Err} (h : w.pcb p = some b) :
    w.ios i (clearCallbacks p ++ .tcpClose p r :: (if r = .ok then [] else [.tcpAbort p])) =
      { w with pcb := Function.update w.pcb p
                (if r = .ok then some ⟨none, false, false, false, false, b.state⟩ else none) } := by
  rw [World.ios_append, World.ios_clear h]
  by_cases hr : r = .ok <;> simp [hr, World.io, World.onPcb]

end Worlds

/-! ## Pcbs -/

/-- lwIP may still call the engine back on the pcb; `tcp_connect` installs its callback for the
    handshake by itself. -/
def Pcb.callable (b : Pcb) : Bool := b.armed || b.state == .synSent

/-- Every slot with a pcb is waiting for it or streaming and has its callbacks on it; every pcb
    on which lwIP may call the engine is some slot's. -/
structure PcbOwned (conn : Slot → Connection) (pcb : PcbId → Option Pcb) : Prop where
  phase : ∀ i p, (conn i).tcp = some p →
    (conn i).phase = .connecting ∨ (conn i).phase = .streaming
  live : ∀ i p, (conn i).tcp = some p → pcb p = some (ownedPcb i (conn i).phase)
  owner : ∀ p b, pcb p = some b → b.callable = true → ∃ i, (conn i).tcp = some p

/-- No two slots have the same pcb. -/
theorem PcbOwned.unique {conn : Slot → Connection} {pcb : PcbId → Option Pcb}
    (h : PcbOwned conn pcb) {i j : Slot} {p : PcbId} (hi : (conn i).tcp = some p)
    (hj : (conn j).tcp = some p) : i = j := by
  have hij := (h.live i p hi).symm.trans (h.live j p hj)
  have := congrArg Pcb.arg (Option.some.inj hij)
  exact Option.some.inj this

/-- **Update rule for pcbs.**  Slot `i` becomes `c'` and the pcbs become `pcb'`: what the slot has
    now is fully its own and nobody else's, what it has let go of is never called back on, and all
    other pcbs are untouched. -/
theorem PcbOwned.replace {conn : Slot → Connection} {pcb pcb' : PcbId → Option Pcb}
    (h : PcbOwned conn pcb) {i : Slot} {c' : Connection}
    (hnew : ∀ p, c'.tcp = some p → (c'.phase = .connecting ∨ c'.phase = .streaming) ∧
      pcb' p = some (ownedPcb i c'.phase) ∧ ((conn i).tcp = some p ∨ pcb p = none))
    (hgone : ∀ p, (conn i).tcp = some p → c'.tcp ≠ some p →
      ∀ b, pcb' p = some b → b.callable = false)
    (hother : ∀ p, (conn i).tcp ≠ some p → c'.tcp ≠ some p → pcb' p = pcb p) :
    PcbOwned (Function.update conn i c') pcb' := by
  -- a pcb of another slot is neither the old nor the new pcb of slot `i`
  have hforeign : ∀ j p, j ≠ i → (conn j).tcp = some p →
      (conn i).tcp ≠ some p ∧ c'.tcp ≠ some p := by
    intro j p hj hp
    have hold : (conn i).tcp ≠ some p := fun hi => hj (h.unique hp hi)
    refine ⟨hold, fun hc => ?_⟩
    rcases (hnew p hc).2.2 with hi | hnone
    · exact hold hi
    · rw [h.live j p hp] at hnone
      cases hnone
  refine ⟨?_, ?_, ?_⟩
  · intro j p hp
    by_cases hj : j = i
    · subst hj
      rw [Function.update_self] at hp ⊢
      exact (hnew p hp).1
    · rw [Function.update_of_ne hj] at hp ⊢
      exact h.phase j p hp
  · intro j p hp
    by_cases hj : j = i
    · subst hj
      rw [Function.update_self] at hp ⊢
      exact (hnew p hp).2.1
    · rw [Function.update_of_ne hj] at hp ⊢
      obtain ⟨h1, h2⟩ := hforeign j p hj hp
      rw [hother p h1 h2]
      exact h.live j p hp
  · -- a pcb lwIP may call back on is the new one, or it is as before and somebody else's
    intro p b hb harmed
    by_cases hc : c'.tcp = some p
    · exact ⟨i, by rw [Function.update_self]; exact hc⟩
    · by_cases hi : (conn i).tcp = some p
      · have := hgone p hi hc b hb
        rw [harmed] at this
        cases this
      · rw [hother p hi hc] at hb
        obtain ⟨j, hj⟩ := h.owner p b hb harmed
        refine ⟨j, ?_⟩
        rw [Function.update_of_ne (show j ≠ i from fun hji => hi (hji ▸ hj))]
        exact hj

/-- The slot keeps its pcb, in the same phase. -/
theorem PcbOwned.same {conn : Slot → Connection} {pcb : PcbId → Option Pcb}
    (h : PcbOwned conn pcb) {i : Slot} {c' : Connection} (htcp : c'.tcp = (conn i).tcp)
    (hphase : ∀ p, (conn i).tcp = some p → c'.phase = (conn i).phase) :
    PcbOwned (Function.update conn i c') pcb := by
  refine h.replace ?_ ?_ (fun p _ _ => rfl)
  · intro p hp
    rw [htcp] at hp
    rw [hphase p hp]
    exact ⟨h.phase i p hp, h.live i p hp, Or.inl hp⟩
  · intro p hp hne
    rw [htcp] at hne
    exact absurd hp hne

/-! ## Client descriptors -/

/-- The descriptor a slot holds. -/
def heldFd (c : Connection) : Option Int := if 0 ≤ c.fd then some c.fd else none

theorem heldFd_of_nonneg {c : Connection} (h : 0 ≤ c.fd) : heldFd c = some c.fd := if_pos h

theorem heldFd_of_neg {c : Connection} (h : c.fd < 0) : heldFd c = none := if_neg (by omega)

/-- The books of the client descriptors: the open ones are exactly those in the slots, each in one
    slot, and every number was closed as often as accepted, apart from the one time it is open. -/
def FdOwned (conn : Slot → Connection) (w : World) : Prop :=
  Ledger (fun i => heldFd (conn i)) w.fds w.accepted w.closed

theorem heldFd_update (conn : Slot → Connection) (i : Slot) (c' : Connection) :
    (fun j => heldFd (Function.update conn i c' j)) =
      Function.update (fun j => heldFd (conn j)) i (heldFd c') := by
  funext j
  exact Function.apply_update (fun _ => heldFd) conn i c' j

/-- The slot keeps its descriptor. -/
theorem FdOwned.same {conn : Slot → Connection} {w w' : World} (h : FdOwned conn w) {i : Slot}
    {c' : Connection} (hfd : c'.fd = (conn i).fd) (hfds : w'.fds = w.fds)
    (hacc : w'.accepted = w.accepted) (hclo : w'.closed = w.closed) :
    FdOwned (Function.update conn i c') w' := by
  unfold FdOwned
  rw [heldFd_update, hfds, hacc, hclo]
  exact Ledger.keep h (by unfold heldFd; rw [hfd])

/-- The slot closes its descriptor. -/
theorem FdOwned.release {conn : Slot → Connection} {w w' : World} (h : FdOwned conn w) {i : Slot}
    {c' : Connection} (hfd : c'.fd = -1)
    (hfds : w'.fds = if 0 ≤ (conn i).fd then w.fds.erase (conn i).fd else w.fds)
    (hacc : w'.accepted = w.accepted)
    (hclo : w'.closed = if 0 ≤ (conn i).fd then (conn i).fd :: w.closed else w.closed) :
    FdOwned (Function.update conn i c') w' := by
  unfold FdOwned
  rw [heldFd_update, heldFd_of_neg (by omega : c'.fd < 0), hfds, hacc, hclo]
  by_cases h0 : 0 ≤ (conn i).fd
  · rw [if_pos h0, if_pos h0]
    exact Ledger.release h (heldFd_of_nonneg h0)
  · rw [if_neg h0, if_neg h0]
    exact Ledger.keep h (heldFd_of_neg (by omega)).symm

/-- A free slot takes a descriptor that was not open. -/
theorem FdOwned.take {conn : Slot → Connection} {w w' : World} (h : FdOwned conn w) {i : Slot}
    {c' : Connection} {fd : Int} (hfd : c'.fd = fd) (hpos : 0 ≤ fd) (hnew : fd ∉ w.fds)
    (hfree : (conn i).fd < 0) (hfds : w'.fds = fd :: w.fds)
    (hacc : w'.accepted = fd :: w.accepted) (hclo : w'.closed = w.closed) :
    FdOwned (Function.update conn i c') w' := by
  subst hfd
  unfold FdOwned
  rw [heldFd_update, heldFd_of_nonneg hpos, hfds, hacc, hclo]
  exact Ledger.take h (heldFd_of_neg hfree) hnew

/-! ## Lookups -/

/-- `resolving` is set exactly for the slots with an outstanding lookup, and then there is one. -/
structure DnsOwned (conn : Slot → Connection) (dns : List DnsRequest) : Prop where
  count : ∀ i, (dns.filter (·.slot = i)).length = if (conn i).resolving then 1 else 0
  phase : ∀ i, (conn i).resolving = true → 0 ≤ (conn i).fd → (conn i).phase = .resolving

/-- **Update rule for lookups.**  The requests of the other slots stay. -/
theorem DnsOwned.replace {conn : Slot → Connection} {dns dns' : List DnsRequest}
    (h : DnsOwned conn dns) {i : Slot} {c' : Connection}
    (hother : ∀ j, j ≠ i → (dns'.filter (·.slot = j)).length = (dns.filter (·.slot = j)).length)
    (hcount : (dns'.filter (·.slot = i)).length = if c'.resolving then 1 else 0)
    (hphase : c'.resolving = true → 0 ≤ c'.fd → c'.phase = .resolving) :
    DnsOwned (Function.update conn i c') dns' := by
  refine ⟨?_, ?_⟩
  · intro j
    by_cases hj : j = i
    · subst hj
      rw [Function.update_self]
      exact hcount
    · rw [Function.update_of_ne hj, hother j hj]
      exact h.count j
  · intro j
    by_cases hj : j = i
    · subst hj
      rw [Function.update_self]
      exact hphase
    · rw [Function.update_of_ne hj]
      exact h.phase j

/-- The slot's lookup, if any, is still under way. -/
theorem DnsOwned.same {conn : Slot → Connection} {dns : List DnsRequest} (h : DnsOwned conn dns)
    {i : Slot} {c' : Connection} (hres : c'.resolving = (conn i).resolving)
    (hphase : c'.resolving = true → 0 ≤ c'.fd → c'.phase = .resolving) :
    DnsOwned (Function.update conn i c') dns :=
  h.replace (fun _ _ => rfl) (by rw [hres]; exact h.count i) hphase

/-! ## What the environment grants -/

/-- What may happen in an event: whether it is the slot's turn to be read, whether clients are
    accepted, and whether a lookup is answered. -/
structure Permit where
  turn : Prop
  clients : Prop
  answers : Prop

/-- lwIP allocates a pcb that is not alive, the kernel hands out a descriptor that is not in use
    (`used` are those that are not clients'), a lookup is answered while it is outstanding, and a
    client is read in its turn. -/
def Granted (used : Int → Prop) (may : Permit) (i : Slot) (w : World) : Io → Prop
  | .accept fd => may.clients ∧ 0 ≤ fd ∧ fd ∉ w.fds ∧ ¬ used fd
  | .read _ _ => may.turn
  | .tcpNew (some p) => w.pcb p = none
  | .dnsFound epoch => may.answers ∧ ⟨i, epoch⟩ ∈ w.dns
  | _ => True

/-- Every interaction of the list is granted when its turn comes. -/
def Fair (used : Int → Prop) (may : Permit) (i : Slot) : World → List Io → Prop
  | _, [] => True
  | w, x :: io => Granted used may i w x ∧ Fair used may i (w.io i x) io

section

variable {used : Int → Prop} {may : Permit} {i : Slot} {w : World}

theorem Fair_append {io io' : List Io} :
    Fair used may i w (io ++ io') ↔ Fair used may i w io ∧ Fair used may i (w.ios i io) io' := by
  induction io generalizing w with
  | nil => exact ⟨fun h => ⟨trivial, h⟩, fun h => h.2⟩
  | cons x io ih =>
    constructor
    · intro h
      obtain ⟨h1, h2⟩ := ih.mp h.2
      exact ⟨⟨h.1, h1⟩, h2⟩
    · intro h
      exact ⟨h.1.1, ih.mpr ⟨h.1.2, h.2⟩⟩

theorem Calm.granted {x : Io} (h : Calm x) : Granted used may i w x := by
  cases x with
  | accept fd => exact h.elim
  | read fd d => exact h.elim
  | dnsFound epoch => exact h.elim
  | tcpNew p => cases p with
    | none => exact trivial
    | some p => exact h.elim
  | _ => exact trivial

theorem fair_of_calm {io : List Io} (h : ∀ x ∈ io, Calm x) : Fair used may i w io := by
  induction io generalizing w with
  | nil => exact trivial
  | cons x io ih =>
    exact ⟨(h x List.mem_cons_self).granted, ih fun y hy => h y (List.mem_cons_of_mem x hy)⟩

/-- Only an allocation makes a pcb come alive. -/
theorem World.io_pcb_none {x : Io} {p : PcbId} (h : Calm x) (hp : w.pcb p = none) :
    (w.io i x).pcb p = none := by
  have hon : ∀ (q : PcbId) (f : Pcb → Option Pcb), (w.onPcb q f).pcb p = none := by
    intro q f
    unfold World.onPcb
    split
    · rename_i b hq
      have hne : p ≠ q := by
        rintro rfl
        rw [hp] at hq
        cases hq
      show Function.update w.pcb q (f b) p = none
      rw [Function.update_of_ne hne]
      exact hp
    · exact hp
  cases x with
  | tcpNew q => cases q with
    | none => exact hp
    | some q => exact h.elim
  | dnsGethostbyname host r =>
    show (if r = .inprogress then _ else w).pcb p = none
    split
    · exact hp
    · exact hp
  | _ => first | exact hp | exact hon _ _

theorem World.ios_pcb_none {io : List Io} {p : PcbId} (h : ∀ x ∈ io, Calm x)
    (hp : w.pcb p = none) : (w.ios i io).pcb p = none := by
  induction io generalizing w with
  | nil => exact hp
  | cons x io ih =>
    exact ih (fun y hy => h y (List.mem_cons_of_mem x hy))
      (World.io_pcb_none (h x List.mem_cons_self) hp)

theorem Allocates.fair {new : Option PcbId} {io : List Io} (h : Allocates new io)
    (hnew : ∀ p, new = some p → w.pcb p = none) : Fair used may i w io := by
  cases h with
  | calm h => exact fair_of_calm h
  | one hpre hp hpost =>
    exact Fair_append.mpr ⟨fair_of_calm hpre, World.ios_pcb_none hpre (hnew _ hp),
      fair_of_calm hpost⟩

end

/-! ## Ownership through a move -/

/-- The connection table and the world agree on every resource. -/
structure Owned (conn : Slot → Connection) (w : World) : Prop where
  pcbs : PcbOwned conn w.pcb
  fds : FdOwned conn w
  dns : DnsOwned conn w.dns
  free : ∀ i, (conn i).fd < 0 → (conn i).tcp = none
  fault : w.fault = false

section

variable {conn : Slot → Connection} {w : World} {i : Slot} {c' : Connection}

/-- The pcb of a slot is alive, with the slot's callbacks. -/
theorem Owned.alive (h : Owned conn w) {i : Slot} {p : PcbId} (hp : (conn i).tcp = some p) :
    ∃ b, w.pcb p = some b := ⟨_, h.pcbs.live i p hp⟩

/-- A slot with a pcb is open. -/
theorem Owned.isOpen (h : Owned conn w) {i : Slot} {p : PcbId} (hp : (conn i).tcp = some p) :
    0 ≤ (conn i).fd := by
  by_contra hneg
  have := h.free i (by omega)
  rw [hp] at this
  cases this

/-- A slot that is neither connecting nor streaming has no pcb. -/
theorem Owned.noPcb (h : Owned conn w) {i : Slot} (h1 : (conn i).phase ≠ .connecting)
    (h2 : (conn i).phase ≠ .streaming) : (conn i).tcp = none := by
  cases htcp : (conn i).tcp with
  | none => rfl
  | some p =>
    rcases h.pcbs.phase i p htcp with hp | hp
    · exact absurd hp h1
    · exact absurd hp h2

theorem Owned.noPcb_of_collecting (h : Owned conn w) {i : Slot}
    (hcol : (conn i).phase.collecting = true) : (conn i).tcp = none :=
  h.noPcb (ConnectionPhase.ne_of_collecting hcol rfl) (ConnectionPhase.ne_of_collecting hcol rfl)

/-- An open slot that is not in phase RESOLVING has no lookup. -/
theorem Owned.idle (h : Owned conn w) {i : Slot} (hfd : 0 ≤ (conn i).fd)
    (hp : (conn i).phase ≠ .resolving) : (conn i).resolving = false := by
  cases hres : (conn i).resolving with
  | false => rfl
  | true => exact absurd (h.dns.phase i hres hfd) hp

theorem Owned.idle_of_collecting (h : Owned conn w) {i : Slot} (hfd : 0 ≤ (conn i).fd)
    (hcol : (conn i).phase.collecting = true) : (conn i).resolving = false :=
  h.idle hfd (ConnectionPhase.ne_of_collecting hcol rfl)

/-- The parts of ownership, put together for a slot that has changed. -/
theorem Owned.build {w' : World} (h : Owned conn w)
    (hpcbs : PcbOwned (Function.update conn i c') w'.pcb)
    (hfds : FdOwned (Function.update conn i c') w')
    (hdns : DnsOwned (Function.update conn i c') w'.dns) (hfree : c'.fd < 0 → c'.tcp = none)
    (hfault : w'.fault = false) : Owned (Function.update conn i c') w' where
  pcbs := hpcbs
  fds := hfds
  dns := hdns
  free := by
    intro j hj
    by_cases hji : j = i
    · subst hji
      rw [Function.update_self] at hj ⊢
      exact hfree hj
    · rw [Function.update_of_ne hji] at hj ⊢
      exact h.free j hj
  fault := hfault

/-- The slot keeps all it has and the world does not change. -/
theorem Owned.same (h : Owned conn w) (hfd : c'.fd = (conn i).fd) (htcp : c'.tcp = (conn i).tcp)
    (hres : c'.resolving = (conn i).resolving)
    (hphase : ∀ p, (conn i).tcp = some p → c'.phase = (conn i).phase)
    (hdns : c'.resolving = true → 0 ≤ c'.fd → c'.phase = .resolving) :
    Owned (Function.update conn i c') w :=
  h.build (h.pcbs.same htcp hphase) (h.fds.same hfd rfl rfl rfl) (h.dns.same hres hdns)
    (fun hneg => htcp.trans (h.free i (by omega))) h.fault

/-- The same for a slot without a pcb and without a lookup, whatever its phase. -/
theorem Owned.idleSame (h : Owned conn w) (hfd : c'.fd = (conn i).fd)
    (htcp : (conn i).tcp = none) (htcp' : c'.tcp = none) (hres : (conn i).resolving = false)
    (hres' : c'.resolving = false) : Owned (Function.update conn i c') w :=
  h.same hfd (htcp'.trans htcp.symm) (hres'.trans hres.symm)
    (fun p hp => by rw [htcp] at hp; cases hp) (fun hr => by rw [hres'] at hr; cases hr)

/-- The target parsers touch none of the resources. -/
theorem Targets.frame {c c' : Connection} {io : List Io} (h : Targets c io c') :
    c'.fd = c.fd ∧ c'.tcp = c.tcp ∧ c'.resolving = c.resolving ∧ c.phase.collecting = true := by
  cases h with
  | connect hphase _ _ _ _ => exact ⟨rfl, rfl, rfl, by rw [hphase]; rfl⟩
  | origin hphase _ _ _ => exact ⟨rfl, rfl, rfl, by rw [hphase]; rfl⟩
  | socks hphase _ => exact ⟨rfl, rfl, rfl, by rw [hphase]; rfl⟩

/-- `close_connection` gives back what the slot has. -/
theorem Owned.close (h : Owned conn w) (hc : Closed (conn i) c') :
    Owned (Function.update conn i c') (w.ios i (closeIo (conn i))) := by
  rw [World.ios_closeIo (c := conn i) fun p hp => h.alive hp]
  refine h.build ?_ (h.fds.release hc.fd rfl rfl rfl) (h.dns.same hc.resolving ?_)
    (fun _ => hc.tcp) ?_
  · refine h.pcbs.replace ?_ ?_ ?_
    · intro p hp
      rw [hc.tcp] at hp
      cases hp
    · -- the pcb it had is freed
      intro p hp _ b hb
      dsimp only at hb
      rw [hp] at hb
      dsimp only at hb
      rw [Function.update_self] at hb
      cases hb
    · intro p hp _
      dsimp only
      cases hq : (conn i).tcp with
      | none => rfl
      | some q =>
        refine Function.update_of_ne ?_ _ _
        rintro rfl
        exact hp hq
  · intro _ hfd
    rw [hc.fd] at hfd
    exact absurd hfd (by decide)
  · show (w.fault || decide (0 ≤ (conn i).fd ∧ (conn i).fd ∉ w.fds)) = false
    rw [h.fault, Bool.false_or, decide_eq_false_iff_not]
    rintro ⟨h0, hnot⟩
    exact hnot (Ledger.isLive h.fds i _ (heldFd_of_nonneg h0))

/-- A new client gets the slot. -/
theorem Owned.accept (h : Owned conn w) {fd : Int} (hpos : 0 ≤ fd) (hnew : fd ∉ w.fds)
    (hfree : (conn i).fd < 0) (hidle : (conn i).resolving = false) (hfd : c'.fd = fd)
    (htcp : c'.tcp = none) (hres : c'.resolving = false) :
    Owned (Function.update conn i c') (w.ios i [.accept fd]) := by
  have hold : (conn i).tcp = none := h.free i hfree
  refine h.build (h.pcbs.same (htcp.trans hold.symm) ?_)
    (h.fds.take hfd hpos hnew hfree rfl rfl rfl)
    (h.dns.same (hres.trans hidle.symm) ?_) (fun _ => htcp) h.fault
  · intro p hp
    rw [hold] at hp
    cases hp
  · intro hr
    rw [hres] at hr
    cases hr

/-- A client is accepted into the slot and turned away. -/
theorem Owned.acceptClosed (h : Owned conn w) {fd : Int} (hfree : (conn i).fd < 0)
    (hidle : (conn i).resolving = false) (hc : Closed (conn i) c') :
    Owned (Function.update conn i c') (w.ios i [.accept fd, .close fd]) := by
  have hold : (conn i).tcp = none := h.free i hfree
  have hres : c'.resolving = false := hc.resolving.trans hidle
  refine h.build (h.pcbs.same (hc.tcp.trans hold.symm) ?_) ?_
    (h.dns.same hc.resolving ?_) (fun _ => hc.tcp) ?_
  · intro p hp
    rw [hold] at hp
    cases hp
  · unfold FdOwned
    rw [heldFd_update, heldFd_of_neg (by rw [hc.fd]; decide), ← heldFd_of_neg hfree,
      Function.update_eq_self]
    exact Ledger.pass h.fds fd
  · intro hr
    rw [hres] at hr
    cases hr
  · show (w.fault || ! decide (fd ∈ fd :: w.fds)) = false
    rw [h.fault, decide_eq_true List.mem_cons_self]
    rfl

/-- A lookup is under way for the slot. -/
theorem Owned.ask (h : Owned conn w) {host : Bytes} (hphase : (conn i).phase = .resolving)
    (hidle : (conn i).resolving = false) :
    Owned (Function.update conn i { conn i with resolving := true })
      (w.ios i [.dnsGethostbyname host .inprogress]) := by
  refine h.build (h.pcbs.same rfl (fun _ _ => rfl)) (h.fds.same rfl rfl rfl rfl)
    (h.dns.replace ?_ ?_ (fun _ _ => hphase)) (h.free i) h.fault
  · intro j hj
    show ((⟨i, w.epoch⟩ :: w.dns).filter (·.slot = j)).length = _
    rw [List.filter_cons_of_neg (by simpa using fun hij : i = j => hj hij.symm)]
  · have hcount := h.dns.count i
    rw [hidle] at hcount
    show ((⟨i, w.epoch⟩ :: w.dns).filter (·.slot = i)).length = 1
    rw [List.filter_cons_of_pos (by simp), List.length_cons, hcount]
    rfl

/-- Taking one request out of the list takes one out of its slot's. -/
theorem length_filter_erase {dns : List DnsRequest} {q : DnsRequest} (hq : q ∈ dns) (j : Slot) :
    ((dns.erase q).filter (·.slot = j)).length + (if q.slot = j then 1 else 0) =
      (dns.filter (·.slot = j)).length := by
  have hperm := (List.perm_cons_erase hq).filter (·.slot = j)
  rw [hperm.length_eq, List.filter_cons]
  by_cases hj : q.slot = j
  · simp [hj]
  · simp [hj]

/-- lwIP answers the slot's lookup. -/
theorem Owned.answer (h : Owned conn w) {epoch : Nat} (hq : ⟨i, epoch⟩ ∈ w.dns) :
    Owned (Function.update conn i { conn i with resolving := false })
      (w.ios i [.dnsFound epoch]) := by
  refine h.build (h.pcbs.same rfl (fun _ _ => rfl)) (h.fds.same rfl rfl rfl rfl)
    (h.dns.replace ?_ ?_ (fun hr => by cases hr)) (h.free i) h.fault
  · intro j hj
    have hlen := length_filter_erase hq j
    rw [if_neg (fun hij => hj hij.symm)] at hlen
    exact hlen
  · -- the slot had one request, so none is left
    have hlen := length_filter_erase hq i
    rw [if_pos rfl, h.dns.count i] at hlen
    have hone : (if (conn i).resolving then 1 else 0) ≤ 1 := by
      split <;> omega
    show ((w.dns.erase ⟨i, epoch⟩).filter (·.slot = i)).length = 0
    omega

/-- The slot gets a pcb of its own. -/
theorem Owned.openPcb (h : Owned conn w) {p : PcbId} {address : IpAddr} {port : Int}
    (hfd : 0 ≤ (conn i).fd) (hphase : (conn i).phase = .resolving)
    (hidle : (conn i).resolving = false) (hp : w.pcb p = none) :
    Owned (Function.update conn i { conn i with tcp := some p, phase := .connecting })
      (w.ios i (installCallbacks p ++ [.tcpConnect p address port .ok])) := by
  have hold : (conn i).tcp = none :=
    h.noPcb (by rw [hphase]; decide) (by rw [hphase]; decide)
  rw [World.ios_install]
  refine h.build (h.pcbs.replace ?_ ?_ ?_) (h.fds.same rfl rfl rfl rfl)
    (h.dns.same rfl (fun hr => ?_)) (fun hneg => absurd hneg (by dsimp only; omega)) h.fault
  · intro q hq
    obtain rfl := Option.some.inj hq
    exact ⟨Or.inl rfl, Function.update_self .., Or.inr hp⟩
  · intro q hq
    rw [hold] at hq
    cases hq
  · intro q _ hq
    refine Function.update_of_ne ?_ _ _
    rintro rfl
    exact hq rfl
  · rw [show _ = (conn i).resolving from rfl, hidle] at hr
    cases hr

/-- The world of a slot whose pcb has been changed, and nothing else. -/
theorem Owned.setPcb (h : Owned conn w) {p : PcbId} {b : Option Pcb}
    (hp : (conn i).tcp = some p) (hfd : c'.fd = (conn i).fd)
    (hres : c'.resolving = (conn i).resolving)
    (hnew : (c'.tcp = none ∧ ∀ b', b = some b' → b'.callable = false) ∨
      c'.tcp = some p ∧ (c'.phase = .connecting ∨ c'.phase = .streaming) ∧
        b = some (ownedPcb i c'.phase)) :
    Owned (Function.update conn i c') { w with pcb := Function.update w.pcb p b } := by
  -- a slot with a pcb is past its lookup
  have hidle : (conn i).resolving = false := by
    refine h.idle (h.isOpen hp) ?_
    intro hphase
    rcases h.pcbs.phase i p hp with hc | hc
    · rw [hphase] at hc
      cases hc
    · rw [hphase] at hc
      cases hc
  refine h.build (h.pcbs.replace ?_ ?_ ?_) (h.fds.same hfd rfl rfl rfl)
    (h.dns.same hres (fun hr => ?_)) (fun hneg => ?_) h.fault
  · intro q hq
    rcases hnew with ⟨hnone, -⟩ | ⟨hsome, hphase, hb⟩
    · rw [hnone] at hq
      cases hq
    · obtain rfl := Option.some.inj (hsome.symm.trans hq)
      refine ⟨hphase, ?_, Or.inl hp⟩
      show Function.update w.pcb p b p = _
      rw [Function.update_self, hb]
  · intro q hq hne b' hb'
    obtain rfl := Option.some.inj (hp.symm.trans hq)
    rcases hnew with ⟨-, hcall⟩ | ⟨hsome, -, -⟩
    · refine hcall b' ?_
      dsimp only at hb'
      rw [Function.update_self] at hb'
      exact hb'
    · exact absurd hsome hne
  · intro q hq _
    refine Function.update_of_ne ?_ _ _
    rintro rfl
    exact hq hp
  · rw [hres, hidle] at hr
    cases hr
  · rw [hfd] at hneg
    have := h.isOpen hp
    omega

/-- `tcp_connect` fails: the pcb is aborted again and the client closed. -/
theorem Owned.openFailed (h : Owned conn w) {p : PcbId} {address : IpAddr} {port : Int} {e : Err}
    (hphase : (conn i).phase = .resolving) (hp : w.pcb p = none) (hc : Closed (conn i) c') :
    Owned (Function.update conn i c')
      (w.ios i (installCallbacks p ++ [.tcpConnect p address port e] ++
        closeIo { conn i with tcp := some p, phase := .connecting })) := by
  have hold : (conn i).tcp = none :=
    h.noPcb (by rw [hphase]; decide) (by rw [hphase]; decide)
  have hgone : Function.update (Function.update w.pcb p (some
      ⟨some i, true, true, true, true, if e = .ok then .synSent else .closed⟩)) p none = w.pcb := by
    rw [Function.update_idem, ← hp, Function.update_eq_self]
  -- what is left is the closing of a slot without a pcb
  have hclose := h.close hc
  rw [World.ios_closeIo (c := conn i) (fun q hq => h.alive hq), hold] at hclose
  rw [World.ios_append, World.ios_install, World.ios_closeIo]
  · dsimp only
    rw [hgone]
    exact hclose
  · intro q hq
    obtain rfl := Option.some.inj hq
    exact ⟨_, Function.update_self ..⟩

/-- **Ownership is kept by every move** the environment grants. -/
theorem Owned.move {up : Bool} {used : Int → Prop} {may : Permit} {io : List Io} (h : Owned conn w)
    (hm : Move up (conn i) io c') (hf : Fair used may i w io) :
    Owned (Function.update conn i c') (w.ios i io) := by
  -- one case per move, each discharged by the rule for what the move does to the resources
  generalize hci : conn i = c at hm
  cases hm with
  | quiet hq =>
    rw [World.ios_quiet (fun p hp => h.alive (hci ▸ hp)) hq, ← hci, Function.update_eq_self]
    exact h
  | accepted hfree hidle _ =>
    subst hci
    exact h.accept hf.1.2.1 hf.1.2.2.1 hfree hidle rfl rfl rfl
  | acceptedForward _ hfree hidle =>
    subst hci
    exact h.accept hf.1.2.1 hf.1.2.2.1 hfree hidle rfl rfl rfl
  | acceptClosed hfree hidle hc =>
    subst hci
    exact h.acceptClosed hfree hidle hc
  | readHeader hfd hphase _ =>
    subst hci
    exact h.same rfl rfl rfl (fun _ _ => rfl) (h.dns.phase i)
  | greeted hfd hphase _ _ _ hio =>
    subst hci
    have hcol : (conn i).phase.collecting = true := by rw [hphase]; rfl
    rw [World.ios_appends hio]
    exact h.idleSame rfl (h.noPcb_of_collecting hcol) (h.noPcb_of_collecting hcol)
      (h.idle_of_collecting hfd hcol) (h.idle_of_collecting hfd hcol)
  | targeted _ hfd htarget _ hio =>
    subst hci
    obtain ⟨h1, h2, h3, hcol⟩ := htarget.frame
    rw [World.ios_appends hio]
    exact h.idleSame h1 (h.noPcb_of_collecting hcol) (h2.trans (h.noPcb_of_collecting hcol))
      (h.idle_of_collecting hfd hcol) (h3.trans (h.idle_of_collecting hfd hcol))
  | asked _ _ hphase hidle =>
    subst hci
    exact h.ask hphase hidle
  | answered =>
    subst hci
    exact h.answer hf.1.2
  | opened _ hfd hphase hidle =>
    subst hci
    exact h.openPcb hfd hphase hidle hf.1
  | openFailed _ _ hphase _ _ hc =>
    subst hci
    exact h.openFailed hphase hf.1 hc
  | connected htcp hphase _ hio =>
    subst hci
    rw [World.ios_connected (h.pcbs.live i _ htcp) hio]
    exact h.setPcb htcp rfl rfl (Or.inr ⟨htcp, Or.inr rfl, rfl⟩)
  | flushed htcp _ =>
    subst hci
    rw [World.ios_flushed (h.pcbs.live i _ htcp)]
    exact h.same rfl rfl rfl (fun _ _ => rfl) (h.dns.phase i)
  | received htcp _ _ =>
    subst hci
    rw [World.ios_received (h.pcbs.live i _ htcp)]
    exact h.same rfl rfl rfl (fun _ _ => rfl) (h.dns.phase i)
  | finished htcp hphase =>
    subst hci
    rw [World.ios_finished (h.pcbs.live i _ htcp)]
    refine h.setPcb htcp rfl rfl (Or.inl ⟨rfl, ?_⟩)
    -- the slot was streaming, so the handshake of the pcb is over
    intro b hb
    split at hb
    · obtain rfl := Option.some.inj hb
      simp [Pcb.callable, Pcb.armed, ownedPcb, hphase]
    · cases hb
  | errored htcp =>
    subst hci
    rw [World.ios_errored (h.pcbs.live i _ htcp)]
    exact h.setPcb htcp rfl rfl (Or.inl ⟨rfl, fun _ hb => by cases hb⟩)
  | drained hfd =>
    subst hci
    exact h.same rfl rfl rfl (fun _ _ => rfl) (h.dns.phase i)
  | readStream hfd hphase _ hio =>
    subst hci
    rw [World.ios_cons, World.ios_appends hio]
    exact h.same rfl rfl rfl (fun _ _ => rfl) (h.dns.phase i)
  | closed hpre hc =>
    subst hci
    rw [World.ios_append, World.ios_passing hpre]
    exact h.close hc

end

end PptpProxy
