/-
  What holds in every reachable state of the engine, and of every step from there.

  * `slot_ownership`: pcbs, client descriptors and lookups against the connection table;
  * `link_gating`: nothing is opened while the link is down, nor for a request of an earlier link;
  * `buffer_bounds`: the three buffers of a slot never overflow and `append_bytes` never fails;
  * `listener_table`: the listener table against the open listening sockets.

  All of them are read off `Good`, the paths of `Engine.Run`, and a few facts about what the
  interactions of a single move can be.
-/
import PptpProxy.Engine.Run

namespace PptpProxy

open CLib Sys Books

/-! ## What an event interacts with -/

section

variable {clients answers : Prop} {s s' : State} {io : List Io}

theorem Env.linkUp (h : Env s io s') : s'.linkUp = s.linkUp := by
  cases h <;> rfl

/-- What every move guarantees of its interactions holds of a path. -/
theorem Path.forall_io {Q : Io → Prop} (hp : Path clients answers s io s')
    (hmove : ∀ c io c', Move s.linkUp c io c' → ∀ x ∈ io, Q x)
    (hturned : ∀ fd, Q (.accept fd) ∧ Q (.close fd)) : ∀ x ∈ io, Q x := by
  induction hp with
  | nil => exact fun x hx => by cases hx
  | move hm _ _ ih =>
    intro x hx
    rcases List.mem_append.mp hx with hx | hx
    · exact hmove _ _ _ hm x hx
    · exact ih hmove x hx
  | env he _ ih =>
    intro x hx
    rcases List.mem_append.mp hx with hx | hx
    · cases he with
      | watch _ => cases hx
      | control _ => cases hx
      | reap _ => cases hx
      | turnAway _ =>
        rcases List.mem_cons.mp hx with rfl | hx
        · exact (hturned _).1
        · obtain rfl := List.mem_singleton.mp hx
          exact (hturned _).2
    · exact ih (he.linkUp ▸ hmove) x hx

/-- The interactions of a loop over the table are those of its body. -/
theorem forSlots_forall {Q : Io → Prop} {f : Slot → Connection → Connection × List Io}
    (hf : ∀ i c, ∀ x ∈ (f i c).2, Q x) : ∀ x ∈ (s.forSlots f).2, Q x := by
  unfold State.forSlots
  refine foldl_keeps (P := fun r : State × List Io => ∀ x ∈ r.2, Q x) ?_ (fun x hx => by cases hx)
  intro r i _ hr x hx
  rcases List.mem_append.mp hx with hx | hx
  · exact hr x hx
  · exact hf i _ x hx

end

/-! ## Link gating -/

/-- The calls that open a connection to the remote side. -/
def Opening : Io → Prop
  | .dnsGethostbyname _ _ | .tcpNew _ | .tcpConnect _ _ _ _ => True
  | _ => False

theorem closeIo_not_opening (c : Connection) : ∀ x ∈ closeIo c, ¬ Opening x := by
  refine closeIo_all c (fun _ => id) ?_ (fun _ => id)
  simp [clearCallbacks, Opening]

theorem AppendsOnly.not_opening {io : List Io} (h : AppendsOnly io) : ∀ x ∈ io, ¬ Opening x :=
  h.all fun _ _ _ => id

/-- A move on a link that is down opens nothing. -/
theorem Move.not_opening {c c' : Connection} {io : List Io} (hm : Move false c io c') :
    ∀ x ∈ io, ¬ Opening x := by
  have hsingle : ∀ {y : Io}, ¬ Opening y → ∀ x ∈ [y], ¬ Opening x := by
    intro y hy x hx
    obtain rfl := List.mem_singleton.mp hx
    exact hy
  have happend : ∀ {l l' : List Io}, (∀ x ∈ l, ¬ Opening x) → (∀ x ∈ l', ¬ Opening x) →
      ∀ x ∈ l ++ l', ¬ Opening x := by
    intro l l' h h' x hx
    rcases List.mem_append.mp hx with hx | hx
    · exact h x hx
    · exact h' x hx
  -- the moves with an opening call carry `up = true`, which is absurd here
  cases hm with
  | quiet hq =>
    intro x hx
    have := hq x hx
    cases x with
    | dnsGethostbyname host r => cases this.1
    | tcpNew p => exact this.elim
    | tcpConnect p a n r => exact this.elim
    | _ => exact id
  | accepted _ _ _ => exact hsingle id
  | acceptedForward hup _ _ => cases hup
  | acceptClosed _ _ _ => exact happend (hsingle id) (hsingle id)
  | readHeader _ _ _ => exact hsingle id
  | greeted _ _ _ _ _ hio => exact hio.not_opening
  | targeted hup _ _ _ _ => cases hup
  | asked hup _ _ _ => cases hup
  | answered => exact hsingle id
  | opened hup _ _ _ => cases hup
  | openFailed hup _ _ _ _ _ => cases hup
  | connected _ _ _ hio => exact happend (l := [_]) (hsingle id) hio.not_opening
  | flushed _ _ => exact happend (hsingle id) (happend (hsingle id) (hsingle id))
  | received _ _ _ => exact happend (hsingle id) (happend (hsingle id) (hsingle id))
  | finished _ _ =>
    intro x hx
    simp only [clearCallbacks, List.cons_append, List.nil_append, List.mem_cons] at hx
    rcases hx with rfl | rfl | rfl | rfl | rfl | rfl | hx
    any_goals exact id
    split at hx
    · cases hx
    · obtain rfl := List.mem_singleton.mp hx
      exact id
  | errored _ => exact hsingle id
  | drained _ => exact hsingle id
  | readStream _ _ _ hio => exact happend (l := [_]) (hsingle id) hio.not_opening
  | closed hpre _ =>
    refine happend ?_ (closeIo_not_opening c)
    intro x hx
    have := hpre x hx
    cases x with
    | dnsGethostbyname host r => cases this.1
    | tcpNew p => cases p with
      | none => cases this
      | some p => exact this.elim
    | tcpConnect p a n r => exact this.elim
    | _ => exact id

/-- While the link is down no slot has a pcb. -/
theorem Good.noPcb_down {s : State} (h : Good s) (hdown : s.linkUp = false) (i : Slot) :
    (s.conn i).tcp = none := by
  cases htcp : (s.conn i).tcp with
  | none => rfl
  | some p =>
    have hcol := (h.slots i).down hdown (h.owned.isOpen htcp)
    rw [h.owned.noPcb_of_collecting hcol] at htcp
    cases htcp

/-- **Link gating.**  While the link is down no slot has a pcb and no open slot is beyond its
    request; a step taken then, a link change included, makes none of the calls that open
    something; and the answer to a lookup of an earlier link session opens nothing either. -/
theorem link_gating {L : Lwip} {s : State} (h : (engine L).Reach s) :
    (s.linkUp = false → ∀ i, (s.conn i).tcp = none ∧ (0 ≤ (s.conn i).fd →
      (s.conn i).phase ≠ .resolving ∧ (s.conn i).phase ≠ .connecting ∧
      (s.conn i).phase ≠ .streaming)) ∧
    (∀ e, enabled s e → s.linkUp = false → ∀ x ∈ (exec L s e).io, ¬ Opening x) ∧
    (∀ status tx rx now, ∀ x ∈ (exec L s (.pppStatus status tx rx now)).io, ¬ Opening x) ∧
    (∀ q address a, enabled s (.dnsDone q address a) → q.epoch ≠ s.world.epoch →
      ∀ x ∈ (exec L s (.dnsDone q address a)).io, ¬ Opening x) := by
  have hg := reach_good h
  refine ⟨?_, ?_, ?_, ?_⟩
  · intro hdown i
    have hcol := (hg.slots i).down hdown
    constructor
    · exact hg.noPcb_down hdown i
    · intro h0
      exact ⟨ConnectionPhase.ne_of_collecting (hcol h0) rfl,
        ConnectionPhase.ne_of_collecting (hcol h0) rfl, ConnectionPhase.ne_of_collecting (hcol h0) rfl⟩
  · intro e he hdown
    obtain ⟨s₁, hp, -⟩ := exec_path L hg he
    refine hp.forall_io ?_ (fun fd => ⟨id, id⟩)
    intro c io c' hm
    rw [hdown] at hm
    exact hm.not_opening
  · intro status tx rx now
    show ∀ x ∈ (s.pppStatus status tx rx now).2, ¬ Opening x
    unfold State.pppStatus
    split
    · split
      · exact fun x hx => by cases hx
      · exact fun x hx => by cases hx
    · refine forSlots_forall ?_
      intro i c
      split
      · exact closeIo_not_opening c
      · exact fun x hx => by cases hx
  · intro q address a he hepoch
    -- the slot was closed when the link of the request went down
    have hclosed : (s.conn q.slot).fd < 0 := by
      by_contra h0
      exact hepoch (hg.session q he.2.1 (Int.not_lt.mp h0))
    intro x hx
    rcases List.mem_cons.mp hx with rfl | hx
    · exact id
    · cases address with
      | none => exact closeIo_not_opening _ x hx
      | some address =>
        have hnothing : (connectIp a address (s.conn q.slot)).2 = [] := by
          unfold connectIp
          dsimp only
          rw [if_pos (Or.inr hclosed)]
        have hx' : x ∈ (connectIp a address (s.conn q.slot)).2 := hx
        rw [hnothing] at hx'
        cases hx'

/-- Before PPP is up no event opens anything. -/
theorem link_gating_at_start : sampleStart.linkUp = false ∧
    ∀ e, enabled sampleStart e → ∀ x ∈ (exec sampleLwip sampleStart e).io, ¬ Opening x :=
  ⟨rfl, fun e he => (link_gating (L := sampleLwip) (.init sampleStart_started)).2.1 e he rfl⟩

/-! ## Slot ownership -/

section

variable {c : Connection} {p : PcbId}

theorem flushRemote_no_abort (a : Answers) : Io.tcpAbort p ∉ (flushRemote a c).2 := by
  intro hmem
  refine flushRemote_all (P := fun x => x ≠ .tcpAbort p) a c ?_ ?_ ?_ _ hmem rfl
  · simp
  · simp
  · simp

/-- `close_connection` aborts the pcb the slot has. -/
theorem abort_mem_closeIo : Io.tcpAbort p ∈ closeIo c ↔ c.tcp = some p := by
  unfold closeIo
  rw [List.mem_append]
  cases htcp : c.tcp with
  | none =>
    simp only [List.not_mem_nil, or_false]
    split <;> simp
  | some q =>
    simp only [clearCallbacks, List.cons_append, List.nil_append, List.mem_cons, Option.some.injEq]
    split <;> simp [eq_comm]

/-- The receive callback aborts its pcb exactly when it says so. -/
theorem onTcpReceive_abort (a : Answers) (payload : Option Bytes) :
    (onTcpReceive a p payload .ok c).2.2 = .abrt ↔
      Io.tcpAbort p ∈ (onTcpReceive a p payload .ok c).2.1 := by
  cases payload with
  | some d =>
    simp only [onTcpReceive, ne_eq, not_true_eq_false, if_false]
    split <;> simp
  | none =>
    show (onTcpFin a p c).2.2 = .abrt ↔ Io.tcpAbort p ∈ (onTcpFin a p c).2.1
    rw [onTcpFin_eq]
    have hclosing : Io.tcpAbort p ∉ (letGo c).2 := fun hmem =>
      letGo_all (P := fun x => x ≠ .tcpAbort p) (fun he => by cases he) _ hmem rfl
    dsimp only
    rw [List.mem_append]
    unfold finIo
    by_cases hok : a.tcpClose = .ok
    · simp [hok, hclosing, clearCallbacks]
    · simp [hok]

/-- So does the callback for the handshake, when it finds room for its reply. -/
theorem onTcpConnected_abort (a : Answers) (err : Err) (htcp : c.tcp = some p)
    (hroom : c.toLocal.length + 39 ≤ bufferSize) :
    (onTcpConnected a err c).2.2 = .abrt ↔ Io.tcpAbort p ∈ (onTcpConnected a err c).2.1 := by
  unfold onTcpConnected
  split
  · exact ⟨fun _ => abort_mem_closeIo.mpr htcp, fun _ => rfl⟩
  · dsimp only
    split
    · exact ⟨fun h => (by cases h), fun h => absurd h (flushRemote_no_abort a)⟩
    · rename_i reply hreply
      have hlen := connectedReply_length { c with phase := .streaming }
      rw [hreply, Option.getD_some] at hlen
      have happ : localReply { c with phase := .streaming } reply
          = some { c with phase := .streaming, toLocal := c.toLocal ++ reply } := by
        show (appendBytes c.toLocal bufferSize reply).map _ = _
        rw [appendBytes_of_room (by omega) (by decide)]
        rfl
      rw [happ]
      refine ⟨fun h => (by cases h), fun h => ?_⟩
      rcases List.mem_cons.mp h with h | h
      · cases h
      · exact absurd h (flushRemote_no_abort a)

end

section

variable {s : State} {L : Lwip}

/-- Every TCP callback reports an abort of its own pcb, and nothing else, as `ERR_ABRT`. -/
theorem callback_abort (hg : Good s) {e : Event} (he : enabled s e) {p : PcbId}
    (hp : e.callbackPcb = some p) :
    (exec L s e).result = .abrt ↔ Io.tcpAbort p ∈ (exec L s e).io := by
  obtain ⟨i, htcp⟩ := hg.owner he hp
  cases e with
  | sent q n a =>
    obtain rfl := Option.some.inj hp
    show (s.callback q [] (onTcpSent a n)).result = .abrt ↔ _ ∈ (s.callback q [] (onTcpSent a n)).io
    rw [hg.callback htcp]
    refine ⟨fun h => (by cases h), fun h => ?_⟩
    rcases List.mem_cons.mp h with h | h
    · cases h
    · exact absurd h (flushRemote_no_abort a)
  | poll q a =>
    obtain rfl := Option.some.inj hp
    show (s.callback q [] (onTcpPoll a)).result = .abrt ↔ _ ∈ (s.callback q [] (onTcpPoll a)).io
    rw [hg.callback htcp]
    exact ⟨fun h => (by cases h), fun h => absurd h (flushRemote_no_abort a)⟩
  | error q =>
    obtain rfl := Option.some.inj hp
    show (s.callback q [.errored q] _).result = .abrt ↔ _ ∈ (s.callback q [.errored q] _).io
    rw [hg.callback htcp]
    refine ⟨fun h => (by cases h), fun h => ?_⟩
    rcases List.mem_cons.mp h with h | h
    · cases h
    · have := abort_mem_closeIo.mp h
      cases this
  | receive q payload a =>
    obtain rfl := Option.some.inj hp
    show (s.callback q [] _).result = .abrt ↔ _ ∈ (s.callback q [] _).io
    rw [hg.callback htcp]
    exact onTcpReceive_abort a payload
  | connected q err a =>
    obtain rfl := Option.some.inj hp
    have hroom := (hg.slots i).greeted (by rw [hg.handshaking he htcp]; decide)
    show (s.callback q _ _).result = .abrt ↔ _ ∈ (s.callback q _ _).io
    rw [hg.callback htcp]
    have habort := onTcpConnected_abort a err htcp (by simp only [bufferSize]; omega)
    dsimp only
    rw [List.mem_append, habort]
    refine ⟨Or.inr, fun h => ?_⟩
    rcases h with h | h
    · split at h
      · simp at h
      · cases h
    · exact h
  -- no other event is a TCP callback
  | top _ => cases hp
  | select _ _ => cases hp
  | reap _ => cases hp
  | dnsDone _ _ _ => cases hp
  | pppStatus _ _ _ _ => cases hp
  | control _ _ _ => cases hp
  | accept _ _ _ _ => cases hp
  | serve _ _ _ _ => cases hp
  | stop => cases hp

/-- Without an answer, a slot that waits for one goes on waiting; its client may only leave. -/
theorem Move.waiting {up : Bool} {c c' : Connection} {io : List Io} {used : Int → Prop}
    {may : Permit} {i : Slot} {w : World} (hm : Move up c io c') (hf : Fair used may i w io)
    (hno : ¬ may.answers) (hres : c.resolving = true) :
    c'.resolving = true ∧ (c'.fd = c.fd ∨ c'.fd = -1) := by
  have hbusy : ∀ {P : Prop}, c.resolving = false → P := by
    intro P hidle
    rw [hres] at hidle
    cases hidle
  cases hm with
  | accepted _ hidle _ => exact hbusy hidle
  | acceptedForward _ _ hidle => exact hbusy hidle
  | acceptClosed _ hidle _ => exact hbusy hidle
  | asked _ _ _ hidle => exact hbusy hidle
  | opened _ _ _ hidle => exact hbusy hidle
  | openFailed _ _ _ hidle _ _ => exact hbusy hidle
  | answered => exact absurd hf.1.1 hno
  | targeted _ _ ht _ _ => exact ⟨ht.frame.2.2.1.trans hres, Or.inl ht.frame.1⟩
  | closed _ hc => exact ⟨hc.resolving.trans hres, Or.inr hc.fd⟩
  | _ => exact ⟨hres, Or.inl rfl⟩

theorem Path.waiting {clients answers : Prop} {s s' : State} {io : List Io}
    (hp : Path clients answers s io s') (hno : ¬ answers) {i : Slot}
    (hres : (s.conn i).resolving = true) :
    (s'.conn i).resolving = true ∧ ((s'.conn i).fd = (s.conn i).fd ∨ (s'.conn i).fd = -1) := by
  induction hp with
  | nil => exact ⟨hres, Or.inl rfl⟩
  | @move s s' j c' io io' hm hf _ ih =>
    by_cases hij : i = j
    · subst hij
      obtain ⟨h1, h2⟩ := hm.waiting hf hno hres
      have hself : (s.put i c' io).conn i = c' := State.put_conn_self _ _
      obtain ⟨h3, h4⟩ := ih (by rw [hself]; exact h1)
      rw [hself] at h4
      refine ⟨h3, ?_⟩
      rcases h4 with h4 | h4
      · rw [h4]
        exact h2
      · exact Or.inr h4
    · have hother : (s.put j c' io).conn i = s.conn i := Function.update_of_ne hij ..
      obtain ⟨h3, h4⟩ := ih (by rw [hother]; exact hres)
      rw [hother] at h4
      exact ⟨h3, h4⟩
  | @env s s₁ s' io io' he _ ih =>
    have hsame : s₁.conn = s.conn := by cases he <;> rfl
    rw [hsame] at ih
    exact ih hres

theorem Turn.conn {s s' : State} (h : Turn s s') : s'.conn = s.conn := by
  cases h <;> rfl

/-- Until lwIP answers its lookup a slot keeps it, and gets no new client. -/
theorem waiting_slot_kept (hg : Good s) {e : Event} (he : enabled s e) {i : Slot}
    (hres : (s.conn i).resolving = true)
    (hother : ∀ q address a, e = .dnsDone q address a → q.slot ≠ i) :
    ((exec L s e).state.conn i).resolving = true ∧
      (((exec L s e).state.conn i).fd = (s.conn i).fd ∨
        ((exec L s e).state.conn i).fd = -1) := by
  by_cases hans : e.answers
  · cases e with
    | dnsDone q address a =>
      -- the answer is for another slot
      have hne : i ≠ q.slot := fun hi => hother q address a rfl hi.symm
      have hsame : (exec L s (.dnsDone q address a)).state.conn i = s.conn i :=
        Function.update_of_ne hne ..
      rw [hsame]
      exact ⟨hres, Or.inl rfl⟩
    | _ => exact hans.elim
  · obtain ⟨s₁, hp, ht⟩ := exec_path L hg he
    rw [ht.conn]
    exact hp.waiting hans hres

end

/-- **Slot ownership.**  In every reachable state: (1) a free slot has no pcb, and a slot with a pcb
    is connecting or streaming; (2) every live pcb with a callback of the engine is the pcb of
    exactly one slot, which is its callback argument, and no call was ever made on a freed pcb or
    for a NULL slot; (3) `resolving` marks exactly the slots with an outstanding lookup, which is
    one, and they keep it, without a new client, until it is answered; (4) an open client
    descriptor is in exactly one slot, and each number was closed as often as it was accepted,
    but for the time it is open now; (5) a TCP callback returns `ERR_ABRT` exactly when it aborted
    its pcb. -/
theorem slot_ownership {L : Lwip} {s : State} (h : (engine L).Reach s) :
    ((∀ i, (s.conn i).fd < 0 → (s.conn i).tcp = none) ∧
      ∀ i p, (s.conn i).tcp = some p →
        (s.conn i).phase = .connecting ∨ (s.conn i).phase = .streaming) ∧
    ((∀ p b, s.world.pcb p = some b → b.armed = true →
        ∃ i, ((s.conn i).tcp = some p ∧ ∀ j, (s.conn j).tcp = some p → j = i) ∧
          b.arg = some i) ∧
      s.world.fault = false) ∧
    ((∀ i, (s.world.dns.filter (·.slot = i)).length = if (s.conn i).resolving then 1 else 0) ∧
      ∀ e i, enabled s e → (s.conn i).resolving = true →
        (∀ q address a, e = .dnsDone q address a → q.slot ≠ i) →
        ((exec L s e).state.conn i).resolving = true ∧
          (((exec L s e).state.conn i).fd = (s.conn i).fd ∨
            ((exec L s e).state.conn i).fd = -1)) ∧
    ((∀ i, 0 ≤ (s.conn i).fd → (s.conn i).fd ∈ s.world.fds ∧
        ∀ j, (s.conn j).fd = (s.conn i).fd → j = i) ∧
      (∀ fd ∈ s.world.fds, ∃ i, (s.conn i).fd = fd) ∧
      ∀ fd, s.world.accepted.count fd =
        s.world.closed.count fd + if fd ∈ s.world.fds then 1 else 0) ∧
    ∀ e p, enabled s e → e.callbackPcb = some p →
      ((exec L s e).result = .abrt ↔ Io.tcpAbort p ∈ (exec L s e).io) := by
  have hg := reach_good h
  have hfds : Ledger (fun i => heldFd (s.conn i)) s.world.fds s.world.accepted s.world.closed :=
    hg.owned.fds
  refine ⟨⟨hg.owned.free, hg.owned.pcbs.phase⟩, ⟨?_, hg.owned.fault⟩,
    ⟨hg.owned.dns.count, fun e i he => waiting_slot_kept hg he⟩, ⟨?_, ?_, ?_⟩,
    fun e p he => callback_abort hg he⟩
  · intro p b hb harmed
    obtain ⟨i, hi⟩ := hg.owned.pcbs.owner p b hb (callable_of_armed harmed)
    refine ⟨i, ⟨hi, fun j hj => hg.owned.pcbs.unique hj hi⟩, ?_⟩
    obtain rfl := Option.some.inj (hb.symm.trans (hg.owned.pcbs.live i p hi))
    rfl
  · intro i h0
    refine ⟨hfds.isLive i _ (heldFd_of_nonneg h0), fun j hj => ?_⟩
    refine hfds.unique j i (s.conn i).fd ?_ (heldFd_of_nonneg h0)
    rw [← hj]
    exact heldFd_of_nonneg (hj ▸ h0)
  · intro fd hfd
    obtain ⟨i, hi⟩ := hfds.holder fd hfd
    refine ⟨i, ?_⟩
    unfold heldFd at hi
    split at hi
    · exact Option.some.inj hi
    · cases hi
  · intro fd
    rw [hfds.balance fd, List.Nodup.count hfds.nodup]

/-- The pcb of a streaming client points back at its slot. -/
theorem slot_ownership_streaming : (sampleStreaming.world.pcb 7).isSome = true ∧
    ∀ b, sampleStreaming.world.pcb 7 = some b → b.armed = true →
      ∃ i, ((sampleStreaming.conn i).tcp = some 7 ∧
        ∀ j, (sampleStreaming.conn j).tcp = some 7 → j = i) ∧ b.arg = some i :=
  ⟨by decide, (slot_ownership (sampleStreaming_leads.reach sampleStart_started)).2.1.1 7⟩

/-! ## Buffers -/

/-- A move records only `append_bytes` calls that fit. -/
theorem Move.appends_fit {up : Bool} {c c' : Connection} {io : List Io} (hm : Move up c io c')
    {l k n : Nat} (hmem : Io.appendBytes l k n ∈ io) : Fits l k n := by
  have honly : ∀ {io : List Io}, AppendsOnly io → Io.appendBytes l k n ∈ io → Fits l k n := by
    intro io hio h
    obtain ⟨l', k', n', he, hfit⟩ := hio _ h
    obtain ⟨rfl, rfl, rfl⟩ := Io.appendBytes.inj he
    exact hfit
  have hclose : ∀ c₁ : Connection, Io.appendBytes l k n ∉ closeIo c₁ := by
    intro c₁ h
    unfold closeIo at h
    rcases List.mem_append.mp h with h | h
    · split at h <;> simp at h
    · split at h <;> simp [clearCallbacks] at h
  cases hm with
  | quiet hq => exact (hq _ hmem).elim
  | greeted _ _ _ _ _ hio => exact honly hio hmem
  | targeted _ _ _ _ hio => exact honly hio hmem
  | connected _ _ _ hio =>
    rcases List.mem_cons.mp hmem with he | hmem
    · cases he
    · exact honly hio hmem
  | readStream _ _ _ hio =>
    rcases List.mem_cons.mp hmem with he | hmem
    · cases he
    · exact honly hio hmem
  | closed hpre _ =>
    rcases List.mem_append.mp hmem with hmem | hmem
    · exact hpre _ hmem
    · exact absurd hmem (hclose _)
  | openFailed _ _ _ _ _ _ =>
    rcases List.mem_append.mp hmem with hmem | hmem
    · simp [installCallbacks] at hmem
    · exact absurd hmem (hclose _)
  | finished _ _ =>
    rcases List.mem_append.mp hmem with hmem | hmem
    · simp [clearCallbacks] at hmem
    · rcases List.mem_cons.mp hmem with he | hmem
      · cases he
      · split at hmem <;> simp at hmem
  | opened _ _ _ _ => simp [installCallbacks] at hmem
  | _ => simp at hmem

/-- **Buffer bounds.**  In every reachable state the three buffers of every slot are within their
    arrays, and in every step from there `append_bytes` is called within the capacity of its buffer
    and does not return false. -/
theorem buffer_bounds {L : Lwip} {s : State} (h : (engine L).Reach s) :
    (∀ i, (s.conn i).header.length < maxHeader ∧ (s.conn i).toRemote.length ≤ bufferSize ∧
      (s.conn i).toLocal.length ≤ bufferSize) ∧
    ∀ e, enabled s e → ∀ length capacity count,
      Io.appendBytes length capacity count ∈ (exec L s e).io →
        length ≤ capacity ∧ ¬ count > sizeSub capacity length := by
  have hg := reach_good h
  refine ⟨fun i => ⟨(hg.slots i).header, (hg.slots i).toRemote, (hg.slots i).toLocal⟩, ?_⟩
  intro e he l k n hmem
  obtain ⟨s₁, hp, -⟩ := exec_path L hg he
  exact hp.forall_io (Q := fun x => ∀ l k n, x = .appendBytes l k n → Fits l k n)
    (fun c io c' hm x hx l k n he => hm.appends_fit (he ▸ hx))
    (fun fd => ⟨fun _ _ _ he => (by cases he), fun _ _ _ he => (by cases he)⟩) _ hmem l k n rfl

/-- Five bytes that wait for the remote are within bounds. -/
theorem buffer_bounds_hello : (sampleHello.conn slot0).toRemote.length = 5 ∧
    (sampleHello.conn slot0).toRemote.length ≤ bufferSize :=
  ⟨by decide, ((buffer_bounds (sampleHello_leads.reach sampleStart_started)).1 slot0).2.1⟩

/-! ## The listener table -/

/-- **Listener table.**  In every reachable state, after any number of APPLY requests with any
    pattern of failures: the table has 2 to 34 entries, the HTTP proxy, the SOCKS proxy and
    forwards; ports are valid and distinct; the descriptors are distinct, open and bound to their
    entry's port; they are all the open listening sockets, and none was closed twice; and
    `set_target` accepts the target of every forward. -/
theorem listener_table {L : Lwip} {s : State} (h : (engine L).Reach s) :
    (2 ≤ s.listeners.length ∧ s.listeners.length ≤ 34) ∧
    ((s.listeners[0]?).map Listener.kind = some .httpProxy ∧
      (s.listeners[1]?).map Listener.kind = some .socksProxy ∧
      ∀ l ∈ s.listeners.drop 2, l.kind = .forward) ∧
    ((s.listeners.map Listener.localPort).Nodup ∧
      ∀ l ∈ s.listeners, 1 ≤ l.localPort ∧ l.localPort ≤ 65535) ∧
    ((s.listeners.map Listener.fd).Nodup ∧
      ∀ l ∈ s.listeners, 0 ≤ l.fd ∧ (l.fd, l.localPort) ∈ s.sockets.sockets) ∧
    ((s.sockets.sockets.map Prod.fst).Nodup ∧
      (∀ fd, fd ∈ s.sockets.sockets.map Prod.fst ↔ fd ∈ s.listeners.map Listener.fd) ∧
      s.sockets.badClose = false) ∧
    ∀ l ∈ s.listeners, l.kind = .forward →
      (l.remoteHost ≠ [] ∧ l.remoteHost.length ≤ 255 ∧ 1 ≤ l.remotePort ∧ l.remotePort ≤ 65535) ∧
      ∀ c, (setTarget c l.remoteHost l.remotePort).isSome = true := by
  have ht := (reach_good h).table
  have hs := ht.specs
  refine ⟨⟨hs.two, hs.most⟩, ⟨hs.http, hs.socks, hs.forwards⟩,
    ⟨hs.ports, fun l hl => validPort_iff.mp (hs.valid l hl)⟩,
    ⟨ht.distinct, fun l hl => ⟨ht.opened l hl, ht.bound hl⟩⟩, ⟨ht.nodup, ?_, ht.clean⟩, ?_⟩
  · intro fd
    have hperm := (ht.sockets.map Prod.fst).mem_iff (a := fd)
    rw [← hperm, pairs, List.map_map]
    rfl
  · intro l hl hk
    obtain ⟨h1, h2, h3⟩ := hs.targets l hl hk
    refine ⟨⟨h1, h2, validPort_iff.mp h3⟩, fun c => ?_⟩
    unfold setTarget
    rw [if_neg]
    · rfl
    · rw [h3, List.length_eq_zero_iff]
      intro hbad
      rcases hbad with hbad | hbad | hbad
      · exact h1 hbad
      · omega
      · cases hbad

/-- The three listeners of the sample start-up. -/
theorem listener_table_at_start : sampleStart.listeners.length = 3 ∧
    (sampleStart.listeners.map Listener.fd).Nodup ∧
    ∀ fd, fd ∈ sampleStart.sockets.sockets.map Prod.fst ↔
      fd ∈ sampleStart.listeners.map Listener.fd :=
  have h := listener_table (L := sampleLwip) (.init sampleStart_started)
  ⟨by decide, h.2.2.2.1.1, h.2.2.2.2.1.2.1⟩

end PptpProxy
