/-
  Every event of the engine is a path of moves.

  `exec_path` cuts every enabled event into a path and a turn: it looks up which slot the event is
  about and checks, from the invariant, that the functions of the source are called in the states
  their refinement lemmas ask for.  `reach_good` is the reward: every reachable state of the
  engine is `Good`, for any order of events.
-/
import PptpProxy.Engine.Path

namespace PptpProxy

open CLib Sys Books

/-! ## From functions to paths -/

section

variable {clients answers : Prop} {s : State} {i : Slot}

theorem State.put_nil (s : State) (i : Slot) : s.put i (s.conn i) [] = s := by
  unfold State.put
  rw [Function.update_eq_self]
  simp [sentIn, receivedIn]

theorem State.put_put (c c' : Connection) (io io' : List Io) :
    (s.put i c io).put i c' io' = s.put i c' (io ++ io') := by
  have hsent : sentIn (io ++ io') = sentIn io + sentIn io' := by
    simp [sentIn]
  have hreceived : receivedIn (io ++ io') = receivedIn io + receivedIn io' := by
    simp [receivedIn]
  unfold State.put
  rw [hsent, hreceived, UInt64.ofNat_add, UInt64.ofNat_add]
  simp [Function.update_idem, World.ios_append, UInt64.add_assoc]

@[simp] theorem State.put_conn_self (c : Connection) (io : List Io) :
    (s.put i c io).conn i = c := Function.update_self ..

@[simp] theorem State.put_history_self (c : Connection) (io : List Io) :
    (s.put i c io).history i = io.foldl record (s.history i) := Function.update_self ..

@[simp] theorem State.onSlot_conn_self (f : Connection → Connection × List Io) :
    (s.onSlot i f).1.conn i = (f (s.conn i)).1 := State.put_conn_self _ _

theorem State.onSlot_conn_of_ne {j : Slot} (hij : i ≠ j) (f : Connection → Connection × List Io) :
    (s.onSlot j f).1.conn i = s.conn i := Function.update_of_ne hij ..

@[simp] theorem State.onSlot_history_self (f : Connection → Connection × List Io) :
    (s.onSlot i f).1.history i = (f (s.conn i)).2.foldl record (s.history i) :=
  State.put_history_self _ _

/-- A sequence of moves of one slot is a path. -/
theorem Moves.path {up : Bool} {c c' : Connection} {io : List Io} (hm : Moves up c io c')
    (hup : s.linkUp = up) (hc : s.conn i = c)
    (hf : Fair s.used ⟨i.val < s.next, clients, answers⟩ i s.world io) :
    Path clients answers s io (s.put i c' io) := by
  induction hm generalizing s with
  | nil =>
    rw [← hc, State.put_nil]
    exact .nil
  | cons hm _ ih =>
    obtain ⟨hf1, hf2⟩ := Fair_append.mp hf
    rw [← State.put_put]
    subst hup hc
    exact .move hm hf1 (ih rfl (State.put_conn_self _ _) hf2)

/-- A loop over the table whose body asks nothing of the environment is a path. -/
theorem forSlots_path {f : Slot → Connection → Connection × List Io}
    (hf : ∀ up i c, Moves up c (f i c).2 (f i c).1 ∧ ∀ x ∈ (f i c).2, Calm x) :
    Path clients answers s (s.forSlots f).2 (s.forSlots f).1 := by
  unfold State.forSlots
  have hloop : ∀ (l : List Slot) (r : State × List Io), Path clients answers s r.2 r.1 →
      Path clients answers s (l.foldl (State.round f) r).2 (l.foldl (State.round f) r).1 := by
    intro l
    induction l with
    | nil => exact fun r hr => hr
    | cons i l ih =>
      intro r hr
      -- each round is a path from where the last one ended
      obtain ⟨hm, hcalm⟩ := hf r.1.linkUp i (r.1.conn i)
      exact ih _ (hr.append (hm.path rfl rfl (fair_of_calm hcalm)))
  exact hloop (List.finRange maxConnections) (s, []) .nil

/-- Such a loop visits every slot once. -/
theorem forSlots_conn (f : Slot → Connection → Connection × List Io) (i : Slot) :
    (s.forSlots f).1.conn i = (f i (s.conn i)).1 := by
  have hloop : ∀ (l : List Slot), l.Nodup → ∀ r : State × List Io,
      (l.foldl (State.round f) r).1.conn i =
        if i ∈ l then (f i (r.1.conn i)).1 else r.1.conn i := by
    intro l
    induction l with
    | nil => exact fun _ r => rfl
    | cons j l ih =>
      intro hl r
      obtain ⟨hj, hl⟩ := List.nodup_cons.mp hl
      rw [List.foldl_cons, ih hl]
      show (if i ∈ l then (f i (Function.update r.1.conn j _ i)).1
        else Function.update r.1.conn j _ i) = _
      by_cases hij : i = j
      · subst hij
        rw [if_neg hj, if_pos List.mem_cons_self, Function.update_self]
      · rw [Function.update_of_ne hij]
        simp [hij]
  unfold State.forSlots
  rw [hloop _ (List.nodup_finRange _), if_pos (List.mem_finRange i)]

/-- A change of fields the loop neither reads nor writes may as well be made before it. -/
theorem forSlots_comm {f : Slot → Connection → Connection × List Io} (g : State → State)
    (hput : ∀ s i c io, g (s.put i c io) = (g s).put i c io) (hconn : ∀ s, (g s).conn = s.conn) :
    (g s).forSlots f = (g (s.forSlots f).1, (s.forSlots f).2) := by
  unfold State.forSlots
  have hloop : ∀ (l : List Slot) (r : State × List Io),
      l.foldl (State.round f) (g r.1, r.2) =
        (g (l.foldl (State.round f) r).1, (l.foldl (State.round f) r).2) := by
    intro l
    induction l with
    | nil => exact fun r => rfl
    | cons i l ih =>
      intro r
      rw [List.foldl_cons, List.foldl_cons, ← ih]
      congr 1
      simp only [State.round, State.onSlot, hput, hconn]
  exact hloop (List.finRange maxConnections) (s, [])

/-- A loop that leaves all slots but one alone is about that one. -/
theorem forSlots_one {f : Slot → Connection → Connection × List Io} (i : Slot)
    (h : ∀ j, j ≠ i → f j (s.conn j) = (s.conn j, [])) : s.forSlots f = s.onSlot i (f i) := by
  have hloop : ∀ (l : List Slot), l.Nodup → ∀ (t : State) (io : List Io),
      (∀ j ∈ l, j ≠ i → f j (t.conn j) = (t.conn j, [])) →
      l.foldl (State.round f) (t, io) =
      if i ∈ l then ((t.onSlot i (f i)).1, io ++ (t.onSlot i (f i)).2) else (t, io) := by
    intro l
    induction l with
    | nil => exact fun _ t io _ => rfl
    | cons j l ih =>
      intro hl t io hidle
      obtain ⟨hj, hl⟩ := List.nodup_cons.mp hl
      rw [List.foldl_cons]
      by_cases hij : j = i
      · subst hij
        rw [if_pos List.mem_cons_self]
        show l.foldl (State.round f) ((t.onSlot j (f j)).1, io ++ (t.onSlot j (f j)).2) = _
        rw [ih hl, if_neg hj]
        intro k hk hne
        show f k (Function.update t.conn j _ k) = (Function.update t.conn j _ k, [])
        rw [Function.update_of_ne hne]
        exact hidle k (List.mem_cons_of_mem j hk) hne
      · have hstay : t.onSlot j (f j) = (t, []) := by
          unfold State.onSlot
          rw [hidle j List.mem_cons_self hij]
          exact congrArg (·, []) (State.put_nil t j)
        have hround : State.round f (t, io) j = (t, io) := by
          unfold State.round
          rw [hstay, List.append_nil]
        rw [hround, ih hl t io fun k hk => hidle k (List.mem_cons_of_mem j hk)]
        simp [Ne.symm hij]
  unfold State.forSlots
  rw [hloop _ (List.nodup_finRange _) s [] fun j _ => h j, if_pos (List.mem_finRange i)]
  rfl

theorem closeAll_path : Path clients answers s s.closeAll.2 s.closeAll.1 := by
  refine forSlots_path ?_
  intro up i c
  split
  · exact ⟨closeConnection_moves c, closeIo_calm c⟩
  · exact ⟨.nil, calm_nil⟩

theorem closeAll_closed (i : Slot) : (s.closeAll.1.conn i).fd < 0 := by
  unfold State.closeAll
  rw [forSlots_conn]
  split
  · show (-1 : Int) < 0
    decide
  · rename_i hneg
    exact Int.not_le.mp hneg

theorem World.exists_of_has {w : World} {p : PcbId} {f : Pcb → Bool} (h : w.has p f = true) :
    ∃ b, w.pcb p = some b ∧ f b = true := by
  unfold World.has at h
  split at h
  · rename_i b hb
    exact ⟨b, hb, h⟩
  · cases h

theorem callable_of_armed {b : Pcb} (h : b.armed = true) : b.callable = true := by
  unfold Pcb.callable
  rw [h]
  rfl

/-- The pcb an event is a TCP callback of. -/
def Event.callbackPcb : Event → Option PcbId
  | .sent p _ _ | .poll p _ | .error p | .receive p _ _ | .connected p _ _ => some p
  | _ => none

/-- lwIP calls back for a pcb that is armed or still connecting. -/
theorem callable_of_enabled {e : Event} {p : PcbId} (he : enabled s e)
    (hp : e.callbackPcb = some p) : ∃ b, s.world.pcb p = some b ∧ b.callable = true := by
  obtain ⟨-, he⟩ := he
  cases e with
  | sent q n a =>
    obtain rfl := Option.some.inj hp
    obtain ⟨b, hb, hsent⟩ := World.exists_of_has he.1
    exact ⟨b, hb, callable_of_armed (by simp [Pcb.armed, hsent])⟩
  | poll q a =>
    obtain rfl := Option.some.inj hp
    obtain ⟨b, hb, hpoll⟩ := World.exists_of_has he
    exact ⟨b, hb, callable_of_armed (by simp [Pcb.armed, hpoll])⟩
  | error q =>
    obtain rfl := Option.some.inj hp
    obtain ⟨b, hb, herr⟩ := World.exists_of_has he
    exact ⟨b, hb, callable_of_armed (by simp [Pcb.armed, herr])⟩
  | receive q payload a =>
    obtain rfl := Option.some.inj hp
    obtain ⟨b, hb, hrecv⟩ := World.exists_of_has he.1
    rw [Bool.and_eq_true] at hrecv
    exact ⟨b, hb, callable_of_armed (by simp [Pcb.armed, hrecv.1])⟩
  | connected q err a =>
    obtain rfl := Option.some.inj hp
    obtain ⟨b, hb, hsyn⟩ := World.exists_of_has he
    rw [beq_iff_eq] at hsyn
    exact ⟨b, hb, by simp [Pcb.callable, hsyn]⟩
  | _ => cases hp

/-- A callback comes for the slot that owns the pcb. -/
theorem Good.owner (h : Good s) {e : Event} {p : PcbId} (he : enabled s e)
    (hp : e.callbackPcb = some p) : ∃ i, (s.conn i).tcp = some p := by
  obtain ⟨b, hb, hcall⟩ := callable_of_enabled he hp
  exact h.owned.pcbs.owner p b hb hcall

theorem Good.callback (h : Good s) {p : PcbId} (htcp : (s.conn i).tcp = some p) (pre : List Io)
    (f : Connection → Connection × List Io × Err) :
    s.callback p pre f = ⟨s.put i (f (s.conn i)).1 (pre ++ (f (s.conn i)).2.1),
      pre ++ (f (s.conn i)).2.1, (f (s.conn i)).2.2⟩ := by
  unfold State.callback
  rw [h.owned.pcbs.live i p htcp]
  rfl

/-- A pcb with an established connection belongs to a slot that streams. -/
theorem Good.established (h : Good s) {p : PcbId} {payload : Option Bytes} {a : Answers}
    (he : enabled s (.receive p payload a)) (htcp : (s.conn i).tcp = some p) :
    (s.conn i).phase = .streaming := by
  obtain ⟨b, hb, hrecv⟩ := World.exists_of_has he.2.1
  obtain rfl := Option.some.inj (hb.symm.trans (h.owned.pcbs.live i p htcp))
  by_contra hne
  simp [ownedPcb, hne] at hrecv

/-- A pcb that has sent its SYN belongs to a slot that connects. -/
theorem Good.handshaking (h : Good s) {p : PcbId} {err : Err} {a : Answers}
    (he : enabled s (.connected p err a)) (htcp : (s.conn i).tcp = some p) :
    (s.conn i).phase = .connecting := by
  obtain ⟨b, hb, hsyn⟩ := World.exists_of_has he.2
  obtain rfl := Option.some.inj (hb.symm.trans (h.owned.pcbs.live i p htcp))
  rcases h.owned.pcbs.phase i p htcp with hc | hs
  · exact hc
  · simp [ownedPcb, hs] at hsyn

/-- The top of the loop watches only clients with room for a read. -/
theorem Good.gate_watchRead (h : Good s) : Gate s.conn s.watchRead 0 := by
  intro i _ h0 hread
  have hlive : (s.conn i).fd ∈ s.world.fds := Ledger.isLive h.owned.fds i _ (heldFd_of_nonneg h0)
  have hapart := h.apart _ hlive
  unfold State.watchRead at hread
  simp only [Bool.or_eq_true, Bool.and_eq_true, decide_eq_true_iff, List.any_eq_true] at hread
  -- a client's descriptor is in the set only on its own slot's account
  rcases hread with ((hpty | ⟨-, hctl⟩) | ⟨l, hl, hfd⟩) | ⟨j, -, ⟨hj, hfd⟩, hgate⟩
  · exact absurd (Or.inr (Or.inl hpty)) hapart
  · exact absurd (Or.inr (Or.inr hctl)) hapart
  · have hsocket := h.table.bound hl
    rw [hfd] at hsocket
    exact absurd (Or.inl (List.mem_map.mpr ⟨_, hsocket, rfl⟩)) hapart
  · obtain rfl : i = j := Ledger.unique h.owned.fds i j _ (heldFd_of_nonneg h0)
      (by rw [← hfd]; exact heldFd_of_nonneg hj)
    unfold State.readGate at hgate
    rw [decide_eq_true_iff] at hgate
    simp only [maxHeader, bufferSize] at hgate ⊢
    omega

end

/-! ## Every event is a path -/

section

variable {clients answers : Prop} {s : State}

theorem top_path (h : Good s) (a : Slot → Answers) (L : Lwip) :
    Path clients answers s (exec L s (.top a)).io (exec L s (.top a)).state := by
  -- setting the descriptor sets first makes no difference to the loop
  let g : State → State := fun t =>
    { t with readfds := s.watchRead, writefds := s.watchWrite, next := 0 }
  have hwatch : Env s [] (g s) := .watch h.gate_watchRead
  refine hwatch.path.append ?_
  have hcomm := forSlots_comm (s := s) (f := fun i c => if c.phase = .streaming ∧ 0 ≤ c.fd
    then flushRemote (a i) c else (c, [])) g (fun _ _ _ _ => rfl) (fun _ => rfl)
  have hloop : Path clients answers (g s)
      ((g s).forSlots fun i c => if c.phase = .streaming ∧ 0 ≤ c.fd
        then flushRemote (a i) c else (c, [])).2
      ((g s).forSlots fun i c => if c.phase = .streaming ∧ 0 ≤ c.fd
        then flushRemote (a i) c else (c, [])).1 := by
    refine forSlots_path ?_
    intro up i c
    split
    · exact ⟨flushRemote_moves (a i) c, flushRemote_calm (a i) c⟩
    · exact ⟨.nil, calm_nil⟩
  rw [hcomm] at hloop
  exact hloop

/-- The callbacks whose function asks nothing of the environment. -/
theorem callback_path (h : Good s) {e : Event} (he : enabled s e) {p : PcbId}
    (hp : e.callbackPcb = some p) {pre : List Io} {f : Connection → Connection × List Io × Err}
    (hm : ∀ i, (s.conn i).tcp = some p →
      Moves s.linkUp (s.conn i) (pre ++ (f (s.conn i)).2.1) (f (s.conn i)).1)
    (hcalm : ∀ c, ∀ x ∈ pre ++ (f c).2.1, Calm x) :
    Path clients answers s (s.callback p pre f).io (s.callback p pre f).state := by
  obtain ⟨i, hi⟩ := h.owner he hp
  rw [h.callback hi]
  exact (hm i hi).path rfl rfl (fair_of_calm (hcalm _))

theorem sent_path (h : Good s) {p : PcbId} {n : Nat} {a : Answers} (he : enabled s (.sent p n a)) :
    Path clients answers s (s.callback p [] (onTcpSent a n)).io
      (s.callback p [] (onTcpSent a n)).state := by
  refine callback_path h he rfl ?_ ?_
  · intro i _
    exact onTcpSent_moves a n _
  · intro c
    exact calm_cons trivial (flushRemote_calm a c)

theorem poll_path (h : Good s) {p : PcbId} {a : Answers} (he : enabled s (.poll p a)) :
    Path clients answers s (s.callback p [] (onTcpPoll a)).io
      (s.callback p [] (onTcpPoll a)).state := by
  refine callback_path h he rfl ?_ ?_
  · intro i _
    exact onTcpPoll_moves a _
  · intro c
    exact flushRemote_calm a c

theorem error_path (h : Good s) {p : PcbId} (he : enabled s (.error p)) (L : Lwip) :
    Path clients answers s (exec L s (.error p)).io (exec L s (.error p)).state := by
  refine callback_path h he rfl ?_ ?_
  · intro i hi
    exact onTcpError_moves hi
  · intro c
    exact onTcpError_calm p c

theorem receive_path (h : Good s) {p : PcbId} {payload : Option Bytes} {a : Answers}
    (he : enabled s (.receive p payload a)) :
    Path clients answers s (s.callback p [] (onTcpReceive a p payload .ok)).io
      (s.callback p [] (onTcpReceive a p payload .ok)).state := by
  refine callback_path h he rfl ?_ ?_
  · intro i hi
    exact onTcpReceive_moves a payload hi (h.established he hi) (h.slots i).toLocal
  · intro c
    exact onTcpReceive_calm a p payload c

theorem connected_path (h : Good s) {p : PcbId} {err : Err} {a : Answers}
    (he : enabled s (.connected p err a)) :
    Path clients answers s
      (s.callback p (if err = .ok then [.connected p] else []) (onTcpConnected a err)).io
      (s.callback p (if err = .ok then [.connected p] else []) (onTcpConnected a err)).state := by
  refine callback_path h he rfl ?_ ?_
  · intro i hi
    have hphase := h.handshaking he hi
    by_cases herr : err = .ok
    · subst herr
      have hroom := (h.slots i).greeted (by rw [hphase]; decide)
      exact onTcpConnected_moves a hi hphase (by simp only [bufferSize]; omega)
    · rw [if_neg herr]
      unfold onTcpConnected
      rw [if_pos herr]
      exact closeConnection_moves _
  · intro c
    refine calm_append ?_ (onTcpConnected_calm a err c)
    split
    · exact calm_cons trivial calm_nil
    · exact calm_nil

/-- A slot with an outstanding lookup has no pcb, and when it is open the link is up. -/
theorem Good.asked (h : Good s) {q : DnsRequest} (hq : q ∈ s.world.dns) :
    (s.conn q.slot).tcp = none ∧ (0 ≤ (s.conn q.slot).fd →
      (s.conn q.slot).phase = .resolving ∧ s.linkUp = true) := by
  have hres : (s.conn q.slot).resolving = true := by
    have hmem : q ∈ s.world.dns.filter (·.slot = q.slot) := List.mem_filter.mpr ⟨hq, by simp⟩
    have hpos := List.length_pos_of_mem hmem
    rw [h.owned.dns.count q.slot] at hpos
    cases hr : (s.conn q.slot).resolving with
    | true => rfl
    | false =>
      rw [hr] at hpos
      exact absurd hpos (by simp)
  have hopen : 0 ≤ (s.conn q.slot).fd →
      (s.conn q.slot).phase = .resolving ∧ s.linkUp = true := by
    intro h0
    have hphase := h.owned.dns.phase q.slot hres h0
    refine ⟨hphase, ?_⟩
    cases hup : s.linkUp with
    | true => rfl
    | false =>
      have := (h.slots q.slot).down hup h0
      rw [hphase] at this
      cases this
  refine ⟨?_, hopen⟩
  by_cases h0 : 0 ≤ (s.conn q.slot).fd
  · obtain ⟨hphase, -⟩ := hopen h0
    exact h.owned.noPcb (by rw [hphase]; decide) (by rw [hphase]; decide)
  · exact h.owned.free q.slot (by omega)

theorem dnsDone_path (h : Good s) {q : DnsRequest} {address : Option IpAddr} {a : Answers}
    (hq : q ∈ s.world.dns) (ha : freshAnswers s a) (L : Lwip) :
    Path clients True s (exec L s (.dnsDone q address a)).io
      (exec L s (.dnsDone q address a)).state := by
  obtain ⟨htcp, hopen⟩ := h.asked hq
  exact (dnsDone_moves a address q.epoch (fun h0 => (hopen h0).2) (fun h0 => (hopen h0).1)
    htcp).path rfl rfl ⟨⟨trivial, hq⟩, (dnsDone_allocates a address _).fair ha⟩

/-- The slot `accept_client` takes is free and has no lookup under way. -/
theorem freeSlot_spec {i : Slot} (hi : s.freeSlot = some i) :
    (s.conn i).fd < 0 ∧ (s.conn i).resolving = false := by
  have := List.find?_some hi
  simpa using this

theorem exec_accept {L : Lwip} {j : Nat} {l : Listener} {fd : Int} {nonblock : Bool} {a : Answers}
    (hl : s.listeners[j]? = some l) : exec L s (.accept j fd nonblock a) =
      ⟨(s.accept L l fd nonblock a).1, (s.accept L l fd nonblock a).2, .ok⟩ := by
  unfold exec
  dsimp only
  rw [hl]

theorem accept_path {l : Listener} {fd : Int} {nonblock : Bool} {a : Answers} (h0 : 0 ≤ fd)
    (hfd : ¬ s.inUse fd) (ha : freshAnswers s a) (L : Lwip) :
    Path True answers s (s.accept L l fd nonblock a).2 (s.accept L l fd nonblock a).1 := by
  unfold State.accept
  split
  · exact (Env.turnAway hfd).path
  · split
    · exact (Env.turnAway hfd).path
    · rename_i i hi
      obtain ⟨hfree, hidle⟩ := freeSlot_spec hi
      refine (acceptSlot_moves L a l.kind l.remoteHost l.remotePort h0 hfree hidle).path rfl rfl ?_
      obtain ⟨io, halloc, he⟩ := acceptSlot_allocates L s.linkUp a fd l.kind l.remoteHost l.remotePort
      rw [he]
      refine ⟨⟨trivial, h0, fun hmem => hfd (Or.inl hmem), fun hused => hfd (Or.inr hused)⟩, ?_⟩
      exact halloc.fair ha

/-- The client is read in its turn, into a slot with room. -/
theorem read_path (h : Good s) {i : Slot} {r : ReadResult} {a : Answers} (L : Lwip)
    (hfd : 0 ≤ (s.conn i).fd) (hroom : (s.conn i).toRemote.length + maxHeader ≤ bufferSize)
    (hturn : i.val < s.next) (ha : freshAnswers s a)
    (hr : ∀ d, r = .data d → d.length ≤ maxHeader) :
    Path clients answers s (s.onSlot i (readClient L s.linkUp a r)).2
      (s.onSlot i (readClient L s.linkUp a r)).1 := by
  have hlocal : (s.conn i).phase.collecting = true → (s.conn i).toLocal.length + 2 ≤ bufferSize := by
    intro hcol
    have := (h.slots i).greeted (ConnectionPhase.ne_of_collecting hcol rfl)
    simp only [bufferSize]
    omega
  have hc : Readable (s.conn i) :=
    ⟨hfd, (h.slots i).isOpen hfd, h.owned.noPcb_of_collecting, h.owned.idle_of_collecting hfd,
      hroom, hlocal⟩
  refine (readClient_moves L a r hc hr).path rfl rfl ?_
  obtain ⟨io, halloc, he⟩ : ∃ io, Allocates a.tcpNew io ∧
      ((readClient L s.linkUp a r (s.conn i)).2 = io ∨
        ∃ d, (readClient L s.linkUp a r (s.conn i)).2 = .read (s.conn i).fd d :: io) :=
    readClient_allocates L a r hc hr
  rcases he with he | ⟨d, he⟩
  · rw [he]
    exact halloc.fair ha
  · rw [he]
    exact ⟨hturn, halloc.fair ha⟩

/-- The connection loop has passed slot `i`. -/
theorem Good.passed (h : Good s) {i : Slot} (hnext : s.next ≤ i) :
    Env s [] { s with next := i.val + 1 } :=
  .watch fun j hj => h.gate j (by omega)

/-- The first half of a turn of the connection loop: `flush_local`, when the client is writable. -/
def State.written (s : State) (i : Slot) (w : WriteResult) : State × List Io :=
  if s.writefds (s.conn i).fd then s.onSlot i (flushLocal w) else (s, [])

theorem written_frame {i : Slot} {w : WriteResult} : (s.written i w).1.next = s.next ∧
    (s.written i w).1.linkUp = s.linkUp ∧ (s.written i w).1.readfds = s.readfds := by
  unfold State.written
  split
  · exact ⟨rfl, rfl, rfl⟩
  · exact ⟨rfl, rfl, rfl⟩

theorem written_path {i : Slot} {w : WriteResult} :
    Path clients answers s (s.written i w).2 (s.written i w).1 := by
  unfold State.written
  split
  · exact (flushLocal_moves w _).path rfl rfl (fair_of_calm (flushLocal_calm w _))
  · exact .nil

/-- The second half reads the client, when it is still there and readable. -/
theorem serve_cases (L : Lwip) {i : Slot} (h0 : 0 ≤ (s.conn i).fd) (w : WriteResult)
    (r : ReadResult) (a : Answers) :
    (((s.written i w).1.conn i).fd < 0 ∨
        s.readfds ((s.written i w).1.conn i).fd = false) ∧
      s.serve L i w r a = s.written i w ∨
    0 ≤ ((s.written i w).1.conn i).fd ∧ s.readfds ((s.written i w).1.conn i).fd = true ∧
      s.serve L i w r a = (((s.written i w).1.onSlot i (readClient L s.linkUp a r)).1,
        (s.written i w).2 ++ ((s.written i w).1.onSlot i (readClient L s.linkUp a r)).2) := by
  obtain ⟨-, -, hreadfds⟩ := written_frame (s := s) (i := i) (w := w)
  have hserve : s.serve L i w r a =
      if ((s.written i w).1.conn i).fd < 0 then s.written i w
      else if (s.written i w).1.readfds ((s.written i w).1.conn i).fd then
        (((s.written i w).1.onSlot i (readClient L s.linkUp a r)).1,
          (s.written i w).2 ++ ((s.written i w).1.onSlot i (readClient L s.linkUp a r)).2)
      else s.written i w := by
    unfold State.serve
    rw [if_neg (Int.not_lt.mpr h0)]
    rfl
  rw [hreadfds] at hserve
  by_cases hfd : ((s.written i w).1.conn i).fd < 0
  · rw [if_pos hfd] at hserve
    exact Or.inl ⟨Or.inl hfd, hserve⟩
  · rw [if_neg hfd] at hserve
    cases hread : s.readfds ((s.written i w).1.conn i).fd with
    | false =>
      rw [hread, if_neg (by decide)] at hserve
      exact Or.inl ⟨Or.inr rfl, hserve⟩
    | true =>
      rw [hread, if_pos rfl] at hserve
      exact Or.inr ⟨Int.not_lt.mp hfd, rfl, hserve⟩

theorem serve_path (h : Good s) {i : Slot} {wr : WriteResult} {r : ReadResult} {a : Answers}
    (L : Lwip) (hnext : s.next ≤ i) (ha : freshAnswers s a)
    (hr : ∀ d, r = .data d → d.length ≤ maxHeader) :
    Path clients answers s (exec L s (.serve i wr r a)).io (exec L s (.serve i wr r a)).state := by
  show Path clients answers s (s.serve L i wr r a).2
    { (s.serve L i wr r a).1 with next := i.val + 1 }
  by_cases h0 : 0 ≤ (s.conn i).fd
  · obtain ⟨hn, hup, hreadfds⟩ := written_frame (s := s) (i := i) (w := wr)
    have hflush : Path clients answers s (s.written i wr).2 (s.written i wr).1 := written_path
    have h₁ : Good (s.written i wr).1 := hflush.good h
    have hpass := h₁.passed (i := i) (by omega)
    rcases serve_cases L h0 wr r a with ⟨-, he⟩ | ⟨hfd, hread, he⟩
    · rw [he, ← List.append_nil (s.written i wr).2]
      exact hflush.append hpass.path
    · -- the gate is read off before the turn is over
      have hroom := h₁.gate i (by omega) hfd (by rw [hreadfds]; exact hread)
      have h₂ : Good { (s.written i wr).1 with next := i.val + 1 } := hpass.good h₁
      have ha₁ : freshAnswers (s.written i wr).1 a := by
        intro p hp
        unfold State.written
        split
        · exact World.ios_pcb_none (flushLocal_calm wr _) (ha p hp)
        · exact ha p hp
      rw [he, ← hup]
      exact hflush.append (hpass.path.append
        (read_path h₂ L hfd hroom (Nat.lt_succ_self _) ha₁ hr))
  · unfold State.serve
    rw [if_pos (Int.not_le.mp h0)]
    exact (h.passed hnext).path

/-- A report that leaves the link down closes every slot; closing them before or after the flag is
    cleared is the same. -/
theorem pppStatus_down {status tx rx : Int} (h : ¬ (status = 0 ∧ tx = ciMppe ∧ rx = ciMppe))
    (now : UInt64) : s.pppStatus status tx rx now =
      ({ s.closeAll.1 with
          linkUp := false, connectedSinceMs := 0,
          world := { s.closeAll.1.world with epoch := s.closeAll.1.world.epoch + 1 } },
        s.closeAll.2) := by
  have hcomm := forSlots_comm (s := s)
    (f := fun _ c => if 0 ≤ c.fd then closeConnection c else (c, []))
    (fun t => { t with linkUp := false, connectedSinceMs := 0 })
    (fun _ _ _ _ => rfl) (fun _ => rfl)
  unfold State.pppStatus
  rw [if_neg h]
  unfold State.closeAll
  rw [hcomm]

theorem pppStatus_path (status tx rx : Int) (now : UInt64) :
    ∃ s₁, Path clients answers s (s.pppStatus status tx rx now).2 s₁ ∧
      Turn s₁ (s.pppStatus status tx rx now).1 := by
  by_cases hup : status = 0 ∧ tx = ciMppe ∧ rx = ciMppe
  · unfold State.pppStatus
    rw [if_pos hup]
    split
    · exact ⟨s, .nil, .none⟩
    · exact ⟨s, .nil, .linkUp⟩
  · rw [pppStatus_down hup]
    exact ⟨s.closeAll.1, closeAll_path, .linkDown closeAll_closed⟩

/-- The events that neither report on the link nor end the program. -/
def Event.ordinary : Event → Prop
  | .pppStatus _ _ _ _ | .stop => False
  | _ => True

/-- Such an event is a path. -/
theorem ordinary_path (L : Lwip) {e : Event} (h : Good s) (he : enabled s e) (hord : e.ordinary) :
    Path e.accepts e.answers s (exec L s e).io (exec L s e).state := by
  have hev := he.2
  cases e with
  | top a => exact top_path h a L
  | select readable writable =>
    refine (Env.watch (fun i hi h0 hread => h.gate i hi h0 ?_)).path
    rw [Bool.and_eq_true] at hread
    exact hread.1
  | sent p n a => exact sent_path h he
  | poll p a => exact poll_path h he
  | error p => exact error_path h he L
  | receive p payload a => exact receive_path h he
  | connected p err a => exact connected_path h he
  | reap p => exact (Env.reap hev).path
  | dnsDone q address a => exact dnsDone_path h hev.1 hev.2 L
  | control message listen now => exact (Env.control hev).path
  | accept j fd nonblock a =>
    obtain ⟨⟨l, hl, -⟩, h0, hfd, ha⟩ := hev
    rw [exec_accept hl]
    exact accept_path h0 hfd ha L
  | serve i w r a =>
    obtain ⟨hnext, ha, -, hr⟩ := hev
    exact serve_path h L hnext ha fun d hd => (hr d hd).2
  | pppStatus status tx rx now => exact hord.elim
  | stop => exact hord.elim

/-- **Every event is a path and a turn.** -/
theorem exec_path (L : Lwip) {e : Event} (h : Good s) (he : enabled s e) :
    ∃ s₁, Path e.accepts e.answers s (exec L s e).io s₁ ∧ Turn s₁ (exec L s e).state := by
  cases e with
  | pppStatus status tx rx now => exact pppStatus_path status tx rx now
  | stop => exact ⟨_, closeAll_path, .stop⟩
  | _ => exact ⟨_, ordinary_path L h he trivial, .none⟩

/-! ## Reachable states -/

theorem good_initial (hs : Started s) : Good s := by
  obtain ⟨http, socks, specs, ls, fds, pty, ctl, -, hbuild, hpos, hfresh, rfl⟩ := hs
  obtain ⟨htable, hother⟩ := start_tableOk (buildListeners_specOk hbuild) hpos hfresh
  refine ⟨⟨⟨?_, ?_, ?_⟩, ?_, ⟨?_, ?_⟩, ?_, rfl⟩, ?_, ?_, htable, ?_, ?_⟩
  · intro i p hp
    cases hp
  · intro i p hp
    cases hp
  · intro p b hb
    cases hb
  · exact Ledger.empty
  · intro i
    rfl
  · intro i hres
    cases hres
  · intro i _
    rfl
  · exact fun i => SlotOk.initial false
  · intro i _ h0
    exact absurd h0 (by show ¬ (0 : Int) ≤ -1; decide)
  · intro fd hfd
    cases hfd
  · intro q hq
    cases hq

/-- **Every reachable state satisfies the invariant.** -/
theorem reach_good {L : Lwip} (h : (engine L).Reach s) : Good s := by
  refine System.Reach.invariant (P := Good) ?_ ?_ h
  · intro s hs
    exact good_initial hs
  intro s e _ hg he
  obtain ⟨s₁, hp, ht⟩ := exec_path L hg he
  exact ht.good (hp.good hg)

end

/-! ## Steps of a run, one at a time

  What a run with a single client looks like: each rule takes a run one event further, to a state
  written without the loops over the table. -/

section

variable {L : Lwip} {s₀ s : State} {es : List Event}

theorem maxConnections_pos : 0 < maxConnections := by decide

/-- The front of the table. -/
def slot0 : Slot := ⟨0, maxConnections_pos⟩

/-- The top of an iteration in which only slot `i` may have something to flush. -/
def State.iterated (s : State) (i : Slot) (a : Answers) : State :=
  { (s.onSlot i fun c =>
      if c.phase = .streaming ∧ 0 ≤ c.fd then flushRemote a c else (c, [])).1 with
    readfds := s.watchRead
    writefds := s.watchWrite
    next := 0 }

theorem leads_iterated (h : (engine L).Leads s₀ es s) (hrun : s.running = true) (i : Slot)
    (a : Answers) (hothers : ∀ j, j ≠ i → (s.conn j).fd < 0) :
    (engine L).Leads s₀ (es ++ [Event.top fun _ => a]) (s.iterated i a) := by
  have hstep : (engine L).step s (.top fun _ => a) = s.iterated i a := by
    show { (s.forSlots _).1 with readfds := s.watchRead, writefds := s.watchWrite, next := 0 } = _
    rw [forSlots_one i]
    · rfl
    · intro j hj
      have := hothers j hj
      rw [if_neg (by omega)]
  exact h.snoc ⟨hrun, trivial⟩ hstep

/-- A listener is always watched. -/
theorem watchRead_listener {l : Listener} (h : l ∈ s.listeners) : s.watchRead l.fd = true := by
  have hany : s.listeners.any (·.fd = l.fd) = true := List.any_eq_true.mpr ⟨l, h, by simp⟩
  unfold State.watchRead
  rw [hany]
  simp

/-- A client is watched when the gate is open. -/
theorem watchRead_slot {i : Slot} (h0 : 0 ≤ (s.conn i).fd)
    (hgate : State.readGate (s.conn i) = true) : s.watchRead (s.conn i).fd = true := by
  have hany : ((List.finRange maxConnections).any fun j =>
      decide (0 ≤ (s.conn j).fd ∧ (s.conn j).fd = (s.conn i).fd) && State.readGate (s.conn j))
      = true := by
    refine List.any_eq_true.mpr ⟨i, List.mem_finRange i, ?_⟩
    rw [hgate]
    simp [h0]
  unfold State.watchRead
  rw [hany]
  simp

theorem freeSlot_front (hfree : (s.conn slot0).fd < 0)
    (hidle : (s.conn slot0).resolving = false) : s.freeSlot = some slot0 := by
  have hfront : List.finRange maxConnections = slot0 :: (List.finRange 127).map Fin.succ :=
    List.finRange_succ
  unfold State.freeSlot
  rw [hfront]
  exact List.find?_cons_of_pos (decide_eq_true ⟨hfree, hidle⟩)

theorem leads_accepted (h : (engine L).Leads s₀ es s) (hrun : s.running = true) {j : Nat}
    {l : Listener} (hl : s.listeners[j]? = some l) (hread : s.readfds l.fd = true) {fd : Int}
    (h0 : 0 ≤ fd) (hfd : ¬ s.inUse fd) (a : Answers) (ha : freshAnswers s a)
    (hfree : (s.conn slot0).fd < 0) (hidle : (s.conn slot0).resolving = false) :
    (engine L).Leads s₀ (es ++ [Event.accept j fd true a]) (s.onSlot slot0 fun _ =>
      acceptSlot L s.linkUp a fd l.kind l.remoteHost l.remotePort).1 := by
  have hstep : (engine L).step s (.accept j fd true a) = (s.onSlot slot0 fun _ =>
      acceptSlot L s.linkUp a fd l.kind l.remoteHost l.remotePort).1 := by
    show (exec L s _).state = _
    rw [exec_accept hl]
    unfold State.accept
    rw [if_neg (by decide), freeSlot_front hfree hidle]
  exact h.snoc ⟨hrun, ⟨l, hl, hread⟩, h0, hfd, ha⟩ hstep

/-- A turn of the connection loop in which the client cannot take anything and is read. -/
theorem serve_read (r : ReadResult) (a : Answers) {i : Slot} (h0 : 0 ≤ (s.conn i).fd)
    (hread : s.readfds (s.conn i).fd = true) :
    s.serve L i .retry r a = s.onSlot i (readClient L s.linkUp a r) := by
  have hflush : (if s.writefds (s.conn i).fd then s.onSlot i (flushLocal .retry) else (s, [])) =
      (s, []) := by
    split
    · have hstay : flushLocal .retry (s.conn i) = (s.conn i, []) := by
        unfold flushLocal
        split <;> rfl
      unfold State.onSlot
      rw [hstay]
      exact congrArg (·, []) (State.put_nil s i)
    · rfl
  unfold State.serve
  rw [if_neg (by omega), hflush]
  dsimp only
  rw [if_neg (by omega), if_pos hread]
  rfl

theorem leads_read (h : (engine L).Leads s₀ es s) (hrun : s.running = true) {i : Slot}
    (hnext : s.next ≤ i) (h0 : 0 ≤ (s.conn i).fd) (hread : s.readfds (s.conn i).fd = true)
    (r : ReadResult) (a : Answers) (ha : freshAnswers s a)
    (hr : ∀ d, r = .data d → d ≠ [] ∧ d.length ≤ 8192) :
    (engine L).Leads s₀ (es ++ [.serve i .retry r a])
      { (s.onSlot i (readClient L s.linkUp a r)).1 with next := i + 1 } := by
  have hstep : (engine L).step s (.serve i .retry r a) =
      { (s.onSlot i (readClient L s.linkUp a r)).1 with next := i + 1 } := by
    show { (s.serve L i .retry r a).1 with next := i.val + 1 } = _
    rw [serve_read r a h0 hread]
  exact h.snoc ⟨hrun, hnext, ha, fun n hn => (by cases hn), hr⟩ hstep

end

/-! ### A run to look at

  Ports 18080 and 11080, one forward, the link up, and lwIP willing. -/

def sampleListeners : List Listener :=
  [⟨-1, .httpProxy, 18080, 0, []⟩, ⟨-1, .socksProxy, 11080, 0, []⟩,
    ⟨-1, .forward, 8000, 80, ascii "10.0.0.1"⟩]

def sampleStart : State := State.initial sampleListeners (fun i => 3 + i) 10 11

theorem sampleStart_started : Started sampleStart := by
  refine ⟨18080, 11080, [ascii "8000:10.0.0.1:80"], sampleListeners, fun i => 3 + i, 10, 11,
    by decide, by decide, fun i _ => by show (0 : Int) ≤ 3 + i; omega, ?_, rfl⟩
  refine ⟨?_, ?_, ?_, trivial⟩
  · rintro port fd h
    obtain ⟨rfl, rfl⟩ := ListenIo.listen.inj h
    exact Or.inr (by decide)
  · rintro port fd h
    obtain ⟨rfl, rfl⟩ := ListenIo.listen.inj h
    exact Or.inr (by decide)
  · rintro port fd h
    obtain ⟨rfl, rfl⟩ := ListenIo.listen.inj h
    exact Or.inr (by decide)

def sampleLwip : Lwip where
  ipaddrAton b :=
    if b = ascii "10.0.0.1" then some 0x0a000001
    else if b = ascii "10.0.0.2" then some 0x0a000002
    else none

/-- lwIP does what it is asked, and has so much room to send. -/
def willing (sndbuf : Nat) : Answers where
  tcpNew := some 7
  tcpConnect := .ok
  dns := .inprogress
  dnsAddress := 0
  sndbuf := sndbuf
  tcpWrite := .ok
  tcpClose := .ok

/-- The link comes up, and an iteration begins. -/
def sampleUpEvents : List Event := [.pppStatus 0 ciMppe ciMppe 1, .top fun _ => willing 0]

def sampleUp : State :=
  (State.pppStatus sampleStart 0 ciMppe ciMppe 1).1.iterated slot0 (willing 0)

theorem sampleUp_leads : (engine sampleLwip).Leads sampleStart sampleUpEvents sampleUp := by
  have hup : (engine sampleLwip).Leads sampleStart [.pppStatus 0 ciMppe ciMppe 1]
      (State.pppStatus sampleStart 0 ciMppe ciMppe 1).1 :=
    System.Leads.nil.snoc (e := Event.pppStatus 0 ciMppe ciMppe 1) ⟨rfl, trivial⟩ rfl
  refine leads_iterated hup rfl slot0 (willing 0) fun j _ => ?_
  show (-1 : Int) < 0
  decide

/-- A client of listener `j` comes, with descriptor 20, and gets the front slot. -/
def sampleAcceptedEvents (j : Nat) : List Event := sampleUpEvents ++ [.accept j 20 true (willing 0)]

def sampleAccepted (l : Listener) : State :=
  (sampleUp.onSlot slot0 fun _ =>
    acceptSlot sampleLwip true (willing 0) 20 l.kind l.remoteHost l.remotePort).1

theorem sampleAccepted_leads {j : Nat} {l : Listener} (hl : sampleUp.listeners[j]? = some l) :
    (engine sampleLwip).Leads sampleStart (sampleAcceptedEvents j) (sampleAccepted l) := by
  refine leads_accepted sampleUp_leads rfl hl ?_ (by decide) ?_ (willing 0) (fun p _ => rfl)
    (by decide) rfl
  · exact watchRead_listener (s := (State.pppStatus sampleStart 0 ciMppe ciMppe 1).1)
      (List.mem_of_getElem? hl)
  · unfold State.inUse
    decide

/-- Only the front slot is in use. -/
theorem sampleAccepted_alone (l : Listener) (j : Slot) (hj : j ≠ slot0) :
    ((sampleAccepted l).conn j).fd < 0 := by
  show (Function.update (Function.update (fun _ => Connection.initial) slot0 _) slot0 _ j).fd < 0
  rw [Function.update_of_ne hj, Function.update_of_ne hj]
  decide

/-- The client of the forward is connected to the remote. -/
def sampleStreamingEvents : List Event := sampleAcceptedEvents 2 ++ [.connected 7 .ok (willing 0)]

def sampleStreaming : State :=
  ((sampleAccepted ⟨5, .forward, 8000, 80, ascii "10.0.0.1"⟩).callback 7 [.connected 7]
    (onTcpConnected (willing 0) .ok)).state

theorem sampleStreaming_leads :
    (engine sampleLwip).Leads sampleStart sampleStreamingEvents sampleStreaming :=
  (sampleAccepted_leads rfl).snoc (e := Event.connected 7 .ok (willing 0)) ⟨rfl, by decide⟩ rfl

theorem sampleStreaming_alone (j : Slot) (hj : j ≠ slot0) : (sampleStreaming.conn j).fd < 0 := by
  show (Function.update (sampleAccepted _).conn slot0 _ j).fd < 0
  rw [Function.update_of_ne hj]
  exact sampleAccepted_alone _ j hj

/-- The remote sends two bytes, which wait in `to_local`. -/
def sampleReceived : State :=
  (sampleStreaming.callback 7 [] (onTcpReceive (willing 0) 7 (some (ascii "hi")) .ok)).state

theorem sampleReceived_leads : (engine sampleLwip).Leads sampleStart
    (sampleStreamingEvents ++ [.receive 7 (some (ascii "hi")) (willing 0)]) sampleReceived := by
  refine sampleStreaming_leads.snoc (e := Event.receive 7 (some (ascii "hi")) (willing 0))
    ⟨rfl, by decide, ?_⟩ rfl
  intro d hd
  obtain rfl := Option.some.inj hd
  decide

/-- Or the client sends five bytes, which stay in `to_remote`: no pcb is to be had any more, and there is no
    room to send. -/
def sampleHelloEvents : List Event :=
  sampleStreamingEvents ++ [.top fun _ => willing 0] ++
    [.serve slot0 .retry (.data (ascii "hello")) { willing 0 with tcpNew := none }]

def sampleHello : State :=
  { ((sampleStreaming.iterated slot0 (willing 0)).onSlot slot0
      (readClient sampleLwip true { willing 0 with tcpNew := none }
        (.data (ascii "hello")))).1 with next := 1 }

theorem sampleHello_leads :
    (engine sampleLwip).Leads sampleStart sampleHelloEvents sampleHello := by
  have htop := leads_iterated sampleStreaming_leads rfl slot0 (willing 0) sampleStreaming_alone
  refine leads_read htop rfl (i := slot0) (Nat.le_refl 0) (by decide) ?_ (.data (ascii "hello"))
    { willing 0 with tcpNew := none } (fun p hp => (by cases hp)) ?_
  · exact watchRead_slot (s := sampleStreaming) (i := slot0) (by decide) (by decide)
  · rintro d h
    obtain rfl := ReadResult.data.inj h
    decide

end PptpProxy
