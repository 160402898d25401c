/-
  After the remote's FIN.

  `on_tcp_receive` lets go of the pcb at once, but a client that has not taken everything yet keeps
  its slot: DRAINING, with no pcb, still read from and written to.  Such a slot is closed from one
  place only, `flush_local` on the write that empties `to_local`; `fin_never_truncates` says so for
  every run that does not disturb the slot.

  The one thing that could go wrong is `feed_local`, which closes a slot whose `to_remote` is full:
  nobody flushes it any more.  The read gate of the invariant keeps a full read's worth of room.
-/
import PptpProxy.Engine.Ending

namespace PptpProxy

open CLib Sys

/-- The event holds no read or write error and no end of file of the client in slot `i`, takes the
    link not down, and is not the end of the program.  A result that the turn does not ask for is
    `retry`. -/
def Event.undisturbedFor (i : Slot) : Event → Prop
  | .serve j w r _ => j = i → w ≠ .failed ∧ r ≠ .failed ∧ r ≠ .eof
  | .pppStatus status tx rx _ => status = 0 ∧ tx = ciMppe ∧ rx = ciMppe
  | .stop => False
  | _ => True

/-- The history `h` of a slot, `c` at the FIN, ends with the close of the client's descriptor, and
    up to there `write` took all of the proxy's replies and all of the accepted payloads. -/
def Delivered (c : Connection) (h : List Io) : Prop :=
  ∃ before, h = before ++ [.close c.fd] ∧ clientOut before = replies c ++ remoteIn before

/-- The slot that was `c` at the FIN waits for its client to take what is left. -/
structure Draining (c c' : Connection) : Prop where
  fd : c'.fd = c.fd
  isOpen : 0 ≤ c.fd
  remoteClosed : c'.remoteClosed = true
  tcp : c'.tcp = none
  phase : c'.phase = .streaming
  replies : replies c' = replies c

/-- The slot is given up, with everything delivered. -/
def Finished (c : Connection) (s : State) (i : Slot) : Prop :=
  (s.conn i).fd = -1 ∧ Delivered c (s.history i)

/-! ## An open slot has not been closed -/

theorem Closed.not_open {c c' : Connection} (h : Closed c c') : ¬ 0 ≤ c'.fd := by
  rw [h.fd]
  decide

theorem AppendsOnly.no_close {l : List Io} (h : AppendsOnly l) (fd : Int) : Io.close fd ∉ l := by
  intro hmem
  exact h.all (P := fun x => x ≠ .close fd) (fun _ _ _ he => by cases he) _ hmem rfl

/-- A move that leaves its slot open closes no descriptor of it. -/
theorem Move.no_close {up : Bool} {c c' : Connection} {io : List Io} (hm : Move up c io c')
    (h0 : 0 ≤ c'.fd) (fd : Int) : Io.close fd ∉ io := by
  have hcons : ∀ {x : Io} {l : List Io}, x ≠ .close fd → AppendsOnly l → Io.close fd ∉ x :: l := by
    intro x l hx hl hmem
    rcases List.mem_cons.mp hmem with he | hmem
    · exact hx he.symm
    · exact hl.no_close fd hmem
  cases hm with
  | quiet hq =>
    intro hmem
    exact hq _ hmem
  | acceptClosed _ _ hc => exact absurd h0 hc.not_open
  | openFailed _ _ _ _ _ hc => exact absurd h0 hc.not_open
  | closed _ hc => exact absurd h0 hc.not_open
  | greeted _ _ _ _ _ hio => exact hio.no_close fd
  | targeted _ _ _ _ hio => exact hio.no_close fd
  | connected _ _ _ hio => exact hcons (by simp) hio
  | readStream _ _ _ hio => exact hcons (by simp) hio
  | finished _ _ =>
    simp only [clearCallbacks, List.cons_append, List.nil_append, List.mem_cons, reduceCtorEq,
      false_or]
    split <;> simp
  | _ => simp [installCallbacks]

/-- Only a new client clears a history. -/
theorem mem_record {x : Io} {h l : List Io} (hx : x ∈ l.foldl record h) : x ∈ h ∨ x ∈ l := by
  induction l generalizing h with
  | nil => exact Or.inl hx
  | cons y l ih =>
    rcases ih hx with hx | hx
    · have hy : x ∈ h ∨ x = y := by
        cases y with
        | accept fd => exact Or.inr (List.mem_singleton.mp hx)
        | _ =>
          rcases List.mem_append.mp hx with hx | hx
          · exact Or.inl hx
          · exact Or.inr (List.mem_singleton.mp hx)
      rcases hy with hy | rfl
      · exact Or.inl hy
      · exact Or.inr List.mem_cons_self
    · exact Or.inr (List.mem_cons_of_mem y hx)

/-- A slot that a move leaves open has its client from before, or a new one and nothing else. -/
theorem Move.client {up : Bool} {c c' : Connection} {io : List Io} (hm : Move up c io c')
    (h0 : 0 ≤ c'.fd) : c'.fd = c.fd ∨ ∃ fd, io = [.accept fd] := by
  cases hm with
  | accepted _ _ _ => exact Or.inr ⟨_, rfl⟩
  | acceptedForward _ _ _ => exact Or.inr ⟨_, rfl⟩
  | acceptClosed _ _ hc => exact absurd h0 hc.not_open
  | openFailed _ _ _ _ _ hc => exact absurd h0 hc.not_open
  | closed _ hc => exact absurd h0 hc.not_open
  | targeted _ _ ht _ _ => exact Or.inl ht.frame.1
  | _ => exact Or.inl rfl

theorem reach_unclosed {L : Lwip} {s : State} (h : (engine L).Reach s) (i : Slot)
    (h0 : 0 ≤ (s.conn i).fd) (fd : Int) : Io.close fd ∉ s.history i := by
  refine reach_slots (P := fun c h => 0 ≤ c.fd → Io.close fd ∉ h) ?_ ?_ h i h0
  · intro up c io c' h _ hm hc h0 hmem
    rcases hm.client h0 with hfd | ⟨fd', rfl⟩
    · rcases mem_record hmem with hmem | hmem
      · exact hc (hfd ▸ h0) hmem
      · exact hm.no_close h0 fd hmem
    · cases List.mem_singleton.mp hmem
  · intro hneg
    exact absurd hneg (by decide)

/-! ## The functions on a draining slot -/

section

variable {c c' : Connection}

/-- `flush_local` closes a draining slot only with the write that empties `to_local`. -/
theorem Draining.write (h : Draining c c') {w : WriteResult} (hw : w ≠ .failed) :
    Draining c (flushLocal w c').1 ∨ (flushLocal w c').1.fd = -1 ∧
      (flushLocal w c').2 = [.write c'.fd c'.toLocal, .close c'.fd] := by
  unfold flushLocal
  split
  · exact Or.inl h
  · cases w with
    | failed => exact absurd rfl hw
    | retry => exact Or.inl h
    | wrote n =>
      dsimp only
      split
      · rename_i hlast
        refine Or.inr ⟨rfl, ?_⟩
        have hall : c'.toLocal.take n = c'.toLocal :=
          List.take_of_length_le (List.drop_eq_nil_iff.mp hlast.2)
        have hopen : 0 ≤ c'.fd := h.fd ▸ h.isOpen
        show Io.write c'.fd (c'.toLocal.take n) ::
          closeIo { c' with toLocal := c'.toLocal.drop n } = _
        unfold closeIo
        rw [hall, if_pos hopen]
        simp only [h.tcp, List.append_nil]
      · exact Or.inl ⟨h.fd, h.isOpen, h.remoteClosed, h.tcp, h.phase, h.replies⟩

/-- A draining slot takes what its client still sends. -/
theorem Draining.read (h : Draining c c') {L : Lwip} {up : Bool} {a : Answers} {r : ReadResult}
    (hfail : r ≠ .failed) (heof : r ≠ .eof) (hr : ∀ d, r = .data d → d.length ≤ maxHeader)
    (hroom : c'.toRemote.length + maxHeader ≤ bufferSize) :
    Draining c (readClient L up a r c').1 := by
  cases r with
  | failed => exact absurd rfl hfail
  | eof => exact absurd rfl heof
  | retry => exact h
  | data d =>
    have hlen := hr d rfl
    have hfeed : feedLocal L up a c' d = ({ c' with toRemote := c'.toRemote ++ d },
        [appendIo c'.toRemote bufferSize d], true) := by
      unfold feedLocal feedStream
      rw [if_pos (Or.inl h.phase), appendBytes_of_room (by omega) (by decide)]
    unfold readClient
    dsimp only
    rw [hfeed]
    exact ⟨h.fd, h.isOpen, h.remoteClosed, h.tcp, h.phase, h.replies⟩

end

/-! ## The step -/

section

variable {L : Lwip} {s : State} {i : Slot} {c : Connection}

/-- A TCP callback is about a slot with a pcb. -/
theorem Good.callback_spares (h : Good s) (htcp : (s.conn i).tcp = none) {e : Event} {p : PcbId}
    (he : enabled s e) (hp : e.callbackPcb = some p) (pre : List Io)
    (f : Connection → Connection × List Io × Err) :
    (s.callback p pre f).state.conn i = s.conn i := by
  obtain ⟨j, hj⟩ := h.owner he hp
  have hij : i ≠ j := by
    rintro rfl
    rw [htcp] at hj
    cases hj
  rw [h.callback hj]
  exact Function.update_of_ne hij ..

/-- A turn of the connection loop is about one slot. -/
theorem serve_spares {j : Slot} (hij : i ≠ j) (w : WriteResult) (r : ReadResult) (a : Answers) :
    (s.serve L j w r a).1.conn i = s.conn i := by
  have hwritten : (s.written j w).1.conn i = s.conn i := by
    unfold State.written
    split
    · exact State.onSlot_conn_of_ne hij _
    · rfl
  by_cases h0 : 0 ≤ (s.conn j).fd
  · rcases serve_cases L h0 w r a with ⟨-, he⟩ | ⟨-, -, he⟩
    · rw [he]
      exact hwritten
    · rw [he]
      exact (State.onSlot_conn_of_ne hij (readClient L s.linkUp a r)).trans hwritten
  · unfold State.serve
    rw [if_pos (Int.not_le.mp h0)]

/-- An event that is not its turn leaves a draining slot alone. -/
theorem Draining.spared (h : Draining c (s.conn i)) (hg : Good s) {e : Event} (he : enabled s e)
    (hund : e.undisturbedFor i) (hturn : ∀ w r a, e ≠ .serve i w r a) :
    (exec L s e).state.conn i = s.conn i := by
  have hev := he.2
  have h0 : 0 ≤ (s.conn i).fd := h.fd ▸ h.isOpen
  cases e with
  | top a =>
    -- `flush_remote` needs a pcb
    show (s.forSlots _).1.conn i = _
    rw [forSlots_conn]
    split
    · unfold flushRemote
      rw [h.tcp]
    · rfl
  | select _ _ => rfl
  | sent p n a => exact hg.callback_spares h.tcp he rfl _ _
  | poll p a => exact hg.callback_spares h.tcp he rfl _ _
  | error p => exact hg.callback_spares h.tcp he rfl _ _
  | receive p payload a => exact hg.callback_spares h.tcp he rfl _ _
  | connected p err a => exact hg.callback_spares h.tcp he rfl _ _
  | reap _ => rfl
  | dnsDone q address a =>
    -- the lookup is of a slot that is still resolving
    have hij : i ≠ q.slot := by
      rintro rfl
      have := ((hg.asked hev.1).2 h0).1
      rw [h.phase] at this
      cases this
    exact Function.update_of_ne hij ..
  | pppStatus status tx rx now =>
    show (s.pppStatus status tx rx now).1.conn i = _
    unfold State.pppStatus
    have hup : status = 0 ∧ tx = ciMppe ∧ rx = ciMppe := hund
    rw [if_pos hup]
    split <;> rfl
  | control _ _ _ => rfl
  | accept j fd nonblock a =>
    obtain ⟨⟨l, hl, -⟩, -⟩ := hev
    rw [exec_accept hl]
    dsimp only
    unfold State.accept
    split
    · rfl
    · split
      · rfl
      · rename_i k hk
        have hik : i ≠ k := by
          rintro rfl
          have := (freeSlot_spec hk).1
          omega
        exact Function.update_of_ne hik ..
  | serve j w r a =>
    have hij : i ≠ j := by
      rintro rfl
      exact hturn w r a rfl
    exact serve_spares hij w r a
  | stop => exact hund.elim

/-- Everything is delivered when the last write before the close empties `to_local`. -/
theorem Draining.delivered (h : Draining c (s.conn i)) (hs : Streams (s.conn i) (s.history i)) :
    Delivered c ([Io.write (s.conn i).fd (s.conn i).toLocal, .close (s.conn i).fd].foldl record
      (s.history i)) := by
  refine ⟨s.history i ++ [.write (s.conn i).fd (s.conn i).toLocal], ?_, ?_⟩
  · rw [record_append (by simp), h.fd, List.append_assoc]
    rfl
  · rw [clientOut_append, remoteIn_append]
    calc clientOut (s.history i) ++ clientOut [.write (s.conn i).fd (s.conn i).toLocal]
        = clientOut (s.history i) ++ (s.conn i).toLocal := by simp [clientOut]
      _ = PptpProxy.replies c ++ remoteIn (s.history i) := by rw [hs.toClient, h.replies]
      _ = PptpProxy.replies c ++ (remoteIn (s.history i) ++ []) := by rw [List.append_nil]

/-- **A draining slot in its turn.**  It goes on draining, or everything is delivered. -/
theorem Draining.turn (h : Draining c (s.conn i)) (hg : Good s)
    (hs : Streams (s.conn i) (s.history i)) {w : WriteResult} {r : ReadResult} {a : Answers}
    (he : enabled s (.serve i w r a)) (hund : (Event.serve i w r a).undisturbedFor i) :
    Draining c ((exec L s (.serve i w r a)).state.conn i) ∨
      Finished c (exec L s (.serve i w r a)).state i := by
  obtain ⟨-, hnext, -, -, hr⟩ := he
  obtain ⟨hw, hfail, heof⟩ := hund rfl
  have h0 : 0 ≤ (s.conn i).fd := h.fd ▸ h.isOpen
  show Draining c ((s.serve L i w r a).1.conn i) ∨
    Finished c { (s.serve L i w r a).1 with next := i.val + 1 } i
  have hwritten : Draining c ((s.written i w).1.conn i) ∨ Finished c (s.written i w).1 i := by
    unfold State.written
    split
    · rcases h.write hw with hd | ⟨hfd, hio⟩
      · exact Or.inl (by rw [State.onSlot_conn_self]; exact hd)
      · refine Or.inr ⟨by rw [State.onSlot_conn_self]; exact hfd, ?_⟩
        rw [State.onSlot_history_self, hio]
        exact h.delivered hs
    · exact Or.inl h
  rcases serve_cases L h0 w r a with ⟨-, hserve⟩ | ⟨hfd, hread, hserve⟩
  · rw [hserve]
    exact hwritten
  · rcases hwritten with hd | ⟨hgone, -⟩
    · -- the gate was open at the top of the iteration, and `flush_local` leaves `to_remote` alone
      obtain ⟨hn, -, hreadfds⟩ := written_frame (s := s) (i := i) (w := w)
      have hpath : Path True True s (s.written i w).2 (s.written i w).1 := written_path
      have hroom := (hpath.good hg).gate i (by omega) hfd (by rw [hreadfds]; exact hread)
      rw [hserve]
      refine Or.inl ?_
      rw [State.onSlot_conn_self]
      exact hd.read hfail heof (fun d hd => (hr d hd).2) hroom
    · omega

/-- **The step.**  An undisturbed draining slot goes on draining, or everything is delivered. -/
theorem Draining.step (h : Draining c (s.conn i)) (hreach : (engine L).Reach s) {e : Event}
    (he : enabled s e) (hund : e.undisturbedFor i) :
    Draining c (((engine L).step s e).conn i) ∨ Finished c ((engine L).step s e) i := by
  have hg := reach_good hreach
  by_cases hturn : ∃ w r a, e = .serve i w r a
  · obtain ⟨w, r, a, rfl⟩ := hturn
    exact h.turn hg (reach_streams hreach i (h.fd ▸ h.isOpen)) he hund
  · refine Or.inl ?_
    have hsame : (exec L s e).state.conn i = s.conn i :=
      h.spared hg he hund fun w r a heq => hturn ⟨w, r, a, heq⟩
    show Draining c ((exec L s e).state.conn i)
    rw [hsame]
    exact h

/-- What FIN does to the pcb carries no byte and brings no client, whatever `tcp_close` answers. -/
theorem finIo_silent (p : PcbId) (r : Err) : Silent (finIo p r) ∧ ∀ fd, Io.accept fd ∉ finIo p r := by
  refine ⟨.of_forall (finIo_all ?_ ⟨rfl, rfl, rfl, rfl⟩ ⟨rfl, rfl, rfl, rfl⟩), fun fd hmem => ?_⟩
  · intro x hx
    simp only [clearCallbacks, List.mem_cons, List.not_mem_nil, or_false] at hx
    rcases hx with rfl | rfl | rfl | rfl | rfl <;> exact ⟨rfl, rfl, rfl, rfl⟩
  · refine finIo_all (P := fun x => x ≠ .accept fd) ?_ ?_ ?_ _ hmem rfl
    · simp [clearCallbacks]
    · simp
    · simp

/-- **The FIN.**  The slot drains from now on, or there was nothing left to deliver. -/
theorem fin_drains (hreach : (engine L).Reach s) {p : PcbId} {a : Answers}
    (he : enabled s (.receive p none a)) (htcp : (s.conn i).tcp = some p) :
    Draining (s.conn i) (((engine L).step s (.receive p none a)).conn i) ∨
      Finished (s.conn i) ((engine L).step s (.receive p none a)) i := by
  have hg := reach_good hreach
  have h0 := hg.owned.isOpen htcp
  have hs := reach_streams hreach i h0
  have hphase := hg.established he htcp
  have hstep : (engine L).step s (.receive p none a) =
      s.put i (onTcpFin a p (s.conn i)).1 (onTcpFin a p (s.conn i)).2.1 := by
    show (s.callback p [] (onTcpReceive a p none .ok)).state = _
    rw [hg.callback htcp]
    rfl
  obtain ⟨hsilent, hno⟩ := finIo_silent p a.tcpClose
  rw [hstep, onTcpFin_eq]
  by_cases hempty : (s.conn i).toLocal = []
  · have hlet : letGo (s.conn i) =
        closeConnection { s.conn i with remoteClosed := true, tcp := none } := if_pos hempty
    have hclose : closeIo { s.conn i with remoteClosed := true, tcp := none } =
        [.close (s.conn i).fd] := by
      unfold closeIo
      rw [if_pos h0]
      rfl
    rw [hlet]
    refine Or.inr ⟨by rw [State.put_conn_self]; rfl, ?_⟩
    show Delivered _ ((s.put i _ (finIo p a.tcpClose ++ closeIo _)).history i)
    rw [State.put_history_self, hclose]
    refine ⟨s.history i ++ finIo p a.tcpClose, ?_, ?_⟩
    · rw [record_append (by simpa using hno), List.append_assoc]
    · have hall := hs.toClient
      rw [hempty, List.append_nil] at hall
      rw [clientOut_append, remoteIn_append, hsilent.2.2.1, hsilent.2.2.2, List.append_nil,
        List.append_nil]
      exact hall
  · have hlet : letGo (s.conn i) =
        ({ s.conn i with remoteClosed := true, tcp := none }, []) := if_neg hempty
    rw [State.put_conn_self, hlet]
    exact Or.inl ⟨rfl, h0, rfl, rfl, hphase, rfl⟩

end

/-! ## Runs -/

/-- The slot keeps its descriptor through all of the events. -/
def Keeps (L : Lwip) (s : State) (es : List Event) (i : Slot) : Prop :=
  (engine L).Along s es fun t e => (((engine L).step t e).conn i).fd = (t.conn i).fd

/-- A slot that keeps its descriptor goes on draining. -/
theorem Draining.run {L : Lwip} {s : State} {i : Slot} {c : Connection}
    (h : Draining c (s.conn i)) (hreach : (engine L).Reach s) {es : List Event}
    (hrun : (engine L).Run s es) (hund : ∀ e ∈ es, e.undisturbedFor i) (hkeeps : Keeps L s es i) :
    Draining c (((engine L).run s es).conn i) := by
  induction es generalizing s with
  | nil => exact h
  | cons e es ih =>
    rcases h.step hreach hrun.1 (hund e List.mem_cons_self) with hd | ⟨hgone, -⟩
    · exact ih hd (hreach.step hrun.1) hrun.2
        (fun e he => hund e (List.mem_cons_of_mem _ he)) hkeeps.tail
    · have hfd := hkeeps.head
      have := h.fd
      have := h.isOpen
      omega

/-- **A remote close never truncates.**  The remote of slot `i` sends FIN in the state `s` of a run,
    and no later event disturbs the slot.  From the FIN on, every event that finds the slot with
    its client either leaves the descriptor open or closes it when `write` has taken every byte of
    the proxy's replies and of the payloads accepted by `on_tcp_receive`. -/
theorem fin_never_truncates {L : Lwip} {s₀ s : State} (h₀ : Started s₀) {pre post : List Event}
    (hpre : (engine L).Leads s₀ pre s) {p : PcbId} {a : Answers}
    (hrun : (engine L).Run s (.receive p none a :: post)) {i : Slot}
    (htcp : (s.conn i).tcp = some p) (hund : ∀ e ∈ post, e.undisturbedFor i)
    {mid rest : List Event} {e : Event} (hes : .receive p none a :: post = mid ++ e :: rest)
    (hkeeps : Keeps L s mid i) :
    (((engine L).run s (mid ++ [e])).conn i).fd = (s.conn i).fd ∧
        Io.close (s.conn i).fd ∉ ((engine L).run s (mid ++ [e])).history i ∨
      Delivered (s.conn i) (((engine L).run s (mid ++ [e])).history i) := by
  have hreach := hpre.reach h₀
  have hstep : Draining (s.conn i) (((engine L).run s (mid ++ [e])).conn i) ∨
      Finished (s.conn i) ((engine L).run s (mid ++ [e])) i := by
    cases mid with
    | nil =>
      obtain ⟨rfl, rfl⟩ := List.cons.inj hes
      exact fin_drains hreach hrun.1 htcp
    | cons x mid =>
      obtain ⟨rfl, rfl⟩ := List.cons.inj hes
      rcases fin_drains hreach hrun.1 htcp with hd | ⟨hgone, -⟩
      · have hreach' := hreach.step hrun.1
        have hmid := hd.run hreach' ((engine L).Run_append hrun.2).1
          (fun e he => hund e (List.mem_append_left _ he)) hkeeps.tail
        have hlast := hmid.step (hreach'.run ((engine L).Run_append hrun.2).1)
          (System.Run.enabled hrun.2) (hund e (by simp))
        rw [List.cons_append, System.run_cons, System.run_append]
        exact hlast
      · have hfd := hkeeps.head
        have := (reach_good hreach).owned.isOpen htcp
        omega
  rcases hstep with hd | ⟨-, hdel⟩
  · have hrun' : (engine L).Run s (mid ++ [e]) := by
      rw [hes, ← List.singleton_append, ← List.append_assoc] at hrun
      exact ((engine L).Run_append hrun).1
    exact Or.inl ⟨hd.fd, reach_unclosed (hreach.run hrun') i (hd.fd ▸ hd.isOpen) _⟩
  · exact Or.inr hdel

/-- The remote of the sample run has finished behind its two bytes. -/
def sampleDraining : State :=
  (sampleReceived.callback 7 [] (onTcpReceive (willing 0) 7 none .ok)).state

theorem sampleDraining_leads : (engine sampleLwip).Leads sampleReceived
    [.receive 7 none (willing 0), .top fun _ => willing 0]
    (sampleDraining.iterated slot0 (willing 0)) := by
  refine leads_iterated (System.Leads.nil.snoc (e := Event.receive 7 none (willing 0))
    ⟨rfl, by decide, fun d hd => (by cases hd)⟩ rfl) rfl slot0 (willing 0) ?_
  intro j hj
  show (Function.update (Function.update sampleStreaming.conn slot0 _) slot0 _ j).fd < 0
  rw [Function.update_of_ne hj, Function.update_of_ne hj]
  exact sampleStreaming_alone j hj

/-- The client takes both bytes in its next turn, and only then is it closed. -/
theorem fin_never_truncates_hi :
    Delivered (sampleReceived.conn slot0) (((engine sampleLwip).run sampleReceived
      ([.receive 7 none (willing 0), .top fun _ => willing 0] ++
        [.serve slot0 (.wrote 2) .retry { willing 0 with tcpNew := none }])).history slot0) := by
  have hlast := sampleDraining_leads.snoc
    (e := Event.serve slot0 (.wrote 2) .retry { willing 0 with tcpNew := none })
    ⟨rfl, Nat.le_refl 0, fun p hp => (by cases hp), fun n hn => by
      obtain rfl := WriteResult.wrote.inj hn
      decide, fun d hd => (by cases hd)⟩ rfl
  have hund : ∀ e ∈ [.top fun _ => willing 0,
      Event.serve slot0 (.wrote 2) .retry { willing 0 with tcpNew := none }],
      e.undisturbedFor slot0 := by
    intro e he
    rcases List.mem_cons.mp he with rfl | he
    · exact trivial
    · obtain rfl := List.mem_singleton.mp he
      exact fun _ => by decide
  have hkeeps : Keeps sampleLwip sampleReceived
      [.receive 7 none (willing 0), .top fun _ => willing 0] slot0 := by
    refine .cons rfl (.cons ?_ .nil)
    show ((State.forSlots sampleDraining _).1.conn slot0).fd = _
    rw [forSlots_conn]
    rfl
  rcases fin_never_truncates sampleStart_started sampleReceived_leads hlast.1 (i := slot0) rfl
    hund rfl hkeeps with ⟨hfd, -⟩ | hdel
  · rw [hlast.2] at hfd
    exact absurd hfd (by decide)
  · exact hdel

end PptpProxy
