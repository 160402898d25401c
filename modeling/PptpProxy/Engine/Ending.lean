/-
  The end of a stream.

  A streaming slot gives up its pcb in an orderly way on two occasions: `read` returns 0 (the
  client has finished) and the receive callback gets a NULL pbuf (the remote has).  What one would
  like of both is `Orderly`: all the client's bytes have been handed to `tcp_write`, and the pcb is
  closed with `tcp_close`, which still delivers what is queued.

  The two paths differ.  `on_tcp_receive` calls `tcp_close` and keeps the slot until `to_local` is
  drained, but does not look at `to_remote`; the connection loop calls `close_connection`, which
  ABORTS the pcb.  `orderly_end_iff` says exactly when a run ends all its streams in order.
-/
import PptpProxy.Engine.Streams

namespace PptpProxy

open CLib Sys

/-! ## The two occasions -/

/-- The event makes the engine give up the pcb `p` of the streaming slot `i` at the end of a
    stream. -/
inductive GivesUp (s : State) : Event → Slot → PcbId → Prop
  /-- The client is readable, no write to it fails, and `read` returns 0. -/
  | eof {i : Slot} {p : PcbId} {w : WriteResult} {a : Answers} (htcp : (s.conn i).tcp = some p)
      (hphase : (s.conn i).phase = .streaming) (hread : s.readfds (s.conn i).fd = true)
      (hwrite : s.writefds (s.conn i).fd = true → w ≠ .failed) :
      GivesUp s (.serve i w .eof a) i p
  /-- The remote sent FIN. -/
  | fin {i : Slot} {p : PcbId} {a : Answers} (htcp : (s.conn i).tcp = some p)
      (hphase : (s.conn i).phase = .streaming) : GivesUp s (.receive p none a) i p

/-- The end of a stream as it should be. -/
structure Orderly (L : Lwip) (s : State) (e : Event) (i : Slot) (p : PcbId) : Prop where
  /-- `tcp_write` has accepted all that the client has sent for the remote. -/
  sent : outgoing (s.conn i) (clientIn (s.history i)) = some (remoteOut (s.history i))
  closed : Io.tcpClose p .ok ∈ (exec L s e).io
  unaborted : Io.tcpAbort p ∉ (exec L s e).io

/-- What the code needs for it: the end comes from the remote, nothing waits in `to_remote`, and
    `tcp_close` succeeds. -/
def EndsClean (s : State) (e : Event) (i : Slot) : Prop :=
  match e with
  | .receive _ none a => (s.conn i).toRemote = [] ∧ a.tcpClose = .ok
  | _ => False

/-! ## The remote's FIN is seen once -/

/-- A slot whose remote has closed has let go of its pcb. -/
def RemoteDone (c : Connection) : Prop :=
  c.remoteClosed = true → c.tcp = none ∧ (c.phase = .streaming ∨ c.phase = .connectionClosed)

theorem RemoteDone.not_collecting {c : Connection} (h : RemoteDone c)
    (hcol : c.phase.collecting = true) : c.remoteClosed = false := by
  cases hr : c.remoteClosed with
  | false => rfl
  | true =>
    obtain ⟨-, hp | hp⟩ := h hr
    · exact absurd hp (ConnectionPhase.ne_of_collecting hcol rfl)
    · exact absurd hp (ConnectionPhase.ne_of_collecting hcol rfl)

theorem RemoteDone.not_resolving {c : Connection} (h : RemoteDone c)
    (hphase : c.phase = .resolving) : c.remoteClosed = false := by
  cases hr : c.remoteClosed with
  | false => rfl
  | true =>
    obtain ⟨-, hp | hp⟩ := h hr
    · rw [hp] at hphase
      cases hphase
    · rw [hp] at hphase
      cases hphase

theorem RemoteDone.not_open {c : Connection} (h : RemoteDone c) {p : PcbId}
    (htcp : c.tcp = some p) : c.remoteClosed = false := by
  cases hr : c.remoteClosed with
  | false => rfl
  | true =>
    rw [(h hr).1] at htcp
    cases htcp

theorem RemoteDone.move {up : Bool} {c c' : Connection} {io : List Io} (h : RemoteDone c)
    (hm : Move up c io c') : RemoteDone c' := by
  have hnever : ∀ {c₁ : Connection} {P : Prop}, c₁.remoteClosed = false →
      c₁.remoteClosed = true → P := by
    intro c₁ P h1 h2
    rw [h1] at h2
    cases h2
  have hgone : ∀ {c₁ : Connection}, Closed c c₁ → RemoteDone c₁ :=
    fun hc _ => ⟨hc.tcp, Or.inr hc.phase⟩
  cases hm with
  | accepted _ _ _ => exact fun hr => (by cases hr)
  | acceptedForward _ _ _ => exact fun hr => (by cases hr)
  | acceptClosed _ _ hc => exact hgone hc
  | openFailed _ _ _ _ _ hc => exact hgone hc
  | closed _ hc => exact hgone hc
  | readHeader _ hphase _ => exact hnever (h.not_collecting hphase)
  | greeted _ hphase _ _ _ _ => exact hnever (h.not_collecting (by rw [hphase]; rfl))
  | targeted _ _ ht _ _ =>
    have hno := h.not_collecting ht.frame.2.2.2
    cases ht with
    | connect _ _ _ _ _ => exact hnever hno
    | origin _ _ _ _ => exact hnever hno
    | socks _ _ => exact hnever hno
  | opened _ _ hphase _ => exact hnever (h.not_resolving hphase)
  | connected htcp _ _ _ => exact hnever (h.not_open htcp)
  | finished _ hphase => exact fun _ => ⟨rfl, Or.inl hphase⟩
  | errored htcp => exact hnever (h.not_open htcp)
  | quiet _ => exact h
  | asked _ _ _ _ => exact h
  | answered => exact h
  | flushed _ _ => exact h
  | received _ _ _ => exact h
  | drained _ => exact h
  | readStream _ _ _ _ => exact h

theorem reach_remoteDone {L : Lwip} {s : State} (h : (engine L).Reach s) (i : Slot) :
    RemoteDone (s.conn i) :=
  reach_slots (P := fun c _ => RemoteDone c) (fun _ _ _ _ _ _ hm hc => hc.move hm)
    (fun hr => (by cases hr)) h i

/-! ## The step -/

section

variable {L : Lwip} {s : State} {i : Slot} {p : PcbId}

/-- `flush_local` without a write error leaves a slot with a pcb open. -/
theorem flushLocal_open {w : WriteResult} {c : Connection} (hw : w ≠ .failed)
    (hr : c.remoteClosed = false) :
    (flushLocal w c).1.fd = c.fd ∧ (flushLocal w c).1.tcp = c.tcp := by
  unfold flushLocal
  split
  · exact ⟨rfl, rfl⟩
  · cases w with
    | wrote n =>
      dsimp only
      rw [if_neg (by rw [hr]; simp)]
      exact ⟨rfl, rfl⟩
    | retry => exact ⟨rfl, rfl⟩
    | failed => exact absurd rfl hw

/-- **A client's end of file aborts the pcb.** -/
theorem eof_aborts {w : WriteResult} {a : Answers} (h0 : 0 ≤ (s.conn i).fd)
    (htcp : (s.conn i).tcp = some p) (hr : (s.conn i).remoteClosed = false)
    (hread : s.readfds (s.conn i).fd = true)
    (hwrite : s.writefds (s.conn i).fd = true → w ≠ .failed) :
    Io.tcpAbort p ∈ (exec L s (.serve i w .eof a)).io := by
  show _ ∈ (s.serve L i w .eof a).2
  have hflush : ((s.written i w).1.conn i).fd = (s.conn i).fd ∧
      ((s.written i w).1.conn i).tcp = some p := by
    unfold State.written
    split
    · rename_i hwritable
      obtain ⟨hfd, htcp'⟩ := flushLocal_open (c := s.conn i) (hwrite hwritable) hr
      rw [State.onSlot_conn_self]
      exact ⟨hfd, htcp'.trans htcp⟩
    · exact ⟨rfl, htcp⟩
  obtain ⟨hfd, htcp₁⟩ := hflush
  rcases serve_cases L h0 w .eof a with ⟨hno, -⟩ | ⟨-, -, he⟩
  · rw [hfd, hread] at hno
    rcases hno with hneg | hno
    · omega
    · cases hno
  · rw [he]
    exact List.mem_append_right _ (abort_mem_closeIo.mpr htcp₁)

/-- What the receive callback does to its pcb on FIN. -/
theorem fin_closes (hg : Good s) {a : Answers} (he : enabled s (.receive p none a)) :
    (Io.tcpClose p .ok ∈ (exec L s (.receive p none a)).io ↔ a.tcpClose = .ok) ∧
      (Io.tcpAbort p ∈ (exec L s (.receive p none a)).io ↔ a.tcpClose ≠ .ok) := by
  have habort := callback_abort (L := L) hg he (p := p) rfl
  obtain ⟨j, hj⟩ := hg.owner he (p := p) rfl
  have hexec : exec L s (.receive p none a) = s.callback p [] (onTcpReceive a p none .ok) := rfl
  rw [← habort, hexec, hg.callback hj]
  show (Io.tcpClose p .ok ∈ (onTcpFin a p (s.conn j)).2.1 ↔ _) ∧
    ((onTcpFin a p (s.conn j)).2.2 = .abrt ↔ _)
  have hclosing : Io.tcpClose p .ok ∉ (letGo (s.conn j)).2 := fun hmem =>
    letGo_all (P := fun x => x ≠ .tcpClose p .ok) (fun he => by cases he) _ hmem rfl
  rw [onTcpFin_eq]
  dsimp only
  rw [List.mem_append]
  unfold finIo
  by_cases hok : a.tcpClose = .ok
  · simp [hok]
  · have hother : Err.ok ≠ a.tcpClose := fun he => hok he.symm
    simp [hok, hother, hclosing, clearCallbacks]

/-- A stream ends in order exactly when it ends clean. -/
theorem orderly_iff (h : (engine L).Reach s) {e : Event} (he : enabled s e)
    (hgive : GivesUp s e i p) : Orderly L s e i p ↔ EndsClean s e i := by
  have hg := reach_good h
  cases hgive with
  | eof htcp hphase hread hwrite =>
    have h0 := hg.owned.isOpen htcp
    have habort := eof_aborts (L := L) (a := ‹Answers›) h0 htcp
      ((reach_remoteDone h i).not_open htcp) hread hwrite
    exact ⟨fun ho => absurd habort ho.unaborted, False.elim⟩
  | fin htcp hphase =>
    obtain ⟨hclose, habort⟩ := fin_closes (L := L) hg he
    have hstream := (reach_streams h i (hg.owned.isOpen htcp)).toRemote (by rw [hphase]; rfl)
    constructor
    · intro ho
      refine ⟨?_, hclose.mp ho.closed⟩
      have heq := Option.some.inj (hstream.symm.trans ho.sent)
      exact List.append_right_eq_self.mp heq
    · rintro ⟨hempty, hok⟩
      refine ⟨?_, hclose.mpr hok, fun hmem => habort.mp hmem hok⟩
      rw [hstream, hempty, List.append_nil]

end

/-! ## Runs -/

/-- `Q` holds whenever the run gives up a pcb at the end of a stream. -/
def AtEveryEnd (L : Lwip) (s₀ : State) (es : List Event)
    (Q : State → Event → Slot → PcbId → Prop) : Prop :=
  ∀ pre e post, es = pre ++ e :: post → ∀ i p,
    GivesUp ((engine L).run s₀ pre) e i p → Q ((engine L).run s₀ pre) e i p

/-- **Orderly ends.**  A run hands over all client data and closes the pcb with `tcp_close` at
    every end of a stream if and only if every one of them comes from the remote, finds `to_remote`
    empty, and has `tcp_close` succeed. -/
theorem orderly_end_iff {L : Lwip} {s₀ : State} (h₀ : Started s₀) {es : List Event}
    (hrun : (engine L).Run s₀ es) :
    AtEveryEnd L s₀ es (Orderly L) ↔ AtEveryEnd L s₀ es fun s e i _ => EndsClean s e i := by
  have hstep : ∀ pre e post, es = pre ++ e :: post → ∀ i p,
      GivesUp ((engine L).run s₀ pre) e i p →
      (Orderly L ((engine L).run s₀ pre) e i p ↔ EndsClean ((engine L).run s₀ pre) e i) := by
    rintro pre e post rfl i p hgive
    have hreach := (System.Reach.init (M := engine L) h₀).run ((engine L).Run_append hrun).1
    exact orderly_iff hreach hrun.enabled hgive
  constructor
  · intro h pre e post hes i p hgive
    exact (hstep pre e post hes i p hgive).mp (h pre e post hes i p hgive)
  · intro h pre e post hes i p hgive
    exact (hstep pre e post hes i p hgive).mpr (h pre e post hes i p hgive)

/-- A remote that closes an idle connection ends it in order. -/
theorem orderly_end_idle : AtEveryEnd sampleLwip sampleStart
    (sampleStreamingEvents ++ [.receive 7 none (willing 0)]) (Orderly sampleLwip) := by
  have hleads := sampleStreaming_leads.snoc (e := Event.receive 7 none (willing 0))
    ⟨rfl, by decide, fun d hd => (by cases hd)⟩ rfl
  refine (orderly_end_iff sampleStart_started hleads.1).mpr ?_
  intro pre e post hes i p hgive
  -- the last event is the only one that ends a stream
  have hlast : pre = sampleStreamingEvents ∧ e = .receive 7 none (willing 0) := by
    rcases List.append_eq_append_iff.mp hes with ⟨m, hpre, hm⟩ | ⟨m, hstart, hm⟩
    · cases m with
      | nil =>
        rw [List.append_nil] at hpre
        exact ⟨hpre, (List.cons.inj hm).1.symm⟩
      | cons x m => simp at hm
    · cases m with
      | nil =>
        rw [List.append_nil] at hstart
        exact ⟨hstart.symm, (List.cons.inj hm).1⟩
      | cons x m =>
        obtain ⟨rfl, -⟩ := List.cons.inj hm
        have hmem : e ∈ sampleStreamingEvents := hstart ▸ by simp
        simp only [sampleStreamingEvents, sampleAcceptedEvents, sampleUpEvents, List.cons_append,
          List.nil_append, List.mem_cons, List.not_mem_nil, or_false] at hmem
        rcases hmem with rfl | rfl | rfl | rfl <;> cases hgive
  obtain ⟨rfl, rfl⟩ := hlast
  rw [sampleStreaming_leads.2] at hgive ⊢
  cases hgive with
  | fin htcp _ =>
    by_cases hi : i = slot0
    · subst hi
      exact ⟨by decide, rfl⟩
    · have hfree := sampleStreaming_alone i hi
      have hopen := (reach_good (sampleStreaming_leads.reach sampleStart_started)).owned.isOpen htcp
      omega

/-! ## A run that loses data -/

/-- No TCP error, no failed read or write of a client, no link that goes down, no stop. -/
def Event.undisturbed : Event → Bool
  | .error _ => false
  | .connected _ err _ => err == .ok
  | .serve _ w r _ => w != .failed && r != .failed
  | .pppStatus status tx rx _ => status == 0 && tx == ciMppe && rx == ciMppe
  | .stop => false
  | _ => true

/-- A client of the forward sends five bytes and finishes while lwIP has no room to send: the bytes
    are dropped and the pcb is aborted. -/
theorem orderly_end_fails : ¬ ∀ (L : Lwip) (s₀ : State) (es : List Event), Started s₀ →
    (engine L).Run s₀ es → (∀ e ∈ es, e.undisturbed = true) →
    AtEveryEnd L s₀ es (Orderly L) := by
  intro hall
  have htop := leads_iterated sampleHello_leads rfl slot0 (willing 0) (fun j hj => by
    show (Function.update (Function.update sampleStreaming.conn slot0 _) slot0 _ j).fd < 0
    rw [Function.update_of_ne hj, Function.update_of_ne hj]
    exact sampleStreaming_alone j hj)
  have hread : (sampleHello.iterated slot0 (willing 0)).readfds
      ((sampleHello.iterated slot0 (willing 0)).conn slot0).fd = true :=
    watchRead_slot (s := sampleHello) (i := slot0) (by decide) (by decide)
  have heof := leads_read htop rfl (i := slot0) (Nat.le_refl 0) (by decide) hread .eof
    { willing 0 with tcpNew := none } (fun p hp => (by cases hp)) (fun d hd => (by cases hd))
  have hend := hall sampleLwip sampleStart _ sampleStart_started heof.1 (by decide) _ _ [] rfl
    slot0 7
  rw [htop.2] at hend
  have hlost := (hend (.eof rfl rfl hread fun _ => by decide)).sent
  exact absurd hlost (by decide)

end PptpProxy
