/-
  Where a proxied HTTP request goes.

  `parse_http` runs once per connection: it aims the slot at the authority of the first request and
  rewrites its first line.  `reach_aimed` carries that through every run: the target of a relaying
  slot is the one its client's FIRST line names, whatever has happened since.

  Everything behind the first header goes to that target as it is (`feed_local` while the slot
  relays), so the law "each request goes to its own origin" holds for the first request of a
  connection (`own_origin`) and fails for a second one (`own_origin_fails`).
-/
import PptpProxy.Engine.Streams
import PptpProxy.Http.Message

namespace PptpProxy

open CLib Sys

/-! ## The target of a slot -/

/-- The request line among the bytes `b` of a client names the target of its slot. -/
def Aims (c : Connection) (b : Bytes) : Prop :=
  ∃ n, findSub crlf b = some n ∧
    if c.httpConnect then
      ∃ uri version, scanRequestLine (b.take n) = some (ascii "CONNECT", uri, version) ∧
        parseAuthority uri 256 443 = some (c.host, c.port)
    else
      n ≤ 2048 ∧ ∃ o, originRequest (b.take n) = some o ∧ (o.host, o.port) = (c.host, c.port)

/-- A live HTTP slot that relays has its target from its client's first line. -/
def Aimed (c : Connection) (h : List Io) : Prop :=
  0 ≤ c.fd → c.kind = .httpProxy → c.phase.relaying = true → Aims c (clientIn h)

/-- More bytes do not change the first line. -/
theorem Aims.append {c : Connection} {b : Bytes} (h : Aims c b) (t : Bytes) : Aims c (b ++ t) := by
  obtain ⟨n, hn, haim⟩ := h
  have hlen := (findSub_split hn).2
  have htake : (b ++ t).take n = b.take n := List.take_append_of_le_length (by omega)
  exact ⟨n, findSub_append t hn, by rw [htake]; exact haim⟩

theorem Aims.congr {c c' : Connection} {b : Bytes} (h : Aims c b)
    (hconnect : c'.httpConnect = c.httpConnect) (hhost : c'.host = c.host)
    (hport : c'.port = c.port) : Aims c' b := by
  unfold Aims
  rw [hconnect, hhost, hport]
  exact h

/-- The move in which the target is set. -/
theorem Targets.aims {c c' : Connection} {io h : List Io} (ht : Targets c io c')
    (hs : Streams c h) (hkind : c'.kind = .httpProxy) : Aims c' (clientIn h) := by
  have hc := hs.collects
  unfold Collects at hc
  cases ht with
  | connect hphase hn hscan hauth hk =>
    rw [hphase] at hc
    obtain ⟨-, -, hheader⟩ := hc
    rw [← hheader]
    exact ⟨_, hn, _, _, hscan, hauth⟩
  | origin hphase hn hshort hline =>
    rw [hphase] at hc
    obtain ⟨-, hconnect, hheader⟩ := hc
    rw [← hheader]
    refine ⟨_, hn, ?_⟩
    rw [if_neg (by show ¬ c.httpConnect = true; rw [hconnect]; decide)]
    exact ⟨hshort, _, hline, rfl⟩
  | socks hphase hdecode =>
    rw [hphase] at hc
    have hsocks : c.kind = .httpProxy := hkind
    rw [hc.1] at hsocks
    cases hsocks

/-- A move that keeps the client, the target and the bytes read keeps the aim. -/
theorem Aimed.keep {c c' : Connection} {h l : List Io} (ha : Aimed c h)
    (hno : ∀ fd, Io.accept fd ∉ l) (hfd : c'.fd = c.fd) (hkind : c'.kind = c.kind)
    (hphase : c'.phase.relaying = true → c.phase.relaying = true)
    (hconnect : c'.httpConnect = c.httpConnect) (hhost : c'.host = c.host)
    (hport : c'.port = c.port) : Aimed c' (l.foldl record h) := by
  intro h0 hk hr
  rw [record_append hno, clientIn_append]
  rw [hfd] at h0
  rw [hkind] at hk
  exact ((ha h0 hk (hphase hr)).append _).congr hconnect hhost hport

/-- **A move keeps the aim of its slot.** -/
theorem Aimed.move {up : Bool} {c c' : Connection} {io h : List Io} (ha : Aimed c h)
    (hs : LiveStreams c h) (hm : Move up c io c') : Aimed c' (io.foldl record h) := by
  have hgone : ∀ {c₁ : Connection}, Closed c c₁ → Aimed c₁ (io.foldl record h) := by
    intro c₁ hc hfd
    rw [hc.fd] at hfd
    exact absurd hfd (by decide)
  cases hm with
  | quiet hq => exact ha.keep (fun fd hmem => hq _ hmem) rfl rfl id rfl rfl rfl
  | accepted hfree hidle hkind =>
    rename_i fd kind
    cases kind with
    | forward => exact absurd rfl hkind
    | httpProxy => exact fun _ _ hr => (by cases hr)
    | socksProxy => exact fun _ hk => (by cases hk)
  | acceptedForward _ _ _ => exact fun _ hk => (by cases hk)
  | acceptClosed _ _ hc => exact hgone hc
  | openFailed _ _ _ _ _ hc => exact hgone hc
  | closed _ hc => exact hgone hc
  | readHeader _ _ _ => exact ha.keep (by simp) rfl rfl id rfl rfl rfl
  | greeted hfd hphase _ _ _ hio =>
    intro h0 hk hr
    exact absurd hr (by simp [ConnectionPhase.relaying])
  | targeted _ hfd ht _ hio =>
    intro h0 hk _
    rw [record_append hio.no_accept, clientIn_append]
    exact ((ht.aims (hs hfd) hk).append _).congr rfl rfl rfl
  | asked _ _ _ _ => exact ha.keep (by simp) rfl rfl id rfl rfl rfl
  | answered => exact ha.keep (by simp) rfl rfl id rfl rfl rfl
  | opened _ _ hphase _ =>
    exact ha.keep (by simp [installCallbacks]) rfl rfl (fun _ => by rw [hphase]; rfl) rfl rfl rfl
  | connected _ hphase _ hio =>
    refine ha.keep (hio.no_accept_cons (by simp)) rfl rfl (fun _ => ?_) rfl rfl rfl
    rw [hphase]
    rfl
  | flushed _ _ => exact ha.keep (by simp) rfl rfl id rfl rfl rfl
  | received _ _ _ => exact ha.keep (by simp) rfl rfl id rfl rfl rfl
  | finished _ _ =>
    refine ha.keep ?_ rfl rfl id rfl rfl rfl
    intro fd hmem
    simp only [clearCallbacks, List.cons_append, List.nil_append, List.mem_cons, reduceCtorEq,
      false_or] at hmem
    split at hmem <;> simp at hmem
  | errored _ => exact ha.keep (by simp) rfl rfl id rfl rfl rfl
  | drained _ => exact ha.keep (by simp) rfl rfl id rfl rfl rfl
  | readStream _ _ _ hio =>
    exact ha.keep (hio.no_accept_cons (by simp)) rfl rfl id rfl rfl rfl

theorem reach_aimed {L : Lwip} {s : State} (h : (engine L).Reach s) (i : Slot) :
    Aimed (s.conn i) (s.history i) := by
  have hboth := reach_slots (P := fun c h => LiveStreams c h ∧ Aimed c h)
    (fun up c io c' h hok hm hP => ⟨hP.1.move hok hm, hP.2.move hP.1 hm⟩)
    ⟨fun h0 => absurd h0 (by decide), fun h0 => absurd h0 (by decide)⟩ h i
  exact hboth.2

/-! ## Requests and origins -/

/-- The bytes `out` that were handed to the remote of `c` are requests of `rs` whose URIs name the
    target of `c`, in origin form (the last of them perhaps not complete yet). -/
def OwnOrigin (c : Connection) (rs : List HttpRequest) (out : Bytes) : Prop :=
  ∃ done : List HttpRequest, done.Sublist rs ∧ (∀ r ∈ done, r.target = (c.host, c.port)) ∧
    out <+: done.flatMap HttpRequest.originForm

/-- What is sent behind a prefix of a request's line end is a prefix of its header lines. -/
theorem originForm_of_encode {r : HttpRequest} {b : Bytes} (hb : b <+: r.encode) :
    r.originLine ++ b.drop (r.requestLine.length + 2) <+: r.originForm := by
  have hdrop : r.encode.drop (r.requestLine.length + 2) = r.headerLines := by
    unfold HttpRequest.encode
    rw [show r.requestLine.length + 2 = (r.requestLine ++ crlf).length by
      rw [List.length_append]; rfl, List.drop_left]
  unfold HttpRequest.originForm
  rw [List.prefix_append_right_inj, ← hdrop]
  exact hb.drop _

/-- A line end in a prefix of a request is that of its request line. -/
theorem requestLine_of_encode {r : HttpRequest} {b : Bytes} {n : Nat} (hb : b <+: r.encode)
    (hn : findSub crlf b = some n) : n = r.requestLine.length ∧ b.take n = r.requestLine := by
  have hline : n = r.requestLine.length :=
    Option.some.inj ((findSub_of_isPrefix hb hn).symm.trans r.findSub_crlf_encode)
  have hle : n ≤ b.length := by
    have hlen := (findSub_split hn).2
    omega
  have htake : r.encode.take n = r.requestLine := by
    rw [hline]
    unfold HttpRequest.encode
    rw [List.append_assoc, List.take_left]
  obtain ⟨t, ht⟩ := hb
  refine ⟨hline, ?_⟩
  rw [← htake, ← ht, List.take_append_of_le_length hle]

/-- **Each request goes to its own origin**, as long as nothing behind the first request of the
    connection has been read: whatever the segmentation and whatever the remote does, the bytes
    handed to `tcp_write` are that request, rewritten, on a connection to the authority it
    names. -/
theorem own_origin {L : Lwip} {s : State} (h : (engine L).Reach s) (i : Slot)
    (hlive : 0 ≤ (s.conn i).fd) (hkind : (s.conn i).kind = .httpProxy) (rs : List HttpRequest)
    (hsent : clientIn (s.history i) <+: rs.flatMap HttpRequest.encode)
    (hone : (clientIn (s.history i)).length ≤ ((rs.take 1).flatMap HttpRequest.encode).length) :
    OwnOrigin (s.conn i) rs (remoteOut (s.history i)) := by
  have hs := reach_streams h i hlive
  by_cases hr : (s.conn i).phase.relaying = true
  · obtain ⟨n, hn, haim⟩ := reach_aimed h i hlive hkind hr
    have hout := hs.toRemote hr
    cases rs with
    | nil =>
      rw [List.flatMap_nil, List.prefix_nil] at hsent
      rw [hsent] at hn
      cases hn
    | cons r rest =>
      -- all that was read is part of the first request
      have hfirst : clientIn (s.history i) <+: r.encode := by
        rw [List.take_succ_cons, List.take_zero, List.flatMap_cons, List.flatMap_nil,
          List.append_nil] at hone
        rw [List.flatMap_cons] at hsent
        exact List.prefix_of_prefix_length_le hsent (List.prefix_append _ _) hone
      obtain ⟨hline, htake⟩ := requestLine_of_encode hfirst hn
      by_cases hconnect : (s.conn i).httpConnect = true
      · rw [if_pos hconnect] at haim
        obtain ⟨uri, version, hscan, -⟩ := haim
        rw [htake] at hscan
        exact absurd hscan (scanRequestLine_not_connect r)
      · rw [if_neg hconnect] at haim
        obtain ⟨hshort, o, ho, htarget⟩ := haim
        rw [htake] at ho
        obtain ⟨hown, horigin⟩ := originRequest_requestLine r (hline ▸ hshort) ho
        refine ⟨[r], List.singleton_sublist.mpr List.mem_cons_self, ?_, ?_⟩
        · intro r' hr'
          obtain rfl := List.mem_singleton.mp hr'
          exact hown.symm.trans htarget
        · -- what was handed on and what waits in `to_remote` are together the rewritten request
          have hrewritten : outgoing (s.conn i) (clientIn (s.history i)) =
              some (r.originLine ++ (clientIn (s.history i)).drop (r.requestLine.length + 2)) := by
            unfold outgoing rewritten
            rw [hkind]
            dsimp only
            rw [if_neg hconnect, hn]
            dsimp only
            rw [htake, ho, Option.map_some, horigin, hline]
          have heq := Option.some.inj (hout.symm.trans hrewritten)
          have hpre : remoteOut (s.history i) <+: remoteOut (s.history i) ++ (s.conn i).toRemote :=
            List.prefix_append _ _
          rw [heq] at hpre
          rw [List.flatMap_cons, List.flatMap_nil, List.append_nil]
          exact hpre.trans (originForm_of_encode hfirst)
  · -- before the target is known nothing has been handed on
    have hns : (s.conn i).phase ≠ .streaming := by
      intro hp
      rw [hp] at hr
      exact hr rfl
    refine ⟨[], List.nil_sublist rs, fun r hr => (by cases hr), ?_⟩
    rw [(hs.early hns).1]
    exact List.nil_prefix

/-! ## Two requests on one connection -/

/-- `GET http://10.0.0.1/a HTTP/1.1` and `GET http://10.0.0.2/b HTTP/1.1`. -/
def sampleGet (host path : Bytes) (hhost : ∀ b ∈ host, visible b = true ∧ b ∉ ascii "/?#" ∧ b ≠ 58)
    (hpath : ∀ b ∈ path, visible b = true) : HttpRequest where
  method := ascii "GET"
  host := host
  port := none
  path := 47 :: path
  minor := 49
  headers := []
  method_visible := List.all_iff_forall_prop.mp (by decide)
  method_ne_nil := by decide
  method_ne_connect := by decide
  host_visible := fun b hb => (hhost b hb).1
  host_delim := fun b hb => (hhost b hb).2.1
  host_colon := fun hb => absurd rfl (hhost 58 hb).2.2
  port_digits := fun ds hds => (by cases hds)
  path_visible := fun b hb => by
    rcases List.mem_cons.mp hb with rfl | hb
    · rfl
    · exact hpath b hb
  path_slash := rfl
  minor_digit := rfl
  headers_line := fun h hh => (by cases hh)

def getA : HttpRequest := sampleGet (ascii "10.0.0.1") (ascii "a")
  (List.all_iff_forall_prop.mp (by decide)) (List.all_iff_forall_prop.mp (by decide))
def getB : HttpRequest := sampleGet (ascii "10.0.0.2") (ascii "b")
  (List.all_iff_forall_prop.mp (by decide)) (List.all_iff_forall_prop.mp (by decide))

/-- A client of the HTTP listener sends `data` in one read. -/
def sampleAsked (data : Bytes) : State :=
  { (((sampleAccepted ⟨3, .httpProxy, 18080, 0, []⟩).iterated slot0 (willing 0)).onSlot slot0
      (readClient sampleLwip true (willing 0) (.data data))).1 with next := 1 }

theorem sampleAsked_reach {data : Bytes} (hne : data ≠ []) (hlen : data.length ≤ 8192) :
    (engine sampleLwip).Reach (sampleAsked data) := by
  have htop := leads_iterated (sampleAccepted_leads (j := 0) (l := ⟨3, .httpProxy, 18080, 0, []⟩) rfl)
    rfl slot0 (willing 0) (sampleAccepted_alone _)
  have hread := leads_read htop rfl (i := slot0) (Nat.le_refl 0) (by decide)
    (watchRead_slot (s := sampleAccepted ⟨3, .httpProxy, 18080, 0, []⟩) (i := slot0) (by decide)
      (by decide)) (.data data) (willing 0) (fun p _ => rfl) (by
      rintro d h
      obtain rfl := ReadResult.data.inj h
      exact ⟨hne, hlen⟩)
  exact hread.reach sampleStart_started

/-- ... and the connection to the remote is established, with room for all of it. -/
def sampleSent (data : Bytes) : State :=
  ((sampleAsked data).callback 7 [.connected 7] (onTcpConnected (willing 1000) .ok)).state

theorem sampleSent_reach {data : Bytes} (hne : data ≠ []) (hlen : data.length ≤ 8192)
    (hpcb : (sampleAsked data).world.has 7 (·.state == .synSent) = true) :
    (engine sampleLwip).Reach (sampleSent data) :=
  (sampleAsked_reach hne hlen).step (e := Event.connected 7 .ok (willing 1000)) ⟨rfl, hpcb⟩

/-- One request goes where it should. -/
theorem own_origin_get : remoteOut ((sampleSent getA.encode).history slot0) = getA.originForm ∧
    OwnOrigin ((sampleSent getA.encode).conn slot0) [getA]
      (remoteOut ((sampleSent getA.encode).history slot0)) :=
  ⟨by decide, own_origin (sampleSent_reach (by decide) (by decide) (by decide)) slot0 (by decide)
    (by decide) [getA] (by decide) (by decide)⟩

/-- A second request in the same read goes to the first one's origin, and is not rewritten. -/
theorem own_origin_fails : ¬ ∀ (L : Lwip) (s : State) (i : Slot) (rs : List HttpRequest),
    (engine L).Reach s → 0 ≤ (s.conn i).fd → (s.conn i).kind = .httpProxy →
    clientIn (s.history i) <+: rs.flatMap HttpRequest.encode →
    OwnOrigin (s.conn i) rs (remoteOut (s.history i)) := by
  intro hall
  obtain ⟨done, hdone, htarget, hout⟩ := hall sampleLwip (sampleSent (getA.encode ++ getB.encode))
    slot0 [getA, getB] (sampleSent_reach (by decide) (by decide) (by decide)) (by decide)
    (by decide) (by decide)
  -- the second request names another target, so at most the first one may have been handed on
  have hb : getB ∉ done := by
    intro hmem
    exact absurd (htarget getB hmem) (by decide)
  have hlen := hout.length_le
  have hsent : (remoteOut ((sampleSent (getA.encode ++ getB.encode)).history slot0)).length = 53 := by
    decide
  cases hdone with
  | cons _ h =>
    cases h with
    | cons _ h =>
      obtain rfl := List.sublist_nil.mp h
      rw [hsent] at hlen
      exact absurd hlen (by decide)
    | cons_cons _ h => exact hb List.mem_cons_self
  | cons_cons _ h =>
    cases h with
    | cons _ h =>
      obtain rfl := List.sublist_nil.mp h
      rw [hsent] at hlen
      exact absurd hlen (by decide)
    | cons_cons _ h => exact hb (List.mem_cons_of_mem _ List.mem_cons_self)

end PptpProxy
