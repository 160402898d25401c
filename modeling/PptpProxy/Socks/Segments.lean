/-
  How a SOCKS5 handshake may be cut into reads.

  `feed_local` keeps what a client of the SOCKS listener has sent in `header`, takes the greeting
  off as soon as it is complete, and goes on to the request in the SAME call.  What it makes of the
  bytes read so far is a function of these bytes alone (`handshake`), and that function is STABLE:
  once it says "rejected" or names a target, no further byte changes its mind.  The slot after any
  number of reads is computed from the bytes in the same way (`waitingSlot`, `targetSlot`), so the
  cut does not matter.
-/
import PptpProxy.Engine.Start
import PptpProxy.Engine.Streams

namespace PptpProxy

open CLib

/-! ## What the bytes say -/

/-- What a SOCKS client has said so far.  The length of a target is that of the whole handshake. -/
inductive Handshake
  | greeting | request | rejected
  | target (host : Bytes) (port : Int) (length : Nat)
  deriving DecidableEq, Repr

/-- The greeting is there, with all the methods it announces. -/
def greetingComplete (b : Bytes) : Bool := decide (2 ≤ b.length ∧ greetingLength b ≤ b.length)

/-- The greeting is one of version 5 and offers to go without authentication. -/
def greetingOffers (b : Bytes) : Bool :=
  b.getD 0 0 == 5 && ((b.take (greetingLength b)).drop 2).contains 0

/-- `set_target` turns the target down. -/
def badTarget (host : Bytes) (port : Int) : Prop :=
  host.length = 0 ∨ host.length ≥ 256 ∨ validPort port = false

instance (host : Bytes) (port : Int) : Decidable (badTarget host port) :=
  inferInstanceAs (Decidable (_ ∨ _ ∨ _))

theorem setTarget_bad {host : Bytes} {port : Int} (c : Connection) (h : badTarget host port) :
    setTarget c host port = none := if_pos h

theorem setTarget_good {host : Bytes} {port : Int} (c : Connection) (h : ¬ badTarget host port) :
    setTarget c host port = some { c with host := host, port := port } := if_neg h

/-- What the bytes behind a greeting of length `skipped` say. -/
def requestSays (skipped : Nat) : SocksRequest → Handshake
  | .wait => .request
  | .bad => .rejected
  | .target host port n => if badTarget host port then .rejected else .target host port (skipped + n)

theorem requestSays_bad {host : Bytes} {port : Int} (skipped n : Nat) (h : badTarget host port) :
    requestSays skipped (.target host port n) = .rejected := if_pos h

theorem requestSays_good {host : Bytes} {port : Int} (skipped n : Nat) (h : ¬ badTarget host port) :
    requestSays skipped (.target host port n) = .target host port (skipped + n) := if_neg h

/-- What the bytes of a client say. -/
def handshake (b : Bytes) : Handshake :=
  if greetingComplete b = false then .greeting
  else if greetingOffers b = false then .rejected
  else requestSays (greetingLength b) (decodeSocksRequest (b.drop (greetingLength b)))

/-- The client still has to say something. -/
def Handshake.waiting : Handshake → Bool
  | .greeting | .request => true
  | _ => false

/-! ### Further bytes do not change a decision -/

section

variable {b : Bytes}

/-- A request that is bad is bad whatever follows it. -/
theorem decodeSocksRequest_append_bad (h : decodeSocksRequest b = .bad) (t : Bytes) :
    decodeSocksRequest (b ++ t) = .bad := by
  unfold decodeSocksRequest at h
  split at h
  · rename_i b0 b1 b2 b3 rest
    simp only [List.cons_append, decodeSocksRequest]
    split at h
    · rename_i hhead
      rw [if_pos hhead]
    · rename_i hhead
      rw [if_neg hhead]
      split at h
      · split at h
        · cases h
        · cases h
      · rename_i hv4
        rw [if_neg hv4]
        split at h
        · rename_i hname
          rw [if_pos hname]
          split at h
          · cases h
          · rename_i k more
            rw [List.cons_append]
            dsimp only
            split at h
            · rename_i hk
              rw [if_pos hk]
            · split at h
              · cases h
              · cases h
        · rename_i hname
          rw [if_neg hname]
  · cases h

theorem greetingComplete_iff :
    greetingComplete b = true ↔ 2 ≤ b.length ∧ greetingLength b ≤ b.length := decide_eq_true_iff

theorem greetingComplete_append (h : greetingComplete b = true) (t : Bytes) :
    greetingComplete (b ++ t) = true := by
  obtain ⟨htwo, hlen⟩ := greetingComplete_iff.mp h
  rw [greetingComplete_iff, greetingLength_append htwo, List.length_append]
  omega

theorem greetingOffers_append (h : greetingComplete b = true) (t : Bytes) :
    greetingOffers (b ++ t) = greetingOffers b := by
  obtain ⟨htwo, hlen⟩ := greetingComplete_iff.mp h
  unfold greetingOffers
  rw [greetingLength_append htwo, List.getD_append _ _ _ _ (by omega),
    List.take_append_of_le_length hlen]

/-- Behind a complete greeting only the request grows. -/
theorem handshake_append (h : greetingComplete b = true) (t : Bytes) :
    handshake (b ++ t) =
      if greetingOffers b = false then .rejected
      else requestSays (greetingLength b) (decodeSocksRequest (b.drop (greetingLength b) ++ t)) := by
  obtain ⟨htwo, hlen⟩ := greetingComplete_iff.mp h
  unfold handshake
  rw [greetingComplete_append h, if_neg (by decide), greetingOffers_append h,
    greetingLength_append htwo, List.drop_append_of_le_length hlen]

/-- What a complete greeting and the bytes behind it say. -/
theorem handshake_complete (h : greetingComplete b = true) :
    handshake b =
      if greetingOffers b = false then .rejected
      else requestSays (greetingLength b) (decodeSocksRequest (b.drop (greetingLength b))) := by
  unfold handshake
  rw [h, if_neg (by decide)]

theorem handshake_incomplete (h : greetingComplete b = false) : handshake b = .greeting := by
  unfold handshake
  rw [if_pos h]

/-- A rejection is final. -/
theorem handshake_append_rejected (h : handshake b = .rejected) (t : Bytes) :
    handshake (b ++ t) = .rejected := by
  cases hc : greetingComplete b with
  | false =>
    rw [handshake_incomplete hc] at h
    cases h
  | true =>
    rw [handshake_complete hc] at h
    rw [handshake_append hc]
    split at h
    · rename_i hoffer
      rw [if_pos hoffer]
    · rename_i hoffer
      rw [if_neg hoffer]
      cases hd : decodeSocksRequest (b.drop (greetingLength b)) with
      | wait =>
        rw [hd] at h
        cases h
      | bad =>
        rw [decodeSocksRequest_append_bad hd]
        rfl
      | target host port n =>
        rw [hd] at h
        rw [(decodeSocksRequest_append hd t).2]
        exact h

/-- So is a target. -/
theorem handshake_append_target {host : Bytes} {port : Int} {n : Nat}
    (h : handshake b = .target host port n) (t : Bytes) :
    n ≤ b.length ∧ handshake (b ++ t) = .target host port n := by
  cases hc : greetingComplete b with
  | false =>
    rw [handshake_incomplete hc] at h
    cases h
  | true =>
    obtain ⟨-, hlen⟩ := greetingComplete_iff.mp hc
    rw [handshake_complete hc] at h
    rw [handshake_append hc]
    split at h
    · cases h
    · rename_i hoffer
      rw [if_neg hoffer]
      cases hd : decodeSocksRequest (b.drop (greetingLength b)) with
      | wait =>
        rw [hd] at h
        cases h
      | bad =>
        rw [hd] at h
        cases h
      | target host' port' n' =>
        rw [hd] at h
        obtain ⟨hn, hd'⟩ := decodeSocksRequest_append hd t
        rw [List.length_drop] at hn
        rw [hd']
        refine ⟨?_, h⟩
        unfold requestSays at h
        dsimp only at h
        split at h
        · cases h
        · obtain ⟨-, -, rfl⟩ := Handshake.target.inj h
          omega

end

/-! ## The slot after some bytes -/

/-- The slot once `b` was read, as long as the handshake is not complete. -/
def waitingSlot (fd : Int) (b : Bytes) : Connection :=
  if greetingComplete b = true then
    { Connection.accepted fd .socksProxy with
      header := b.drop (greetingLength b), toLocal := greetingOk, phase := .socksRequest }
  else { Connection.accepted fd .socksProxy with header := b }

/-- The slot that `start_connection` gets. -/
def targetSlot (fd : Int) (host : Bytes) (port : Int) (early : Bytes) : Connection :=
  { Connection.accepted fd .socksProxy with
    phase := .socksRequest, toLocal := greetingOk, host := host, port := port, toRemote := early }

/-- What one more read makes of the slot, `b` being all the bytes with those of the read. -/
structure Feeds (L : Lwip) (a : Answers) (fd : Int) (b : Bytes)
    (r : Connection × List Io × Bool) : Prop where
  waiting : (handshake b).waiting = true → ∃ io, AppendCalls io ∧ r = (waitingSlot fd b, io, true)
  rejected : handshake b = .rejected → ∃ c io, AppendCalls io ∧ r = (c, io, false)
  target : ∀ host port n, handshake b = .target host port n → ∃ io, AppendCalls io ∧
    r = ((startConnection L true a (targetSlot fd host port (b.drop n))).1,
      io ++ (startConnection L true a (targetSlot fd host port (b.drop n))).2, true)

section

variable {L : Lwip} {a : Answers} {fd : Int}

theorem Feeds.of_waiting {b : Bytes} {io : List Io} (h : (handshake b).waiting = true)
    (hio : AppendCalls io) : Feeds L a fd b (waitingSlot fd b, io, true) := by
  refine ⟨fun _ => ⟨io, hio, rfl⟩, fun h' => ?_, fun host port n h' => ?_⟩
  · rw [h'] at h
    cases h
  · rw [h'] at h
    cases h

theorem Feeds.of_rejected {b : Bytes} {io : List Io} (c : Connection) (h : handshake b = .rejected)
    (hio : AppendCalls io) : Feeds L a fd b (c, io, false) := by
  refine ⟨fun h' => ?_, fun _ => ⟨c, io, hio, rfl⟩, fun host port n h' => ?_⟩
  · rw [h] at h'
    cases h'
  · rw [h] at h'
    cases h'

theorem Feeds.of_target {b host : Bytes} {port : Int} {n : Nat} {io : List Io}
    (h : handshake b = .target host port n) (hio : AppendCalls io) :
    Feeds L a fd b ((startConnection L true a (targetSlot fd host port (b.drop n))).1,
      io ++ (startConnection L true a (targetSlot fd host port (b.drop n))).2, true) := by
  refine ⟨fun h' => ?_, fun h' => ?_, fun host' port' n' h' => ?_⟩
  · rw [h] at h'
    cases h'
  · rw [h] at h'
    cases h'
  · obtain ⟨rfl, rfl, rfl⟩ := Handshake.target.inj (h.symm.trans h')
    exact ⟨io, hio, rfl⟩

/-- An `append_bytes` call made before. -/
theorem Feeds.cons {b : Bytes} {r : Connection × List Io × Bool} {pre : List Io}
    (h : Feeds L a fd b r) (hpre : AppendCalls pre) :
    Feeds L a fd b (r.1, pre ++ r.2.1, r.2.2) := by
  refine ⟨fun hw => ?_, fun hr => ?_, fun host port n ht => ?_⟩
  · obtain ⟨io, hio, rfl⟩ := h.waiting hw
    exact ⟨pre ++ io, hpre.append hio, rfl⟩
  · obtain ⟨c, io, hio, rfl⟩ := h.rejected hr
    exact ⟨c, pre ++ io, hpre.append hio, rfl⟩
  · obtain ⟨io, hio, rfl⟩ := h.target host port n ht
    refine ⟨pre ++ io, hpre.append hio, ?_⟩
    rw [List.append_assoc]

/-- `parse_socks_request` behind a complete and acceptable greeting. -/
theorem parseSocksRequest_feeds {b : Bytes} (hc : greetingComplete b = true)
    (hoffer : greetingOffers b = true) (hlen : b.length < maxHeader + greetingLength b) :
    Feeds L a fd b (parseSocksRequest L true a (waitingSlot fd b)) := by
  have hslot : waitingSlot fd b = { Connection.accepted fd .socksProxy with
      header := b.drop (greetingLength b), toLocal := greetingOk, phase := .socksRequest } :=
    if_pos hc
  have hheader : (waitingSlot fd b).header = b.drop (greetingLength b) := by rw [hslot]
  have hshake := handshake_complete hc
  rw [hoffer, if_neg (by decide)] at hshake
  unfold parseSocksRequest
  rw [hheader]
  cases hd : decodeSocksRequest (b.drop (greetingLength b)) with
  | wait =>
    rw [hd] at hshake
    exact .of_waiting (by rw [hshake]; rfl) appendCalls_nil
  | bad =>
    rw [hd] at hshake
    exact .of_rejected _ hshake appendCalls_nil
  | target host port n =>
    rw [hd] at hshake
    dsimp only
    by_cases hbad : badTarget host port
    · rw [requestSays_bad _ _ hbad] at hshake
      rw [setTarget_bad _ hbad]
      exact .of_rejected _ hshake appendCalls_nil
    · rw [requestSays_good _ _ hbad] at hshake
      rw [setTarget_good _ hbad]
      dsimp only
      rw [hheader, List.drop_drop]
      have hempty : (waitingSlot fd b).toRemote = [] := by rw [hslot]; rfl
      have htarget : ∀ early, { waitingSlot fd b with
          host := host, port := port, toRemote := early, header := [] } =
          targetSlot fd host port early := by
        intro early
        rw [hslot]
        rfl
      split
      · rename_i hnone
        have hkeep : { waitingSlot fd b with host := host, port := port, header := [] } =
            targetSlot fd host port [] := by
          rw [hslot]
          rfl
        have h : Feeds L a fd b _ := .of_target hshake appendCalls_nil
        rw [hnone, ← hkeep] at h
        exact h
      · -- the early bytes come out of `header`, so they fit
        have hfit : ([] : Bytes).length + (b.drop (greetingLength b + n)).length ≤ bufferSize := by
          rw [List.length_drop, List.length_nil]
          simp only [maxHeader, bufferSize] at hlen ⊢
          omega
        rw [hempty, appendBytes_of_room hfit (by decide)]
        have h : Feeds L a fd b _ :=
          .of_target hshake (appendCalls_one [] (b.drop (greetingLength b + n)))
        rw [← htarget] at h
        exact h

/-- The greeting branch on a slot that has read `b` and no greeting before. -/
theorem feedGreeting_header (fd : Int) (b : Bytes) :
    feedGreeting { Connection.accepted fd .socksProxy with header := b } =
      if greetingComplete b = false then none
      else if greetingOffers b = false then
        some ({ Connection.accepted fd .socksProxy with header := b }, [], false)
      else some (waitingSlot fd b, [appendIo [] bufferSize greetingOk], true) := by
  unfold feedGreeting
  dsimp only
  cases hc : greetingComplete b with
  | false =>
    rw [if_pos rfl]
    split
    · rfl
    · rename_i htwo
      rw [if_pos]
      by_contra hlen
      have := greetingComplete_iff.mpr ⟨by omega, Nat.not_lt.mp hlen⟩
      rw [hc] at this
      cases this
  | true =>
    obtain ⟨htwo, hlen⟩ := greetingComplete_iff.mp hc
    have hlong : ¬ 2 + (b.getD 1 0).toNat > b.length := Nat.not_lt.mpr hlen
    rw [if_neg (Nat.not_lt.mpr htwo), if_neg hlong, if_neg (Bool.not_eq_false _ |>.mpr rfl)]
    cases ho : greetingOffers b with
    | false =>
      rw [if_pos rfl, if_pos]
      unfold greetingOffers at ho
      rw [Bool.and_eq_false_iff] at ho
      exact ho.imp (by simp) id
    | true =>
      unfold greetingOffers at ho
      rw [Bool.and_eq_true_iff, beq_iff_eq] at ho
      have hgood : ¬ (b.getD 0 0 ≠ 5 ∨
          ((b.take (2 + (b.getD 1 0).toNat)).drop 2).contains 0 = false) := by
        rintro (hversion | hmethods)
        · exact hversion ho.1
        · cases hmethods.symm.trans ho.2
      have hreply : localReply { Connection.accepted fd .socksProxy with header := b } greetingOk =
          some { Connection.accepted fd .socksProxy with header := b, toLocal := greetingOk } := by
        have hfit : ([] : Bytes).length + greetingOk.length ≤ bufferSize := by decide
        show (appendBytes [] bufferSize greetingOk).map _ = _
        rw [appendBytes_of_room hfit (by decide)]
        rfl
      rw [if_neg hgood, hreply]
      have hslot : waitingSlot fd b = { Connection.accepted fd .socksProxy with
          header := b.drop (greetingLength b), toLocal := greetingOk, phase := .socksRequest } :=
        if_pos hc
      rw [hslot]
      rfl

section

variable {c c' : Connection} {io : List Io}

/-! The greeting phase of `feed_local`, by what the greeting branch returns. -/

theorem feedHeader_unread (h : c.phase = .socksGreeting) (hg : feedGreeting c = none) :
    feedHeader L true a c = (c, [], true) := by
  unfold feedHeader
  rw [h, hg]

theorem feedHeader_refused (h : c.phase = .socksGreeting)
    (hg : feedGreeting c = some (c', io, false)) : feedHeader L true a c = (c', io, false) := by
  unfold feedHeader
  rw [h, hg]

theorem feedHeader_greeted (h : c.phase = .socksGreeting)
    (hg : feedGreeting c = some (c', io, true)) :
    feedHeader L true a c = ((parseSocksRequest L true a c').1,
      io ++ (parseSocksRequest L true a c').2.1, (parseSocksRequest L true a c').2.2) := by
  unfold feedHeader
  rw [h, hg]

end

/-- **One read of a waiting slot.** -/
theorem feedLocal_feeds {b d : Bytes} (hw : (handshake b).waiting = true)
    (hroom : (waitingSlot fd b).header.length + d.length < maxHeader) :
    Feeds L a fd (b ++ d) (feedLocal L true a (waitingSlot fd b) d) := by
  cases hc : greetingComplete b with
  | true =>
    obtain ⟨htwo, hlen⟩ := greetingComplete_iff.mp hc
    have hslot : waitingSlot fd b = { Connection.accepted fd .socksProxy with
        header := b.drop (greetingLength b), toLocal := greetingOk, phase := .socksRequest } :=
      if_pos hc
    have hoffer : greetingOffers b = true := by
      cases ho : greetingOffers b with
      | true => rfl
      | false =>
        rw [handshake_complete hc, ho] at hw
        cases hw
    have hc' := greetingComplete_append hc d
    have hnext : { waitingSlot fd b with header := (waitingSlot fd b).header ++ d } =
        waitingSlot fd (b ++ d) := by
      rw [hslot]
      unfold waitingSlot
      rw [if_pos hc', greetingLength_append htwo, List.drop_append_of_le_length hlen]
    have hphase : (waitingSlot fd b).phase = .socksRequest := by rw [hslot]
    have hphase' : (waitingSlot fd (b ++ d)).phase = .socksRequest := by rw [← hnext, hphase]
    rw [feedLocal_collecting (by rw [hphase]; rfl) hroom, hnext]
    unfold feedHeader
    rw [hphase']
    refine parseSocksRequest_feeds hc' (by rw [greetingOffers_append hc, hoffer]) ?_
    rw [hslot] at hroom
    dsimp only at hroom
    rw [List.length_drop] at hroom
    rw [greetingLength_append htwo, List.length_append]
    omega
  | false =>
    have hslot : waitingSlot fd b = { Connection.accepted fd .socksProxy with header := b } := by
      unfold waitingSlot
      rw [hc]
      rfl
    rw [hslot] at hroom ⊢
    have hlen : b.length + d.length < maxHeader := hroom
    rw [feedLocal_collecting rfl hlen]
    have hgreet := feedGreeting_header fd (b ++ d)
    cases hc' : greetingComplete (b ++ d) with
    | false =>
      rw [hc', if_pos rfl] at hgreet
      rw [feedHeader_unread rfl hgreet]
      have hnext : waitingSlot fd (b ++ d) =
          { Connection.accepted fd .socksProxy with header := b ++ d } := by
        unfold waitingSlot
        rw [hc']
        rfl
      have h : Feeds L a fd (b ++ d) _ :=
        .of_waiting (by rw [handshake_incomplete hc']; rfl) appendCalls_nil
      rw [hnext] at h
      exact h
    | true =>
      rw [hc', if_neg (by decide)] at hgreet
      cases ho : greetingOffers (b ++ d) with
      | false =>
        rw [ho, if_pos rfl] at hgreet
        rw [feedHeader_refused rfl hgreet]
        refine Feeds.of_rejected _ ?_ appendCalls_nil
        rw [handshake_complete hc', if_pos ho]
      | true =>
        -- the greeting is answered, and the bytes behind it are looked at in the same call
        rw [ho, if_neg (by decide)] at hgreet
        rw [feedHeader_greeted rfl hgreet]
        have hparse : Feeds L a fd (b ++ d) _ :=
          parseSocksRequest_feeds hc' ho (by rw [List.length_append]; omega)
        exact hparse.cons (appendCalls_one [] greetingOk)

end

/-! ## Reading piece by piece -/

/-- The pieces one after another through `feed_local`, with the link up; the loop stops at the first
    rejection and when the slot was closed. -/
def feedPieces (L : Lwip) (a : Answers) : Connection → List Bytes → Connection × List Io × Bool
  | c, [] => (c, [], true)
  | c, d :: ds =>
    if (feedLocal L true a c d).2.2 = false ∨ (feedLocal L true a c d).1.fd < 0 then
      feedLocal L true a c d
    else
      ((feedPieces L a (feedLocal L true a c d).1 ds).1,
        (feedLocal L true a c d).2.1 ++ (feedPieces L a (feedLocal L true a c d).1 ds).2.1,
        (feedPieces L a (feedLocal L true a c d).1 ds).2.2)

/-- No call of that loop hits the header capacity check. -/
def Roomy (L : Lwip) (a : Answers) : Connection → List Bytes → Prop
  | _, [] => True
  | c, d :: ds => (c.phase.relaying = false → c.header.length + d.length < maxHeader) ∧
      ((feedLocal L true a c d).2.2 = true → 0 ≤ (feedLocal L true a c d).1.fd →
        Roomy L a (feedLocal L true a c d).1 ds)

/-- A way of cutting the stream `s` of the SOCKS client `fd` into pieces. -/
structure Pieces (L : Lwip) (a : Answers) (fd : Int) (s : Bytes) (ds : List Bytes) : Prop where
  stream : ds.flatten = s
  nonempty : ∀ d ∈ ds, d ≠ []
  roomy : Roomy L a (Connection.accepted fd .socksProxy) ds

/-- What the whole stream `s` makes of a slot, whatever the pieces. -/
structure Ends (L : Lwip) (a : Answers) (fd : Int) (s : Bytes)
    (r : Connection × List Io × Bool) : Prop where
  waiting : (handshake s).waiting = true →
    r.2.2 = true ∧ r.1 = waitingSlot fd s ∧ startsIn r.2.1 = 0
  rejected : handshake s = .rejected → r.2.2 = false ∧ startsIn r.2.1 = 0
  target : ∀ host port n, handshake s = .target host port n → startsIn r.2.1 = 1 ∧
    if opens L a host = true ∧ bufferSize < (s.drop n).length then r.2.2 = false
    else r.2.2 = true ∧ r.1 = (startConnection L true a (targetSlot fd host port (s.drop n))).1

section

variable {L : Lwip} {a : Answers} {fd : Int}

theorem appendBytes_of_full {b src : Bytes} {capacity : Nat} (h : capacity < b.length + src.length)
    (hb : b.length ≤ capacity) (hcap : capacity < 2 ^ 64) : appendBytes b capacity src = none := by
  unfold appendBytes
  rw [sizeSub_of_le hb hcap, if_pos (by omega)]

/-- A slot that relays puts everything into `to_remote`, as long as it fits. -/
theorem feedPieces_relaying (ds : List Bytes) {c : Connection} (h0 : 0 ≤ c.fd)
    (hr : c.phase.relaying = true) (hfit : c.toRemote.length ≤ bufferSize) :
    AppendCalls (feedPieces L a c ds).2.1 ∧
    if bufferSize < c.toRemote.length + ds.flatten.length then (feedPieces L a c ds).2.2 = false
    else (feedPieces L a c ds).2.2 = true ∧
      (feedPieces L a c ds).1 = { c with toRemote := c.toRemote ++ ds.flatten } := by
  induction ds generalizing c with
  | nil =>
    rw [List.flatten_nil, if_neg (by rw [List.length_nil]; omega), List.append_nil]
    exact ⟨appendCalls_nil, rfl, rfl⟩
  | cons d ds ih =>
    have hphase : c.phase = .streaming ∨ c.phase = .connecting ∨ c.phase = .resolving := by
      cases h : c.phase with
      | resolving => exact Or.inr (Or.inr rfl)
      | connecting => exact Or.inr (Or.inl rfl)
      | streaming => exact Or.inl rfl
      | _ =>
        rw [h] at hr
        cases hr
    have hfeed : feedLocal L true a c d = feedStream c d := if_pos hphase
    rw [feedPieces, hfeed, List.flatten_cons, List.length_append]
    unfold feedStream
    by_cases hroom : c.toRemote.length + d.length ≤ bufferSize
    · rw [appendBytes_of_room hroom (by decide), if_neg (by simp only [not_or]; exact ⟨by decide, by omega⟩)]
      obtain ⟨happ, hend⟩ := ih (c := { c with toRemote := c.toRemote ++ d }) h0 hr
        (by rw [List.length_append]; exact hroom)
      refine ⟨(appendCalls_one _ _).append happ, ?_⟩
      dsimp only at hend ⊢
      rw [List.length_append, Nat.add_assoc, List.append_assoc] at hend
      exact hend
    · rw [appendBytes_of_full (Nat.not_le.mp hroom) hfit (by decide), if_pos (Or.inl rfl),
        if_pos (by omega)]
      exact ⟨appendCalls_one _ _, rfl⟩

theorem waitingSlot_fd (b : Bytes) : (waitingSlot fd b).fd = fd := by
  unfold waitingSlot
  split <;> rfl

theorem waitingSlot_relaying (b : Bytes) : (waitingSlot fd b).phase.relaying = false := by
  unfold waitingSlot
  split <;> rfl

/-- A greeting has at most 257 bytes; the rest is in `header`. -/
theorem length_le_waitingSlot (fd : Int) (b : Bytes) :
    b.length ≤ (waitingSlot fd b).header.length + 257 := by
  unfold waitingSlot
  split
  · have hn : greetingLength b ≤ 257 := by
      have := (b.getD 1 0).toNat_lt
      unfold greetingLength
      omega
    show b.length ≤ (b.drop (greetingLength b)).length + 257
    rw [List.length_drop]
    omega
  · exact Nat.le_add_right _ _

/-- `append_bytes` calls made before. -/
theorem Ends.cons {s : Bytes} {r : Connection × List Io × Bool} {pre : List Io}
    (h : Ends L a fd s r) (hpre : AppendCalls pre) : Ends L a fd s (r.1, pre ++ r.2.1, r.2.2) := by
  have hstarts : startsIn (pre ++ r.2.1) = startsIn r.2.1 := hpre.startsIn_left _
  refine ⟨fun hw => ?_, fun hr => ?_, fun host port n ht => ?_⟩
  · rw [hstarts]
    exact h.waiting hw
  · rw [hstarts]
    exact h.rejected hr
  · rw [hstarts]
    exact h.target host port n ht

/-- The pieces behind the one that completes the request. -/
theorem feedPieces_started {host early : Bytes} {port : Int} {io : List Io} (ds : List Bytes)
    (h0 : 0 ≤ fd) (hearly : early.length ≤ bufferSize) (hio : AppendCalls io)
    {c : Connection} {d : Bytes} (hfeed : feedLocal L true a c d =
      ((startConnection L true a (targetSlot fd host port early)).1,
        io ++ (startConnection L true a (targetSlot fd host port early)).2, true)) :
    startsIn (feedPieces L a c (d :: ds)).2.1 = 1 ∧
    if opens L a host = true ∧ bufferSize < (early ++ ds.flatten).length then
      (feedPieces L a c (d :: ds)).2.2 = false
    else (feedPieces L a c (d :: ds)).2.2 = true ∧ (feedPieces L a c (d :: ds)).1 =
      (startConnection L true a (targetSlot fd host port (early ++ ds.flatten))).1 := by
  have hphase : (targetSlot fd host port early).phase ≠ .connectionClosed := fun h => by cases h
  have hstarts : startsIn (io ++ (startConnection L true a (targetSlot fd host port early)).2) = 1 :=
    (hio.startsIn_left _).trans (startsIn_startConnection h0 hphase)
  have hmore : startConnection L true a (targetSlot fd host port (early ++ ds.flatten)) = _ :=
    startConnection_toRemote (L := L) (a := a) (c := targetSlot fd host port early)
      (early ++ ds.flatten) h0 hphase
  obtain ⟨-, -, -, hway, hgone⟩ := startConnection_dialled (L := L) (a := a)
    (c := targetSlot fd host port early) h0 hphase
  have hhost : (targetSlot fd host port early).host = host := rfl
  rw [hhost] at hway hgone hmore
  rw [feedPieces, hfeed]
  dsimp only
  cases hopen : opens L a host with
  | false =>
    -- the slot was closed: the loop stops, and what is still to come does not matter
    rw [if_pos (Or.inr (hgone hopen)), if_neg (fun h => by cases h.1), hmore, hopen]
    exact ⟨hstarts, rfl, rfl⟩
  | true =>
    obtain ⟨hfd, hrelay, hremote⟩ := hway hopen
    have hfd' : 0 ≤ (startConnection L true a (targetSlot fd host port early)).1.fd := by
      rw [hfd]
      exact h0
    obtain ⟨happ, hend⟩ := feedPieces_relaying (L := L) (a := a) ds hfd' hrelay
      (by rw [hremote]; exact hearly)
    rw [if_neg (by simp only [not_or]; exact ⟨by decide, by omega⟩)]
    refine ⟨(happ.startsIn_right _).trans hstarts, ?_⟩
    have hearly' : (targetSlot fd host port early).toRemote = early := rfl
    rw [hremote, hearly', ← List.length_append] at hend
    rw [hmore, hopen]
    dsimp only
    split
    · rename_i hfull
      rw [if_pos hfull.2] at hend
      exact hend
    · rename_i hroom
      rw [if_neg (fun h => hroom ⟨rfl, h⟩)] at hend
      exact hend

/-- **The pieces make of a slot what the whole stream says.** -/
theorem feedPieces_ends {b : Bytes} {ds : List Bytes} (h0 : 0 ≤ fd)
    (hw : (handshake b).waiting = true) (hroomy : Roomy L a (waitingSlot fd b) ds) :
    Ends L a fd (b ++ ds.flatten) (feedPieces L a (waitingSlot fd b) ds) := by
  induction ds generalizing b with
  | nil =>
    rw [List.flatten_nil, List.append_nil]
    refine ⟨fun _ => ⟨rfl, rfl, rfl⟩, fun h => ?_, fun host port n h => ?_⟩
    · rw [h] at hw
      cases hw
    · rw [h] at hw
      cases hw
  | cons d ds ih =>
    obtain ⟨hroom, hrest⟩ := hroomy
    have hroom := hroom (waitingSlot_relaying b)
    have hfeeds := feedLocal_feeds (L := L) (a := a) hw hroom
    rw [List.flatten_cons, ← List.append_assoc]
    by_cases hwait : (handshake (b ++ d)).waiting = true
    · obtain ⟨io, hio, hfeed⟩ := hfeeds.waiting hwait
      have hopen : 0 ≤ (waitingSlot fd (b ++ d)).fd := by
        rw [waitingSlot_fd]
        exact h0
      rw [hfeed] at hrest
      rw [feedPieces, hfeed, if_neg (by simp only [not_or]; exact ⟨by decide, by omega⟩)]
      exact (ih hwait (hrest rfl hopen)).cons hio
    cases hshake : handshake (b ++ d) with
    | greeting =>
      rw [hshake] at hwait
      exact absurd rfl hwait
    | request =>
      rw [hshake] at hwait
      exact absurd rfl hwait
    | rejected =>
      obtain ⟨c, io, hio, hfeed⟩ := hfeeds.rejected hshake
      have hwhole := handshake_append_rejected hshake ds.flatten
      rw [feedPieces, hfeed, if_pos (Or.inl rfl)]
      refine ⟨fun h => ?_, fun _ => ⟨rfl, hio.startsIn_eq⟩, fun host port n h => ?_⟩
      · rw [hwhole] at h
        cases h
      · rw [hwhole] at h
        cases h
    | target host port n =>
      obtain ⟨io, hio, hfeed⟩ := hfeeds.target host port n hshake
      obtain ⟨hn, hwhole⟩ := handshake_append_target hshake ds.flatten
      have hearly : ((b ++ d).drop n).length ≤ bufferSize := by
        have := length_le_waitingSlot fd b
        rw [List.length_drop, List.length_append]
        simp only [maxHeader, bufferSize] at hroom ⊢
        omega
      refine ⟨fun h => ?_, fun h => ?_, fun host' port' n' h => ?_⟩
      · rw [hwhole] at h
        cases h
      · rw [hwhole] at h
        cases h
      · obtain ⟨rfl, rfl, rfl⟩ := Handshake.target.inj (hwhole.symm.trans h)
        rw [List.drop_append_of_le_length hn]
        exact feedPieces_started ds h0 hearly hio hfeed

end

/-! ## Every cut gives the same -/

/-- Two ways to read a stream come to the same: both reject it, or neither does and the slots (with
    their phase, their target, the replies, what is for the remote and what is left of the handshake)
    are equal.  `start_connection` was called equally often. -/
structure SameOutcome (r r' : Connection × List Io × Bool) : Prop where
  rejected : r.2.2 = r'.2.2
  slot : r.2.2 = true → r.1 = r'.1
  starts : startsIn r.2.1 = startsIn r'.2.1
  once : startsIn r.2.1 ≤ 1

/-- **Segmentation does not matter.**  Two cuts of one stream of a SOCKS client, none of which runs
    into the header capacity check, come to the same. -/
theorem socks_segmentation {L : Lwip} {a : Answers} {fd : Int} (h0 : 0 ≤ fd) {s : Bytes}
    {ds ds' : List Bytes} (hcut : Pieces L a fd s ds) (hcut' : Pieces L a fd s ds') :
    SameOutcome (feedPieces L a (Connection.accepted fd .socksProxy) ds)
      (feedPieces L a (Connection.accepted fd .socksProxy) ds') := by
  have hend := feedPieces_ends (L := L) (a := a) (b := []) h0 rfl hcut.roomy
  have hend' := feedPieces_ends (L := L) (a := a) (b := []) h0 rfl hcut'.roomy
  have hstart : waitingSlot fd [] = Connection.accepted fd .socksProxy := rfl
  rw [List.nil_append, hcut.stream, hstart] at hend
  rw [List.nil_append, hcut'.stream, hstart] at hend'
  by_cases hwait : (handshake s).waiting = true
  · obtain ⟨hok, hslot, hstarts⟩ := hend.waiting hwait
    obtain ⟨hok', hslot', hstarts'⟩ := hend'.waiting hwait
    exact ⟨hok.trans hok'.symm, fun _ => hslot.trans hslot'.symm, hstarts.trans hstarts'.symm,
      by omega⟩
  cases hshake : handshake s with
  | greeting =>
    rw [hshake] at hwait
    exact absurd rfl hwait
  | request =>
    rw [hshake] at hwait
    exact absurd rfl hwait
  | rejected =>
    obtain ⟨hok, hstarts⟩ := hend.rejected hshake
    obtain ⟨hok', hstarts'⟩ := hend'.rejected hshake
    refine ⟨hok.trans hok'.symm, fun h => ?_, hstarts.trans hstarts'.symm, by omega⟩
    rw [hok] at h
    cases h
  | target host port n =>
    obtain ⟨hstarts, hrest⟩ := hend.target host port n hshake
    obtain ⟨hstarts', hrest'⟩ := hend'.target host port n hshake
    split at hrest
    · rename_i hfull
      rw [if_pos hfull] at hrest'
      refine ⟨hrest.trans hrest'.symm, fun h => ?_, hstarts.trans hstarts'.symm, by omega⟩
      rw [hrest] at h
      cases h
    · rename_i hroom
      rw [if_neg hroom] at hrest'
      exact ⟨hrest.1.trans hrest'.1.symm, fun _ => hrest.2.trans hrest'.2.symm,
        hstarts.trans hstarts'.symm, by omega⟩

/-- A greeting, a request for 10.0.0.1:80 and two bytes of payload. -/
def sampleSocks : Bytes := [5, 1, 0, 5, 1, 0, 1, 10, 0, 0, 1, 0, 80, 71, 69]

/-- In one piece, and with a cut in the middle of each of its parts. -/
theorem socks_segmentation_sample :
    SameOutcome (feedPieces sampleLwip (willing 0) (Connection.accepted 20 .socksProxy) [sampleSocks])
      (feedPieces sampleLwip (willing 0) (Connection.accepted 20 .socksProxy)
        [[5], [1, 0, 5, 1], [0, 1, 10, 0], [0, 1, 0], [80, 71], [69]]) := by
  refine socks_segmentation (s := sampleSocks) (by decide)
    ⟨by decide, List.all_iff_forall_prop.mp (by decide), ?_⟩
    ⟨by decide, List.all_iff_forall_prop.mp (by decide), ?_⟩
  · exact ⟨fun _ => by decide, fun _ _ => trivial⟩
  · exact ⟨fun _ => by decide, fun _ _ => ⟨fun _ => by decide, fun _ _ => ⟨fun _ => by decide,
      fun _ _ => ⟨fun _ => by decide, fun _ _ => ⟨fun _ => by decide, fun _ _ =>
        ⟨fun h => (by cases h), fun _ _ => trivial⟩⟩⟩⟩⟩⟩

end PptpProxy
