/-
  What the negotiation of MPPE comes to, whatever a peer sends: an answer of `ccp_reqci` fits into the
  buffer of the request it answers, an acknowledgement is that request, and over a whole run nothing is
  asked for or acknowledged that the settings refuse.

  The crux is `reqOption_ack`: an option that is acknowledged has one key length, that of the buffer, and
  one that is allowed.
-/
import PptpProxy.Ppp.Ccp

namespace PptpProxy.Ppp

open CLib

variable {sha1 : Bytes → Bytes}

/-! ## Bits and bytes -/

/-- No bit is set that cannot be sent. -/
structure Clean4 (o : MppeBits) : Prop where
  opt56 : o.opt56 = false
  mppc : o.mppc = false
  optD : o.optD = false
  unknown : o.unknown = false

/-- What can be sent comes back. -/
theorem mppeOf_sent (o : MppeBits) :
    mppeOf (mppeOption o) = some ⟨o.toMppeOptions, false, false, false, false⟩ := by
  obtain ⟨⟨opt128, opt40, stateful⟩, opt56, mppc, optD, unknown⟩ := o
  show mppeOf (mppeOption ⟨⟨opt128, opt40, stateful⟩, false, false, false, false⟩) =
    some ⟨⟨opt128, opt40, stateful⟩, false, false, false, false⟩
  revert opt128 opt40 stateful
  decide

theorem first_byte (c : UInt8) (h : c &&& ~~~0x01 = 0) :
    c = if decide (c &&& 0x01 = 0) then 0 else 1 := by
  have hall : ∀ x : BitVec 8, (⟨x⟩ : UInt8) &&& ~~~0x01 = 0 →
      (⟨x⟩ : UInt8) = if decide ((⟨x⟩ : UInt8) &&& 0x01 = 0) then 0 else 1 := by decide +kernel
  exact hall c.toBitVec h

theorem last_byte (c : UInt8) (h : c &&& ~~~0xf1 = 0) (h80 : c &&& 0x80 = 0) (h10 : c &&& 0x10 = 0)
    (h01 : c &&& 0x01 = 0) :
    c = (if decide (c &&& 0x40 ≠ 0) then 0x40 else 0) |||
      (if decide (c &&& 0x20 ≠ 0) then 0x20 else 0) := by
  have hall : ∀ x : BitVec 8, (⟨x⟩ : UInt8) &&& ~~~0xf1 = 0 → (⟨x⟩ : UInt8) &&& 0x80 = 0 →
      (⟨x⟩ : UInt8) &&& 0x10 = 0 → (⟨x⟩ : UInt8) &&& 0x01 = 0 →
      (⟨x⟩ : UInt8) = (if decide ((⟨x⟩ : UInt8) &&& 0x40 ≠ 0) then 0x40 else 0) |||
        (if decide ((⟨x⟩ : UInt8) &&& 0x20 ≠ 0) then 0x20 else 0) := by decide +kernel
  exact hall c.toBitVec h h80 h10 h01

/-- An option without stray bits is the one that would be sent for it. -/
theorem mppeOption_received {option : Bytes} {o : MppeBits} (hlen : option.length = 6)
    (ho : mppeOf option = some o) (hclean : Clean4 o) : option = mppeOption o := by
  match option, hlen with
  | [t, l, c0, c1, c2, c3], _ =>
    unfold mppeOf at ho
    split at ho
    · rename_i heq
      cases heq
      cases ho
      obtain ⟨h56, hmppc, hD, hunknown⟩ := hclean
      simp only [mppeCiToOpts, decide_eq_false_iff_not, not_or, not_not] at h56 hmppc hD hunknown
      obtain ⟨h0, h1, h2, h3⟩ := hunknown
      have hfirst := first_byte c0 h0
      have hlast := last_byte c3 h3 h56 hD hmppc
      unfold mppeOption mppeOptsToCi mppeCiToOpts
      rw [h1, h2]
      simp only [List.cons_append, List.nil_append, List.cons.injEq, true_and, and_true]
      exact ⟨hfirst, hlast⟩
    · cases ho

/-! ## An option of the peer -/

/-- Options that may be acknowledged: one key length that is allowed, and the stateful mode only if it is
    not refused. -/
structure Agreed (s : MppeSettings) (ao ho : MppeBits) : Prop where
  clean : Clean4 ho
  oneKey : ho.opt128 = !ho.opt40
  key128 : ho.opt128 = true → ao.opt128 = true
  key40 : ho.opt40 = true → ao.opt40 = true
  stateful : ho.stateful = true → s.refuseMppeStateful = false

theorem chooseKey_ack {ao ho ho' : MppeBits} {newret : Conf}
    (h : chooseKey ao ho newret = (.ack, ho')) :
    newret = .ack ∧ ho' = ho ∧ ho.opt128 = !ho.opt40 ∧ (ho.opt128 = true → ao.opt128 = true) ∧
      (ho.opt40 = true → ao.opt40 = true) := by
  unfold chooseKey at h
  cases h128 : ho.opt128 with
  | true =>
    cases h40 : ho.opt40 with
    | true =>
      simp only [h128, h40, Bool.and_self, if_true] at h
      split at h
      · cases h
      · split at h
        · cases h
        · cases h
    | false =>
      simp only [h128, h40, Bool.and_false, Bool.false_eq_true, if_false, if_true, Prod.mk.injEq] at h
      cases hao : ao.opt128 with
      | true =>
        simp only [hao, Bool.not_true, Bool.false_eq_true, if_false] at h
        exact ⟨h.1, h.2.symm, rfl, fun _ => rfl, (fun h' => by cases h')⟩
      | false =>
        simp only [hao, Bool.not_false, if_true] at h
        cases h.1
  | false =>
    cases h40 : ho.opt40 with
    | true =>
      simp only [h128, h40, Bool.false_and, Bool.false_eq_true, if_false, if_true,
        Prod.mk.injEq] at h
      cases hao : ao.opt40 with
      | true =>
        simp only [hao, Bool.not_true, Bool.false_eq_true, if_false] at h
        exact ⟨h.1, h.2.symm, rfl, (fun h' => by cases h'), fun _ => rfl⟩
      | false =>
        simp only [hao, Bool.not_false, if_true] at h
        cases h.1
    | false =>
      simp only [h128, h40, Bool.and_self, Bool.false_eq_true, if_false] at h
      cases h

theorem chooseMppe_ack {s : Ccp} {ho ho' : MppeBits} (h : chooseMppe s ho = (.ack, ho')) :
    ho' = ho ∧ Agreed s.settings s.allowoptions.mppe ho := by
  unfold chooseMppe at h
  by_cases hunsupported : (ho.opt56 || ho.mppc || ho.optD) = true
  · simp only [if_pos hunsupported] at h
    split at h
    · split at h
      · cases h
      · cases (chooseKey_ack h).1
    · split at h
      · cases h
      · cases (chooseKey_ack h).1
  · simp only [if_neg hunsupported] at h
    by_cases hunknown : ho.unknown = true
    · simp only [if_pos hunknown] at h
      split at h
      · cases h
      · cases (chooseKey_ack h).1
    · simp only [if_neg hunknown] at h
      by_cases hstateful : (ho.stateful && s.settings.refuseMppeStateful) = true
      · rw [if_pos hstateful] at h
        cases h
      · rw [if_neg hstateful] at h
        obtain ⟨-, heq, hone, h128, h40⟩ := chooseKey_ack h
        simp only [Bool.or_eq_true, not_or, Bool.not_eq_true] at hunsupported
        refine ⟨heq, ⟨⟨hunsupported.1.1, hunsupported.1.2, hunsupported.2, ?_⟩, hone, h128, h40, ?_⟩⟩
        · simpa using hunknown
        · intro hs
          simpa [hs] using hstateful

/-- An option that is acknowledged: nothing but the MPPE state, the peer's options and the MTU changes, and
    the buffer stays as it was. -/
theorem reqOption_ack {s s' : Ccp} {option option' : Bytes} {clear : Bool}
    (h : reqOption sha1 s option = (.ack, option', s', clear)) :
    ∃ ho, mppeOf option = some ho ∧ option = mppeOption ho ∧ option' = option ∧
      Agreed s.settings s.allowoptions.mppe ho ∧
      s' = { (s.setHis ho).initComp sha1 ho with mtu := s.mtu - 4 } := by
  unfold reqOption at h
  split at h
  · cases h
  · split at h
    · cases h
    · rename_i hlen
      cases hmppe : mppeOf option with
      | none =>
        rw [hmppe] at h
        cases h
      | some ho =>
        rw [hmppe] at h
        simp only at h
        cases hchoose : chooseMppe s ho with
        | mk newret ho' =>
          rw [hchoose] at h
          cases newret with
          | rej => cases h
          | nak => cases h
          | ack =>
            obtain ⟨rfl, hagreed⟩ := chooseMppe_ack hchoose
            have hoption := mppeOption_received (not_not.mp (not_or.mp hlen).2) hmppe hagreed.clean
            simp only [Ccp.acknowledge] at h
            split at h
            · cases h
              exact ⟨ho', rfl, hoption, hoption.symm, hagreed, rfl⟩
            · cases h

/-- What the answers to a peer leave alone. -/
structure Ccp.SameOptions (s s' : Ccp) : Prop where
  settings : s'.settings = s.settings
  want : s'.wantoptions = s.wantoptions
  got : s'.gotoptions = s.gotoptions
  allow : s'.allowoptions = s.allowoptions

theorem Ccp.SameOptions.refl (s : Ccp) : s.SameOptions s := ⟨rfl, rfl, rfl, rfl⟩

theorem Ccp.SameOptions.trans {s s' s'' : Ccp} (h : s.SameOptions s') (h' : s'.SameOptions s'') :
    s.SameOptions s'' :=
  ⟨h'.settings.trans h.settings, h'.want.trans h.want, h'.got.trans h.got, h'.allow.trans h.allow⟩

theorem reqOption_frame (s : Ccp) (option : Bytes) :
    (reqOption sha1 s option).2.1.length = option.length ∧
      s.SameOptions (reqOption sha1 s option).2.2.1 := by
  unfold reqOption
  split
  · exact ⟨rfl, Ccp.SameOptions.refl s⟩
  · split
    · exact ⟨rfl, Ccp.SameOptions.refl s⟩
    · rename_i hlen
      have hsix : option.length = 6 := not_not.mp (not_or.mp hlen).2
      split
      · exact ⟨rfl, Ccp.SameOptions.refl s⟩
      · split
        · exact ⟨rfl, ⟨rfl, rfl, rfl, rfl⟩⟩
        · exact ⟨hsix.symm, ⟨rfl, rfl, rfl, rfl⟩⟩
        · simp only [Ccp.acknowledge]
          split
          · exact ⟨hsix.symm, ⟨rfl, rfl, rfl, rfl⟩⟩
          · exact ⟨hsix.symm, ⟨rfl, rfl, rfl, rfl⟩⟩

/-! ## The loop over the options -/

theorem ReqLoop.put_kept (r : ReqLoop) (newret : Conf) (option : Bytes) :
    (r.put newret option).kept = r.kept ++ option ∧ (r.put newret option).ccp = r.ccp := by
  unfold ReqLoop.put
  split
  · exact ⟨rfl, rfl⟩
  · exact ⟨rfl, rfl⟩

theorem ReqLoop.put_ack {r : ReqLoop} {newret : Conf} {option : Bytes}
    (h : (r.put newret option).ret = .ack) : r.ret = .ack ∧ newret = .ack := by
  unfold ReqLoop.put at h
  split at h
  · rename_i hkeep
    have hret : r.ret = .ack := h
    refine ⟨hret, ?_⟩
    rcases hkeep with hack | ⟨-, hrej⟩
    · exact hack
    · exact absurd (hret.symm.trans hrej) (by decide)
  · rename_i hreturn
    exact absurd (Or.inl h) hreturn

/-- What is returned is no longer than what has been read. -/
theorem ReqLoop.put_returned {r : ReqLoop} (hr : r.returned.length ≤ r.kept.length) (newret : Conf)
    (option : Bytes) :
    (r.put newret option).returned.length ≤ (r.put newret option).kept.length := by
  unfold ReqLoop.put
  split
  · show r.returned.length ≤ (r.kept ++ option).length
    rw [List.length_append]
    omega
  · show ((if _ then [] else r.returned) ++ option).length ≤ (r.kept ++ option).length
    rw [List.length_append, List.length_append]
    split
    · show 0 + option.length ≤ r.kept.length + option.length
      omega
    · omega

theorem ReqLoop.turn_kept (r : ReqLoop) (dontNak : Bool) (x : Conf × Bytes × Ccp × Bool) :
    (r.turn dontNak x).kept = r.kept ++ x.2.1 ∧ (r.turn dontNak x).ccp = x.2.2.1 := by
  obtain ⟨newret, option, ccp, clear⟩ := x
  exact ReqLoop.put_kept _ _ _

theorem Conf.settle_ack {newret : Conf} {dontNak : Bool} (h : newret.settle dontNak = .ack) :
    newret = .ack := by
  unfold Conf.settle at h
  split at h
  · cases h
  · exact h

theorem ReqLoop.turn_ack {r : ReqLoop} {dontNak : Bool} {x : Conf × Bytes × Ccp × Bool}
    (h : (r.turn dontNak x).ret = .ack) : r.ret = .ack ∧ x.1 = .ack := by
  obtain ⟨newret, option, ccp, clear⟩ := x
  obtain ⟨hret, hsettle⟩ := ReqLoop.put_ack h
  exact ⟨hret, Conf.settle_ack hsettle⟩

theorem ReqLoop.turn_returned {r : ReqLoop} (hr : r.returned.length ≤ r.kept.length) (dontNak : Bool)
    (x : Conf × Bytes × Ccp × Bool) :
    (r.turn dontNak x).returned.length ≤ (r.turn dontNak x).kept.length := by
  obtain ⟨newret, option, ccp, clear⟩ := x
  exact @ReqLoop.put_returned
    { r with ccp := ccp, rejForCiMppe := r.rejForCiMppe && !clear } hr _ _

theorem optionLength_le {p : Bytes} {clen : Nat} (h : optionLength p = some clen) :
    2 ≤ clen ∧ clen ≤ p.length := by
  unfold optionLength at h
  split at h
  · split at h
    · cases h
    · rename_i hsound
      cases h
      omega
  · cases h

theorem reqLoop_option {dontNak : Bool} {fuel : Nat} {r : ReqLoop} {p : Bytes} {clen : Nat}
    (hp : p ≠ []) (hlen : optionLength p = some clen) :
    reqLoop sha1 dontNak (fuel + 1) r p =
      reqLoop sha1 dontNak fuel (r.turn dontNak (reqOption sha1 r.ccp (p.take clen)))
        (p.drop clen) := by
  rw [reqLoop, if_neg hp, hlen]

theorem reqLoop_bad {dontNak : Bool} {fuel : Nat} {r : ReqLoop} {p : Bytes} (hp : p ≠ [])
    (hlen : optionLength p = none) :
    reqLoop sha1 dontNak (fuel + 1) r p = r.turn dontNak (.rej, p, r.ccp, false) := by
  rw [reqLoop, if_neg hp, hlen]

theorem reqLoop_end (dontNak : Bool) (fuel : Nat) (r : ReqLoop) :
    reqLoop sha1 dontNak fuel r [] = r := by
  cases fuel with
  | zero => rfl
  | succ fuel => rw [reqLoop, if_pos rfl]

/-- Whatever the options are: the variables stay what they are for. -/
theorem reqLoop_frame (dontNak : Bool) (fuel : Nat) (r : ReqLoop) (p : Bytes) (hfuel : p.length ≤ fuel)
    (hr : r.returned.length ≤ r.kept.length) :
    (reqLoop sha1 dontNak fuel r p).kept.length = r.kept.length + p.length ∧
      (reqLoop sha1 dontNak fuel r p).returned.length ≤
        (reqLoop sha1 dontNak fuel r p).kept.length ∧
      r.ccp.SameOptions (reqLoop sha1 dontNak fuel r p).ccp := by
  induction fuel generalizing r p with
  | zero =>
    have hzero : p.length = 0 := by omega
    rw [hzero]
    exact ⟨rfl, hr, Ccp.SameOptions.refl r.ccp⟩
  | succ fuel ih =>
    by_cases hp : p = []
    · rw [hp, reqLoop_end]
      exact ⟨rfl, hr, Ccp.SameOptions.refl r.ccp⟩
    · cases hlen : optionLength p with
      | none =>
        rw [reqLoop_bad hp hlen]
        obtain ⟨hkept, hccp⟩ := r.turn_kept dontNak (.rej, p, r.ccp, false)
        refine ⟨?_, r.turn_returned hr dontNak _, ?_⟩
        · rw [hkept, List.length_append]
        · rw [hccp]
          exact Ccp.SameOptions.refl r.ccp
      | some clen =>
        rw [reqLoop_option hp hlen]
        obtain ⟨htwo, hle⟩ := optionLength_le hlen
        obtain ⟨hoption, hsame⟩ := @reqOption_frame sha1 r.ccp (p.take clen)
        obtain ⟨hkept, hccp⟩ := r.turn_kept dontNak (reqOption sha1 r.ccp (p.take clen))
        have hrest : (p.drop clen).length ≤ fuel := by
          rw [List.length_drop]
          omega
        obtain ⟨hlength, hreturned, hframe⟩ := ih (r.turn dontNak (reqOption sha1 r.ccp (p.take clen)))
          (p.drop clen) hrest (r.turn_returned hr dontNak _)
        refine ⟨?_, hreturned, ?_⟩
        · rw [hlength, hkept, List.length_append, hoption, List.length_take, List.length_drop]
          omega
        · rw [hccp] at hframe
          exact hsame.trans hframe

theorem reqLoop_ret (dontNak : Bool) (fuel : Nat) (r : ReqLoop) (p : Bytes)
    (h : (reqLoop sha1 dontNak fuel r p).ret = .ack) : r.ret = .ack := by
  induction fuel generalizing r p with
  | zero => exact h
  | succ fuel ih =>
    unfold reqLoop at h
    split at h
    · exact h
    · split at h
      · exact (ReqLoop.turn_ack h).1
      · exact (ReqLoop.turn_ack (ih _ _ h)).1

/-- All options acknowledged: the buffer is as it was, and the peer's options are the last one's. -/
theorem reqLoop_ack (dontNak : Bool) (fuel : Nat) (r : ReqLoop) (p : Bytes) (hfuel : p.length ≤ fuel)
    (hr : r.kept = [] ∨ Agreed r.ccp.settings r.ccp.allowoptions.mppe r.ccp.hisoptions.mppe)
    (h : (reqLoop sha1 dontNak fuel r p).ret = .ack) :
    (reqLoop sha1 dontNak fuel r p).kept = r.kept ++ p ∧
      (r.kept ++ p = [] ∨
        Agreed r.ccp.settings r.ccp.allowoptions.mppe
          (reqLoop sha1 dontNak fuel r p).ccp.hisoptions.mppe) := by
  induction fuel generalizing r p with
  | zero =>
    have hzero : p = [] := List.length_eq_zero_iff.mp (by omega)
    rw [hzero, List.append_nil]
    exact ⟨rfl, hr⟩
  | succ fuel ih =>
    by_cases hp : p = []
    · rw [hp, reqLoop_end, List.append_nil]
      exact ⟨rfl, hr⟩
    · cases hlen : optionLength p with
      | none =>
        rw [reqLoop_bad hp hlen] at h
        cases (ReqLoop.turn_ack h).2
      | some clen =>
        rw [reqLoop_option hp hlen] at h ⊢
        obtain ⟨htwo, hle⟩ := optionLength_le hlen
        have hrest : (p.drop clen).length ≤ fuel := by
          rw [List.length_drop]
          omega
        obtain ⟨hkept, hccp⟩ := r.turn_kept dontNak (reqOption sha1 r.ccp (p.take clen))
        have hturn := reqLoop_ret dontNak fuel _ _ h
        have hack := (ReqLoop.turn_ack hturn).2
        have hframe := (@reqOption_frame sha1 r.ccp (p.take clen)).2
        generalize hoption : reqOption sha1 r.ccp (p.take clen) = x at hack hframe hkept hccp h ⊢
        obtain ⟨newret, option, ccp, clear⟩ := x
        obtain rfl : newret = .ack := hack
        obtain ⟨ho, -, hsent, hsame, hagreed, hstate⟩ := reqOption_ack hoption
        have hnext : Agreed (r.turn dontNak (.ack, option, ccp, clear)).ccp.settings
            (r.turn dontNak (.ack, option, ccp, clear)).ccp.allowoptions.mppe
            (r.turn dontNak (.ack, option, ccp, clear)).ccp.hisoptions.mppe := by
          rw [hccp]
          show Agreed ccp.settings ccp.allowoptions.mppe ccp.hisoptions.mppe
          rw [hframe.settings, hframe.allow, hstate]
          exact hagreed
        obtain ⟨hloop, hlast⟩ := ih _ _ hrest (Or.inr hnext) h
        have hsplit : r.kept ++ p.take clen ++ p.drop clen = r.kept ++ p := by
          rw [List.append_assoc, List.take_append_drop]
        have hmiddle : (r.turn dontNak (.ack, option, ccp, clear)).kept ++ p.drop clen =
            r.kept ++ p := by
          rw [hkept]
          show r.kept ++ option ++ p.drop clen = _
          rw [hsame]
          exact hsplit
        rw [hmiddle] at hloop hlast
        refine ⟨hloop, ?_⟩
        rw [hccp] at hlast
        rcases hlast with hempty | hlast
        · exact Or.inl hempty
        · refine Or.inr ?_
          rw [← hframe.settings, ← hframe.allow]
          exact hlast

/-! ## Answers -/

/-- The loop as `ccp_reqci` starts it. -/
def reqStart (s : Ccp) (p : Bytes) : ReqLoop :=
  ⟨{ s with hisoptions := ⟨MppeBits.none, p.headD 0⟩ }, .ack, [], [], true⟩

theorem ccpReqci_ack {s : Ccp} {p : Bytes} {dontNak : Bool}
    (h : (ccpReqci sha1 s p dontNak).1 = .ack) :
    (reqLoop sha1 dontNak p.length (reqStart s p) p).ret = .ack ∧
      ccpReqci sha1 s p dontNak = (.ack, (reqLoop sha1 dontNak p.length (reqStart s p) p).kept,
        (reqLoop sha1 dontNak p.length (reqStart s p) p).ccp) := by
  unfold ccpReqci at h ⊢
  simp only at h ⊢
  split at h
  · rename_i hret
    have hret' : (reqLoop sha1 dontNak p.length (reqStart s p) p).ret = .ack := hret
    exact ⟨hret', rfl⟩
  · cases h
  · cases h

/-- An acknowledgement is the request, byte by byte, and no answer is longer than the request in whose
    buffer it is built. -/
theorem reqci_answer (sha1 : Bytes → Bytes) (s : Ccp) (p : Bytes) (dontNak : Bool) :
    ((ccpReqci sha1 s p dontNak).1 = .ack → (ccpReqci sha1 s p dontNak).2.1 = p) ∧
      (ccpReqci sha1 s p dontNak).2.1.length ≤ p.length := by
  obtain ⟨hkept, hreturned, -⟩ := @reqLoop_frame sha1 dontNak p.length (reqStart s p) p
    (Nat.le_refl _) (Nat.le_refl _)
  have hlength : (reqLoop sha1 dontNak p.length (reqStart s p) p).kept.length = p.length :=
    hkept.trans (Nat.zero_add _)
  constructor
  · intro h
    obtain ⟨hret, heq⟩ := ccpReqci_ack h
    rw [heq]
    exact (reqLoop_ack dontNak p.length (reqStart s p) p (Nat.le_refl _) (Or.inl rfl) hret).1
  · unfold ccpReqci
    simp only
    split
    · exact Nat.le_of_eq hlength
    · exact hreturned.trans (Nat.le_of_eq hlength)
    · exact hreturned.trans (Nat.le_of_eq hlength)

/-! ## Runs -/

/-- What the state machine calls, in any order, and what changes besides. -/
inductive CcpCall
  | resetci
  | addci
  | nakci (p : Bytes)
  | rejci (p : Bytes)
  | reqci (p : Bytes) (dontNak : Bool)
  | become (authDone : AuthDone) (mppeKeysSet : Bool) (mtu : BitVec 16) (state : FsmState)
  deriving Repr

/-- What is asked for, and what is acknowledged. -/
inductive CcpNote
  | requested (o : MppeBits)
  | acknowledged (o : MppeBits)
  deriving DecidableEq, Repr

def CcpCall.run (sha1 : Bytes → Bytes) (s : Ccp) : CcpCall → List CcpNote × Ccp
  | .resetci => ([], ccpResetci s)
  | .addci => ([.requested s.gotoptions.mppe], (ccpAddci sha1 s).2)
  | .nakci p => ([], (ccpNakci s p).2)
  | .rejci p => ([], (ccpRejci s p).2)
  | .reqci p dontNak =>
    let r := ccpReqci sha1 s p dontNak
    (if r.1 = .ack ∧ p ≠ [] then [.acknowledged r.2.2.hisoptions.mppe] else [], r.2.2)
  | .become authDone mppeKeysSet mtu state =>
    ([], { s with authDone := authDone, mppeKeysSet := mppeKeysSet, mtu := mtu, state := state })

def ccpRun (sha1 : Bytes → Bytes) (s : Ccp) : List CcpCall → List CcpNote
  | [] => []
  | call :: calls => (call.run sha1 s).1 ++ ccpRun sha1 (call.run sha1 s).2 calls

/-- Options that the settings allow. -/
structure Allowed (s : MppeSettings) (o : MppeBits) : Prop where
  clean : Clean4 o
  key128 : o.opt128 = true → s.refuseMppe128 = false
  key40 : o.opt40 = true → s.refuseMppe40 = false
  stateful : o.stateful = true → s.refuseMppeStateful = false

/-- Something is asked for that is allowed; what is acknowledged has a single key length, too. -/
def CcpNote.Fine (s : MppeSettings) : CcpNote → Prop
  | .requested o => Allowed s o
  | .acknowledged o => Allowed s o ∧ o.opt128 = !o.opt40

/-- All options at hand are allowed by the settings `t`. -/
structure Tame (t : MppeSettings) (s : Ccp) : Prop where
  settings : s.settings = t
  want : Allowed t s.wantoptions.mppe
  got : Allowed t s.gotoptions.mppe
  allow : Allowed t s.allowoptions.mppe

theorem allowed_none (t : MppeSettings) : Allowed t MppeBits.none :=
  ⟨⟨rfl, rfl, rfl, rfl⟩, (fun h => by cases h), (fun h => by cases h), (fun h => by cases h)⟩

theorem allowed_bits (t : MppeSettings) : Allowed t t.bits :=
  ⟨⟨rfl, rfl, rfl, rfl⟩, (fun h => by simpa [MppeSettings.bits] using h),
    (fun h => by simpa [MppeSettings.bits] using h), (fun h => by cases h)⟩

theorem Allowed.drop40 {t : MppeSettings} {o : MppeBits} (h : Allowed t o) :
    Allowed t { o with opt40 := false } :=
  ⟨⟨h.clean.opt56, h.clean.mppc, h.clean.optD, h.clean.unknown⟩, h.key128, (fun h' => by cases h'),
    h.stateful⟩

/-- What is agreed on is allowed. -/
theorem Agreed.allowed {t : MppeSettings} {ao ho : MppeBits} (h : Agreed t ao ho) (hao : Allowed t ao) :
    Allowed t ho :=
  ⟨h.clean, fun h' => hao.key128 (h.key128 h'), fun h' => hao.key40 (h.key40 h'), h.stateful⟩

theorem Tame.lcpClose {t : MppeSettings} {s : Ccp} (h : Tame t s) : Tame t s.lcpClose :=
  ⟨h.settings, h.want, h.got, h.allow⟩

theorem Tame.same {t : MppeSettings} {s s' : Ccp} (h : Tame t s) (hsame : s.SameOptions s') :
    Tame t s' := by
  refine ⟨hsame.settings.trans h.settings, ?_, ?_, ?_⟩
  · rw [hsame.want]
    exact h.want
  · rw [hsame.got]
    exact h.got
  · rw [hsame.allow]
    exact h.allow

theorem Tame.dropLm {t : MppeSettings} {s : Ccp} (h : Tame t s) : Tame t s.dropLm := by
  unfold Ccp.dropLm
  split
  · exact ⟨h.settings, h.want.drop40, h.got.drop40, h.allow⟩
  · exact h

theorem Tame.resetci {t : MppeSettings} {s : Ccp} (h : Tame t s) : Tame t (ccpResetci s) := by
  unfold ccpResetci
  extract_lets _ _ wished started dropped
  have hwished : Tame t wished := by
    show Tame t (if s.settings.requireMppe then _ else s)
    split
    · obtain rfl := h.settings
      exact ⟨rfl, allowed_bits s.settings, h.got, allowed_bits s.settings⟩
    · exact h
  have hstarted : Tame t started :=
    ⟨hwished.settings, hwished.want, hwished.want, hwished.allow⟩
  have hdropped : Tame t dropped := hstarted.dropLm
  split
  · exact hstarted
  · split
    · exact hstarted.lcpClose
    · split
      · exact hstarted.lcpClose
      · split
        · exact hstarted.lcpClose
        · split
          · exact hdropped.lcpClose
          · exact ⟨hdropped.settings, hdropped.want, hdropped.got, hdropped.got⟩

theorem Tame.addci {t : MppeSettings} {s : Ccp} (h : Tame t s) : Tame t (ccpAddci sha1 s).2 := by
  unfold ccpAddci
  split
  · exact ⟨h.settings, h.want, h.got, h.allow⟩
  · exact ⟨h.settings, h.want, h.got, h.allow⟩

/-- What is taken over from a peer has been asked for, apart from the stateful mode. -/
theorem nakTry_allowed {t : MppeSettings} {s : Ccp} (h : Tame t s) (suggested : MppeBits) :
    Allowed t (nakTry s suggested) := by
  unfold nakTry
  split
  · exact allowed_none t
  · rename_i hstateful
    split
    · exact allowed_none t
    · rename_i hwithin
      obtain ⟨hclean, h128, h40, -⟩ := h.got
      obtain ⟨h56, hmppc, hD, hunknown⟩ := hclean
      simp only [MppeBits.within, h56, hmppc, hD, hunknown, Bool.not_eq_false, Bool.and_eq_true,
        Bool.or_eq_true, Bool.not_eq_eq_eq_not, Bool.not_true, Bool.or_false]
        at hwithin
      obtain ⟨⟨⟨⟨⟨⟨hs40, hs128⟩, -⟩, hs56⟩, hsmppc⟩, hsD⟩, hsunknown⟩ := hwithin
      refine ⟨⟨hs56, hsmppc, hsD, hsunknown⟩, ?_, ?_, ?_⟩
      · intro hs
        rcases hs128 with hno | hyes
        · rw [hs] at hno
          cases hno
        · exact h128 hyes
      · intro hs
        rcases hs40 with hno | hyes
        · rw [hs] at hno
          cases hno
        · exact h40 hyes
      · intro hs
        rw [hs, Bool.true_and, h.settings] at hstateful
        exact Bool.eq_false_iff.mpr hstateful

/-- What `ccp_nakci` changes: whether the link is closed, and the options to ask for. -/
theorem ccpNakci_cases (s : Ccp) (p : Bytes) :
    ∃ (closing : Bool) (wanted : MppeBits),
      (ccpNakci s p).2 =
        { s with closing := closing, gotoptions := { s.gotoptions with mppe := wanted } } ∧
      (s.closing = true → closing = true) ∧
      (wanted = s.gotoptions.mppe ∨ ∃ suggested, wanted = nakTry s suggested) := by
  have hput : ∀ (closing : Bool) (wanted : MppeBits), (s.closing = true → closing = true) →
      (wanted = s.gotoptions.mppe ∨ ∃ suggested, wanted = nakTry s suggested) →
      ∃ (closing' : Bool) (wanted' : MppeBits),
        (if { s with closing := closing }.state ≠ .opened then
            { s with closing := closing, gotoptions := { s.gotoptions with mppe := wanted } }
          else { s with closing := closing }) =
          { s with closing := closing', gotoptions := { s.gotoptions with mppe := wanted' } } ∧
        (s.closing = true → closing' = true) ∧
        (wanted' = s.gotoptions.mppe ∨ ∃ suggested, wanted' = nakTry s suggested) := by
    intro closing wanted hclosing hwanted
    split
    · exact ⟨closing, wanted, rfl, hclosing, hwanted⟩
    · exact ⟨closing, s.gotoptions.mppe, rfl, hclosing, Or.inl rfl⟩
  unfold ccpNakci
  split
  rename_i s' wanted heq
  split at heq
  · split at heq
    · rename_i suggested _
      cases heq
      split
      · exact hput true _ (fun _ => rfl) (Or.inr ⟨suggested, rfl⟩)
      · exact hput s.closing _ id (Or.inr ⟨suggested, rfl⟩)
    · cases heq
      exact hput s.closing _ id (Or.inl rfl)
  · cases heq
    exact hput s.closing _ id (Or.inl rfl)

theorem Tame.nakci {t : MppeSettings} {s : Ccp} (h : Tame t s) (p : Bytes) :
    Tame t (ccpNakci s p).2 := by
  obtain ⟨closing, wanted, heq, -, hwanted⟩ := ccpNakci_cases s p
  rw [heq]
  refine ⟨h.settings, h.want, ?_, h.allow⟩
  rcases hwanted with rfl | ⟨suggested, rfl⟩
  · exact h.got
  · exact nakTry_allowed h suggested

/-- What `ccp_rejci` changes. -/
theorem ccpRejci_cases (s : Ccp) (p : Bytes) :
    (ccpRejci s p).2 = s ∨ (ccpRejci s p).2 = s.lcpClose := by
  unfold ccpRejci
  split
  · exact Or.inl rfl
  · split
    rename_i s' p' heq
    split at heq
    · cases heq
      split
      · exact Or.inr rfl
      · exact Or.inr rfl
    · cases heq
      split
      · exact Or.inl rfl
      · exact Or.inl rfl

theorem Tame.rejci {t : MppeSettings} {s : Ccp} (h : Tame t s) (p : Bytes) :
    Tame t (ccpRejci s p).2 := by
  rcases ccpRejci_cases s p with heq | heq
  · rw [heq]
    exact h
  · rw [heq]
    exact h.lcpClose

theorem ccpReqci_same (s : Ccp) (p : Bytes) (dontNak : Bool) :
    s.SameOptions (ccpReqci sha1 s p dontNak).2.2 := by
  obtain ⟨-, -, hsame⟩ := @reqLoop_frame sha1 dontNak p.length (reqStart s p) p (Nat.le_refl _)
    (Nat.le_refl _)
  have hstart : s.SameOptions (reqStart s p).ccp := ⟨rfl, rfl, rfl, rfl⟩
  have hloop := hstart.trans hsame
  unfold ccpReqci
  extract_lets started r _ s'
  split
  · exact hloop
  · exact hloop
  · have hs' : s.SameOptions s' := by
      show s.SameOptions (if p.length = r.returned.length then _ else r.ccp)
      split
      · exact ⟨hloop.settings, hloop.want, hloop.got, hloop.allow⟩
      · exact hloop
    show s.SameOptions (if _ then _ else s')
    split
    · exact ⟨hs'.settings, hs'.want, hs'.got, hs'.allow⟩
    · exact hs'

/-- A request that is acknowledged: the options that hold from then on are agreed on. -/
theorem ccpReqci_agreed {s : Ccp} {p : Bytes} {dontNak : Bool} (hp : p ≠ [])
    (h : (ccpReqci sha1 s p dontNak).1 = .ack) :
    Agreed s.settings s.allowoptions.mppe (ccpReqci sha1 s p dontNak).2.2.hisoptions.mppe := by
  obtain ⟨hret, heq⟩ := ccpReqci_ack h
  rw [heq]
  obtain ⟨-, hempty | hagreed⟩ := reqLoop_ack dontNak p.length (reqStart s p) p (Nat.le_refl _)
    (Or.inl rfl) hret
  · exact absurd hempty hp
  · exact hagreed

/-- One call: the options stay allowed, and so are those that are asked for or acknowledged. -/
theorem Tame.call {t : MppeSettings} {s : Ccp} (h : Tame t s) (call : CcpCall) :
    Tame t (call.run sha1 s).2 ∧ ∀ note ∈ (call.run sha1 s).1, note.Fine t := by
  cases call with
  | resetci => exact ⟨h.resetci, fun note hnote => by cases hnote⟩
  | addci =>
    refine ⟨h.addci, fun note hnote => ?_⟩
    obtain rfl := List.mem_singleton.mp hnote
    exact h.got
  | nakci p => exact ⟨h.nakci p, fun note hnote => by cases hnote⟩
  | rejci p => exact ⟨h.rejci p, fun note hnote => by cases hnote⟩
  | reqci p dontNak =>
    refine ⟨h.same (ccpReqci_same s p dontNak), fun note hnote => ?_⟩
    have hnote' : note ∈ (if (ccpReqci sha1 s p dontNak).1 = .ack ∧ p ≠ [] then
        [CcpNote.acknowledged (ccpReqci sha1 s p dontNak).2.2.hisoptions.mppe] else []) := hnote
    split at hnote'
    · rename_i hack
      obtain rfl := List.mem_singleton.mp hnote'
      have hagreed := ccpReqci_agreed hack.2 hack.1
      rw [h.settings] at hagreed
      exact ⟨hagreed.allowed h.allow, hagreed.oneKey⟩
    · cases hnote'
  | become authDone mppeKeysSet mtu state =>
    exact ⟨⟨h.settings, h.want, h.got, h.allow⟩, fun note hnote => by cases hnote⟩

theorem Tame.run {t : MppeSettings} {s : Ccp} (h : Tame t s) (calls : List CcpCall) :
    ∀ note ∈ ccpRun sha1 s calls, note.Fine t := by
  induction calls generalizing s with
  | nil =>
    intro note hnote
    cases hnote
  | cons call calls ih =>
    intro note hnote
    obtain ⟨hnext, hfine⟩ := @Tame.call sha1 t s h call
    rcases List.mem_append.mp hnote with hnow | hlater
    · exact hfine note hnow
    · exact ih hnext note hlater

/-- Whatever a peer sends, and in whatever order the state machine calls: nothing is asked for that the
    settings refuse, and what is acknowledged has, besides, exactly one key length. -/
theorem ccpRun_fine (sha1 : Bytes → Bytes) (s : Ccp) (hwant : s.wantoptions.mppe = MppeBits.none)
    (hgot : s.gotoptions.mppe = MppeBits.none) (hallow : s.allowoptions.mppe = MppeBits.none)
    (calls : List CcpCall) :
    ∀ note ∈ ccpRun sha1 s calls, note.Fine s.settings := by
  have htame : Tame s.settings s := by
    refine ⟨rfl, ?_, ?_, ?_⟩
    · rw [hwant]
      exact allowed_none _
    · rw [hgot]
      exact allowed_none _
    · rw [hallow]
      exact allowed_none _
  exact htame.run calls

/-- An end that requires MPPE, behind MS-CHAPv2. -/
def startingCcp (refuseMppe128 : Bool) : Ccp where
  settings := ⟨true, true, false, refuseMppe128⟩
  authDone := ⟨false, false, true, false⟩
  mppeKeysSet := true
  mtu := 1500
  state := .reqsent
  wantoptions := ⟨MppeBits.none, 0⟩
  gotoptions := ⟨MppeBits.none, 0⟩
  allowoptions := ⟨MppeBits.none, 0⟩
  hisoptions := ⟨MppeBits.none, 0⟩
  allRejected := false
  mppeComp := clearedState
  mppeDecomp := clearedState
  closing := false

/-- A reset, and a request for both key lengths, which is not acknowledged; then one for 128-bit keys. -/
def startingCalls : List CcpCall :=
  [.resetci, .addci, .reqci [18, 6, 1, 0, 0, 0x60] false, .reqci [18, 6, 1, 0, 0, 0x40] false]

def bits128 : MppeBits := { MppeBits.none with opt128 := true }

theorem ccpRun_fine_128 : (CcpNote.acknowledged bits128).Fine (startingCcp false).settings :=
  have hrun : ccpRun Ppp.sha1 (startingCcp false) startingCalls =
    [.requested (startingCcp false).settings.bits, .acknowledged bits128] := rfl
  ccpRun_fine Ppp.sha1 (startingCcp false) rfl rfl rfl startingCalls _
    (hrun ▸ List.mem_cons_of_mem _ List.mem_cons_self)

end PptpProxy.Ppp
