/-
  Two ends of this code that negotiate: a request of the one, answered by the other.  They agree within two
  rounds and hold the same keys from then on, or the one that asks closes the link; and what they have
  agreed on carries a tunnel.

  The crux is `Paired.round`: a request for both key lengths that is not acknowledged comes back with
  the one that the other side takes.
-/
import PptpProxy.Ppp.Negotiation
import PptpProxy.Ppp.Tunnel

namespace PptpProxy.Ppp

open CLib

variable {sha1 : Bytes → Bytes}

/-! ## Requests of this code -/

/-- What this code asks for: nothing that it does not know, and a key length at least. -/
structure Asks (o : MppeBits) : Prop where
  clean : Clean4 o
  key : (o.opt128 || o.opt40) = true

theorem Asks.ne_none {o : MppeBits} (h : Asks o) : o ≠ MppeBits.none := by
  rintro rfl
  cases h.key

theorem Agreed.asks {t : MppeSettings} {ao ho : MppeBits} (h : Agreed t ao ho) : Asks ho := by
  refine ⟨h.clean, ?_⟩
  rw [h.oneKey]
  cases ho.opt40 with
  | false => rfl
  | true => rfl

theorem mppeOf_clean {o : MppeBits} (h : Clean4 o) : mppeOf (mppeOption o) = some o := by
  rw [mppeOf_sent]
  obtain ⟨options, opt56, mppc, optD, unknown⟩ := o
  obtain ⟨rfl, rfl, rfl, rfl⟩ := h
  rfl

/-- One key length is taken or not; of two, at most one. -/
theorem chooseKey_asked {ao ho : MppeBits} (hkey : (ho.opt128 || ho.opt40) = true) :
    (chooseKey ao ho .ack).1 = .rej ∨ chooseKey ao ho .ack = (.ack, ho) ∨
      ((ho.opt128 = true ∧ ho.opt40 = true) ∧
        (ao.opt128 = true ∧ chooseKey ao ho .ack = (.nak, { ho with opt40 := false }) ∨
          ao.opt40 = true ∧ chooseKey ao ho .ack = (.nak, { ho with opt128 := false }))) := by
  unfold chooseKey
  cases h128 : ho.opt128 with
  | true =>
    cases h40 : ho.opt40 with
    | true =>
      simp only [Bool.and_self, if_true]
      cases hao : ao.opt128 with
      | true => exact Or.inr (Or.inr ⟨⟨trivial, trivial⟩, Or.inl ⟨rfl, rfl⟩⟩)
      | false =>
        cases hao40 : ao.opt40 with
        | true => exact Or.inr (Or.inr ⟨⟨trivial, trivial⟩, Or.inr ⟨rfl, rfl⟩⟩)
        | false => exact Or.inl rfl
    | false =>
      simp only [Bool.and_false, Bool.false_eq_true, if_false, if_true]
      cases hao : ao.opt128 with
      | true => exact Or.inr (Or.inl rfl)
      | false => exact Or.inl rfl
  | false =>
    cases h40 : ho.opt40 with
    | true =>
      simp only [Bool.false_and, Bool.false_eq_true, if_false, if_true]
      cases hao : ao.opt40 with
      | true => exact Or.inr (Or.inl rfl)
      | false => exact Or.inl rfl
    | false =>
      rw [h128, h40] at hkey
      cases hkey

theorem chooseMppe_clean {s : Ccp} {ho : MppeBits} (h : Clean4 ho) :
    chooseMppe s ho = if ho.stateful && s.settings.refuseMppeStateful then (.rej, ho)
      else chooseKey s.allowoptions.mppe ho .ack := by
  obtain ⟨h56, hmppc, hD, hunknown⟩ := h
  unfold chooseMppe
  simp only [h56, hmppc, hD, hunknown, Bool.or_self, Bool.false_eq_true, if_false]

/-- The answer to a request of this code. -/
inductive Answer (sha1 : Bytes → Bytes) (s : Ccp) (ho : MppeBits) : Conf × Bytes × Ccp × Bool → Prop
  | rej (option : Bytes) (s' : Ccp) (clear : Bool) (hoption : (mppeOf option).isSome) :
    Answer sha1 s ho (.rej, option, s', clear)
  | nak (ho' : MppeBits) (hboth : ho.opt128 = true ∧ ho.opt40 = true)
    (hagreed : Agreed s.settings s.allowoptions.mppe ho') (hmode : ho'.stateful = ho.stateful) :
    Answer sha1 s ho (.nak, mppeOption ho', s.setHis ho', true)
  | ack (s' : Ccp) (hcomp : s'.mppeComp = (mppeInit sha1 s.mppeComp ho.toMppeOptions).1)
    (hmethod : s'.hisoptions.method = s.hisoptions.method) :
    Answer sha1 s ho (.ack, mppeOption ho, s', true)

/-- What `case CI_MPPE` does with the options it has settled on. -/
def answerTo (sha1 : Bytes → Bytes) (s : Ccp) (option : Bytes) :
    Conf × MppeBits → Conf × Bytes × Ccp × Bool
  | (.rej, ho) => (.rej, option, s.setHis ho, false)
  | (.nak, ho) => (.nak, mppeOption ho, s.setHis ho, true)
  | (.ack, ho) => (((s.setHis ho).acknowledge sha1 ho).1, mppeOption ho,
      ((s.setHis ho).acknowledge sha1 ho).2, true)

theorem reqOption_chosen (s : Ccp) {ho : MppeBits} (hclean : Clean4 ho)
    (hallow : s.allowoptions.mppe ≠ MppeBits.none) :
    reqOption sha1 s (mppeOption ho) = answerTo sha1 s (mppeOption ho) (chooseMppe s ho) := by
  have hhead : ¬ (mppeOption ho).head? ≠ some 18 := fun h' => h' rfl
  have hsound : ¬ (s.allowoptions.mppe = MppeBits.none ∨ (mppeOption ho).length ≠ 6) := by
    rintro (hnone | hlen)
    · exact hallow hnone
    · exact hlen rfl
  unfold reqOption
  rw [if_neg hhead, if_neg hsound, mppeOf_clean hclean]
  simp only
  generalize chooseMppe s ho = choice
  obtain ⟨newret, ho'⟩ := choice
  cases newret with
  | ack => rfl
  | nak => rfl
  | rej => rfl

theorem reqOption_asked (s : Ccp) {ho : MppeBits} (h : Asks ho) :
    Answer sha1 s ho (reqOption sha1 s (mppeOption ho)) := by
  have hsome : (mppeOf (mppeOption ho)).isSome := by
    rw [mppeOf_clean h.clean]
    rfl
  by_cases hallow : s.allowoptions.mppe = MppeBits.none
  · have hrej : reqOption sha1 s (mppeOption ho) = (.rej, mppeOption ho, s, false) := by
      unfold reqOption
      rw [if_neg fun h' => h' rfl, if_pos (Or.inl hallow)]
    rw [hrej]
    exact .rej _ _ _ hsome
  · cases hmode : ho.stateful && s.settings.refuseMppeStateful with
    | true =>
      have hchoose : chooseMppe s ho = (.rej, ho) := by rw [chooseMppe_clean h.clean, if_pos hmode]
      rw [reqOption_chosen s h.clean hallow, hchoose]
      exact .rej _ _ _ hsome
    | false =>
      have hkey : chooseMppe s ho = chooseKey s.allowoptions.mppe ho .ack := by
        rw [chooseMppe_clean h.clean, hmode]
        exact if_neg Bool.false_ne_true
      have hstateful : ho.stateful = true → s.settings.refuseMppeStateful = false := by
        intro hs
        rwa [hs, Bool.true_and] at hmode
      rcases @chooseKey_asked s.allowoptions.mppe ho h.key with hrej | hack | ⟨hboth, hnak⟩
      · rw [reqOption_chosen s h.clean hallow, hkey]
        generalize chooseKey s.allowoptions.mppe ho .ack = choice at hrej
        obtain ⟨newret, ho'⟩ := choice
        obtain rfl : newret = .rej := hrej
        exact .rej _ _ _ hsome
      · rw [reqOption_chosen s h.clean hallow, hkey, hack]
        by_cases hmtu : s.mtu = 0
        · have hfull : ((s.setHis ho).acknowledge sha1 ho).1 = .rej := by
            show (if s.mtu ≠ 0 then (Conf.ack, _) else (Conf.rej, _)).1 = .rej
            rw [if_neg (not_not.mpr hmtu)]
          show Answer sha1 s ho (((s.setHis ho).acknowledge sha1 ho).1, _)
          rw [hfull]
          exact .rej _ _ _ hsome
        · have hroom : (s.setHis ho).acknowledge sha1 ho =
              (.ack, { (s.setHis ho).initComp sha1 ho with mtu := s.mtu - 4 }) :=
            if_pos hmtu
          show Answer sha1 s ho (((s.setHis ho).acknowledge sha1 ho).1, mppeOption ho,
            ((s.setHis ho).acknowledge sha1 ho).2, true)
          rw [hroom]
          exact .ack _ rfl rfl
      · rcases hnak with ⟨hao, hnak⟩ | ⟨hao, hnak⟩
        · rw [reqOption_chosen s h.clean hallow, hkey, hnak]
          refine .nak _ hboth ⟨?_, ?_, ?_, ?_, hstateful⟩ rfl
          · exact ⟨h.clean.opt56, h.clean.mppc, h.clean.optD, h.clean.unknown⟩
          · exact hboth.1
          · exact fun _ => hao
          · exact fun h' => by cases h'
        · rw [reqOption_chosen s h.clean hallow, hkey, hnak]
          refine .nak _ hboth ⟨?_, ?_, ?_, ?_, hstateful⟩ rfl
          · exact ⟨h.clean.opt56, h.clean.mppc, h.clean.optD, h.clean.unknown⟩
          · show false = !ho.opt40
            rw [hboth.2]
            rfl
          · exact fun h' => by cases h'
          · exact fun _ => hao

/-! ## A round -/

/-- What `ccp_reqci` makes of a single option. -/
theorem ccpReqci_one {s : Ccp} {ho : MppeBits} {dontNak : Bool} {newret : Conf} {option : Bytes}
    {ccp : Ccp} {clear : Bool}
    (h : reqOption sha1 (reqStart s (mppeOption ho)).ccp (mppeOption ho) =
      (newret, option, ccp, clear)) :
    (ccpReqci sha1 s (mppeOption ho) dontNak).1 = newret.settle dontNak ∧
      (ccpReqci sha1 s (mppeOption ho) dontNak).2.1 = option ∧
      (newret.settle dontNak ≠ .rej → (ccpReqci sha1 s (mppeOption ho) dontNak).2.2 = ccp) := by
  have hloop : reqLoop sha1 dontNak (mppeOption ho).length (reqStart s (mppeOption ho))
      (mppeOption ho) =
        (reqStart s (mppeOption ho)).turn dontNak (newret, option, ccp, clear) := by
    have hlen : optionLength (mppeOption ho) = some 6 := rfl
    have hturn := @reqLoop_option sha1 dontNak 5 (reqStart s (mppeOption ho)) (mppeOption ho) 6
      (List.cons_ne_nil _ _) hlen
    have htake : (mppeOption ho).take 6 = mppeOption ho := rfl
    have hdrop : (mppeOption ho).drop 6 = [] := rfl
    rw [htake, hdrop, reqLoop_end, h] at hturn
    exact hturn
  unfold ccpReqci
  extract_lets started r _ s'
  have hr : r = { reqStart s (mppeOption ho) with
      ccp := ccp, rejForCiMppe := true && !clear }.put (newret.settle dontNak) option := hloop
  cases hnewret : newret.settle dontNak with
  | ack =>
    rw [hnewret] at hr
    clear_value r
    subst hr
    exact ⟨rfl, rfl, fun _ => rfl⟩
  | nak =>
    rw [hnewret] at hr
    clear_value r
    subst hr
    exact ⟨rfl, rfl, fun _ => rfl⟩
  | rej =>
    rw [hnewret] at hr
    clear_value r
    subst hr
    exact ⟨rfl, rfl, fun h' => absurd rfl h'⟩

/-- How a round ends: whether the asker's options have been acknowledged, and both ends. -/
structure Round where
  agreed : Bool
  asker : Ccp
  answerer : Ccp

/-- A request, and what the callbacks of both ends make of it. -/
def ccpRound (sha1 : Bytes → Bytes) (dontNak : Bool) (a b : Ccp) : Round :=
  let request := ccpAddci sha1 a
  let answer := ccpReqci sha1 b request.1 dontNak
  match answer.1 with
  | .ack => ⟨ccpAckci request.2 answer.2.1, request.2, answer.2.2⟩
  | .nak => ⟨false, (ccpNakci request.2 answer.2.1).2, answer.2.2⟩
  | .rej => ⟨false, (ccpRejci request.2 answer.2.1).2, answer.2.2⟩

/-- The asker behind its request. -/
def Ccp.asked (sha1 : Bytes → Bytes) (a : Ccp) : Ccp :=
  { a.initDecomp sha1 a.gotoptions.mppe with gotoptions := { a.gotoptions with method := 18 } }

theorem ccpAddci_asks {a : Ccp} (h : Asks a.gotoptions.mppe) :
    ccpAddci sha1 a = (mppeOption a.gotoptions.mppe, a.asked sha1) :=
  if_pos h.ne_none

theorem ccpRound_ack {dontNak : Bool} {a b b' : Ccp} {p : Bytes} (h : Asks a.gotoptions.mppe)
    (hreq : ccpReqci sha1 b (mppeOption a.gotoptions.mppe) dontNak = (.ack, p, b')) :
    ccpRound sha1 dontNak a b = ⟨ccpAckci (a.asked sha1) p, a.asked sha1, b'⟩ := by
  unfold ccpRound
  rw [ccpAddci_asks h]
  simp only [hreq]

theorem ccpRound_nak {dontNak : Bool} {a b b' : Ccp} {p : Bytes} (h : Asks a.gotoptions.mppe)
    (hreq : ccpReqci sha1 b (mppeOption a.gotoptions.mppe) dontNak = (.nak, p, b')) :
    ccpRound sha1 dontNak a b = ⟨false, (ccpNakci (a.asked sha1) p).2, b'⟩ := by
  unfold ccpRound
  rw [ccpAddci_asks h]
  simp only [hreq]

theorem ccpRound_rej {dontNak : Bool} {a b b' : Ccp} {p : Bytes} (h : Asks a.gotoptions.mppe)
    (hreq : ccpReqci sha1 b (mppeOption a.gotoptions.mppe) dontNak = (.rej, p, b')) :
    ccpRound sha1 dontNak a b = ⟨false, (ccpRejci (a.asked sha1) p).2, b'⟩ := by
  unfold ccpRound
  rw [ccpAddci_asks h]
  simp only [hreq]

/-- The acknowledgement of a request. -/
theorem ccpAckci_asks {a : Ccp} (h : Asks a.gotoptions.mppe) :
    ccpAckci (a.asked sha1) (mppeOption a.gotoptions.mppe) = true := by
  have hne : (a.asked sha1).gotoptions.mppe ≠ MppeBits.none := h.ne_none
  have hsound : ¬ ((mppeOption a.gotoptions.mppe).length < 6 ∨
      (mppeOption a.gotoptions.mppe).take 6 ≠ mppeOption (a.asked sha1).gotoptions.mppe) := by
    rintro (hlen | htake)
    · exact absurd hlen (by show ¬ 6 < 6; decide)
    · exact htake rfl
  unfold ccpAckci
  rw [if_pos hne, if_neg hsound]
  rfl

/-- A rejection of the option. -/
theorem ccpRejci_closing {s : Ccp} {option : Bytes} (hgot : s.gotoptions.mppe ≠ MppeBits.none)
    (hoption : (mppeOf option).isSome) : (ccpRejci s option).2.closing = true := by
  have hnonempty : ¬ (option.length = 0 ∧ s.allRejected = true) := by
    rintro ⟨hzero, -⟩
    rw [List.length_eq_zero_iff.mp hzero] at hoption
    cases hoption
  unfold ccpRejci
  rw [if_neg hnonempty, if_pos ⟨hgot, hoption⟩]
  show (if (option.drop 6).length ≠ 0 then ((0 : Int), s.lcpClose) else (1, s.lcpClose)).2.closing = true
  split
  · rfl
  · rfl

/-- A suggestion that cannot be taken over. -/
theorem ccpNakci_closing {s : Ccp} {o : MppeBits} (hgot : s.gotoptions.mppe ≠ MppeBits.none)
    (hclean : Clean4 o) (htry : nakTry s o = MppeBits.none) :
    (ccpNakci s (mppeOption o)).2.closing = true := by
  unfold ccpNakci
  rw [if_pos hgot, mppeOf_clean hclean]
  simp only [htry, if_true]
  split
  · rfl
  · rfl

/-- A suggestion that is taken over. -/
theorem ccpNakci_taken {s : Ccp} {o : MppeBits} (hgot : s.gotoptions.mppe ≠ MppeBits.none)
    (hasks : Asks o) (htry : nakTry s o = o) (hstate : s.state ≠ .opened) :
    (ccpNakci s (mppeOption o)).2 = { s with gotoptions := { s.gotoptions with mppe := o } } := by
  unfold ccpNakci
  rw [if_pos hgot, mppeOf_clean hasks.clean]
  simp only [htry, if_neg hasks.ne_none]
  exact if_pos hstate

/-! ## Two ends -/

/-- `mppe_init` at both ends, with the same master key. -/
theorem mppeInit_agree {s t : MppeState} {options : MppeOptions}
    (hmaster : s.key.masterKey = t.key.masterKey)
    (hmode : (s.stateful || options.stateful) = (t.stateful || options.stateful))
    (ht : t.discard = false) (hkey : (options.opt128 || options.opt40) = true) :
    InStep (mppeInit sha1 s options).1 (mppeInit sha1 t options).1 := by
  have hknown : (!options.opt128 && !options.opt40) = false := by
    rw [← Bool.not_or, hkey]
    rfl
  unfold mppeInit
  simp only [hknown, Bool.false_eq_true, if_false]
  have hsame : SameKey
      { s.key with sessionKey := s.key.masterKey, keylen := if options.opt128 then 16 else 8 }
      { t.key with sessionKey := t.key.masterKey, keylen := if options.opt128 then 16 else 8 } :=
    ⟨hmaster, hmaster, rfl⟩
  exact ⟨hsame.rekey true, rfl, hmode, ht, Or.inl rfl⟩

theorem mppeInit_master (s : MppeState) (options : MppeOptions) :
    (mppeInit sha1 s options).1.key.masterKey = s.key.masterKey := by
  unfold mppeInit
  split
  · rfl
  · rfl

/-- Two ends with the same master key, the first of which is to ask; `stateful` is the mode to come. -/
structure Paired (stateful : Bool) (a b : Ccp) : Prop where
  asks : Asks a.gotoptions.mppe
  master : b.mppeComp.key.masterKey = a.mppeDecomp.key.masterKey
  comp : (b.mppeComp.stateful || a.gotoptions.mppe.stateful) = stateful
  decomp : (a.mppeDecomp.stateful || a.gotoptions.mppe.stateful) = stateful
  normal : a.mppeDecomp.discard = false
  asking : a.state ≠ .opened

/-- They have agreed, and hold the same keys. -/
structure Concluded (stateful : Bool) (r : Round) : Prop where
  agreed : r.agreed = true
  keys : InStep r.answerer.mppeComp r.asker.mppeDecomp
  mode : r.asker.mppeDecomp.stateful = stateful
  receives : (ccpUp r.asker).1 = 18
  transmits : (ccpUp r.answerer).2 = 18

/-- The state of the asker behind its request. -/
theorem Paired.asked {stateful : Bool} {a b : Ccp} (h : Paired stateful a b) :
    (a.asked sha1).mppeDecomp.key.masterKey = a.mppeDecomp.key.masterKey ∧
      (a.asked sha1).mppeDecomp.discard = false ∧
      (a.asked sha1).mppeDecomp.stateful = stateful := by
  have hknown := @mppeInit_known sha1 a.mppeDecomp a.gotoptions.mppe.toMppeOptions h.asks.key
  exact ⟨mppeInit_master _ _, hknown.1.trans h.normal, hknown.2.1.trans h.decomp⟩

/-- A suggestion for one of two key lengths: it is taken over, or the link is closed. -/
theorem Paired.nak {stateful : Bool} {a b b' : Ccp} (h : Paired stateful a b) {o : MppeBits}
    (hboth : a.gotoptions.mppe.opt128 = true ∧ a.gotoptions.mppe.opt40 = true) (hasks : Asks o)
    (hmode : o.stateful = a.gotoptions.mppe.stateful) (hcomp : b'.mppeComp = b.mppeComp) :
    (ccpNakci (a.asked sha1) (mppeOption o)).2.closing = true ∨
      (Paired stateful (ccpNakci (a.asked sha1) (mppeOption o)).2 b' ∧
        (ccpNakci (a.asked sha1) (mppeOption o)).2.gotoptions.mppe = o) := by
  have hgot : (a.asked sha1).gotoptions.mppe ≠ MppeBits.none := h.asks.ne_none
  obtain ⟨hmaster, hnormal, hdecomp⟩ := @Paired.asked sha1 stateful a b h
  cases hrefuse : o.stateful && a.settings.refuseMppeStateful with
  | true => exact Or.inl (ccpNakci_closing hgot hasks.clean (if_pos hrefuse))
  | false =>
    have hwithin : o.within { a.gotoptions.mppe with stateful := true } = true := by
      obtain ⟨h56, hmppc, hD, hunknown⟩ := hasks.clean
      simp only [MppeBits.within, hboth.1, hboth.2, h56, hmppc, hD, hunknown, Bool.or_true,
        Bool.not_false, Bool.true_or, Bool.and_self]
    have htry : nakTry (a.asked sha1) o = o := by
      show (if o.stateful && a.settings.refuseMppeStateful then MppeBits.none
        else if !o.within { a.gotoptions.mppe with stateful := true } then MppeBits.none else o) = o
      rw [hrefuse, hwithin]
      rfl
    have htaken := ccpNakci_taken hgot hasks htry h.asking
    have hstateful : ∀ x y : Bool, (x || y) = stateful → (stateful || y) = stateful := by
      intro x y hxy
      rw [← hxy, Bool.or_assoc, Bool.or_self]
    rw [htaken]
    refine Or.inr ⟨⟨hasks, ?_, ?_, ?_, hnormal, h.asking⟩, rfl⟩
    · rw [hcomp]
      exact h.master.trans hmaster.symm
    · show (b'.mppeComp.stateful || o.stateful) = stateful
      rw [hcomp, hmode]
      exact h.comp
    · show ((a.asked sha1).mppeDecomp.stateful || o.stateful) = stateful
      rw [hdecomp, hmode]
      exact hstateful _ _ h.decomp

/-- One round: they agree, or the asker closes the link, or it had asked for both key lengths and goes on
    with the one that the other side takes. -/
theorem Paired.round {stateful : Bool} {a b : Ccp} (h : Paired stateful a b) (dontNak : Bool) :
    Concluded stateful (ccpRound sha1 dontNak a b) ∨
      (ccpRound sha1 dontNak a b).asker.closing = true ∨
      ((a.gotoptions.mppe.opt128 = true ∧ a.gotoptions.mppe.opt40 = true) ∧
        (ccpRound sha1 dontNak a b).agreed = false ∧
        Paired stateful (ccpRound sha1 dontNak a b).asker (ccpRound sha1 dontNak a b).answerer ∧
        (ccpRound sha1 dontNak a b).asker.gotoptions.mppe.opt128 =
          !(ccpRound sha1 dontNak a b).asker.gotoptions.mppe.opt40) := by
  have hgot : (a.asked sha1).gotoptions.mppe ≠ MppeBits.none := h.asks.ne_none
  have hanswer := @reqOption_asked sha1 (reqStart b (mppeOption a.gotoptions.mppe)).ccp _ h.asks
  generalize hx : reqOption sha1 (reqStart b (mppeOption a.gotoptions.mppe)).ccp
    (mppeOption a.gotoptions.mppe) = x at hanswer
  cases hanswer with
  | rej option s' clear hoption =>
    obtain ⟨hret, hopt, -⟩ := @ccpReqci_one sha1 b _ dontNak _ _ _ _ hx
    have hreq : ccpReqci sha1 b (mppeOption a.gotoptions.mppe) dontNak = (.rej, option, _) :=
      Prod.ext hret (Prod.ext hopt rfl)
    rw [ccpRound_rej h.asks hreq]
    exact Or.inr (Or.inl (ccpRejci_closing hgot hoption))
  | nak o hboth hagreed hmode =>
    obtain ⟨hret, hopt, hstate⟩ := @ccpReqci_one sha1 b _ dontNak _ _ _ _ hx
    cases dontNak with
    | true =>
      -- the peer is not to be asked again: the suggestion is a rejection
      have hreq : ccpReqci sha1 b (mppeOption a.gotoptions.mppe) true = (.rej, mppeOption o, _) :=
        Prod.ext hret (Prod.ext hopt rfl)
      rw [ccpRound_rej h.asks hreq]
      refine Or.inr (Or.inl (ccpRejci_closing hgot ?_))
      rw [mppeOf_clean hagreed.clean]
      rfl
    | false =>
      have hsame := hstate (by decide)
      have hreq : ccpReqci sha1 b (mppeOption a.gotoptions.mppe) false = (.nak, mppeOption o, _) :=
        Prod.ext hret (Prod.ext hopt hsame)
      rw [ccpRound_nak h.asks hreq]
      rcases @Paired.nak sha1 stateful a b ((reqStart b (mppeOption a.gotoptions.mppe)).ccp.setHis o) h
        o hboth hagreed.asks hmode rfl with hclosing | ⟨hpaired, ho⟩
      · exact Or.inr (Or.inl hclosing)
      · refine Or.inr (Or.inr ⟨hboth, rfl, hpaired, ?_⟩)
        rw [ho]
        exact hagreed.oneKey
  | ack s' hcomp hmethod =>
    obtain ⟨hret, hopt, hstate⟩ := @ccpReqci_one sha1 b _ dontNak _ _ _ _ hx
    have hsettled : Conf.settle .ack dontNak = .ack := rfl
    have hsame := hstate (by rw [hsettled]; decide)
    have hreq : ccpReqci sha1 b (mppeOption a.gotoptions.mppe) dontNak =
        (.ack, mppeOption a.gotoptions.mppe, s') := Prod.ext hret (Prod.ext hopt hsame)
    rw [ccpRound_ack h.asks hreq]
    refine Or.inl ⟨ccpAckci_asks h.asks, ?_, (@Paired.asked sha1 stateful a b h).2.2, rfl, ?_⟩
    · show InStep s'.mppeComp (mppeInit sha1 a.mppeDecomp a.gotoptions.mppe.toMppeOptions).1
      rw [hcomp]
      exact mppeInit_agree h.master (h.comp.trans h.decomp.symm) h.normal h.asks.key
    · exact hmethod

/-! ## Two rounds -/

/-- A second round when the first one has not settled it. -/
def negotiate (sha1 : Bytes → Bytes) (dontNak dontNak' : Bool) (a b : Ccp) : Round :=
  let r := ccpRound sha1 dontNak a b
  if r.agreed then r else ccpRound sha1 dontNak' r.asker r.answerer

theorem ccpAddci_keeps (s : Ccp) (h : s.closing = true) : (ccpAddci sha1 s).2.closing = true := by
  unfold ccpAddci
  split
  · show (s.closing || _) = true
    rw [h]
    rfl
  · exact h

theorem ccpNakci_keeps (s : Ccp) (p : Bytes) (h : s.closing = true) :
    (ccpNakci s p).2.closing = true := by
  obtain ⟨closing, wanted, heq, hclosing, -⟩ := ccpNakci_cases s p
  rw [heq]
  exact hclosing h

theorem ccpRejci_keeps (s : Ccp) (p : Bytes) (h : s.closing = true) :
    (ccpRejci s p).2.closing = true := by
  rcases ccpRejci_cases s p with heq | heq
  · rw [heq]
    exact h
  · rw [heq]
    rfl

/-- An end that closes the link goes on doing so. -/
theorem ccpRound_keeps (dontNak : Bool) (a b : Ccp) (h : a.closing = true) :
    (ccpRound sha1 dontNak a b).asker.closing = true := by
  have hasked := @ccpAddci_keeps sha1 a h
  unfold ccpRound
  extract_lets request answer
  split
  · exact hasked
  · exact ccpNakci_keeps _ _ hasked
  · exact ccpRejci_keeps _ _ hasked

theorem negotiate_keeps (dontNak dontNak' : Bool) (a b : Ccp) (h : a.closing = true) :
    (negotiate sha1 dontNak dontNak' a b).asker.closing = true := by
  unfold negotiate
  extract_lets r
  have hr : r.asker.closing = true := ccpRound_keeps dontNak a b h
  split
  · exact hr
  · exact ccpRound_keeps dontNak' _ _ hr

theorem Paired.negotiate {stateful : Bool} {a b : Ccp} (h : Paired stateful a b)
    (dontNak dontNak' : Bool) :
    Concluded stateful (negotiate sha1 dontNak dontNak' a b) ∨
      (negotiate sha1 dontNak dontNak' a b).asker.closing = true := by
  unfold Ppp.negotiate
  extract_lets r
  rcases @Paired.round sha1 stateful a b h dontNak with
    hconcluded | hclosing | ⟨-, hnot, hpaired, hone⟩
  · rw [if_pos hconcluded.agreed]
    exact Or.inl hconcluded
  · split
    · exact Or.inr hclosing
    · exact Or.inr (ccpRound_keeps dontNak' _ _ hclosing)
  · rw [if_neg (Bool.eq_false_iff.mp hnot)]
    rcases @Paired.round sha1 stateful _ _ hpaired dontNak' with
      hconcluded | hclosing | ⟨⟨h128, h40⟩, -⟩
    · exact Or.inl hconcluded
    · exact Or.inr hclosing
    · -- only one key length is left to ask for
      rw [h128, h40] at hone
      cases hone

/-! ## From the reset on -/

/-- A reset for which MPPE is required: the link is closed, or there is something to ask for. -/
theorem ccpResetci_asks {s : Ccp} (hrequire : s.settings.requireMppe = true)
    (hsome : (s.settings.refuseMppe40 && s.settings.refuseMppe128) = false) :
    (ccpResetci s).closing = true ∨
      (Asks (ccpResetci s).gotoptions.mppe ∧ (ccpResetci s).gotoptions.mppe.stateful = false) := by
  unfold ccpResetci
  extract_lets _ _ wished started dropped
  have hwished : wished.wantoptions.mppe = s.settings.bits := by
    show (if s.settings.requireMppe then _ else s).wantoptions.mppe = _
    rw [if_pos hrequire]
  have hgot : started.gotoptions.mppe = s.settings.bits := hwished
  have hbits : s.settings.bits ≠ MppeBits.none := by
    intro hnone
    have h40 : (!s.settings.refuseMppe40) = false := congrArg (fun o : MppeBits => o.opt40) hnone
    have h128 : (!s.settings.refuseMppe128) = false := congrArg (fun o : MppeBits => o.opt128) hnone
    rw [Bool.not_eq_eq_eq_not.mp h40, Bool.not_eq_eq_eq_not.mp h128] at hsome
    cases hsome
  have hdropped : Clean4 dropped.gotoptions.mppe ∧ dropped.gotoptions.mppe.stateful = false := by
    show Clean4 started.dropLm.gotoptions.mppe ∧ started.dropLm.gotoptions.mppe.stateful = false
    unfold Ccp.dropLm
    split
    · show Clean4 { started.gotoptions.mppe with opt40 := false } ∧
        started.gotoptions.mppe.stateful = false
      rw [hgot]
      exact ⟨⟨rfl, rfl, rfl, rfl⟩, rfl⟩
    · rw [hgot]
      exact ⟨⟨rfl, rfl, rfl, rfl⟩, rfl⟩
  rw [if_neg (hgot ▸ hbits)]
  split
  · exact Or.inl rfl
  · split
    · exact Or.inl rfl
    · split
      · exact Or.inl rfl
      · split
        · exact Or.inl rfl
        · rename_i hkey
          refine Or.inr ⟨⟨hdropped.1, ?_⟩, hdropped.2⟩
          rw [Bool.or_comm]
          cases hlengths : dropped.gotoptions.mppe.opt40 || dropped.gotoptions.mppe.opt128 with
          | true => rfl
          | false =>
            rw [hlengths] at hkey
            exact absurd rfl hkey

theorem dropLm_frame (s : Ccp) : s.dropLm.mppeDecomp = s.mppeDecomp ∧ s.dropLm.state = s.state := by
  unfold Ccp.dropLm
  split
  · exact ⟨rfl, rfl⟩
  · exact ⟨rfl, rfl⟩

theorem ccpResetci_frame (s : Ccp) :
    (ccpResetci s).mppeDecomp = s.mppeDecomp ∧ (ccpResetci s).state = s.state := by
  unfold ccpResetci
  extract_lets _ _ wished started dropped
  have hstarted : started.mppeDecomp = s.mppeDecomp ∧ started.state = s.state := by
    show (if s.settings.requireMppe then _ else s).mppeDecomp = _ ∧
      (if s.settings.requireMppe then _ else s).state = _
    split
    · exact ⟨rfl, rfl⟩
    · exact ⟨rfl, rfl⟩
  have hdropped : dropped.mppeDecomp = s.mppeDecomp ∧ dropped.state = s.state :=
    ⟨(dropLm_frame started).1.trans hstarted.1, (dropLm_frame started).2.trans hstarted.2⟩
  split
  · exact hstarted
  · split
    · exact hstarted
    · split
      · exact hstarted
      · split
        · exact hstarted
        · split
          · exact hdropped
          · exact hdropped

/-- Two ends that CCP starts from: MPPE as `ppp_start` has cleared it, with the same master key. -/
structure Starting (s b : Ccp) : Prop where
  asking : s.state ≠ .opened
  master : b.mppeComp.key.masterKey = s.mppeDecomp.key.masterKey
  comp : b.mppeComp.stateful = false
  decomp : s.mppeDecomp.stateful = false
  normal : s.mppeDecomp.discard = false

theorem Starting.reset {s b : Ccp} (h : Starting s b) (hrequire : s.settings.requireMppe = true)
    (hsome : (s.settings.refuseMppe40 && s.settings.refuseMppe128) = false) :
    (ccpResetci s).closing = true ∨ Paired false (ccpResetci s) b := by
  obtain ⟨hframe, hkept⟩ := ccpResetci_frame s
  rcases ccpResetci_asks hrequire hsome with hclosing | ⟨hasks, hmode⟩
  · exact Or.inl hclosing
  · refine Or.inr ⟨hasks, ?_, ?_, ?_, ?_, ?_⟩
    · rw [hframe]
      exact h.master
    · rw [h.comp, hmode]
      rfl
    · rw [hframe, h.decomp, hmode]
      rfl
    · rw [hframe]
      exact h.normal
    · rw [hkept]
      exact h.asking

/-- Two ends of which the one that asks requires MPPE: within two rounds they have agreed and hold the
    same keys, or the one that asks has closed the link. -/
theorem negotiate_agrees (sha1 : Bytes → Bytes) (dontNak dontNak' : Bool) {s b : Ccp}
    (hstart : Starting s b) (hrequire : s.settings.requireMppe = true)
    (hsome : (s.settings.refuseMppe40 && s.settings.refuseMppe128) = false) :
    Concluded false (negotiate sha1 dontNak dontNak' (ccpResetci s) b) ∨
      (negotiate sha1 dontNak dontNak' (ccpResetci s) b).asker.closing = true := by
  rcases hstart.reset hrequire hsome with hclosing | hpaired
  · exact Or.inr (negotiate_keeps dontNak dontNak' _ b hclosing)
  · exact hpaired.negotiate dontNak dontNak'

/-! ## The tunnel -/

/-- The control blocks of both ends behind `ccp_up`, the answerer's end transmitting. -/
structure BroughtUp (r : Round) (c d : PppPcb) : Prop where
  up : c.if4Up = true
  transmit : c.ccpTransmitMethod = (ccpUp r.answerer).2.toBitVec
  comp : c.mppeComp = r.answerer.mppeComp
  lcp : d.lcpState = .opened
  phase : ¬ d.phase.ctorIdx ≤ Phase.authenticate.ctorIdx
  receive : d.ccpReceiveMethod = (ccpUp r.asker).1.toBitVec
  decomp : d.mppeDecomp = r.asker.mppeDecomp

theorem Concluded.talking {r : Round} (h : Concluded false r) {c d : PppPcb} (hup : BroughtUp r c d) :
    Talking sha1 0 c d := by
  have hkeys : Behind sha1 0 c.mppeComp d.mppeDecomp := by
    rw [hup.comp, hup.decomp]
    exact h.keys.behind h.mode
  have htransmit : c.ccpTransmitMethod = ciMppe := by
    rw [hup.transmit, h.transmits]
    rfl
  have hreceive : d.ccpReceiveMethod = ciMppe := by
    rw [hup.receive, h.receives]
    rfl
  exact ⟨hkeys, hup.up, htransmit, ⟨hup.lcp, hup.phase, hreceive⟩⟩

/-- From the reset of CCP on: unless the link is closed, the tunnel that comes of the negotiation delivers
    what there is memory for, in order, and nothing else. -/
theorem negotiated_delivers (sha1 : Bytes → Bytes) (dontNak dontNak' : Bool) {s b : Ccp}
    (hstart : Starting s b) (hrequire : s.settings.requireMppe = true)
    (hsome : (s.settings.refuseMppe40 && s.settings.refuseMppe128) = false)
    (hclosing : (negotiate sha1 dontNak dontNak' (ccpResetci s) b).asker.closing = false)
    {c d : PppPcb} (hup : BroughtUp (negotiate sha1 dontNak dontNak' (ccpResetci s) b) c d)
    {m : ExtAccm} (hm : SessionAccm m) (ops : List CoreOp) (hops : ∀ op ∈ ops, op.Fit m)
    (hlost : FewLost 0 (ops.filterMap CoreOp.tunnelEvent)) {p : Pppos} (hp : SessionAccm p.outAccm)
    (hcover : ∀ c, escapeP m c = true → escapeP p.outAccm c = true) (hlast : p.lastXmit = 0)
    (results : List WriteResult)
    (hwritten : .interface ∉ (coreRun sha1 pppOutput c p ⟨[], results⟩ ops).1)
    {q : Pppos} (hq : Waiting m q) (reads : List Bytes)
    (hreads : reads.flatten = (coreRun sha1 pppOutput c p ⟨[], results⟩ ops).2.2.2.written) :
    (reads.foldl (fun r bytes => ppposInput (logger.upper sha1) r.1 r.2 bytes) ((d, []), q)).1.2 =
      ops.filterMap CoreOp.delivery := by
  have hconcluded : Concluded false (negotiate sha1 dontNak dontNak' (ccpResetci s) b) := by
    rcases hstart.reset hrequire hsome with hclosed | hpaired
    · cases hclosing.symm.trans (negotiate_keeps dontNak dontNak' _ b hclosed)
    · exact (hpaired.negotiate dontNak dontNak').resolve_right (Bool.eq_false_iff.mp hclosing)
  exact (hconcluded.talking hup).delivers hm ops hops hlost hp hcover hlast results hwritten hq reads
    hreads

/-- The second end refuses 128-bit keys. -/
def startingRound : Round :=
  negotiate Ppp.sha1 false false (ccpResetci (startingCcp false)) (ccpResetci (startingCcp true))

theorem starting_ends : Starting (startingCcp false) (ccpResetci (startingCcp true)) :=
  ⟨by decide, rfl, rfl, rfl, rfl⟩

/-- Both key lengths are asked for, and one is left. -/
theorem negotiate_agrees_narrowed :
    Concluded false startingRound ∨ startingRound.asker.closing = true :=
  negotiate_agrees Ppp.sha1 false false starting_ends rfl rfl

/-- The control block of either end behind that negotiation. -/
def startingPcb : PppPcb :=
  { upPcb with
    ccpTransmitMethod := (ccpUp startingRound.answerer).2.toBitVec
    mppeComp := startingRound.answerer.mppeComp
    ccpReceiveMethod := (ccpUp startingRound.asker).1.toBitVec
    mppeDecomp := startingRound.asker.mppeDecomp }

theorem starting_open : startingRound.asker.closing = false := rfl

theorem negotiated_delivers_two :
    ∃ reads : List Bytes,
      (reads.foldl (fun r bytes => ppposInput (logger.upper Ppp.sha1) r.1 r.2 bytes)
        ((startingPcb, []), ppposConnect)).1.2 =
      [.ip4 [0x45, 0x7e], .control pppLcp [9, 1, 0, 4], .ip4 [0x45, 2]] :=
  ⟨_, negotiated_delivers Ppp.sha1 false false starting_ends rfl rfl starting_open
    (c := startingPcb) (d := startingPcb) ⟨rfl, rfl, rfl, rfl, by decide, rfl, rfl⟩
    connectAccm_session tunnelOps tunnelOps_fit ⟨by decide, by decide, trivial⟩
    (p := ppposConnect) connectAccm_session (fun _ h => h) rfl
    tunnelResults (tunnelOps_written startingPcb) connect_waiting
    [(coreRun Ppp.sha1 pppOutput startingPcb ppposConnect ⟨[], tunnelResults⟩ tunnelOps).2.2.2.written]
    (List.append_nil _)⟩

end PptpProxy.Ppp
