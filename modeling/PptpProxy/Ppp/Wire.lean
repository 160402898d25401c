/-
  Both ends of the serial line: what `pppos_write` and `pppos_netif_output` put on it, and what
  `pppos_input` on the other side makes of that.

  The bytes go out through `ppp_output` of `proxy-engine/main.c`, whose `write` may take less than it
  was given and may fail in the middle of a frame.  `Tracks` says that what has been written and what
  is in the buffer are the frame so far, or that writing has failed behind a part of it.
-/
import PptpProxy.Ppp.Receiver

namespace PptpProxy.Ppp

open CLib

universe u

/-! ## Writing a frame -/

/-- What a `write` to the terminal can return. -/
inductive WriteResult
  | wrote (n : Nat)
  | interrupted
  | failed
  deriving DecidableEq, Repr

/-- The terminal: what has been written to it, and what the next calls of `write` will return; when they
    run out it has failed for good. -/
structure Tty where
  written : Bytes
  results : List WriteResult
  deriving DecidableEq, Repr

/-- The loop of `ppp_output`, with `sent` bytes behind it. -/
def writeLoop (data : Bytes) : List WriteResult → Bytes → Nat → Nat × Tty
  | [], written, sent => (sent, ⟨written, []⟩)
  | r :: results, written, sent =>
    if data.length ≤ sent then (sent, ⟨written, r :: results⟩)
    else
      match r with
      | .wrote n =>
        -- `write` returns 0 and `write` fails: the loop ends
        if 0 < n then
          let taken := (data.drop sent).take n
          writeLoop data results (written ++ taken) (sent + taken.length)
        else (sent, ⟨written, results⟩)
      | .interrupted => writeLoop data results written sent
      | .failed => (sent, ⟨written, results⟩)

/-- `ppp_output`. -/
def pppOutput (tty : Tty) (data : Bytes) : Nat × Tty :=
  writeLoop data tty.results tty.written 0

section

variable {σ : Type u} {cb : σ → Bytes → Nat × σ} {wire : σ → Bytes}

/-- `output_cb` takes a front part of what it is given, and says how much. -/
structure Writes (cb : σ → Bytes → Nat × σ) (wire : σ → Bytes) : Prop where
  le : ∀ ctx data, (cb ctx data).1 ≤ data.length
  wire : ∀ ctx data, wire (cb ctx data).2 = wire ctx ++ data.take (cb ctx data).1

theorem writeLoop_writes (data : Bytes) (results : List WriteResult) (base : Bytes) (sent : Nat)
    (hsent : sent ≤ data.length) :
    (writeLoop data results (base ++ data.take sent) sent).1 ≤ data.length ∧
      (writeLoop data results (base ++ data.take sent) sent).2.written =
        base ++ data.take (writeLoop data results (base ++ data.take sent) sent).1 := by
  induction results generalizing sent with
  | nil => exact ⟨hsent, rfl⟩
  | cons r results ih =>
    unfold writeLoop
    by_cases hall : data.length ≤ sent
    · simp only [if_pos hall]
      exact ⟨hsent, trivial⟩
    · simp only [if_neg hall]
      cases r with
      | wrote n =>
        by_cases hn : 0 < n
        · simp only [if_pos hn]
          have htaken : data.take sent ++ (data.drop sent).take n =
              data.take (sent + ((data.drop sent).take n).length) := by
            rw [List.take_add, List.length_take]
            congr 1
            rcases Nat.le_total n (data.drop sent).length with h | h
            · rw [Nat.min_eq_left h]
            · rw [Nat.min_eq_right h, List.take_of_length_le h, List.take_length]
          rw [List.append_assoc, htaken]
          refine ih _ ?_
          rw [List.length_take, List.length_drop]
          omega
        · simp only [if_neg hn]
          exact ⟨hsent, trivial⟩
      | interrupted => exact ih sent hsent
      | failed => exact ⟨hsent, rfl⟩

/-- A `write` that stops in the middle leaves a front part on the terminal. -/
theorem pppOutput_writes : Writes pppOutput Tty.written where
  le tty data := by
    have h := (writeLoop_writes data tty.results tty.written 0 (Nat.zero_le _)).1
    rwa [List.take_zero, List.append_nil] at h
  wire tty data := by
    have h := (writeLoop_writes data tty.results tty.written 0 (Nat.zero_le _)).2
    rwa [List.take_zero, List.append_nil] at h

/-- `t` is the frame so far and `f` its check value: a part of it has gone out and the rest is in the
    buffer, which it fits; or writing has failed. -/
inductive Tracks (wire : σ → Bytes) (base t : Bytes) (f : BitVec 16) (o : Output σ) : Prop
  | ok (out : Bytes) (err : o.err = .ok) (sent : wire o.ctx = base ++ out) (split : t = out ++ o.nb)
    (room : o.nb.length ≤ pbufPoolBufsize) (fcs : o.fcs = f)
  | failed (pre more : Bytes) (err : o.err = .interface) (sent : wire o.ctx = base ++ pre)
    (split : t = pre ++ more) (short : more ≠ [])

theorem Tracks.flush (hw : Writes cb wire) {base t : Bytes} {f : BitVec 16} {o : Output σ}
    (h : Tracks wire base t f o) (hok : o.err = .ok) :
    Tracks wire base t f (outputFlush cb o) ∧
      ((outputFlush cb o).err = .ok → (outputFlush cb o).nb = []) := by
  cases h with
  | failed pre more err => exact absurd (hok.symm.trans err) (by decide)
  | ok out err sent split room fcs =>
    have hle := hw.le o.ctx o.nb
    have hwire := hw.wire o.ctx o.nb
    unfold outputFlush
    by_cases hall : (cb o.ctx o.nb).1 ≠ o.nb.length
    · simp only [if_pos hall]
      refine ⟨Tracks.failed (out ++ o.nb.take (cb o.ctx o.nb).1) (o.nb.drop (cb o.ctx o.nb).1) rfl ?_
        ?_ ?_, fun h => by cases h⟩
      · rw [hwire, sent, List.append_assoc]
      · rw [split, List.append_assoc, List.take_append_drop]
      · intro hnil
        have := List.drop_eq_nil_iff.mp hnil
        omega
    · simp only [if_neg hall]
      have hlen : (cb o.ctx o.nb).1 = o.nb.length := not_not.mp hall
      refine ⟨Tracks.ok (out ++ o.nb) err ?_ ?_ (Nat.zero_le _) fcs, fun _ => trivial⟩
      · show wire (cb o.ctx o.nb).2 = _
        rw [hwire, sent, hlen, List.take_length, List.append_assoc]
      · rw [List.append_nil]
        exact split

/-- The bytes of one call of `pppos_output_append`. -/
def appended (p : Pppos) (c : UInt8) (accm : Bool) : Bytes :=
  if accm && escapeP p.outAccm c then [pppEscape, c ^^^ pppTrans] else [c]

theorem appended_length (p : Pppos) (c : UInt8) (accm : Bool) :
    (appended p c accm).length ≤ 2 := by
  unfold appended
  split <;> simp

theorem Tracks.append (hw : Writes cb wire) {base t : Bytes} {f : BitVec 16} {o : Output σ}
    (h : Tracks wire base t f o) (p : Pppos) (c : UInt8) (accm fcs : Bool) :
    Tracks wire base (t ++ appended p c accm) (if fcs then pppFcs f c else f)
      (ppposOutputAppend cb p o c accm fcs) := by
  have hput : ∀ o' : Output σ, Tracks wire base t f o' → o'.err = .ok →
      o'.nb.length + 2 ≤ pbufPoolBufsize →
      Tracks wire base (t ++ appended p c accm) (if fcs then pppFcs f c else f)
        { o' with
          fcs := if fcs then pppFcs o'.fcs c else o'.fcs
          nb := o'.nb ++ appended p c accm } := by
    intro o' ho' hok hroom
    cases ho' with
    | failed pre more err => exact absurd (hok.symm.trans err) (by decide)
    | ok out err sent split room hfcs =>
      refine Tracks.ok out err sent ?_ ?_ ?_
      · rw [split, List.append_assoc]
      · rw [List.length_append]
        have := appended_length p c accm
        omega
      · rw [hfcs]
  have hfail : ∀ o' : Output σ, Tracks wire base t f o' → o'.err ≠ .ok →
      Tracks wire base (t ++ appended p c accm) (if fcs then pppFcs f c else f) o' := by
    intro o' ho' hne
    cases ho' with
    | ok out err => exact absurd err hne
    | failed pre more err sent split short =>
      refine Tracks.failed pre (more ++ appended p c accm) err sent ?_ (by simp [short])
      rw [split, List.append_assoc]
  unfold ppposOutputAppend
  by_cases hok : o.err = .ok
  · rw [if_neg (not_not_intro hok)]
    by_cases hroom : pbufPoolBufsize - o.nb.length < 2
    · obtain ⟨hflush, hempty⟩ := h.flush hw hok
      simp only [if_pos hroom]
      by_cases hok' : (outputFlush cb o).err = .ok
      · rw [if_neg (not_not_intro hok')]
        refine hput _ hflush hok' ?_
        rw [hempty hok']
        decide
      · rw [if_pos hok']
        exact hfail _ hflush hok'
    · simp only [if_neg hroom, if_neg (not_not_intro hok)]
      exact hput _ h hok (by omega)
  · rw [if_pos hok]
    exact hfail o h hok

/-- The bytes of a frame on the line: a flag character after an idle time, the contents, a flag
    character. -/
def idleFlag (p : Pppos) (now : BitVec 32) : Bytes :=
  if pppMaxidleflag ≤ now - p.lastXmit then [pppFlag] else []

def contents (p : Pppos) (body : Bytes) : Bytes := hdlc.stuff (escapeP p.outAccm) (sealed body)

theorem appended_escaped (p : Pppos) (c : UInt8) :
    appended p c true = hdlc.stuffOne (escapeP p.outAccm) c := rfl

theorem appended_flag (p : Pppos) : appended p pppFlag false = [pppFlag] := rfl

theorem Tracks.body (hw : Writes cb wire) (p : Pppos) (body : Bytes) {base t : Bytes}
    {f : BitVec 16} {o : Output σ} (h : Tracks wire base t f o) :
    Tracks wire base (t ++ hdlc.stuff (escapeP p.outAccm) body) (body.foldl pppFcs f)
      (body.foldl (fun o c => ppposOutputAppend cb p o c true true) o) := by
  induction body generalizing t f o with
  | nil =>
    rw [Stuffing.stuff_nil, List.append_nil]
    exact h
  | cons c body ih =>
    rw [Stuffing.stuff_cons, ← List.append_assoc, ← appended_escaped]
    exact ih (h.append hw p c true true)

/-- How a frame ends: sent and on the line as a whole, or failed behind a proper part of it. -/
inductive Ended (wire : σ → Bytes) (base t : Bytes) (p : Pppos) (now : BitVec 32) :
    Err × Pppos × σ → Prop
  | ok (ctx : σ) (sent : wire ctx = base ++ t) :
    Ended wire base t p now (.ok, { p with lastXmit := now }, ctx)
  | failed (ctx : σ) (pre more : Bytes) (sent : wire ctx = base ++ pre) (split : t = pre ++ more)
    (short : more ≠ []) : Ended wire base t p now (.interface, { p with lastXmit := 0 }, ctx)

theorem Tracks.remaining (hw : Writes cb wire) (now : BitVec 32) (p : Pppos) {base t : Bytes}
    {f : BitVec 16} {o : Output σ} (h : Tracks wire base t f o) :
    Ended wire base t p now (outputRemaining cb now p o) := by
  -- behind the last flush the buffer is empty
  have hend : ∀ o' : Output σ, Tracks wire base t f o' → (o'.err = .ok → o'.nb = []) →
      Ended wire base t p now
        (if o'.err = .ok then (.ok, { p with lastXmit := now }, o'.ctx)
          else (o'.err, { p with lastXmit := 0 }, o'.ctx)) := by
    intro o' ho' hempty
    cases ho' with
    | ok out err sent split room fcs =>
      rw [if_pos err]
      refine Ended.ok o'.ctx ?_
      rw [sent, split, hempty err, List.append_nil]
    | failed pre more err sent split short =>
      have hne : ¬ o'.err = .ok := by
        rw [err]
        decide
      rw [if_neg hne, err]
      exact Ended.failed o'.ctx pre more sent split short
  unfold outputRemaining
  by_cases hflush : o.err = .ok ∧ 0 < o.nb.length
  · obtain ⟨htracks, hempty⟩ := h.flush hw hflush.1
    simp only [if_pos hflush]
    exact hend _ htracks hempty
  · simp only [if_neg hflush]
    refine hend o h fun hok => ?_
    rcases Nat.eq_zero_or_pos o.nb.length with hlen | hlen
    · exact List.length_eq_zero_iff.mp hlen
    · exact absurd ⟨hok, hlen⟩ hflush

theorem Tracks.last (hw : Writes cb wire) (now : BitVec 32) (p : Pppos) {base t : Bytes}
    {f : BitVec 16} {o : Output σ} (h : Tracks wire base t f o) :
    Ended wire base (t ++ hdlc.stuff (escapeP p.outAccm) (trailer f) ++ [pppFlag]) p now
      (ppposOutputLast cb now p o) := by
  cases h with
  | failed pre more err sent split short =>
    have hne : o.err ≠ .ok := by
      rw [err]
      decide
    have hskip : ∀ c accm fcs, ppposOutputAppend cb p o c accm fcs = o := fun _ _ _ => if_pos hne
    have hmore : Tracks wire base
        (t ++ hdlc.stuff (escapeP p.outAccm) (trailer f) ++ [pppFlag]) f o := by
      refine Tracks.failed pre (more ++ hdlc.stuff (escapeP p.outAccm) (trailer f) ++ [pppFlag])
        err sent ?_ (by simp)
      rw [split]
      simp only [List.append_assoc]
    unfold ppposOutputLast
    simp only [hskip]
    exact hmore.remaining hw now p
  | ok out err sent split room fcs =>
    have h0 : Tracks wire base t o.fcs o := Tracks.ok out err sent split room rfl
    have h1 := h0.append hw p ⟨(~~~o.fcs).setWidth 8⟩ true false
    have h2 := h1.append hw p ⟨(~~~o.fcs >>> 8).setWidth 8⟩ true false
    have h3 := h2.append hw p pppFlag false false
    have ht : t ++ hdlc.stuff (escapeP p.outAccm) (trailer f) ++ [pppFlag] =
        t ++ appended p ⟨(~~~o.fcs).setWidth 8⟩ true ++
          appended p ⟨(~~~o.fcs >>> 8).setWidth 8⟩ true ++ appended p pppFlag false := by
      rw [appended_escaped, appended_escaped, appended_flag, ← fcs]
      simp only [trailer, Stuffing.stuff_cons, Stuffing.stuff_nil, List.append_nil,
        List.append_assoc]
    rw [ht]
    exact h3.remaining hw now p

/-- One frame. -/
theorem outputFrame_ended (hw : Writes cb wire) (now : BitVec 32) (p : Pppos) (ctx : σ)
    (body : Bytes) :
    Ended wire (wire ctx) (idleFlag p now ++ contents p body ++ [pppFlag]) p now
      (outputFrame cb now true p ctx body) := by
  have h0 : Tracks wire (wire ctx) [] pppInitFcs ⟨ctx, .ok, [], pppInitFcs⟩ :=
    Tracks.ok [] rfl (List.append_nil _).symm rfl (Nat.zero_le _) rfl
  have hidle : Tracks wire (wire ctx) (idleFlag p now) pppInitFcs
      (if pppMaxidleflag ≤ now - p.lastXmit then
        ppposOutputAppend cb p ⟨ctx, .ok, [], pppInitFcs⟩ pppFlag false false
      else ⟨ctx, .ok, [], pppInitFcs⟩) := by
    unfold idleFlag
    by_cases hi : pppMaxidleflag ≤ now - p.lastXmit
    · rw [if_pos hi, if_pos hi]
      exact h0.append hw p pppFlag false false
    · rw [if_neg hi, if_neg hi]
      exact h0
  have hlast := (hidle.body hw p body).last hw now p
  have ht : idleFlag p now ++ contents p body ++ [pppFlag] =
      idleFlag p now ++ hdlc.stuff (escapeP p.outAccm) body ++
        hdlc.stuff (escapeP p.outAccm) (trailer (body.foldl pppFcs pppInitFcs)) ++ [pppFlag] := by
    rw [contents, sealed, Stuffing.stuff_append]
    simp only [List.append_assoc]
  rw [ht]
  exact hlast

end

/-! ## From end to end -/

section

variable {m : ExtAccm}

/-- The packets that a receiver finds on a line on which `w` is all there has been. -/
def delivered (m : ExtAccm) (w : Bytes) : List Bytes :=
  (Stuffing.frames pppFlag [] w).tail.filterMap fun f => deframe (hdlc.unstuff (escapeP m) false f)

/-- The line is behind a flag. -/
def Clean (w : Bytes) : Prop :=
  Stuffing.frames pppFlag [] w ≠ [] ∧ Stuffing.rest pppFlag [] w = []

/-- Contents that the next flag will close. -/
def loose (w : Bytes) : Nat :=
  if Stuffing.frames pppFlag [] w = [] ∨ Stuffing.rest pppFlag [] w = [] then 0 else 1

theorem Clean.loose {w : Bytes} (h : Clean w) : loose w = 0 := if_pos (Or.inr h.2)

theorem loose_le (w : Bytes) : loose w ≤ 1 := by
  unfold Ppp.loose
  split <;> decide

theorem delivered_append {w : Bytes} (h : Stuffing.frames pppFlag [] w ≠ []) (x : Bytes) :
    delivered m (w ++ x) = delivered m w ++ accepted m (Stuffing.rest pppFlag [] w) x := by
  unfold delivered accepted
  rw [Stuffing.frames_append, List.tail_append_of_ne_nil h, List.filterMap_append]

/-- A flag closes what is loose, which may pass for a packet. -/
theorem clean_flag (w : Bytes) :
    Clean (w ++ [pppFlag]) ∧
      ∃ junk, delivered m (w ++ [pppFlag]) = delivered m w ++ junk ∧ junk.length ≤ loose w := by
  obtain ⟨hframes, hrest⟩ := Stuffing.frames_flag pppFlag (Stuffing.rest pppFlag [] w)
  refine ⟨⟨?_, ?_⟩, ?_⟩
  · rw [Stuffing.frames_append, hframes]
    simp
  · rw [Stuffing.rest_append, hrest]
  by_cases hnone : Stuffing.frames pppFlag [] w = []
  · refine ⟨[], ?_, Nat.zero_le _⟩
    unfold delivered
    rw [Stuffing.frames_append, hframes, hnone]
    rfl
  · refine ⟨_, delivered_append hnone _, ?_⟩
    rw [accepted_flag]
    by_cases hempty : Stuffing.rest pppFlag [] w = []
    · rw [hempty]
      exact Nat.zero_le _
    · unfold loose
      rw [if_neg (by tauto)]
      cases deframe (hdlc.unstuff (escapeP m) false (Stuffing.rest pppFlag [] w)) <;> simp

/-- A part of a frame delivers nothing. -/
theorem Clean.part {w : Bytes} (h : Clean w) {x : Bytes} (hx : pppFlag ∉ x) :
    delivered m (w ++ x) = delivered m w := by
  rw [delivered_append h.1, accepted, (Stuffing.frames_flagFree _ hx).1]
  exact List.append_nil _

/-- A frame delivers its packet. -/
theorem Clean.whole {w : Bytes} (h : Clean w) {out : ExtAccm} (ho : SessionAccm out)
    (hm : SessionAccm m) (hcover : ∀ c, escapeP m c = true → escapeP out c = true) {u packet : Bytes}
    (hu : deframe u = some packet) :
    delivered m (w ++ (hdlc.stuff (escapeP out) u ++ [pppFlag])) = delivered m w ++ [packet] ∧
      Clean (w ++ (hdlc.stuff (escapeP out) u ++ [pppFlag])) := by
  have hfree := flag_free ho u
  obtain ⟨hframes, hrest⟩ := Stuffing.frames_flagFree [] hfree
  have hunstuff : hdlc.unstuff (escapeP m) false (hdlc.stuff (escapeP out) u) = u := by
    have hround := (hdlc_covers ho hm hcover).unstuff_stuff u []
    rwa [List.append_nil, Stuffing.unstuff, List.append_nil] at hround
  have haccepted : accepted m [] (hdlc.stuff (escapeP out) u ++ [pppFlag]) = [packet] := by
    rw [accepted_append, accepted, hframes, hrest, List.nil_append, accepted_flag, hunstuff, hu]
    rfl
  rw [← List.append_assoc]
  refine ⟨?_, (clean_flag (m := m) _).1⟩
  rw [List.append_assoc, delivered_append h.1, h.2, haccepted]

/-- What a sender and the line are to each other: the line is behind a flag, or the next frame will
    begin with one. -/
structure Linked (m : ExtAccm) (w : Bytes) (p : Pppos) (sent : List Bytes) (attempts : Nat) :
    Prop where
  session : SessionAccm p.outAccm
  cover : ∀ c, escapeP m c = true → escapeP p.outAccm c = true
  clean : Clean w ∨ p.lastXmit = 0
  sublist : sent.Sublist (delivered m w)
  count : (delivered m w).length + loose w ≤ attempts

/-- The front of a frame: with it the line is behind a flag in any case. -/
theorem Linked.idle {w : Bytes} {p : Pppos} {sent : List Bytes} {attempts : Nat}
    (h : Linked m w p sent attempts) {now : BitVec 32} (hnow : pppMaxidleflag ≤ now) :
    Clean (w ++ idleFlag p now) ∧ ∃ junk, delivered m (w ++ idleFlag p now) = delivered m w ++ junk ∧
      junk.length ≤ loose w := by
  unfold idleFlag
  by_cases hi : pppMaxidleflag ≤ now - p.lastXmit
  · rw [if_pos hi]
    exact clean_flag w
  · rw [if_neg hi, List.append_nil]
    rcases h.clean with hclean | hlast
    · exact ⟨hclean, [], (List.append_nil _).symm, Nat.zero_le _⟩
    · have hzero : now - (0 : BitVec 32) = now := BitVec.sub_zero now
      rw [hlast, hzero] at hi
      exact absurd hnow hi

/-- A proper front part of a frame. -/
theorem frame_part {idle c pre more : Bytes} (hidle : idle = [] ∨ idle = [pppFlag])
    (hfree : pppFlag ∉ c) (h : idle ++ c ++ [pppFlag] = pre ++ more) (hmore : more ≠ []) :
    pre = [] ∨ ∃ x, pre = idle ++ x ∧ pppFlag ∉ x := by
  obtain ⟨more', b, rfl⟩ : ∃ more' b, more = more' ++ [b] :=
    ⟨more.dropLast, more.getLast hmore, (List.dropLast_append_getLast hmore).symm⟩
  rw [← List.append_assoc] at h
  have hpre : idle ++ c = pre ++ more' := (List.append_inj' h rfl).1
  rcases hidle with rfl | rfl
  · refine Or.inr ⟨pre, rfl, fun hmem => hfree ?_⟩
    rw [List.nil_append] at hpre
    rw [hpre]
    exact List.mem_append_left _ hmem
  · cases pre with
    | nil => exact Or.inl rfl
    | cons a x =>
      rw [List.cons_append, List.cons_append, List.nil_append] at hpre
      obtain ⟨ha, hx⟩ := List.cons.inj hpre
      refine Or.inr ⟨x, by rw [← ha]; rfl, fun hmem => hfree ?_⟩
      rw [hx]
      exact List.mem_append_left _ hmem

end

section

variable {σ : Type u} {cb : σ → Bytes → Nat × σ} {wire : σ → Bytes} {m : ExtAccm}

/-- One frame, sent or failed. -/
theorem Linked.frame (hw : Writes cb wire) (hm : SessionAccm m) {p : Pppos} {ctx : σ}
    {sent : List Bytes} {attempts : Nat} (h : Linked m (wire ctx) p sent attempts)
    {now : BitVec 32} (hnow : pppMaxidleflag ≤ now) {body packet : Bytes}
    (hbody : deframe (sealed body) = some packet) :
    Linked m (wire (outputFrame cb now true p ctx body).2.2) (outputFrame cb now true p ctx body).2.1
      (sent ++ if (outputFrame cb now true p ctx body).1 = .ok then [packet] else [])
      (attempts + 1) := by
  obtain ⟨hclean, junk, hjunk, hloose⟩ := h.idle hnow
  have hcount := h.count
  have hsub : sent.Sublist (delivered m (wire ctx) ++ junk) :=
    h.sublist.trans (List.sublist_append_left _ _)
  have hended := outputFrame_ended hw now p ctx body
  generalize outputFrame cb now true p ctx body = r at hended
  cases hended with
  | ok ctx' hsent =>
    obtain ⟨hdel, hclean'⟩ := hclean.whole h.session hm h.cover hbody
    have hwire : wire ctx' = wire ctx ++ idleFlag p now ++ (contents p body ++ [pppFlag]) := by
      rw [hsent]
      simp only [List.append_assoc]
    have hdel' : delivered m (wire ctx') = delivered m (wire ctx) ++ junk ++ [packet] := by
      rw [hwire, ← hjunk]
      exact hdel
    have hclean'' : Clean (wire ctx') := by
      rw [hwire]
      exact hclean'
    refine ⟨h.session, h.cover, Or.inl hclean'', ?_, ?_⟩
    · rw [hdel', if_pos rfl]
      exact hsub.append (List.Sublist.refl _)
    · rw [hdel', hclean''.loose]
      simp only [List.length_append, List.length_singleton]
      omega
  | failed ctx' pre more hsent hsplit hshort =>
    have hnone : (sent ++ if (Err.interface : Err) = .ok then [packet] else []) = sent := by
      rw [if_neg (by decide), List.append_nil]
    have hidle : idleFlag p now = [] ∨ idleFlag p now = [pppFlag] := by
      unfold idleFlag
      split
      · exact Or.inr rfl
      · exact Or.inl rfl
    have hle := loose_le (wire ctx')
    rcases frame_part hidle (flag_free h.session _) hsplit hshort with hpre | ⟨x, hpre, hx⟩
    · have hwire : wire ctx' = wire ctx := by
        rw [hsent, hpre, List.append_nil]
      refine ⟨h.session, h.cover, Or.inr rfl, ?_, ?_⟩
      · rw [hnone, hwire]
        exact h.sublist
      · rw [hwire]
        omega
    · have hdel : delivered m (wire ctx') = delivered m (wire ctx) ++ junk := by
        rw [hsent, hpre, ← List.append_assoc, hclean.part hx, hjunk]
      refine ⟨h.session, h.cover, Or.inr rfl, ?_, ?_⟩
      · rw [hnone, hdel]
        exact hsub
      · show (delivered m (wire ctx')).length + loose (wire ctx') ≤ attempts + 1
        rw [hdel, List.length_append]
        omega

/-! ## Whole runs of the sender -/

/-- What the PPP core asks of the link: a control packet, a packet of the interface, new options. -/
inductive LinkOp
  | write (now : BitVec 32) (alloc : Bool) (protocol : BitVec 16) (payload : Bytes)
  | netifOutput (now : BitVec 32) (alloc : Bool) (protocol : BitVec 16) (pb : List Bytes)
  | sendConfig (accm : BitVec 32) (pcomp accomp : Bool)

/-- The packet of an operation, as the receiving `ppp_input` is to see it. -/
def LinkOp.packet : LinkOp → Option Bytes
  | .write _ _ protocol payload => some (hiByte protocol :: loByte protocol :: payload)
  | .netifOutput _ _ protocol pb => some (hiByte protocol :: loByte protocol :: pb.flatten)
  | .sendConfig .. => none

/-- The packet, where there is memory for its frame. -/
def LinkOp.framed : LinkOp → Option Bytes
  | .write _ true protocol payload => some (hiByte protocol :: loByte protocol :: payload)
  | .netifOutput _ true protocol pb => some (hiByte protocol :: loByte protocol :: pb.flatten)
  | _ => none

/-- One operation; the core puts the fields of a control packet in front of it itself. -/
def LinkOp.run (cb : σ → Bytes → Nat × σ) (p : Pppos) (ctx : σ) : LinkOp → Err × Pppos × σ
  | .write now alloc protocol payload =>
    ppposWrite cb now alloc p ctx
      ([pppAllstations, pppUi, hiByte protocol, loByte protocol] ++ payload)
  | .netifOutput now alloc protocol pb => ppposNetifOutput cb now alloc p ctx pb protocol
  | .sendConfig accm pcomp accomp => (.ok, ppposSendConfig p accm pcomp accomp, ctx)

/-- Operations one after the other, with the packets of those that did not fail. -/
def linkRun (cb : σ → Bytes → Nat × σ) (p : Pppos) (ctx : σ) : List LinkOp → List Bytes × Pppos × σ
  | [] => ([], p, ctx)
  | op :: ops =>
    match op.run cb p ctx with
    | (err, p, ctx) =>
      match linkRun cb p ctx ops with
      | (sent, r) => ((if err = .ok then op.packet.toList else []) ++ sent, r)

/-- A packet that the frame format can carry, sent when the clock is past its first tenth of a second;
    options that the receiver has asked for. -/
def LinkOp.Fit (m : ExtAccm) : LinkOp → Prop
  | .write now _ protocol payload =>
    pppMaxidleflag ≤ now ∧ Plain true true protocol ∧ payload.length + 2 ≤ maxData
  | .netifOutput now _ protocol pb =>
    pppMaxidleflag ≤ now ∧ Plain true true protocol ∧ pb.flatten.length + 2 ≤ maxData
  | .sendConfig accm _ _ =>
    ∀ c, escapeP m c = true → escapeP (loadAccm accm connectAccm) c = true

theorem Plain.weaken {protocol : BitVec 16} (h : Plain true true protocol) (accomp pcomp : Bool) :
    Plain accomp pcomp protocol :=
  ⟨h.odd, h.even, fun _ _ => h.address rfl rfl, fun _ _ => h.control rfl rfl⟩

/-- The options in force do not change what is escaped beyond the control codes. -/
theorem Linked.config {w : Bytes} {p : Pppos} {sent : List Bytes} {attempts : Nat}
    (h : Linked m w p sent attempts) (accm : BitVec 32) (pcomp accomp : Bool)
    (hcover : ∀ c, escapeP m c = true → escapeP (loadAccm accm connectAccm) c = true) :
    Linked m w (ppposSendConfig p accm pcomp accomp) sent attempts := by
  obtain ⟨a, ha⟩ := h.session
  have hload : loadAccm accm p.outAccm = loadAccm accm connectAccm := by
    rw [ha]
    funext i
    unfold loadAccm
    by_cases hi : i.val < 4
    · simp only [if_pos hi]
    · simp only [if_neg hi]
  refine ⟨loadAccm_session accm h.session, ?_, h.clean, h.sublist, h.count⟩
  intro c hc
  show escapeP (loadAccm accm p.outAccm) c = true
  rw [hload]
  exact hcover c hc

/-- One operation. -/
theorem Linked.op (hw : Writes cb wire) (hm : SessionAccm m) {p : Pppos} {ctx : σ}
    {sent : List Bytes} {attempts : Nat} (h : Linked m (wire ctx) p sent attempts) (op : LinkOp)
    (hop : op.Fit m) :
    Linked m (wire (op.run cb p ctx).2.2) (op.run cb p ctx).2.1
      (sent ++ if (op.run cb p ctx).1 = .ok then op.packet.toList else [])
      (attempts + op.framed.toList.length) := by
  have hnoMemory : ∀ packet : Option Bytes,
      Linked m (wire ctx) p (sent ++ if (Err.mem : Err) = .ok then packet.toList else []) attempts := by
    intro packet
    rw [if_neg (by decide), List.append_nil]
    exact h
  have hframe : ∀ (now : BitVec 32) (body packet : Bytes), pppMaxidleflag ≤ now →
      deframe (sealed body) = some packet →
      Linked m (wire (outputFrame cb now true p ctx body).2.2)
        (outputFrame cb now true p ctx body).2.1
        (sent ++ if (outputFrame cb now true p ctx body).1 = .ok then [packet] else [])
        (attempts + 1) := fun now body packet hnow hbody => h.frame hw hm hnow hbody
  cases op with
  | write now alloc protocol payload =>
    obtain ⟨hnow, hplain, hlen⟩ := hop
    have hrun : (LinkOp.write now alloc protocol payload).run cb p ctx = outputFrame cb now alloc p ctx
        (fields false false protocol ++ payload) := rfl
    rw [hrun]
    cases alloc with
    | false => exact hnoMemory _
    | true => exact hframe now _ _ hnow (deframe_sealed (hplain.weaken false false) hlen)
  | netifOutput now alloc protocol pb =>
    obtain ⟨hnow, hplain, hlen⟩ := hop
    have hrun : (LinkOp.netifOutput now alloc protocol pb).run cb p ctx =
        outputFrame cb now alloc p ctx (fields p.accomp p.pcomp protocol ++ pb.flatten) := rfl
    rw [hrun]
    cases alloc with
    | false => exact hnoMemory _
    | true => exact hframe now _ _ hnow (deframe_sealed (hplain.weaken p.accomp p.pcomp) hlen)
  | sendConfig accm pcomp accomp =>
    have hconfig := h.config accm pcomp accomp hop
    show Linked m (wire ctx) _ (sent ++ if (Err.ok : Err) = .ok then [] else []) _
    rw [if_pos rfl, List.append_nil]
    exact hconfig

theorem Linked.run (hw : Writes cb wire) (hm : SessionAccm m) (ops : List LinkOp)
    (hops : ∀ op ∈ ops, op.Fit m) {p : Pppos} {ctx : σ} {sent : List Bytes} {attempts : Nat}
    (h : Linked m (wire ctx) p sent attempts) :
    Linked m (wire (linkRun cb p ctx ops).2.2) (linkRun cb p ctx ops).2.1
      (sent ++ (linkRun cb p ctx ops).1) (attempts + (ops.filterMap LinkOp.framed).length) := by
  induction ops generalizing p ctx sent attempts with
  | nil =>
    rw [linkRun, List.append_nil]
    exact h
  | cons op ops ih =>
    have hstep := h.op hw hm op (hops op List.mem_cons_self)
    have hrest := ih (fun x hx => hops x (List.mem_cons_of_mem op hx)) hstep
    have hcount : attempts + op.framed.toList.length + (ops.filterMap LinkOp.framed).length =
        attempts + ((op :: ops).filterMap LinkOp.framed).length := by
      rw [List.filterMap_cons]
      cases op.framed with
      | none => rfl
      | some packet =>
        simp only [Option.toList_some, List.length_cons, List.length_nil]
        omega
    rw [hcount, List.append_assoc] at hrest
    exact hrest

end

/-- An operation that does not fail sends what there is memory for. -/
theorem LinkOp.run_sent {σ : Type u} {cb : σ → Bytes → Nat × σ} {wire : σ → Bytes}
    (hw : Writes cb wire) (op : LinkOp) (p : Pppos) (ctx : σ)
    (h : (op.run cb p ctx).1 ≠ .interface) :
    (if (op.run cb p ctx).1 = .ok then op.packet.toList else []) = op.framed.toList := by
  have hframe : ∀ (now : BitVec 32) (body : Bytes) (packet : List Bytes),
      (outputFrame cb now true p ctx body).1 ≠ .interface →
      (if (outputFrame cb now true p ctx body).1 = .ok then packet else []) = packet := by
    intro now body packet hne
    have hended := outputFrame_ended hw now p ctx body
    generalize outputFrame cb now true p ctx body = r at hended hne
    cases hended with
    | ok ctx' sent => exact if_pos rfl
    | failed ctx' pre more sent split short => exact absurd rfl hne
  have hnoMemory : ∀ packet : List Bytes, (if (Err.mem : Err) = .ok then packet else []) = [] :=
    fun packet => if_neg (by decide)
  cases op with
  | write now alloc protocol payload =>
    have hrun : (LinkOp.write now alloc protocol payload).run cb p ctx =
      outputFrame cb now alloc p ctx (fields false false protocol ++ payload) := rfl
    rw [hrun] at h ⊢
    cases alloc with
    | false => exact hnoMemory _
    | true => exact hframe now _ _ h
  | netifOutput now alloc protocol pb =>
    have hrun : (LinkOp.netifOutput now alloc protocol pb).run cb p ctx =
      outputFrame cb now alloc p ctx (fields p.accomp p.pcomp protocol ++ pb.flatten) := rfl
    rw [hrun] at h ⊢
    cases alloc with
    | false => exact hnoMemory _
    | true => exact hframe now _ _ h
  | sendConfig accm pcomp accomp => rfl

/-- Reads in any cutting. -/
theorem Waiting.reads {τ : Type u} (deliver : τ → Bytes → τ) {m : ExtAccm} (hm : SessionAccm m)
    {q : Pppos} (hq : Waiting m q) (reads : List Bytes) (s : τ) :
    (reads.foldl (fun r bytes => ppposInput (steady deliver) r.1 r.2 bytes) (s, q)).1 =
      (delivered m reads.flatten).foldl deliver s := by
  rw [ppposInput_reads, ppposInput, if_pos hq.opened]
  exact hq.loop deliver hm reads.flatten [] s

/-- The next `k` writes take a whole buffer. -/
def Tty.Ample (k : Nat) (tty : Tty) : Prop :=
  ∃ rest, tty.results = List.replicate k (.wrote pbufPoolBufsize) ++ rest

theorem Tty.Ample.less {k : Nat} {tty : Tty} (h : tty.Ample (k + 1)) : tty.Ample k := by
  obtain ⟨rest, h⟩ := h
  refine ⟨.wrote pbufPoolBufsize :: rest, ?_⟩
  rw [h, List.replicate_succ', List.append_assoc]
  rfl

theorem Tty.Ample.output {k : Nat} {tty : Tty} (h : tty.Ample (k + 1)) {data : Bytes}
    (hlen : data.length ≤ pbufPoolBufsize) :
    (pppOutput tty data).1 = data.length ∧ (pppOutput tty data).2.Ample k := by
  obtain ⟨rest, hresults⟩ := h
  have hdone : ∀ results written, (writeLoop data results written data.length) =
      (data.length, ⟨written, results⟩) := by
    intro results written
    cases results with
    | nil => rfl
    | cons r results =>
      unfold writeLoop
      rw [if_pos (Nat.le_refl _)]
  unfold pppOutput
  rw [hresults, List.replicate_succ, List.cons_append, writeLoop]
  by_cases hempty : data.length ≤ 0
  · have hzero : data.length = 0 := by omega
    rw [if_pos hempty, hzero]
    exact ⟨rfl, Tty.Ample.less ⟨rest, by rw [List.replicate_succ, List.cons_append]⟩⟩
  · have htake : (data.drop 0).take pbufPoolBufsize = data := by
      rw [List.drop_zero, List.take_of_length_le hlen]
    rw [if_neg hempty]
    simp only [htake, Nat.zero_add, hdone, show 0 < pbufPoolBufsize by decide, if_true]
    exact ⟨trivial, rest, rfl⟩

/-- Nothing has failed, and there are `k` writes to come. -/
structure Fed (k : Nat) (o : Output Tty) : Prop where
  err : o.err = .ok
  room : o.nb.length ≤ pbufPoolBufsize
  ample : o.ctx.Ample k

theorem Fed.flush {k : Nat} {o : Output Tty} (h : Fed (k + 1) o) :
    Fed k (outputFlush pppOutput o) ∧ (outputFlush pppOutput o).nb = [] := by
  obtain ⟨hall, hample⟩ := h.ample.output h.room
  have hwhole : ¬ (pppOutput o.ctx o.nb).1 ≠ o.nb.length := not_not_intro hall
  unfold outputFlush
  simp only [if_neg hwhole]
  exact ⟨⟨h.err, Nat.zero_le _, hample⟩, trivial⟩

theorem Fed.append {k : Nat} {o : Output Tty} (h : Fed (k + 1) o) (p : Pppos) (c : UInt8)
    (accm fcs : Bool) : Fed k (ppposOutputAppend pppOutput p o c accm fcs) := by
  have happended := appended_length p c accm
  unfold appended at happended
  unfold ppposOutputAppend
  rw [if_neg (not_not_intro h.err)]
  by_cases hroom : pbufPoolBufsize - o.nb.length < 2
  · obtain ⟨hflush, hempty⟩ := h.flush
    simp only [if_pos hroom, if_neg (not_not_intro hflush.err)]
    refine ⟨hflush.err, ?_, hflush.ample⟩
    rw [hempty, List.nil_append]
    exact happended.trans (by decide)
  · simp only [if_neg hroom, if_neg (not_not_intro h.err)]
    refine ⟨h.err, ?_, h.ample.less⟩
    rw [List.length_append]
    omega

theorem Fed.body {k : Nat} (p : Pppos) (body : Bytes) {o : Output Tty} (h : Fed (k + body.length) o) :
    Fed k (body.foldl (fun o c => ppposOutputAppend pppOutput p o c true true) o) := by
  induction body generalizing o with
  | nil => exact h
  | cons c body ih => exact ih (Fed.append h p c true true)

theorem Fed.remaining {k : Nat} (now : BitVec 32) (p : Pppos) {o : Output Tty} (h : Fed (k + 1) o) :
    (outputRemaining pppOutput now p o).1 = .ok ∧ (outputRemaining pppOutput now p o).2.2.Ample k := by
  unfold outputRemaining
  by_cases hsome : o.err = .ok ∧ 0 < o.nb.length
  · have hflush := h.flush.1
    simp only [if_pos hsome, if_pos hflush.err]
    exact ⟨trivial, hflush.ample⟩
  · simp only [if_neg hsome, if_pos h.err]
    exact ⟨trivial, h.ample.less⟩

theorem Tty.Ample.frame {k : Nat} {tty : Tty} {body : Bytes} (h : tty.Ample (k + body.length + 5))
    (now : BitVec 32) (p : Pppos) :
    (outputFrame pppOutput now true p tty body).1 = .ok ∧
      (outputFrame pppOutput now true p tty body).2.2.Ample k := by
  have hstart : Fed (k + 4 + body.length + 1) ⟨tty, .ok, [], pppInitFcs⟩ :=
    ⟨rfl, Nat.zero_le _, by rwa [show k + 4 + body.length + 1 = k + body.length + 5 by omega]⟩
  have hidle : Fed (k + 4 + body.length)
      (if pppMaxidleflag ≤ now - p.lastXmit then
        ppposOutputAppend pppOutput p ⟨tty, .ok, [], pppInitFcs⟩ pppFlag false false
      else ⟨tty, .ok, [], pppInitFcs⟩) := by
    split
    · exact hstart.append p pppFlag false false
    · exact ⟨rfl, Nat.zero_le _, hstart.ample.less⟩
  exact ((((hidle.body p body).append p _ true false).append p _ true false).append p _ false
    false).remaining now p

/-- Bytes and flags of an operation, all in all. -/
def LinkOp.cost : LinkOp → Nat
  | .write _ _ _ payload => payload.length + 9
  | .netifOutput _ _ _ pb => pb.flatten.length + 9
  | .sendConfig .. => 0

theorem Tty.Ample.lessBy {k : Nat} (n : Nat) {tty : Tty} (h : tty.Ample (k + n)) : tty.Ample k := by
  induction n with
  | zero => exact h
  | succ n ih => exact ih (Tty.Ample.less h)

theorem fields_length (accomp pcomp : Bool) (protocol : BitVec 16) :
    (fields accomp pcomp protocol).length ≤ 4 := by
  unfold fields protocolBytes
  cases accomp <;> cases pcomp <;> simp <;> split <;> simp

/-- A terminal that takes whole buffers takes every frame. -/
theorem Tty.Ample.op {k : Nat} (op : LinkOp) {tty : Tty} (h : tty.Ample (op.cost + k)) (p : Pppos) :
    (op.run pppOutput p tty).1 ≠ .interface ∧ (op.run pppOutput p tty).2.2.Ample k := by
  have hnoMemory : (Err.mem : Err) ≠ .interface ∧ tty.Ample k := by
    refine ⟨by decide, Tty.Ample.lessBy op.cost ?_⟩
    rwa [Nat.add_comm]
  have hframe : ∀ (now : BitVec 32) (body : Bytes), body.length + 5 ≤ op.cost →
      (outputFrame pppOutput now true p tty body).1 ≠ .interface ∧
        (outputFrame pppOutput now true p tty body).2.2.Ample k := by
    intro now body hcost
    have hample : tty.Ample (k + (op.cost - (body.length + 5)) + body.length + 5) := by
      have hsum : k + (op.cost - (body.length + 5)) + body.length + 5 = op.cost + k := by omega
      rwa [hsum]
    obtain ⟨hok, hrest⟩ := hample.frame now p
    refine ⟨?_, hrest.lessBy⟩
    rw [hok]
    decide
  cases op with
  | write now alloc protocol payload =>
    have hrun : (LinkOp.write now alloc protocol payload).run pppOutput p tty =
      outputFrame pppOutput now alloc p tty (fields false false protocol ++ payload) := rfl
    rw [hrun]
    cases alloc with
    | false => exact hnoMemory
    | true =>
      apply hframe
      rw [List.length_append, LinkOp.cost]
      have := fields_length false false protocol
      omega
  | netifOutput now alloc protocol pb =>
    have hrun : (LinkOp.netifOutput now alloc protocol pb).run pppOutput p tty =
      outputFrame pppOutput now alloc p tty (fields p.accomp p.pcomp protocol ++ pb.flatten) := rfl
    rw [hrun]
    cases alloc with
    | false => exact hnoMemory
    | true =>
      apply hframe
      rw [List.length_append, LinkOp.cost]
      have := fields_length p.accomp p.pcomp protocol
      omega
  | sendConfig accm pcomp accomp =>
    rw [LinkOp.cost, Nat.zero_add] at h
    refine ⟨?_, h⟩
    show (Err.ok : Err) ≠ .interface
    decide

end PptpProxy.Ppp
