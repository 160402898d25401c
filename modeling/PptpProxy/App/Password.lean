/-
  The hand-over of the VPN password: the app's `writeSecret` (`PPTPProxyClient.swift`) puts it into a
  FIFO, the engine's `read_password` (`proxy-engine/main.c`) collects it from there, and `main` cuts it
  at the end of its line.

  The FIFO is the list of the bytes that come through it.  How they come is up to the kernel: each
  turn of the loop has the clock its test sees and what its `read` finds (`FifoTurn`), so a list of
  turns is a way of cutting the bytes into reads, with empty reads and errors in between.  The loop
  itself is described by TWO numbers only, how many bytes the turns so far have offered and the
  size of the buffer (`readLoop_true_iff`).

  What is left out: the 50 ms `usleep` of a turn (the clock of the next turn says how long it took).
-/
import PptpProxy.App.Settings

namespace PptpProxy

open CLib

/-! ## The clock -/

/-- A reading of CLOCK_MONOTONIC. -/
structure Timespec where
  sec : Nat
  nsec : Nat
  nsec_lt : nsec < 1000000000

def Timespec.ms (t : Timespec) : Nat := t.sec * 1000 + t.nsec / 1000000

/-- `sys_now`. -/
def sysNow (t : Timespec) : UInt32 :=
  (UInt64.ofNat t.sec * 1000 + UInt64.ofNat t.nsec / 1000000).toUInt32

/-- A deadline on a counter that wraps around: as long as neither the timeout nor the time that has
    passed reaches half the range, the SIGN of the difference is right. -/
theorem deadline_iff {w : Nat} (start : BitVec w) {timeout elapsed : Nat}
    (ht : 2 * timeout < 2 ^ w) (he : 2 * elapsed < 2 ^ w) :
    0 < ((start + BitVec.ofNat w timeout) - (start + BitVec.ofNat w elapsed)).toInt ↔
      elapsed < timeout := by
  have hdiff : (start + BitVec.ofNat w timeout) - (start + BitVec.ofNat w elapsed) =
      BitVec.ofNat w timeout - BitVec.ofNat w elapsed := by grind
  have hsmall : ∀ n : Nat, 2 * n < 2 ^ w → (n : Int).bmod (2 ^ w) = n := fun n hn =>
    Int.bmod_eq_of_le_mul_two (by omega) (by omega)
  rw [hdiff, BitVec.toInt_sub, BitVec.toInt_ofNat', BitVec.toInt_ofNat', hsmall _ ht, hsmall _ he,
    Int.bmod_eq_of_le_mul_two (by omega) (by omega)]
  omega

theorem sysNow_toBitVec (t : Timespec) : (sysNow t).toBitVec = BitVec.ofNat 32 t.ms := by
  have hlt := t.nsec_lt
  refine BitVec.eq_of_toNat_eq ?_
  unfold sysNow Timespec.ms
  rw [UInt32.toNat_toBitVec, UInt64.toNat_toUInt32, UInt64.toNat_add, UInt64.toNat_mul,
    UInt64.toNat_div, UInt64.toNat_ofNat', UInt64.toNat_ofNat', BitVec.toNat_ofNat]
  have h1000 : (1000 : UInt64).toNat = 1000 := rfl
  have hmillion : (1000000 : UInt64).toNat = 1000000 := rfl
  rw [h1000, hmillion, Nat.mod_eq_of_lt (show t.nsec < 2 ^ 64 by omega)]
  omega

/-- The test of the loop: `(int32_t)(deadline - sys_now()) > 0`. -/
def inTime (deadline : UInt32) (clock : Timespec) : Bool :=
  decide (0 < (deadline - sysNow clock).toInt32)

/-- It is right for every start, also when the deadline has wrapped around. -/
theorem inTime_iff {start clock : Timespec} (hle : start.ms ≤ clock.ms)
    (hlt : clock.ms - start.ms < 2 ^ 31) :
    inTime (sysNow start + 15000) clock = true ↔ clock.ms - start.ms < 15000 := by
  have hnow : BitVec.ofNat 32 clock.ms =
      BitVec.ofNat 32 start.ms + BitVec.ofNat 32 (clock.ms - start.ms) := by
    rw [← BitVec.ofNat_add, Nat.add_sub_cancel' hle]
  unfold inTime
  rw [decide_eq_true_iff, Int32.lt_iff_toInt_lt]
  show 0 < ((sysNow start + 15000 - sysNow clock).toBitVec).toInt ↔ _
  rw [UInt32.toBitVec_sub, UInt32.toBitVec_add, sysNow_toBitVec, sysNow_toBitVec, hnow]
  exact deadline_iff _ (by decide) (by omega)

/-! ## The engine's side -/

/-- What `read` finds in the FIFO: it gives up to `n` of the bytes that are there (none for 0, or when
    there are none), or returns with an error. -/
inductive FifoRead
  | ready (n : Nat)
  /-- `EAGAIN`. -/
  | again
  /-- `EINTR`. -/
  | interrupted
  | failed
  deriving DecidableEq, Repr

/-- One turn of the loop. -/
structure FifoTurn where
  /-- The clock of the loop test. -/
  clock : Timespec
  read : FifoRead

/-- `sizeof(vpn_password)`. -/
def passwordCapacity : Nat := 512

/-- The loop of `read_password`: what `vpn_password` holds, and the value of `done` once the loop is
    left. -/
def readLoop (deadline : UInt32) : List FifoTurn → Bytes → Bytes → Bytes × Option Bool
  | [], _, buffer => (buffer, none)
  | t :: ts, fifo, buffer =>
    if inTime deadline t.clock = true ∧ buffer.length < passwordCapacity - 1 then
      match t.read with
      | .ready n =>
        let count := min n (passwordCapacity - 1 - buffer.length)
        let got := fifo.take count
        -- only a read that got something looks for the newline
        if got ≠ [] ∧ 10 ∈ buffer ++ got then (buffer ++ got, some true)
        else readLoop deadline ts (fifo.drop count) (buffer ++ got)
      | .again => readLoop deadline ts fifo buffer
      | .interrupted => readLoop deadline ts fifo buffer
      | .failed => (buffer, some false)
    else (buffer, some false)

/-- Where `read_password` finds the password. -/
inductive PasswordSource
  /-- No path was given. -/
  | stdin (input : Bytes)
  /-- `open` fails. -/
  | unopened
  /-- The path is not that of a FIFO. -/
  | notFifo
  /-- The clock when the deadline is set, the turns of the loop, and all that comes through the FIFO. -/
  | fifo (start : Timespec) (turns : List FifoTurn) (bytes : Bytes)

/-- `read_password`: what `vpn_password` holds then, and the result, if it has returned. -/
def readPassword : PasswordSource → Bytes × Option Bool
  | .stdin input =>
    match fgets passwordCapacity input with
    | none => ([], some false)
    | some line => (line, some true)
  | .unopened => ([], some false)
  | .notFifo => ([], some false)
  | .fifo start turns bytes => readLoop (sysNow start + 15000) turns bytes []

/-- The C string in `vpn_password` once `main` has put a NUL at its first CR or LF. -/
def trimmed (buffer : Bytes) : Bytes :=
  (cstr buffer).take (strcspn (cstr buffer) (ascii "\r\n"))

/-- What `main` goes on with. -/
inductive Login
  | waiting
  /-- It exits with 2. -/
  | refused
  | password (secret : Bytes)
  deriving DecidableEq, Repr

/-- The part of `main` that gets the password. -/
def mainPassword (source : PasswordSource) : Login :=
  match readPassword source with
  | (_, none) => .waiting
  | (_, some false) => .refused
  | (buffer, some true) => if trimmed buffer = [] then .refused else .password (trimmed buffer)

/-! ## The app's side -/

/-- What an attempt to open the FIFO for writing comes to. -/
inductive FifoOpen
  | opened
  /-- `ENXIO`: nobody has it open for reading. -/
  | noReader
  | interrupted
  | failed
  deriving DecidableEq, Repr

/-- What a `write` into the FIFO comes to. -/
inductive FifoWrite
  | wrote (n : Nat)
  | interrupted
  | failed
  deriving DecidableEq, Repr

/-- The attempts of `writeSecret` to open the FIFO. -/
def openFifo : List FifoOpen → Bool
  | [] => false
  | .opened :: _ => true
  | .noReader :: opens => openFifo opens
  | .interrupted :: opens => openFifo opens
  | .failed :: _ => false

/-- The loop of `writeSecret` over the bytes that are left: what it wrote, and whether it came to the
    end or threw. -/
def writeLoop : List FifoWrite → Bytes → Bytes × Option Bool
  | _, [] => ([], some true)
  | [], _ :: _ => ([], none)
  | .wrote n :: writes, b :: bytes =>
    if n = 0 then ([], some false)
    else
      let (more, ok) := writeLoop writes ((b :: bytes).drop n)
      ((b :: bytes).take n ++ more, ok)
  | .interrupted :: writes, b :: bytes => writeLoop writes (b :: bytes)
  | .failed :: _, _ :: _ => ([], some false)

/-- `writeSecret`: at most 100 attempts to open the FIFO, then the secret and a newline. -/
def writeSecret (opens : Nat → FifoOpen) (writes : List FifoWrite) (secret : Text) :
    Bytes × Option Bool :=
  if openFifo ((List.range 100).map opens) = true then writeLoop writes (utf8 (secret ++ ['\n']))
  else ([], some false)

/-! ## The loop, by the number of bytes -/

/-- How many bytes a read lets through at most. -/
def FifoRead.offer : FifoRead → Nat
  | .ready n => n
  | _ => 0

/-- How many bytes the turns let through at most. -/
def offered (turns : List FifoTurn) : Nat := (turns.map fun t => t.read.offer).sum

/-- Some turns, from the first one on, are all in `G`, and what they let through meets `Q`. -/
def Through (G : FifoTurn → Prop) (turns : List FifoTurn) (Q : Nat → Prop) : Prop :=
  ∃ p, p <+: turns ∧ (∀ t ∈ p, G t) ∧ Q (offered p)

/-- The test of the turn passes, and its read is no hard error. -/
def FifoTurn.Good (deadline : UInt32) (t : FifoTurn) : Prop :=
  inTime deadline t.clock = true ∧ t.read ≠ .failed

section

variable {G G' : FifoTurn → Prop} {Q : Nat → Prop} {t : FifoTurn} {turns : List FifoTurn}

theorem through_nil : Through G [] Q ↔ Q 0 := by
  constructor
  · rintro ⟨p, hp, -, hq⟩
    obtain rfl := List.prefix_nil.mp hp
    exact hq
  · intro hq
    exact ⟨[], List.nil_prefix, fun _ h => (by cases h), hq⟩

theorem through_cons :
    Through G (t :: turns) Q ↔ Q 0 ∨ (G t ∧ Through G turns fun k => Q (t.read.offer + k)) := by
  constructor
  · rintro ⟨p, hp, hgood, hq⟩
    cases p with
    | nil => exact Or.inl hq
    | cons u p =>
      obtain ⟨rfl, htail⟩ := List.cons_prefix_cons.mp hp
      exact Or.inr ⟨hgood u List.mem_cons_self, p, htail,
        fun v hv => hgood v (List.mem_cons_of_mem u hv), hq⟩
  · rintro (hq | ⟨hgood, p, hp, hall, hq⟩)
    · exact ⟨[], List.nil_prefix, fun _ h => (by cases h), hq⟩
    · refine ⟨t :: p, List.cons_prefix_cons.mpr ⟨rfl, hp⟩, fun u hu => ?_, hq⟩
      rcases List.mem_cons.mp hu with rfl | hu
      · exact hgood
      · exact hall u hu

theorem Through.congr (h : ∀ t ∈ turns, G t ↔ G' t) : Through G turns Q ↔ Through G' turns Q := by
  constructor
  · rintro ⟨p, hp, hall, hq⟩
    exact ⟨p, hp, fun t ht => (h t (hp.mem ht)).mp (hall t ht), hq⟩
  · rintro ⟨p, hp, hall, hq⟩
    exact ⟨p, hp, fun t ht => (h t (hp.mem ht)).mpr (hall t ht), hq⟩

end

section

variable {deadline : UInt32} {turns : List FifoTurn} {fifo buffer : Bytes}

/-- Before a turn the window is what the buffer holds. -/
theorem take_buffer (fifo : Bytes) (hlen : buffer.length ≤ 511) :
    (buffer ++ fifo).take (min 511 (buffer.length + 0)) = buffer := by
  rw [Nat.add_zero, Nat.min_eq_right hlen, List.take_left]

/-- A read moves bytes from the FIFO into the buffer; the window over both stays where it is. -/
theorem take_offered {count n : Nat} (hcount : count = min n (511 - buffer.length))
    (hlen : buffer.length ≤ 511) (k : Nat) :
    (buffer ++ fifo).take (min 511 (buffer.length + (n + k))) =
      (buffer ++ fifo.take count ++ fifo.drop count).take
        (min 511 ((buffer ++ fifo.take count).length + k)) := by
  rw [List.append_assoc, List.take_append_drop, List.take_eq_take_iff, List.length_append,
    List.length_append, List.length_take]
  omega

/-- **When `read_password` succeeds.**  The loop ends with true exactly when some of its turns, all of
    them good, let through enough of the bytes for a newline in the first 511. -/
theorem readLoop_true_iff (hno : 10 ∉ buffer) (hlen : buffer.length ≤ 511) :
    (readLoop deadline turns fifo buffer).2 = some true ↔
      Through (FifoTurn.Good deadline) turns fun k =>
        10 ∈ (buffer ++ fifo).take (min 511 (buffer.length + k)) := by
  induction turns generalizing fifo buffer with
  | nil =>
    rw [through_nil, take_buffer fifo hlen]
    constructor
    · intro h
      cases h
    · intro h
      exact absurd h hno
  | cons t ts ih =>
    rw [through_cons, take_buffer fifo hlen, or_iff_right hno]
    unfold readLoop
    by_cases htest : inTime deadline t.clock = true ∧ buffer.length < passwordCapacity - 1
    · rw [if_pos htest]
      -- an empty read changes nothing
      have hempty : t.read.offer = 0 → t.read ≠ .failed →
          ((readLoop deadline ts fifo buffer).2 = some true ↔ t.Good deadline ∧
            Through (FifoTurn.Good deadline) ts fun k =>
              10 ∈ (buffer ++ fifo).take (min 511 (buffer.length + (t.read.offer + k)))) := by
        intro hzero hok
        rw [hzero, and_iff_right ⟨htest.1, hok⟩]
        simp only [Nat.zero_add]
        exact ih hno hlen
      cases hread : t.read with
      | ready n =>
        have hgood : t.Good deadline := ⟨htest.1, by rw [hread]; exact fun h => (by cases h)⟩
        rw [and_iff_right hgood]
        dsimp only
        generalize hcount : min n (passwordCapacity - 1 - buffer.length) = count
        have hsame : (fun k => 10 ∈ (buffer ++ fifo).take (min 511 (buffer.length + (n + k)))) =
            fun k => 10 ∈ (buffer ++ fifo.take count ++ fifo.drop count).take
              (min 511 ((buffer ++ fifo.take count).length + k)) :=
          funext fun k => congrArg (10 ∈ ·) (take_offered hcount.symm hlen k)
        have hlen' : (buffer ++ fifo.take count).length ≤ 511 := by
          have hcap : passwordCapacity - 1 = 511 := rfl
          rw [List.length_append, List.length_take]
          omega
        show (ite _ _ _ : Bytes × Option Bool).2 = some true ↔ Through _ ts fun k =>
          10 ∈ (buffer ++ fifo).take (min 511 (buffer.length + (n + k)))
        rw [hsame]
        by_cases hnl : 10 ∈ buffer ++ fifo.take count
        · have hgot : fifo.take count ≠ [] := by
            intro hnil
            rw [hnil, List.append_nil] at hnl
            exact hno hnl
          rw [if_pos ⟨hgot, hnl⟩]
          refine iff_of_true rfl ⟨[], List.nil_prefix, fun _ h => (by cases h), ?_⟩
          show 10 ∈ (buffer ++ fifo.take count ++ fifo.drop count).take
            (min 511 ((buffer ++ fifo.take count).length + 0))
          rw [take_buffer (fifo.drop count) hlen']
          exact hnl
        · rw [if_neg fun h => hnl h.2]
          exact ih hnl hlen'
      | again =>
        rw [hread] at hempty
        exact hempty rfl fun h => (by cases h)
      | interrupted =>
        rw [hread] at hempty
        exact hempty rfl fun h => (by cases h)
      | failed =>
        constructor
        · intro h
          cases h
        · rintro ⟨⟨-, hok⟩, -⟩
          exact absurd hread hok
    · rw [if_neg htest]
      constructor
      · intro h
        cases h
      · rintro ⟨⟨htime, -⟩, p, -, -, hmem⟩
        -- the buffer is full, and it has no newline
        have hfull : buffer.length = 511 := by
          have : ¬ buffer.length < 511 := fun hlt => htest ⟨htime, hlt⟩
          omega
        rw [Nat.min_eq_left (by omega), ← hfull, List.take_left] at hmem
        exact absurd hmem hno

/-- The buffer holds the first bytes of the FIFO, with a newline among them when the loop succeeds. -/
theorem readLoop_buffer : (readLoop deadline turns fifo buffer).1 <+: buffer ++ fifo ∧
    ((readLoop deadline turns fifo buffer).2 = some true →
      10 ∈ (readLoop deadline turns fifo buffer).1) := by
  induction turns generalizing fifo buffer with
  | nil => exact ⟨List.prefix_append _ _, fun h => (by cases h)⟩
  | cons t ts ih =>
    unfold readLoop
    split
    · cases t.read with
      | ready n =>
        dsimp only
        generalize min n (passwordCapacity - 1 - buffer.length) = count
        have hsplit : buffer ++ fifo = buffer ++ fifo.take count ++ fifo.drop count := by
          rw [List.append_assoc, List.take_append_drop]
        rw [hsplit]
        split
        · rename_i hnl
          exact ⟨List.prefix_append _ _, fun _ => hnl.2⟩
        · exact ih
      | again => exact ih
      | interrupted => exact ih
      | failed => exact ⟨List.prefix_append _ _, fun h => (by cases h)⟩
    · exact ⟨List.prefix_append _ _, fun h => (by cases h)⟩

/-- The loop is left at the latest when a test fails. -/
theorem readLoop_returns (h : ∃ t ∈ turns, inTime deadline t.clock = false) :
    (readLoop deadline turns fifo buffer).2 ≠ none := by
  induction turns generalizing fifo buffer with
  | nil =>
    obtain ⟨t, ht, -⟩ := h
    cases ht
  | cons t ts ih =>
    unfold readLoop
    split
    · rename_i htest
      -- it is a later test that fails
      have hlater : ∃ u ∈ ts, inTime deadline u.clock = false := by
        obtain ⟨u, hu, hlate⟩ := h
        rcases List.mem_cons.mp hu with rfl | hu
        · rw [htest.1] at hlate
          cases hlate
        · exact ⟨u, hu, hlate⟩
      cases t.read with
      | ready n =>
        dsimp only
        split
        · exact fun h => (by cases h)
        · exact ih hlater
      | again => exact ih hlater
      | interrupted => exact ih hlater
      | failed => exact fun h => (by cases h)
    · exact fun h => (by cases h)

end

/-! ## The line -/

/-- A byte that does not end the password. -/
def secretByte (b : UInt8) : Bool := decide (b ≠ 13 ∧ b ≠ 10 ∧ b ≠ 0)

theorem trimmed_eq (buffer : Bytes) : trimmed buffer = buffer.takeWhile secretByte := by
  have hline : trimmed buffer = (cstr buffer).takeWhile (! (ascii "\r\n").contains ·) := by
    unfold trimmed strcspn
    exact List.prefix_iff_eq_take.mp (List.takeWhile_prefix _) |>.symm
  rw [hline]
  unfold cstr
  rw [List.takeWhile_takeWhile]
  congr 1
  funext b
  have hset : ascii "\r\n" = [13, 10] := rfl
  rw [hset]
  simp [secretByte, and_assoc]

/-- The line of a buffer with a newline is that of the whole stream. -/
theorem trimmed_of_prefix {buffer stream : Bytes} (h : buffer <+: stream) (hnl : 10 ∈ buffer) :
    trimmed buffer = stream.takeWhile secretByte := by
  obtain ⟨rest, rfl⟩ := h
  rw [trimmed_eq, List.takeWhile_append, if_neg]
  intro hall
  have hwhole : buffer.takeWhile secretByte = buffer :=
    (List.takeWhile_prefix secretByte).eq_of_length hall
  have := List.takeWhile_eq_self_iff.mp hwhole 10 hnl
  cases this

/-! ## The app's side -/

/-- What is written is a beginning of the bytes, and all of them when the loop comes to its end. -/
theorem writeLoop_written (writes : List FifoWrite) (bytes : Bytes) :
    (writeLoop writes bytes).1 <+: bytes ∧
      ((writeLoop writes bytes).2 = some true → (writeLoop writes bytes).1 = bytes) := by
  induction writes generalizing bytes with
  | nil =>
    cases bytes with
    | nil => exact ⟨List.prefix_rfl, fun _ => rfl⟩
    | cons b bytes => exact ⟨List.nil_prefix, fun h => (by cases h)⟩
  | cons w writes ih =>
    cases bytes with
    | nil => exact ⟨List.prefix_rfl, fun _ => rfl⟩
    | cons b bytes =>
      cases w with
      | wrote n =>
        unfold writeLoop
        split
        · exact ⟨List.nil_prefix, fun h => (by cases h)⟩
        · obtain ⟨hstart, hall⟩ := ih ((b :: bytes).drop n)
          have hsplit := List.take_append_drop n (b :: bytes)
          refine ⟨?_, fun h => ?_⟩
          · conv => rhs; rw [← hsplit]
            exact (List.prefix_append_right_inj _).mpr hstart
          · show (b :: bytes).take n ++ (writeLoop writes ((b :: bytes).drop n)).1 = _
            rw [hall h, hsplit]
      | interrupted => exact ih (b :: bytes)
      | failed => exact ⟨List.nil_prefix, fun h => (by cases h)⟩

theorem writeSecret_written (opens : Nat → FifoOpen) (writes : List FifoWrite) (secret : Text) :
    (writeSecret opens writes secret).1 <+: utf8 secret ++ [10] ∧
      ((writeSecret opens writes secret).2 = some true →
        (writeSecret opens writes secret).1 = utf8 secret ++ [10]) := by
  have hbytes : utf8 (secret ++ ['\n']) = utf8 secret ++ [10] := List.flatMap_append
  unfold writeSecret
  rw [hbytes]
  split
  · exact writeLoop_written writes _
  · exact ⟨List.nil_prefix, fun h => (by cases h)⟩

/-! ## The hand-over -/

section

variable {source : PasswordSource}

theorem mainPassword_true (h : (readPassword source).2 = some true) :
    mainPassword source =
      if trimmed (readPassword source).1 = [] then .refused
      else .password (trimmed (readPassword source).1) := by
  unfold mainPassword
  generalize readPassword source = r at h ⊢
  obtain ⟨buffer, result⟩ := r
  obtain rfl : result = some true := h
  rfl

/-- Without success there is no password, and the engine exits once `read_password` has returned. -/
theorem mainPassword_not_true (h : (readPassword source).2 ≠ some true) :
    (∀ secret, mainPassword source ≠ .password secret) ∧
      ((readPassword source).2 ≠ none → mainPassword source = .refused) := by
  unfold mainPassword
  generalize readPassword source = r at h ⊢
  obtain ⟨buffer, result⟩ := r
  cases result with
  | none => exact ⟨fun _ he => (by cases he), fun hr => absurd rfl hr⟩
  | some ok =>
    cases ok with
    | true => exact absurd rfl h
    | false => exact ⟨fun _ he => (by cases he), fun _ => rfl⟩

end

/-- The turn is less than 15 s after the start, and its read is no hard error. -/
def FifoTurn.Before (start : Timespec) (t : FifoTurn) : Prop :=
  t.clock.ms - start.ms < 15000 ∧ t.read ≠ .failed

section

variable {start : Timespec} {turns : List FifoTurn} {stream : Bytes}

theorem readPassword_true_iff
    (hclock : ∀ t ∈ turns, start.ms ≤ t.clock.ms ∧ t.clock.ms - start.ms < 2 ^ 31) :
    (readPassword (.fifo start turns stream)).2 = some true ↔
      Through (FifoTurn.Before start) turns fun k => 10 ∈ stream.take (min 511 k) := by
  have hgood : ∀ t ∈ turns, FifoTurn.Good (sysNow start + 15000) t ↔ FifoTurn.Before start t := by
    intro t ht
    unfold FifoTurn.Good FifoTurn.Before
    rw [inTime_iff (hclock t ht).1 (hclock t ht).2]
  have hloop := @readLoop_true_iff (sysNow start + 15000) turns stream [] List.not_mem_nil (Nat.zero_le 511)
  simp only [List.nil_append, List.length_nil, Nat.zero_add] at hloop
  exact hloop.trans (Through.congr hgood)

theorem readPassword_returns
    (hclock : ∀ t ∈ turns, start.ms ≤ t.clock.ms ∧ t.clock.ms - start.ms < 2 ^ 31)
    (hlate : ∃ t ∈ turns, 15000 ≤ t.clock.ms - start.ms) :
    (readPassword (.fifo start turns stream)).2 ≠ none := by
  obtain ⟨t, ht, hlate⟩ := hlate
  refine readLoop_returns ⟨t, ht, ?_⟩
  rw [Bool.eq_false_iff]
  intro htime
  have := (inTime_iff (hclock t ht).1 (hclock t ht).2).mp htime
  omega

/-- The password is the line of any text that what comes through the FIFO is a beginning of. -/
theorem readPassword_line {text : Bytes} (htext : stream <+: text)
    (h : (readPassword (.fifo start turns stream)).2 = some true) :
    trimmed (readPassword (.fifo start turns stream)).1 = text.takeWhile secretByte := by
  obtain ⟨hbuffer, hnl⟩ := @readLoop_buffer (sysNow start + 15000) turns stream []
  exact trimmed_of_prefix (hbuffer.trans htext) (hnl h)

/-! ### Secrets -/

variable {secret : Bytes}

theorem secret_takeWhile (hclean : ∀ b ∈ secret, b ≠ 13 ∧ b ≠ 10 ∧ b ≠ 0) :
    (secret ++ [10]).takeWhile secretByte = secret := by
  rw [List.takeWhile_append_of_pos (p := secretByte) fun b hb => decide_eq_true (hclean b hb)]
  exact List.append_nil secret

/-- A secret that gets through with its newline is received as it is. -/
theorem secret_received
    (hclock : ∀ t ∈ turns, start.ms ≤ t.clock.ms ∧ t.clock.ms - start.ms < 2 ^ 31)
    (hclean : ∀ b ∈ secret, b ≠ 13 ∧ b ≠ 10 ∧ b ≠ 0) (hpos : 1 ≤ secret.length)
    (hlen : secret.length ≤ 510)
    (hthrough : Through (FifoTurn.Before start) turns fun k => secret.length + 1 ≤ k) :
    mainPassword (.fifo start turns (secret ++ [10])) = .password secret := by
  have htrue : (readPassword (.fifo start turns (secret ++ [10]))).2 = some true := by
    rw [readPassword_true_iff hclock]
    obtain ⟨p, hp, hgood, hoffered⟩ := hthrough
    refine ⟨p, hp, hgood, ?_⟩
    have hall : secret.length + 1 ≤ min 511 (offered p) := by omega
    show 10 ∈ (secret ++ [10]).take (min 511 (offered p))
    rw [List.take_of_length_le (by rw [List.length_append, List.length_singleton]; omega)]
    exact List.mem_append_right _ List.mem_cons_self
  have hline := readPassword_line List.prefix_rfl htrue
  rw [secret_takeWhile hclean] at hline
  rw [mainPassword_true htrue, hline, if_neg]
  rintro rfl
  cases hpos

/-- Of a longer secret no newline gets through. -/
theorem secret_long
    (hclock : ∀ t ∈ turns, start.ms ≤ t.clock.ms ∧ t.clock.ms - start.ms < 2 ^ 31)
    (hstart : stream <+: secret ++ [10]) (hclean : ∀ b ∈ secret, b ≠ 13 ∧ b ≠ 10 ∧ b ≠ 0)
    (hlen : 510 < secret.length) : (readPassword (.fifo start turns stream)).2 ≠ some true := by
  intro htrue
  obtain ⟨p, -, -, hnl⟩ := (readPassword_true_iff hclock).mp htrue
  have hshort : stream.take (min 511 (offered p)) <+: secret := by
    refine List.prefix_of_prefix_length_le ((List.take_prefix _ _).trans hstart)
      (List.prefix_append _ _) ?_
    rw [List.length_take]
    omega
  exact (hclean 10 (hshort.mem hnl)).2.1 rfl

end

/-- **The hand-over of the password.**  For every start of the clock and every way in which the FIFO gives
    its bytes: `read_password` succeeds exactly when a newline is among the first 511 bytes and gets
    through before a hard error and before a loop test that sees 15 s; it returns at the latest at
    such a test; and the password is the line up to its first CR, LF or NUL.  So of what `writeSecret`
    sends, a secret of 1 to 510 bytes without CR, LF and NUL is received as it is when it is received in
    time, no other password is ever received, and a longer secret is refused. -/
theorem password_handover (start : Timespec) (turns : List FifoTurn) (stream : Bytes)
    (hclock : ∀ t ∈ turns, start.ms ≤ t.clock.ms ∧ t.clock.ms - start.ms < 2 ^ 31) :
    ((readPassword (.fifo start turns stream)).2 = some true ↔
      Through (FifoTurn.Before start) turns fun k => 10 ∈ stream.take (min 511 k)) ∧
    ((∃ t ∈ turns, 15000 ≤ t.clock.ms - start.ms) →
      (readPassword (.fifo start turns stream)).2 ≠ none) ∧
    ((readPassword (.fifo start turns stream)).2 = some true →
      trimmed (readPassword (.fifo start turns stream)).1 = stream.takeWhile secretByte) ∧
    ∀ opens writes secret, stream = (writeSecret opens writes secret).1 →
      (∀ b ∈ utf8 secret, b ≠ 13 ∧ b ≠ 10 ∧ b ≠ 0) →
      ((writeSecret opens writes secret).2 = some true → 1 ≤ (utf8 secret).length →
        (utf8 secret).length ≤ 510 →
        (Through (FifoTurn.Before start) turns fun k => (utf8 secret).length + 1 ≤ k) →
        mainPassword (.fifo start turns stream) = .password (utf8 secret)) ∧
      (∀ p, mainPassword (.fifo start turns stream) = .password p → p = utf8 secret) ∧
      (510 < (utf8 secret).length →
        (∀ p, mainPassword (.fifo start turns stream) ≠ .password p) ∧
        ((∃ t ∈ turns, 15000 ≤ t.clock.ms - start.ms) →
          mainPassword (.fifo start turns stream) = .refused)) := by
  refine ⟨readPassword_true_iff hclock, readPassword_returns hclock,
    readPassword_line List.prefix_rfl, ?_⟩
  rintro opens writes secret rfl hclean
  obtain ⟨hstart, hall⟩ := writeSecret_written opens writes secret
  refine ⟨fun hsent hpos hlen hthrough => ?_, fun p hp => ?_, fun hlen => ?_⟩
  · rw [hall hsent]
    exact secret_received hclock hclean hpos hlen hthrough
  · by_cases htrue : (readPassword (.fifo start turns (writeSecret opens writes secret).1)).2 =
        some true
    · have hline := readPassword_line hstart htrue
      rw [secret_takeWhile hclean] at hline
      rw [mainPassword_true htrue, hline] at hp
      split at hp
      · cases hp
      · exact (Login.password.inj hp).symm
    · exact absurd hp ((mainPassword_not_true htrue).1 p)
  · obtain ⟨hnone, hrefused⟩ := mainPassword_not_true (secret_long hclock hstart hclean hlen)
    exact ⟨hnone, fun hlate => hrefused (readPassword_returns hclock hlate)⟩

/-- Eight seconds before the 32-bit clock wraps around. -/
def sampleClock (ms : Nat) : Timespec where
  sec := 4294960 + ms / 1000
  nsec := ms % 1000 * 1000000
  nsec_lt := by omega

/-- Empty reads of every kind, and two pieces; the second comes after the clock has wrapped around. -/
def sampleTurns : List FifoTurn :=
  [⟨sampleClock 1, .again⟩, ⟨sampleClock 51, .ready 0⟩, ⟨sampleClock 101, .ready 1⟩,
    ⟨sampleClock 9000, .interrupted⟩, ⟨sampleClock 9050, .ready 4096⟩]

theorem sampleTurns_through :
    Through (FifoTurn.Before (sampleClock 0)) sampleTurns fun k => (utf8 "pw".toList).length + 1 ≤ k := by
  have hclock : ∀ t ∈ sampleTurns, t.clock.ms - (sampleClock 0).ms < 15000 := by decide
  have hread : ∀ t ∈ sampleTurns, t.read ≠ .failed := by decide
  refine ⟨sampleTurns, @List.prefix_rfl _ sampleTurns, fun t ht => ?_, by decide⟩
  exact ⟨hclock t ht, hread t ht⟩

theorem password_handover_wrap :
    mainPassword (.fifo (sampleClock 0) sampleTurns (ascii "pw\n")) = .password (ascii "pw") :=
  ((password_handover (sampleClock 0) sampleTurns (ascii "pw\n") (by decide)).2.2.2
    (fun n => if n = 0 then .noReader else .opened) [.wrote 2, .interrupted, .wrote 9] "pw".toList
    (by decide) (List.all_iff_forall_prop.mp (by decide))).1 (by decide) (by decide) (by decide)
    sampleTurns_through

end PptpProxy
