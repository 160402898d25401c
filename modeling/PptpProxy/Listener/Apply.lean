/-
  The listener table through start-up and through control messages.

  `start_tableOk` establishes the table invariant, `handleControl_tableOk` shows that no message
  breaks it, and `apply_atomic` says what the sender of an APPLY message can rely on: the reply
  tells exactly whether everything or nothing of the request is in force.
-/
import PptpProxy.Listener.Invariant

namespace PptpProxy

open CLib

/-! ## Start-up -/

section

variable {ls : List Listener} {fds : Nat → Int}

theorem startIo_eq : startIo fds ls = (pairs (startListening fds ls)).map toListen := by
  unfold startIo pairs startListening
  refine List.ext_getElem? fun i => ?_
  simp only [List.getElem?_map, List.getElem?_mapIdx, Option.map_map]
  rfl

theorem startListening_spec :
    (startListening fds ls).map Listener.spec = ls.map Listener.spec := by
  unfold startListening
  refine List.ext_getElem? fun i => ?_
  simp only [List.getElem?_map, List.getElem?_mapIdx, Option.map_map]
  rfl

/-- After a start-up in which every `listen_loopback` succeeded. -/
theorem start_tableOk {other : Int → Prop} (hspec : SpecOk ls)
    (hpos : ∀ i, i < ls.length → 0 ≤ fds i)
    (hf : ListenFresh other ⟨[], false⟩ (startIo fds ls)) :
    TableOk (startListening fds ls) (ListenWorld.ios ⟨[], false⟩ (startIo fds ls)) ∧
      ∀ fd ∈ (ListenWorld.ios ⟨[], false⟩ (startIo fds ls)).sockets.map Prod.fst, ¬ other fd := by
  have hopened : ∀ l ∈ startListening fds ls, 0 ≤ l.fd := by
    intro l hl
    obtain ⟨i, hi, rfl⟩ := List.mem_mapIdx.mp hl
    exact hpos i hi
  have hnews : ∀ n ∈ pairs (startListening fds ls), 0 ≤ n.1 := by
    intro n hn
    obtain ⟨l, hl, rfl⟩ := List.mem_map.mp hn
    exact hopened l hl
  have hworld : ListenWorld.ios ⟨[], false⟩ (startIo fds ls) =
      ⟨pairs (startListening fds ls), false⟩ := by
    rw [startIo_eq, ListenWorld.ios_listens hnews]
    rfl
  rw [startIo_eq, ← List.append_nil (List.map _ _)] at hf
  obtain ⟨hnodup, hother⟩ := hf.listens hnews List.nodup_nil
  rw [hworld]
  refine ⟨⟨hspec.congr startListening_spec, hopened, ?_, List.Perm.refl _, rfl⟩, ?_⟩
  · rw [show (startListening fds ls).map Listener.fd =
      (pairs (startListening fds ls)).map Prod.fst by rw [pairs, List.map_map]; rfl]
    exact hnodup
  · intro fd hfd
    obtain ⟨n, hn, rfl⟩ := List.mem_map.mp hfd
    exact hother n hn

end

/-! ## Control messages -/

section

variable {ls : List Listener} {w : ListenWorld} {other : Int → Prop} {listen : Nat → Int}

/-- `apply_request` keeps the invariant: the table it leaves in force has exactly the open
    sockets. -/
theorem applyRequest_tableOk {request : Bytes} {r : Except Int (List Listener)}
    {io : List ListenIo} (h : TableOk ls w) (he : applyRequest ls listen request = (r, io))
    (hf : ListenFresh other w io) :
    TableOk (match r with | .ok table => table | .error _ => ls) (w.ios io) ∧
      ∀ fd ∈ (w.ios io).sockets.map Prod.fst, fd ∈ w.sockets.map Prod.fst ∨ ¬ other fd := by
  unfold applyRequest at he
  split at he
  · -- a text that does not parse is turned down before any socket is touched
    obtain ⟨rfl, rfl⟩ := Prod.mk.inj he
    exact ⟨h, fun fd hfd => Or.inl hfd⟩
  · rename_i requested htext
    cases r with
    | error port =>
      -- the roll-back closes what the first loop opened
      obtain ⟨hsame, -⟩ := reconfigureListeners_failed h he hf
      rw [hsame]
      exact ⟨h, fun fd hfd => Or.inl hfd⟩
    | ok table =>
      have hr := reconfigureListeners_ok h (applyText_specOk htext) he hf
      exact ⟨hr.ok, hr.fresh⟩

/-- No control message breaks the table, and it opens no descriptor that is used elsewhere. -/
theorem handleControl_tableOk {st : Status} {message : Bytes} (h : TableOk ls w)
    (hf : ListenFresh other w (handleControl st ls listen message).io) :
    TableOk (handleControl st ls listen message).listeners
        (w.ios (handleControl st ls listen message).io) ∧
      ∀ fd ∈ (w.ios (handleControl st ls listen message).io).sockets.map Prod.fst,
        fd ∈ w.sockets.map Prod.fst ∨ ¬ other fd := by
  -- STOP, STATUS and an unknown command leave the sockets alone
  have hnothing : TableOk ls (w.ios []) ∧
      ∀ fd ∈ (w.ios []).sockets.map Prod.fst, fd ∈ w.sockets.map Prod.fst ∨ ¬ other fd :=
    ⟨h, fun fd hfd => Or.inl hfd⟩
  unfold handleControl at hf ⊢
  dsimp only at hf ⊢
  split
  · exact hnothing
  · split
    · exact hnothing
    · split
      · rename_i h1 h2 h3
        rw [if_neg h1, if_neg h2, if_pos h3] at hf
        cases he : applyRequest ls listen (cstr message) with
        | mk r io =>
          rw [he] at hf
          cases r with
          | ok table => exact applyRequest_tableOk h he hf
          | error port => exact applyRequest_tableOk h he hf
      · exact hnothing

/-- What `handle_control` does with an APPLY message. -/
theorem handleControl_apply (st : Status) {message : Bytes}
    (hmsg : ascii "APPLY " <+: message) :
    handleControl st ls listen message =
      match applyRequest ls listen (cstr message) with
      | (.ok table, io) => ⟨ascii "OK APPLY\n", table, false, io⟩
      | (.error failedPort, io) =>
        ⟨ascii "ERR APPLY " ++ decimalInt failedPort ++ [10], ls, false, io⟩ := by
  have hpre : ascii "APPLY " <+: cstr message := by
    obtain ⟨t, rfl⟩ := hmsg
    rw [cstr_append (List.all_iff_forall_prop.mp (by decide))]
    exact List.prefix_append _ _
  have hhead : (cstr message).head? = some 65 := by
    obtain ⟨t, ht⟩ := hpre
    rw [← ht]
    rfl
  -- 65 is the A of APPLY; STOP and STATUS begin otherwise
  have hother : ∀ b, b.head? ≠ some 65 → ¬ cstr message = b := by
    rintro b hb rfl
    exact hb hhead
  unfold handleControl
  dsimp only
  rw [if_neg (hother _ (by decide)), if_neg (hother _ (by decide))]
  refine (if_pos hpre).trans ?_
  rcases applyRequest ls listen (cstr message) with ⟨_ | _, io⟩ <;> rfl

end

/-- **APPLY is atomic.**  Unless the reply is `OK APPLY`, the table and the open sockets are what
    they were, and the reply names port 0 for a rejected text and else the first port of the request
    that was not listening and could not be opened.  After `OK APPLY` the table is the requested
    list, a port that was listening keeps its descriptor, and exactly the descriptors of the
    dropped ports have been closed. -/
theorem apply_atomic {ls : List Listener} {w : ListenWorld} {other : Int → Prop}
    (st : Status) (listen : Nat → Int) (message : Bytes) (h : TableOk ls w)
    (hmsg : ascii "APPLY " <+: message)
    (hf : ListenFresh other w (handleControl st ls listen message).io) :
    ((handleControl st ls listen message).reply ≠ ascii "OK APPLY\n" →
      (handleControl st ls listen message).listeners = ls ∧
      w.ios (handleControl st ls listen message).io = w ∧
      ∃ port, (handleControl st ls listen message).reply =
          ascii "ERR APPLY " ++ decimalInt port ++ ascii "\n" ∧
        ((applyText (cstr message) = none ∧ port = 0) ∨
          ∃ requested k, applyText (cstr message) = some requested ∧
            (requested[k]?).map Listener.localPort = some port ∧
            (∀ l ∈ ls, l.localPort ≠ port) ∧ listen k < 0 ∧
            ∀ j < k, ∀ r, requested[j]? = some r →
              (∃ l ∈ ls, l.localPort = r.localPort) ∨ 0 ≤ listen j)) ∧
    ((handleControl st ls listen message).reply = ascii "OK APPLY\n" →
      ∃ requested, applyText (cstr message) = some requested ∧
        (handleControl st ls listen message).listeners.map Listener.spec =
          requested.map Listener.spec ∧
        (∀ l ∈ ls, ∀ t ∈ (handleControl st ls listen message).listeners,
          t.localPort = l.localPort → t.fd = l.fd) ∧
        closedFds (handleControl st ls listen message).io =
          droppedFds ls (handleControl st ls listen message).listeners ∧
        (pairs (handleControl st ls listen message).listeners).Perm
          (w.ios (handleControl st ls listen message).io).sockets) := by
  -- the two replies differ in their first byte
  have hreply : ∀ port, ascii "ERR APPLY " ++ decimalInt port ++ [10] ≠ ascii "OK APPLY\n" := by
    intro port he
    have := congrArg List.head? he
    revert this
    simp [ascii]
  rw [handleControl_apply st hmsg] at hf ⊢
  cases he : applyRequest ls listen (cstr message) with
  | mk r io =>
    rw [he] at hf
    cases r with
    | error port =>
      refine ⟨fun _ => ?_, fun hok => absurd hok (hreply port)⟩
      unfold applyRequest at he
      cases htext : applyText (cstr message) with
      | none =>
        rw [htext] at he
        obtain ⟨h1, rfl⟩ := Prod.mk.inj he
        obtain rfl := Except.error.inj h1
        exact ⟨rfl, rfl, 0, rfl, Or.inl ⟨rfl, rfl⟩⟩
      | some requested =>
        rw [htext] at he
        obtain ⟨hsame, k, hfirst⟩ := reconfigureListeners_failed h he hf
        refine ⟨rfl, hsame, port, rfl, Or.inr ⟨requested, k, rfl, hfirst.entry,
          (h.currentFd_neg_iff port).mp hfirst.idle, hfirst.failed, ?_⟩⟩
        intro j hj r hr
        rcases hfirst.before j hj r hr with hcur | hlisten
        · obtain ⟨l, hl, hport, -⟩ := exists_of_currentFd hcur
          exact Or.inl ⟨l, hl, hport⟩
        · exact Or.inr hlisten
    | ok table =>
      refine ⟨fun hno => absurd rfl hno, fun _ => ?_⟩
      unfold applyRequest at he
      cases htext : applyText (cstr message) with
      | none =>
        rw [htext] at he
        cases he
      | some requested =>
        rw [htext] at he
        have hr := reconfigureListeners_ok h (applyText_specOk htext) he hf
        exact ⟨requested, rfl, hr.specs, hr.kept, hr.closes, hr.ok.sockets⟩

/-- A table with the two proxies alone, on descriptors 3 and 4. -/
def proxiesOnly (http socks : Int) : List Listener :=
  [⟨3, .httpProxy, http, 0, []⟩, ⟨4, .socksProxy, socks, 0, []⟩]

theorem proxiesOnly_tableOk {http socks : Int} (h₀ : validPort http = true)
    (h₁ : validPort socks = true) (hne : http ≠ socks) :
    TableOk (proxiesOnly http socks) ⟨[(3, http), (4, socks)], false⟩ := by
  refine ⟨SpecOk.pair rfl rfl hne h₀ h₁, ?_, ?_, List.Perm.refl _, rfl⟩
  · simp [proxiesOnly]
  · simp [proxiesOnly]

/-- Moving the SOCKS proxy to another port closes descriptor 4 and nothing else. -/
theorem apply_atomic_moves_socks :
    (handleControl ⟨true, 0, 0, 0, 0⟩ (proxiesOnly 8080 1080) (fun _ => 5)
      (ascii "APPLY 8080 1081\nEND\n")).reply = ascii "OK APPLY\n" ∧
    closedFds (handleControl ⟨true, 0, 0, 0, 0⟩ (proxiesOnly 8080 1080) (fun _ => 5)
      (ascii "APPLY 8080 1081\nEND\n")).io = [4] := by
  have hio : (handleControl ⟨true, 0, 0, 0, 0⟩ (proxiesOnly 8080 1080) (fun _ => 5)
      (ascii "APPLY 8080 1081\nEND\n")).io = [.listen 1081 5, .close 4] := by decide
  have hreply : (handleControl ⟨true, 0, 0, 0, 0⟩ (proxiesOnly 8080 1080) (fun _ => 5)
      (ascii "APPLY 8080 1081\nEND\n")).reply = ascii "OK APPLY\n" := by decide
  have hfresh : ListenFresh (fun fd => fd < 3) ⟨[(3, 8080), (4, 1080)], false⟩
      [.listen 1081 5, .close 4] := by simp [ListenFresh]
  obtain ⟨-, hok⟩ := apply_atomic ⟨true, 0, 0, 0, 0⟩ (fun _ => 5)
    (ascii "APPLY 8080 1081\nEND\n")
    (proxiesOnly_tableOk (by decide) (by decide) (by decide)) (by decide) (hio ▸ hfresh)
  obtain ⟨requested, -, -, -, hcloses, -⟩ := hok hreply
  exact ⟨hreply, hcloses.trans (by decide)⟩

end PptpProxy
