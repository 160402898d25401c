/-
  The invariant of the listener table, and why start-up and every APPLY keep it.

  `SpecOk` is about the entries without their descriptors (kinds, ports, targets); `TableOk` adds the
  descriptors: the pairs (descriptor, port) of the table are EXACTLY the open listening sockets of
  the kernel.  Whatever the pattern of failures, the sockets after a failed request are the
  ones before it (`reconfigureListeners_failed`), and after a successful one they are the pairs of the
  new table (`reconfigureListeners_ok`).
-/
import Mathlib.Data.List.Nodup
import Mathlib.Data.List.Perm.Lattice
import PptpProxy.Listener.Control

namespace PptpProxy

open CLib

/-! ## The entries -/

/-- The entries of a table are in order: the HTTP proxy, the SOCKS proxy, then forwards; distinct
    valid ports; and every forward has a target `set_target` accepts. -/
structure SpecOk (ls : List Listener) : Prop where
  two : 2 ≤ ls.length
  most : ls.length ≤ maxListeners
  http : (ls[0]?).map Listener.kind = some .httpProxy
  socks : (ls[1]?).map Listener.kind = some .socksProxy
  forwards : ∀ l ∈ ls.drop 2, l.kind = .forward
  ports : (ls.map Listener.localPort).Nodup
  valid : ∀ l ∈ ls, validPort l.localPort = true
  targets : ∀ l ∈ ls, l.kind = .forward →
    l.remoteHost ≠ [] ∧ l.remoteHost.length ≤ 255 ∧ validPort l.remotePort = true

/-- Descriptors do not matter to `SpecOk`. -/
theorem SpecOk.congr {ls ls' : List Listener} (h : SpecOk ls)
    (he : ls'.map Listener.spec = ls.map Listener.spec) : SpecOk ls' := by
  have hlen : ls'.length = ls.length := by
    have := congrArg List.length he
    rwa [List.length_map, List.length_map] at this
  have hkind : ∀ k : Nat, (ls'[k]?).map Listener.kind = (ls[k]?).map Listener.kind := by
    intro k
    have := congrArg (fun m : List (ListenerKind × Int × Bytes × Int) => (m[k]?).map Prod.fst) he
    simp only [List.getElem?_map, Option.map_map] at this
    exact this
  have hports : ls'.map Listener.localPort = ls.map Listener.localPort := by
    have := congrArg (List.map fun t => t.2.1) he
    simp only [List.map_map] at this
    exact this
  -- an entry of one table has a counterpart in the other
  have hmem : ∀ {ms ms' : List Listener}, ms'.map Listener.spec = ms.map Listener.spec →
      ∀ l' ∈ ms', ∃ l ∈ ms, l.spec = l'.spec := by
    intro ms ms' hms l' hl'
    have : l'.spec ∈ ms.map Listener.spec := hms ▸ List.mem_map_of_mem hl'
    obtain ⟨l, hl, hspec⟩ := List.mem_map.mp this
    exact ⟨l, hl, hspec⟩
  refine ⟨hlen ▸ h.two, hlen ▸ h.most, (hkind 0).trans h.http, (hkind 1).trans h.socks, ?_,
    hports ▸ h.ports, ?_, ?_⟩
  · intro l' hl'
    have hdrop : (ls'.drop 2).map Listener.spec = (ls.drop 2).map Listener.spec := by
      rw [List.map_drop, List.map_drop, he]
    obtain ⟨l, hl, hspec⟩ := hmem hdrop l' hl'
    have := congrArg Prod.fst hspec
    exact this.symm.trans (h.forwards l hl)
  · intro l' hl'
    obtain ⟨l, hl, hspec⟩ := hmem he l' hl'
    have hp : l.localPort = l'.localPort := congrArg (fun t => t.2.1) hspec
    exact hp ▸ h.valid l hl
  · intro l' hl' hk
    obtain ⟨l, hl, hspec⟩ := hmem he l' hl'
    have h1 : l.kind = l'.kind := congrArg Prod.fst hspec
    have h2 : l.remoteHost = l'.remoteHost := congrArg (fun t => t.2.2.1) hspec
    have h3 : l.remotePort = l'.remotePort := congrArg (fun t => t.2.2.2) hspec
    have := h.targets l hl (h1.trans hk)
    rwa [h2, h3] at this

/-- A forward with a new port goes behind the others. -/
theorem SpecOk.snoc {ls : List Listener} (h : SpecOk ls) {l : Listener}
    (hroom : ls.length ≠ maxListeners) (hkind : l.kind = .forward)
    (hnew : ∀ l' ∈ ls, l'.localPort ≠ l.localPort) (hport : validPort l.localPort = true)
    (htarget : l.remoteHost ≠ [] ∧ l.remoteHost.length ≤ 255 ∧ validPort l.remotePort = true) :
    SpecOk (ls ++ [l]) := by
  have htwo := h.two
  have hmost := h.most
  refine ⟨?_, ?_, ?_, ?_, ?_, ?_, ?_, ?_⟩
  · rw [List.length_append]
    omega
  · rw [List.length_append, List.length_singleton]
    omega
  · rw [List.getElem?_append_left (by omega)]
    exact h.http
  · rw [List.getElem?_append_left (by omega)]
    exact h.socks
  · intro l' hl'
    rw [List.drop_append_of_le_length htwo] at hl'
    rcases List.mem_append.mp hl' with hl' | hl'
    · exact h.forwards l' hl'
    · obtain rfl := List.mem_singleton.mp hl'
      exact hkind
  · rw [List.map_append, List.nodup_append]
    refine ⟨h.ports, List.nodup_singleton _, ?_⟩
    intro p hp q hq hpq
    obtain ⟨l', hl', rfl⟩ := List.mem_map.mp hp
    obtain rfl : q = l.localPort := List.mem_singleton.mp hq
    exact hnew l' hl' hpq
  · intro l' hl'
    rcases List.mem_append.mp hl' with hl' | hl'
    · exact h.valid l' hl'
    · obtain rfl := List.mem_singleton.mp hl'
      exact hport
  · intro l' hl' hk
    rcases List.mem_append.mp hl' with hl' | hl'
    · exact h.targets l' hl' hk
    · obtain rfl := List.mem_singleton.mp hl'
      exact htarget

/-- The two proxies alone. -/
theorem SpecOk.pair {l₀ l₁ : Listener} (h₀ : l₀.kind = .httpProxy) (h₁ : l₁.kind = .socksProxy)
    (hne : l₀.localPort ≠ l₁.localPort) (hp₀ : validPort l₀.localPort = true)
    (hp₁ : validPort l₁.localPort = true) : SpecOk [l₀, l₁] := by
  refine ⟨by simp, by simp [maxListeners], by simp [h₀], by simp [h₁], by simp, by simp [hne], ?_, ?_⟩
  · intro l hl
    rcases List.mem_cons.mp hl with rfl | hl
    · exact hp₀
    · obtain rfl := List.mem_singleton.mp hl
      exact hp₁
  · intro l hl hk
    rcases List.mem_cons.mp hl with rfl | hl
    · rw [h₀] at hk
      cases hk
    · obtain rfl := List.mem_singleton.mp hl
      rw [h₁] at hk
      cases hk

/-! ## Start-up -/

/-- What `add_listener` returns when it does not fail. -/
theorem addListener_eq_some {ls ls' : List Listener} {kind : ListenerKind} {port rport : Int}
    {host : Option Bytes} (h : addListener ls kind port host rport = some ls') :
    ls.length ≠ maxListeners ∧ validPort port = true ∧ (∀ l ∈ ls, l.localPort ≠ port) ∧
    ls' = ls ++ [⟨-1, kind, port, rport, (host.getD []).take 255⟩] := by
  unfold addListener at h
  split at h
  · cases h
  · rename_i hok
    split at h
    · cases h
    · rename_i hnew
      obtain rfl := Option.some.inj h
      refine ⟨fun hf => hok (Or.inl hf), ?_, ?_, rfl⟩
      · cases hv : validPort port with
        | true => rfl
        | false => exact absurd (Or.inr hv) hok
      · intro l hl hp
        exact hnew (List.any_eq_true.mpr ⟨l, hl, by simpa using hp⟩)

theorem validPort_iff {p : Int} : validPort p = true ↔ 1 ≤ p ∧ p ≤ 65535 := by
  unfold validPort
  rw [decide_eq_true_iff]
  omega

theorem parseForward_specOk {ls ls' : List Listener} {spec : Bytes} (h : SpecOk ls)
    (he : parseForward ls spec = some ls') : SpecOk ls' := by
  unfold parseForward at he
  split at he
  · cases he
  · split at he
    · rename_i first last _ _
      split at he
      · cases he
      · dsimp only at he
        split at he
        · cases he
        · rename_i hok
          simp only [not_or] at hok
          obtain ⟨-, -, hhost, hlen, h1, h2, h3, h4⟩ := hok
          obtain ⟨hroom, hvalid, hnew, rfl⟩ := addListener_eq_some he
          refine h.snoc hroom rfl hnew hvalid ⟨?_, List.length_take_le _ _, ?_⟩
          · show (List.drop (first + 1) (List.take last spec)).take 255 ≠ []
            rw [List.take_of_length_le (by omega)]
            exact hhost
          · exact validPort_iff.mpr ⟨Int.not_lt.mp h3, Int.not_lt.mp h4⟩
    · cases he

theorem parseForwards_specOk {specs : List Bytes} {ls ls' : List Listener} (h : SpecOk ls)
    (he : parseForwards ls specs = some ls') : SpecOk ls' := by
  induction specs generalizing ls with
  | nil =>
    obtain rfl := Option.some.inj he
    exact h
  | cons spec specs ih =>
    unfold parseForwards at he
    split at he
    · cases he
    · rename_i ls₁ h₁
      exact ih (parseForward_specOk h h₁) he

/-- The table `main` fills from its arguments. -/
theorem buildListeners_specOk {http socks : Int} {specs : List Bytes} {ls : List Listener}
    (h : buildListeners http socks specs = some ls) : SpecOk ls := by
  unfold buildListeners at h
  split at h
  · cases h
  · split at h
    · cases h
    · rename_i l₀ h₀
      split at h
      · cases h
      · rename_i l₁ h₁
        obtain ⟨-, hv₀, -, rfl⟩ := addListener_eq_some h₀
        obtain ⟨-, hv₁, hne, rfl⟩ := addListener_eq_some h₁
        refine parseForwards_specOk (SpecOk.pair rfl rfl ?_ hv₀ hv₁) h
        exact hne _ (List.mem_singleton_self _)

/-! ## The text of an APPLY request -/

theorem parsePortNumber_valid {text : Bytes} {p : Int} (h : parsePortNumber text = some p) :
    validPort p = true := by
  unfold parsePortNumber at h
  split at h
  · cases h
  · dsimp only at h
    split at h
    · cases h
    · rename_i hok
      obtain rfl := Option.some.inj h
      simp only [not_or] at hok
      exact validPort_iff.mpr ⟨by omega, by omega⟩

theorem applyLines_specOk {lines : List Bytes} {ls ls' : List Listener} (h : SpecOk ls)
    (he : applyLines lines ls = some ls') : SpecOk ls' := by
  induction lines generalizing ls with
  | nil => cases he
  | cons line lines ih =>
    unfold applyLines at he
    split at he
    · cases he
    · split at he
      · -- the END line
        split at he
        · cases he
        · obtain rfl := Option.some.inj he
          exact h
      · split at he
        · cases he
        · rename_i hroom
          split at he
          · rename_i localText host remoteText _
            split at he
            · cases he
            · rename_i hsafe
              split at he
              · rename_i localPort remotePort hlocal hremote
                split at he
                · cases he
                · rename_i hnew
                  refine ih (h.snoc (fun hf => hroom (Or.inr hf)) rfl ?_
                    (parsePortNumber_valid hlocal) ?_) he
                  · intro l hl hp
                    exact hnew (List.any_eq_true.mpr ⟨l, hl, by simpa using hp⟩)
                  · have hs : safeHost host = true := by simpa using hsafe
                    unfold safeHost at hs
                    rw [Bool.and_eq_true, decide_eq_true_iff] at hs
                    refine ⟨?_, by show host.length ≤ 255; omega, parsePortNumber_valid hremote⟩
                    intro hempty
                    exact hs.1.1 (List.length_eq_zero_iff.mpr hempty)
              · cases he
          · cases he

/-- The table an APPLY message asks for. -/
theorem applyText_specOk {request : Bytes} {ls : List Listener}
    (h : applyText request = some ls) : SpecOk ls := by
  unfold applyText at h
  split at h
  · cases h
  · split at h
    · split at h
      · cases h
      · split at h
        · rename_i http socks hh hs
          split at h
          · cases h
          · rename_i hne
            exact applyLines_specOk (SpecOk.pair rfl rfl hne (parsePortNumber_valid hh)
              (parsePortNumber_valid hs)) h
        · cases h
    · cases h

/-! ## Descriptors -/

/-- The sockets a table stands for: descriptor and port of each entry. -/
def pairs (ls : List Listener) : List (Int × Int) := ls.map fun l => (l.fd, l.localPort)

/-- **The table invariant**: the entries are in order, and their descriptors are exactly the open
    listening sockets, each bound to its entry's port; no descriptor was ever closed twice. -/
structure TableOk (ls : List Listener) (w : ListenWorld) : Prop where
  specs : SpecOk ls
  opened : ∀ l ∈ ls, 0 ≤ l.fd
  distinct : (ls.map Listener.fd).Nodup
  sockets : (pairs ls).Perm w.sockets
  clean : w.badClose = false

/-- The open sockets have distinct descriptors. -/
theorem TableOk.nodup {ls : List Listener} {w : ListenWorld} (h : TableOk ls w) :
    (w.sockets.map Prod.fst).Nodup := by
  refine (h.sockets.map Prod.fst).nodup_iff.mp ?_
  have : (pairs ls).map Prod.fst = ls.map Listener.fd := by
    rw [pairs, List.map_map]
    rfl
  rw [this]
  exact h.distinct

/-- An entry's descriptor is open, on the entry's port. -/
theorem TableOk.bound {ls : List Listener} {w : ListenWorld} (h : TableOk ls w) {l : Listener}
    (hl : l ∈ ls) : (l.fd, l.localPort) ∈ w.sockets :=
  h.sockets.subset (List.mem_map.mpr ⟨l, hl, rfl⟩)

/-- In a list with distinct keys a key determines its entry. -/
theorem eq_of_fst_eq {α β : Type} {m : List (α × β)} (h : (m.map Prod.fst).Nodup) {a b : α × β}
    (ha : a ∈ m) (hb : b ∈ m) (hab : a.1 = b.1) : a = b :=
  List.inj_on_of_nodup_map h ha hb hab

/-- The call that opened a socket. -/
def toListen (n : Int × Int) : ListenIo := .listen n.2 n.1

section Worlds

variable {w : ListenWorld}

theorem ListenWorld.ios_append (io io' : List ListenIo) :
    w.ios (io ++ io') = (w.ios io).ios io' := List.foldl_append

/-- Successful `listen_loopback` calls add their sockets. -/
theorem ListenWorld.ios_listens {news : List (Int × Int)} (h : ∀ n ∈ news, 0 ≤ n.1) :
    w.ios (news.map toListen) = { w with sockets := w.sockets ++ news } := by
  induction news generalizing w with
  | nil => rw [List.append_nil]; rfl
  | cons n news ih =>
    have hn : w.io (toListen n) = { w with sockets := w.sockets ++ [n] } := by
      have h0 := h n List.mem_cons_self
      exact if_neg (by omega)
    show (w.io (toListen n)).ios (news.map toListen) = _
    rw [hn, ih fun m hm => h m (List.mem_cons_of_mem n hm)]
    simp

/-- Closing distinct open descriptors removes exactly them. -/
theorem ListenWorld.ios_closes {fds : List Int} (hnodup : fds.Nodup)
    (hopen : ∀ fd ∈ fds, fd ∈ w.sockets.map Prod.fst) :
    w.ios (fds.map .close) = { w with sockets := w.sockets.filter fun n => decide (n.1 ∉ fds) } := by
  induction fds generalizing w with
  | nil => simp [ListenWorld.ios]
  | cons fd fds ih =>
    obtain ⟨hfd, hrest⟩ := List.nodup_cons.mp hnodup
    have hc : w.io (.close fd) = { w with sockets := w.sockets.filter (·.1 ≠ fd) } :=
      if_pos (hopen fd List.mem_cons_self)
    show (w.io (.close fd)).ios (fds.map .close) = _
    rw [hc, ih hrest]
    · -- the two filters, of this close and of the later ones, make the one over `fd :: fds`
      simp only [List.filter_filter]
      congr 1
      refine List.filter_congr fun n _ => ?_
      simp only [List.mem_cons, ne_eq, decide_not]
      by_cases h1 : n.1 = fd
      · simp [h1]
      · simp [h1]
    · -- the later descriptors are still open: they differ from `fd`
      intro g hg
      obtain ⟨n, hn, rfl⟩ := List.mem_map.mp (hopen g (List.mem_cons_of_mem fd hg))
      refine List.mem_map.mpr ⟨n, List.mem_filter.mpr ⟨hn, ?_⟩, rfl⟩
      have : n.1 ≠ fd := fun he => hfd (he ▸ hg)
      simpa using this

/-- What freshness says about a block of successful calls. -/
theorem ListenFresh.listens {other : Int → Prop} {news : List (Int × Int)} {rest : List ListenIo}
    (h : ListenFresh other w (news.map toListen ++ rest)) (hpos : ∀ n ∈ news, 0 ≤ n.1)
    (hnodup : (w.sockets.map Prod.fst).Nodup) :
    ((w.sockets ++ news).map Prod.fst).Nodup ∧ ∀ n ∈ news, ¬ other n.1 := by
  induction news generalizing w with
  | nil =>
    rw [List.append_nil]
    exact ⟨hnodup, fun _ hn => by cases hn⟩
  | cons n news ih =>
    have h0 := hpos n List.mem_cons_self
    have hfresh : n.1 ∉ w.sockets.map Prod.fst ∧ ¬ other n.1 := by
      rcases h.1 n.2 n.1 rfl with hneg | ⟨-, h1, h2⟩
      · omega
      · exact ⟨h1, h2⟩
    have hn : w.io (toListen n) = { w with sockets := w.sockets ++ [n] } := if_neg (by omega)
    have hrest := h.2
    rw [hn] at hrest
    -- so the sockets stay distinct, which is what the later calls are fresh against
    have hnext : ((w.sockets ++ [n]).map Prod.fst).Nodup := by
      rw [List.map_append, List.map_singleton, List.nodup_append]
      refine ⟨hnodup, List.nodup_singleton _, ?_⟩
      intro a ha b hb hab
      obtain rfl := List.mem_singleton.mp hb
      exact hfresh.1 (hab ▸ ha)
    obtain ⟨h1, h2⟩ := ih hrest (fun m hm => hpos m (List.mem_cons_of_mem n hm)) hnext
    refine ⟨by simpa using h1, ?_⟩
    intro m hm
    rcases List.mem_cons.mp hm with rfl | hm
    · exact hfresh.2
    · exact h2 m hm

end Worlds

/-! ## `reconfigure_listeners` -/

/-- The first loop succeeded: every entry has the descriptor its port is already listening on, or
    one of the new sockets. -/
structure Opened (ls rs table : List Listener) (news : List (Int × Int)) : Prop where
  specs : table.map Listener.spec = rs.map Listener.spec
  source : ∀ t ∈ table,
    (0 ≤ currentFd ls t.localPort ∧ t.fd = currentFd ls t.localPort) ∨
    (currentFd ls t.localPort < 0 ∧ (t.fd, t.localPort) ∈ news)
  news : ∀ n ∈ news, 0 ≤ n.1 ∧ n ∈ pairs table

/-- The first loop failed at entry `k`: every entry in front of it was listening already or could be
    opened. -/
structure FirstFailure (ls : List Listener) (listen : Nat → Int) (rs : List Listener) (k : Nat)
    (port : Int) : Prop where
  entry : (rs[k]?).map Listener.localPort = some port
  idle : currentFd ls port < 0
  failed : listen k < 0
  before : ∀ j < k, ∀ r, rs[j]? = some r → 0 ≤ currentFd ls r.localPort ∨ 0 ≤ listen j

theorem openRequested_ok {ls rs table : List Listener} {listen : Nat → Int} {i : Nat}
    {opened : List Int} {io : List ListenIo}
    (h : openRequested ls listen i opened rs = (.ok table, io)) :
    ∃ news, io = news.map toListen ∧ Opened ls rs table news := by
  induction rs generalizing i opened table io with
  | nil =>
    unfold openRequested at h
    obtain ⟨h1, rfl⟩ := Prod.mk.inj h
    obtain rfl := Except.ok.inj h1
    exact ⟨[], rfl, rfl, fun _ ht => (by cases ht), fun _ hn => (by cases hn)⟩
  | cons r rs ih =>
    unfold openRequested at h
    dsimp only at h
    split at h
    · rename_i hidle
      split at h
      · cases h
      · rename_i hpos
        -- a new socket
        cases hrec : openRequested ls listen (i + 1) (opened ++ [listen i]) rs with
        | mk res io₁ =>
          rw [hrec] at h
          obtain ⟨h1, rfl⟩ := Prod.mk.inj h
          cases res with
          | error e => cases h1
          | ok table₁ =>
            obtain rfl := Except.ok.inj h1
            obtain ⟨news, rfl, ho⟩ := ih hrec
            refine ⟨(listen i, r.localPort) :: news, rfl, ?_, ?_, ?_⟩
            · exact congrArg (r.spec :: ·) ho.specs
            · intro t ht
              rcases List.mem_cons.mp ht with rfl | ht
              · exact Or.inr ⟨hidle, List.mem_cons_self⟩
              · rcases ho.source t ht with hs | ⟨hs, hn⟩
                · exact Or.inl hs
                · exact Or.inr ⟨hs, List.mem_cons_of_mem _ hn⟩
            · intro n hn
              rcases List.mem_cons.mp hn with rfl | hn
              · exact ⟨by show 0 ≤ listen i; omega, List.mem_cons_self⟩
              · exact ⟨(ho.news n hn).1, List.mem_cons_of_mem _ (ho.news n hn).2⟩
    · rename_i hold
      -- a port that is listening already
      cases hrec : openRequested ls listen (i + 1) opened rs with
      | mk res io₁ =>
        rw [hrec] at h
        obtain ⟨h1, rfl⟩ := Prod.mk.inj h
        cases res with
        | error e => cases h1
        | ok table₁ =>
          obtain rfl := Except.ok.inj h1
          obtain ⟨news, rfl, ho⟩ := ih hrec
          refine ⟨news, rfl, ?_, ?_, ?_⟩
          · exact congrArg (r.spec :: ·) ho.specs
          · intro t ht
            rcases List.mem_cons.mp ht with rfl | ht
            · exact Or.inl ⟨Int.not_lt.mp hold, rfl⟩
            · exact ho.source t ht
          · intro n hn
            exact ⟨(ho.news n hn).1, List.mem_cons_of_mem _ (ho.news n hn).2⟩

/-- A failure at `k` in the rest of the list is one at `k + 1` of the list. -/
theorem FirstFailure.cons {ls rs : List Listener} {listen : Nat → Int} {r : Listener} {k : Nat}
    {port : Int} (h : FirstFailure ls (fun j => listen (j + 1)) rs k port)
    (hr : 0 ≤ currentFd ls r.localPort ∨ 0 ≤ listen 0) :
    FirstFailure ls listen (r :: rs) (k + 1) port := by
  refine ⟨h.entry, h.idle, h.failed, ?_⟩
  intro j hj r' hr'
  cases j with
  | zero =>
    obtain rfl : r = r' := Option.some.inj hr'
    exact hr
  | succ j => exact h.before j (by omega) r' hr'

theorem openRequested_error {ls rs : List Listener} {listen : Nat → Int} {i : Nat}
    {opened : List Int} {port : Int} {io : List ListenIo}
    (h : openRequested ls listen i opened rs = (.error port, io)) :
    ∃ (news : List (Int × Int)) (k : Nat) (r : Int), r < 0 ∧
      io = news.map toListen ++ .listen port r :: (opened ++ news.map Prod.fst).map .close ∧
      (∀ n ∈ news, 0 ≤ n.1) ∧ FirstFailure ls (fun j => listen (i + j)) rs k port := by
  induction rs generalizing i opened io with
  | nil => cases h
  | cons r rs ih =>
    have hshift : (fun j => listen (i + 1 + j)) = fun j => (fun j => listen (i + j)) (j + 1) := by
      funext j
      show listen (i + 1 + j) = listen (i + (j + 1))
      congr 1
      omega
    unfold openRequested at h
    dsimp only at h
    split at h
    · rename_i hidle
      split at h
      · rename_i hneg
        obtain ⟨h1, rfl⟩ := Prod.mk.inj h
        obtain rfl := Except.error.inj h1
        refine ⟨[], 0, listen i, hneg, by simp, fun _ hn => (by cases hn), rfl, hidle, hneg, ?_⟩
        intro j hj
        exact absurd hj (Nat.not_lt_zero j)
      · rename_i hpos
        cases hrec : openRequested ls listen (i + 1) (opened ++ [listen i]) rs with
        | mk res io₁ =>
          rw [hrec] at h
          obtain ⟨h1, rfl⟩ := Prod.mk.inj h
          cases res with
          | ok table => cases h1
          | error e =>
            obtain rfl := Except.error.inj h1
            obtain ⟨news, k, r', hr', rfl, hnews, hf⟩ := ih hrec
            rw [hshift] at hf
            refine ⟨(listen i, r.localPort) :: news, k + 1, r', hr', ?_, ?_, ?_⟩
            · simp [toListen]
            · intro n hn
              rcases List.mem_cons.mp hn with rfl | hn
              · exact Int.not_lt.mp hpos
              · exact hnews n hn
            · exact hf.cons (Or.inr (Int.not_lt.mp hpos))
    · rename_i hold
      cases hrec : openRequested ls listen (i + 1) opened rs with
      | mk res io₁ =>
        rw [hrec] at h
        obtain ⟨h1, rfl⟩ := Prod.mk.inj h
        cases res with
        | ok table => cases h1
        | error e =>
          obtain rfl := Except.error.inj h1
          obtain ⟨news, k, r', hr', hio, hnews, hf⟩ := ih hrec
          rw [hshift] at hf
          exact ⟨news, k + 1, r', hr', hio, hnews, hf.cons (Or.inl (Int.not_lt.mp hold))⟩

/-! ### Which descriptor a port has -/

section

variable {ls rs table : List Listener} {w : ListenWorld}

theorem currentFd_of_mem (h : (ls.map Listener.localPort).Nodup) {l : Listener} (hl : l ∈ ls) :
    currentFd ls l.localPort = l.fd := by
  unfold currentFd
  cases hf : ls.find? (·.localPort = l.localPort) with
  | none =>
    have := List.find?_eq_none.mp hf l hl
    simp at this
  | some l' =>
    have hport : l'.localPort = l.localPort := by simpa using List.find?_some hf
    have := List.inj_on_of_nodup_map h (List.mem_of_find?_eq_some hf) hl hport
    rw [this]

theorem exists_of_currentFd {port : Int} (h : 0 ≤ currentFd ls port) :
    ∃ l ∈ ls, l.localPort = port ∧ l.fd = currentFd ls port := by
  unfold currentFd at h ⊢
  cases hf : ls.find? (·.localPort = port) with
  | none =>
    rw [hf] at h
    exact absurd h (by decide)
  | some l =>
    have hport : l.localPort = port := by simpa using List.find?_some hf
    exact ⟨l, List.mem_of_find?_eq_some hf, hport, rfl⟩

/-- A port is idle exactly when no entry has it. -/
theorem TableOk.currentFd_neg_iff (h : TableOk ls w) (port : Int) :
    currentFd ls port < 0 ↔ ∀ l ∈ ls, l.localPort ≠ port := by
  constructor
  · rintro hneg l hl rfl
    rw [currentFd_of_mem h.specs.ports hl] at hneg
    have := h.opened l hl
    omega
  · intro hno
    by_contra hpos
    obtain ⟨l, hl, hp, -⟩ := exists_of_currentFd (Int.not_lt.mp hpos)
    exact hno l hl hp

/-- Every socket of the new table is an old one or a new one. -/
theorem Opened.mem_sockets {news : List (Int × Int)} (ho : Opened ls rs table news)
    (h : TableOk ls w) {t : Listener} (ht : t ∈ table) :
    (t.fd, t.localPort) ∈ w.sockets ++ news := by
  rcases ho.source t ht with ⟨hpos, hfd⟩ | ⟨-, hn⟩
  · obtain ⟨l, hl, hport, hlfd⟩ := exists_of_currentFd hpos
    have := h.bound hl
    rw [hport, hlfd, ← hfd] at this
    exact List.mem_append_left _ this
  · exact List.mem_append_right _ hn

/-- An old entry's descriptor is in the new table exactly when its port is. -/
theorem Opened.kept_iff {news : List (Int × Int)} (ho : Opened ls rs table news)
    (h : TableOk ls w) (hnodup : ((w.sockets ++ news).map Prod.fst).Nodup) {l : Listener}
    (hl : l ∈ ls) {t : Listener} (ht : t ∈ table) : t.fd = l.fd ↔ t.localPort = l.localPort := by
  constructor
  · intro hfd
    have h1 := ho.mem_sockets h ht
    have h2 : (l.fd, l.localPort) ∈ w.sockets ++ news := List.mem_append_left _ (h.bound hl)
    exact congrArg Prod.snd (eq_of_fst_eq hnodup h1 h2 hfd)
  · intro hport
    have hcur : currentFd ls t.localPort = l.fd := by
      rw [hport]
      exact currentFd_of_mem h.specs.ports hl
    have hpos := h.opened l hl
    rcases ho.source t ht with ⟨-, hfd⟩ | ⟨hneg, -⟩
    · exact hfd.trans hcur
    · omega

/-- A failed request opens and closes again the same sockets. -/
theorem reconfigureListeners_failed {listen : Nat → Int} {other : Int → Prop} {port : Int}
    {io : List ListenIo} (h : TableOk ls w)
    (he : reconfigureListeners ls listen rs = (.error port, io)) (hf : ListenFresh other w io) :
    w.ios io = w ∧ ∃ k, FirstFailure ls listen rs k port := by
  unfold reconfigureListeners at he
  split at he
  · rename_i port' io' hopen
    obtain ⟨h1, rfl⟩ := Prod.mk.inj he
    obtain rfl := Except.error.inj h1
    obtain ⟨news, k, r, hr, rfl, hpos, hfirst⟩ := openRequested_error hopen
    simp only [Nat.zero_add] at hfirst
    refine ⟨?_, k, hfirst⟩
    obtain ⟨hnodup, -⟩ := hf.listens hpos h.nodup
    rw [List.map_append, List.nodup_append] at hnodup
    obtain ⟨-, hnews, hdisjoint⟩ := hnodup
    have hlisten : ∀ w' : ListenWorld, w'.io (.listen port' r) = w' := fun w' => if_pos hr
    rw [ListenWorld.ios_append, ListenWorld.ios_listens hpos]
    show (ListenWorld.io _ (.listen port' r)).ios _ = w
    rw [hlisten, List.nil_append, ListenWorld.ios_closes hnews]
    · -- the filter takes out the new sockets and leaves the old ones
      have hold : w.sockets.filter (fun n => decide (n.1 ∉ news.map Prod.fst)) = w.sockets := by
        refine List.filter_eq_self.mpr fun n hn => ?_
        rw [decide_eq_true_iff]
        intro hmem
        exact hdisjoint n.1 (List.mem_map_of_mem hn) n.1 hmem rfl
      have hgone : news.filter (fun n => decide (n.1 ∉ news.map Prod.fst)) = [] := by
        refine List.filter_eq_nil_iff.mpr fun n hn => ?_
        rw [decide_eq_true_iff, not_not]
        exact List.mem_map_of_mem hn
      dsimp only
      rw [List.filter_append, hold, hgone, List.append_nil]
    · intro fd hfd
      show fd ∈ (w.sockets ++ news).map Prod.fst
      rw [List.map_append]
      exact List.mem_append_right _ hfd
  · cases he

/-- The descriptors among the closing calls. -/
def closedFds (io : List ListenIo) : List Int :=
  io.filterMap fun | .close fd => some fd | _ => none

/-- The descriptors of the ports a new table drops. -/
def droppedFds (ls table : List Listener) : List Int :=
  (ls.filter fun l => ! table.any (·.localPort = l.localPort)).map Listener.fd

theorem mem_droppedFds {fd : Int} : fd ∈ droppedFds ls table ↔
    ∃ l ∈ ls, l.fd = fd ∧ ∀ t ∈ table, t.localPort ≠ l.localPort := by
  unfold droppedFds
  rw [List.mem_map]
  constructor
  · rintro ⟨l, hl, rfl⟩
    obtain ⟨hl, hno⟩ := List.mem_filter.mp hl
    exact ⟨l, hl, rfl, by simpa using hno⟩
  · rintro ⟨l, hl, rfl, hno⟩
    exact ⟨l, List.mem_filter.mpr ⟨hl, by simpa using hno⟩, rfl⟩

/-- The second loop closes the descriptors of the dropped ports. -/
theorem Opened.closeDropped_eq {news : List (Int × Int)} (ho : Opened ls rs table news)
    (h : TableOk ls w) (hnodup : ((w.sockets ++ news).map Prod.fst).Nodup) :
    closeDropped ls table = (droppedFds ls table).map .close := by
  unfold closeDropped droppedFds
  rw [List.map_map]
  congr 1
  refine List.filter_congr fun l hl => ?_
  congr 1
  rw [Bool.eq_iff_iff, List.any_eq_true, List.any_eq_true]
  constructor
  · rintro ⟨t, ht, hfd⟩
    exact ⟨t, ht, by simpa using (ho.kept_iff h hnodup hl ht).mp (by simpa using hfd)⟩
  · rintro ⟨t, ht, hport⟩
    exact ⟨t, ht, by simpa using (ho.kept_iff h hnodup hl ht).mpr (by simpa using hport)⟩

/-- The sockets left over are exactly those of the new table. -/
theorem Opened.mem_left_iff {news : List (Int × Int)} (ho : Opened ls rs table news)
    (h : TableOk ls w) (hnodup : ((w.sockets ++ news).map Prod.fst).Nodup) (n : Int × Int) :
    n ∈ (w.sockets ++ news).filter (fun n => decide (n.1 ∉ droppedFds ls table)) ↔
      n ∈ pairs table := by
  rw [List.mem_filter, decide_eq_true_iff]
  constructor
  · rintro ⟨hn, hkept⟩
    rcases List.mem_append.mp hn with hold | hnew
    · -- an old socket: its port is in the new table, with the same descriptor
      obtain ⟨l, hl, rfl⟩ := List.mem_map.mp (h.sockets.symm.subset hold)
      have hport : ∃ t ∈ table, t.localPort = l.localPort := by
        by_contra hno
        push Not at hno
        exact hkept (mem_droppedFds.mpr ⟨l, hl, rfl, hno⟩)
      obtain ⟨t, ht, hp⟩ := hport
      have hfd := (ho.kept_iff h hnodup hl ht).mpr hp
      exact List.mem_map.mpr ⟨t, ht, by rw [hfd, hp]⟩
    · exact (ho.news n hnew).2
  · intro hn
    obtain ⟨t, ht, rfl⟩ := List.mem_map.mp hn
    refine ⟨ho.mem_sockets h ht, ?_⟩
    intro hdrop
    obtain ⟨l, hl, hfd, hno⟩ := mem_droppedFds.mp hdrop
    exact hno t ht ((ho.kept_iff h hnodup hl ht).mp hfd.symm)

/-- The sockets after a successful request. -/
theorem Opened.world {news : List (Int × Int)} (ho : Opened ls rs table news) (h : TableOk ls w)
    (hnodup : ((w.sockets ++ news).map Prod.fst).Nodup) :
    w.ios (news.map toListen ++ closeDropped ls table) =
      { w with sockets := (w.sockets ++ news).filter
                fun n => decide (n.1 ∉ droppedFds ls table) } := by
  rw [ListenWorld.ios_append, ListenWorld.ios_listens (fun n hn => (ho.news n hn).1),
    ho.closeDropped_eq h hnodup, ListenWorld.ios_closes]
  · exact h.distinct.sublist (List.filter_sublist.map _)
  · intro fd hfd
    obtain ⟨l, hl, rfl, -⟩ := mem_droppedFds.mp hfd
    show l.fd ∈ (w.sockets ++ news).map Prod.fst
    exact List.mem_map.mpr ⟨_, List.mem_append_left _ (h.bound hl), rfl⟩

/-- The new table with its sockets satisfies the invariant again. -/
theorem Opened.tableOk {news : List (Int × Int)} (ho : Opened ls rs table news) (h : TableOk ls w)
    (hspec : SpecOk rs) (hnodup : ((w.sockets ++ news).map Prod.fst).Nodup) :
    TableOk table (w.ios (news.map toListen ++ closeDropped ls table)) := by
  have hspecs : SpecOk table := hspec.congr ho.specs
  have hleft := ho.mem_left_iff h hnodup
  -- entries with the same descriptor have the same port, hence are the same entry
  have hinj : ∀ t ∈ table, ∀ t' ∈ table, t.fd = t'.fd → t = t' := by
    intro t ht t' ht' hfd
    have := eq_of_fst_eq hnodup (ho.mem_sockets h ht) (ho.mem_sockets h ht') hfd
    exact List.inj_on_of_nodup_map hspecs.ports ht ht' (congrArg Prod.snd this)
  have htable : table.Nodup := hspecs.ports.of_map _
  rw [ho.world h hnodup]
  refine ⟨hspecs, ?_, List.Nodup.map_on hinj htable, ?_, h.clean⟩
  · intro t ht
    rcases ho.source t ht with ⟨hpos, hfd⟩ | ⟨-, hn⟩
    · exact hfd ▸ hpos
    · exact (ho.news _ hn).1
  · refine (List.perm_ext_iff_of_nodup ?_ ?_).mpr fun n => (hleft n).symm
    · refine List.Nodup.map_on ?_ htable
      intro t ht t' ht' he
      exact hinj t ht t' ht' (congrArg Prod.fst he)
    · exact (hnodup.of_map _).filter _

/-- What a successful request leaves behind. -/
structure Reconfigured (ls rs table : List Listener) (io : List ListenIo) (other : Int → Prop)
    (w : ListenWorld) : Prop where
  ok : TableOk table (w.ios io)
  specs : table.map Listener.spec = rs.map Listener.spec
  /-- A port that was listening keeps its descriptor. -/
  kept : ∀ l ∈ ls, ∀ t ∈ table, t.localPort = l.localPort → t.fd = l.fd
  closes : closedFds io = droppedFds ls table
  fresh : ∀ fd ∈ (w.ios io).sockets.map Prod.fst, fd ∈ w.sockets.map Prod.fst ∨ ¬ other fd

theorem closedFds_append (io io' : List ListenIo) :
    closedFds (io ++ io') = closedFds io ++ closedFds io' := List.filterMap_append

theorem closedFds_listens (news : List (Int × Int)) : closedFds (news.map toListen) = [] := by
  unfold closedFds
  rw [List.filterMap_map]
  exact List.filterMap_eq_nil_iff.mpr fun _ _ => rfl

theorem closedFds_closes (fds : List Int) : closedFds (fds.map .close) = fds := by
  unfold closedFds
  rw [List.filterMap_map]
  exact List.filterMap_some

theorem reconfigureListeners_ok {listen : Nat → Int} {other : Int → Prop} {io : List ListenIo}
    (h : TableOk ls w) (hspec : SpecOk rs)
    (he : reconfigureListeners ls listen rs = (.ok table, io)) (hf : ListenFresh other w io) :
    Reconfigured ls rs table io other w := by
  unfold reconfigureListeners at he
  split at he
  · cases he
  · rename_i table' io' hopen
    obtain ⟨h1, rfl⟩ := Prod.mk.inj he
    obtain rfl := Except.ok.inj h1
    obtain ⟨news, rfl, ho⟩ := openRequested_ok hopen
    obtain ⟨hnodup, hother⟩ := hf.listens (fun n hn => (ho.news n hn).1) h.nodup
    refine ⟨ho.tableOk h hspec hnodup, ho.specs, ?_, ?_, ?_⟩
    · intro l hl t ht hport
      exact (ho.kept_iff h hnodup hl ht).mpr hport
    · rw [closedFds_append, closedFds_listens, ho.closeDropped_eq h hnodup, closedFds_closes,
        List.nil_append]
    · intro fd hfd
      rw [ho.world h hnodup] at hfd
      obtain ⟨n, hn, rfl⟩ := List.mem_map.mp hfd
      rcases List.mem_append.mp (List.mem_filter.mp hn).1 with hn | hn
      · exact Or.inl (List.mem_map_of_mem hn)
      · exact Or.inr (hother n hn)

end

end PptpProxy
