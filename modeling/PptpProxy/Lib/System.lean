/-
  Event-driven systems: a state type, a set of events, a guard that says when an event may happen
  and a function that says what it does.

  `System.run` replays a list of events, `System.Run` says that every event of the list was
  enabled when it happened (`System.Leads` is both, with the state at the end), and `System.Reach`
  is reachability.  An invariant is proved once by
  `Reach.invariant` (it holds at the start and every enabled event keeps it), or by `Along.invariant`
  when the events of the run at hand are known to meet a condition (`System.Along`).  `foldl_keeps` is
  the same rule for a loop over a list inside ONE event.
-/
import Mathlib.Logic.Relation

namespace Sys

/-- A guarded, deterministic event system: all nondeterminism is in the events. -/
structure System (σ ε : Type) where
  /-- The initial states. -/
  init : σ → Prop
  /-- When an event may happen. -/
  enabled : σ → ε → Prop
  /-- What it does. -/
  step : σ → ε → σ

variable {σ ε : Type} (M : System σ ε)

namespace System

/-- The state after a list of events. -/
def run (s : σ) (es : List ε) : σ := es.foldl M.step s

@[simp] theorem run_nil (s : σ) : M.run s [] = s := rfl

@[simp] theorem run_cons (s : σ) (e : ε) (es : List ε) :
    M.run s (e :: es) = M.run (M.step s e) es := rfl

theorem run_append (s : σ) (es fs : List ε) : M.run s (es ++ fs) = M.run (M.run s es) fs :=
  List.foldl_append

/-- Every event of the list is enabled when its turn comes. -/
def Run : σ → List ε → Prop
  | _, [] => True
  | s, e :: es => M.enabled s e ∧ Run (M.step s e) es

theorem Run_append {s : σ} {es fs : List ε} (h : M.Run s (es ++ fs)) :
    M.Run s es ∧ M.Run (M.run s es) fs := by
  induction es generalizing s with
  | nil => exact ⟨trivial, h⟩
  | cons e es ih =>
    obtain ⟨h1, h2⟩ := ih h.2
    exact ⟨⟨h.1, h1⟩, h2⟩

/-- The reachable states. -/
inductive Reach : σ → Prop
  | init {s : σ} (h : M.init s) : Reach s
  | step {s : σ} {e : ε} (h : Reach s) (he : M.enabled s e) : Reach (M.step s e)

variable {M}

theorem Run.snoc {s : σ} {es : List ε} {e : ε} (h : M.Run s es) (he : M.enabled (M.run s es) e) :
    M.Run s (es ++ [e]) := by
  induction es generalizing s with
  | nil => exact ⟨he, trivial⟩
  | cons e' es ih => exact ⟨h.1, ih h.2 he⟩

/-- An event in the middle of a run was enabled. -/
theorem Run.enabled {s : σ} {es fs : List ε} {e : ε} (h : M.Run s (es ++ e :: fs)) :
    M.enabled (M.run s es) e :=
  (M.Run_append h).2.1

/-- A run from a reachable state ends in a reachable state. -/
theorem Reach.run {s : σ} (h : M.Reach s) {es : List ε} (hr : M.Run s es) :
    M.Reach (M.run s es) := by
  induction es generalizing s with
  | nil => exact h
  | cons e es ih => exact ih (h.step hr.1) hr.2

/-- The events lead from `s` to `s'`, each enabled in its turn. -/
def Leads (M : System σ ε) (s : σ) (es : List ε) (s' : σ) : Prop := M.Run s es ∧ M.run s es = s'

theorem Leads.nil {s : σ} : M.Leads s [] s := ⟨trivial, rfl⟩

theorem Leads.snoc {s s' s'' : σ} {es : List ε} {e : ε} (h : M.Leads s es s')
    (he : M.enabled s' e) (hs : M.step s' e = s'') : M.Leads s (es ++ [e]) s'' := by
  obtain ⟨hrun, rfl⟩ := h
  refine ⟨hrun.snoc he, ?_⟩
  rw [run_append]
  exact hs

theorem Leads.reach {s s' : σ} {es : List ε} (h : M.Leads s es s') (hs : M.init s) :
    M.Reach s' := by
  obtain ⟨hrun, rfl⟩ := h
  exact (Reach.init hs).run hrun

/-- **The invariant rule.**  What holds initially and is kept by every enabled event holds in
    every reachable state.  Reachability of the state before the step may be used. -/
theorem Reach.invariant {P : σ → Prop} (hinit : ∀ s, M.init s → P s)
    (hstep : ∀ s e, M.Reach s → P s → M.enabled s e → P (M.step s e)) {s : σ}
    (h : M.Reach s) : P s := by
  induction h with
  | init h => exact hinit _ h
  | step hr he ih => exact hstep _ _ hr ih he

/-- `Q` holds of every event of a run, in the state in which it happens. -/
def Along (M : System σ ε) (s : σ) (es : List ε) (Q : σ → ε → Prop) : Prop :=
  ∀ pre e post, es = pre ++ e :: post → Q (M.run s pre) e

theorem Along.head {s : σ} {e : ε} {es : List ε} {Q : σ → ε → Prop}
    (h : M.Along s (e :: es) Q) : Q s e := h [] e es rfl

theorem Along.tail {s : σ} {e : ε} {es : List ε} {Q : σ → ε → Prop}
    (h : M.Along s (e :: es) Q) : M.Along (M.step s e) es Q := by
  rintro pre e' post rfl
  exact h (e :: pre) e' post rfl

theorem Along.nil {s : σ} {Q : σ → ε → Prop} : M.Along s [] Q := by
  intro pre e post h
  exact absurd h (by simp)

theorem Along.cons {s : σ} {e : ε} {es : List ε} {Q : σ → ε → Prop} (h : Q s e)
    (hs : M.Along (M.step s e) es Q) : M.Along s (e :: es) Q := by
  intro pre e' post heq
  cases pre with
  | nil =>
    obtain ⟨rfl, -⟩ := List.cons.inj heq
    exact h
  | cons x pre =>
    obtain ⟨rfl, hrest⟩ := List.cons.inj heq
    exact hs pre e' post hrest

/-- **The invariant rule for one run.**  What holds at the start and is kept by the events of the run,
    given what is known about each of them, holds in every state on the way. -/
theorem Along.invariant {P : σ → Prop} {Q : σ → ε → Prop} {s : σ} {es : List ε} (hP : P s)
    (hrun : M.Run s es) (hQ : M.Along s es Q)
    (hstep : ∀ s e, P s → M.enabled s e → Q s e → P (M.step s e)) {pre post : List ε}
    (hes : es = pre ++ post) : P (M.run s pre) := by
  induction pre generalizing s es with
  | nil => exact hP
  | cons e pre ih =>
    subst hes
    exact ih (hstep s e hP hrun.1 hQ.head) hrun.2 hQ.tail rfl

end System

/-- A loop over a list keeps what its body keeps. -/
theorem foldl_keeps {σ α : Type} {P : σ → Prop} {f : σ → α → σ} {l : List α}
    (h : ∀ s, ∀ a ∈ l, P s → P (f s a)) {s : σ} (hs : P s) : P (l.foldl f s) := by
  induction l generalizing s with
  | nil => exact hs
  | cons a l ih =>
    exact ih (fun s b hb => h s b (List.mem_cons_of_mem a hb)) (h s a List.mem_cons_self hs)

end Sys
