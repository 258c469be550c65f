import Mathlib.Data.List.Infix

namespace Lts

/-!
# Labelled transition systems and their traces

A system is a relation `step s a t`: in state `s` the label `a` may lead to `t`.  A trace is
a log of labels, newest first, that leads from one state to another.

* `trace_append` — a log in two parts is a trace in two parts;
* `Trace.invariant` — what every step preserves holds where a trace ends;
* `Within step P` — the steps that end in `P`;
* `Trace.entered` — a trace that comes to `P` entered it by one of its labels and stayed
  there from then on.
-/

variable {σ α : Type*}

/-- The labels `log`, newest first, lead from `s` to a state. -/
inductive Trace (step : σ → α → σ → Prop) (s : σ) : List α → σ → Prop
  | nil : Trace step s [] s
  | cons {a : α} {older : List α} {t u : σ} (before : Trace step s older t) (last : step t a u) :
      Trace step s (a :: older) u

variable {step : σ → α → σ → Prop} {s u : σ} {log : List α}

/-- No label leads nowhere. -/
@[simp] theorem trace_nil : Trace step s [] u ↔ u = s := by
  constructor
  · intro h
    cases h
    rfl
  · rintro rfl
    exact .nil

/-- A trace and its newest label. -/
@[simp] theorem trace_cons {a : α} :
    Trace step s (a :: log) u ↔ ∃ t, Trace step s log t ∧ step t a u := by
  constructor
  · intro h
    cases h with
    | cons before last => exact ⟨_, before, last⟩
  · rintro ⟨t, before, last⟩
    exact .cons before last

/-- A log in two parts: the newer one goes on where the older one ends. -/
theorem trace_append {newer older : List α} :
    Trace step s (newer ++ older) u ↔ ∃ t, Trace step s older t ∧ Trace step t newer u := by
  induction newer generalizing u with
  | nil => simp
  | cons a newer ih =>
    simp only [List.cons_append, trace_cons, ih]
    constructor
    · rintro ⟨v, ⟨t, hold, hnew⟩, hlast⟩
      exact ⟨t, hold, v, hnew, hlast⟩
    · rintro ⟨t, hold, v, hnew, hlast⟩
      exact ⟨v, ⟨t, hold, hnew⟩, hlast⟩

/-- **Trace induction.**  What every step preserves holds where a trace ends. -/
theorem Trace.invariant {P : σ → Prop} (hstep : ∀ t a u, P t → step t a u → P u)
    (h : Trace step s log u) (h0 : P s) : P u := by
  induction h with
  | nil => exact h0
  | cons _ last ih => exact hstep _ _ _ ih last

/-- Every label of a trace is that of a step, from where the labels before it lead. -/
theorem Trace.step_of_suffix (h : Trace step s log u) {a : α} {older : List α}
    (hsuf : a :: older <:+ log) : ∃ t v, Trace step s older t ∧ step t a v := by
  obtain ⟨newer, rfl⟩ := hsuf
  obtain ⟨v, hold, -⟩ := trace_append.mp h
  obtain ⟨t, hbefore, hlast⟩ := trace_cons.mp hold
  exact ⟨t, v, hbefore, hlast⟩

/-- The steps that end in `P`. -/
def Within (step : σ → α → σ → Prop) (P : σ → Prop) (t : σ) (a : α) (v : σ) : Prop :=
  step t a v ∧ P v

/-- **How a trace came to `P`.**  A trace from outside `P` to a state of `P` entered it by one
    of its labels, and stayed in it from then on. -/
theorem Trace.entered {P : σ → Prop} (h : Trace step s log u) (hs : ¬ P s) (hu : P u) :
    ∃ newer a older t v, log = newer ++ a :: older ∧ Trace step s older t ∧ ¬ P t
      ∧ step t a v ∧ P v ∧ Trace (Within step P) v newer u := by
  induction h with
  | nil => exact absurd hu hs
  | @cons a older t u before last ih =>
    by_cases ht : P t
    · obtain ⟨newer, b, oldest, t', v, rfl, hold, hout, henter, hin, hstay⟩ := ih ht
      exact ⟨a :: newer, b, oldest, t', v, rfl, hold, hout, henter, hin, .cons hstay ⟨last, hu⟩⟩
    · exact ⟨[], a, older, t, u, rfl, before, ht, last, hu, .nil⟩

/-- Every label of a trace that stays in `P` is that of a step inside `P`. -/
theorem Trace.label_of_within {P : σ → Prop} {v : σ} (h : Trace (Within step P) v log u)
    (hv : P v) {a : α} (ha : a ∈ log) :
    ∃ t w, P t ∧ step t a w ∧ P w := by
  have hP {newer : List α} {w : σ} (hw : Trace (Within step P) v newer w) : P w :=
    hw.invariant (fun _ _ _ _ hstep => hstep.2) hv
  induction h with
  | nil => exact absurd ha List.not_mem_nil
  | cons before last ih =>
    rcases List.mem_cons.mp ha with rfl | hold
    · exact ⟨_, _, hP before, last.1, last.2⟩
    · exact ih hold

end Lts
