import Mathlib.Data.List.Infix

namespace Machine

/-!
# State machines with total steps, their runs and their logs

A machine is a function `step : σ → ε → σ`: what happens in state `s` on event `e`.
A step that the event does not concern returns `s`, so every list of events is a run.

* `run step s evs` — the state after the events `evs`;
* `AllSteps step C s evs` — every step of that run, at the state it is taken in,
  meets the condition `C`;
* `run_invariant` — the one induction over runs: what every step under `C` preserves
  holds after the run;
* `run_iff` — the same with a condition that is exact for every step;
* `run_related` — what a step keeps between the states of two machines;
* `Until step P D s evs` — every step of that run meets `P`, up to the first that meets
  `D`;
* `run_related_until` — two machines whose states are related otherwise from that step on;
* `run_map`, `allSteps_map` — a machine that another one watches, step by step;
* `AllLog P log` — every entry of a log (newest first) meets `P` against the entries
  older than it.
-/

variable {σ τ ε α : Type*}

/-- The state after the events `evs`, from `s`. -/
def run (step : σ → ε → σ) (s : σ) (evs : List ε) : σ := evs.foldl step s

@[simp] theorem run_nil (step : σ → ε → σ) (s : σ) : run step s [] = s := rfl

@[simp] theorem run_cons (step : σ → ε → σ) (s : σ) (e : ε) (evs : List ε) :
    run step s (e :: evs) = run step (step s e) evs := rfl

/-- A run over two event lists is the second run from where the first ends. -/
theorem run_append (step : σ → ε → σ) (s : σ) (evs evs' : List ε) :
    run step s (evs ++ evs') = run step (run step s evs) evs' := by
  simp [run, List.foldl_append]

/-- Every step of the run from `s` meets `C`, at the state the step is taken in. -/
def AllSteps (step : σ → ε → σ) (C : σ → ε → Prop) : σ → List ε → Prop
  | _, []       => True
  | s, e :: evs => C s e ∧ AllSteps step C (step s e) evs

@[simp] theorem allSteps_nil (step : σ → ε → σ) (C : σ → ε → Prop) (s : σ) :
    AllSteps step C s [] := trivial

@[simp] theorem allSteps_cons (step : σ → ε → σ) (C : σ → ε → Prop) (s : σ) (e : ε)
    (evs : List ε) :
    AllSteps step C s (e :: evs) ↔ C s e ∧ AllSteps step C (step s e) evs := Iff.rfl

/-- Whether the steps of a run meet a decidable condition can be decided. -/
instance AllSteps.decidable (step : σ → ε → σ) (C : σ → ε → Prop) [∀ s e, Decidable (C s e)] :
    (s : σ) → (evs : List ε) → Decidable (AllSteps step C s evs)
  | _, []       => inferInstanceAs (Decidable True)
  | s, e :: evs =>
    have := AllSteps.decidable step C (step s e) evs
    inferInstanceAs (Decidable (C s e ∧ AllSteps step C (step s e) evs))

/-- The steps of a run over two event lists are those of the first run and those of the
    second. -/
theorem allSteps_append (step : σ → ε → σ) (C : σ → ε → Prop) (s : σ) (evs evs' : List ε) :
    AllSteps step C s (evs ++ evs')
      ↔ AllSteps step C s evs ∧ AllSteps step C (run step s evs) evs' := by
  induction evs generalizing s with
  | nil => simp
  | cons e evs ih => rw [List.cons_append, allSteps_cons, allSteps_cons, ih, run_cons, and_assoc]

/-- A condition that follows from another one step by step follows along every run. -/
theorem AllSteps.mono {step : σ → ε → σ} {C C' : σ → ε → Prop} (h : ∀ s e, C s e → C' s e)
    {s : σ} {evs : List ε} (hall : AllSteps step C s evs) : AllSteps step C' s evs := by
  induction evs generalizing s with
  | nil => trivial
  | cons e evs ih => exact ⟨h s e hall.1, ih hall.2⟩

/-- Every event of such a run meets the condition in some state. -/
theorem AllSteps.exists_of_mem {step : σ → ε → σ} {C : σ → ε → Prop} {s : σ} {evs : List ε}
    (hall : AllSteps step C s evs) {e : ε} (he : e ∈ evs) : ∃ s', C s' e := by
  induction evs generalizing s with
  | nil => exact absurd he List.not_mem_nil
  | cons e' evs ih =>
    rcases List.mem_cons.mp he with rfl | he
    · exact ⟨s, hall.1⟩
    · exact ih hall.2 he

/-- The condition that asks nothing holds along every run. -/
theorem allSteps_true (step : σ → ε → σ) (s : σ) (evs : List ε) :
    AllSteps step (fun _ _ => True) s evs := by
  induction evs generalizing s with
  | nil => trivial
  | cons e evs ih => exact ⟨trivial, ih (step s e)⟩

/-- **Run induction under a condition.**  What every step that meets `C` preserves
    holds at the end of a run whose steps all meet `C`. -/
theorem run_invariant {step : σ → ε → σ} {C : σ → ε → Prop} {I : σ → Prop}
    (hstep : ∀ s e, I s → C s e → I (step s e)) {s : σ} (h0 : I s) {evs : List ε}
    (hall : AllSteps step C s evs) : I (run step s evs) := by
  induction evs generalizing s with
  | nil => exact h0
  | cons e evs ih =>
    obtain ⟨hc, hrest⟩ := hall
    exact ih (hstep s e h0 hc) hrest

/-- **Run induction.**  What every step preserves holds at the end of every run. -/
theorem run_invariant' {step : σ → ε → σ} {I : σ → Prop}
    (hstep : ∀ s e, I s → I (step s e)) {s : σ} (h0 : I s) (evs : List ε) :
    I (run step s evs) :=
  run_invariant (fun s e hs _ => hstep s e hs) h0 (allSteps_true step s evs)

/-- **Exact run induction.**  Where, in the states of an invariant `J`, a step keeps `I`
    exactly when it meets `C`, a run keeps `I` exactly when all its steps meet `C`. -/
theorem run_iff {step : σ → ε → σ} {C : σ → ε → Prop} {I J : σ → Prop}
    (hJ : ∀ s e, J s → J (step s e)) (hI : ∀ s e, J s → (I (step s e) ↔ I s ∧ C s e)) {s : σ}
    (h0 : J s) (evs : List ε) : I (run step s evs) ↔ I s ∧ AllSteps step C s evs := by
  induction evs generalizing s with
  | nil => simp
  | cons e evs ih => rw [run_cons, ih (hJ s e h0), hI s e h0, allSteps_cons, and_assoc]

/-- **Two runs.**  What relates two states and is kept by every step that meets `C` in the
    first of them relates the states after every run whose steps all do. -/
theorem run_related {step : σ → ε → σ} {step' : τ → ε → τ} {C : σ → ε → Prop}
    {R : σ → τ → Prop} (hstep : ∀ s t e, R s t → C s e → R (step s e) (step' t e)) {s : σ}
    {t : τ} (h0 : R s t) {evs : List ε} (hall : AllSteps step C s evs) :
    R (run step s evs) (run step' t evs) := by
  induction evs generalizing s t with
  | nil => exact h0
  | cons e evs ih => exact ih (hstep s t e h0 hall.1) hall.2

/-- Every step of the run from `s` meets `P`, up to the first that meets `D`, which ends
    what is asked. -/
def Until (step : σ → ε → σ) (P D : σ → ε → Prop) : σ → List ε → Prop
  | _, []       => True
  | s, e :: evs => D s e ∨ P s e ∧ Until step P D (step s e) evs

/-- Decidable conditions can be decided along a run. -/
instance Until.decidable (step : σ → ε → σ) (P D : σ → ε → Prop) [∀ s e, Decidable (P s e)]
    [∀ s e, Decidable (D s e)] : (s : σ) → (evs : List ε) → Decidable (Until step P D s evs)
  | _, []       => inferInstanceAs (Decidable True)
  | s, e :: evs =>
    have := Until.decidable step P D (step s e) evs
    inferInstanceAs (Decidable (D s e ∨ P s e ∧ Until step P D (step s e) evs))

/-- **Two runs in two phases.**  What relates two states up to the first step that meets
    `D`, and what that step makes of it, which every later step keeps: the second relates
    the states after every run that meets `P` until then and comes that far. -/
theorem run_related_until {step : σ → ε → σ} {step' : τ → ε → τ} {P D : σ → ε → Prop}
    {R S : σ → τ → Prop}
    (hbefore : ∀ s t e, R s t → P s e → ¬ D s e → R (step s e) (step' t e))
    (hmeet : ∀ s t e, R s t → D s e → S (step s e) (step' t e))
    (hafter : ∀ s t e, S s t → S (step s e) (step' t e)) {s : σ} {t : τ} (h0 : R s t)
    {evs : List ε} (huntil : Until step P D s evs)
    (hcomes : ¬ AllSteps step (fun s e => ¬ D s e) s evs) :
    S (run step s evs) (run step' t evs) := by
  induction evs generalizing s t with
  | nil => exact absurd trivial hcomes
  | cons e evs ih =>
    by_cases hd : D s e
    · exact run_related (fun s t e hs _ => hafter s t e hs) (hmeet s t e h0 hd)
        (allSteps_true step _ evs)
    · obtain hd' | ⟨hp, hrest⟩ := huntil
      · exact absurd hd' hd
      · exact ih (hbefore s t e h0 hp hd) hrest fun hall => hcomes ⟨hd, hall⟩

/-- **Exact conditions until an end.**  Where two pairs of conditions agree in the states
    of `I`, and steps that meet them without ending keep `I`, they agree along every run
    from such a state. -/
theorem until_iff {step : σ → ε → σ} {P P' D D' : σ → ε → Prop} {I : σ → Prop}
    (hD : ∀ s e, I s → (D s e ↔ D' s e)) (hP : ∀ s e, I s → ¬ D s e → (P s e ↔ P' s e))
    (hI : ∀ s e, I s → P s e → I (step s e)) {s : σ} (h0 : I s) (evs : List ε) :
    Until step P D s evs ↔ Until step P' D' s evs := by
  induction evs generalizing s with
  | nil => exact Iff.rfl
  | cons e evs ih =>
    by_cases hd : D s e
    · exact iff_of_true (Or.inl hd) (Or.inl ((hD s e h0).mp hd))
    have hd' : ¬ D' s e := fun h => hd ((hD s e h0).mpr h)
    show D s e ∨ P s e ∧ Until step P D (step s e) evs
      ↔ D' s e ∨ P' s e ∧ Until step P' D' (step s e) evs
    rw [or_iff_right hd, or_iff_right hd', ← hP s e h0 hd]
    constructor
    · rintro ⟨hp, hrest⟩
      exact ⟨hp, (ih (hI s e h0 hp)).mp hrest⟩
    · rintro ⟨hp, hrest⟩
      exact ⟨hp, (ih (hI s e h0 hp)).mpr hrest⟩

/-- **Exact conditions.**  Where two conditions agree in the states of an invariant that
    steps under the first keep, they agree along every run from such a state. -/
theorem allSteps_congr {step : σ → ε → σ} {C C' : σ → ε → Prop} {I : σ → Prop}
    (hI : ∀ s e, I s → C s e → I (step s e)) (hC : ∀ s e, I s → (C s e ↔ C' s e)) {s : σ}
    (h0 : I s) (evs : List ε) : AllSteps step C s evs ↔ AllSteps step C' s evs := by
  induction evs generalizing s with
  | nil => exact Iff.rfl
  | cons e evs ih =>
    rw [allSteps_cons, allSteps_cons, ← hC s e h0]
    exact and_congr_right fun hc => ih (hI s e h0 hc)

/-! ### Watching a machine

A machine whose states have a part `f` that runs on its own. -/

theorem run_map {step : σ → ε → σ} {step' : τ → ε → τ} {f : σ → τ}
    (h : ∀ s e, f (step s e) = step' (f s) e) (s : σ) (evs : List ε) :
    f (run step s evs) = run step' (f s) evs := by
  induction evs generalizing s with
  | nil => rfl
  | cons e evs ih => rw [run_cons, run_cons, ih, h]

theorem allSteps_map {step : σ → ε → σ} {step' : τ → ε → τ} {f : σ → τ}
    (h : ∀ s e, f (step s e) = step' (f s) e) (C : τ → ε → Prop) (s : σ) (evs : List ε) :
    AllSteps step (fun s e => C (f s) e) s evs ↔ AllSteps step' C (f s) evs := by
  induction evs generalizing s with
  | nil => exact Iff.rfl
  | cons e evs ih => rw [allSteps_cons, allSteps_cons, ih, h]

/-! ### Logs

A log is a list with its newest entry first. -/

/-- Every entry of `log` meets `P` against the entries that are older than it. -/
def AllLog (P : α → List α → Prop) (log : List α) : Prop :=
  ∀ e older, (e :: older) <:+ log → P e older

@[simp] theorem allLog_nil (P : α → List α → Prop) : AllLog P [] := by
  intro e older h
  simp at h

/-- A log entry by entry: the newest one, then the rest. -/
@[simp] theorem allLog_cons (P : α → List α → Prop) (e : α) (log : List α) :
    AllLog P (e :: log) ↔ P e log ∧ AllLog P log := by
  constructor
  · intro h
    exact ⟨h e log (List.suffix_refl _),
      fun e' older hs => h e' older (hs.trans (List.suffix_cons e log))⟩
  · rintro ⟨he, hrest⟩ e' older hs
    rcases List.suffix_cons_iff.mp hs with heq | hs
    · obtain ⟨rfl, rfl⟩ := List.cons.inj heq
      exact he
    · exact hrest e' older hs

end Machine
