import Mathlib.Data.List.Basic
import Mathlib.Data.Option.Basic
import Mathlib.Tactic.Common

/-! Event machines. A machine runs handlers one event at a time; a handler gives the next state and
    what it emitted, or raises. `Always` says that every completed step of a run meets a step
    predicate, `Meets` that every completed step is taken under a condition on the state before it
    and the event. The rules are `inv_of_run` (an invariant holds in the state a run ends in),
    `always_of_inv` (an invariant carries a safety property through every run) and
    `always_iff_meets` (an invariant that a condition keeps, and under which the condition decides
    the property, makes the condition exact on every run). `Attempts` reads the condition before the
    step that raises too; `run_isSome_iff` says by it which runs raise nowhere, `safe_iff_attempts`
    which raise nowhere and have a property throughout. An observer reads the events beside the
    machine without changing its runs. A machine `Projects` to a part of it when every step is a
    step of the part or leaves it alone; `Projects.always_iff_meets` carries an exact condition of
    the part over to the whole. -/

variable {σ ε ω τ σ' ε' ω' : Type*}

/-- Handlers that run one event at a time; `none` when the handler raises. -/
structure Machine (σ ε ω : Type*) where
  step : σ → ε → Option (σ × List ω)

namespace Machine

/-- The state after a run and everything emitted on the way, `none` once a handler has raised. -/
def run (M : Machine σ ε ω) : σ → List ε → Option (σ × List ω)
  | s, [] => some (s, [])
  | s, e :: es =>
    (M.step s e).bind fun (s', os) => (M.run s' es).map fun (t, os') => (t, os ++ os')

/-- Every completed step of the run of `es` from `s` meets `P`; a raise ends the run. -/
def Always (M : Machine σ ε ω) (P : σ → ε → σ → List ω → Prop) : σ → List ε → Prop
  | _, [] => True
  | s, e :: es => ∀ s' os, M.step s e = some (s', os) → P s e s' os ∧ M.Always P s' es

/-- Every completed step of the run is taken under `C`, read before the step. -/
def Meets (M : Machine σ ε ω) (C : σ → ε → Prop) : σ → List ε → Prop :=
  M.Always fun s e _ _ => C s e

/-- Every step the run attempts, the one that raises included, is taken under `C`. -/
def Attempts (M : Machine σ ε ω) (C : σ → ε → Prop) : σ → List ε → Prop
  | _, [] => True
  | s, e :: es => C s e ∧ ∀ s' os, M.step s e = some (s', os) → M.Attempts C s' es

/-- The machine with an observer beside it, which sees each event and the state before it. -/
def observe (M : Machine σ ε ω) (f : τ → σ → ε → τ) : Machine (σ × τ) ε ω where
  step := fun (s, t) e => (M.step s e).map fun (s', os) => ((s', f t s e), os)

/-- Seen through `f`, a step of `M` is a step of `N` on the event that `g` hands on to the part, or
    leaves the part alone when `g` hands on none. -/
def Projects (M : Machine σ ε ω) (N : Machine σ' ε' ω') (f : σ → σ') (g : σ → ε → Option ε') :
    Prop :=
  ∀ s e s' os, M.step s e = some (s', os) →
    g s e = none ∧ f s' = f s ∨ ∃ e' os', g s e = some e' ∧ N.step (f s) e' = some (f s', os')

variable {M : Machine σ ε ω} {P Q : σ → ε → σ → List ω → Prop} {C : σ → ε → Prop} {I : σ → Prop}

/-- What a step of a handler that emits nothing came from. -/
theorem of_silent {f : Option σ} {s' : σ} {os : List ω} (h : f.map (·, []) = some (s', os)) :
    f = some s' ∧ os = [] := by
  obtain ⟨s, hs, heq⟩ := Option.map_eq_some_iff.mp h
  cases heq
  exact ⟨hs, rfl⟩

/-! ### Runs -/

/-- An invariant holds in every state that a run reaches. -/
theorem inv_of_run (hstep : ∀ s e s' os, I s → M.step s e = some (s', os) → I s') {es : List ε}
    {s t : σ} {os : List ω} (hI : I s) (h : M.run s es = some (t, os)) : I t := by
  induction es generalizing s os with
  | nil =>
    cases h
    exact hI
  | cons e es ih =>
    obtain ⟨⟨s₁, os₁⟩, hs, hrest⟩ := Option.bind_eq_some_iff.mp h
    obtain ⟨⟨t₁, os₂⟩, hrun, heq⟩ := Option.map_eq_some_iff.mp hrest
    cases heq
    exact ih (hstep s e s₁ os₁ hI hs) hrun

/-- The same for an invariant that also looks at everything emitted so far. -/
theorem inv_of_emitted {J : σ → List ω → Prop}
    (hstep : ∀ s e s' acc os, J s acc → M.step s e = some (s', os) → J s' (acc ++ os)) :
    ∀ (es : List ε) (s t : σ) (acc os : List ω), J s acc → M.run s es = some (t, os) →
      J t (acc ++ os)
  | [], s, t, acc, os, hJ, h => by
      cases h
      rwa [List.append_nil]
  | e :: es, s, t, acc, os, hJ, h => by
      obtain ⟨⟨s₁, os₁⟩, hs, hrest⟩ := Option.bind_eq_some_iff.mp h
      obtain ⟨⟨t₁, os₂⟩, hrun, heq⟩ := Option.map_eq_some_iff.mp hrest
      cases heq
      rw [← List.append_assoc]
      exact inv_of_emitted hstep es s₁ t (acc ++ os₁) os₂ (hstep s e s₁ acc os₁ hJ hs) hrun

/-- Two runs one after the other. -/
theorem run_append : ∀ (es fs : List ε) {s t u : σ} {os ps : List ω}, M.run s es = some (t, os) →
    M.run t fs = some (u, ps) → M.run s (es ++ fs) = some (u, os ++ ps)
  | [], fs, s, t, u, os, ps, h, h' => by
      cases h
      exact h'
  | e :: es, fs, s, t, u, os, ps, h, h' => by
      obtain ⟨⟨s₁, os₁⟩, hs, hrest⟩ := Option.bind_eq_some_iff.mp h
      obtain ⟨⟨t₁, os₂⟩, hrun, heq⟩ := Option.map_eq_some_iff.mp hrest
      cases heq
      rw [List.cons_append, run, hs, Option.bind_some]
      simp [run_append es fs hrun h']

/-- A relation to an abstract state and to everything emitted, which every step keeps while the
    events move the abstract state on, holds at the end of every run. -/
theorem simulates {α : Type*} {next : α → ε → α} {R : σ → α → List ω → Prop}
    (hstep : ∀ s a acc e, R s a acc →
      ∃ s' os, M.step s e = some (s', os) ∧ R s' (next a e) (acc ++ os)) :
    ∀ (es : List ε) (s : σ) (a : α) (acc : List ω), R s a acc →
      ∃ t os, M.run s es = some (t, os) ∧ R t (es.foldl next a) (acc ++ os)
  | [], s, a, acc, h => ⟨s, [], rfl, by rwa [List.append_nil]⟩
  | e :: es, s, a, acc, h => by
      obtain ⟨s₁, os₁, hs, h₁⟩ := hstep s a acc e h
      obtain ⟨t, os, hrun, ht⟩ := simulates hstep es s₁ (next a e) (acc ++ os₁) h₁
      refine ⟨t, os₁ ++ os, ?_, ?_⟩
      · rw [run, hs, Option.bind_some]
        simp [hrun]
      · rwa [← List.append_assoc]

/-- A condition that decides for each step whether it raises decides for each run whether one of its
    steps does. -/
theorem run_isSome_iff (hstep : ∀ s e, (M.step s e).isSome ↔ C s e) :
    ∀ (es : List ε) (s : σ), (M.run s es).isSome ↔ M.Attempts C s es
  | [], _ => by simp [run, Attempts]
  | e :: es, s => by
      rw [run, Attempts, ← hstep]
      cases h : M.step s e with
      | none => simp
      | some p =>
        obtain ⟨s', os⟩ := p
        rw [Option.bind_some, Option.isSome_map, run_isSome_iff hstep es s']
        constructor
        · intro hrest
          refine ⟨rfl, fun s₁ os₁ hs => ?_⟩
          cases hs
          exact hrest
        · exact fun hrest => hrest.2 s' os rfl

/-! ### Safety and exact conditions -/

theorem Always.mono (himp : ∀ s e s' os, P s e s' os → Q s e s' os) :
    ∀ (es : List ε) (s : σ), M.Always P s es → M.Always Q s es
  | [], _, _ => trivial
  | _ :: es, s, h => fun s' os hstep =>
      ⟨himp s _ s' os (h s' os hstep).1, Always.mono himp es s' (h s' os hstep).2⟩

/-- A property that each step has under an invariant and a condition holds on every run that meets
    the condition. -/
theorem always_of_meets
    (hstep : ∀ s e s' os, I s → C s e → M.step s e = some (s', os) → I s' ∧ P s e s' os) :
    ∀ (es : List ε) (s : σ), I s → M.Meets C s es → M.Always P s es
  | [], _, _, _ => trivial
  | e :: es, s, hI, hC => fun s' os h =>
      have hnext := hstep s e s' os hI (hC s' os h).1 h
      ⟨hnext.2, always_of_meets hstep es s' hnext.1 (hC s' os h).2⟩

/-- A property that each step has under an invariant holds on every run. -/
theorem always_of_inv
    (hstep : ∀ s e s' os, I s → M.step s e = some (s', os) → I s' ∧ P s e s' os) :
    ∀ (es : List ε) (s : σ), I s → M.Always P s es
  | [], _, _ => trivial
  | e :: es, s, hI => fun s' os h =>
      ⟨(hstep s e s' os hI h).2, always_of_inv hstep es s' (hstep s e s' os hI h).1⟩

/-- An invariant under which every step completes, keeps it and has a property: no run raises, and
    the property holds on every run. -/
theorem safe_of_inv
    (hstep : ∀ s e, I s → ∃ s' os, M.step s e = some (s', os) ∧ I s' ∧ P s e s' os) :
    ∀ (es : List ε) (s : σ), I s → (M.run s es).isSome ∧ M.Always P s es
  | [], _, _ => ⟨rfl, trivial⟩
  | e :: es, s, hI => by
      obtain ⟨s', os, hs, hI', hP⟩ := hstep s e hI
      obtain ⟨hrun, halways⟩ := safe_of_inv hstep es s' hI'
      refine ⟨?_, fun s₁ os₁ hs₁ => ?_⟩
      · rw [run, hs, Option.bind_some, Option.isSome_map]
        exact hrun
      · rw [hs] at hs₁
        cases hs₁
        exact ⟨hP, halways⟩

/-- An invariant that the condition keeps, and under which the condition decides the property of
    a step, makes the condition exact: a run has the property throughout iff it meets the condition
    throughout. The first step outside the condition is the first step without the property. -/
theorem always_iff_meets
    (hkeep : ∀ s e s' os, I s → C s e → M.step s e = some (s', os) → I s')
    (hexact : ∀ s e s' os, I s → M.step s e = some (s', os) → (P s e s' os ↔ C s e)) :
    ∀ (es : List ε) (s : σ), I s → (M.Always P s es ↔ M.Meets C s es)
  | [], _, _ => Iff.rfl
  | e :: es, s, hI => by
      constructor
      · intro h s' os hs
        have hC : C s e := (hexact s e s' os hI hs).mp (h s' os hs).1
        have hI' := hkeep s e s' os hI hC hs
        exact ⟨hC, (always_iff_meets hkeep hexact es s' hI').mp (h s' os hs).2⟩
      · intro h s' os hs
        have hC : C s e := (h s' os hs).1
        have hI' := hkeep s e s' os hI hC hs
        exact ⟨(hexact s e s' os hI hs).mpr hC,
          (always_iff_meets hkeep hexact es s' hI').mpr (h s' os hs).2⟩

/-- The same where raising breaks the property too: a condition that decides under an invariant
    whether a step completes with the property is exact on every run. -/
theorem safe_iff_attempts (hkeep : ∀ s e s' os, I s → P s e s' os → I s')
    (hexact : ∀ s e, I s →
      (C s e ↔ (M.step s e).isSome ∧ ∀ s' os, M.step s e = some (s', os) → P s e s' os)) :
    ∀ (es : List ε) (s : σ), I s →
      ((M.run s es).isSome ∧ M.Always P s es ↔ M.Attempts C s es)
  | [], _, _ => by simp [run, Always, Attempts]
  | e :: es, s, hI => by
      constructor
      · rintro ⟨hrun, halways⟩
        have hsome : (M.step s e).isSome := by
          cases h : M.step s e with
          | none => simp [run, h] at hrun
          | some p => rfl
        refine ⟨(hexact s e hI).mpr ⟨hsome, fun s' os hs => (halways s' os hs).1⟩, ?_⟩
        intro s' os hs
        have hI' := hkeep s e s' os hI (halways s' os hs).1
        rw [run, hs, Option.bind_some, Option.isSome_map] at hrun
        exact (safe_iff_attempts hkeep hexact es s' hI').mp ⟨hrun, (halways s' os hs).2⟩
      · rintro ⟨hC, hrest⟩
        obtain ⟨hsome, hP⟩ := (hexact s e hI).mp hC
        obtain ⟨⟨s', os⟩, hs⟩ := Option.isSome_iff_exists.mp hsome
        have hI' := hkeep s e s' os hI (hP s' os hs)
        have hsafe := (safe_iff_attempts hkeep hexact es s' hI').mpr (hrest s' os hs)
        refine ⟨by simp [run, hs, hsafe.1], fun s₁ os₁ hs₁ => ?_⟩
        rw [hs] at hs₁
        cases hs₁
        exact ⟨hP s' os hs, hsafe.2⟩

instance decidableAlways [∀ s e s' os, Decidable (P s e s' os)] :
    ∀ (s : σ) (es : List ε), Decidable (M.Always P s es)
  | _, [] => .isTrue trivial
  | s, e :: es =>
    match h : M.step s e with
    | none => .isTrue fun _ _ hs => by rw [h] at hs; cases hs
    | some (s', os) =>
      have := decidableAlways s' es
      decidable_of_iff (P s e s' os ∧ M.Always P s' es)
        ⟨fun hp s₁ os₁ hs => by rw [h] at hs; cases hs; exact hp, fun hp => hp s' os h⟩

instance decidableMeets [∀ s e, Decidable (C s e)] (s : σ) (es : List ε) :
    Decidable (M.Meets C s es) :=
  decidableAlways s es

/-! ### Observers -/

variable {f : τ → σ → ε → τ}

theorem observe_step {s s' : σ} {t t' : τ} {e : ε} {os : List ω} :
    (M.observe f).step (s, t) e = some ((s', t'), os) ↔
      M.step s e = some (s', os) ∧ t' = f t s e := by
  simp only [observe, Option.map_eq_some_iff, Prod.exists, Prod.mk.injEq]
  constructor
  · rintro ⟨s₁, os₁, hs, ⟨rfl, rfl⟩, rfl⟩
    exact ⟨hs, rfl⟩
  · rintro ⟨hs, rfl⟩
    exact ⟨s', os, hs, ⟨rfl, rfl⟩, rfl⟩

/-- A step property that does not look at the observer holds beside it iff it holds without. -/
theorem always_observe : ∀ (es : List ε) (s : σ) (t : τ),
    (M.observe f).Always (fun s e s' os => P s.1 e s'.1 os) (s, t) es ↔ M.Always P s es
  | [], _, _ => Iff.rfl
  | e :: es, s, t => by
      constructor
      · intro h s' os hs
        have hnext := h (s', f t s e) os (observe_step.mpr ⟨hs, rfl⟩)
        exact ⟨hnext.1, (always_observe es s' (f t s e)).mp hnext.2⟩
      · rintro h ⟨s', t'⟩ os hs
        obtain ⟨hstep, rfl⟩ := observe_step.mp hs
        exact ⟨(h s' os hstep).1, (always_observe es s' (f t s e)).mpr (h s' os hstep).2⟩

/-! ### Parts -/

variable {N : Machine σ' ε' ω'} {part : σ → σ'} {pick : σ → ε → Option ε'} {J L : σ' → Prop}
  {D : σ' → ε' → Prop}

/-- A condition that is exact for a part of the state, on the part's own events, is exact on every
    run of the whole. -/
theorem Projects.always_iff_meets (h : Projects M N part pick) (hlaw : ∀ t, J t → L t)
    (hkeep : ∀ t e t' os, J t → D t e → N.step t e = some (t', os) → J t')
    (hexact : ∀ t e t' os, J t → N.step t e = some (t', os) → (L t' ↔ D t e))
    (es : List ε) (s : σ) (hJ : J (part s)) :
    M.Always (fun _ _ s' _ => L (part s')) s es ↔
      M.Meets (fun s e => ∀ e' ∈ pick s e, D (part s) e') s es := by
  refine Machine.always_iff_meets (I := fun s => J (part s)) ?_ ?_ es s hJ
  · intro s e s' os hJ hD hs
    rcases h s e s' os hs with ⟨-, hsame⟩ | ⟨e', os', hpick, hN⟩
    · rw [hsame]
      exact hJ
    · exact hkeep _ _ _ _ hJ (hD e' hpick) hN
  · intro s e s' os hJ hs
    rcases h s e s' os hs with ⟨hnone, hsame⟩ | ⟨e', os', hpick, hN⟩
    · rw [hnone, hsame]
      exact iff_of_true (hlaw _ hJ) (fun e' he' => nomatch he')
    · rw [hpick, hexact _ _ _ _ hJ hN]
      simp

end Machine
