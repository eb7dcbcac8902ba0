import Mathlib.Algebra.Order.Field.Rat
import Mathlib.Tactic.Common
import Mathlib.Tactic.Linarith

/-! UIButton (Touch): every touch goes through `mySendAction`, which forwards it, ignores the button
    and schedules `resetState` after the button's interval. The guard is the button's own: it knows
    the time of the last forwarded touch and nothing about what the action started.

        ready ──touch, forwarded──▶ ignoring      (resetState due at touch + timeInterval)
          ▲                            │ touch ↺  dropped
          └────────resetState──────────┘ -/

namespace LeYiDai

/-- The class name the button answers; only the first two are held back. -/
inductive ButtonClass where | uiButton | fsCustomButton | other
  deriving DecidableEq

/-- What the category keeps for one button. Both properties read as zero before they are set;
    `resets` holds the times at which the scheduled `resetState` calls fall due. -/
structure TouchGuard where
  buttonClass : ButtonClass
  timeInterval : ℚ
  isIgnoreEvent : Bool
  resets : List ℚ
  deriving DecidableEq

namespace TouchGuard

/-- A button that has not been touched yet. -/
def new (buttonClass : ButtonClass) (timeInterval : ℚ) : TouchGuard :=
  { buttonClass, timeInterval, isIgnoreEvent := false, resets := [] }

/-- The interval in force: an interval of zero counts as one second. -/
def interval (b : TouchGuard) : ℚ := if b.timeInterval = 0 then 1 else b.timeInterval

/-- `mySendAction:to:forEvent:` at time `now`: the guard after it, and whether the action is
    sent. -/
def mySendAction (now : ℚ) (b : TouchGuard) : TouchGuard × Bool :=
  if b.buttonClass = .other then ({ b with isIgnoreEvent := true }, true)
  else
    let b := { b with timeInterval := b.interval }
    if b.isIgnoreEvent then (b, false)
    else
      let b := if 0 < b.timeInterval then { b with resets := b.resets ++ [now + b.timeInterval] }
        else b
      ({ b with isIgnoreEvent := true }, true)

/-- The run loop performs the `i`-th scheduled `resetState`, once it is due. -/
def resetState (now : ℚ) (i : ℕ) (b : TouchGuard) : TouchGuard :=
  match b.resets[i]? with
  | some due =>
    if due ≤ now then { b with isIgnoreEvent := false, resets := b.resets.eraseIdx i } else b
  | none => b

/-- The pace a guarded button keeps with interval `T`: while it ignores touches one reset is
    pending, `T` after the last forwarded touch; once it is ready `T` has passed since that
    touch. -/
structure Paced (T now : ℚ) (last : Option ℚ) (b : TouchGuard) : Prop where
  guarded : b.buttonClass ≠ .other
  interval_eq : b.interval = T
  pos : 0 < T
  ignoring : b.isIgnoreEvent = true → ∃ t, last = some t ∧ b.resets = [t + T]
  ready : b.isIgnoreEvent = false → b.resets = [] ∧ ∀ t, last = some t → t + T ≤ now

theorem paced_new {c : ButtonClass} {T : ℚ} (hc : c ≠ .other) (hT : 0 < T) (now : ℚ) :
    Paced T now none (new c T) where
  guarded := hc
  interval_eq := if_neg hT.ne'
  pos := hT
  ignoring h := by simp [new] at h
  ready _ := ⟨rfl, by simp⟩

/-- A button's first pace is its interval in force, which is never zero. -/
theorem paced_new_interval {c : ButtonClass} {T : ℚ} (hc : c ≠ .other) (h0 : 0 ≤ T) (now : ℚ) :
    Paced (new c T).interval now none (new c T) where
  guarded := hc
  interval_eq := rfl
  pos := by
    unfold interval new
    split_ifs with hz
    · exact one_pos
    · exact lt_of_le_of_ne h0 (Ne.symm hz)
  ignoring h := by simp [new] at h
  ready _ := ⟨rfl, by simp⟩

theorem interval_interval (b : TouchGuard) :
    ({ b with timeInterval := b.interval } : TouchGuard).interval = b.interval := by
  unfold interval
  by_cases h : b.timeInterval = 0 <;> simp [h]

variable {T now : ℚ} {last : Option ℚ} {b : TouchGuard}

/-- A touch is forwarded exactly when the button is not ignoring. -/
theorem Paced.forwarded_iff (h : Paced T now last b) :
    (b.mySendAction now).2 = true ↔ b.isIgnoreEvent = false := by
  cases hb : b.isIgnoreEvent <;> simp [mySendAction, h.guarded, hb]

/-- A touch that is dropped leaves the pace as it was. -/
theorem Paced.dropped (h : Paced T now last b) (hd : (b.mySendAction now).2 = false) :
    Paced T now last (b.mySendAction now).1 := by
  have hi : b.isIgnoreEvent = true := by
    cases hb : b.isIgnoreEvent
    · rw [h.forwarded_iff.mpr hb] at hd
      cases hd
    · rfl
  have hguard : (b.mySendAction now).1 = { b with timeInterval := b.interval } := by
    simp [mySendAction, h.guarded, hi]
  rw [hguard]
  exact ⟨h.guarded, (interval_interval b).trans h.interval_eq, h.pos, h.ignoring, h.ready⟩

/-- A touch that is forwarded comes at least the interval after the one before, and starts a new
    interval. -/
theorem Paced.forward (h : Paced T now last b) (hf : (b.mySendAction now).2 = true) :
    (∀ t, last = some t → t + T ≤ now) ∧ Paced T now (some now) (b.mySendAction now).1 := by
  have hi := h.forwarded_iff.mp hf
  obtain ⟨hnone, hlast⟩ := h.ready hi
  have hguard : (b.mySendAction now).1 =
      { b with timeInterval := T, isIgnoreEvent := true, resets := [now + T] } := by
    simp [mySendAction, h.guarded, hi, hnone, h.interval_eq, h.pos]
  refine ⟨hlast, ?_⟩
  rw [hguard]
  exact ⟨h.guarded, if_neg h.pos.ne', h.pos, fun _ => ⟨now, rfl, rfl⟩, by simp⟩

theorem Paced.tick (h : Paced T now last b) {now' : ℚ} (hle : now ≤ now') :
    Paced T now' last b where
  guarded := h.guarded
  interval_eq := h.interval_eq
  pos := h.pos
  ignoring := h.ignoring
  ready hb := ⟨(h.ready hb).1, fun t ht => ((h.ready hb).2 t ht).trans hle⟩

theorem Paced.resetState (h : Paced T now last b) (i : ℕ) :
    Paced T now last (b.resetState now i) := by
  unfold TouchGuard.resetState
  split
  · rename_i due hdue
    split_ifs with hle
    · -- a pending reset means the button is ignoring, so it is the only one
      have hi : b.isIgnoreEvent = true := by
        cases hb : b.isIgnoreEvent
        · simp [(h.ready hb).1] at hdue
        · rfl
      obtain ⟨t, hlast, hresets⟩ := h.ignoring hi
      obtain ⟨rfl, rfl⟩ : i = 0 ∧ t + T = due := by
        rw [hresets] at hdue
        cases i with
        | zero => exact ⟨rfl, by simpa using hdue⟩
        | succ i => simp at hdue
      refine ⟨h.guarded, h.interval_eq, h.pos, by simp, fun _ => ⟨by simp [hresets], ?_⟩⟩
      intro t' ht'
      rw [hlast] at ht'
      cases ht'
      exact hle
    · exact h
  · exact h

end TouchGuard

end LeYiDai
