import LeYiDai.Category.CFSwzzling
import LeYiDai.Category.UIButtonTouch
import LeYiDai.Lib.Machine

/-! The guard in place and over time. `load` exchanges `sendAction:to:forEvent:` of UIButton with
    `mySendAction:to:forEvent:`, so that a touch runs the guard and the guard's message to itself
    runs the former `sendAction:`. Touches, waiting and due resets in any order then keep the pace:
    what is forwarded is an interval apart, and a button that ignores touches has one reset
    pending. -/

namespace LeYiDai

open MethodTable

/-- The classes under a touch: a button of any class is a UIButton, which is a UIControl. -/
inductive ControlClass where
  | uiControl
  | button (c : ButtonClass)
  deriving DecidableEq

def controlHierarchy : Hierarchy ControlClass where
  superclass
    | .uiControl => none
    | .button .uiButton => some .uiControl
    | .button _ => some (.button .uiButton)
  depth
    | .uiControl => 0
    | .button .uiButton => 1
    | .button _ => 2
  superclass_depth c d h := by
    rcases c with _ | c
    · cases h
    · cases c <;> cases h <;> decide

inductive ControlSelector where | sendAction | mySendAction
  deriving DecidableEq

/-- UIKit's sending of the action, and the category's method. -/
inductive ControlImp where | uiKit | mySendAction
  deriving DecidableEq

/-- The table before `load`: UIControl sends actions, UIButton may do so in its own way, and the
    category adds its method to UIButton. -/
def controlMethods (overrides : Bool) : MethodTable ControlClass ControlSelector ControlImp
  | .uiControl, .sendAction => some .uiKit
  | .button .uiButton, .sendAction => if overrides then some .uiKit else none
  | .button .uiButton, .mySendAction => some .mySendAction
  | _, _ => none

/-- `+load`: the text of `swizzling_exchangeMethod` with UIButton and the two selectors. -/
def touchLoad (overrides : Bool) : Option (MethodTable ControlClass ControlSelector ControlImp) :=
  swizzling_exchangeMethod controlHierarchy (controlMethods overrides) (.button .uiButton)
    .sendAction .mySendAction

/-- The methods' bodies for a touch at `now`: the button after it, and whether UIKit sent the
    action. -/
def performTouch (now : ℚ) : ControlImp → TouchGuard →
    (ControlSelector → TouchGuard → Option (TouchGuard × Bool)) → Option (TouchGuard × Bool)
  | .uiKit, b, _ => some (b, true)
  | .mySendAction, b, send =>
    match b.mySendAction now with
    | (b', true) => send .mySendAction b'
    | (b', false) => some (b', false)

variable {T : MethodTable ControlClass ControlSelector ControlImp} {overrides : Bool}

theorem controlMethods_uiButton (overrides : Bool) :
    (controlMethods overrides).lookup controlHierarchy (.button .uiButton) .sendAction =
        some .uiKit ∧
      (controlMethods overrides).lookup controlHierarchy (.button .uiButton) .mySendAction =
        some .mySendAction := by
  cases overrides <;> decide

/-- After `load` a button of every class runs the guard when it is touched and UIKit's sending when
    it sends itself `mySendAction:`. -/
theorem touchLoad_lookup (overrides : Bool) :
    ∃ T, touchLoad overrides = some T ∧ ∀ c : ButtonClass,
      T.lookup controlHierarchy (.button c) .sendAction = some .mySendAction ∧
      T.lookup controlHierarchy (.button c) .mySendAction = some .uiKit := by
  obtain ⟨hsend, hmine⟩ := controlMethods_uiButton overrides
  obtain ⟨T, hT, hex⟩ := swizzling_exchangeMethod_spec
    (H := controlHierarchy) (T := controlMethods overrides) (a := .sendAction) (b := .mySendAction)
    (by rw [hsend]; rfl) (by rw [hmine]; rfl)
  refine ⟨T, hT, ?_⟩
  have hbase : T.lookup controlHierarchy (.button .uiButton) .sendAction = some .mySendAction ∧
      T.lookup controlHierarchy (.button .uiButton) .mySendAction = some .uiKit := by
    rw [hex.lookup_self, hex.lookup_self, Equiv.swap_apply_left, Equiv.swap_apply_right]
    exact ⟨hmine, hsend⟩
  intro c
  by_cases hc : c = .uiButton
  · rw [hc]
    exact hbase
  · -- a subclass has neither method of its own, before or after
    have hsuper : controlHierarchy.superclass (.button c) = some (.button .uiButton) := by
      cases c <;> first | rfl | exact absurd rfl hc
    have hnone : ∀ s, T (.button c) s = none := fun s => by
      rw [hex.entry_other _ _ (by cases c <;> first | decide | exact absurd rfl hc)]
      cases c <;> cases s <;> first | rfl | exact absurd rfl hc
    rw [lookup_inherit hsuper (hnone _), lookup_inherit hsuper (hnone _)]
    exact hbase

/-- A touch runs the guard once and, when it lets the touch through, UIKit's sending once. -/
theorem send_touch {c : ButtonClass}
    (hsend : T.lookup controlHierarchy (.button c) .sendAction = some .mySendAction)
    (hmine : T.lookup controlHierarchy (.button c) .mySendAction = some .uiKit) (now : ℚ)
    (n : ℕ) (b : TouchGuard) :
    send (T.lookup controlHierarchy (.button c)) (performTouch now) (n + 2) .sendAction b =
      some (b.mySendAction now) := by
  rcases hb : b.mySendAction now with ⟨b', sent⟩
  cases sent with
  | true => simp only [send, hsend, hmine, performTouch, hb, Option.bind_some]
  | false => simp only [send, hsend, performTouch, hb, Option.bind_some]

/-! ### Runs of one button -/

inductive TouchEvent where
  | touch
  | wait (dt : ℚ)
  | resetState (i : ℕ)
  deriving DecidableEq

/-- One button under the run loop, with the time beside it. A touch is sent as `sendAction:` with
    a nesting of at most `n`, and emits the time when the action is forwarded; the run loop
    performs a scheduled reset once it is due, and no reset that is not scheduled. -/
def touchMachine (T : MethodTable ControlClass ControlSelector ControlImp) (n : ℕ) :
    Machine (ℚ × TouchGuard) TouchEvent ℚ where
  step := fun (now, b) e =>
    match e with
    | .touch =>
      (send (T.lookup controlHierarchy (.button b.buttonClass)) (performTouch now) n .sendAction
        b).map fun (b', sent) => ((now, b'), if sent then [now] else [])
    | .wait dt => if 0 ≤ dt then some ((now + dt, b), []) else none
    | .resetState i =>
      if ∃ due ∈ b.resets[i]?, due ≤ now then some ((now, b.resetState now i), []) else none

variable {n : ℕ} {t now now' : ℚ} {b b' : TouchGuard} {e : TouchEvent} {sent os : List ℚ}

/-- The two messages of a touch, as `load` leaves them. -/
def Guards (T : MethodTable ControlClass ControlSelector ControlImp) : Prop :=
  ∀ c : ButtonClass, T.lookup controlHierarchy (.button c) .sendAction = some .mySendAction ∧
    T.lookup controlHierarchy (.button c) .mySendAction = some .uiKit

theorem touch_step (hT : Guards T) :
    (touchMachine T (n + 2)).step (now, b) .touch =
      some ((now, (b.mySendAction now).1), if (b.mySendAction now).2 then [now] else []) := by
  simp only [touchMachine, send_touch (hT _).1 (hT _).2, Option.map_some]

/-- What was sent is spaced, and the button keeps the pace of the last of it. -/
structure Spaced (t now : ℚ) (b : TouchGuard) (sent : List ℚ) : Prop where
  spaced : sent.Pairwise fun u v => u + t ≤ v
  paced : b.Paced t now sent.getLast?

theorem Spaced.le_last (h : Spaced t now b sent) {u v : ℚ} (hu : u ∈ sent)
    (hv : sent.getLast? = some v) : u ≤ v := by
  obtain ⟨init, rfl⟩ := List.getLast?_eq_some_iff.mp hv
  rcases List.mem_append.mp hu with hu | hu
  · have hstep := (List.pairwise_append.mp h.spaced).2.2 u hu v (by simp)
    have hpos := h.paced.pos
    linarith
  · exact le_of_eq (List.mem_singleton.mp hu)

theorem Spaced.step (hT : Guards T) (h : Spaced t now b sent)
    (hs : (touchMachine T (n + 2)).step (now, b) e = some ((now', b'), os)) :
    Spaced t now' b' (sent ++ os) := by
  cases e with
  | touch =>
    rw [touch_step hT] at hs
    cases hsent : (b.mySendAction now).2 with
    | true =>
      obtain ⟨hlast, hnext⟩ := h.paced.forward hsent
      rw [hsent] at hs
      cases hs
      refine ⟨List.pairwise_append.mpr ⟨h.spaced, List.pairwise_singleton _ _, ?_⟩, by simpa⟩
      intro u hu v hv
      obtain rfl := List.mem_singleton.mp hv
      obtain ⟨l, hl⟩ := Option.isSome_iff_exists.mp
        (List.getLast?_isSome.mpr (List.ne_nil_of_mem hu))
      have hle := h.le_last hu hl
      have hpace := hlast l hl
      linarith
    | false =>
      rw [hsent] at hs
      cases hs
      rw [if_neg Bool.false_ne_true, List.append_nil]
      exact ⟨h.spaced, h.paced.dropped hsent⟩
  | wait dt =>
    simp only [touchMachine] at hs
    split_ifs at hs with hdt
    cases hs
    rw [List.append_nil]
    exact ⟨h.spaced, h.paced.tick (by linarith)⟩
  | resetState i =>
    simp only [touchMachine] at hs
    split_ifs at hs
    cases hs
    rw [List.append_nil]
    exact ⟨h.spaced, h.paced.resetState i⟩

theorem Spaced.run (hT : Guards T) (h : Spaced t now b []) {es : List TouchEvent}
    (hrun : (touchMachine T (n + 2)).run (now, b) es = some ((now', b'), os)) :
    Spaced t now' b' os := by
  have hstep : ∀ (s : ℚ × TouchGuard) e s' acc os, Spaced t s.1 s.2 acc →
      (touchMachine T (n + 2)).step s e = some (s', os) → Spaced t s'.1 s'.2 (acc ++ os) :=
    fun _ _ _ _ _ hacc hs => hacc.step hT hs
  exact Machine.inv_of_emitted (J := fun s acc => Spaced t s.1 s.2 acc) hstep es (now, b)
    (now', b') [] os h hrun

/-- A button that keeps a pace ignores touches exactly while one reset is pending. -/
theorem TouchGuard.Paced.ignoring_iff {last : Option ℚ} (h : b.Paced t now last) :
    b.isIgnoreEvent = true ↔ b.resets.length = 1 := by
  cases hb : b.isIgnoreEvent with
  | true =>
    obtain ⟨u, -, hresets⟩ := h.ignoring hb
    simp [hresets]
  | false => simp [(h.ready hb).1]

/-- Waiting until the pending reset is due and performing it makes the button ready. -/
theorem TouchGuard.Paced.unblocks {last : Option ℚ} (h : b.Paced t now last)
    (hb : b.isIgnoreEvent = true) :
    ∃ dt b', (touchMachine T n).run (now, b) [.wait dt, .resetState 0] =
      some ((now + dt, b'), []) ∧ b'.isIgnoreEvent = false := by
  obtain ⟨u, -, hresets⟩ := h.ignoring hb
  have hdt : (0 : ℚ) ≤ max 0 (u + t - now) := le_max_left _ _
  have hdue : u + t ≤ now + max 0 (u + t - now) := by
    have hle := le_max_right (0 : ℚ) (u + t - now)
    linarith
  refine ⟨max 0 (u + t - now), b.resetState (now + max 0 (u + t - now)) 0, ?_, ?_⟩
  · simp [Machine.run, touchMachine, hresets, hdt, hdue]
  · simp [TouchGuard.resetState, hresets, hdue]

/-- A guarded button with an interval of at least zero, touched in any way: what is forwarded is an
    interval apart (zero counts as one second), a touch with no reset pending is forwarded, and the
    button ignores touches exactly while its one reset is pending, which ends that. -/
theorem touch_guard_keeps_pace (overrides : Bool) (c : ButtonClass) (hc : c ≠ .other)
    (timeInterval : ℚ) (h0 : 0 ≤ timeInterval) :
    ∃ T, touchLoad overrides = some T ∧
      ∀ (n : ℕ) (start : ℚ) (es : List TouchEvent) (now : ℚ) (b : TouchGuard) (sent : List ℚ),
        (touchMachine T (n + 2)).run (start, .new c timeInterval) es = some ((now, b), sent) →
        (sent.Pairwise fun u v => u + (if timeInterval = 0 then 1 else timeInterval) ≤ v) ∧
        (b.resets = [] →
          ∃ b', (touchMachine T (n + 2)).step (now, b) .touch = some ((now, b'), [now])) ∧
        (b.isIgnoreEvent = true ↔ b.resets.length = 1) ∧ b.resets.length ≤ 1 ∧
        (b.isIgnoreEvent = true →
          ∃ dt b', (touchMachine T (n + 2)).run (now, b) [.wait dt, .resetState 0] =
            some ((now + dt, b'), []) ∧ b'.isIgnoreEvent = false) := by
  obtain ⟨T, hload, hguards⟩ := touchLoad_lookup overrides
  refine ⟨T, hload, fun n start es now b sent hrun => ?_⟩
  have hnew : (TouchGuard.new c timeInterval).Paced
      (if timeInterval = 0 then 1 else timeInterval) start none :=
    TouchGuard.paced_new_interval hc h0 start
  have hend := Spaced.run hguards ⟨List.Pairwise.nil, hnew⟩ hrun
  have hpaced := hend.paced
  refine ⟨hend.spaced, fun hnone => ?_, hpaced.ignoring_iff, ?_, hpaced.unblocks⟩
  · have hready : b.isIgnoreEvent = false := by
      cases hb : b.isIgnoreEvent with
      | true =>
        have hone := hpaced.ignoring_iff.mp hb
        simp [hnone] at hone
      | false => rfl
    rw [touch_step hguards, hpaced.forwarded_iff.mpr hready, if_pos rfl]
    exact ⟨_, rfl⟩
  · cases hb : b.isIgnoreEvent with
    | true => exact le_of_eq (hpaced.ignoring_iff.mp hb)
    | false => simp [(hpaced.ready hb).1]

/-- Touches at 0, 1 and 1 on a button without an interval: the second is dropped, the third comes
    after the reset. -/
theorem touch_guard_default_second :
    ∃ T, touchLoad false = some T ∧
      (touchMachine T 2).run (0, .new .fsCustomButton 0)
          [.touch, .wait 1, .touch, .resetState 0, .touch] =
        some ((1, { buttonClass := .fsCustomButton, timeInterval := 1, isIgnoreEvent := true,
                    resets := [2] }), [0, 1]) ∧
      ([0, 1] : List ℚ).Pairwise (fun u v => u + (if (0 : ℚ) = 0 then 1 else 0) ≤ v) := by
  obtain ⟨T, hload, hpace⟩ := touch_guard_keeps_pace false .fsCustomButton (by decide) 0 le_rfl
  have hguards : Guards T := by
    obtain ⟨T', hload', hguards⟩ := touchLoad_lookup false
    rw [hload] at hload'
    cases hload'
    exact hguards
  have hrun : (touchMachine T 2).run (0, .new .fsCustomButton 0)
      [.touch, .wait 1, .touch, .resetState 0, .touch] =
        some ((1, { buttonClass := .fsCustomButton, timeInterval := 1, isIgnoreEvent := true,
                    resets := [2] }), [0, 1]) := by
    simp only [Machine.run, touch_step hguards]
    simp [touchMachine, TouchGuard.mySendAction, TouchGuard.resetState, TouchGuard.new,
      TouchGuard.interval]
    norm_num
  exact ⟨T, hload, hrun, (hpace 0 0 _ _ _ _ hrun).1⟩

end LeYiDai
