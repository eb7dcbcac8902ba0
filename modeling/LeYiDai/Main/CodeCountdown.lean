import LeYiDai.Login.LoginViewController
import LeYiDai.Main.BankAuthenViewController
import LeYiDai.Main.OperatorViewController

/-! The code buttons of the three screens. Each screen runs the handlers of its code button on the
    events that reach it and touches the button nowhere else, so that what keeps one button truthful
    keeps all three. -/

namespace LeYiDai

namespace BankAuthen.BankAuthenViewController

variable {c : ComposedSequences} {isAddBank : Bool} {s s' : BankAuthenViewController}
  {os : List Sent}

/-- A handler of the code button, as a step of the button. -/
theorem runCodeBut_step {e : CodeEvent} (h : s.runCodeBut c isAddBank e = some (s', os)) :
    ∃ rs, (CodeButton.machine c (appscen isAddBank)).step s.codeBut e = some (s'.codeBut, rs) := by
  obtain ⟨⟨b, rs⟩, hb, heq⟩ := Option.map_eq_some_iff.mp h
  cases heq
  exact ⟨rs, hb⟩

theorem checkNextBut_codeBut (s : BankAuthenViewController) : s.checkNextBut.codeBut = s.codeBut :=
  rfl

theorem nextButtonClick_codeBut (h : s.nextButtonClick isAddBank = some (s', os)) :
    s'.codeBut = s.codeBut := by
  obtain ⟨d, -, heq⟩ := Option.map_eq_some_iff.mp h
  cases heq
  rfl

/-- An event that does not reach the code button leaves it alone. -/
theorem codeBut_of_not_delivered {e : Event} (he : s.delivered e = none)
    (h : (machine c isAddBank).step s e = some (s', os)) : s'.codeBut = s.codeBut := by
  cases e with
  | textChangeCLick field text marked =>
    cases h
    split_ifs with htop
    · cases field with
      | phone => simp [delivered, CodeEvent.reaches, htop] at he
      | name | bankCard | code => rfl
    · rfl
  | bankClick =>
    have htop : s.onTop = false := by
      simpa [delivered, CodeEvent.reaches, CodeEvent.byUser] using he
    simp only [machine, step, htop] at h
    cases h
    rfl
  | codeReply id body =>
    have hdead : s.alive = false := by simpa [delivered] using he
    simp only [machine, step, hdead] at h
    cases h
    rfl
  | tick id => cases he
  | nextButtonClick =>
    simp only [machine, step] at h
    split_ifs at h
    · exact nextButtonClick_codeBut h
    · cases h
      rfl
  | reply id body =>
    simp only [machine, step] at h
    split at h
    · cases h
      rfl
    · cases h
      obtain ⟨pushed, popped, hframe⟩ := completion_frame _ body (s.answered id)
      rw [hframe]
      rfl
  | pop =>
    cases h
    obtain ⟨pushed, popped, hframe⟩ := pop_frame s
    rw [hframe]

theorem projects (c : ComposedSequences) (isAddBank : Bool) :
    (machine c isAddBank).Projects (CodeButton.machine c (appscen isAddBank)) codeBut
      delivered := by
  intro s e s' os h
  cases he : s.delivered e with
  | none => exact .inl ⟨rfl, codeBut_of_not_delivered he h⟩
  | some e' =>
    refine .inr ?_
    cases e with
    | textChangeCLick field text marked =>
      cases field with
      | phone =>
        simp only [delivered, CodeEvent.reaches] at he
        split_ifs at he with htop
        cases he
        refine ⟨_, [], rfl, ?_⟩
        cases h
        have htop : s.onTop = true := by simpa [CodeEvent.byUser] using htop
        simp [htop, textChangeCLick, checkNextBut_codeBut, CodeButton.machine, CodeButton.step]
      | name | bankCard | code => cases he
    | bankClick =>
      simp only [delivered, CodeEvent.reaches] at he
      split_ifs at he with htop
      cases he
      have htop : s.onTop = true := by simpa [CodeEvent.byUser] using htop
      simp only [machine, step, htop, if_true] at h
      obtain ⟨rs, hrs⟩ := runCodeBut_step h
      exact ⟨_, rs, rfl, hrs⟩
    | codeReply id body =>
      simp only [delivered] at he
      split_ifs at he with halive
      cases he
      simp only [machine, step, halive, if_true] at h
      obtain ⟨rs, hrs⟩ := runCodeBut_step h
      exact ⟨_, rs, rfl, hrs⟩
    | tick id =>
      cases he
      obtain ⟨rs, hrs⟩ := runCodeBut_step h
      exact ⟨_, rs, rfl, hrs⟩
    | nextButtonClick | reply | pop => cases he

end BankAuthen.BankAuthenViewController

open BankAuthen (BankAuthenViewController)
open Operator (OperatorViewController)

/-- A screen that holds a code button, new at the start, keeps it truthful over a run iff every
    event that reaches the button is steady. -/
theorem truthful_iff_of_projects {σ ε ω : Type} {M : Machine σ ε ω} {c : ComposedSequences}
    {appscen : NSString} {codeBut : σ → CodeButton} {delivered : σ → ε → Option CodeEvent}
    (h : M.Projects (CodeButton.machine c appscen) codeBut delivered) (fresh : Bool)
    (es : List ε) (s : σ) (hnew : codeBut s = CodeButton.new) :
    M.Always (fun _ _ s' _ => (codeBut s').Truthful fresh) s es ↔
      M.Meets (fun s e => ∀ e' ∈ delivered s e, (codeBut s).Steady c fresh e') s es := by
  refine h.always_iff_meets (J := CodeButton.Counted fresh) (fun b hb => hb.truthful) ?_ ?_ es s ?_
  · intro b e b' os hb hsteady hstep
    exact ⟨(CodeButton.truthful_step hb hstep).mpr hsteady,
      CodeButton.timeouts_step hb.timeouts hstep⟩
  · intro b e b' os hb hstep
    exact CodeButton.truthful_step hb hstep
  · rw [hnew]
    exact CodeButton.counted_new

/-- In every run of each of the three screens the code button is enabled, after every step, exactly
    when the phone has 11 units and no countdown runs, iff every event that reaches the button is
    steady. A countdown that has not ticked yet counts as running when `fresh`. -/
theorem code_button_truthful_iff (c : ComposedSequences) (fresh : Bool) :
    (∀ es : List LoginEvent,
      (LoginViewController.machine c).Always (fun _ _ s' _ => s'.codeBut.Truthful fresh)
          .viewDidLoad es ↔
        (LoginViewController.machine c).Meets
          (fun s e => ∀ e' ∈ s.delivered e, s.codeBut.Steady c fresh e') .viewDidLoad es) ∧
    (∀ (isAddBank : Bool) (userId : Json) (es : List BankAuthen.Event),
      (BankAuthenViewController.machine c isAddBank).Always
          (fun _ _ s' _ => s'.codeBut.Truthful fresh) (.viewDidLoad userId) es ↔
        (BankAuthenViewController.machine c isAddBank).Meets
          (fun s e => ∀ e' ∈ s.delivered e, s.codeBut.Steady c fresh e')
          (.viewDidLoad userId) es) ∧
    ∀ (userId : Json) (es : List Operator.Event),
      (OperatorViewController.machine c).Always (fun _ _ s' _ => s'.codeBut.Truthful fresh)
          (OperatorViewController.viewDidLoad userId).1 es ↔
        (OperatorViewController.machine c).Meets
          (fun s e => ∀ e' ∈ s.delivered e, s.codeBut.Steady c fresh e')
          (OperatorViewController.viewDidLoad userId).1 es := by
  refine ⟨fun es => ?_, fun isAddBank userId es => ?_, fun userId es => ?_⟩
  · exact truthful_iff_of_projects (LoginViewController.projects c) fresh es _ rfl
  · exact truthful_iff_of_projects (BankAuthenViewController.projects c isAddBank) fresh es _ rfl
  · exact truthful_iff_of_projects (OperatorViewController.projects c) fresh es _ rfl

instance (fresh : Bool) (b : CodeButton) : Decidable (b.Truthful fresh) :=
  inferInstanceAs (Decidable (_ ↔ _ ∧ _))

/-- A phone of eleven digits. -/
def samplePhone : NSString := ns "13800138000"

/-- While the countdown runs, entering a phone of 11 units again enables the button, on each of the
    three screens and whichever way a countdown is counted. -/
theorem enabled_while_counting :
    (¬ ∃ fresh, ∀ es : List LoginEvent, (LoginViewController.machine surrogatePairs).Always
      (fun _ _ s' _ => s'.codeBut.Truthful fresh) .viewDidLoad es) ∧
    (¬ ∃ fresh, ∀ (isAddBank : Bool) (userId : Json) (es : List BankAuthen.Event),
      (BankAuthenViewController.machine surrogatePairs isAddBank).Always
        (fun _ _ s' _ => s'.codeBut.Truthful fresh) (.viewDidLoad userId) es) ∧
    ¬ ∃ fresh, ∀ (userId : Json) (es : List Operator.Event),
      (OperatorViewController.machine surrogatePairs).Always
        (fun _ _ s' _ => s'.codeBut.Truthful fresh)
        (OperatorViewController.viewDidLoad userId).1 es := by
  refine ⟨?_, ?_, ?_⟩
  · rintro ⟨fresh, h⟩
    have hrun := h [.code (.textDidChange samplePhone false), .code .codeButtonClick,
      .code (.reply 0 (.result none)), .code (.tick 0), .code (.textDidChange samplePhone false)]
    cases fresh <;> (revert hrun; decide +kernel)
  · rintro ⟨fresh, h⟩
    have hrun := h false .null [.textChangeCLick .phone samplePhone false, .bankClick,
      .codeReply 0 (.result none), .tick 0, .textChangeCLick .phone samplePhone false]
    cases fresh <;> (revert hrun; decide +kernel)
  · rintro ⟨fresh, h⟩
    have hrun := h .null [.code (.textDidChange samplePhone false), .code .codeButtonClick,
      .code (.reply 0 (.result none)), .code (.tick 0), .code (.textDidChange samplePhone false)]
    cases fresh <;> (revert hrun; decide +kernel)

end LeYiDai
