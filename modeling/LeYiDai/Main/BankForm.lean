import LeYiDai.Main.BankAuthenViewController
import Mathlib.Logic.Function.Basic

/-! What the bank card form sends against what its fields show. A text last entered in a field is
    what the copies hold; the field may show a cut of it. The next button is right after an edit of
    the phone or the code unless a text reads as nil, and after an edit of the name or the card
    number only if the edit does not decide whether the form is filled. -/

namespace LeYiDai.BankAuthen

open BankAuthenViewController

/-- The text last entered in each field, and whether it was marked. -/
abbrev Entered := Field → NSString × Bool

def nothingEntered : Entered := fun _ => ([], false)

/-- The observer of the edits that reach a field. -/
def entered (t : Entered) (s : BankAuthenViewController) : Event → Entered
  | .textChangeCLick field text marked =>
    if s.onTop then Function.update t field (text, marked) else t
  | _ => t

/-- What a field shows of the text entered in it. -/
def shown (c : ComposedSequences) (field : Field) (p : NSString × Bool) : NSString :=
  match field with
  | .name | .bankCard => p.1
  | .phone => limitLength c 11 p.1 p.2
  | .code => limitLength c 6 p.1 p.2

/-- All four fields show a text. -/
def Filled (s : BankAuthenViewController) : Prop := ∀ field, s.text field ≠ []

/-- The request carries the texts the four fields show. -/
def Carries (s : BankAuthenViewController) (dic : BankInsert) : Prop :=
  dic.accNo = s.text .bankCard ∧ dic.idHolder = s.text .name ∧ dic.mobile = s.text .phone ∧
    dic.smsCode = s.text .code

/-- After the step the next button is enabled exactly when the form is filled, and a request that
    leaves carries what the fields show. -/
def Faithful (s : BankAuthenViewController × Entered) (_ : Event)
    (s' : BankAuthenViewController × Entered) (os : List Sent) : Prop :=
  (s'.1.nextButEnabled = true ↔ Filled s'.1) ∧ ∀ r, .bank r ∈ os → Carries s.1 r.dic

/-- What keeps the form faithful. An edit of the name or the card number fills or empties its field
    only while another field is empty; at an edit of the phone or the code that leaves the form
    filled no text reads as nil; and a touch on the enabled next button finds the phone and the code
    shown whole. -/
def Sound (c : ComposedSequences) (s : BankAuthenViewController × Entered) (e : Event) : Prop :=
  match e with
  | .textChangeCLick field text marked => s.1.onTop = true →
    match field with
    | .name | .bankCard =>
      (∀ other, other ≠ field → s.1.text other ≠ []) → (text = [] ↔ s.1.text field = [])
    | .phone | .code =>
      let t := Function.update s.2 field (text, marked)
      (∀ other, (t other).1 ≠ []) → ∀ other, stringIsNil (t other).1 = false
  | .nextButtonClick => s.1.onTop = true → s.1.nextButEnabled = true →
      KeepsWhole c 11 (s.2 .phone).1 (s.2 .phone).2 ∧ KeepsWhole c 6 (s.2 .code).1 (s.2 .code).2
  | _ => True

/-- The fields show, and the copies hold, what was entered last. -/
structure Kept (c : ComposedSequences) (s : BankAuthenViewController × Entered) : Prop where
  texts : ∀ field, s.1.text field = shown c field (s.2 field)
  strs : ∀ field, emptyIfNilStr (s.1.str field) = (s.2 field).1

variable {c : ComposedSequences} {isAddBank : Bool} {s s' : BankAuthenViewController} {t : Entered}
  {e : Event} {os : List Sent}

theorem shown_eq_nil_iff {field : Field} {p : NSString × Bool} :
    shown c field p = [] ↔ p.1 = [] := by
  cases field with
  | name | bankCard => exact Iff.rfl
  | phone | code => exact limitLength_eq_nil_iff (by decide)

theorem Kept.filled_iff (h : Kept c (s, t)) : Filled s ↔ ∀ field, (t field).1 ≠ [] := by
  refine forall_congr' fun field => not_congr ?_
  rw [h.texts field]
  exact shown_eq_nil_iff

theorem kept_viewDidLoad (userId : Json) : Kept c (viewDidLoad userId, nothingEntered) where
  texts field := by cases field <;> rfl
  strs field := by cases field <;> rfl

/-- An edit shows in its own field. -/
theorem text_textChangeCLick (field other : Field) (text : NSString) (marked : Bool) :
    (s.textChangeCLick c field text marked).text other =
      if other = field then shown c field (text, marked) else s.text other := by
  split_ifs with hsame
  · subst hsame
    cases other with
    | name | bankCard | code => rfl
    | phone =>
      change (s.codeBut.textFieldDidChange c text marked).phoneText = _
      rw [CodeButton.textFieldDidChange]
      simp only
      split_ifs <;> rfl
  · cases field <;> cases other <;> first | rfl | exact absurd rfl hsame

/-- An edit is copied as it was entered, before the field cuts it. -/
theorem str_textChangeCLick (field other : Field) (text : NSString) (marked : Bool) :
    (s.textChangeCLick c field text marked).str other =
      if other = field then some text else s.str other := by
  split_ifs with hsame
  · subst hsame
    cases other <;> rfl
  · cases field <;> cases other <;> first | rfl | exact absurd rfl hsame

theorem Kept.edit (h : Kept c (s, t)) (field : Field) (text : NSString) (marked : Bool) :
    Kept c (s.textChangeCLick c field text marked, Function.update t field (text, marked)) := by
  refine ⟨fun other => ?_, fun other => ?_⟩
  · simp only [text_textChangeCLick, Function.update_apply]
    split_ifs with hsame
    · rw [hsame]
    · exact h.texts other
  · simp only [str_textChangeCLick, Function.update_apply]
    split_ifs with hsame
    · rfl
    · exact h.strs other

/-- The next button is enabled after a check exactly when no text entered reads as nil. -/
theorem Kept.checked_iff (h : Kept c (s, t)) :
    s.checkNextBut.nextButEnabled = true ↔ ∀ field, stringIsNil (t field).1 = false := by
  simp only [checkNextBut, isNilStr_eq]
  have hname := h.strs .name
  have hcard := h.strs .bankCard
  have hphone := h.strs .phone
  have hcode := h.strs .code
  simp only [str] at hname hcard hphone hcode
  rw [hname, hcard, hphone, hcode]
  constructor
  · intro hall field
    cases field <;> simp_all
  · intro hall
    simp [hall .name, hall .bankCard, hall .phone, hall .code]

/-- An edit of the phone or the code has checked the next button. -/
theorem nextButEnabled_checkNextBut {field : Field} (hfield : field = .phone ∨ field = .code)
    (text : NSString) (marked : Bool) :
    (s.textChangeCLick c field text marked).checkNextBut.nextButEnabled =
      (s.textChangeCLick c field text marked).nextButEnabled := by
  rcases hfield with rfl | rfl <;> rfl

/-- The dictionary sent is the one of the texts entered. -/
theorem Kept.carries_iff (h : Kept c (s, t)) {dic : BankInsert} (hdic : s.dic = some dic) :
    Carries s dic ↔
      KeepsWhole c 11 (t .phone).1 (t .phone).2 ∧ KeepsWhole c 6 (t .code).1 (t .code).2 := by
  obtain ⟨smsCode, hsms, rfl⟩ := Option.map_eq_some_iff.mp hdic
  have hcode : smsCode = (t .code).1 := by
    have hstr := h.strs .code
    rwa [str, hsms] at hstr
  have hphone : emptyIfNilStr s.phoneStr = (t .phone).1 := h.strs .phone
  have hname : emptyIfNilStr s.nameStr = s.text .name := (h.strs .name).trans (h.texts .name).symm
  have hcard : emptyIfNilStr s.bankCardStr = s.text .bankCard :=
    (h.strs .bankCard).trans (h.texts .bankCard).symm
  rw [Carries]
  simp only [hname, hcard, hphone, hcode, h.texts .phone, h.texts .code, shown, true_and]
  rw [eq_comm, limitLength_eq_self_iff (by decide), eq_comm, limitLength_eq_self_iff (by decide)]

/-! ### Steps -/

/-- The fields, the copies and the next button are as they were. -/
structure SameForm (s s' : BankAuthenViewController) : Prop where
  text : s'.text = s.text
  str : s'.str = s.str
  enabled : s'.nextButEnabled = s.nextButEnabled

theorem sameForm_popped (s : BankAuthenViewController) (pushed : List Evaluation.Screen)
    (popped : Bool) (inFlight : List Request) : SameForm s { s with pushed, popped, inFlight } :=
  ⟨funext fun field => by cases field <;> rfl, funext fun field => by cases field <;> rfl, rfl⟩

/-- A reply, a tick or a touch of the code button leaves the form alone and sends no card. -/
theorem sameForm_runCodeBut {e' : CodeEvent} (he : ∀ text marked, e' ≠ .textDidChange text marked)
    (h : s.runCodeBut c isAddBank e' = some (s', os)) :
    SameForm s s' ∧ ∀ r, .bank r ∉ os := by
  obtain ⟨⟨b, rs⟩, hb, heq⟩ := Option.map_eq_some_iff.mp h
  cases heq
  have hphone := CodeButton.phoneText_step he hb
  refine ⟨⟨funext fun field => ?_, funext fun field => ?_, rfl⟩, by simp⟩
  · cases field with
    | phone => exact hphone
    | name | bankCard | code => rfl
  · cases field <;> rfl

/-- Every event but an edit and the next button leaves the form alone and sends no card. -/
theorem sameForm_step (hedit : ∀ field text marked, e ≠ .textChangeCLick field text marked)
    (hnext : e ≠ .nextButtonClick) (h : (machine c isAddBank).step s e = some (s', os)) :
    SameForm s s' ∧ ∀ r, .bank r ∉ os := by
  cases e with
  | textChangeCLick field text marked => exact absurd rfl (hedit field text marked)
  | nextButtonClick => exact absurd rfl hnext
  | bankClick | codeReply id body =>
    simp only [machine, step] at h
    split_ifs at h
    · exact sameForm_runCodeBut (by simp) h
    · cases h
      exact ⟨⟨rfl, rfl, rfl⟩, by simp⟩
  | tick id => exact sameForm_runCodeBut (by simp) h
  | reply id body =>
    simp only [machine, step] at h
    split at h
    · cases h
      exact ⟨⟨rfl, rfl, rfl⟩, by simp⟩
    · cases h
      obtain ⟨pushed, popped, hframe⟩ := completion_frame _ body (s.answered id)
      rw [hframe]
      exact ⟨sameForm_popped s pushed popped _, by simp⟩
  | pop =>
    cases h
    obtain ⟨pushed, popped, hframe⟩ := pop_frame s
    rw [hframe]
    exact ⟨sameForm_popped s pushed popped _, by simp⟩

theorem SameForm.kept (h : SameForm s s') (hkept : Kept c (s, t)) : Kept c (s', t) where
  texts field := by
    rw [h.text]
    exact hkept.texts field
  strs field := by
    rw [h.str]
    exact hkept.strs field

theorem SameForm.filled_iff (h : SameForm s s') : Filled s' ↔ Filled s := by
  rw [Filled, Filled, h.text]

/-- A touch on the next button sends the dictionary of the form and leaves the form alone. -/
theorem nextButtonClick_cases (h : (machine c isAddBank).step s .nextButtonClick = some (s', os)) :
    SameForm s s' ∧
      if s.onTop = true ∧ s.nextButEnabled = true then
        ∃ r, os = [.bank r] ∧ s.dic = some r.dic
      else os = [] := by
  simp only [machine, step, Bool.and_eq_true] at h
  split_ifs at h ⊢
  · obtain ⟨dic, hdic, heq⟩ := Option.map_eq_some_iff.mp h
    cases heq
    exact ⟨⟨funext fun field => by cases field <;> rfl, funext fun field => by cases field <;> rfl,
      rfl⟩, _, rfl, hdic⟩
  · cases h
    exact ⟨⟨rfl, rfl, rfl⟩, rfl⟩

theorem kept_step (hkept : Kept c (s, t)) (h : (machine c isAddBank).step s e = some (s', os)) :
    Kept c (s', entered t s e) := by
  cases e with
  | textChangeCLick field text marked =>
    cases h
    rw [entered]
    split_ifs
    · exact hkept.edit field text marked
    · exact hkept
  | nextButtonClick => exact (nextButtonClick_cases h).1.kept hkept
  | bankClick | codeReply | tick | reply | pop =>
    exact (sameForm_step (by simp) (by simp) h).1.kept hkept

/-- An edit leaves the form as filled as it was iff it does not decide that by itself. -/
theorem filled_edit_iff (field : Field) (text : NSString) (marked : Bool) :
    (Filled s ↔ Filled (s.textChangeCLick c field text marked)) ↔
      ((∀ other, other ≠ field → s.text other ≠ []) → (text = [] ↔ s.text field = [])) := by
  have hothers : ∀ other, other ≠ field →
      ((s.textChangeCLick c field text marked).text other = [] ↔ s.text other = []) := by
    intro other hne
    rw [text_textChangeCLick, if_neg hne]
  rw [Filled, Filled, filled_iff_filled field hothers, text_textChangeCLick, if_pos rfl,
    shown_eq_nil_iff]

theorem faithful_edit_iff (hkept : Kept c (s, t)) (hlaw : s.nextButEnabled = true ↔ Filled s)
    {field : Field} {text : NSString} {marked : Bool}
    (h : (machine c isAddBank).step s (.textChangeCLick field text marked) = some (s', os)) :
    Faithful (s, t) (.textChangeCLick field text marked)
        (s', entered t s (.textChangeCLick field text marked)) os ↔
      Sound c (s, t) (.textChangeCLick field text marked) := by
  cases h
  simp only [Faithful, Sound, List.not_mem_nil, false_implies, implies_true, and_true]
  split_ifs with htop
  · simp only [htop, forall_const]
    have hedit := hkept.edit field text marked
    cases field with
    | name | bankCard =>
      -- the button stays as it was
      change (s.nextButEnabled = true ↔ Filled _) ↔ _
      rw [hlaw]
      exact filled_edit_iff _ text marked
    | phone | code =>
      -- the button is checked, from the copies
      rw [← nextButEnabled_checkNextBut (by simp), hedit.checked_iff, hedit.filled_iff]
      constructor
      · exact fun hiff hfilled => hiff.mpr hfilled
      · intro hsound
        exact ⟨fun hall other => ne_nil_of_stringIsNil (hall other), hsound⟩
  · simpa [htop] using hlaw

/-- The step leaves the form faithful iff its event is sound. -/
theorem faithful_iff (hkept : Kept c (s, t)) (hlaw : s.nextButEnabled = true ↔ Filled s)
    (h : (machine c isAddBank).step s e = some (s', os)) :
    Faithful (s, t) e (s', entered t s e) os ↔ Sound c (s, t) e := by
  cases e with
  | textChangeCLick field text marked => exact faithful_edit_iff hkept hlaw h
  | nextButtonClick =>
    obtain ⟨hsame, hsent⟩ := nextButtonClick_cases h
    have hlaw' : s'.nextButEnabled = true ↔ Filled s' := by
      rw [hsame.enabled, hsame.filled_iff]
      exact hlaw
    simp only [Faithful, Sound]
    split_ifs at hsent with htouch
    · obtain ⟨r, rfl, hdic⟩ := hsent
      simp only [hlaw', htouch, ← hkept.carries_iff hdic, List.mem_singleton, Sent.bank.injEq,
        forall_eq, forall_const, true_and]
    · refine iff_of_true ⟨hlaw', by simp [hsent]⟩ (fun htop henabled => ?_)
      exact absurd ⟨htop, henabled⟩ htouch
  | bankClick | codeReply | tick | reply | pop =>
    obtain ⟨hsame, hnone⟩ := sameForm_step (by simp) (by simp) h
    refine iff_of_true ⟨?_, fun r hr => absurd hr (hnone r)⟩ trivial
    rw [hsame.enabled, hsame.filled_iff]
    exact hlaw

/-! ### The law over runs -/

/-- In every run of the screen, the next button is enabled after every step exactly when the four
    fields are filled and every request carries what they show, iff every event of the run is
    sound. -/
theorem form_faithful_iff (c : ComposedSequences) (isAddBank : Bool) (userId : Json)
    (es : List Event) :
    ((machine c isAddBank).observe entered).Always Faithful
        (viewDidLoad userId, nothingEntered) es ↔
      ((machine c isAddBank).observe entered).Meets (Sound c)
        (viewDidLoad userId, nothingEntered) es := by
  refine Machine.always_iff_meets
    (I := fun s => Kept c s ∧ (s.1.nextButEnabled = true ↔ Filled s.1)) ?_ ?_ es _ ?_
  · rintro ⟨s, t⟩ e ⟨s', t'⟩ os ⟨hkept, hlaw⟩ hsound h
    obtain ⟨hstep, rfl⟩ := Machine.observe_step.mp h
    exact ⟨kept_step hkept hstep, ((faithful_iff hkept hlaw hstep).mpr hsound).1⟩
  · rintro ⟨s, t⟩ e ⟨s', t'⟩ os ⟨hkept, hlaw⟩ h
    obtain ⟨hstep, rfl⟩ := Machine.observe_step.mp h
    exact faithful_iff hkept hlaw hstep
  · refine ⟨kept_viewDidLoad userId, ?_⟩
    simp only [viewDidLoad, Bool.false_eq_true, false_iff]
    exact fun h => h .name rfl

instance (s : BankAuthenViewController) : Decidable (Filled s) :=
  decidable_of_iff (∀ field ∈ [Field.name, .bankCard, .phone, .code], s.text field ≠ [])
    ⟨fun h field => h field (by cases field <;> decide), fun h field _ => h field⟩

instance (s : BankAuthenViewController) (dic : BankInsert) : Decidable (Carries s dic) :=
  inferInstanceAs (Decidable (_ ∧ _ ∧ _ ∧ _))

/-- The dictionary that leaves, when one does. -/
def Sent.dic : Sent → Option BankInsert
  | .bank r => some r.dic
  | .getSysCode _ => none

instance (s : BankAuthenViewController × Entered) (e : Event)
    (s' : BankAuthenViewController × Entered) (os : List Sent) : Decidable (Faithful s e s' os) :=
  decidable_of_iff ((s'.1.nextButEnabled = true ↔ Filled s'.1) ∧
      ∀ o ∈ os, ∀ dic ∈ o.dic, Carries s.1 dic) <| by
    refine and_congr_right fun _ => ?_
    constructor
    · exact fun h r hr => h _ hr _ rfl
    · intro h o ho dic hdic
      cases o with
      | bank r =>
        cases hdic
        exact h r ho
      | getSysCode r => cases hdic

/-- With the name entered last the form is filled and the next button stays off. -/
theorem filled_form_disabled : ¬ ∀ (c : ComposedSequences) (isAddBank : Bool) (userId : Json)
    (es : List Event), ((machine c isAddBank).observe entered).Always Faithful
      (viewDidLoad userId, nothingEntered) es := by
  intro h
  have hrun := h surrogatePairs false .null
    [.textChangeCLick .phone (ns "13800138000") false, .textChangeCLick .code (ns "123456") false,
      .textChangeCLick .bankCard (ns "6222020200112233") false,
      .textChangeCLick .name (ns "Li Ming") false]
  revert hrun
  decide +kernel

end LeYiDai.BankAuthen
