import LeYiDai.Foundation.TextField
import LeYiDai.Main.ApplicationTable

/-! What the application form submits against what was entered in it. Picks reach the model as they
    are made, the company and the job when their field gives up the focus, the addresses only when
    something else is checked, and then from the cells their rows were drawn in last. The form is
    right as long as every check and every submission finds the texts it reads to be those entered,
    and no edit decides by itself whether the form is filled. -/

namespace LeYiDai.Application

open ApplicationInformationViewController

/-! ### What is read when -/

namespace ApplicationInformationViewController

/-- The company or the job is being edited. -/
def editsText (s : ApplicationInformationViewController) : Bool :=
  s.firstResponder.any fun p => p.2 = .textFiled

/-- The event makes the form check its fields. -/
def checks (s : ApplicationInformationViewController) : Event → Bool
  | .didSelectRowAtIndexPath indexPath =>
    s.takesTouches && (s.visible indexPath).isSome && s.editsText
  | .endEditing => s.editsText
  | .picked pick => s.presented.any fun indexPath => fits indexPath pick
  | _ => false

/-- What the address fields drawn last hold, which a check reads. -/
def found (s : ApplicationInformationViewController) : Field → NSString
  | .custAddr => emptyIfNilStr (s.addressText s.houseAddressTextFile)
  | .workAddr => emptyIfNilStr (s.addressText s.workAddressTextFile)
  | _ => []

end ApplicationInformationViewController

/-- The text last entered in each field, and what the last check found in the address fields. -/
structure Observed where
  entered : Field → NSString
  found : Field → NSString

def Observed.new : Observed where
  entered := fun _ => []
  found := fun _ => []

/-- The texts a check goes by. -/
def Observed.read (t : Observed) (f : Field) : NSString :=
  if f.typedIn = some .bottomTextFiled then t.found f else t.entered f

def observe (t : Observed) (s : ApplicationInformationViewController) (e : Event) : Observed where
  entered := fun f => (s.enters e f).getD (t.entered f)
  found := if s.checks e then s.found else t.found

/-- After the step the submit button is enabled exactly when all fields are entered, and a
    dictionary that leaves holds what was entered last. -/
def Faithful (s : ApplicationInformationViewController × Observed) (_ : Event)
    (s' : ApplicationInformationViewController × Observed) (os : List Sent) : Prop :=
  (s'.1.nextButEnabled = true ↔ ∀ f, s'.2.entered f ≠ []) ∧
    ∀ r, .useCustAuthCustInfoUp r ∈ os → ∀ f, r.dataDic.custInfo f = s.2.entered f

/-- What keeps the form faithful. An edit fills or empties its field only while another field is
    empty; a check finds all fields entered exactly when no text it goes by reads as nil; and a
    touch on the enabled submit button finds in the company or job field under edit the text last
    taken from it, and the addresses entered to be those the last check found. -/
def Sound (s : ApplicationInformationViewController × Observed) (e : Event) : Prop :=
  match e with
  | .editingChanged text => s.1.takesTouches = true → ∀ f, s.1.edits f = true →
      (∀ g, g ≠ f → s.2.entered g ≠ []) → (text = [] ↔ s.2.entered f = [])
  | .nextButtonClick => s.1.takesTouches = true → s.1.nextButEnabled = true →
      (∀ id, s.1.firstResponder = some (id, .textFiled) →
        (s.1.cells id).textFiled = s.1.selectArray (s.1.cells id).textBack) ∧
      ∀ f, f.typedIn = some .bottomTextFiled → s.2.found f = s.2.entered f
  | e => s.1.checks e = true →
      let t := observe s.2 s.1 e
      (∀ f, t.entered f ≠ []) ↔ ∀ f, stringIsNil (t.read f) = false

/-- The addresses in the model are those the last check found. -/
def KeptFound (s : ApplicationInformationViewController) (found : Field → NSString) : Prop :=
  ∀ f, f.typedIn = some .bottomTextFiled → emptyIfNilStr (s.custInfoModel f) = found f

variable {s s' : ApplicationInformationViewController} {t : Observed} {e : Event} {os : List Sent}

/-- A check finds the addresses it then holds. -/
theorem keptFound_check (s : ApplicationInformationViewController) :
    KeptFound s.checkButtonEnble s.found := by
  intro f hf
  cases f <;> first | rfl | cases hf

/-! ### Steps -/

/-- A check went over the form: the model holds the addresses found in `s`, the submit button is
    enabled iff no field reads as nil, and nothing is edited any more. -/
structure Checked (s s' : ApplicationInformationViewController) : Prop where
  found : KeptFound s' s.found
  enabled : s'.nextButEnabled = !(Field.all.any fun f => isNilStr (s'.custInfoModel f))
  unedited : s'.firstResponder = none

/-- The end of an edit checks the form when the company or the job was edited. -/
theorem endEditing_cases (s : ApplicationInformationViewController) :
    (s.editsText = true ∧ Checked s s.endEditing) ∨
      (s.editsText = false ∧ s.endEditing = { s with firstResponder := none }) := by
  rcases hresp : s.firstResponder with _ | ⟨id, _ | _⟩
  · right
    simp [editsText, endEditing, hresp]
  · left
    refine ⟨by simp [editsText, hresp], ?_⟩
    simp only [endEditing, hresp, textBack]
    split_ifs <;> exact ⟨fun f hf => keptFound_check _ f hf, rfl, rfl⟩
  · right
    simp [editsText, endEditing, hresp]

theorem checked_step (h : Table s) (hc : s.checks e = true)
    (hstep : machine.step s e = some (s', os)) : Checked s s' := by
  cases e with
  | didSelectRowAtIndexPath indexPath =>
    cases hstep
    simp only [checks, Bool.and_eq_true] at hc
    obtain ⟨⟨htouch, hv⟩, htext⟩ := hc
    rcases endEditing_cases s with ⟨-, hchecked⟩ | ⟨hno, -⟩
    · simp only [htouch, hv, Bool.and_self, if_true, didSelectRowAtIndexPath]
      split_ifs
      · exact hchecked
      · exact ⟨hchecked.found, hchecked.enabled, hchecked.unedited⟩
    · rw [hno] at htext
      cases htext
  | picked pick =>
    simp only [checks, Option.any_eq_true] at hc
    obtain ⟨indexPath, hpresented, hfit⟩ := hc
    have hnone : s.firstResponder = none := h.presented (by simp [hpresented])
    obtain ⟨-, -, text, custInfoModel, hblock, -⟩ := resultBlock_cases (s := s) hfit
    simp only [machine, step, hpresented, hfit, if_true, Option.some.injEq, Prod.mk.injEq] at hstep
    obtain ⟨rfl, -⟩ := hstep
    rw [ApplicationInformationViewController.picked, hblock]
    exact ⟨fun f hf => keptFound_check _ f hf, rfl, hnone⟩
  | endEditing =>
    cases hstep
    rcases endEditing_cases s with ⟨-, hchecked⟩ | ⟨hno, -⟩
    · exact hchecked
    · rw [checks, hno] at hc
      cases hc
  | nofiticationCLick | cellForRowAtIndexPath | didEndDisplayingCell | cancelled | didBeginEditing
  | editingChanged | nextButtonClick | reply | pop => cases hc

/-- The model and the submit button are as they were. -/
structure SameForm (s s' : ApplicationInformationViewController) : Prop where
  model : s'.custInfoModel = s.custInfoModel
  enabled : s'.nextButEnabled = s.nextButEnabled

theorem SameForm.refl (s : ApplicationInformationViewController) : SameForm s s := ⟨rfl, rfl⟩

theorem sameForm_step (hc : s.checks e = false) (hstep : machine.step s e = some (s', os)) :
    SameForm s s' := by
  cases e with
  | nofiticationCLick | cancelled =>
    cases hstep
    exact ⟨rfl, rfl⟩
  | cellForRowAtIndexPath indexPath id =>
    cases hstep
    split_ifs <;> exact ⟨rfl, rfl⟩
  | didEndDisplayingCell indexPath =>
    cases hstep
    unfold didEndDisplayingCell
    split_ifs <;> exact ⟨rfl, rfl⟩
  | didSelectRowAtIndexPath indexPath =>
    cases hstep
    split_ifs with htouch
    · rcases endEditing_cases s with ⟨htext, -⟩ | ⟨-, hend⟩
      · rw [checks, htouch, htext] at hc
        cases hc
      · rw [didSelectRowAtIndexPath, hend]
        split_ifs <;> exact ⟨rfl, rfl⟩
    · exact .refl s
  | picked pick =>
    cases hstep
    split
    · rename_i indexPath hpresented
      rw [checks, hpresented, Option.any_some] at hc
      rw [if_neg (by simp [hc])]
      exact .refl s
    · exact .refl s
  | didBeginEditing indexPath field =>
    cases hstep
    unfold beginEditing
    split_ifs
    · split
      · exact .refl s
      · split_ifs <;> exact ⟨rfl, rfl⟩
    · exact .refl s
  | editingChanged text =>
    cases hstep
    unfold ApplicationInformationViewController.editingChanged
    split_ifs
    · split <;> exact ⟨rfl, rfl⟩
    · exact .refl s
  | endEditing =>
    cases hstep
    rcases endEditing_cases s with ⟨htext, -⟩ | ⟨-, hend⟩
    · rw [checks, htext] at hc
      cases hc
    · rw [hend]
      exact ⟨rfl, rfl⟩
  | nextButtonClick =>
    obtain ⟨-, dataDic, -, rfl, -⟩ | ⟨-, rfl, -⟩ := nextButtonClick_cases hstep
    · exact ⟨rfl, rfl⟩
    · exact .refl _
  | reply id body =>
    obtain ⟨-, pushed, inFlight, rfl⟩ := reply_frame hstep
    exact ⟨rfl, rfl⟩
  | pop =>
    cases hstep
    unfold pop
    split <;> exact ⟨rfl, rfl⟩

theorem keptFound_step (h : Table s) (hfound : KeptFound s t.found)
    (hstep : machine.step s e = some (s', os)) : KeptFound s' (observe t s e).found := by
  rw [observe]
  split_ifs with hc
  · exact (checked_step h hc hstep).found
  · intro f hf
    rw [(sameForm_step (Bool.eq_false_iff.mpr hc) hstep).model]
    exact hfound f hf

/-! ### The law of a step -/

/-- A field that nobody edits is read as the model has it. -/
theorem read_eq (h : Kept s t.entered) (hfound : KeptFound s t.found) {f : Field}
    (hf : s.edits f = false) : emptyIfNilStr (s.custInfoModel f) = t.read f := by
  rw [Observed.read]
  split_ifs with haddress
  · exact hfound f haddress
  · rcases htyped : f.typedIn with _ | _ | _
    · exact h.picked f htyped
    · exact h.ended f htyped hf
    · exact absurd htyped haddress

theorem checked_iff {a : ApplicationInformationViewController} (hchecked : Checked a s)
    (h : Kept s t.entered) (hfound : KeptFound s t.found) :
    s.nextButEnabled = true ↔ ∀ f, stringIsNil (t.read f) = false := by
  have hread : ∀ f, isNilStr (s.custInfoModel f) = stringIsNil (t.read f) := by
    intro f
    rw [isNilStr_eq, read_eq h hfound (edits_of_none hchecked.unedited)]
  rw [hchecked.enabled, Bool.not_eq_true', List.any_eq_false]
  constructor
  · intro hall f
    rw [← hread]
    exact Bool.eq_false_iff.mpr (hall f (Field.mem_all f))
  · intro hall f _
    rw [hread]
    exact Bool.eq_false_iff.mp (hall f)

/-- Only a touch on the submit button sends the dictionary. -/
theorem not_sent (hne : e ≠ .nextButtonClick) (hstep : machine.step s e = some (s', os))
    (r : Request) : .useCustAuthCustInfoUp r ∉ os := by
  cases e with
  | nofiticationCLick arr =>
    cases hstep
    split_ifs <;> simp
  | reply id body =>
    obtain ⟨rfl, -⟩ := reply_frame hstep
    simp
  | nextButtonClick => exact absurd rfl hne
  | cellForRowAtIndexPath | didEndDisplayingCell | didSelectRowAtIndexPath | picked | cancelled
  | didBeginEditing | editingChanged | endEditing | pop =>
    cases hstep
    simp

/-- Apart from an edit, what is entered is entered with a check. -/
theorem enters_eq_none (hc : s.checks e = false) (hne : ∀ text, e ≠ .editingChanged text)
    (f : Field) : s.enters e f = none := by
  cases e with
  | editingChanged text => exact absurd rfl (hne text)
  | picked pick =>
    rw [enters, if_neg]
    simp only [Bool.and_eq_true, decide_eq_true_eq, not_and]
    intro hpresented
    rw [checks, hpresented, Option.any_some] at hc
    simp [hc]
  | nofiticationCLick | cellForRowAtIndexPath | didEndDisplayingCell | didSelectRowAtIndexPath
  | cancelled | didBeginEditing | endEditing | nextButtonClick | reply | pop => rfl

/-- The invariant of a run. -/
structure Good (s : ApplicationInformationViewController × Observed) : Prop where
  kept : Kept s.1 s.2.entered
  found : KeptFound s.1 s.2.found
  law : s.1.nextButEnabled = true ↔ ∀ f, s.2.entered f ≠ []

theorem faithful_check_iff (h : Good (s, t)) (hedit : ∀ text, e ≠ .editingChanged text)
    (hnext : e ≠ .nextButtonClick) (hstep : machine.step s e = some (s', os)) :
    Faithful (s, t) e (s', observe t s e) os ↔ (s.checks e = true →
      ((∀ f, (observe t s e).entered f ≠ []) ↔
        ∀ f, stringIsNil ((observe t s e).read f) = false)) := by
  have hsent : ∀ r, .useCustAuthCustInfoUp r ∈ os →
      ∀ f, r.dataDic.custInfo f = t.entered f := fun r hr => absurd hr (not_sent hnext hstep r)
  rcases hc : s.checks e with _ | _
  · have hsame := sameForm_step hc hstep
    have hentered : (observe t s e).entered = t.entered := by
      funext f
      simp [observe, enters_eq_none hc hedit]
    refine iff_of_true ⟨?_, hsent⟩ (by simp)
    simp only [hentered, hsame.enabled]
    exact h.law
  · have hkept : Kept s' (observe t s e).entered := kept_step h.kept hstep
    have hfound := keptFound_step h.kept.toTable h.found hstep
    have henabled := checked_iff (checked_step h.kept.toTable hc hstep) hkept hfound
    simp only [Faithful, henabled, forall_const]
    constructor
    · exact fun hlaw => hlaw.1.symm
    · exact fun hlaw => ⟨hlaw.symm, hsent⟩

theorem faithful_edit_iff (h : Good (s, t)) {text : NSString}
    (hstep : machine.step s (.editingChanged text) = some (s', os)) :
    Faithful (s, t) (.editingChanged text) (s', observe t s (.editingChanged text)) os ↔
      Sound (s, t) (.editingChanged text) := by
  have hsame := sameForm_step rfl hstep
  have hsent : ∀ r, .useCustAuthCustInfoUp r ∈ os →
      ∀ f, r.dataDic.custInfo f = t.entered f :=
    fun r hr => absurd hr (not_sent (by simp) hstep r)
  have hlaw := h.law
  rw [← hsame.enabled] at hlaw
  by_cases hf : ∃ f, s.takesTouches = true ∧ s.edits f = true
  · obtain ⟨f, htouch, hf⟩ := hf
    have hentered : ∀ g, (observe t s (.editingChanged text)).entered g =
        if g = f then text else t.entered g := by
      intro g
      simp only [observe, enters, htouch, Bool.true_and]
      by_cases hg : g = f
      · simp [hg, hf]
      · have hg' : s.edits g = false :=
          Bool.eq_false_iff.mpr fun hg' => hg (eq_of_edits hg' hf)
        simp [hg, hg']
    have hothers : ∀ g, g ≠ f →
        ((observe t s (.editingChanged text)).entered g = [] ↔ t.entered g = []) := by
      intro g hne
      rw [hentered, if_neg hne]
    have hsound : Sound (s, t) (.editingChanged text) ↔
        ((∀ g, g ≠ f → t.entered g ≠ []) → (text = [] ↔ t.entered f = [])) := by
      constructor
      · exact fun hs => hs htouch f hf
      · intro hs _ g hg
        rw [eq_of_edits hg hf]
        exact hs
    rw [hsound]
    simp only [Faithful]
    rw [and_iff_left hsent, hlaw, filled_iff_filled f hothers, hentered f, if_pos rfl]
  · have hentered : (observe t s (.editingChanged text)).entered = t.entered := by
      funext f
      have hnone : ¬ (s.takesTouches = true ∧ s.edits f = true) := fun hf' => hf ⟨f, hf'⟩
      simp [observe, enters, hnone]
    refine iff_of_true ⟨?_, hsent⟩ fun htouch f hf' => absurd ⟨f, htouch, hf'⟩ hf
    simp only [hentered]
    exact hlaw

/-- The model is what was entered iff no text is left in the field under edit and the addresses
    found are those entered. -/
theorem model_entered_iff (h : Kept s t.entered) (hfound : KeptFound s t.found) :
    (∀ f, emptyIfNilStr (s.custInfoModel f) = t.entered f) ↔
      (∀ id, s.firstResponder = some (id, .textFiled) →
        (s.cells id).textFiled = s.selectArray (s.cells id).textBack) ∧
      ∀ f, f.typedIn = some .bottomTextFiled → t.found f = t.entered f := by
  constructor
  · intro hall
    refine ⟨fun id hresp => ?_, fun f hf => (hfound f hf).symm.trans (hall f)⟩
    obtain ⟨f, hf, hrow, hv⟩ := h.exists_edits hresp
    rw [h.shown f hf id hv, ← hrow, h.saved f hf, hall]
  · rintro ⟨htext, haddress⟩ f
    rcases htyped : f.typedIn with _ | _ | _
    · exact h.picked f htyped
    · rcases hf : s.edits f with _ | _
      · exact h.ended f htyped hf
      · obtain ⟨id, field, hresp, hv, htyped'⟩ := h.visible_of_edits hf
        rw [htyped] at htyped'
        cases htyped'
        rw [← h.saved f htyped, ← h.shown f htyped id hv, htext id hresp,
          (h.drawn _ _ hv).textBack]
    · exact (hfound f htyped).trans (haddress f htyped)

theorem faithful_submit_iff (h : Good (s, t))
    (hstep : machine.step s .nextButtonClick = some (s', os)) :
    Faithful (s, t) .nextButtonClick (s', observe t s .nextButtonClick) os ↔
      Sound (s, t) .nextButtonClick := by
  have hlaw : s'.nextButEnabled = true ↔ ∀ f, t.entered f ≠ [] := by
    rw [(sameForm_step rfl hstep).enabled]
    exact h.law
  obtain ⟨htouch, dataDic, hdic, rfl, rfl⟩ | ⟨htouch, -, rfl⟩ := nextButtonClick_cases hstep
  · have hinfo : dataDic.custInfo = fun f => emptyIfNilStr (s.custInfoModel f) := by
      rw [ApplicationInformationViewController.dataDic] at hdic
      split_ifs at hdic
      cases hdic
      rfl
    have hmodel := model_entered_iff h.kept h.found
    constructor
    · intro hs _ _
      refine hmodel.mp fun f => ?_
      rw [← hs.2 _ (List.mem_singleton.mpr rfl) f, hinfo]
    · intro hs
      refine ⟨hlaw, fun r hr f => ?_⟩
      cases List.mem_singleton.mp hr
      simp only [hinfo]
      exact hmodel.mpr (hs htouch.1 htouch.2) f
  · refine iff_of_true ⟨hlaw, by simp⟩ fun htakes henabled => ?_
    exact absurd ⟨htakes, henabled⟩ htouch

theorem faithful_iff (h : Good (s, t)) (hstep : machine.step s e = some (s', os)) :
    Faithful (s, t) e (s', observe t s e) os ↔ Sound (s, t) e := by
  cases e with
  | editingChanged text => exact faithful_edit_iff h hstep
  | nextButtonClick => exact faithful_submit_iff h hstep
  | nofiticationCLick | cellForRowAtIndexPath | didEndDisplayingCell | didSelectRowAtIndexPath
  | picked | cancelled | didBeginEditing | endEditing | reply | pop =>
    exact faithful_check_iff h (by simp) (by simp) hstep

/-! ### The law over runs -/

/-- In every run of the form, with any reuse of its cells, the submit button is enabled after every
    step exactly when all fields are entered and every dictionary that leaves holds what was entered
    last, iff every event of the run is sound. -/
theorem form_submits_entered_iff (userId : Json) (es : List Event) :
    (machine.observe observe).Always Faithful (viewDidLoad userId, Observed.new) es ↔
      (machine.observe observe).Meets Sound (viewDidLoad userId, Observed.new) es := by
  refine Machine.always_iff_meets (I := Good) ?_ ?_ es _ ?_
  · rintro ⟨s, t⟩ e ⟨s', t'⟩ os h hsound hobs
    obtain ⟨hstep, rfl⟩ := Machine.observe_step.mp hobs
    exact ⟨kept_step h.kept hstep, keptFound_step h.kept.toTable h.found hstep,
      ((faithful_iff h hstep).mpr hsound).1⟩
  · rintro ⟨s, t⟩ e ⟨s', t'⟩ os h hobs
    obtain ⟨hstep, rfl⟩ := Machine.observe_step.mp hobs
    exact faithful_iff h hstep
  · refine ⟨kept_viewDidLoad userId, fun _ _ => rfl, ?_⟩
    simp only [viewDidLoad, Bool.false_eq_true, false_iff]
    exact fun h => h .custJob rfl

/-- The dictionary that leaves, when one does. -/
def Sent.dataDic : Sent → Option DataDic
  | .useCustAuthCustInfoUp r => some r.dataDic
  | .custInfoPhoneBookInsert _ _ => none

instance (s : ApplicationInformationViewController × Observed) (e : Event)
    (s' : ApplicationInformationViewController × Observed) (os : List Sent) :
    Decidable (Faithful s e s' os) :=
  decidable_of_iff
    ((s'.1.nextButEnabled = true ↔ ∀ f ∈ Field.all, s'.2.entered f ≠ []) ∧
      ∀ o ∈ os, ∀ dic ∈ o.dataDic, ∀ f ∈ Field.all, dic.custInfo f = s.2.entered f) <| by
    refine and_congr (iff_congr Iff.rfl ?_) ?_
    · exact ⟨fun h f => h f (Field.mem_all f), fun h f _ => h f⟩
    · constructor
      · exact fun h r hr f => h _ hr _ rfl f (Field.mem_all f)
      · intro h o ho dic hdic f _
        cases o with
        | useCustAuthCustInfoUp r =>
          cases hdic
          exact h r ho f
        | custInfoPhoneBookInsert userId data => cases hdic

/-- All rows drawn, each in the cell of its place. -/
def drawRows : List Event :=
  ((List.finRange 2).flatMap fun sec => (List.finRange 5).map fun row => (sec, row)).zipIdx.map
    fun (indexPath, cell) => .cellForRowAtIndexPath indexPath cell

/-- A row is tapped, its picker or alert confirmed, and the table drawn again. -/
def pickRow (indexPath : IndexPath) (pick : Pick) : List Event :=
  [.didSelectRowAtIndexPath indexPath, .picked pick] ++ drawRows

def typeRow (indexPath : IndexPath) (field : CellField) (text : NSString) : List Event :=
  [.didBeginEditing indexPath field, .editingChanged text, .endEditing]

/-- With the address entered last the form is filled and the submit button stays off. -/
theorem entered_form_disabled : ¬ ∀ (userId : Json) (es : List Event),
    (machine.observe observe).Always Faithful (viewDidLoad userId, Observed.new) es := by
  intro h
  have hrun := h .null <| drawRows ++ pickRow (0, 0) (.selectValue 2) ++
    pickRow (0, 1) (.selectValue 0) ++
    pickRow (0, 2) (.address ⟨some (ns "江苏省"), some (ns "320000")⟩
      ⟨some (ns "南京市"), some (ns "320100")⟩ ⟨some (ns "雨花台区"), some (ns "320114")⟩) ++
    pickRow (0, 3) (.contact (ns "Li Ming") (ns "13800138000")) ++
    pickRow (0, 4) (.contact (ns "Wang Fang") (ns "13900139000")) ++
    typeRow (1, 0) .textFiled (ns "Nanjing XXX") ++
    pickRow (1, 1) (.address ⟨some (ns "江苏省"), some (ns "320000")⟩
      ⟨some (ns "南京市"), some (ns "320100")⟩ ⟨some (ns "雨花台区"), some (ns "320114")⟩) ++
    typeRow (1, 1) .bottomTextFiled (ns "Ruanjian Dadao 1") ++
    pickRow (1, 2) (.selectValue 1) ++
    typeRow (1, 3) .textFiled (ns "staff") ++
    pickRow (1, 4) (.selectValue 2) ++
    typeRow (0, 2) .bottomTextFiled (ns "Yuhua Lu 2")
  revert hrun
  decide +kernel

end LeYiDai.Application
