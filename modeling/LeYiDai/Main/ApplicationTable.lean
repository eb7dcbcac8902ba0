import LeYiDai.Main.ApplicationInformationViewController

/-! What is entered in the application form and what its table and its model keep of it. A row on
    the table shows what was entered in it; the model has every pick at once, and the company and
    the job from the end of their edit on. Which cell shows which row does not matter for these. -/

namespace LeYiDai.Application

open ApplicationInformationViewController

/-! ### What is entered where -/

/-- The text field of its row that a field is typed in; the others are picked. -/
def Field.typedIn : Field → Option CellField
  | .custCorpration | .custJob => some .textFiled
  | .custAddr | .workAddr => some .bottomTextFiled
  | _ => none

/-- What a pick enters in a field of the row it is made in: the place of a choice, the codes of an
    address, the name and the number of a contact. -/
def Pick.value : Pick → Field → Option NSString
  | .selectValue i, .custEducation | .selectValue i, .custMarrsign
  | .selectValue i, .custCorpkind | .selectValue i, .custIncome => some (natDigits i)
  | .address p c a, .custAreacode | .address p c a, .workAreacode =>
    some (fmtStr p.code ++ fmtStr c.code ++ fmtStr a.code)
  | .contact name _, .relation1Name | .contact name _, .relation2Name => some name
  | .contact _ mobile, .relation1Mobile | .contact _ mobile, .relation2Mobile => some mobile
  | _, _ => none

namespace ApplicationInformationViewController

/-- The field is being edited. -/
def edits (s : ApplicationInformationViewController) (f : Field) : Bool :=
  s.firstResponder.any fun p => f.ownRow = (s.cells p.1).textBack && f.typedIn = some p.2

/-- What an event enters in a field. -/
def enters (s : ApplicationInformationViewController) (e : Event) (f : Field) : Option NSString :=
  match e with
  | .editingChanged text => if s.takesTouches && s.edits f then some text else none
  | .picked pick =>
    if s.presented = some f.ownRow && fits f.ownRow pick then pick.value f else none
  | _ => none

end ApplicationInformationViewController

/-! ### The table -/

/-- A cell as the drawing of a row leaves it. -/
structure DrawnFor (indexPath : IndexPath) (cell : ApplyInfoTableViewCell) : Prop where
  textBack : cell.textBack = indexPath
  enabled : cell.textFiledEnabled = true ↔ indexPath = (1, 0) ∨ indexPath = (1, 3)
  shown : cell.bottomTextFiledHidden = false ↔ indexPath = (0, 2) ∨ indexPath = (1, 1)

/-- A row on the table was drawn in the cell that shows it, the field being edited is a field of
    such a cell, and nothing is edited under a picker or an alert. -/
structure Table (s : ApplicationInformationViewController) : Prop where
  drawn : ∀ indexPath id, s.visible indexPath = some id → DrawnFor indexPath (s.cells id)
  responder : ∀ id field, s.firstResponder = some (id, field) →
    ∃ indexPath, s.visible indexPath = some id ∧ (s.cells id).takes field = true
  presented : s.presented ≠ none → s.firstResponder = none

/-- What the form keeps of what was entered. -/
structure Kept (s : ApplicationInformationViewController) (entered : Field → NSString) : Prop
    extends Table s where
  picked : ∀ f, f.typedIn = none → emptyIfNilStr (s.custInfoModel f) = entered f
  saved : ∀ f, f.typedIn = some .textFiled →
    s.selectArray f.ownRow = emptyIfNilStr (s.custInfoModel f)
  shown : ∀ f, f.typedIn = some .textFiled → ∀ id, s.visible f.ownRow = some id →
    (s.cells id).textFiled = entered f
  ended : ∀ f, f.typedIn = some .textFiled → s.edits f = false →
    emptyIfNilStr (s.custInfoModel f) = entered f

variable {s s' : ApplicationInformationViewController} {entered : Field → NSString} {e : Event}
  {os : List Sent}

/-- A row has one field of its own in each of its text fields. -/
theorem Field.eq_of_ownRow {f g : Field} {field : CellField} (hf : f.typedIn = some field)
    (hg : g.typedIn = some field) (hrow : f.ownRow = g.ownRow) : f = g := by
  cases f <;> cases hf <;> cases g <;> cases hg <;> first | rfl | cases hrow

theorem edits_iff {f : Field} : s.edits f = true ↔ ∃ id field,
    s.firstResponder = some (id, field) ∧ f.ownRow = (s.cells id).textBack ∧
      f.typedIn = some field := by
  simp [edits, Option.any_eq_true]

theorem eq_of_edits {f g : Field} (hf : s.edits f = true) (hg : s.edits g = true) : f = g := by
  obtain ⟨id, field, hresp, hrow, htyped⟩ := edits_iff.mp hf
  obtain ⟨id', field', hresp', hrow', htyped'⟩ := edits_iff.mp hg
  rw [hresp] at hresp'
  cases hresp'
  exact Field.eq_of_ownRow htyped htyped' (hrow.trans hrow'.symm)

theorem edits_of_none {f : Field} (h : s.firstResponder = none) : s.edits f = false := by
  simp [edits, h]

/-- The field being edited is on the table, in its own row. -/
theorem Table.visible_of_edits (h : Table s) {f : Field} (hf : s.edits f = true) :
    ∃ id field, s.firstResponder = some (id, field) ∧ s.visible f.ownRow = some id ∧
      f.typedIn = some field := by
  obtain ⟨id, field, hresp, hrow, htyped⟩ := edits_iff.mp hf
  obtain ⟨indexPath, hv, -⟩ := h.responder id field hresp
  rw [(h.drawn _ _ hv).textBack] at hrow
  exact ⟨id, field, hresp, hrow ▸ hv, htyped⟩

/-- A text field under edit is the company's or the job's. -/
theorem Table.exists_edits (h : Table s) {id : ℕ}
    (hresp : s.firstResponder = some (id, .textFiled)) :
    ∃ f : Field, f.typedIn = some .textFiled ∧ f.ownRow = (s.cells id).textBack ∧
      s.visible f.ownRow = some id := by
  obtain ⟨indexPath, hv, htakes⟩ := h.responder id _ hresp
  have hdrawn := h.drawn _ _ hv
  rcases hdrawn.enabled.mp htakes with rfl | rfl
  · exact ⟨.custCorpration, rfl, hdrawn.textBack.symm, hv⟩
  · exact ⟨.custJob, rfl, hdrawn.textBack.symm, hv⟩

theorem kept_viewDidLoad (userId : Json) : Kept (viewDidLoad userId) (fun _ => []) where
  drawn := by simp [viewDidLoad]
  responder := by simp [viewDidLoad]
  presented := by simp [viewDidLoad]
  picked := fun _ _ => rfl
  saved := fun _ _ => rfl
  shown := by simp [viewDidLoad]
  ended := fun _ _ _ => rfl

/-- A new row and its cell are not those of a row on the table. -/
theorem ne_of_canDraw {indexPath other : IndexPath} {id id' : ℕ}
    (hdraw : s.canDraw indexPath id = true) (hv : s.visible other = some id') :
    other ≠ indexPath ∧ id' ≠ id := by
  simp only [canDraw, Bool.and_eq_true, decide_eq_true_eq] at hdraw
  obtain ⟨hrow, hfree⟩ := hdraw
  constructor
  · rintro rfl
    rw [hrow] at hv
    cases hv
  · rintro rfl
    exact hfree other hv

/-- The drawing of a row leaves the field under edit alone. -/
theorem Table.edits_draw (h : Table s) {indexPath : IndexPath} {id : ℕ}
    (hdraw : s.canDraw indexPath id = true) (f : Field) :
    (s.cellForRowAtIndexPath indexPath id).edits f = s.edits f := by
  rcases hresp : s.firstResponder with _ | ⟨id', field⟩
  · rw [edits_of_none hresp, edits_of_none (s := cellForRowAtIndexPath indexPath id s) hresp]
  · obtain ⟨row, hv, -⟩ := h.responder id' field hresp
    simp [edits, cellForRowAtIndexPath, hresp, Function.update_of_ne (ne_of_canDraw hdraw hv).2]

theorem Table.draw (h : Table s) {indexPath : IndexPath} {id : ℕ}
    (hdraw : s.canDraw indexPath id = true) : Table (s.cellForRowAtIndexPath indexPath id) := by
  refine ⟨fun other id' hv => ?_, fun id' field hresp => ?_, h.presented⟩
  · simp only [cellForRowAtIndexPath] at hv ⊢
    rcases eq_or_ne other indexPath with rfl | hne
    · rw [Function.update_self] at hv
      cases hv
      rw [Function.update_self]
      exact ⟨rfl, by simp, by simp [or_iff_not_imp_left]⟩
    · rw [Function.update_of_ne hne] at hv
      rw [Function.update_of_ne (ne_of_canDraw hdraw hv).2]
      exact h.drawn other id' hv
  · obtain ⟨row, hv, htakes⟩ := h.responder id' field hresp
    obtain ⟨hrow, hcell⟩ := ne_of_canDraw hdraw hv
    refine ⟨row, ?_, ?_⟩
    · simp only [cellForRowAtIndexPath]
      rw [Function.update_of_ne hrow]
      exact hv
    · simp only [cellForRowAtIndexPath]
      rw [Function.update_of_ne hcell]
      exact htakes

/-- A row drawn in a cell that shows none. -/
theorem Kept.draw (h : Kept s entered) {indexPath : IndexPath} {id : ℕ}
    (hdraw : s.canDraw indexPath id = true) :
    Kept (s.cellForRowAtIndexPath indexPath id) entered := by
  have hedits := h.edits_draw hdraw
  refine ⟨h.toTable.draw hdraw, h.picked, h.saved, fun f hf id' hv => ?_,
    fun f hf he => h.ended f hf ((hedits f).symm.trans he)⟩
  simp only [cellForRowAtIndexPath] at hv ⊢
  rcases eq_or_ne f.ownRow indexPath with hown | hne
  · rw [hown, Function.update_self] at hv
    cases hv
    rw [Function.update_self]
    -- nobody edits the field, so the row's text is the one entered
    have hnone : s.edits f = false := by
      refine Bool.eq_false_iff.mpr fun hf' => ?_
      obtain ⟨id₀, field, -, hv, -⟩ := h.visible_of_edits hf'
      exact (ne_of_canDraw hdraw hv).1 hown
    simp only
    rw [← hown, h.saved f hf, h.ended f hf hnone]
  · rw [Function.update_of_ne hne] at hv
    rw [Function.update_of_ne (ne_of_canDraw hdraw hv).2]
    exact h.shown f hf id' hv

theorem Kept.endDisplaying (h : Kept s entered) (indexPath : IndexPath) :
    Kept (s.didEndDisplayingCell indexPath) entered := by
  unfold didEndDisplayingCell
  split_ifs with hedited
  · exact h
  have hleft : ∀ {other id}, Function.update s.visible indexPath none other = some id →
      s.visible other = some id := by
    intro other id hv
    rcases eq_or_ne other indexPath with rfl | hne
    · rw [Function.update_self] at hv
      cases hv
    · rwa [Function.update_of_ne hne] at hv
  refine ⟨⟨fun other id hv => h.drawn other id (hleft hv), fun id field hresp => ?_, h.presented⟩,
    h.picked, h.saved, fun f hf id hv => h.shown f hf id (hleft hv), h.ended⟩
  change s.firstResponder = some (id, field) at hresp
  obtain ⟨row, hv, htakes⟩ := h.responder id field hresp
  refine ⟨row, ?_, htakes⟩
  have hne : row ≠ indexPath := by
    rintro rfl
    exact hedited (by simp [hresp, hv])
  exact (Function.update_of_ne hne _ _).trans hv

theorem Kept.begin (h : Kept s entered) (htouch : s.takesTouches = true)
    (hnone : s.firstResponder = none) (indexPath : IndexPath) (field : CellField) :
    Kept (s.beginEditing indexPath field) entered := by
  unfold beginEditing
  split
  · exact h
  · rename_i id hv
    split_ifs with htakes
    · have hpresented : s.presented = none := by
        simp only [takesTouches, Bool.and_eq_true, Option.isNone_iff_eq_none] at htouch
        exact htouch.2
      refine ⟨⟨h.drawn, fun id' field' hresp => ?_, fun hp => absurd hpresented hp⟩, h.picked,
        h.saved, h.shown, fun f hf _ => h.ended f hf (edits_of_none hnone)⟩
      cases hresp
      exact ⟨indexPath, hv, htakes⟩
    · exact h

theorem DrawnFor.setText {indexPath : IndexPath} {cell : ApplyInfoTableViewCell}
    (h : DrawnFor indexPath cell) (field : CellField) (text : NSString) :
    DrawnFor indexPath (cell.setText field text) := by
  cases field <;> exact ⟨h.textBack, h.enabled, h.shown⟩

theorem editingChanged_of_responder {id : ℕ} {field : CellField}
    (hresp : s.firstResponder = some (id, field)) (text : NSString) :
    s.editingChanged text =
      { s with cells := Function.update s.cells id ((s.cells id).setText field text) } := by
  rw [editingChanged, hresp]

theorem edits_editingChanged (text : NSString) (f : Field) :
    (s.editingChanged text).edits f = s.edits f := by
  rcases hresp : s.firstResponder with _ | ⟨id, field⟩
  · rw [editingChanged, hresp]
  · simp [edits, editingChanged, hresp]

theorem Table.type (h : Table s) (text : NSString) : Table (s.editingChanged text) := by
  rcases hresp : s.firstResponder with _ | ⟨id, field⟩
  · rw [editingChanged, hresp]
    exact h
  rw [editingChanged_of_responder hresp]
  refine ⟨fun row id' hv => ?_, fun id' field' hresp' => ?_, h.presented⟩
  · simp only
    rcases eq_or_ne id' id with rfl | hne
    · rw [Function.update_self]
      exact (h.drawn row id' hv).setText field text
    · rw [Function.update_of_ne hne]
      exact h.drawn row id' hv
  · obtain ⟨row, hv, htakes⟩ := h.responder id' field' hresp'
    refine ⟨row, hv, ?_⟩
    simp only
    rcases eq_or_ne id' id with rfl | hne
    · rwa [Function.update_self, ApplyInfoTableViewCell.takes_setText]
    · rwa [Function.update_of_ne hne]

/-- A field typed elsewhere than in the text field under edit is not the one edited. -/
theorem edits_of_typedIn_ne {id : ℕ} {field : CellField} {f : Field}
    (hresp : s.firstResponder = some (id, field)) (hf : f.typedIn ≠ some field) :
    s.edits f = false := by
  refine Bool.eq_false_iff.mpr fun hf' => ?_
  obtain ⟨id', field', hresp', -, htyped⟩ := edits_iff.mp hf'
  rw [hresp] at hresp'
  cases hresp'
  exact hf htyped

/-- A text typed in the field being edited. -/
theorem Kept.type (h : Kept s entered) (text : NSString) :
    Kept (s.editingChanged text) (fun f => if s.edits f = true then text else entered f) := by
  rcases hresp : s.firstResponder with _ | ⟨id, field⟩
  · have hsame : (fun f => if s.edits f = true then text else entered f) = entered := by
      funext f
      simp [edits_of_none hresp]
    rw [hsame, editingChanged, hresp]
    exact h
  have htable := h.toTable.type text
  have hedits : ∀ f, (s.editingChanged text).edits f = s.edits f := edits_editingChanged text
  rw [editingChanged_of_responder hresp] at htable hedits ⊢
  refine ⟨htable, fun f hf => ?_, h.saved, fun f hf id' hv => ?_, fun f hf he => ?_⟩
  · simp only [edits_of_typedIn_ne (f := f) hresp (by simp [hf]), Bool.false_eq_true, if_false]
    exact h.picked f hf
  · simp only at hv ⊢
    rcases eq_or_ne id' id with rfl | hne
    · rw [Function.update_self]
      cases field with
      | textFiled =>
        have hf' : s.edits f = true :=
          edits_iff.mpr ⟨id', .textFiled, hresp, (h.drawn _ _ hv).textBack.symm, hf⟩
        rw [if_pos hf']
        rfl
      | bottomTextFiled =>
        rw [edits_of_typedIn_ne hresp (by simp [hf]), if_neg (by simp)]
        exact h.shown f hf id' hv
    · have hf' : s.edits f ≠ true := by
        intro hf'
        obtain ⟨id₀, field₀, hresp₀, hv₀, -⟩ := h.visible_of_edits hf'
        rw [hresp] at hresp₀
        rw [hv₀] at hv
        cases hresp₀
        cases hv
        exact hne rfl
      rw [Function.update_of_ne hne, if_neg hf']
      exact h.shown f hf id' hv
  · rw [hedits] at he
    simp only [he, Bool.false_eq_true, if_false]
    exact h.ended f hf he

/-! ### Checks -/

theorem Kept.check (h : Kept s entered) : Kept s.checkButtonEnble entered := by
  have hmodel : ∀ f, f.typedIn ≠ some .bottomTextFiled →
      s.checkButtonEnble.custInfoModel f = s.custInfoModel f := by
    intro f hf
    cases f <;> first | rfl | exact absurd rfl hf
  refine ⟨⟨h.drawn, h.responder, h.presented⟩, fun f hf => ?_, fun f hf => ?_, h.shown,
    fun f hf he => ?_⟩
  · rw [hmodel f (by simp [hf])]
    exact h.picked f hf
  · rw [hmodel f (by simp [hf])]
    exact h.saved f hf
  · rw [hmodel f (by simp [hf])]
    exact h.ended f hf he

theorem textBack_ownRow {f : Field} (hf : f.typedIn = some .textFiled) (text : NSString) :
    s.textBack f.ownRow text = checkButtonEnble { s with
      selectArray := Function.update s.selectArray f.ownRow text
      custInfoModel := Function.update s.custInfoModel f (some text) } := by
  cases f <;> first | rfl | cases hf

/-- The text of the field under edit is taken, and the focus given up. -/
theorem Kept.save (h : Kept s entered) {f : Field} (hf : f.typedIn = some .textFiled)
    (hedits : ∀ g, g.typedIn = some .textFiled → g ≠ f → s.edits g = false) :
    Kept { s with
      selectArray := Function.update s.selectArray f.ownRow (entered f)
      custInfoModel := Function.update s.custInfoModel f (some (entered f))
      firstResponder := none } entered := by
  refine ⟨⟨h.drawn, by simp, by simp⟩, fun g hg => ?_, fun g hg => ?_, h.shown, fun g hg _ => ?_⟩
  · have hne : g ≠ f := by
      rintro rfl
      rw [hf] at hg
      cases hg
    simp only [Function.update_of_ne hne]
    exact h.picked g hg
  · rcases eq_or_ne g f with rfl | hne
    · simp only [Function.update_self]
      rfl
    · have hrow : g.ownRow ≠ f.ownRow := fun hrow => hne (Field.eq_of_ownRow hg hf hrow)
      simp only [Function.update_of_ne hne, Function.update_of_ne hrow]
      exact h.saved g hg
  · rcases eq_or_ne g f with rfl | hne
    · simp only [Function.update_self]
      rfl
    · simp only [Function.update_of_ne hne]
      exact h.ended g hg (hedits g hg hne)

theorem Kept.endEditing (h : Kept s entered) : Kept s.endEditing entered := by
  unfold ApplicationInformationViewController.endEditing
  split
  · rename_i id hresp
    obtain ⟨f, hf, hrow, hv⟩ := h.exists_edits hresp
    rw [← hrow, h.shown f hf id hv, textBack_ownRow hf]
    refine (h.save hf fun g hg hne => Bool.eq_false_iff.mpr fun hg' => ?_).check
    obtain ⟨id', field', hresp', hrow', -⟩ := edits_iff.mp hg'
    rw [hresp] at hresp'
    cases hresp'
    exact hne (Field.eq_of_ownRow hg hf (hrow'.trans hrow.symm))
  · rename_i hother
    refine ⟨⟨h.drawn, by simp, by simp⟩, h.picked, h.saved, h.shown, fun f hf _ => ?_⟩
    refine h.ended f hf (Bool.eq_false_iff.mpr fun hf' => ?_)
    obtain ⟨id, field, hresp, -, htyped⟩ := edits_iff.mp hf'
    rw [hf] at htyped
    cases htyped
    exact hother id hresp

/-! ### Picks -/

theorem nodup_dataSource (indexPath : IndexPath) : (dataSource indexPath).Nodup := by
  revert indexPath
  decide

/-- A choice is kept by its place. -/
theorem stringPicked_eq {indexPath : IndexPath} {i : ℕ} (hi : i < (dataSource indexPath).length)
    (field : Field) : s.stringPicked indexPath field i = { s with
      selectArray := Function.update s.selectArray indexPath (dataSource indexPath)[i]
      custInfoModel := Function.update s.custInfoModel field (some (natDigits i)) } := by
  rw [stringPicked, List.getElem?_eq_getElem hi]
  simp only [(nodup_dataSource indexPath).idxOf_getElem]

/-- A pick sets the text of its row and the fields of the row it has a value for. -/
theorem resultBlock_cases {indexPath : IndexPath} {pick : Pick} (h : fits indexPath pick = true) :
    indexPath ≠ (1, 0) ∧ indexPath ≠ (1, 3) ∧
      ∃ text custInfoModel, s.resultBlock indexPath pick = { s with
        selectArray := Function.update s.selectArray indexPath text, custInfoModel } ∧
        ∀ f, custInfoModel f = if indexPath = f.ownRow then (pick.value f).or (s.custInfoModel f)
          else s.custInfoModel f := by
  cases pick with
  | selectValue i =>
    have hi : i < (dataSource indexPath).length := by simpa [fits] using h
    have hrow : ∀ row, 0 < (dataSource row).length →
        row = (0, 0) ∨ row = (0, 1) ∨ row = (1, 2) ∨ row = (1, 4) := by decide
    rcases hrow _ (Nat.zero_lt_of_lt hi) with rfl | rfl | rfl | rfl <;>
      exact ⟨by decide, by decide, _, _, stringPicked_eq hi _, fun f => by cases f <;> rfl⟩
  | address p c a =>
    simp only [fits, Bool.or_eq_true, decide_eq_true_eq] at h
    rcases h with rfl | rfl <;>
      exact ⟨by decide, by decide, _, _, rfl, fun f => by cases f <;> rfl⟩
  | contact name mobile =>
    simp only [fits, Bool.or_eq_true, decide_eq_true_eq] at h
    rcases h with rfl | rfl <;>
      exact ⟨by decide, by decide, _, _, rfl, fun f => by cases f <;> rfl⟩

/-- A pick enters its values in the fields of its row. -/
theorem Kept.pick (h : Kept s entered) {indexPath : IndexPath} {pick : Pick}
    (hpresented : s.presented = some indexPath) (hfit : fits indexPath pick = true) :
    Kept (s.picked indexPath pick) fun f => (s.enters (.picked pick) f).getD (entered f) := by
  obtain ⟨hcorp, hjob, text, custInfoModel, hblock, hmodel⟩ := resultBlock_cases (s := s) hfit
  have hnone : s.firstResponder = none := h.presented (by simp [hpresented])
  have henters : ∀ f, s.enters (.picked pick) f =
      if indexPath = f.ownRow then pick.value f else none := by
    intro f
    rw [enters, hpresented]
    rcases eq_or_ne indexPath f.ownRow with rfl | hne
    · simp [hfit]
    · simp [hne]
  -- a field typed in its row is in another row
  have hrow : ∀ f : Field, f.typedIn = some .textFiled → indexPath ≠ f.ownRow := by
    intro f hf
    cases f <;> first | exact hcorp | exact hjob | cases hf
  rw [ApplicationInformationViewController.picked, hblock]
  apply Kept.check
  refine ⟨⟨by simp [reloadData], fun id field hresp => ?_, by simp [reloadData]⟩, fun f hf => ?_,
    fun f hf => ?_, by simp [reloadData], fun f hf _ => ?_⟩
  · change s.firstResponder = some (id, field) at hresp
    rw [hnone] at hresp
    cases hresp
  · change emptyIfNilStr (custInfoModel f) = _
    rw [hmodel, henters]
    split_ifs
    · rcases pick.value f with _ | v
      · exact h.picked f hf
      · rfl
    · exact h.picked f hf
  · change Function.update s.selectArray indexPath text f.ownRow = emptyIfNilStr (custInfoModel f)
    rw [hmodel, if_neg (hrow f hf), Function.update_of_ne (hrow f hf).symm]
    exact h.saved f hf
  · change emptyIfNilStr (custInfoModel f) = _
    rw [hmodel, henters, if_neg (hrow f hf), if_neg (hrow f hf)]
    exact h.ended f hf (edits_of_none hnone)

/-! ### Steps -/

/-- A touch on the submit button sends the dictionary, if the button takes it. -/
theorem nextButtonClick_cases (h : machine.step s .nextButtonClick = some (s', os)) :
    (s.takesTouches = true ∧ s.nextButEnabled = true) ∧ (∃ dataDic, s.dataDic = some dataDic ∧
      s' = { s with
        nextId := s.nextId + 1
        inFlight := s.inFlight ++ [{ id := s.nextId, dataDic }] } ∧
      os = [.useCustAuthCustInfoUp { id := s.nextId, dataDic }]) ∨
    ¬ (s.takesTouches = true ∧ s.nextButEnabled = true) ∧ s' = s ∧ os = [] := by
  simp only [machine, step, Bool.and_eq_true] at h
  split_ifs at h with htouch
  · obtain ⟨dataDic, hdic, heq⟩ := Option.map_eq_some_iff.mp h
    cases heq
    exact .inl ⟨htouch, dataDic, hdic, rfl, rfl⟩
  · cases h
    exact .inr ⟨htouch, rfl, rfl⟩

/-- A reply opens the next screen at most. -/
theorem reply_frame {id : ℕ} {body : Reply Unit}
    (h : machine.step s (.reply id body) = some (s', os)) :
    os = [] ∧ ∃ pushed inFlight, s' = { s with pushed, inFlight } := by
  simp only [machine, step] at h
  split_ifs at h
  · cases h
    refine ⟨rfl, ?_⟩
    unfold completion
    split <;> exact ⟨_, _, rfl⟩
  · cases h
    exact ⟨rfl, s.pushed, s.inFlight, rfl⟩

theorem Kept.frame (h : Kept s entered) (pushed : List Evaluation.Screen) (popped : Bool)
    (nextId : ℕ) (inFlight : List Request) :
    Kept { s with pushed, popped, nextId, inFlight } entered :=
  ⟨⟨h.drawn, h.responder, h.presented⟩, h.picked, h.saved, h.shown, h.ended⟩

/-- A picker or an alert is up over a form that nobody edits, or none is. -/
theorem Kept.present (h : Kept s entered) {presented : Option IndexPath}
    (hnone : presented ≠ none → s.firstResponder = none) : Kept { s with presented } entered :=
  ⟨⟨h.drawn, h.responder, hnone⟩, h.picked, h.saved, h.shown, h.ended⟩

theorem firstResponder_endEditing (s : ApplicationInformationViewController) :
    s.endEditing.firstResponder = none := by
  unfold ApplicationInformationViewController.endEditing
  split <;> rfl

theorem kept_step (h : Kept s entered) (hstep : machine.step s e = some (s', os)) :
    Kept s' fun f => (s.enters e f).getD (entered f) := by
  cases e with
  | nofiticationCLick arr =>
    cases hstep
    exact h
  | cellForRowAtIndexPath indexPath id =>
    cases hstep
    split_ifs with hdraw
    · exact h.draw hdraw
    · exact h
  | didEndDisplayingCell indexPath =>
    cases hstep
    exact h.endDisplaying indexPath
  | didSelectRowAtIndexPath indexPath =>
    cases hstep
    split_ifs
    · unfold didSelectRowAtIndexPath
      split_ifs
      · exact h.endEditing
      · exact h.endEditing.present fun _ => firstResponder_endEditing s
    · exact h
  | picked pick =>
    cases hstep
    split
    · rename_i indexPath hpresented
      split_ifs with hfit
      · exact h.pick hpresented hfit
      · have hsame : ∀ f, s.enters (.picked pick) f = none := by
          intro f
          rw [enters, if_neg]
          simp only [hpresented, Bool.and_eq_true, decide_eq_true_eq, Option.some.injEq, not_and]
          rintro rfl
          exact hfit
        simpa only [hsame, Option.getD_none] using h
    · rename_i hpresented
      simpa [enters, hpresented] using h
  | cancelled =>
    cases hstep
    exact h.present (by simp)
  | didBeginEditing indexPath field =>
    cases hstep
    split_ifs with htouch
    · simp only [Bool.and_eq_true, Option.isNone_iff_eq_none] at htouch
      exact h.begin htouch.1 htouch.2 indexPath field
    · exact h
  | editingChanged text =>
    cases hstep
    split_ifs with htouch
    · have hentered : (fun f => (s.enters (.editingChanged text) f).getD (entered f)) =
          fun f => if s.edits f = true then text else entered f := by
        funext f
        simp only [enters, htouch, Bool.true_and]
        split_ifs <;> rfl
      rw [hentered]
      exact h.type text
    · simpa [enters, htouch] using h
  | endEditing =>
    cases hstep
    exact h.endEditing
  | nextButtonClick =>
    obtain ⟨-, dataDic, -, rfl, -⟩ | ⟨-, rfl, -⟩ := nextButtonClick_cases hstep
    · exact h.frame _ _ _ _
    · exact h
  | reply id body =>
    obtain ⟨-, pushed, inFlight, rfl⟩ := reply_frame hstep
    exact h.frame _ _ _ _
  | pop =>
    cases hstep
    unfold pop
    split
    · exact h.frame _ _ _ _
    · exact h.frame _ _ _ _

end LeYiDai.Application
