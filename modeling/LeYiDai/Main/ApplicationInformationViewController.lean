import LeYiDai.Foundation.Numerals
import LeYiDai.Lib.Machine
import LeYiDai.Main.EvaluationViewController
import Mathlib.Data.Fintype.Prod
import Mathlib.Logic.Function.Basic

/-! ApplicationInformationViewController: the data of the credit application, in a table of two
    sections of five rows. Ten fields come from pickers and alerts, the company and the job from the
    text field of their row, the two addresses from a second text field that only their rows show.
    A reload takes every cell off the table; a row is drawn again in any cell that shows no row, and
    what was typed in the second field of a cell stays in it. -/

namespace LeYiDai.Application

open Evaluation (Screen)
open Navigation (pushOnto)

/-- Section and row. -/
abbrev IndexPath := Fin 2 × Fin 5

/-- The properties of `CustInfoUpModel`. -/
inductive Field where
  | custEducation | custMarrsign | custAreacode | custAddr | relation1Mobile | relation1Name
  | relation2Mobile | relation2Name | custCorpration | workAreacode | workAddr | custCorpkind
  | custJob | custIncome
  deriving DecidableEq

namespace Field

def all : List Field :=
  [.custEducation, .custMarrsign, .custAreacode, .custAddr, .relation1Mobile, .relation1Name,
    .relation2Mobile, .relation2Name, .custCorpration, .workAreacode, .workAddr, .custCorpkind,
    .custJob, .custIncome]

theorem mem_all (f : Field) : f ∈ all := by cases f <;> decide

/-- The row a field is entered in. -/
def ownRow : Field → IndexPath
  | .custEducation => (0, 0)
  | .custMarrsign => (0, 1)
  | .custAreacode | .custAddr => (0, 2)
  | .relation1Name | .relation1Mobile => (0, 3)
  | .relation2Name | .relation2Mobile => (0, 4)
  | .custCorpration => (1, 0)
  | .workAreacode | .workAddr => (1, 1)
  | .custCorpkind => (1, 2)
  | .custJob => (1, 3)
  | .custIncome => (1, 4)

end Field

abbrev CustInfoUpModel := Field → Option NSString

/-- The two text fields of a cell. -/
inductive CellField where | textFiled | bottomTextFiled
  deriving DecidableEq

/-- `textBack` is the row its block was made for. -/
structure ApplyInfoTableViewCell where
  textFiled : NSString
  textFiledEnabled : Bool
  bottomTextFiled : NSString
  bottomTextFiledHidden : Bool
  textBack : IndexPath

namespace ApplyInfoTableViewCell

/-- A cell that no row was drawn in yet. -/
def new : ApplyInfoTableViewCell where
  textFiled := []
  textFiledEnabled := true
  bottomTextFiled := []
  bottomTextFiledHidden := false
  textBack := (0, 0)

/-- The field can be edited. -/
def takes (cell : ApplyInfoTableViewCell) : CellField → Bool
  | .textFiled => cell.textFiledEnabled
  | .bottomTextFiled => !cell.bottomTextFiledHidden

def setText (cell : ApplyInfoTableViewCell) (field : CellField) (text : NSString) :
    ApplyInfoTableViewCell :=
  match field with
  | .textFiled => { cell with textFiled := text }
  | .bottomTextFiled => { cell with bottomTextFiled := text }

@[simp] theorem textBack_setText (cell : ApplyInfoTableViewCell) (field : CellField)
    (text : NSString) : (cell.setText field text).textBack = cell.textBack := by
  cases field <;> rfl

@[simp] theorem takes_setText (cell : ApplyInfoTableViewCell) (field other : CellField)
    (text : NSString) : (cell.setText field text).takes other = cell.takes other := by
  cases field <;> cases other <;> rfl

end ApplyInfoTableViewCell

/-- A province, a city or an area of the address picker. -/
structure Region where
  name : Option NSString
  code : Option NSString

/-- What a picker or an alert gives when it is confirmed. -/
inductive Pick where
  | selectValue (i : ℕ)
  | address (province city area : Region)
  | contact (name mobile : NSString)

/-- The dictionary `nextButtonClick` sends. -/
structure DataDic where
  userId : Json
  custInfo : Field → NSString

structure Request where
  id : ℕ
  dataDic : DataDic

inductive Sent where
  | custInfoPhoneBookInsert (userId : Json) (data : List Json)
  | useCustAuthCustInfoUp (r : Request)

/-- `cells` holds the cells by number, `visible` says which one shows a row, and the two address
    pointers name the cell whose second field they point to. `presented` is the row whose picker or
    alert is up. -/
structure ApplicationInformationViewController where
  userId : Json
  custInfoModel : CustInfoUpModel
  selectArray : IndexPath → NSString
  cells : ℕ → ApplyInfoTableViewCell
  visible : IndexPath → Option ℕ
  houseAddressTextFile : Option ℕ
  workAddressTextFile : Option ℕ
  firstResponder : Option (ℕ × CellField)
  presented : Option IndexPath
  nextButEnabled : Bool
  pushed : List Screen
  popped : Bool
  nextId : ℕ
  inFlight : List Request

inductive Event where
  | nofiticationCLick (arr : List Json)
  | cellForRowAtIndexPath (indexPath : IndexPath) (cell : ℕ)
  | didEndDisplayingCell (indexPath : IndexPath)
  | didSelectRowAtIndexPath (indexPath : IndexPath)
  | picked (pick : Pick)
  | cancelled
  | didBeginEditing (indexPath : IndexPath) (field : CellField)
  | editingChanged (text : NSString)
  | endEditing
  | nextButtonClick
  | reply (id : ℕ) (body : Reply Unit)
  | pop

/-- The choices of a row with a string picker: `custEducationArray`, `custMarrsignArray`,
    `custCorpkindArray` and `custIncomeArray`. -/
def dataSource : IndexPath → List NSString
  | (0, 0) => [ns "大专以下", ns "大专", ns "本科", ns "本科以上"]
  | (0, 1) => [ns "未婚", ns "已婚", ns "离异"]
  | (1, 2) => [ns "国企", ns "私企", ns "外企", ns "其他"]
  | (1, 4) => [ns "3000以下", ns "3000-5000", ns "5000-10000", ns "1万以上"]
  | _ => []

/-- The picker or alert of the row can give the pick. -/
def fits (indexPath : IndexPath) : Pick → Bool
  | .selectValue i => i < (dataSource indexPath).length
  | .address _ _ _ => indexPath = (0, 2) || indexPath = (1, 1)
  | .contact _ _ => indexPath = (0, 3) || indexPath = (0, 4)

namespace ApplicationInformationViewController

/-- `viewDidLoad`. -/
def viewDidLoad (userId : Json) : ApplicationInformationViewController where
  userId := userId
  custInfoModel := fun _ => none
  selectArray := fun _ => []
  cells := fun _ => ApplyInfoTableViewCell.new
  visible := fun _ => none
  houseAddressTextFile := none
  workAddressTextFile := none
  firstResponder := none
  presented := none
  nextButEnabled := false
  pushed := []
  popped := false
  nextId := 0
  inFlight := []

/-- The text of the field an address pointer points to; `nil` has no text. -/
def addressText (s : ApplicationInformationViewController) (textFile : Option ℕ) :
    Option NSString :=
  textFile.map fun cell => (s.cells cell).bottomTextFiled

def checkButtonEnble (s : ApplicationInformationViewController) :
    ApplicationInformationViewController :=
  let custInfoModel := Function.update s.custInfoModel .custAddr
    (s.addressText s.houseAddressTextFile)
  let custInfoModel := Function.update custInfoModel .workAddr
    (s.addressText s.workAddressTextFile)
  { s with
    custInfoModel
    nextButEnabled := !(Field.all.any fun f => isNilStr (custInfoModel f)) }

/-- `tableView:cellForRowAtIndexPath:`, with the cell that was dequeued or made. The text of
    `bottomTextFiled` is left as it is. -/
def cellForRowAtIndexPath (indexPath : IndexPath) (id : ℕ)
    (s : ApplicationInformationViewController) : ApplicationInformationViewController :=
  { s with
    cells := Function.update s.cells id { s.cells id with
      textFiled := s.selectArray indexPath
      textFiledEnabled := indexPath = (1, 0) || indexPath = (1, 3)
      bottomTextFiledHidden := !(indexPath = (0, 2) || indexPath = (1, 1))
      textBack := indexPath }
    visible := Function.update s.visible indexPath (some id)
    houseAddressTextFile := if indexPath = (0, 2) then some id else s.houseAddressTextFile
    workAddressTextFile := if indexPath = (1, 1) then some id else s.workAddressTextFile }

/-- The block `textBack`. It looks at the row, not at the section. -/
def textBack (indexPath : IndexPath) (textStr : NSString)
    (s : ApplicationInformationViewController) : ApplicationInformationViewController :=
  checkButtonEnble <|
    if indexPath.2 = 0 then { s with
      selectArray := Function.update s.selectArray (1, 0) textStr
      custInfoModel := Function.update s.custInfoModel .custCorpration (some textStr) }
    else if indexPath.2 = 3 then { s with
      selectArray := Function.update s.selectArray (1, 3) textStr
      custInfoModel := Function.update s.custInfoModel .custJob (some textStr) }
    else s

/-- The field being edited gives the focus up. Only `textFiled` has the cell as its delegate, whose
    `textFieldShouldEndEditing:` calls `textBack`. -/
def endEditing (s : ApplicationInformationViewController) : ApplicationInformationViewController :=
  match s.firstResponder with
  | some (id, .textFiled) =>
    { s.textBack (s.cells id).textBack (s.cells id).textFiled with firstResponder := none }
  | _ => { s with firstResponder := none }

/-- The lines of a string picker's result block. -/
def stringPicked (indexPath : IndexPath) (field : Field) (i : ℕ)
    (s : ApplicationInformationViewController) : ApplicationInformationViewController :=
  match (dataSource indexPath)[i]? with
  | none => s
  | some selectValue => { s with
      selectArray := Function.update s.selectArray indexPath selectValue
      custInfoModel := Function.update s.custInfoModel field
        (some (natDigits ((dataSource indexPath).idxOf selectValue))) }

/-- The lines of an address picker's result block. -/
def addressPicked (indexPath : IndexPath) (field : Field) (province city area : Region)
    (s : ApplicationInformationViewController) : ApplicationInformationViewController :=
  { s with
    selectArray := Function.update s.selectArray indexPath
      (fmtStr province.name ++ fmtStr city.name ++ fmtStr area.name)
    custInfoModel := Function.update s.custInfoModel field
      (some (fmtStr province.code ++ fmtStr city.code ++ fmtStr area.code)) }

/-- The lines of a contact alert's handler. -/
def contactAdded (indexPath : IndexPath) (nameField mobileField : Field) (name mobile : NSString)
    (s : ApplicationInformationViewController) : ApplicationInformationViewController :=
  { s with
    selectArray := Function.update s.selectArray indexPath (name ++ ns " " ++ mobile)
    custInfoModel := Function.update (Function.update s.custInfoModel nameField (some name))
      mobileField (some mobile) }

/-- What the blocks of `tableView:didSelectRowAtIndexPath:` set, row by row. -/
def resultBlock (indexPath : IndexPath) (pick : Pick) (s : ApplicationInformationViewController) :
    ApplicationInformationViewController :=
  match indexPath, pick with
  | (0, 0), .selectValue i => s.stringPicked (0, 0) .custEducation i
  | (0, 1), .selectValue i => s.stringPicked (0, 1) .custMarrsign i
  | (0, 2), .address p c a => s.addressPicked (0, 2) .custAreacode p c a
  | (0, 3), .contact name mobile =>
    s.contactAdded (0, 3) .relation1Name .relation1Mobile name mobile
  | (0, 4), .contact name mobile =>
    s.contactAdded (0, 4) .relation2Name .relation2Mobile name mobile
  | (1, 1), .address p c a => s.addressPicked (1, 1) .workAreacode p c a
  | (1, 2), .selectValue i => s.stringPicked (1, 2) .custCorpkind i
  | (1, 4), .selectValue i => s.stringPicked (1, 4) .custIncome i
  | _, _ => s

/-- Every cell leaves the table until its row is drawn again. -/
def reloadData (s : ApplicationInformationViewController) : ApplicationInformationViewController :=
  { s with visible := fun _ => none }

/-- A picker or an alert is confirmed: every block ends in a reload and a check. -/
def picked (indexPath : IndexPath) (pick : Pick) (s : ApplicationInformationViewController) :
    ApplicationInformationViewController :=
  checkButtonEnble (reloadData { s.resultBlock indexPath pick with presented := none })

/-- `tableView:didSelectRowAtIndexPath:`. The rows of the company and the job present nothing. -/
def didSelectRowAtIndexPath (indexPath : IndexPath) (s : ApplicationInformationViewController) :
    ApplicationInformationViewController :=
  if indexPath = (1, 0) ∨ indexPath = (1, 3) then s.endEditing
  else { s.endEditing with presented := some indexPath }

/-- The dictionary of `nextButtonClick`. A property that is `nil` raises. -/
def dataDic (s : ApplicationInformationViewController) : Option DataDic :=
  if Field.all.all fun f => (s.custInfoModel f).isSome then
    some { userId := s.userId, custInfo := fun f => emptyIfNilStr (s.custInfoModel f) }
  else none

def nextButtonClick (s : ApplicationInformationViewController) :
    Option (ApplicationInformationViewController × List Sent) :=
  s.dataDic.map fun dataDic =>
    let r : Request := { id := s.nextId, dataDic }
    ({ s with nextId := s.nextId + 1, inFlight := s.inFlight ++ [r] }, [.useCustAuthCustInfoUp r])

/-- The completion block of the request. Off the stack the screen opens nothing. -/
def completion (body : Reply Unit) (s : ApplicationInformationViewController) :
    ApplicationInformationViewController :=
  match body, s.popped with
  | .result _, false => { s with pushed := pushOnto id .finishAuthen s.pushed }
  | _, _ => s

/-- `popViewControllerAnimated:` on the stack this screen is on. -/
def pop (s : ApplicationInformationViewController) : ApplicationInformationViewController :=
  match s.pushed with
  | [] => { s with popped := true }
  | _ :: rest => { s with pushed := rest }

/-- The screen is on top of the stack and no picker or alert covers it. -/
def takesTouches (s : ApplicationInformationViewController) : Bool :=
  !s.popped && s.pushed.isEmpty && s.presented.isNone

/-- A cell can show a row when it shows none and the row is not shown. -/
def canDraw (s : ApplicationInformationViewController) (indexPath : IndexPath) (id : ℕ) : Bool :=
  s.visible indexPath = none && decide (∀ other, s.visible other ≠ some id)

/-- A field of a row on the table takes the focus. -/
def beginEditing (indexPath : IndexPath) (field : CellField)
    (s : ApplicationInformationViewController) : ApplicationInformationViewController :=
  match s.visible indexPath with
  | none => s
  | some id => if (s.cells id).takes field then { s with firstResponder := some (id, field) } else s

/-- The field being edited holds a new text. -/
def editingChanged (text : NSString) (s : ApplicationInformationViewController) :
    ApplicationInformationViewController :=
  match s.firstResponder with
  | none => s
  | some (id, field) =>
    { s with cells := Function.update s.cells id ((s.cells id).setText field text) }

/-- A row leaves the table, unless it is being edited. -/
def didEndDisplayingCell (indexPath : IndexPath) (s : ApplicationInformationViewController) :
    ApplicationInformationViewController :=
  if s.firstResponder.any fun p => s.visible indexPath = some p.1 then s
  else { s with visible := Function.update s.visible indexPath none }

/-- One event. -/
def step (s : ApplicationInformationViewController) :
    Event → Option (ApplicationInformationViewController × List Sent)
  | .nofiticationCLick arr =>
    some (s, if 0 < arr.length then [.custInfoPhoneBookInsert s.userId arr] else [])
  | .cellForRowAtIndexPath indexPath id =>
    some (if s.canDraw indexPath id then s.cellForRowAtIndexPath indexPath id else s, [])
  | .didEndDisplayingCell indexPath => some (s.didEndDisplayingCell indexPath, [])
  | .didSelectRowAtIndexPath indexPath =>
    some (if s.takesTouches && (s.visible indexPath).isSome then
      s.didSelectRowAtIndexPath indexPath else s, [])
  | .picked pick =>
    some (match s.presented with
      | some indexPath => if fits indexPath pick then s.picked indexPath pick else s
      | none => s, [])
  | .cancelled => some ({ s with presented := none }, [])
  | .didBeginEditing indexPath field =>
    some (if s.takesTouches && s.firstResponder.isNone then s.beginEditing indexPath field else s,
      [])
  | .editingChanged text => some (if s.takesTouches then s.editingChanged text else s, [])
  | .endEditing => some (s.endEditing, [])
  | .nextButtonClick =>
    if s.takesTouches && s.nextButEnabled then s.nextButtonClick else some (s, [])
  | .reply id body =>
    if s.inFlight.any (·.id = id) then
      some ({ s with inFlight := s.inFlight.filter (·.id ≠ id) }.completion body, [])
    else some (s, [])
  | .pop => some (s.pop, [])

def machine : Machine ApplicationInformationViewController Event Sent := ⟨step⟩

end ApplicationInformationViewController

end LeYiDai.Application
