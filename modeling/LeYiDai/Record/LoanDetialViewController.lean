import LeYiDai.Foundation.Values
import Mathlib.Tactic.Common

/-! LoanDetialViewController: the detail screen of a loan. The state of the loan picks a record
    type, the record type the labels of a view made on first use, and the controller hands the view
    the values by position.

        lendState  type        views and what they are handed
        2          Loanning    loanView
        3          Useing      loanView, loanDetialView (amount, period)
        5          Settlement  loanDetialView (amount, period, method), repaymentDetialView (real)
        4          Default     loanDetialView (amount, period, method), repaymentDetialView (real)

    A view of type Default has the labels of what is due; in state 4 both views have them. -/

namespace LeYiDai.LoanDetial

inductive RecordType where | loanning | useing | settlement | repayment | default
  deriving DecidableEq

structure LoanAccountInfo where
  beginDate : Option NSString
  endDate : Option NSString
  loanAmount : Option NSString
  retuKind_dictText : Option NSString
  realCapiSum : Option NSString
  realInte : Option NSString
  realFeeSum : Option NSString
  dueCapiSum : Option NSString
  dueInte : Option NSString
  dueFeeSum : Option NSString
  deriving DecidableEq

structure LoanDetialInfoModel where
  lendState : ℤ
  loanAccountInfo : Option LoanAccountInfo
  deriving DecidableEq

/-- A string of the account as the screen shows it: nothing where it is missing. -/
def LoanDetialInfoModel.shown (info : LoanDetialInfoModel)
    (field : LoanAccountInfo → Option NSString) : NSString :=
  emptyIfNilStr (info.loanAccountInfo.bind field)

/-- `%@到%@` of the two dates. -/
def LoanDetialInfoModel.period (info : LoanDetialInfoModel) : NSString :=
  fmtStr (info.loanAccountInfo.bind (·.beginDate)) ++ ns "到" ++
    fmtStr (info.loanAccountInfo.bind (·.endDate))

/-- A label, and the text on its right unless an arrow stands there. -/
structure Row where
  left : NSString
  right : Option NSString
  deriving DecidableEq

/-! ### The views -/

structure LoanDetialView where
  detialRecordType : Option RecordType
  titLab : NSString
  rows : List Row
  deriving DecidableEq

def LoanDetialView.initWithType (recordType : Option RecordType) : LoanDetialView :=
  { detialRecordType := recordType, titLab := [], rows := [] }

/-- The title and the labels `creatDetialUI:` picks. -/
def leftArr : Option RecordType → NSString × List NSString
  | some .settlement => (ns "借款明细", [ns "借款金额", ns "合同期限", ns "还款方式"])
  | some .useing => (ns "借款明细", [ns "借款金额", ns "合同期限"])
  | some .repayment => (ns "还款明细", [ns "已还本金", ns "已还利息", ns "服务费"])
  | some .default => (ns "违约还款明细", [ns "未还本金", ns "未还利息", ns "违约金"])
  | some .loanning | none => ([], [])

/-- `creatDetialUI:`: a label for each name, beside it the value at its place, which has to be
    there. -/
def LoanDetialView.creatDetialUI (array : List NSString) (v : LoanDetialView) :
    Option LoanDetialView :=
  let (title, names) := leftArr v.detialRecordType
  if array.length < names.length then none
  else some { v with
    titLab := title
    rows := v.rows ++ List.zipWith (fun left right => ⟨left, some right⟩) names array }

structure RecordDetialLoanView where
  detialRecordType : Option RecordType
  rows : List Row
  deriving DecidableEq

def RecordDetialLoanView.initWithType (recordType : Option RecordType) : RecordDetialLoanView :=
  { detialRecordType := recordType, rows := [] }

/-- `setRedordViewData:`. In use the rows are two buttons with arrows. -/
def RecordDetialLoanView.setRedordViewData (info : LoanDetialInfoModel) (v : RecordDetialLoanView) :
    RecordDetialLoanView :=
  match v.detialRecordType with
  | some .loanning =>
    { v with rows := [⟨ns "借款金额", some (info.shown (·.loanAmount))⟩,
        ⟨ns "还款方式", some (info.shown (·.retuKind_dictText))⟩] }
  | some .useing => { v with rows := [⟨ns "查看还款计划", none⟩, ⟨ns "去还款", none⟩] }
  | _ => v

/-! ### The controller -/

structure LoanDetialViewController where
  titLab : NSString
  moneyLab : NSString
  detialLab : NSString
  cordType : Option RecordType
  loanView : Option RecordDetialLoanView
  loanDetialView : Option LoanDetialView
  repaymentDetialView : Option LoanDetialView
  deriving DecidableEq

namespace LoanDetialViewController

def viewDidLoad : LoanDetialViewController :=
  { titLab := [], moneyLab := [], detialLab := [], cordType := none, loanView := none
    loanDetialView := none, repaymentDetialView := none }

/-- `self.loanView`, made on first use with the record type of that moment. -/
def getLoanView (s : LoanDetialViewController) : RecordDetialLoanView :=
  s.loanView.getD (.initWithType s.cordType)

/-- `self.loanDetialView`. -/
def getLoanDetialView (s : LoanDetialViewController) : LoanDetialView :=
  s.loanDetialView.getD (.initWithType s.cordType)

/-- `self.repaymentDetialView`. -/
def getRepaymentDetialView (s : LoanDetialViewController) : LoanDetialView :=
  s.repaymentDetialView.getD (.initWithType s.cordType)

/-- `loadMoneyInfoOning`. -/
def loadMoneyInfoOning (info : LoanDetialInfoModel) (s : LoanDetialViewController) :
    LoanDetialViewController :=
  { s with loanView := some (s.getLoanView.setRedordViewData info) }

/-- The three values `moneyIsClear` and `creatBeyoundRepayTime` hand to the first view. -/
def loanValues (info : LoanDetialInfoModel) : List NSString :=
  [info.shown (·.loanAmount), info.period, info.shown (·.retuKind_dictText)]

/-- The three values they hand to the second. -/
def repaymentValues (info : LoanDetialInfoModel) : List NSString :=
  [info.shown (·.realCapiSum), info.shown (·.realInte), info.shown (·.realFeeSum)]

/-- `useMoneyNoRepaty`. -/
def useMoneyNoRepaty (info : LoanDetialInfoModel) (s : LoanDetialViewController) :
    Option LoanDetialViewController := do
  let s := { s with loanView := some (s.getLoanView.setRedordViewData info) }
  let view ← s.getLoanDetialView.creatDetialUI [info.shown (·.loanAmount), info.period]
  return { s with loanDetialView := some view }

/-- The text of `moneyIsClear` and `creatBeyoundRepayTime`, but for the type given to the second
    view. -/
def showLoanAndRepayment (repaymentType : RecordType) (info : LoanDetialInfoModel)
    (s : LoanDetialViewController) : Option LoanDetialViewController := do
  let view ← s.getLoanDetialView.creatDetialUI (loanValues info)
  let s := { s with loanDetialView := some view }
  let repayment := { s.getRepaymentDetialView with detialRecordType := some repaymentType }
  let repayment ← repayment.creatDetialUI (repaymentValues info)
  return { s with repaymentDetialView := some repayment }

def moneyIsClear : LoanDetialInfoModel → LoanDetialViewController →
    Option LoanDetialViewController :=
  showLoanAndRepayment .repayment

def creatBeyoundRepayTime : LoanDetialInfoModel → LoanDetialViewController →
    Option LoanDetialViewController :=
  showLoanAndRepayment .default

/-- `setTopViewData`, once the reply is there. -/
def setTopViewData (info : LoanDetialInfoModel) (s : LoanDetialViewController) :
    Option LoanDetialViewController :=
  let shown :=
    if info.lendState = 2 then
      some (loadMoneyInfoOning info
        { s with titLab := ns "放款中金额(元)", cordType := some .loanning })
    else if info.lendState = 3 then
      useMoneyNoRepaty info { s with
        titLab := ns "使用中金额(元)"
        detialLab := info.shown (·.retuKind_dictText)
        cordType := some .useing }
    else if info.lendState = 5 then
      moneyIsClear info { s with
        titLab := ns "已结清金额(元)"
        detialLab := ns "好借好还，再借不难"
        cordType := some .settlement }
    else if info.lendState = 4 then
      creatBeyoundRepayTime info { s with
        titLab := ns "逾期还款金额(元)"
        detialLab := ns "请及时还款，保证信用良好！"
        cordType := some .default }
    else some s
  shown.map fun s => { s with moneyLab := info.shown (·.loanAmount) }

/-- The rows of the views on the screen. -/
def rows (s : LoanDetialViewController) : List Row :=
  ((s.loanView.map (·.rows)).getD []) ++ ((s.loanDetialView.map (·.rows)).getD []) ++
    ((s.repaymentDetialView.map (·.rows)).getD [])

end LoanDetialViewController

open LoanDetialViewController

/-! ### Labels and fields -/

/-- The text of the field a label names. -/
def named (info : LoanDetialInfoModel) (left : NSString) : Option NSString :=
  if left = ns "未还本金" then some (info.shown (·.dueCapiSum))
  else if left = ns "未还利息" then some (info.shown (·.dueInte))
  else if left = ns "违约金" then some (info.shown (·.dueFeeSum))
  else if left = ns "已还本金" then some (info.shown (·.realCapiSum))
  else if left = ns "已还利息" then some (info.shown (·.realInte))
  else if left = ns "服务费" then some (info.shown (·.realFeeSum))
  else if left = ns "借款金额" then some (info.shown (·.loanAmount))
  else if left = ns "合同期限" then some info.period
  else if left = ns "还款方式" then some (info.shown (·.retuKind_dictText))
  else none

/-- What the label names, if anything, stands beside it. -/
def ShowsNamed (info : LoanDetialInfoModel) (row : Row) : Prop :=
  ∀ text ∈ named info row.left, row.right = some text

instance (info : LoanDetialInfoModel) (row : Row) : Decidable (ShowsNamed info row) :=
  inferInstanceAs (Decidable (∀ text ∈ named info row.left, row.right = some text))

/-- The texts of the fields that the labels of a record type name, in their order. -/
def namedValues (info : LoanDetialInfoModel) : RecordType → List NSString
  | .settlement => [info.shown (·.loanAmount), info.period, info.shown (·.retuKind_dictText)]
  | .useing => [info.shown (·.loanAmount), info.period]
  | .repayment => [info.shown (·.realCapiSum), info.shown (·.realInte), info.shown (·.realFeeSum)]
  | .default => [info.shown (·.dueCapiSum), info.shown (·.dueInte), info.shown (·.dueFeeSum)]
  | .loanning => []

/-- The texts that state 4 puts beside the labels of what is due read as what is due. -/
def ReadsAsDue (info : LoanDetialInfoModel) : Prop :=
  loanValues info = namedValues info .default ∧ repaymentValues info = namedValues info .default

/-! ### The rows of each state -/

variable {info : LoanDetialInfoModel}

/-- The rows that a view made with `type` shows for the values it is handed. -/
def rowsOf (type : RecordType) (values : List NSString) : List Row :=
  List.zipWith (fun left right => ⟨left, some right⟩) (leftArr (some type)).2 values

/-- The rows of the screen. -/
def detialRows (info : LoanDetialInfoModel) : List Row :=
  if info.lendState = 2 then
    [⟨ns "借款金额", some (info.shown (·.loanAmount))⟩,
      ⟨ns "还款方式", some (info.shown (·.retuKind_dictText))⟩]
  else if info.lendState = 3 then
    [⟨ns "查看还款计划", none⟩, ⟨ns "去还款", none⟩] ++
      rowsOf .useing [info.shown (·.loanAmount), info.period]
  else if info.lendState = 5 then
    rowsOf .settlement (loanValues info) ++ rowsOf .repayment (repaymentValues info)
  else if info.lendState = 4 then
    rowsOf .default (loanValues info) ++ rowsOf .default (repaymentValues info)
  else []

/-- The screen shows its rows in every state; no value is missing at its place. -/
theorem setTopViewData_rows (info : LoanDetialInfoModel) :
    (setTopViewData info viewDidLoad).map rows = some (detialRows info) := by
  rw [setTopViewData, detialRows]
  split_ifs <;> rfl

theorem named_leftArr (info : LoanDetialInfoModel) (type : RecordType) :
    (leftArr (some type)).2.map (named info) = (namedValues info type).map some := by
  cases type <;> rfl

/-- Labels that name the fields `fields` show them iff the values beside them are these. -/
theorem showsNamed_zipWith : ∀ {names values fields : List NSString},
    names.map (named info) = fields.map some → values.length = fields.length →
    ((∀ row ∈ List.zipWith (fun left right => Row.mk left (some right)) names values,
      ShowsNamed info row) ↔ values = fields)
  | [], [], [], _, _ => by simp
  | name :: names, value :: values, field :: fields, hnames, hlen => by
      rw [List.map_cons, List.map_cons, List.cons.injEq] at hnames
      have ih := showsNamed_zipWith hnames.2 (Nat.succ.inj hlen)
      have hfirst : ShowsNamed info ⟨name, some value⟩ ↔ value = field := by
        simp [ShowsNamed, hnames.1]
      rw [List.zipWith_cons_cons, List.forall_mem_cons, ih, hfirst, List.cons.injEq]
  | [], _ :: _, [], _, hlen => by simp at hlen
  | [], _, _ :: _, hnames, _ => by simp at hnames
  | _ :: _, _, [], hnames, _ => by simp at hnames
  | _ :: _, [], _ :: _, _, hlen => by simp at hlen

/-- A view shows what its labels name iff it is handed just that. -/
theorem rowsOf_iff (info : LoanDetialInfoModel) (type : RecordType) (values : List NSString)
    (hlen : values.length = (namedValues info type).length) :
    (∀ row ∈ rowsOf type values, ShowsNamed info row) ↔ values = namedValues info type :=
  showsNamed_zipWith (named_leftArr info type) hlen

/-- Beside every label of the screen stands the field it names, unless the loan is overdue; then the
    labels of what is due stand beside other values, which have to read the same. -/
theorem rows_named_iff (info : LoanDetialInfoModel) :
    ∃ s, setTopViewData info viewDidLoad = some s ∧
      ((∀ row ∈ s.rows, ShowsNamed info row) ↔ (info.lendState = 4 → ReadsAsDue info)) := by
  obtain ⟨s, hs, hrows⟩ := Option.map_eq_some_iff.mp (setTopViewData_rows info)
  refine ⟨s, hs, ?_⟩
  rw [hrows, detialRows]
  split_ifs with h2 h3 h5 h4
  · refine iff_of_true ?_ fun h => by omega
    intro row hrow
    obtain rfl | rfl : row = _ ∨ row = _ := by simpa using hrow
    · intro text htext
      exact congrArg some (Option.some.inj htext)
    · intro text htext
      exact congrArg some (Option.some.inj htext)
  · refine iff_of_true ?_ fun h => by omega
    refine List.forall_mem_append.mpr ⟨fun row hrow text htext => ?_,
      (rowsOf_iff info .useing _ rfl).mpr rfl⟩
    -- the two buttons name no field
    obtain rfl | rfl : row = _ ∨ row = _ := by simpa using hrow
    · cases htext
    · cases htext
  · refine iff_of_true ?_ fun h => by omega
    exact List.forall_mem_append.mpr ⟨(rowsOf_iff info .settlement _ rfl).mpr rfl,
      (rowsOf_iff info .repayment _ rfl).mpr rfl⟩
  · rw [List.forall_mem_append, rowsOf_iff info .default (loanValues info) rfl,
      rowsOf_iff info .default (repaymentValues info) rfl]
    exact ⟨fun h _ => h, fun h => h h4⟩
  · exact iff_of_true (by simp) fun h => absurd h h4

/-- A loan of 5000 that is overdue, of which 800 is due. -/
def overdueLoan : LoanDetialInfoModel where
  lendState := 4
  loanAccountInfo := some
    { beginDate := some (ns "2019-09-01"), endDate := some (ns "2019-10-01")
      loanAmount := some (ns "5000"), retuKind_dictText := some (ns "等额本息")
      realCapiSum := some (ns "4200"), realInte := some (ns "30"), realFeeSum := some (ns "10")
      dueCapiSum := some (ns "800"), dueInte := some (ns "6"), dueFeeSum := some (ns "25") }

/-- Beside 未还本金 stands the amount of the loan, and once more what is repaid of it. -/
theorem overdue_rows_misnamed : ∃ s, setTopViewData overdueLoan viewDidLoad = some s ∧
    named overdueLoan (ns "未还本金") = some (ns "800") ∧
    ⟨ns "未还本金", some (ns "5000")⟩ ∈ s.rows ∧ ⟨ns "未还本金", some (ns "4200")⟩ ∈ s.rows ∧
    ¬ ∀ row ∈ s.rows, ShowsNamed overdueLoan row :=
  ⟨_, rfl, by decide⟩

end LeYiDai.LoanDetial
