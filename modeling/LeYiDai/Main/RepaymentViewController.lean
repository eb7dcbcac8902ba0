import LeYiDai.Category.UIButtonTouch
import LeYiDai.Foundation.Numerals
import LeYiDai.Lib.Machine
import LeYiDai.Self.MyBankViewController

/-! RepaymentViewController: the repayment of bills. The list reply selects the first bill; row taps
    change the selection and recompute the amount as a float; the confirm button opens a pay sheet
    over the screen, and the sheet's button pays.

        getRepayList ──▶ bills, default card, first bill's amount
        row tap ──▶ selection ──▶ amount
        confirm ──▶ sheet (amount, default card's title) ──▶ repayListUp, sheet gone
                      ▲ Bank_Model: title only -/

namespace LeYiDai.Repay

/-! ### What the server sends and what is sent to it -/

/-- The result of `getRepayList`. -/
structure RepayResult where
  repayList : Option (List NSDictionary)
  bankcardNo : Option Json
  bankcardName : Option Json
  cardBankname : Option Json
  deriving DecidableEq

structure RepayListUp where
  userId : Json
  repayaccNo : Json
  repayAccname : Json
  realAmt : NSString
  loanAcctNos : List NSString
  deriving DecidableEq

inductive Call where
  | getRepayList (userId : Json)
  | repayListUp (u : RepayListUp)
  deriving DecidableEq

structure Request where
  id : ℕ
  call : Call
  sentAt : ℚ
  deriving DecidableEq

/-- How a request is answered: not at all, with `success` other than 1, or with success. -/
inductive Body where
  | failure
  | refused
  | repayList (result : Option RepayResult)
  | repaid
  deriving DecidableEq

/-! ### Bills and rows -/

def dueAmtKey : NSString := ns "dueAmt"

def repayAccnoKey : NSString := ns "repayAccno"

/-- `%@` of a bill's amount. -/
def dueAmt (bill : NSDictionary) : NSString := fmt (bill.lookup dueAmtKey)

/-- `%@` of a bill's account number. -/
def repayAccno (bill : NSDictionary) : NSString := fmt (bill.lookup repayAccnoKey)

/-- The views of a row, by the row they are in. -/
inductive RowView where
  | selectBut (row : ℕ)
  | checkDetialBut (row : ℕ)
  | bgView (row : ℕ)
  | contentView (row : ℕ)
  | cell (row : ℕ)
  | table
  deriving DecidableEq

def RowView.superview : RowView → RowView
  | .selectBut row | .checkDetialBut row => .bgView row
  | .bgView row => .contentView row
  | .contentView row => .cell row
  | .cell _ | .table => .table

/-- `indexPathForCell:`, and `row` of the index path it answers: zero of `nil`. -/
def rowForCell : RowView → ℕ
  | .cell row => row
  | _ => 0

/-- The row `selectButtonClick:` works on. -/
def selectRow (row : ℕ) : ℕ := rowForCell (RowView.selectBut row).superview.superview.superview

/-- The row `detialButCick:` works on: it stops at the content view, which is no cell. -/
def detialRow (row : ℕ) : ℕ := rowForCell (RowView.checkDetialBut row).superview.superview

/-! ### The screen -/

/-- RepaySelectBankView, the pay sheet: its amount, the title of its card button, and the guard of
    its pay button. -/
structure RepaySelectBankView where
  moneyLab : NSString
  bankNum : NSString
  repayBut : TouchGuard
  deriving DecidableEq

/-- Where the screen is on the navigation stack. -/
inductive Place where | top | underCards | gone
  deriving DecidableEq

/-- The guards of the buttons that pay are kept, those of the rows are not. -/
structure RepaymentViewController where
  userId : Json
  overFlag : ℤ
  dataArray : List NSDictionary
  selectArray : List NSDictionary
  dataDictt : Option RepayResult
  moneyText : NSString
  bankView : Option RepaySelectBankView
  bankViewShown : Bool
  bottomView : List (NSString × NSString)
  bottomViewShown : Bool
  sureBut : TouchGuard
  place : Place
  now : ℚ
  nextId : ℕ
  inFlight : List Request
  deriving DecidableEq

namespace RepaymentViewController

def send (call : Call) (s : RepaymentViewController) : RepaymentViewController × List Request :=
  let r : Request := { id := s.nextId, call, sentAt := s.now }
  ({ s with nextId := s.nextId + 1, inFlight := s.inFlight ++ [r] }, [r])

/-- `viewDidLoad`. -/
def viewDidLoad (userId : Json) (overFlag : ℤ) : RepaymentViewController :=
  (send (.getRepayList userId)
    { userId
      overFlag
      dataArray := []
      selectArray := []
      dataDictt := none
      moneyText := []
      bankView := none
      bankViewShown := false
      bottomView := []
      bottomViewShown := false
      sureBut := TouchGuard.new .uiButton 0
      place := .top
      now := 0
      nextId := 0
      inFlight := [] }).1

/-- `getAllAmutMoney`. -/
def getAllAmutMoney (s : RepaymentViewController) : RepaymentViewController :=
  { s with moneyText := format2f (addFloats (s.selectArray.map dueAmt)) }

/-- `selectButtonClick:` on the bill of the row: out of range it is `nil`, which an array does not
    contain and does not take. The last selected bill stays. -/
def selectButtonClick (row : ℕ) (s : RepaymentViewController) : Option RepaymentViewController :=
  match s.dataArray[selectRow row]? with
  | none => none
  | some modelDic =>
    if modelDic ∈ s.selectArray then
      if s.selectArray.length = 1 then some s
      else some (getAllAmutMoney { s with selectArray := s.selectArray.filter (· ≠ modelDic) })
    else some (getAllAmutMoney { s with selectArray := s.selectArray ++ [modelDic] })

/-- `detialButCick:`: three more lines in the breakdown, which is then shown. -/
def detialButCick (row : ℕ) (s : RepaymentViewController) : RepaymentViewController :=
  let field (key : String) : NSString :=
    emptyIfNilStr (yyString (s.dataArray[detialRow row]?.bind (·.lookup (ns key))))
  { s with
    bottomView := s.bottomView ++
      [(ns "还款本金", field "dueCapi"), (ns "利息", field "dueInte"),
        (ns "费用", field "dueOtherfee")]
    bottomViewShown := true }

/-- `notificationClick:`: the card's title goes onto the sheet, the card itself nowhere. -/
def notificationClick (card : BankDetialModel) (s : RepaymentViewController) :
    Option RepaymentViewController :=
  (cardTitle card.cardBankname card.bankcardNo).map fun butStr =>
    { s with bankView := s.bankView.map fun v => { v with bankNum := butStr } }

/-- `sureButtonClick`: a new sheet, for the default card. -/
def sureButtonClick (s : RepaymentViewController) : Option RepaymentViewController :=
  let cardStr := fmt (s.dataDictt.bind (·.bankcardNo))
  (substringFromIndex cardStr (nsuSub cardStr.length 4)).map fun strCar =>
    { s with
      bankView := some
        { moneyLab := ns "￥" ++ s.moneyText
          bankNum := fmt (s.dataDictt.bind (·.cardBankname)) ++ ns "  " ++ strCar
          repayBut := TouchGuard.new .uiButton 5 }
      bankViewShown := true }

/-- The dictionary `repayButClick` sends, for the default card. -/
def repayDic (s : RepaymentViewController) : Option RepayListUp := do
  let repayaccNo ← s.dataDictt.bind (·.bankcardNo)
  let repayAccname ← s.dataDictt.bind (·.bankcardName)
  return {
    userId := s.userId
    repayaccNo, repayAccname
    realAmt := s.moneyText
    loanAcctNos := s.selectArray.map repayAccno }

/-- `repayButClick`: the sheet goes, the request leaves. -/
def repayButClick (s : RepaymentViewController) : Option (RepaymentViewController × List Request) :=
  s.repayDic.map fun u => { s with bankViewShown := false }.send (.repayListUp u)

/-- `useGetRepayInsert`, success: the first bill is selected; without one `nil` is added to an
    array. -/
def repayInsertSuccess (result : Option RepayResult) (s : RepaymentViewController) :
    Option RepaymentViewController :=
  match (result.bind (·.repayList)).getD [] with
  | [] => none
  | dic :: rest =>
    some { s with
      dataArray := dic :: rest
      selectArray := [dic]
      dataDictt := result
      moneyText := dueAmt dic }

/-- `popViewControllerAnimated:`. -/
def popViewController (s : RepaymentViewController) : RepaymentViewController :=
  { s with
    place := match s.place with
      | .underCards => .top
      | .top | .gone => .gone }

/-- The completion block of a request. -/
def completion (call : Call) (body : Body) (s : RepaymentViewController) :
    Option RepaymentViewController :=
  match call, body with
  | .getRepayList _, .repayList result => s.repayInsertSuccess result
  | .repayListUp _, .repaid => some s.popViewController
  | _, _ => some s

end RepaymentViewController

/-! ### The machine -/

/-- What can happen to the screen. -/
inductive Event where
  | edit (text : NSString)
  | selectButtonClick (row : ℕ)
  | detialButCick (row : ℕ)
  | hideBottomView
  | touchSureBut
  | resetSureBut (i : ℕ)
  | cancleButtonClick
  | selectBankViewClick
  | didSelectRow (card : BankDetialModel)
  | pop
  | bankModel (card : BankDetialModel)
  | touchRepayBut
  | resetRepayBut (i : ℕ)
  | tick (d : ℚ)
  | reply (id : ℕ) (body : Body)

namespace RepaymentViewController

def find (s : RepaymentViewController) (id : ℕ) : Option Request := s.inFlight.find? (·.id = id)

/-- The request is no longer in flight. -/
def answered (id : ℕ) (s : RepaymentViewController) : RepaymentViewController :=
  { s with inFlight := s.inFlight.filter (·.id ≠ id) }

/-- The stack or the block of a repayment in flight holds the controller; the block of the list
    request holds it weakly, as the notification center does. -/
def alive (s : RepaymentViewController) : Bool :=
  s.place ≠ .gone || s.inFlight.any fun r =>
    match r.call with
    | .getRepayList _ => false
    | .repayListUp _ => true

/-- The screen's own views take touches: nothing covers them. -/
def uncovered (s : RepaymentViewController) : Bool :=
  s.place = .top && !s.bankViewShown && !s.bottomViewShown

/-- The sheet takes touches. -/
def sheetUp (s : RepaymentViewController) : Bool := s.place = .top && s.bankViewShown

/-- A touch on the confirm button. -/
def touchSureBut (s : RepaymentViewController) : Option RepaymentViewController :=
  let (sureBut, forwarded) := s.sureBut.mySendAction s.now
  let s := { s with sureBut }
  if forwarded then s.sureButtonClick else some s

/-- A touch on the sheet's pay button. -/
def touchRepayBut (v : RepaySelectBankView) (s : RepaymentViewController) :
    Option (RepaymentViewController × List Request) :=
  let (repayBut, forwarded) := v.repayBut.mySendAction s.now
  let s := { s with bankView := some { v with repayBut } }
  if forwarded then s.repayButClick else some (s, [])

/-- One event. A row is tapped when it is in the table, a view when nothing covers it; the keyboard
    stays when a view comes to cover the field. -/
def step (s : RepaymentViewController) : Event → Option (RepaymentViewController × List Request)
  | .edit text => some (if s.place = .top then { s with moneyText := text } else s, [])
  | .selectButtonClick row =>
    if s.uncovered && row < s.dataArray.length then (s.selectButtonClick row).map (·, [])
    else some (s, [])
  | .detialButCick row =>
    some (if s.uncovered && row < s.dataArray.length then s.detialButCick row else s, [])
  | .hideBottomView => some ({ s with bottomViewShown := false }, [])
  | .touchSureBut => if s.uncovered then s.touchSureBut.map (·, []) else some (s, [])
  | .resetSureBut i => some ({ s with sureBut := s.sureBut.resetState s.now i }, [])
  | .cancleButtonClick => some (if s.sheetUp then { s with bankViewShown := false } else s, [])
  | .selectBankViewClick => some (if s.sheetUp then { s with place := .underCards } else s, [])
  | .didSelectRow card =>
    if s.place = .underCards then (notificationClick card { s with place := .top }).map (·, [])
    else some (s, [])
  | .pop => some (s.popViewController, [])
  | .bankModel card => if s.alive then (s.notificationClick card).map (·, []) else some (s, [])
  | .touchRepayBut =>
    match s.bankView with
    | some v => if s.sheetUp then s.touchRepayBut v else some (s, [])
    | none => some (s, [])
  | .resetRepayBut i =>
    some ({ s with
      bankView := s.bankView.map fun v =>
        { v with repayBut := v.repayBut.resetState s.now i } }, [])
  | .tick d => some (if 0 ≤ d then { s with now := s.now + d } else s, [])
  | .reply id body =>
    match s.find id with
    | none => some (s, [])
    | some r =>
      if s.alive then ((s.answered id).completion r.call body).map (·, [])
      else some (s.answered id, [])

def machine : Machine RepaymentViewController Event Request := ⟨step⟩

end RepaymentViewController

end LeYiDai.Repay
