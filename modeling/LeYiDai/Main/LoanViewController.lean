import LeYiDai.Category.UIButtonTouch
import LeYiDai.Lib.Machine
import LeYiDai.PubView.KLTNavigationController
import LeYiDai.Self.MyBankViewController

/-! LoanViewController: the loan application. The product reply fills in an amount, every edit asks
    for a quote, every quote reply asks for the cards, and the confirm button sends whatever the
    screen holds.

        appprods ──▶ moneyText ──▶ getRepayInfo ──▶ plan, total ──▶ queryList ──▶ card, button
                        ▲ edit ───────┘                              Bank_Model ──▶ card
        confirm ──▶ loanLendTradeUp from moneyText, the card and the product -/

namespace LeYiDai.Loan

open Navigation (pushOnto)

/-! ### What the server sends -/

structure APPProdsModel where
  amount : Option NSString
  prodId : Option NSString
  term : Option NSString
  retunKind : Option NSString
  deriving DecidableEq

structure RepayDueModel where
  dueDate : Option NSString
  dueSum : Option NSString
  deriving DecidableEq

/-- The result of `getRepayInfo`: the keys the screen reads. An entry of the list that is not an
    object has no model. -/
structure RepayInfo where
  term : Option Json
  repayType : Option Json
  dueSum : Option Json
  repayDueList : Option (List (Option RepayDueModel))
  deriving DecidableEq

/-! ### What the screen sends -/

structure GetRepayInfo where
  userId : Json
  prodId : NSString
  lendAmount : NSString
  lendTerm : NSString
  retuKind : NSString
  deriving DecidableEq

structure LoanLendTradeUp where
  userId : Json
  lendAmount : NSString
  lendBankid : NSString
  lendBankname : NSString
  lendCardNo : NSString
  lendCardName : NSString
  loanuse : NSString
  retuKind : NSString
  lendTerm : NSString
  deriving DecidableEq

inductive Call where
  | getAppprods (prodId : NSString)
  | getRepayInfo (q : GetRepayInfo)
  | queryList (userId : Json)
  | loanLendTradeUp (u : LoanLendTradeUp)
  | phoneBook (userId : Json) (data : List Json)
  deriving DecidableEq

/-- A request on its way: its number in sending order, what it asks, when it left. -/
structure Request where
  id : ℕ
  call : Call
  sentAt : ℚ
  deriving DecidableEq

/-- How a request is answered: not at all, with `success` other than 1, or with a result (`none`
    where the key is missing). -/
inductive Body where
  | failure
  | refused
  | prods (prods : Option (List (Option APPProdsModel)))
  | repayInfo (result : Option RepayInfo)
  | bankList (bankList : Option (List (Option BankDetialModel)))
  | lent (result : Option Json)
  deriving DecidableEq

/-! ### The screen -/

/-- What can lie above the loan screen. -/
inductive Pushed where
  | myBank
  | loanOning (dataDic : Option Json) (detailModel : Option BankDetialModel)
  | newWeb (typeIndex : ℤ) (loanMoneyStr : NSString)
  deriving DecidableEq

/-- The class of the controller. -/
def Pushed.className : Pushed → NSString
  | .myBank => ns "MyBankViewController"
  | .loanOning _ _ => ns "LoanOningViewController"
  | .newWeb _ _ => ns "NewWebViewController"

/-- A label or a button with its tag. -/
structure TaggedView where
  tag : ℕ
  text : NSString
  deriving DecidableEq

/-- `bankTitle` is the title of the card button; before `reloadBankView` has run neither that button
    nor the confirm button is on the screen. -/
structure LoanViewController where
  userId : Json
  creditLeftamtStr : Option NSString
  moneyText : NSString
  bottomLab : NSString
  bottomLabRed : Bool
  repayDueListArray : List RepayDueModel
  dataDic : Option RepayInfo
  centerTopView : List TaggedView
  centerView : List TaggedView
  firstBankModel : Option BankDetialModel
  bankTitle : Option NSString
  prodsModel : Option APPProdsModel
  nextButEnabled : Bool
  nextBut : TouchGuard
  pushed : List Pushed
  now : ℚ
  nextId : ℕ
  inFlight : List Request
  deriving DecidableEq

namespace LoanViewController

/-- A request leaves. -/
def send (call : Call) (s : LoanViewController) : LoanViewController × List Request :=
  let r : Request := { id := s.nextId, call, sentAt := s.now }
  ({ s with nextId := s.nextId + 1, inFlight := s.inFlight ++ [r] }, [r])

/-- `useGetRepayInfo`: a product without an id, a term or a repayment kind puts `nil` into the
    dictionary. -/
def useGetRepayInfo (s : LoanViewController) : Option (LoanViewController × List Request) := do
  let prodId ← s.prodsModel.bind (·.prodId)
  let lendTerm ← s.prodsModel.bind (·.term)
  let retuKind ← s.prodsModel.bind (·.retunKind)
  return s.send (.getRepayInfo
    { userId := s.userId, prodId, lendAmount := s.moneyText, lendTerm, retuKind })

/-- `useGetBankList`. -/
def useGetBankList (s : LoanViewController) : LoanViewController × List Request :=
  s.send (.queryList s.userId)

/-- The dictionary `useLoanLendTradeUp` sends: the amount is the text of the field, the card the one
    the screen holds. -/
def praDic (s : LoanViewController) : Option LoanLendTradeUp := do
  let lendBankname ← s.firstBankModel.bind (·.bankcardName)
  let lendCardNo ← s.firstBankModel.bind (·.bankcardNo)
  let lendCardName ← s.firstBankModel.bind (·.cardBankname)
  let retuKind ← s.prodsModel.bind (·.retunKind)
  let lendTerm ← s.prodsModel.bind (·.term)
  return {
    userId := s.userId
    lendAmount := s.moneyText
    lendBankid := emptyIfNilStr (s.firstBankModel.bind (·.cardBankid))
    lendBankname, lendCardNo, lendCardName
    loanuse := ns "10"
    retuKind, lendTerm }

/-- `useLoanLendTradeUp`. -/
def useLoanLendTradeUp (s : LoanViewController) : Option (LoanViewController × List Request) :=
  s.praDic.map fun u => s.send (.loanLendTradeUp u)

/-- `reloadBankView`: the title of the card button, and the confirm button under it. -/
def reloadBankView (s : LoanViewController) : Option LoanViewController :=
  (cardTitle (s.firstBankModel.bind (·.bankcardName)) (s.firstBankModel.bind (·.bankcardNo))).map
    fun title => { s with bankTitle := some title }

/-- `relodHuanKuanCenterView`. The first loop clears the lower view, where the labels about to be
    made belong to the upper one. -/
def relodHuanKuanCenterView (s : LoanViewController) : Option LoanViewController := do
  let repayType ← s.dataDic.bind (·.repayType)
  let dueModel := s.repayDueListArray.head?
  return { s with
    centerTopView := s.centerTopView ++
      [⟨1000, ns "借多久"⟩, ⟨600, fmt (s.dataDic.bind (·.term)) ++ ns "天"⟩,
        ⟨1001, ns "怎么还"⟩, ⟨601, fmt (some repayType)⟩]
    centerView := (s.centerView.filter (·.tag < 500)).filter (·.tag < 1000) ++
      [⟨1000, ns "还款计划"⟩,
        ⟨1200, ns "首期" ++ fmtStr (dueModel.bind (·.dueDate)) ++ ns "应还 " ++
          fmtStr (dueModel.bind (·.dueSum))⟩,
        ⟨1001, ns "总利息"⟩, ⟨1201, fmt (s.dataDic.bind (·.dueSum)) ++ ns "元"⟩] }

/-- `textCLick:`, run on every change of the field. An amount over the limit turns the line under
    the field red and asks for no quote; the confirm button stays as it is. -/
def textCLick (s : LoanViewController) : Option (LoanViewController × List Request) :=
  let s := { s with nextButEnabled := !stringIsNil s.moneyText }
  if ((s.creditLeftamtStr.map intValueStr).getD 0) < intValueStr s.moneyText then
    some ({ s with
      bottomLab := ns "平台最高可借额度" ++ fmtStr s.creditLeftamtStr ++ ns "元"
      bottomLabRed := true }, [])
  else
    useGetRepayInfo { s with
      bottomLab := ns "单比可借" ++ fmtStr s.creditLeftamtStr
      bottomLabRed := false }

/-- `notificationClick:`, for a card tapped in any card list. -/
def notificationClick (c : BankDetialModel) (s : LoanViewController) :
    Option (LoanViewController × List Request) :=
  (reloadBankView { s with firstBankModel := some c }).map (·, [])

/-- `nofiticationBookCLick:`. -/
def nofiticationBookCLick (arr : List Json) (s : LoanViewController) :
    LoanViewController × List Request :=
  if 0 < arr.length then s.send (.phoneBook s.userId arr) else (s, [])

/-- `textView:shouldInteractWithURL:inRange:interaction:`. -/
def openURL (url : NSString) (s : LoanViewController) : LoanViewController :=
  { s with pushed := pushOnto Pushed.className (.newWeb (intValueStr url) s.moneyText) s.pushed }

/-- `planButtonClick`: the rows of the repayment plan. -/
def planRows (s : LoanViewController) : List NSString :=
  s.repayDueListArray.zipIdx.map fun (m, i) =>
    ns "第" ++ ns (toString (i + 1)) ++ ns "期" ++ fmtStr m.dueDate ++ ns "应还" ++ fmtStr m.dueSum

/-! ### Completion blocks -/

/-- `useGetAppRrods`, success. -/
def appRrodsSuccess (prods : Option (List (Option APPProdsModel))) (s : LoanViewController) :
    Option (LoanViewController × List Request) :=
  let model := (prods.getD []).head?.join
  useGetRepayInfo { s with
    prodsModel := model
    moneyText := fmtStr (model.bind (·.amount)) }

/-- `useGetRepayInfo`, success. -/
def repayInfoSuccess (result : Option RepayInfo) (s : LoanViewController) :
    Option (LoanViewController × List Request) := do
  let rows ← ((result.bind (·.repayDueList)).getD []).mapM id
  let s ← relodHuanKuanCenterView { s with repayDueListArray := rows, dataDic := result }
  return s.useGetBankList

/-- `useGetBankList`, success: the first card of the list becomes the payout card. -/
def bankListSuccess (bankList : Option (List (Option BankDetialModel))) (s : LoanViewController) :
    Option (LoanViewController × List Request) :=
  (reloadBankView { s with firstBankModel := (bankList.getD []).head?.join }).map (·, [])

/-- `useLoanLendTradeUp`, success. -/
def lendTradeUpSuccess (result : Option Json) (s : LoanViewController) : LoanViewController :=
  { s with
    pushed := pushOnto Pushed.className (.loanOning result s.firstBankModel) s.pushed }

/-- The completion block of a request. A failure and a refusal show a message and change nothing. -/
def completion (call : Call) (body : Body) (s : LoanViewController) :
    Option (LoanViewController × List Request) :=
  match call, body with
  | .getAppprods _, .prods prods => s.appRrodsSuccess prods
  | .getRepayInfo _, .repayInfo result => s.repayInfoSuccess result
  | .queryList _, .bankList bankList => s.bankListSuccess bankList
  | .loanLendTradeUp _, .lent result => some (s.lendTradeUpSuccess result, [])
  | _, _ => some (s, [])

/-! ### The machine -/

/-- `viewDidLoad` of a controller that was handed `creditLeftamtStr`. -/
def viewDidLoad (userId : Json) (creditLeftamtStr : Option NSString) : LoanViewController :=
  (send (.getAppprods [])
    { userId
      creditLeftamtStr
      moneyText := []
      bottomLab := ns "单比可借" ++ fmtStr creditLeftamtStr
      bottomLabRed := false
      repayDueListArray := []
      dataDic := none
      centerTopView := []
      centerView := []
      firstBankModel := none
      bankTitle := none
      prodsModel := none
      nextButEnabled := true
      nextBut := TouchGuard.new .uiButton 5
      pushed := []
      now := 0
      nextId := 0
      inFlight := [] }).1

end LoanViewController

/-- What can happen to the screen. -/
inductive Event where
  | edit (text : NSString)
  | touchNextBut
  | resetState (i : ℕ)
  | tick (d : ℚ)
  | chouseCardButtonClick
  | didSelectRow (card : BankDetialModel)
  | pop
  | bankModel (card : BankDetialModel)
  | deviceBook (arr : List Json)
  | openURL (url : NSString)
  | reply (id : ℕ) (body : Body)

namespace LoanViewController

def find (s : LoanViewController) (id : ℕ) : Option Request := s.inFlight.find? (·.id = id)

/-- The request is no longer in flight. -/
def answered (id : ℕ) (s : LoanViewController) : LoanViewController :=
  { s with inFlight := s.inFlight.filter (·.id ≠ id) }

/-- A touch reaches the confirm button: nothing lies above the screen, the button is on it and
    enabled. -/
def canTouchNextBut (s : LoanViewController) : Bool :=
  s.pushed.isEmpty && s.bankTitle.isSome && s.nextButEnabled

/-- A touch on the confirm button is held back or sent on to `sureButtonClick`. -/
def touchNextBut (s : LoanViewController) : Option (LoanViewController × List Request) :=
  let (nextBut, forwarded) := s.nextBut.mySendAction s.now
  let s := { s with nextBut }
  if forwarded then s.useLoanLendTradeUp else some (s, [])

/-- One event. What the screen's user does needs the screen on top; a row of the card list needs
    that list on top. -/
def step (s : LoanViewController) : Event → Option (LoanViewController × List Request)
  | .edit text =>
    if s.pushed.isEmpty then textCLick { s with moneyText := text } else some (s, [])
  | .touchNextBut => if s.canTouchNextBut then s.touchNextBut else some (s, [])
  | .resetState i => some ({ s with nextBut := s.nextBut.resetState s.now i }, [])
  | .tick d => some (if 0 ≤ d then { s with now := s.now + d } else s, [])
  | .chouseCardButtonClick =>
    some (if s.pushed.isEmpty && s.bankTitle.isSome then { s with pushed := [.myBank] } else s, [])
  | .didSelectRow card =>
    match s.pushed with
    | .myBank :: rest => notificationClick card { s with pushed := rest }
    | _ => some (s, [])
  | .pop => some ({ s with pushed := s.pushed.tail }, [])
  | .bankModel card => s.notificationClick card
  | .deviceBook arr => some (s.nofiticationBookCLick arr)
  | .openURL url => some (if s.pushed.isEmpty then s.openURL url else s, [])
  | .reply id body =>
    match s.find id with
    | none => some (s, [])
    | some r => (s.answered id).completion r.call body

def machine : Machine LoanViewController Event Request := ⟨step⟩

end LoanViewController

end LeYiDai.Loan
