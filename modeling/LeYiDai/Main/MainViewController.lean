import LeYiDai.Foundation.Values
import Mathlib.Data.Finset.Basic

/-! MainViewController: the home screen. Every home reply is stored and adds to the screen what its
    `userState` asks for; the credit panel is a property that is made once, from the reply at hand,
    and kept.

        userState 1..5 ──▶ creatInitNoAuthonUI: the picture on top, the credit panel
        userState 6 ─────▶ creatMianUI: bar, overdue banner, repayment card, panel, footer -/

namespace LeYiDai.Home

/-! ### The home reply -/

structure LoanRepayDueModel where
  overFlag : ℤ
  dueTermSum : Option NSString
  dueTerm : Option NSString
  dueDate : Option NSString
  dueAmt : Option NSString
  overDays : Option NSString
  deriving DecidableEq

structure CreaditInfoModel where
  creditAppstate : Option NSString
  creditLeftamt : Option NSString
  creditLimit : Option NSString
  inteRate : Option NSString
  deriving DecidableEq

structure MainDetianModel where
  userState : ℤ
  creditInfo : Option CreaditInfoModel
  loanRepayDue : Option LoanRepayDueModel
  deriving DecidableEq

namespace MainDetianModel

variable (m : MainDetianModel)

/-- `[m.creditInfo.creditAppstate intValue]`. -/
def creditAppstate : ℤ := ((m.creditInfo.bind (·.creditAppstate)).map intValueStr).getD 0

def creditLeftamt : Option NSString := m.creditInfo.bind (·.creditLeftamt)

def creditLimit : Option NSString := m.creditInfo.bind (·.creditLimit)

def inteRate : Option NSString := m.creditInfo.bind (·.inteRate)

/-- `m.loanRepayDue.overFlag`, zero without a `loanRepayDue`. -/
def overFlag : ℤ := (m.loanRepayDue.map (·.overFlag)).getD 0

end MainDetianModel

/-! ### MainCenterView, the credit panel -/

/-- The subviews of the panel, with the text or the picture of those that are made for a reply. -/
inductive CenterView where
  | arrimg (i : ℕ)
  | lable (i : ℕ) (text : NSString)
  | lastLable (text : NSString)
  | leftImg (image : NSString)
  | sheheLab (text : NSString)
  | lineVc | titLab | moneyLab | rateLab | statueBut | img | totalMoney
  deriving DecidableEq

def CenterView.tag : CenterView → ℕ
  | .arrimg i => 1000 + i
  | .lable i _ => 1100 + i
  | .lastLable _ => 1200
  | .leftImg _ => 1300
  | .sheheLab _ => 1400
  | _ => 0

structure MainCenterView where
  creaditInfoModel : MainDetianModel
  subviews : List CenterView
  titLab : Option NSString
  moneyLab : Option NSString
  rateLab : Option NSString
  totalMoney : Option NSString
  imgHidden : Bool
  totalMoneyHidden : Bool
  statueTitle : NSString
  statueEnabled : Bool
  deriving DecidableEq

/-- `addSubview:` moves a view that is already there to the front. -/
def addSubview {α : Type} [DecidableEq α] (views : List α) (v : α) : List α :=
  views.filter (· ≠ v) ++ [v]

namespace MainCenterView

/-- The views above the dashed line, and the line. -/
def header (m : MainDetianModel) : List CenterView :=
  if m.userState = 1 ∨ m.userState = 2 ∨ (m.userState = 4 ∧ m.creditAppstate = 9) then
    [.arrimg 0, .lable 0 (ns "申请借款"), .arrimg 1, .lable 1 (ns "快速审核"), .arrimg 2,
      .lable 2 (ns "实名认证"), .lastLable (ns "快速放款"), .lineVc]
  else if m.userState = 3 then
    [.leftImg (ns "shenhe_icon"),
      .sheheLab (ns "统正在审核的资料，我们将在10-30分钟内估算出"), .lineVc]
  else if m.userState = 4 ∧ m.creditAppstate = 1 then
    [.leftImg (ns "loan_icon"), .sheheLab (ns "恭喜您，审核通过！立即去借款吧。"), .lineVc]
  else if m.userState = 4 ∨ m.userState = 5 then
    [.leftImg (ns "loan_icon"),
      .sheheLab (ns "正在放款中，预计10分钟内到达账户，请耐心等待"), .lineVc]
  else []

/-- The texts and flags that `initDetialView` sets for a `userState`. -/
def setDetial (p : MainCenterView) : MainCenterView :=
  let m := p.creaditInfoModel
  let p := { p with
    moneyLab := m.creditLeftamt
    rateLab := some (ns "日利率：" ++ fmtStr m.inteRate ++ ns "%")
    totalMoney := some (ns "总额度" ++ fmtStr m.creditLimit) }
  if m.userState = 1 ∨ m.userState = 2 then
    { p with
      statueTitle := if m.userState = 1 then ns "去认证" else p.statueTitle
      titLab := some (ns "最高可借额度")
      imgHidden := true
      totalMoneyHidden := true
      statueEnabled := true }
  else if m.userState = 3 then
    { p with
      titLab := some (ns "最高可借额度")
      imgHidden := false
      totalMoneyHidden := false
      statueEnabled := false }
  else if m.userState = 4 then
    if m.creditAppstate = 1 then
      { p with titLab := some (ns "可借额度"), statueEnabled := true }
    else if m.creditAppstate = 9 then
      { p with
        titLab := some (ns "审核未通过,7天后再试")
        moneyLab := some (ns "0")
        statueEnabled := false }
    else { p with titLab := some (ns "最高可借额度"), statueEnabled := false }
  else if m.userState = 5 then
    { p with titLab := some (ns "剩余额度"), statueEnabled := false }
  else if m.userState = 6 then
    { p with
      titLab := some (ns "剩余额度")
      statueEnabled := false
      statueTitle := if m.overFlag = 1 then ns "我要借钱" else ns "逾期中" }
  else p

/-- `initDetialView`. -/
def initDetialView (p : MainCenterView) : MainCenterView :=
  let p := p.setDetial
  { p with
    subviews := [.titLab, .moneyLab, .rateLab, .statueBut, .img, .totalMoney].foldl addSubview
      p.subviews }

/-- `creatMainUI`: the tagged views go, which leaves the first arrow and the line, and the header
    and the rest are added. -/
def creatMainUI (p : MainCenterView) : MainCenterView :=
  initDetialView { p with
    subviews := p.subviews.filter (·.tag ≤ 1000) ++ header p.creaditInfoModel }

/-- `initWithMainType:`, with the labels and the button as they are made. -/
def initWithMainType (m : MainDetianModel) : MainCenterView :=
  creatMainUI
    { creaditInfoModel := m
      subviews := []
      titLab := none
      moneyLab := some (ns "800")
      rateLab := none
      totalMoney := none
      imgHidden := false
      totalMoneyHidden := false
      statueTitle := ns "我要借钱"
      statueEnabled := true }

end MainCenterView

/-! ### MianTopBlueView, the repayment card -/

structure MianTopBlueView where
  titLab : NSString
  moneyLab : NSString
  bottomLab : NSString
  timeLab : NSString
  deriving DecidableEq

/-- `setBlueViewData:`. -/
def setBlueViewData (m : MainDetianModel) : MianTopBlueView :=
  let due (f : LoanRepayDueModel → Option NSString) := emptyIfNilStr (m.loanRepayDue.bind f)
  { titLab := ns "最近待还款" ++ due (·.dueTerm) ++ ns "/" ++ due (·.dueTermSum)
    moneyLab := due (·.dueAmt)
    bottomLab := if m.overFlag = 0 then ns "已逾期" else ns "待还日"
    timeLab := if m.overFlag = 0 then due (·.overDays) else due (·.dueDate) }

/-! ### The controller -/

/-- The views the controller adds to its own; the bar carries its title. -/
inductive HomeView where
  | topBgImg | whiteNavBg | accationView | blueBgView | whiteBgView | bottomBut
  deriving DecidableEq

structure MainViewController where
  detialModel : Option MainDetianModel
  subviews : List HomeView
  whiteBgView : Option MainCenterView
  blueBgView : Option MianTopBlueView
  deriving DecidableEq

namespace MainViewController

/-- A controller before its first reply. -/
def fresh : MainViewController :=
  { detialModel := none, subviews := [], whiteBgView := none, blueBgView := none }

def add (v : HomeView) (h : MainViewController) : MainViewController :=
  { h with subviews := addSubview h.subviews v }

/-- `removeFromSuperview`. -/
def remove (v : HomeView) (h : MainViewController) : MainViewController :=
  { h with subviews := h.subviews.filter (· ≠ v) }

/-- `self.whiteBgView`: the panel is made from the reply at hand when it is first asked for. -/
def makeWhiteBgView (m : MainDetianModel) (h : MainViewController) : MainViewController :=
  { h with whiteBgView := some (h.whiteBgView.getD (.initWithMainType m)) }

/-- `creatInitNoAuthonUI`. The line that would hand the panel the new reply is commented out. -/
def creatInitNoAuthonUI (m : MainDetianModel) (h : MainViewController) : MainViewController :=
  ((h.add .topBgImg).makeWhiteBgView m).add .whiteBgView

/-- `creatMianUI`. -/
def creatMianUI (m : MainDetianModel) (h : MainViewController) : MainViewController :=
  let h := h.add .whiteNavBg
  let h := if m.overFlag = 1 then h else h.add .accationView
  let h := { h.add .blueBgView with blueBgView := some (setBlueViewData m) }
  ((h.makeWhiteBgView m).add .whiteBgView).add .bottomBut

/-- The reply's model is stored and shown. -/
def showDetial (m : MainDetianModel) (h : MainViewController) : MainViewController :=
  let h := { h with detialModel := some m }
  if m.userState = 1 ∨ m.userState = 2 ∨ m.userState = 3 ∨ m.userState = 4 ∨ m.userState = 5 then
    h.creatInitNoAuthonUI m
  else if m.userState = 6 then
    -- the check `if(self.whiteBgView)` makes the panel
    (((h.remove .topBgImg).makeWhiteBgView m).remove .whiteBgView).creatMianUI m
  else h

/-- The completion block of `useMainInsert`. -/
def useMainInsert (h : MainViewController) : Reply MainDetianModel → MainViewController
  | .failure | .refused => h
  | .result none => { h with detialModel := none }
  | .result (some m) => h.showDetial m

/-- The screens a tap on the panel's button opens. -/
inductive Pushed where
  | evaluation
  | loan (creditLeftamtStr : Option NSString)
  deriving DecidableEq

/-- `whiteBgViewButtonClick`. -/
def whiteBgViewButtonClick (h : MainViewController) : Option Pushed :=
  h.detialModel.bind fun m =>
    if m.userState = 1 ∨ m.userState = 2 then some .evaluation
    else if m.userState = 4 ∧ m.creditAppstate = 1 then some (.loan m.creditLimit)
    else none

/-- `payButtonClick` opens the repayment screen with this `overFlag`. -/
def payButtonClick (h : MainViewController) : ℤ :=
  (h.detialModel.map MainDetianModel.overFlag).getD 0

end MainViewController

end LeYiDai.Home
