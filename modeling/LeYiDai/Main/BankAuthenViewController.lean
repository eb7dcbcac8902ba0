import LeYiDai.Login.CodeButton
import LeYiDai.Main.EvaluationViewController

/-! BankAuthenViewController: a bank card is added, or authenticated as a step of the credit
    application. Every edit copies the text the field then holds; the two fields with a limit cut
    their text after the copy and are the only ones that check the next button.

        持卡人, 银行卡号 ──▶ nameStr, bankCardStr
        预留手机, 验证码 ──▶ phoneStr, codeStr ──▶ cut to 11, 6 ──▶ nextBut
        nextBut ──▶ useAddSeleBank or useCustAuthBankInsert, from the copies -/

namespace LeYiDai.BankAuthen

open Evaluation (Screen)
open Navigation (pushOnto)

/-- The four text fields, with tags 1 to 4. -/
inductive Field where | name | bankCard | phone | code
  deriving DecidableEq

/-- The dictionary `nextButtonClick` sends. -/
structure BankInsert where
  accNo : NSString
  idHolder : NSString
  mobile : NSString
  userId : Json
  smsCode : NSString
  deriving DecidableEq

/-- The two ways a card is sent. -/
inductive Call where | useAddSeleBank | useCustAuthBankInsert
  deriving DecidableEq

structure Request where
  id : ℕ
  call : Call
  dic : BankInsert
  deriving DecidableEq

inductive Sent where
  | getSysCode (r : GetSysCode)
  | bank (r : Request)
  deriving DecidableEq

/-- The phone field is the one of `codeBut`. `pushed` is what this screen has opened above itself,
    `popped` that it has left the stack. `isAddBank`, which is set before the screen is shown and
    stays, is an argument of the handlers. -/
structure BankAuthenViewController where
  userId : Json
  nameText : NSString
  bankCardText : NSString
  codeText : NSString
  codeBut : CodeButton
  nameStr : Option NSString
  bankCardStr : Option NSString
  phoneStr : Option NSString
  codeStr : Option NSString
  nextButEnabled : Bool
  pushed : List Screen
  popped : Bool
  nextId : ℕ
  inFlight : List Request
  deriving DecidableEq

inductive Event where
  | textChangeCLick (field : Field) (text : NSString) (marked : Bool)
  | bankClick
  | codeReply (id : ℕ) (body : Reply Unit)
  | tick (id : ℕ)
  | nextButtonClick
  | reply (id : ℕ) (body : Reply Unit)
  | pop

namespace BankAuthenViewController

/-- `viewDidLoad`. -/
def viewDidLoad (userId : Json) : BankAuthenViewController where
  userId := userId
  nameText := []
  bankCardText := []
  codeText := []
  codeBut := CodeButton.new
  nameStr := none
  bankCardStr := none
  phoneStr := none
  codeStr := none
  nextButEnabled := false
  pushed := []
  popped := false
  nextId := 0
  inFlight := []

/-- The text a field shows. -/
def text (s : BankAuthenViewController) : Field → NSString
  | .name => s.nameText
  | .bankCard => s.bankCardText
  | .phone => s.codeBut.phoneText
  | .code => s.codeText

/-- The copy that is kept of a field's text. -/
def str (s : BankAuthenViewController) : Field → Option NSString
  | .name => s.nameStr
  | .bankCard => s.bankCardStr
  | .phone => s.phoneStr
  | .code => s.codeStr

/-- The end of `textFieldDidChange:LimitLength:`. -/
def checkNextBut (s : BankAuthenViewController) : BankAuthenViewController :=
  { s with nextButEnabled := !(isNilStr s.nameStr || isNilStr s.bankCardStr ||
      isNilStr s.phoneStr || isNilStr s.codeStr) }

/-- `textChangeCLick:`, with `textFieldDidChange:LimitLength:` for the fields that have a limit. -/
def textChangeCLick (c : ComposedSequences) (field : Field) (text : NSString) (marked : Bool)
    (s : BankAuthenViewController) : BankAuthenViewController :=
  match field with
  | .bankCard => { s with bankCardText := text, bankCardStr := some text }
  | .phone => checkNextBut { s with
      phoneStr := some text
      codeBut := s.codeBut.textFieldDidChange c text marked }
  | .code => checkNextBut { s with
      codeStr := some text
      codeText := limitLength c 6 text marked }
  | .name => { s with nameText := text, nameStr := some text }

/-- The scene `bankClick` asks a code for. -/
def appscen (isAddBank : Bool) : NSString := if isAddBank then ns "other" else ns "auth"

/-- The dictionary of `nextButtonClick`. A `codeStr` that is `nil` raises. -/
def dic (s : BankAuthenViewController) : Option BankInsert :=
  s.codeStr.map fun smsCode =>
    { accNo := emptyIfNilStr s.bankCardStr
      idHolder := emptyIfNilStr s.nameStr
      mobile := emptyIfNilStr s.phoneStr
      userId := s.userId
      smsCode }

/-- `nextButtonClick`. -/
def nextButtonClick (isAddBank : Bool) (s : BankAuthenViewController) :
    Option (BankAuthenViewController × List Sent) :=
  s.dic.map fun dic =>
    let call := if isAddBank then .useAddSeleBank else .useCustAuthBankInsert
    let r : Request := { id := s.nextId, call, dic }
    ({ s with nextId := s.nextId + 1, inFlight := s.inFlight ++ [r] }, [.bank r])

/-- `popViewControllerAnimated:` on the stack this screen is on. -/
def pop (s : BankAuthenViewController) : BankAuthenViewController :=
  match s.pushed with
  | [] => { s with popped := true }
  | _ :: rest => { s with pushed := rest }

/-- The completion block of a request. Off the stack the screen opens and closes nothing. -/
def completion (call : Call) (body : Reply Unit) (s : BankAuthenViewController) :
    BankAuthenViewController :=
  match body, s.popped with
  | .result _, false =>
    match call with
    | .useAddSeleBank => s.pop
    | .useCustAuthBankInsert => { s with pushed := pushOnto id .applicationInformation s.pushed }
  | _, _ => s

def find (s : BankAuthenViewController) (id : ℕ) : Option Request := s.inFlight.find? (·.id = id)

/-- The request is no longer in flight. -/
def answered (id : ℕ) (s : BankAuthenViewController) : BankAuthenViewController :=
  { s with inFlight := s.inFlight.filter (·.id ≠ id) }

/-- The screen is on top of the stack. -/
def onTop (s : BankAuthenViewController) : Bool := !s.popped && s.pushed.isEmpty

/-- The stack, a countdown or the block of a bank request holds the controller. -/
def alive (s : BankAuthenViewController) : Bool :=
  !s.popped || !s.codeBut.timers.isEmpty || !s.inFlight.isEmpty

/-- The events that reach the code button. The block of a code request holds `self` weakly. -/
def delivered (s : BankAuthenViewController) : Event → Option CodeEvent
  | .textChangeCLick .phone text marked => (CodeEvent.textDidChange text marked).reaches s.onTop
  | .bankClick => CodeEvent.codeButtonClick.reaches s.onTop
  | .codeReply id body => if s.alive then some (.reply id body) else none
  | .tick id => some (.tick id)
  | _ => none

/-- The code button runs a handler of its own. -/
def runCodeBut (c : ComposedSequences) (isAddBank : Bool) (e : CodeEvent)
    (s : BankAuthenViewController) : Option (BankAuthenViewController × List Sent) :=
  (s.codeBut.step c (appscen isAddBank) e).map fun (codeBut, rs) =>
    ({ s with codeBut }, rs.map .getSysCode)

/-- One event. Fields and buttons take touches while the screen is on top. -/
def step (c : ComposedSequences) (isAddBank : Bool) (s : BankAuthenViewController) :
    Event → Option (BankAuthenViewController × List Sent)
  | .textChangeCLick field text marked =>
    some (if s.onTop then s.textChangeCLick c field text marked else s, [])
  | .bankClick => if s.onTop then s.runCodeBut c isAddBank .codeButtonClick else some (s, [])
  | .codeReply id body =>
    if s.alive then s.runCodeBut c isAddBank (.reply id body) else some (s, [])
  | .tick id => s.runCodeBut c isAddBank (.tick id)
  | .nextButtonClick =>
    if s.onTop && s.nextButEnabled then s.nextButtonClick isAddBank else some (s, [])
  | .reply id body =>
    match s.find id with
    | none => some (s, [])
    | some r => some ((s.answered id).completion r.call body, [])
  | .pop => some (s.pop, [])

def machine (c : ComposedSequences) (isAddBank : Bool) :
    Machine BankAuthenViewController Event Sent := ⟨step c isAddBank⟩

/-! ### What leaves the form alone -/

theorem pop_frame (s : BankAuthenViewController) :
    ∃ pushed popped, s.pop = { s with pushed, popped } := by
  unfold pop
  split
  · exact ⟨s.pushed, true, rfl⟩
  · exact ⟨_, s.popped, rfl⟩

theorem completion_frame (call : Call) (body : Reply Unit) (s : BankAuthenViewController) :
    ∃ pushed popped, s.completion call body = { s with pushed, popped } := by
  unfold completion
  split
  · cases call with
    | useAddSeleBank => exact pop_frame s
    | useCustAuthBankInsert => exact ⟨_, s.popped, rfl⟩
  · exact ⟨s.pushed, s.popped, rfl⟩

end BankAuthenViewController

end LeYiDai.BankAuthen
