import LeYiDai.Login.CodeButton
import LeYiDai.Main.EvaluationViewController

/-! OperatorViewController: a phone field with its code button, a field for the code, and a next
    button that wants eleven and six units in them. `viewDidLoad` asks for the operator page and
    leaves out `creatInitUI`, so that the handlers below are those of fields that are not on the
    screen.

        phone, code ──▶ nextBut ──▶ BankAuthenViewController
        phone ──▶ codeBut ──▶ getSysCode, appscen "other" -/

namespace LeYiDai.Operator

open Evaluation (Screen)

/-- The dictionary `creatOperInsert` sends. -/
structure OperatorInsert where
  type : NSString
  userId : Json
  deriving DecidableEq

inductive Sent where
  | getSysCode (r : GetSysCode)
  | useCustAuthOperatorInsert (dic : OperatorInsert)
  deriving DecidableEq

/-- The phone field is the one of `codeBut`. -/
structure OperatorViewController where
  userId : Json
  codeBut : CodeButton
  secretText : NSString
  nextButEnabled : Bool
  pushed : List Screen
  deriving DecidableEq

/-- What can happen to the screen. A reply to `creatOperInsert` shows a message at most. -/
inductive Event where
  | code (e : CodeEvent)
  | codeTextClick (text : NSString) (marked : Bool)
  | nextButtonClick
  | pop

namespace OperatorViewController

/-- `creatOperInsert`. -/
def creatOperInsert (s : OperatorViewController) : List Sent :=
  [.useCustAuthOperatorInsert { type := ns "ios", userId := s.userId }]

/-- `viewDidLoad`, with what it sends. -/
def viewDidLoad (userId : Json) : OperatorViewController × List Sent :=
  let s : OperatorViewController :=
    { userId
      codeBut := CodeButton.new
      secretText := []
      nextButEnabled := false
      pushed := [] }
  (s, s.creatOperInsert)

/-- The end of `textFieldDidChange:LimitLength:`, for either field. -/
def checkNextBut (s : OperatorViewController) : OperatorViewController :=
  { s with nextButEnabled := s.codeBut.phoneText.length = 11 && s.secretText.length = 6 }

/-- `codeTextClick`. The tag of the field is not 1, so the code button stays as it is. -/
def codeTextClick (c : ComposedSequences) (text : NSString) (marked : Bool)
    (s : OperatorViewController) : OperatorViewController :=
  checkNextBut { s with secretText := limitLength c 6 text marked }

/-- The events that reach the code button. -/
def delivered (s : OperatorViewController) : Event → Option CodeEvent
  | .code e => e.reaches s.pushed.isEmpty
  | _ => none

/-- The code button has run a handler. An edit of the phone checks the next button as well. -/
def codeButDone (e : CodeEvent) (codeBut : CodeButton) (s : OperatorViewController) :
    OperatorViewController :=
  match e with
  | .textDidChange _ _ => checkNextBut { s with codeBut }
  | _ => { s with codeBut }

def step (c : ComposedSequences) (s : OperatorViewController) :
    Event → Option (OperatorViewController × List Sent)
  | .code e =>
    match e.reaches s.pushed.isEmpty with
    | none => some (s, [])
    | some e => (s.codeBut.step c (ns "other") e).map fun (codeBut, rs) =>
        (s.codeButDone e codeBut, rs.map .getSysCode)
  | .codeTextClick text marked =>
    some (if s.pushed.isEmpty then s.codeTextClick c text marked else s, [])
  | .nextButtonClick =>
    some (if s.pushed.isEmpty && s.nextButEnabled then { s with pushed := [.bankAuthen] } else s,
      [])
  | .pop => some ({ s with pushed := s.pushed.tail }, [])

def machine (c : ComposedSequences) : Machine OperatorViewController Event Sent := ⟨step c⟩

theorem codeBut_done (e : CodeEvent) (b : CodeButton) (s : OperatorViewController) :
    (s.codeButDone e b).codeBut = b := by
  cases e <;> rfl

/-- The screen runs the code button's handlers on the events it hands on, and nothing else touches
    the button. -/
theorem projects (c : ComposedSequences) :
    (machine c).Projects (CodeButton.machine c (ns "other")) codeBut delivered := by
  intro s e s' os h
  cases e with
  | code e => exact CodeButton.handOn_cases (fun e b => codeBut_done e b s) h
  | _ =>
    refine .inl ⟨rfl, ?_⟩
    cases h
    first
    | rfl
    | (split_ifs <;> rfl)

end OperatorViewController

end LeYiDai.Operator
