import LeYiDai.Login.CodeButton

/-! LoginViewController: a phone field with its code button, a field for the code, and a login
    button that wants eleven and six units in them.

        phone, code ──▶ loginBut ──▶ useLoginInsert
        phone ──▶ codeBut ──▶ getSysCode, appscen "login" -/

namespace LeYiDai

/-- The dictionary `loginButClick` sends. -/
structure UseLoginInsert where
  accountType : NSString
  account : NSString
  password : NSString
  deriving DecidableEq

inductive LoginCall where
  | getSysCode (r : GetSysCode)
  | useLoginInsert (u : UseLoginInsert)
  deriving DecidableEq

/-- The phone field is the one of `codeBut`; `pushed` holds the type of each web page above the
    screen. -/
structure LoginViewController where
  codeBut : CodeButton
  codeText : NSString
  loginButEnabled : Bool
  xieYiButSelected : Bool
  pushed : List ℤ
  deriving DecidableEq

inductive LoginEvent where
  | code (e : CodeEvent)
  | codeTextClick (text : NSString) (marked : Bool)
  | loginButClick
  | xieYiButCLick
  | shouldInteractWithURL (url : NSString)
  | pop

namespace LoginViewController

def viewDidLoad : LoginViewController where
  codeBut := CodeButton.new
  codeText := []
  loginButEnabled := false
  xieYiButSelected := false
  pushed := []

/-- The end of `textFieldDidChange:LimitLength:`, for either field. -/
def checkLoginBut (s : LoginViewController) : LoginViewController :=
  { s with loginButEnabled := s.codeBut.phoneText.length = 11 && s.codeText.length = 6 }

/-- `codeTextClick`. The tag of the field is not 1, so the code button stays as it is. -/
def codeTextClick (c : ComposedSequences) (text : NSString) (marked : Bool)
    (s : LoginViewController) : LoginViewController :=
  checkLoginBut { s with codeText := limitLength c 6 text marked }

/-- `loginButClick`. -/
def loginButClick (s : LoginViewController) : List LoginCall :=
  [.useLoginInsert
    { accountType := ns "mobile", account := s.codeBut.phoneText, password := s.codeText }]

/-- The events that reach the code button. -/
def delivered (s : LoginViewController) : LoginEvent → Option CodeEvent
  | .code e => e.reaches s.pushed.isEmpty
  | _ => none

/-- The code button has run a handler. An edit of the phone checks the login button as well. -/
def codeButDone (e : CodeEvent) (codeBut : CodeButton) (s : LoginViewController) :
    LoginViewController :=
  match e with
  | .textDidChange _ _ => checkLoginBut { s with codeBut }
  | _ => { s with codeBut }

def step (c : ComposedSequences) (s : LoginViewController) :
    LoginEvent → Option (LoginViewController × List LoginCall)
  | .code e =>
    match e.reaches s.pushed.isEmpty with
    | none => some (s, [])
    | some e => (s.codeBut.step c (ns "login") e).map fun (codeBut, rs) =>
        (s.codeButDone e codeBut, rs.map .getSysCode)
  | .codeTextClick text marked =>
    some (if s.pushed.isEmpty then s.codeTextClick c text marked else s, [])
  | .loginButClick =>
    some (s, if s.pushed.isEmpty && s.loginButEnabled then s.loginButClick else [])
  | .xieYiButCLick =>
    some (if s.pushed.isEmpty then { s with xieYiButSelected := !s.xieYiButSelected } else s, [])
  | .shouldInteractWithURL url =>
    some (if s.pushed.isEmpty then { s with pushed := [intValueStr url] } else s, [])
  | .pop => some ({ s with pushed := s.pushed.tail }, [])

def machine (c : ComposedSequences) : Machine LoginViewController LoginEvent LoginCall := ⟨step c⟩

theorem codeBut_done (e : CodeEvent) (b : CodeButton) (s : LoginViewController) :
    (s.codeButDone e b).codeBut = b := by
  cases e <;> rfl

/-- The screen runs the code button's handlers on the events it hands on, and nothing else touches
    the button. -/
theorem projects (c : ComposedSequences) :
    (machine c).Projects (CodeButton.machine c (ns "login")) codeBut delivered := by
  intro s e s' os h
  cases e with
  | code e => exact CodeButton.handOn_cases (fun e b => codeBut_done e b s) h
  | _ =>
    refine .inl ⟨rfl, ?_⟩
    cases h
    first
    | rfl
    | (split_ifs <;> rfl)

end LoginViewController

end LeYiDai
