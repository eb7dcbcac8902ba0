import LeYiDai.Foundation.Values
import LeYiDai.Lib.Machine
import LeYiDai.PubView.KLTNavigationController

/-! EvaluationViewController and the screens of the credit application on its navigation stack. The
    evaluation screen reads the list of steps once and its start button opens the first one that is
    not passed; each later screen opens the next one of a fixed chain by itself.

        list ──▶ 开始认证 ──▶ the first step of the list that is not passed
        photos ──▶ detail ──▶ face ──▶ operator page ──▶ bank card ──▶ application data ──▶ Finish -/

namespace LeYiDai.Evaluation

open Navigation (pushOnto)

/-- The screens of the credit application. -/
inductive Screen where
  | evaluation | authentication | authenDetial | faceAuthen | yssWeb | bankAuthen
  | applicationInformation | finishAuthen
  deriving DecidableEq

/-- The steps an authentication list is made of. -/
inductive Step where | cert | face | tele | card | zx
  deriving DecidableEq

def Step.authType : Step → NSString
  | .cert => ns "auth-cert"
  | .face => ns "auth-face"
  | .tele => ns "auth-tele"
  | .card => ns "auth-card"
  | .zx => ns "auth-zx"

/-- The screen on which a step is done. -/
def Step.screen : Step → Screen
  | .cert => .authentication
  | .face => .faceAuthen
  | .tele => .yssWeb
  | .card => .bankAuthen
  | .zx => .applicationInformation

/-- 0 not done, 1 passed, 9 rejected. -/
inductive AuthState where | undone | passed | rejected
  deriving DecidableEq

def AuthState.code : AuthState → ℤ
  | .undone => 0
  | .passed => 1
  | .rejected => 9

structure CustAuthresultMedel where
  authType : Option NSString
  authState : ℤ
  deriving DecidableEq

/-- The model of an entry of the server's list. -/
def model (p : Step × AuthState) : CustAuthresultMedel :=
  { authType := some p.1.authType, authState := p.2.code }

/-! ### The navigation stack -/

inductive Call where
  | custAuthGetCustAuth | uploadMoreImage | faceRecognition | custAuthOperatorInsert
  | custAuthBankInsert | custAuthCustInfoUp
  deriving DecidableEq

/-- A request on its way, with the controller whose completion block waits for it. -/
structure Request where
  id : ℕ
  sender : ℕ
  call : Call
  deriving DecidableEq

structure Controller where
  id : ℕ
  screen : Screen
  deriving DecidableEq

/-- The stack above the home screen, its top first. `listArray` is the one of the evaluation screen
    at the bottom. Controllers and requests are numbered together. -/
structure NavigationController where
  viewControllers : List Controller
  listArray : List CustAuthresultMedel
  nextId : ℕ
  inFlight : List Request
  deriving DecidableEq

/-- `pushed` is a screen that goes onto the stack. -/
inductive Effect where
  | sent (r : Request)
  | pushed (screen : Screen)
  deriving DecidableEq

inductive Body where
  | failure
  | refused
  | success
  | custAuthresult (list : List (Step × AuthState))
  deriving DecidableEq

/-- What can happen on the stack. A next button that is disabled takes no touch. -/
inductive Event where
  | whiteBgViewButtonClick
  | renZhengButtonClick
  | nextButtonClick
  | nextStep (id : ℕ)
  | pop
  | rightBtnClip
  | reply (id : ℕ) (body : Body)
  deriving DecidableEq

namespace NavigationController

/-- The home screen alone. -/
def home : NavigationController where
  viewControllers := []
  listArray := []
  nextId := 0
  inFlight := []

/-- A push of the screen goes through: none of its class is on top. -/
def opens (screen : Screen) (s : NavigationController) : Bool :=
  s.viewControllers.head?.map (·.screen) ≠ some screen

def push (screen : Screen) (s : NavigationController) : NavigationController × List Effect :=
  ({ s with
      viewControllers := pushOnto (·.screen) { id := s.nextId, screen } s.viewControllers
      nextId := s.nextId + 1 },
    if s.opens screen then [.pushed screen] else [])

/-- The controller is on the stack, so that it has a `navigationController`. -/
def alive (id : ℕ) (s : NavigationController) : Bool := s.viewControllers.any (·.id = id)

/-- A controller pushes; once popped its `navigationController` is `nil`. -/
def pushFrom (sender : ℕ) (screen : Screen) (s : NavigationController) :
    NavigationController × List Effect :=
  if s.alive sender then s.push screen else (s, [])

def send (sender : ℕ) (call : Call) (s : NavigationController) :
    NavigationController × List Effect :=
  let r : Request := { id := s.nextId, sender, call }
  ({ s with nextId := s.nextId + 1, inFlight := s.inFlight ++ [r] }, [.sent r])

/-- The home screen's button: a new evaluation screen, whose `viewDidLoad` asks for the list. -/
def whiteBgViewButtonClick (s : NavigationController) : NavigationController × List Effect :=
  let id := s.nextId
  let (s, os) := push .evaluation { s with listArray := [] }
  let (s, rs) := s.send id .custAuthGetCustAuth
  (s, os ++ rs)

/-- `creatOperInsert`, the same on the evaluation screen and on the face screen. -/
def creatOperInsert (sender : ℕ) (s : NavigationController) :
    NavigationController × List Effect :=
  s.send sender .custAuthOperatorInsert

/-- `renZhengButtonClick` of the evaluation screen `id`. -/
def renZhengButtonClick (id : ℕ) (s : NavigationController) : NavigationController × List Effect :=
  match s.listArray.find? fun model => model.authState = 0 || model.authState = 9 with
  | none => (s, [])
  | some model =>
    if model.authType = some (ns "auth-tele") then s.creatOperInsert id
    else if model.authType = some (ns "auth-face") then s.push .faceAuthen
    else if model.authType = some (ns "auth-cert") then s.push .authentication
    else if model.authType = some (ns "auth-zx") then s.push .applicationInformation
    else if model.authType = some (ns "auth-card") then s.push .bankAuthen
    else (s, [])

/-- `nextButtonClick` of a screen. Of the photo, face, bank card and application screens it submits
    the step; the detail screen of the photos opens the face screen. -/
def nextButtonClick (vc : Controller) (s : NavigationController) :
    NavigationController × List Effect :=
  match vc.screen with
  | .authentication => s.send vc.id .uploadMoreImage
  | .authenDetial => s.push .faceAuthen
  | .faceAuthen => s.send vc.id .faceRecognition
  | .bankAuthen => s.send vc.id .custAuthBankInsert
  | .applicationInformation => s.send vc.id .custAuthCustInfoUp
  | .evaluation | .yssWeb | .finishAuthen => (s, [])

/-- The page `id` is on the stack. -/
def pageAlive (id : ℕ) (s : NavigationController) : Bool :=
  s.viewControllers.any fun vc => vc.id = id && vc.screen = .yssWeb

/-- The operator page posts `nextStep`. -/
def nextStep (id : ℕ) (s : NavigationController) : NavigationController × List Effect :=
  if s.pageAlive id then s.push .bankAuthen else (s, [])

/-- The completion block of a request. -/
def completion (r : Request) (body : Body) (s : NavigationController) :
    NavigationController × List Effect :=
  match r.call, body with
  | .custAuthGetCustAuth, .custAuthresult list =>
    (if s.alive r.sender then { s with listArray := list.map model } else s, [])
  | .uploadMoreImage, .success => s.pushFrom r.sender .authenDetial
  | .faceRecognition, .success => s.creatOperInsert r.sender
  | .custAuthOperatorInsert, .success => s.pushFrom r.sender .yssWeb
  | .custAuthBankInsert, .success => s.pushFrom r.sender .applicationInformation
  | .custAuthCustInfoUp, .success => s.pushFrom r.sender .finishAuthen
  | _, _ => (s, [])

def find (s : NavigationController) (id : ℕ) : Option Request := s.inFlight.find? (·.id = id)

/-- The request is no longer in flight. -/
def answered (id : ℕ) (s : NavigationController) : NavigationController :=
  { s with inFlight := s.inFlight.filter (·.id ≠ id) }

/-- The evaluation screen on top of the stack. -/
def topEvaluation (s : NavigationController) : Option Controller :=
  s.viewControllers.head?.filter (·.screen = .evaluation)

/-- One event. Buttons are touched on the top screen. -/
def step (s : NavigationController) : Event → Option (NavigationController × List Effect)
  | .whiteBgViewButtonClick =>
    some (if s.viewControllers.isEmpty then s.whiteBgViewButtonClick else (s, []))
  | .renZhengButtonClick =>
    match s.topEvaluation with
    | some vc => some (s.renZhengButtonClick vc.id)
    | none => some (s, [])
  | .nextButtonClick =>
    match s.viewControllers.head? with
    | some vc => some (s.nextButtonClick vc)
    | none => some (s, [])
  | .nextStep id => some (s.nextStep id)
  | .pop => some ({ s with viewControllers := s.viewControllers.tail }, [])
  | .rightBtnClip =>
    match s.viewControllers.head? with
    | some { screen := .finishAuthen, .. } => some ({ s with viewControllers := [] }, [])
    | _ => some (s, [])
  | .reply id body =>
    match s.find id with
    | none => some (s, [])
    | some r => some ((s.answered id).completion r body)

def machine : Machine NavigationController Event Effect := ⟨step⟩

/-! ### What leaves the list alone -/

@[simp] theorem push_listArray (screen : Screen) (s : NavigationController) :
    (s.push screen).1.listArray = s.listArray := rfl

@[simp] theorem send_listArray (sender : ℕ) (call : Call) (s : NavigationController) :
    (s.send sender call).1.listArray = s.listArray := rfl

@[simp] theorem answered_listArray (id : ℕ) (s : NavigationController) :
    (s.answered id).listArray = s.listArray := rfl

@[simp] theorem pushFrom_listArray (sender : ℕ) (screen : Screen) (s : NavigationController) :
    (s.pushFrom sender screen).1.listArray = s.listArray := by
  rw [pushFrom]
  split_ifs <;> rfl

@[simp] theorem nextStep_listArray (id : ℕ) (s : NavigationController) :
    (s.nextStep id).1.listArray = s.listArray := by
  rw [nextStep]
  split_ifs <;> rfl

@[simp] theorem nextButtonClick_listArray (vc : Controller) (s : NavigationController) :
    (s.nextButtonClick vc).1.listArray = s.listArray := by
  rw [nextButtonClick]
  split <;> rfl

@[simp] theorem renZhengButtonClick_listArray (id : ℕ) (s : NavigationController) :
    (s.renZhengButtonClick id).1.listArray = s.listArray := by
  rw [renZhengButtonClick]
  split
  · rfl
  · split_ifs <;> rfl

theorem completion_custAuthresult {r : Request} (h : r.call = .custAuthGetCustAuth)
    (list : List (Step × AuthState)) (s : NavigationController) :
    s.completion r (.custAuthresult list) =
      (if s.alive r.sender then { s with listArray := list.map model } else s, []) := by
  obtain ⟨_, _, call⟩ := r
  cases h
  rfl

theorem completion_listArray (r : Request) {body : Body} (s : NavigationController)
    (h : r.call = .custAuthGetCustAuth → ∀ list, body ≠ .custAuthresult list) :
    (s.completion r body).1.listArray = s.listArray := by
  unfold completion
  split
  · rename_i list hcall
    exact absurd rfl (h hcall list)
  all_goals simp [creatOperInsert]

end NavigationController

end LeYiDai.Evaluation
