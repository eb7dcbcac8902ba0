import LeYiDai.Lib.Machine
import LeYiDai.Login.LoginModel
import Mathlib.Data.List.AList

/-! RequestAPI: the four entry points through which every request leaves, the serializer whose
    header fields they share, and what their reply handlers and the login screen do to the session
    and to the window's root.

        send ──▶ X-Access-Token set when logged in ──▶ all header fields copied onto the request
        reply, code 995 ──▶ removeFromLocal, and logout in two of the four handlers
        login reply ──▶ setLogonData ──▶ initCustomWindow -/

namespace LeYiDai.Session

/-- The four ways a request is sent. -/
inductive EntryPoint where | POST | GET | uploadMoreImage | feedBackUploadMoreImage
  deriving DecidableEq

/-- The controllers the window's root can be. -/
inductive Root where | tabbar | login
  deriving DecidableEq

/-- The serializer's `mutableHTTPRequestHeaders`. -/
abbrev Headers := AList fun _ : NSString => Json

def accessToken : NSString := ns "X-Access-Token"

/-- APPID, sent with every request. -/
def APPID : Json := .str (ns "31abe42dff0ad8d160905910b5c1df93")

/-- What a request is for: the login screen's own call, or any other, through some entry point. -/
inductive Call where
  | login
  | other (entry : EntryPoint)
  deriving DecidableEq

/-- The login call is a POST. -/
def Call.entry : Call → EntryPoint
  | .login => .POST
  | .other entry => entry

/-- A request on its way: its number in sending order, what it is for, and the header fields copied
    onto it. -/
structure Request where
  id : ℕ
  call : Call
  headers : Headers

/-- The token a request carries. -/
def Request.token (r : Request) : Option Json := r.headers.lookup accessToken

/-- The keys of a reply that the handlers read. -/
structure Response where
  code : Option Json
  success : Option Json
  result : Option Json

structure App where
  loginModel : LoginModel
  loginInfo : Option NSDictionary
  requestHeaders : Headers
  rootViewController : Option Root
  nextId : ℕ
  inFlight : List Request

/-- What a handler does to the world outside the model. -/
inductive Effect where
  | sent (r : Request)
  | removeFromLocal
  | logout

/-! ### AppDelegate -/

/-- The root a session asks for. -/
def rootFor (logged : Bool) : Root := if logged then .tabbar else .login

/-- `initCustomWindow`. -/
def initCustomWindow (a : App) : Option App :=
  a.loginModel.isLogin.map fun b => { a with rootViewController := some (rootFor b) }

/-- `logout`. -/
def logout (a : App) : App := { a with rootViewController := some .login }

/-- `application:didFinishLaunchingWithOptions:` on what an earlier session stored. -/
def launch (stored : Option NSDictionary) : Option App :=
  initCustomWindow
    { loginModel := LoginModel.initPDUserWithDic stored
      loginInfo := stored
      requestHeaders := ∅
      rootViewController := none
      nextId := 0
      inFlight := [] }

/-! ### Sending -/

/-- `setValue:forHTTPHeaderField:`. -/
def setHeader (a : App) (value : Json) (field : NSString) : App :=
  { a with requestHeaders := a.requestHeaders.insert field value }

/-- The lines at the head of all four entry points. -/
def setHeaders (a : App) : Option App :=
  a.loginModel.isLogin.map fun b =>
    setHeader (if b then setHeader a a.loginModel.token accessToken else a) APPID (ns "appId")

/-- A request leaves with every header field the serializer holds. -/
def send (call : Call) (a : App) : Option (App × List Effect) :=
  (setHeaders a).map fun a =>
    let r : Request := { id := a.nextId, call, headers := a.requestHeaders }
    ({ a with nextId := a.nextId + 1, inFlight := a.inFlight ++ [r] }, [.sent r])

/-! ### Reply handlers -/

/-- The success block of an entry point: on code 995 the login is removed, and where `logsOut` the
    login screen becomes the root. -/
def successBlock (logsOut : Bool) (code : Option Json) (a : App) : Option (App × List Effect) :=
  (intValue code).map fun (c : ℤ) =>
    if c = 995 then
      let (m, info) := removeFromLocal
      let a := { a with loginModel := m, loginInfo := info }
      if logsOut then (logout a, [.removeFromLocal, .logout]) else (a, [.removeFromLocal])
    else (a, [])

def postSuccess := successBlock true

def getSuccess := successBlock true

/-- The call to `logout` is commented out. -/
def uploadMoreImageSuccess := successBlock false

/-- The call to `logout` is commented out here as well. -/
def feedBackUploadMoreImageSuccess := successBlock false

def replySuccess : EntryPoint → Option Json → App → Option (App × List Effect)
  | .POST => postSuccess
  | .GET => getSuccess
  | .uploadMoreImage => uploadMoreImageSuccess
  | .feedBackUploadMoreImage => feedBackUploadMoreImageSuccess

/-- The completion block of `loginButClick`. It holds the login screen weakly: `selfAlive` says
    whether the screen is still there, and without it nothing is stored. -/
def loginCompletion (selfAlive : Bool) (resp : Response) (a : App) : Option App :=
  (intValue resp.success).bind fun (ok : ℤ) =>
    if ok = 1 then
      if selfAlive then
        (setLogonData (nullDicToDic resp.result)).bind fun (m, info) =>
          initCustomWindow { a with loginModel := m, loginInfo := info }
      else initCustomWindow a
    else some a

/-! ### The machine -/

inductive Event where
  | send (entry : EntryPoint)
  | loginButClick
  | reply (id : ℕ) (resp : Response) (selfAlive : Bool)
  | failure (id : ℕ)

/-- The request a reply answers, if it is still in flight. -/
def find (a : App) (id : ℕ) : Option Request := a.inFlight.find? (·.id = id)

/-- The request is no longer in flight. -/
def answered (a : App) (id : ℕ) : App :=
  { a with inFlight := a.inFlight.filter (·.id ≠ id) }

/-- One event. The login button is on the login screen only; a reply to a request that is not in
    flight does not happen. -/
def step (a : App) : Event → Option (App × List Effect)
  | .send entry => send (.other entry) a
  | .loginButClick =>
    if a.rootViewController = some .login then send .login a else some (a, [])
  | .reply id resp selfAlive =>
    match find a id with
    | none => some (a, [])
    | some r =>
      (replySuccess r.call.entry resp.code (answered a id)).bind fun (a, os) =>
        if r.call = .login then (loginCompletion selfAlive resp a).map (·, os) else some (a, os)
  | .failure id => some (answered a id, [])

def machine : Machine App Event Effect := ⟨step⟩

end LeYiDai.Session
