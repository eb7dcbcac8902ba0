import LeYiDai.Util.RequestAPI

/-! What holds of the session over whole runs. Three pieces of state have to stay in step with the
    login: the header field the serializer keeps, the token each request in flight was sent with,
    and the window's root. Each law is exact: a run keeps it iff no step takes the branch that
    forgets the other piece. -/

namespace LeYiDai.Session

/-! ### What a handler can do -/

/-- The entry points whose 995 branch also replaces the root. -/
def logsOut : EntryPoint → Bool
  | .POST | .GET => true
  | .uploadMoreImage | .feedBackUploadMoreImage => false

/-- The header fields after the lines at the head of an entry point. -/
def headersFor (a : App) (logged : Bool) : Headers :=
  (if logged then a.requestHeaders.insert accessToken a.loginModel.token
    else a.requestHeaders).insert (ns "appId") APPID

theorem lookup_headersFor (a : App) (logged : Bool) :
    (headersFor a logged).lookup accessToken =
      if logged then some a.loginModel.token else a.requestHeaders.lookup accessToken := by
  have hne : accessToken ≠ ns "appId" := by decide
  rw [headersFor, AList.lookup_insert_ne hne]
  cases logged
  · rfl
  · exact AList.lookup_insert _

theorem send_cases {call : Call} {a a' : App} {os : List Effect}
    (h : send call a = some (a', os)) :
    ∃ b r, a.loginModel.isLogin = some b ∧ r.id = a.nextId ∧ r.headers = headersFor a b ∧
      os = [.sent r] ∧
      a' = { a with
        requestHeaders := headersFor a b
        nextId := a.nextId + 1
        inFlight := a.inFlight ++ [r] } := by
  simp only [send, setHeaders, Option.map_map, Option.map_eq_some_iff] at h
  obtain ⟨b, hb, heq⟩ := h
  cases b <;> cases heq <;> exact ⟨_, _, hb, rfl, rfl, rfl, rfl⟩

theorem replySuccess_cases {entry : EntryPoint} {code : Option Json} {a a' : App}
    {os : List Effect} (h : replySuccess entry code a = some (a', os)) :
    (intValue code ≠ some 995 ∧ a' = a ∧ os = []) ∨
      (intValue code = some 995 ∧
        os = .removeFromLocal :: (if logsOut entry then [.logout] else []) ∧
        a' = { a with
          loginModel := LoginModel.removed
          loginInfo := none
          rootViewController :=
            if logsOut entry then some .login else a.rootViewController }) := by
  have key : ∀ out, successBlock out code a = some (a', os) →
      (intValue code ≠ some 995 ∧ a' = a ∧ os = []) ∨
        (intValue code = some 995 ∧ os = .removeFromLocal :: (if out then [.logout] else []) ∧
          a' = { a with
            loginModel := LoginModel.removed
            loginInfo := none
            rootViewController := if out then some .login else a.rootViewController }) := by
    intro out hout
    obtain ⟨c, hc, heq⟩ := Option.map_eq_some_iff.mp hout
    by_cases h995 : c = 995
    · right
      subst h995
      cases out <;> cases heq <;> exact ⟨hc, rfl, rfl⟩
    · left
      rw [if_neg h995] at heq
      cases heq
      exact ⟨fun h => h995 (Option.some.inj (hc.symm.trans h)), rfl, rfl⟩
  cases entry with
  | POST => exact key true h
  | GET => exact key true h
  | uploadMoreImage => exact key false h
  | feedBackUploadMoreImage => exact key false h

theorem loginCompletion_cases {alive : Bool} {resp : Response} {a a' : App}
    (h : loginCompletion alive resp a = some a') :
    (intValue resp.success ≠ some 1 ∧ a' = a) ∨
      (intValue resp.success = some 1 ∧ alive = false ∧ ∃ b, a.loginModel.isLogin = some b ∧
        a' = { a with rootViewController := some (rootFor b) }) ∨
      (intValue resp.success = some 1 ∧ alive = true ∧ ∃ m info b, m.isLogin = some b ∧
        a' = { a with
          loginModel := m
          loginInfo := info
          rootViewController := some (rootFor b) }) := by
  obtain ⟨ok, hok, heq⟩ := Option.bind_eq_some_iff.mp h
  by_cases h1 : ok = 1
  · right
    subst h1
    rw [if_pos rfl] at heq
    cases alive with
    | false =>
      left
      obtain ⟨b, hb, heq⟩ := Option.map_eq_some_iff.mp heq
      exact ⟨hok, rfl, b, hb, heq.symm⟩
    | true =>
      right
      obtain ⟨⟨m, info⟩, _, heq⟩ := Option.bind_eq_some_iff.mp heq
      obtain ⟨b, hb, heq⟩ := Option.map_eq_some_iff.mp heq
      exact ⟨hok, rfl, m, info, b, hb, heq.symm⟩
  · left
    rw [if_neg h1] at heq
    cases heq
    exact ⟨fun h => h1 (Option.some.inj (hok.symm.trans h)), rfl⟩

/-- The events that send a request in this state. -/
def sends (a : App) : Event → Bool
  | .send _ => true
  | .loginButClick => a.rootViewController = some .login
  | .reply .. | .failure _ => false

/-- The reply that stores a new login: a successful one to the login screen's request, with the
    screen still there. -/
def logsIn (a : App) : Event → Bool
  | .reply id resp alive =>
    (find a id).any (·.call = .login) && (intValue resp.success = some 1) && alive
  | _ => false

/-- What a reply to a request in flight does: its success block, then the login screen's completion
    when that screen sent it. -/
theorem step_reply {a a' : App} {id : ℕ} {resp : Response} {alive : Bool} {os : List Effect}
    {r : Request} (hr : find a id = some r) (h : step a (.reply id resp alive) = some (a', os)) :
    ∃ a₁, replySuccess r.call.entry resp.code (answered a id) = some (a₁, os) ∧
      (r.call ≠ .login ∧ a' = a₁ ∨
        r.call = .login ∧ loginCompletion alive resp a₁ = some a') := by
  simp only [step, hr] at h
  obtain ⟨⟨a₁, os₁⟩, h₁, h⟩ := Option.bind_eq_some_iff.mp h
  by_cases hl : r.call = .login
  · rw [if_pos hl] at h
    obtain ⟨a₂, h₂, heq⟩ := Option.map_eq_some_iff.mp h
    cases heq
    exact ⟨a₁, h₁, .inr ⟨hl, h₂⟩⟩
  · rw [if_neg hl] at h
    cases h
    exact ⟨_, h₁, .inl ⟨hl, rfl⟩⟩

/-- A step that sends is `send`, for one of the calls. -/
theorem step_sends {a a' : App} {e : Event} {os : List Effect} (hs : sends a e = true)
    (h : step a e = some (a', os)) : ∃ call, send call a = some (a', os) := by
  cases e with
  | send entry => exact ⟨.other entry, h⟩
  | loginButClick =>
    have hroot : a.rootViewController = some .login := by simpa [sends] using hs
    rw [step, if_pos hroot] at h
    exact ⟨.login, h⟩
  | reply id resp alive => cases hs
  | failure id => cases hs

/-- A step that does not send changes nothing, drops a request that failed, or answers one that is
    in flight. -/
theorem quiet_cases {a a' : App} {e : Event} {os : List Effect} (hs : sends a e = false)
    (h : step a e = some (a', os)) :
    (a' = a ∧ os = []) ∨ (∃ id, e = .failure id ∧ a' = answered a id ∧ os = []) ∨
      ∃ id resp alive r, e = .reply id resp alive ∧ find a id = some r := by
  cases e with
  | send entry => cases hs
  | loginButClick =>
    have hroot : ¬ a.rootViewController = some .login := by simpa [sends] using hs
    rw [step, if_neg hroot] at h
    cases h
    exact .inl ⟨rfl, rfl⟩
  | failure id =>
    cases h
    exact .inr (.inl ⟨id, rfl, rfl, rfl⟩)
  | reply id resp alive =>
    cases hr : find a id with
    | none =>
      simp only [step, hr] at h
      cases h
      exact .inl ⟨rfl, rfl⟩
    | some r => exact .inr (.inr ⟨id, resp, alive, r, rfl, hr⟩)

/-- A step that does not send leaves the serializer's header fields and the numbering alone, and
    puts nothing new in flight. -/
theorem step_quiet {a a' : App} {e : Event} {os : List Effect} (hs : sends a e = false)
    (h : step a e = some (a', os)) :
    a'.requestHeaders = a.requestHeaders ∧ a'.nextId = a.nextId ∧ a'.inFlight ⊆ a.inFlight ∧
      ∀ r, .sent r ∉ os := by
  obtain ⟨rfl, rfl⟩ | ⟨id, rfl, rfl, rfl⟩ | ⟨id, resp, alive, r, rfl, hr⟩ := quiet_cases hs h
  · exact ⟨rfl, rfl, List.Subset.refl _, by simp⟩
  · exact ⟨rfl, rfl, List.filter_sublist.subset, by simp⟩
  · obtain ⟨a₁, h₁, hend⟩ := step_reply hr h
    have hframe : a'.requestHeaders = a₁.requestHeaders ∧ a'.nextId = a₁.nextId ∧
        a'.inFlight = a₁.inFlight := by
      rcases hend with ⟨-, rfl⟩ | ⟨-, hc⟩
      · exact ⟨rfl, rfl, rfl⟩
      · obtain ⟨-, rfl⟩ | ⟨-, -, b, -, rfl⟩ | ⟨-, -, m, info, b, -, rfl⟩ :=
          loginCompletion_cases hc <;> exact ⟨rfl, rfl, rfl⟩
    obtain ⟨hh, hn, hf⟩ := hframe
    obtain ⟨-, rfl, rfl⟩ | ⟨-, rfl, rfl⟩ := replySuccess_cases h₁
    · exact ⟨hh, hn, hf ▸ List.filter_sublist.subset, by simp⟩
    · refine ⟨hh, hn, hf ▸ List.filter_sublist.subset, ?_⟩
      intro r'
      split_ifs <;> simp

/-! ### Screen and session -/

/-- The root is the one the session asks for. -/
def Agree (a : App) : Prop := ∃ b ∈ a.loginModel.isLogin, a.rootViewController = some (rootFor b)

/-- The step is not a 995 reply that removes a login and leaves the tabs on screen. -/
def LogsOutToo (a : App) : Event → Prop
  | .reply id resp _ => ∀ r ∈ find a id, intValue resp.code = some 995 →
      logsOut r.call.entry = false → a.loginModel.isLogin ≠ some true
  | _ => True

theorem agree_launch {stored : Option NSDictionary} {a : App} (h : launch stored = some a) :
    Agree a := by
  obtain ⟨b, hb, rfl⟩ := Option.map_eq_some_iff.mp h
  exact ⟨b, hb, rfl⟩

/-- A success block keeps root and session together unless it is the forgetful 995, which parts
    them. -/
theorem agree_replySuccess {entry : EntryPoint} {code : Option Json} {a a' : App}
    {os : List Effect} (hA : Agree a) (h : replySuccess entry code a = some (a', os)) :
    Agree a' ↔ (intValue code = some 995 → logsOut entry = false →
      a.loginModel.isLogin ≠ some true) := by
  obtain ⟨b, hb, hroot⟩ := hA
  replace hb : a.loginModel.isLogin = some b := hb
  obtain ⟨hcode, rfl, -⟩ | ⟨hcode, -, rfl⟩ := replySuccess_cases h
  · exact ⟨fun _ h995 => absurd h995 hcode, fun _ => ⟨b, hb, hroot⟩⟩
  cases hout : logsOut entry with
  | true => exact ⟨fun _ _ hf => (nomatch hf), fun _ => ⟨false, rfl, rfl⟩⟩
  | false =>
    constructor
    · rintro ⟨b', hb', hroot'⟩ - - hlogged
      obtain rfl : false = b' := Option.some.inj hb'
      obtain rfl : b = true := Option.some.inj (hb.symm.trans hlogged)
      replace hroot' : a.rootViewController = some .login := hroot'
      rw [hroot] at hroot'
      cases hroot'
    · intro hlogged
      cases b with
      | false => exact ⟨false, rfl, hroot⟩
      | true => exact absurd hb (hlogged hcode rfl)

/-- The login screen's completion settles the root by the login it leaves. -/
theorem agree_loginCompletion {alive : Bool} {resp : Response} {a a' : App} (hA : Agree a)
    (h : loginCompletion alive resp a = some a') : Agree a' := by
  obtain ⟨-, rfl⟩ | ⟨-, -, b, hb, rfl⟩ | ⟨-, -, m, info, b, hb, rfl⟩ := loginCompletion_cases h
  · exact hA
  · exact ⟨b, hb, rfl⟩
  · exact ⟨b, hb, rfl⟩

/-- A reply that is not the forgetful 995 keeps root and session together; the forgetful one parts
    them. -/
theorem agree_reply {a a' : App} {id : ℕ} {resp : Response} {alive : Bool} {os : List Effect}
    {r : Request} (hr : find a id = some r) (hA : Agree a)
    (h : step a (.reply id resp alive) = some (a', os)) :
    Agree a' ↔ (intValue resp.code = some 995 → logsOut r.call.entry = false →
      a.loginModel.isLogin ≠ some true) := by
  obtain ⟨a₁, h₁, hend⟩ := step_reply hr h
  have hsuccess := agree_replySuccess (a := answered a id) hA h₁
  rcases hend with ⟨-, rfl⟩ | ⟨hl, hc⟩
  · exact hsuccess
  · -- the login call is a POST, whose block logs out
    have hout : logsOut r.call.entry = true := by rw [hl]; rfl
    rw [hout] at hsuccess ⊢
    have hA₁ : Agree a₁ := hsuccess.mpr fun _ hf => nomatch hf
    exact ⟨fun _ _ hf => (nomatch hf), fun _ => agree_loginCompletion hA₁ hc⟩

/-- One step keeps root and session together iff it does not forget the root. -/
theorem agree_step {a a' : App} {e : Event} {os : List Effect} (hA : Agree a)
    (h : step a e = some (a', os)) : Agree a' ↔ LogsOutToo a e := by
  cases e with
  | reply id resp alive =>
    cases hr : find a id with
    | none =>
      simp only [step, hr] at h
      cases h
      simp [LogsOutToo, hr, hA]
    | some r => simpa [LogsOutToo, hr] using agree_reply hr hA h
  | failure id =>
    cases h
    exact ⟨fun _ => trivial, fun _ => hA⟩
  | send entry =>
    obtain ⟨b, r, -, -, -, -, rfl⟩ := send_cases h
    exact ⟨fun _ => trivial, fun _ => hA⟩
  | loginButClick =>
    simp only [step] at h
    split_ifs at h
    · obtain ⟨b, r, -, -, -, -, rfl⟩ := send_cases h
      exact ⟨fun _ => trivial, fun _ => hA⟩
    · cases h
      exact ⟨fun _ => trivial, fun _ => hA⟩

/-- From launch, root and session agree after every handler of a run iff no picture upload of the
    run is answered with code 995 while a login is stored. -/
theorem root_agrees_iff {stored : Option NSDictionary} {a : App} (h : launch stored = some a)
    (es : List Event) :
    (Agree a ∧ machine.Always (fun _ _ a' _ => Agree a') a es) ↔ machine.Meets LogsOutToo a es := by
  have hA := agree_launch h
  have hrun := Machine.always_iff_meets (M := machine) (P := fun _ _ a' _ => Agree a')
    (C := LogsOutToo) (I := Agree) (fun _ _ _ _ hI hC hs => (agree_step hI hs).mpr hC)
    (fun _ _ _ _ hI hs => agree_step hI hs) es a hA
  exact ⟨fun hh => hrun.mp hh.2, fun hm => ⟨hA, hrun.mpr hm⟩⟩

/-! ### Concrete replies -/

/-- A stored login whose token is the given string. -/
def storedLogin (token : String) : NSDictionary := dictionary [(ns "token", .str (ns token))]

/-- A reply with the given code and nothing else. -/
def replyCode (code : ℤ) (text : String) : Response :=
  { code := some (.num code (ns text)), success := none, result := none }

/-- A successful login reply with the given token. -/
def loginReply (token : String) : Response where
  code := some (.num 200 (ns "200"))
  success := some (.num 1 (ns "1"))
  result := some (.obj [(ns "token", .str (ns token))] [])

instance (a : App) : Decidable (Agree a) := Option.decidableExistsMem _

theorem root_agrees_fails : ¬ ∀ (stored : Option NSDictionary) (a : App) (es : List Event),
    launch stored = some a → machine.Always (fun _ _ a' _ => Agree a') a es := by
  intro h
  have hrun := h (some (storedLogin "T1")) _
    [.send .uploadMoreImage, .reply 0 (replyCode 995 "995") true] rfl
  revert hrun
  decide

theorem root_agrees_iff_signedIn :
    let a : App := (launch (some (storedLogin "T1"))).get rfl
    (Agree a ∧ machine.Always (fun _ _ a' _ => Agree a') a
        [.send .POST, .reply 0 (replyCode 995 "995") true]) ↔
      machine.Meets LogsOutToo a [.send .POST, .reply 0 (replyCode 995 "995") true] :=
  root_agrees_iff (Option.some_get _).symm _

/-! ### The token header -/

/-- The requests among the effects of a step. -/
def Effect.request? : Effect → Option Request
  | .sent r => some r
  | .removeFromLocal | .logout => none

/-- Each request of the step carries the current token when logged in, and no token otherwise. -/
def HeaderMatches (a : App) (_ : Event) (_ : App) (os : List Effect) : Prop :=
  ∀ r ∈ os.filterMap Effect.request?,
    r.token = if a.loginModel.isLogin = some true then some a.loginModel.token else none

/-- Whether some request so far was sent while logged in. -/
def sentLoggedIn (sent : Bool) (a : App) (e : Event) : Bool :=
  sent || (sends a e && (a.loginModel.isLogin = some true))

/-- The step does not send while logged out after a request that was sent while logged in. -/
def NoStaleSend (s : App × Bool) (e : Event) : Prop :=
  sends s.1 e = true → s.1.loginModel.isLogin = some true ∨ s.2 = false

/-- The serializer holds a token iff some request was sent while logged in. -/
def TokenKept (s : App × Bool) : Prop := (s.1.requestHeaders.lookup accessToken).isSome = s.2

theorem tokenKept_step {s s' : App × Bool} {e : Event} {os : List Effect} (hI : TokenKept s)
    (h : (machine.observe sentLoggedIn).step s e = some (s', os)) : TokenKept s' := by
  obtain ⟨a, sent⟩ := s
  obtain ⟨a', sent'⟩ := s'
  obtain ⟨hstep, rfl⟩ := Machine.observe_step.mp h
  replace hstep : step a e = some (a', os) := hstep
  cases hs : sends a e with
  | true =>
    obtain ⟨call, hsend⟩ := step_sends hs hstep
    obtain ⟨b, r, hb, -, -, -, rfl⟩ := send_cases hsend
    simp only [TokenKept, sentLoggedIn, hs, hb, lookup_headersFor]
    cases b
    · simpa [TokenKept] using hI
    · simp
  | false =>
    obtain ⟨hheaders, -⟩ := step_quiet hs hstep
    simpa [TokenKept, sentLoggedIn, hs, hheaders] using hI

/-- What a step sends carries the right token header iff it is not a stale send. -/
theorem headerMatches_step {s s' : App × Bool} {e : Event} {os : List Effect} (hI : TokenKept s)
    (h : (machine.observe sentLoggedIn).step s e = some (s', os)) :
    HeaderMatches s.1 e s'.1 os ↔ NoStaleSend s e := by
  obtain ⟨a, sent⟩ := s
  obtain ⟨a', sent'⟩ := s'
  obtain ⟨hstep, -⟩ := Machine.observe_step.mp h
  replace hstep : step a e = some (a', os) := hstep
  cases hs : sends a e with
  | true =>
    obtain ⟨call, hsend⟩ := step_sends hs hstep
    obtain ⟨b, r, hb, -, hh, rfl, -⟩ := send_cases hsend
    have htoken : r.token = if b then some a.loginModel.token
        else a.requestHeaders.lookup accessToken := by
      rw [Request.token, hh, lookup_headersFor]
    cases b with
    | true => simp [HeaderMatches, NoStaleSend, Effect.request?, htoken, hb]
    | false =>
      have hkept : (a.requestHeaders.lookup accessToken).isSome = sent := hI
      have hiff : a.requestHeaders.lookup accessToken = none ↔ sent = false := by
        rw [← hkept, Option.isSome_eq_false_iff, Option.isNone_iff_eq_none]
      simp [HeaderMatches, NoStaleSend, Effect.request?, htoken, hb, hs, hiff]
  | false =>
    obtain ⟨-, -, -, hnone⟩ := step_quiet hs hstep
    have hempty : os.filterMap Effect.request? = [] := by
      rw [List.filterMap_eq_nil_iff]
      intro o ho
      cases o with
      | sent r => exact absurd ho (hnone r)
      | removeFromLocal => rfl
      | logout => rfl
    simp [HeaderMatches, NoStaleSend, hs, hempty]

/-- From launch, every request of a run carries the token header its session asks for iff none is
    sent while logged out after one that was sent while logged in. -/
theorem token_header_matches_iff {stored : Option NSDictionary} {a : App}
    (h : launch stored = some a) (es : List Event) :
    machine.Always HeaderMatches a es ↔
      (machine.observe sentLoggedIn).Meets NoStaleSend (a, false) es := by
  have hI : TokenKept (a, false) := by
    obtain ⟨b, -, rfl⟩ := Option.map_eq_some_iff.mp h
    rfl
  rw [← Machine.always_observe (f := sentLoggedIn) es a false]
  exact Machine.always_iff_meets (M := machine.observe sentLoggedIn)
    (P := fun s e s' os => HeaderMatches s.1 e s'.1 os) (C := NoStaleSend) (I := TokenKept)
    (fun _ _ _ _ hk _ hs => tokenKept_step hk hs)
    (fun _ _ _ _ hk hs => headerMatches_step hk hs) es (a, false) hI

instance (a : App) (e : Event) (a' : App) (os : List Effect) :
    Decidable (HeaderMatches a e a' os) :=
  inferInstanceAs (Decidable (∀ r ∈ os.filterMap Effect.request?,
    r.token = if a.loginModel.isLogin = some true then some a.loginModel.token else none))

theorem token_header_outlives : ¬ ∀ (stored : Option NSDictionary) (a : App) (es : List Event),
    launch stored = some a → machine.Always HeaderMatches a es := by
  intro h
  have hrun := h (some (storedLogin "T1")) _
    [.send .GET, .reply 0 (replyCode 995 "995") true, .send .POST] rfl
  revert hrun
  decide +kernel

theorem token_header_matches_iff_signedIn :
    let a : App := (launch (some (storedLogin "T1"))).get rfl
    machine.Always HeaderMatches a [.send .GET, .send .POST] ↔
      (machine.observe sentLoggedIn).Meets NoStaleSend (a, false) [.send .GET, .send .POST] :=
  token_header_matches_iff (Option.some_get _).symm _

/-! ### Replies that outlive their session -/

/-- The step removes the stored login or shows the login screen in its place. -/
def Effect.endsSession : Effect → Bool
  | .sent _ => false
  | .removeFromLocal | .logout => true

/-- The request an event answers. -/
def answers (a : App) : Event → Option Request
  | .reply id _ _ => find a id
  | _ => none

/-- A step that ends the session answers a request sent with the current session's token. -/
def EndsOwnSession (a : App) (e : Event) (_ : App) (os : List Effect) : Prop :=
  os.any Effect.endsSession = true →
    ∃ r ∈ answers a e, a.loginModel.isLogin = some true ∧ r.token = some a.loginModel.token

/-- A step that ends a session answers a request sent with its token or before it was stored. -/
def EndsOwnOrOlder (s : App × ℕ) (e : Event) (_ : App × ℕ) (os : List Effect) : Prop :=
  os.any Effect.endsSession = true →
    ∃ r ∈ answers s.1 e, s.1.loginModel.isLogin = some true →
      r.token = some s.1.loginModel.token ∨ r.id < s.2

/-- The number of the next request when the login was last stored: what is in flight with a
    smaller number was sent before. -/
def storedAt (n : ℕ) (a : App) (e : Event) : ℕ := if logsIn a e then a.nextId else n

/-- Requests in flight are numbered below the next one, and those sent since the login was stored
    carry its token. -/
structure Dated (s : App × ℕ) : Prop where
  numbered : ∀ r ∈ s.1.inFlight, r.id < s.1.nextId
  current : s.1.loginModel.isLogin = some true →
    ∀ r ∈ s.1.inFlight, s.2 ≤ r.id → r.token = some s.1.loginModel.token

/-- A step that does not send stores a login, leaves it alone, or removes it. -/
theorem login_quiet {a a' : App} {e : Event} {os : List Effect} (hs : sends a e = false)
    (h : step a e = some (a', os)) :
    logsIn a e = true ∨ a'.loginModel = a.loginModel ∨ a'.loginModel.isLogin = some false := by
  obtain ⟨rfl, -⟩ | ⟨id, rfl, rfl, -⟩ | ⟨id, resp, alive, r, rfl, hr⟩ := quiet_cases hs h
  · exact .inr (.inl rfl)
  · exact .inr (.inl rfl)
  · obtain ⟨a₁, h₁, hend⟩ := step_reply hr h
    have hkept : a₁.loginModel = a.loginModel ∨ a₁.loginModel.isLogin = some false := by
      obtain ⟨-, rfl, -⟩ | ⟨-, -, rfl⟩ := replySuccess_cases h₁
      · exact .inl rfl
      · exact .inr rfl
    rcases hend with ⟨-, rfl⟩ | ⟨hl, hc⟩
    · exact .inr hkept
    · obtain ⟨-, rfl⟩ | ⟨-, -, b, -, rfl⟩ | ⟨hok, halive, -⟩ := loginCompletion_cases hc
      · exact .inr hkept
      · exact .inr hkept
      · left
        simp [logsIn, hr, hl, hok, halive]

/-- A request that leaves while logged in carries the token of the login. -/
theorem dated_send {a a' : App} {n : ℕ} {call : Call} {os : List Effect} (hI : Dated (a, n))
    (h : send call a = some (a', os)) : Dated (a', n) := by
  obtain ⟨b, r, hb, hid, hh, -, rfl⟩ := send_cases h
  refine ⟨?_, ?_⟩
  · intro r' hr'
    rcases List.mem_append.mp hr' with hold | hnew
    · exact (hI.numbered r' hold).trans (Nat.lt_succ_self _)
    · rw [List.mem_singleton.mp hnew, hid]
      exact Nat.lt_succ_self _
  · intro hlogged r' hr' hn
    obtain rfl : b = true := Option.some.inj (hb.symm.trans hlogged)
    rcases List.mem_append.mp hr' with hold | hnew
    · exact hI.current hlogged r' hold hn
    · rw [List.mem_singleton.mp hnew, Request.token, hh, lookup_headersFor]
      rfl

theorem dated_quiet {a a' : App} {n : ℕ} {e : Event} {os : List Effect} (hI : Dated (a, n))
    (hs : sends a e = false) (h : step a e = some (a', os)) : Dated (a', storedAt n a e) := by
  obtain ⟨-, hnext, hsub, -⟩ := step_quiet hs h
  have hnum : ∀ r ∈ a'.inFlight, r.id < a.nextId := fun r hr => hI.numbered r (hsub hr)
  refine ⟨fun r hr => (hnum r hr).trans_eq hnext.symm, ?_⟩
  intro hlogged r hr hn
  by_cases hin : logsIn a e = true
  · -- everything still in flight was sent before this login
    rw [storedAt, if_pos hin] at hn
    exact absurd (hnum r hr) (Nat.not_lt.mpr hn)
  · rw [storedAt, if_neg hin] at hn
    rcases login_quiet hs h with hin' | hsame | hout
    · exact absurd hin' hin
    · rw [hsame] at hlogged ⊢
      exact hI.current hlogged r (hsub hr) hn
    · rw [hout] at hlogged
      cases hlogged

theorem dated_step {s s' : App × ℕ} {e : Event} {os : List Effect} (hI : Dated s)
    (h : (machine.observe storedAt).step s e = some (s', os)) : Dated s' := by
  obtain ⟨a, n⟩ := s
  obtain ⟨a', n'⟩ := s'
  obtain ⟨hstep, rfl⟩ := Machine.observe_step.mp h
  replace hstep : step a e = some (a', os) := hstep
  cases hs : sends a e with
  | true =>
    obtain ⟨call, hsend⟩ := step_sends hs hstep
    have hquiet : logsIn a e = false := by cases e <;> first | rfl | cases hs
    rw [storedAt, hquiet]
    exact dated_send hI hsend
  | false => exact dated_quiet hI hs hstep

/-- Only the reply to a request in flight ends a session. -/
theorem answers_of_endsSession {a a' : App} {e : Event} {os : List Effect}
    (h : step a e = some (a', os)) (hends : os.any Effect.endsSession = true) :
    ∃ r ∈ answers a e, r ∈ a.inFlight := by
  cases hs : sends a e with
  | true =>
    obtain ⟨call, hsend⟩ := step_sends hs h
    obtain ⟨b, r, -, -, -, rfl, -⟩ := send_cases hsend
    cases hends
  | false =>
    obtain ⟨-, rfl⟩ | ⟨id, -, -, rfl⟩ | ⟨id, resp, alive, r, rfl, hr⟩ := quiet_cases hs h
    · cases hends
    · cases hends
    · exact ⟨r, hr, List.mem_of_find?_eq_some hr⟩

/-- From launch, a reply ends the current session only if its request carried that session's token
    or was sent before that session's login was stored. -/
theorem endsOwnOrOlder {stored : Option NSDictionary} {a : App} (h : launch stored = some a)
    (es : List Event) : (machine.observe storedAt).Always EndsOwnOrOlder (a, 0) es := by
  have hI : Dated (a, 0) := by
    obtain ⟨b, -, rfl⟩ := Option.map_eq_some_iff.mp h
    exact ⟨by simp, by simp⟩
  refine Machine.always_of_inv (I := Dated) ?_ es (a, 0) hI
  rintro ⟨a, n⟩ e s' os hD hs
  refine ⟨dated_step hD hs, fun hends => ?_⟩
  obtain ⟨r, hr, hmem⟩ := answers_of_endsSession (Machine.observe_step.mp hs).1 hends
  refine ⟨r, hr, fun hlogged => ?_⟩
  rcases Nat.lt_or_ge r.id n with hlt | hge
  · exact .inr hlt
  · exact .inl (hD.current hlogged r hmem hge)

theorem endsOwnOrOlder_signedIn :
    (machine.observe storedAt).Always EndsOwnOrOlder ((launch (some (storedLogin "T1"))).get rfl, 0)
      [.send .GET, .reply 0 (replyCode 995 "995") true] :=
  endsOwnOrOlder (Option.some_get _).symm _

instance (a : App) (e : Event) (a' : App) (os : List Effect) :
    Decidable (EndsOwnSession a e a' os) :=
  inferInstanceAs (Decidable (os.any Effect.endsSession = true → ∃ r ∈ answers a e,
    a.loginModel.isLogin = some true ∧ r.token = some a.loginModel.token))

theorem late_reply_ends_new_session :
    ¬ ∀ (stored : Option NSDictionary) (a : App) (es : List Event),
      launch stored = some a → machine.Always EndsOwnSession a es := by
  intro h
  have hrun := h (some (storedLogin "T1")) _
    [.send .GET, .send .GET, .reply 0 (replyCode 995 "995") true, .loginButClick,
      .reply 2 (loginReply "T2") true, .reply 1 (replyCode 995 "995") true] rfl
  revert hrun
  decide +kernel

end LeYiDai.Session
