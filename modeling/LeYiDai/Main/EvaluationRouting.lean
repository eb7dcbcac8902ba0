import LeYiDai.Main.EvaluationViewController

/-! Where the screens of the credit application lead, against the list. The list counts as the
    server returned it, with the steps completed since; the screen due is the one of its first step
    that is still not passed, and Finish when every step is. -/

namespace LeYiDai.Evaluation

open NavigationController

/-- The list the evaluation screen last read, and the steps completed since. -/
structure Progress where
  list : List (Step × AuthState)
  completed : List Step
  deriving DecidableEq

namespace Progress

/-- The step is still not passed. -/
def IsOpen (t : Progress) (p : Step × AuthState) : Prop := p.2 ≠ .passed ∧ p.1 ∉ t.completed

instance (t : Progress) (p : Step × AuthState) : Decidable (t.IsOpen p) :=
  inferInstanceAs (Decidable (_ ∧ _))

def complete (t : Progress) (k : Step) : Progress := { t with completed := k :: t.completed }

/-- The screen of the first step that is still not passed. -/
def due (t : Progress) : Screen :=
  ((t.list.find? fun p => t.IsOpen p).map (·.1.screen)).getD .finishAuthen

/-- The step is listed and not passed, and every step listed before it is passed. -/
def FirstOpen (t : Progress) (k : Step) : Prop :=
  ∃ pre st post, t.list = pre ++ (k, st) :: post ∧ t.IsOpen (k, st) ∧ ∀ p ∈ pre, ¬ t.IsOpen p

theorem screen_injective {k l : Step} (h : k.screen = l.screen) : k = l := by
  cases k <;> cases l <;> first | rfl | cases h

theorem screen_eq_due_iff {t : Progress} {k : Step} : k.screen = t.due ↔ t.FirstOpen k := by
  rw [due, FirstOpen]
  constructor
  · intro h
    cases hfirst : t.list.find? fun p => t.IsOpen p with
    | none =>
      rw [hfirst] at h
      cases k <;> cases h
    | some p =>
      obtain ⟨k', st⟩ := p
      rw [hfirst] at h
      obtain rfl : k = k' := screen_injective h
      obtain ⟨hopen, pre, post, hlist, hpre⟩ := List.find?_eq_some_iff_append.mp hfirst
      exact ⟨pre, st, post, hlist, by simpa using hopen, fun p hp => by simpa using hpre p hp⟩
  · rintro ⟨pre, st, post, hlist, hopen, hpre⟩
    have hfirst : (t.list.find? fun p => t.IsOpen p) = some (k, st) :=
      List.find?_eq_some_iff_append.mpr
        ⟨by simpa using hopen, pre, post, hlist, fun p hp => by simpa using hpre p hp⟩
    rw [hfirst]
    rfl

theorem finishAuthen_eq_due_iff {t : Progress} :
    .finishAuthen = t.due ↔ ∀ p ∈ t.list, ¬ t.IsOpen p := by
  rw [due]
  cases hfirst : t.list.find? fun p => t.IsOpen p with
  | none => simpa using hfirst
  | some p =>
    have hopen : t.IsOpen p := by simpa using List.find?_some hfirst
    constructor
    · intro h
      obtain ⟨k, st⟩ := p
      cases k <;> cases h
    · exact fun h => absurd hopen (h p (List.mem_of_find?_eq_some hfirst))

/-- The first step that was not passed in the list as it was read is still the first one, unless it
    has been completed since. -/
theorem firstOpen_iff_of_first {t : Progress} {k : Step} {st : AuthState}
    (h : t.list.find? (·.2 ≠ .passed) = some (k, st)) : t.FirstOpen k ↔ k ∉ t.completed := by
  obtain ⟨hst, pre, post, hlist, hpre⟩ := List.find?_eq_some_iff_append.mp h
  constructor
  · rintro ⟨_, _, _, _, hopen, _⟩
    exact hopen.2
  · intro hk
    refine ⟨pre, st, post, hlist, ⟨by simpa using hst, hk⟩, ?_⟩
    rintro p hp ⟨hp', -⟩
    exact absurd (hpre p hp) (by simpa using hp')

end Progress

open Progress

/-- The list an event brings to the evaluation screen. A new evaluation screen starts without. -/
def listRead (s : NavigationController) : Event → Option (List (Step × AuthState))
  | .whiteBgViewButtonClick => if s.viewControllers.isEmpty then some [] else none
  | .reply id (.custAuthresult list) =>
    (s.find id).bind fun r =>
      if r.call = .custAuthGetCustAuth ∧ s.alive r.sender then some list else none
  | _ => none

/-- The step a submission completes when it succeeds. The operator page is no submission. -/
def Call.completes : Call → Option Step
  | .uploadMoreImage => some .cert
  | .faceRecognition => some .face
  | .custAuthBankInsert => some .card
  | .custAuthCustInfoUp => some .zx
  | .custAuthGetCustAuth | .custAuthOperatorInsert => none

/-- The step that succeeds on the server with an event. -/
def stepDone (s : NavigationController) : Event → Option Step
  | .nextStep id => if s.pageAlive id then some .tele else none
  | .reply id .success => (s.find id).bind (·.call.completes)
  | _ => none

/-- The list and the steps completed since, as they stand after an event. -/
def progress (t : Progress) (s : NavigationController) (e : Event) : Progress :=
  match listRead s e, stepDone s e with
  | some list, _ => { list, completed := [] }
  | none, some k => t.complete k
  | none, none => t

/-- The screens that stand for a step, and Finish. The detail screen belongs to the photos. -/
def Screen.isRouted : Screen → Bool
  | .evaluation | .authenDetial => false
  | _ => true

/-- Every screen an event opens is the one that is due after it. -/
def OpensDue (_ : NavigationController × Progress) (_ : Event)
    (s' : NavigationController × Progress) (os : List Effect) : Prop :=
  ∀ screen, .pushed screen ∈ os → screen.isRouted = true → screen = s'.2.due

/-- Where the two routers agree. The start button finds that the first step that was not passed in
    the list as it was read has not been completed since, and the chain goes on only to the step
    that is first in the list among those still not passed, to Finish when none is left. A push that
    the stack drops leads nowhere. -/
def Agrees (s : NavigationController × Progress) (e : Event) : Prop :=
  match e with
  | .renZhengButtonClick => s.1.topEvaluation.isSome = true →
      ∀ p ∈ s.2.list.find? (·.2 ≠ .passed), p.1 ≠ .tele → p.1 ∉ s.2.completed
  | .nextButtonClick => (s.1.viewControllers.head?.map (·.screen)) = some .authenDetial →
      s.2.FirstOpen .face
  | .nextStep id => s.1.pageAlive id = true → s.1.opens .bankAuthen = true →
      (s.2.complete .tele).FirstOpen .card
  | .reply id .success => ∀ r ∈ s.1.find id, s.1.alive r.sender = true →
      match r.call with
      | .custAuthOperatorInsert => s.1.opens .yssWeb = true → s.2.FirstOpen .tele
      | .custAuthBankInsert => s.1.opens .applicationInformation = true →
          (s.2.complete .card).FirstOpen .zx
      | .custAuthCustInfoUp => s.1.opens .finishAuthen = true →
          ∀ p ∈ s.2.list, ¬ (s.2.complete .zx).IsOpen p
      | _ => True
  | _ => True

/-- The evaluation screen holds the models of the list it last read. -/
def Lists (s : NavigationController × Progress) : Prop := s.1.listArray = s.2.list.map model

variable {s s' : NavigationController} {t t' : Progress} {e : Event} {os : List Effect}

/-- A step that opens nothing, or a screen that stands for no step, opens nothing that is not
    due. -/
theorem opensDue_of_quiet {a b : NavigationController × Progress}
    (h : ∀ screen, .pushed screen ∈ os → screen.isRouted = false) : OpensDue a e b os := by
  intro screen hmem hrouted
  rw [h screen hmem] at hrouted
  cases hrouted

theorem opensDue_pushed {a b : NavigationController × Progress} {screen : Screen}
    (h : screen.isRouted = true) : OpensDue a e b [.pushed screen] ↔ screen = b.2.due := by
  constructor
  · exact fun hopens => hopens screen (List.mem_singleton.mpr rfl) h
  · rintro hdue screen' hmem -
    cases List.mem_singleton.mp hmem
    exact hdue

theorem eq_of_mem_push {screen screen' : Screen} (h : .pushed screen' ∈ (s.push screen).2) :
    screen' = screen := by
  rw [push] at h
  split_ifs at h
  · cases List.mem_singleton.mp h
    rfl
  · cases h

/-- A push opens its screen if it goes through. -/
theorem opensDue_push {a b : NavigationController × Progress} {screen : Screen}
    (h : screen.isRouted = true) :
    OpensDue a e b (s.push screen).2 ↔ (s.opens screen = true → screen = b.2.due) := by
  rw [push]
  split_ifs with hopens
  · rw [opensDue_pushed h]
    simp [hopens]
  · simp [hopens, OpensDue]

theorem answered_alive (s : NavigationController) (id sender : ℕ) :
    (s.answered id).alive sender = s.alive sender := rfl

theorem answered_opens (s : NavigationController) (id : ℕ) (screen : Screen) :
    (s.answered id).opens screen = s.opens screen := rfl

/-- A controller opens a screen that stands for a step, if it is still on the stack and none of the
    class is on top. -/
theorem opensDue_pushFrom {a b : NavigationController × Progress} {screen : Screen} {sender : ℕ}
    (h : screen.isRouted = true) :
    OpensDue a e b (s.pushFrom sender screen).2 ↔
      (s.alive sender = true → s.opens screen = true → screen = b.2.due) := by
  rw [pushFrom]
  split_ifs with halive
  · rw [opensDue_push h]
    simp [halive]
  · simp [halive, OpensDue]

/-- Above the evaluation screen every step's own screen opens. -/
theorem opens_of_topEvaluation {vc : Controller} (h : s.topEvaluation = some vc) (k : Step) :
    s.opens k.screen = true := by
  obtain ⟨hhead, hscreen⟩ := Option.filter_eq_some_iff.mp h
  simp only [decide_eq_true_eq] at hscreen
  rw [opens, hhead, Option.map_some, hscreen]
  cases k <;> rfl

/-- What the start button opens: the step's own screen, but for the operator page, which comes with
    the reply to `creatOperInsert`. -/
theorem renZhengButtonClick_effects {id : ℕ} {list : List (Step × AuthState)}
    (hlist : s.listArray = list.map model) (hopens : ∀ k : Step, s.opens k.screen = true) :
    (s.renZhengButtonClick id).2 =
      match list.find? (·.2 ≠ .passed) with
      | none => []
      | some (.tele, _) => (s.creatOperInsert id).2
      | some (k, _) => [.pushed k.screen] := by
  have hstate : ∀ p : Step × AuthState,
      ((model p).authState = 0 || (model p).authState = 9) = decide (p.2 ≠ .passed) := by
    rintro ⟨k, st⟩
    cases st <;> rfl
  have hpush : ∀ k : Step, (s.push k.screen).2 = [.pushed k.screen] := by
    intro k
    rw [push, if_pos (hopens k)]
  rw [renZhengButtonClick, hlist, List.find?_map]
  simp only [Function.comp_def, hstate]
  cases list.find? (·.2 ≠ .passed) with
  | none => rfl
  | some p =>
    obtain ⟨k, st⟩ := p
    cases k with
    | tele => rfl
    | cert => exact hpush .cert
    | face => exact hpush .face
    | card => exact hpush .card
    | zx => exact hpush .zx

/-- Before a list reply or a completed step the progress is as it was. -/
theorem progress_of_none (hlist : listRead s e = none) (hdone : stepDone s e = none) :
    progress t s e = t := by
  rw [progress, hlist, hdone]

theorem progress_of_done {k : Step} (hlist : listRead s e = none) (hdone : stepDone s e = some k) :
    progress t s e = t.complete k := by
  rw [progress, hlist, hdone]

theorem opensDue_renZheng (hI : Lists (s, t))
    (h : s.step .renZhengButtonClick = some (s', os)) :
    OpensDue (s, t) .renZhengButtonClick (s', progress t s .renZhengButtonClick) os ↔
      Agrees (s, t) .renZhengButtonClick := by
  simp only [step] at h
  cases htop : s.topEvaluation with
  | none =>
    rw [htop] at h
    cases h
    simp [OpensDue, Agrees, htop]
  | some vc =>
    rw [htop] at h
    have hos : (s.renZhengButtonClick vc.id).2 = os := congrArg Prod.snd (Option.some.inj h)
    rw [← hos, renZhengButtonClick_effects hI (opens_of_topEvaluation htop)]
    simp only [Agrees, htop, Option.isSome_some, forall_const]
    cases hfirst : t.list.find? (·.2 ≠ .passed) with
    | none => simp [OpensDue]
    | some p =>
      obtain ⟨k, st⟩ := p
      have hexact : k.screen = t.due ↔ k ∉ t.completed := by
        rw [screen_eq_due_iff, firstOpen_iff_of_first hfirst]
      cases k with
      | tele => simp [OpensDue, creatOperInsert, send]
      | cert | face | card | zx =>
        rw [opensDue_pushed rfl]
        simpa [progress, listRead, stepDone] using hexact

theorem opensDue_nextButtonClick (h : s.step .nextButtonClick = some (s', os)) :
    OpensDue (s, t) .nextButtonClick (s', progress t s .nextButtonClick) os ↔
      Agrees (s, t) .nextButtonClick := by
  simp only [step] at h
  cases htop : s.viewControllers.head? with
  | none =>
    rw [htop] at h
    cases h
    simp [OpensDue, Agrees, htop]
  | some vc =>
    obtain ⟨id, screen⟩ := vc
    rw [htop] at h
    cases screen with
    | authenDetial =>
      have hos : (s.push .faceAuthen).2 = os := congrArg Prod.snd (Option.some.inj h)
      have hopens : s.opens .faceAuthen = true := by simp [opens, htop]
      have hexact : Screen.faceAuthen = t.due ↔ t.FirstOpen .face :=
        screen_eq_due_iff (k := .face)
      rw [← hos, opensDue_push rfl]
      simpa [Agrees, htop, hopens, progress, listRead, stepDone] using hexact
    | evaluation | authentication | faceAuthen | yssWeb | bankAuthen | applicationInformation
    | finishAuthen =>
      cases h
      simp [OpensDue, Agrees, htop]

theorem opensDue_nextStep {id : ℕ} (h : s.step (.nextStep id) = some (s', os)) :
    OpensDue (s, t) (.nextStep id) (s', progress t s (.nextStep id)) os ↔
      Agrees (s, t) (.nextStep id) := by
  have hos : (s.nextStep id).2 = os := congrArg Prod.snd (Option.some.inj h)
  rw [← hos, nextStep, Agrees]
  split_ifs with hpage
  · have hdone : stepDone s (.nextStep id) = some .tele := by simp [stepDone, hpage]
    have hexact : Screen.bankAuthen = (t.complete .tele).due ↔ (t.complete .tele).FirstOpen .card :=
      screen_eq_due_iff (k := .card)
    rw [opensDue_push rfl, progress_of_done rfl hdone]
    simp only [hpage, forall_const]
    exact imp_congr_right fun _ => hexact
  · simp [OpensDue, hpage]

theorem opensDue_success {id : ℕ} (h : s.step (.reply id .success) = some (s', os)) :
    OpensDue (s, t) (.reply id .success) (s', progress t s (.reply id .success)) os ↔
      Agrees (s, t) (.reply id .success) := by
  simp only [step] at h
  cases hr : s.find id with
  | none =>
    rw [hr] at h
    cases h
    simp [OpensDue, Agrees, hr]
  | some r =>
    rw [hr] at h
    have hos : ((s.answered id).completion r .success).2 = os :=
      congrArg Prod.snd (Option.some.inj h)
    have hdone : stepDone s (.reply id .success) = r.call.completes := by
      simp [stepDone, hr]
    rw [← hos]
    obtain ⟨rid, sender, call⟩ := r
    simp only [Agrees, hr, Option.mem_def, Option.some.injEq, forall_eq']
    cases call with
    | custAuthGetCustAuth => simp [OpensDue, completion]
    | uploadMoreImage =>
      refine iff_of_true (opensDue_of_quiet ?_) (fun _ => trivial)
      intro screen hmem
      simp only [completion, pushFrom] at hmem
      split_ifs at hmem
      · rw [eq_of_mem_push hmem]
        rfl
      · cases hmem
    | faceRecognition => simp [OpensDue, completion, creatOperInsert, send]
    | custAuthOperatorInsert =>
      change OpensDue _ _ _ ((s.answered id).pushFrom sender .yssWeb).2 ↔ _
      rw [opensDue_pushFrom rfl, answered_alive, answered_opens, progress_of_none rfl hdone]
      exact imp_congr_right fun _ => imp_congr_right fun _ => screen_eq_due_iff (k := .tele)
    | custAuthBankInsert =>
      change OpensDue _ _ _ ((s.answered id).pushFrom sender .applicationInformation).2 ↔ _
      rw [opensDue_pushFrom rfl, answered_alive, answered_opens, progress_of_done rfl hdone]
      exact imp_congr_right fun _ => imp_congr_right fun _ => screen_eq_due_iff (k := .zx)
    | custAuthCustInfoUp =>
      change OpensDue _ _ _ ((s.answered id).pushFrom sender .finishAuthen).2 ↔ _
      rw [opensDue_pushFrom rfl, answered_alive, answered_opens, progress_of_done rfl hdone]
      exact imp_congr_right fun _ => imp_congr_right fun _ => finishAuthen_eq_due_iff

/-- The step opens only what is due iff the routers agree on it. -/
theorem opensDue_iff (hI : Lists (s, t)) (h : s.step e = some (s', os)) :
    OpensDue (s, t) e (s', progress t s e) os ↔ Agrees (s, t) e := by
  cases e with
  | renZhengButtonClick => exact opensDue_renZheng hI h
  | nextButtonClick => exact opensDue_nextButtonClick h
  | nextStep id => exact opensDue_nextStep h
  | whiteBgViewButtonClick =>
    refine iff_of_true (opensDue_of_quiet ?_) trivial
    intro screen hmem
    simp only [step] at h
    split_ifs at h
    · cases h
      rcases List.mem_append.mp hmem with hmem | hmem
      · rw [eq_of_mem_push hmem]
        rfl
      · cases List.mem_singleton.mp hmem
    · cases h
      cases hmem
  | pop =>
    cases h
    simp [OpensDue, Agrees]
  | rightBtnClip =>
    have hnone : os = [] := by
      simp only [step] at h
      split at h <;> cases h <;> rfl
    simp [hnone, OpensDue, Agrees]
  | reply id body =>
    cases body with
    | success => exact opensDue_success h
    | failure | refused | custAuthresult list =>
      have hnone : os = [] := by
        simp only [step] at h
        split at h
        · cases h
          rfl
        · rename_i r _
          obtain ⟨rid, sender, call⟩ := r
          cases call <;> cases h <;> rfl
      simp [hnone, OpensDue, Agrees]

/-- A completed step leaves the list as it was read. -/
theorem list_progress_of_none (hlist : listRead s e = none) : (progress t s e).list = t.list := by
  rw [progress, hlist]
  cases stepDone s e <;> rfl

theorem lists_reply {id : ℕ} {body : Body} (hI : Lists (s, t))
    (h : s.step (.reply id body) = some (s', os)) :
    Lists (s', progress t s (.reply id body)) := by
  simp only [step] at h
  cases hr : s.find id with
  | none =>
    rw [hr] at h
    cases h
    have hnone : listRead s (.reply id body) = none := by
      cases body <;> simp [listRead, hr]
    rw [Lists, list_progress_of_none hnone]
    exact hI
  | some r =>
    rw [hr] at h
    have hs' : ((s.answered id).completion r body).1 = s' := congrArg Prod.fst (Option.some.inj h)
    rw [← hs']
    by_cases hread : r.call = .custAuthGetCustAuth ∧ ∃ list, body = .custAuthresult list
    · obtain ⟨hcall, list, rfl⟩ := hread
      rw [Lists, completion_custAuthresult hcall]
      split_ifs with halive
      · simp [progress, listRead, hr, hcall, ← answered_alive s id, halive]
      · have hnone : listRead s (.reply id (.custAuthresult list)) = none := by
          rw [listRead, hr, Option.bind_some, ← answered_alive s id]
          exact if_neg fun hboth => halive hboth.2
        rw [list_progress_of_none hnone]
        exact hI
    · have hnone : listRead s (.reply id body) = none := by
        cases body with
        | failure | refused | success => rfl
        | custAuthresult list =>
          rw [listRead, hr, Option.bind_some]
          exact if_neg fun hboth => hread ⟨hboth.1, list, rfl⟩
      rw [Lists, list_progress_of_none hnone, completion_listArray]
      · exact hI
      · exact fun hcall list hbody => hread ⟨hcall, list, hbody⟩

theorem lists_step (hI : Lists (s, t)) (h : s.step e = some (s', os)) :
    Lists (s', progress t s e) := by
  cases e with
  | reply id body => exact lists_reply hI h
  | whiteBgViewButtonClick =>
    simp only [step] at h
    split_ifs at h with hempty
    · cases h
      simp [Lists, progress, listRead, hempty]
    · cases h
      rw [Lists, list_progress_of_none (by simp [listRead, hempty])]
      exact hI
  | renZhengButtonClick | nextButtonClick | rightBtnClip =>
    rw [Lists, list_progress_of_none rfl]
    simp only [step] at h
    split at h
    · have hs' := congrArg Prod.fst (Option.some.inj h)
      rw [← hs']
      simpa [Lists] using hI
    · cases h
      exact hI
  | nextStep id =>
    have hs' : (s.nextStep id).1 = s' := congrArg Prod.fst (Option.some.inj h)
    rw [Lists, list_progress_of_none rfl, ← hs']
    simpa [Lists] using hI
  | pop =>
    cases h
    exact hI

/-! ### The law over runs -/

/-- In every run from the home screen, every screen that is opened for a step is the one of the
    first step still not passed, and Finish is opened only when every step has passed, iff at every
    step of the run the routers agree. -/
theorem opens_due_iff (es : List Event) :
    (machine.observe progress).Always OpensDue (home, ⟨[], []⟩) es ↔
      (machine.observe progress).Meets Agrees (home, ⟨[], []⟩) es := by
  refine Machine.always_iff_meets (I := Lists) ?_ ?_ es _ rfl
  · rintro ⟨s, t⟩ e ⟨s', t'⟩ os hI - h
    obtain ⟨hstep, rfl⟩ := Machine.observe_step.mp h
    exact lists_step hI hstep
  · rintro ⟨s, t⟩ e ⟨s', t'⟩ os hI h
    obtain ⟨hstep, rfl⟩ := Machine.observe_step.mp h
    exact opensDue_iff hI hstep

instance (s : NavigationController × Progress) (e : Event) (s' : NavigationController × Progress)
    (os : List Effect) : Decidable (OpensDue s e s' os) :=
  decidable_of_iff (∀ o ∈ os, ∀ screen ∈ [Screen.authentication, .faceAuthen, .yssWeb, .bankAuthen,
      .applicationInformation, .finishAuthen], o = .pushed screen → screen = s'.2.due) <| by
    constructor
    · intro h screen hmem hrouted
      exact h _ hmem screen (by cases screen <;> first | decide | cases hrouted) rfl
    · rintro h o hmem screen hscreen rfl
      refine h screen hmem ?_
      revert hscreen
      cases screen <;> decide

/-- A list in the order of the chain, nothing done yet. -/
def chainList : List (Step × AuthState) :=
  [(.cert, .undone), (.face, .undone), (.tele, .undone), (.card, .undone), (.zx, .undone)]

/-- Done in one go, the steps of that list are opened in its order. -/
example : (machine.observe progress).Always OpensDue (home, ⟨[], []⟩)
    [.whiteBgViewButtonClick, .reply 1 (.custAuthresult chainList), .renZhengButtonClick,
      .nextButtonClick, .reply 3 .success, .nextButtonClick, .nextButtonClick, .reply 6 .success,
      .reply 7 .success, .nextStep 8, .nextButtonClick, .reply 10 .success, .nextButtonClick,
      .reply 12 .success] := by
  decide +kernel

/-- The second of two operator replies finds the page it would open on top. -/
example : (machine.observe progress).Always OpensDue (home, ⟨[], []⟩)
    [.whiteBgViewButtonClick, .reply 1 (.custAuthresult
        [(.cert, .passed), (.face, .passed), (.tele, .undone), (.card, .undone), (.zx, .undone)]),
      .renZhengButtonClick, .renZhengButtonClick, .reply 2 .success, .nextStep 4, .pop,
      .reply 3 .success] := by
  decide +kernel

/-- After the photos have passed, the user goes back and touches the start button again: the list is
    the one read on load, and the photo screen opens a second time where the face screen is due. -/
theorem opens_passed_step : ¬ ∀ es : List Event,
    (machine.observe progress).Always OpensDue (home, ⟨[], []⟩) es := by
  intro h
  have hrun := h
    [.whiteBgViewButtonClick, .reply 1 (.custAuthresult chainList), .renZhengButtonClick,
      .nextButtonClick, .reply 3 .success, .pop, .pop, .renZhengButtonClick]
  revert hrun
  decide +kernel

end LeYiDai.Evaluation
