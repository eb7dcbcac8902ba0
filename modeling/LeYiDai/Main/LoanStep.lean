import LeYiDai.Main.LoanViewController
import Mathlib.Data.List.ReduceOption

/-! What one step of the loan screen does, said once. The form is as the event left it; an
    application leaves exactly on a tap that goes through, made from the form before it; the clock
    and the guard of the confirm button move with their own events only. -/

namespace LeYiDai.Loan

open LoanViewController

/-! ### The events that write to the form -/

/-- What the request that a reply answers asked for. -/
def LoanViewController.callOf (s : LoanViewController) (id : ℕ) : Option Call :=
  (s.find id).map Request.call

/-- The text an event puts into the amount field. -/
def filledText (s : LoanViewController) : Event → Option NSString
  | .edit text => if s.pushed.isEmpty then some text else none
  | .reply id (.prods prods) =>
    match s.callOf id with
    | some (.getAppprods _) => some (fmtStr (((prods.getD []).head?.join).bind (·.amount)))
    | _ => none
  | _ => none

/-- The card the user picks from the list this screen opened. -/
def pickedCard (s : LoanViewController) : Event → Option BankDetialModel
  | .didSelectRow card => if s.pushed.head? = some .myBank then some card else none
  | _ => none

/-- The card an event brings: a pick here, a pick in another card list, the first card of a list
    reply, which may be missing. -/
def broughtCard (s : LoanViewController) : Event → Option (Option BankDetialModel)
  | .didSelectRow card => if s.pushed.head? = some .myBank then some (some card) else none
  | .bankModel card => some (some card)
  | .reply id (.bankList bankList) =>
    match s.callOf id with
    | some (.queryList _) => some (bankList.getD []).head?.join
    | _ => none
  | _ => none

/-- The quote a success reply brings, with the amount its request asked for. -/
def quoted (s : LoanViewController) : Event → Option (NSString × Option RepayInfo)
  | .reply id (.repayInfo result) =>
    match s.callOf id with
    | some (.getRepayInfo q) => some (q.lendAmount, result)
    | _ => none
  | _ => none

/-- The rows of a plan. -/
def planOf (result : Option RepayInfo) : List RepayDueModel :=
  ((result.bind (·.repayDueList)).getD []).reduceOption

/-- The fields an application is made from, and what is shown beside them. -/
structure Form where
  moneyText : NSString
  firstBankModel : Option BankDetialModel
  dataDic : Option RepayInfo
  repayDueListArray : List RepayDueModel

def LoanViewController.form (s : LoanViewController) : Form :=
  { moneyText := s.moneyText
    firstBankModel := s.firstBankModel
    dataDic := s.dataDic
    repayDueListArray := s.repayDueListArray }

/-- The form after an event. -/
def formAfter (s : LoanViewController) (e : Event) : Form :=
  { moneyText := (filledText s e).getD s.moneyText
    firstBankModel := (broughtCard s e).getD s.firstBankModel
    dataDic := ((quoted s e).map (·.2)).getD s.dataDic
    repayDueListArray := ((quoted s e).map fun q => planOf q.2).getD s.repayDueListArray }

/-! ### The events that move the clock and the guard -/

/-- The time after an event. -/
def clockAfter (s : LoanViewController) : Event → ℚ
  | .tick d => if 0 ≤ d then s.now + d else s.now
  | _ => s.now

/-- The guard of the confirm button after an event. -/
def guardAfter (s : LoanViewController) : Event → TouchGuard
  | .touchNextBut => if s.canTouchNextBut then (s.nextBut.mySendAction s.now).1 else s.nextBut
  | .resetState i => s.nextBut.resetState s.now i
  | _ => s.nextBut

/-! ### What a handler can do -/

/-- The application a request carries. -/
def Request.lend? (r : Request) : Option LoanLendTradeUp :=
  match r.call with
  | .loanLendTradeUp u => some u
  | _ => none

/-- The applications that are unanswered. -/
def LoanViewController.lends (s : LoanViewController) : List Request :=
  s.inFlight.filter fun r => r.lend?.isSome

/-- A handler that sends some requests, none of them an application, and leaves the form, the clock
    and the guard alone. -/
structure Quiet (s s' : LoanViewController) (os : List Request) : Prop where
  form : s'.form = s.form
  now : s'.now = s.now
  nextBut : s'.nextBut = s.nextBut
  flight : s'.inFlight = s.inFlight ++ os
  lends : os.filterMap Request.lend? = []

theorem Quiet.refl (s : LoanViewController) : Quiet s s [] :=
  ⟨rfl, rfl, rfl, (List.append_nil _).symm, rfl⟩

theorem useGetRepayInfo_quiet {s s' : LoanViewController} {os : List Request}
    (h : s.useGetRepayInfo = some (s', os)) : Quiet s s' os := by
  simp only [useGetRepayInfo, Option.bind_eq_bind, Option.bind_eq_some_iff] at h
  obtain ⟨prodId, -, lendTerm, -, retuKind, -, heq⟩ := h
  cases heq
  exact ⟨rfl, rfl, rfl, rfl, rfl⟩

theorem reloadBankView_quiet {s s' : LoanViewController} (h : s.reloadBankView = some s') :
    Quiet s s' [] := by
  obtain ⟨title, -, rfl⟩ := Option.map_eq_some_iff.mp h
  exact ⟨rfl, rfl, rfl, (List.append_nil _).symm, rfl⟩

theorem relodHuanKuanCenterView_quiet {s s' : LoanViewController}
    (h : s.relodHuanKuanCenterView = some s') : Quiet s s' [] := by
  simp only [relodHuanKuanCenterView, Option.bind_eq_bind, Option.bind_eq_some_iff] at h
  obtain ⟨repayType, -, heq⟩ := h
  cases heq
  exact ⟨rfl, rfl, rfl, (List.append_nil _).symm, rfl⟩

/-- A handler that only asks for the card list after another. -/
theorem Quiet.useGetBankList {s s' : LoanViewController} (h : Quiet s s' []) :
    Quiet s s'.useGetBankList.1 s'.useGetBankList.2 where
  form := h.form
  now := h.now
  nextBut := h.nextBut
  flight := by
    change s'.inFlight ++ _ = _
    rw [h.flight, List.append_nil]
    rfl
  lends := rfl

theorem notificationClick_quiet {s s' : LoanViewController} {card : BankDetialModel}
    {os : List Request} (h : s.notificationClick card = some (s', os)) :
    Quiet { s with firstBankModel := some card } s' os := by
  obtain ⟨h₁, rfl⟩ := Machine.of_silent h
  exact reloadBankView_quiet h₁

theorem textCLick_quiet {s s' : LoanViewController} {os : List Request}
    (h : s.textCLick = some (s', os)) : Quiet s s' os := by
  simp only [textCLick] at h
  split_ifs at h
  · cases h
    exact ⟨rfl, rfl, rfl, (List.append_nil _).symm, rfl⟩
  · obtain ⟨hform, hnow, hbut, hflight, hlends⟩ := useGetRepayInfo_quiet h
    exact ⟨hform, hnow, hbut, hflight, hlends⟩

theorem nofiticationBookCLick_quiet (arr : List Json) (s : LoanViewController) :
    Quiet s (s.nofiticationBookCLick arr).1 (s.nofiticationBookCLick arr).2 := by
  unfold nofiticationBookCLick
  split_ifs
  · exact ⟨rfl, rfl, rfl, rfl, rfl⟩
  · exact Quiet.refl s

theorem mapM_id_eq {α : Type} : ∀ {l : List (Option α)} {rows : List α},
    l.mapM id = some rows → l.reduceOption = rows
  | [], rows, h => by
    cases h
    rfl
  | none :: l, rows, h => by simp [List.mapM_cons] at h
  | some a :: l, rows, h => by
    simp only [List.mapM_cons, id, Option.bind_eq_bind, Option.bind_some,
      Option.bind_eq_some_iff] at h
    obtain ⟨rows', h', heq⟩ := h
    cases heq
    rw [List.reduceOption_cons_of_some, mapM_id_eq h']

/-- The completion block of a request writes to the form what its reply brings, and nothing else. -/
theorem completion_quiet {s s₁ s' : LoanViewController} {id : ℕ} {call : Call} {body : Body}
    {os : List Request} (hcall : s.callOf id = some call) (hform : s₁.form = s.form)
    (h : s₁.completion call body = some (s', os)) :
    ∃ s₀, Quiet s₀ s' os ∧ s₀.form = formAfter s (.reply id body) ∧ s₀.now = s₁.now ∧
      s₀.nextBut = s₁.nextBut ∧ s₀.inFlight = s₁.inFlight := by
  simp only [form, Form.mk.injEq] at hform
  cases body with
  | prods prods =>
    cases call with
    | getAppprods prodId =>
      refine ⟨_, useGetRepayInfo_quiet h, ?_, rfl, rfl, rfl⟩
      simp [formAfter, filledText, broughtCard, quoted, hcall, form, hform]
    | _ =>
      cases h
      refine ⟨s₁, Quiet.refl s₁, ?_, rfl, rfl, rfl⟩
      simp [formAfter, filledText, broughtCard, quoted, hcall, form, hform]
  | repayInfo result =>
    cases call with
    | getRepayInfo q =>
      simp only [completion, repayInfoSuccess, Option.bind_eq_bind, Option.bind_eq_some_iff] at h
      obtain ⟨rows, hrows, s₂, h₂, heq⟩ := h
      cases heq
      refine ⟨_, (relodHuanKuanCenterView_quiet h₂).useGetBankList, ?_, rfl, rfl, rfl⟩
      simp [formAfter, filledText, broughtCard, quoted, hcall, form, hform, planOf,
        mapM_id_eq hrows]
    | _ =>
      cases h
      refine ⟨s₁, Quiet.refl s₁, ?_, rfl, rfl, rfl⟩
      simp [formAfter, filledText, broughtCard, quoted, hcall, form, hform]
  | bankList bankList =>
    cases call with
    | queryList userId =>
      obtain ⟨h₂, rfl⟩ := Machine.of_silent h
      refine ⟨_, reloadBankView_quiet h₂, ?_, rfl, rfl, rfl⟩
      simp [formAfter, filledText, broughtCard, quoted, hcall, form, hform]
    | _ =>
      cases h
      refine ⟨s₁, Quiet.refl s₁, ?_, rfl, rfl, rfl⟩
      simp [formAfter, filledText, broughtCard, quoted, hcall, form, hform]
  | lent result =>
    have hquiet : Quiet s₁ s' os := by
      cases call <;> cases h <;> exact ⟨rfl, rfl, rfl, (List.append_nil _).symm, rfl⟩
    refine ⟨s₁, hquiet, ?_, rfl, rfl, rfl⟩
    simp [formAfter, filledText, broughtCard, quoted, form, hform]
  | failure | refused =>
    have hquiet : Quiet s₁ s' os := by
      cases call <;> cases h <;> exact Quiet.refl s₁
    refine ⟨s₁, hquiet, ?_, rfl, rfl, rfl⟩
    simp [formAfter, filledText, broughtCard, quoted, form, hform]

/-! ### What a step does -/

/-- A tap that makes the screen apply: it reaches the confirm button and is not held back. -/
def submits (s : LoanViewController) : Event → Bool
  | .touchNextBut => s.canTouchNextBut && (s.nextBut.mySendAction s.now).2
  | _ => false

/-- What one step does. -/
structure Steps (s : LoanViewController) (e : Event) (s' : LoanViewController)
    (os : List Request) : Prop where
  form : s'.form = formAfter s e
  now : s'.now = clockAfter s e
  nextBut : s'.nextBut = guardAfter s e
  held : submits s e = false → os.filterMap Request.lend? = [] ∧ s'.lends.Sublist s.lends
  lent : submits s e = true → ∃ u, s.praDic = some u ∧
    os = [{ id := s.nextId, call := .loanLendTradeUp u, sentAt := s.now }] ∧
      s'.inFlight = s.inFlight ++ os

/-- A step that is a quiet handler after the event's own change `s₀` of the state. -/
theorem Quiet.steps {s s₀ s' : LoanViewController} {e : Event} {os : List Request}
    (hq : Quiet s₀ s' os) (he : submits s e = false) (hform : s₀.form = formAfter s e)
    (hnow : s₀.now = clockAfter s e) (hbut : s₀.nextBut = guardAfter s e)
    (hflight : s₀.inFlight.Sublist s.inFlight) : Steps s e s' os where
  form := hq.form.trans hform
  now := hq.now.trans hnow
  nextBut := hq.nextBut.trans hbut
  held _ := by
    have hnone : os.filter (fun r => r.lend?.isSome) = [] := by
      rw [List.filter_eq_nil_iff]
      intro r hr
      simp [List.filterMap_eq_nil_iff.mp hq.lends r hr]
    refine ⟨hq.lends, ?_⟩
    rw [LoanViewController.lends, LoanViewController.lends, hq.flight, List.filter_append, hnone,
      List.append_nil]
    exact hflight.filter _
  lent h := by rw [he] at h; cases h

theorem steps_edit {s s' : LoanViewController} {text : NSString} {os : List Request}
    (h : s.step (.edit text) = some (s', os)) : Steps s (.edit text) s' os := by
  simp only [step] at h
  split_ifs at h with htop
  · have hfilled : filledText s (.edit text) = some text := if_pos htop
    refine (textCLick_quiet h).steps rfl ?_ rfl rfl (List.Sublist.refl _)
    rw [formAfter, hfilled]
    rfl
  · cases h
    have hfilled : filledText s (.edit text) = none := if_neg htop
    refine (Quiet.refl s).steps rfl ?_ rfl rfl (List.Sublist.refl _)
    rw [formAfter, hfilled]
    rfl

theorem steps_touchNextBut {s s' : LoanViewController} {os : List Request}
    (h : s.step .touchNextBut = some (s', os)) : Steps s .touchNextBut s' os := by
  simp only [step] at h
  split_ifs at h with hcan
  · have hguard : guardAfter s .touchNextBut = (s.nextBut.mySendAction s.now).1 := if_pos hcan
    simp only [LoanViewController.touchNextBut] at h
    split_ifs at h with hfwd
    · have hsub : submits s .touchNextBut = true := by simp [submits, hcan, hfwd]
      obtain ⟨u, hu, heq⟩ := Option.map_eq_some_iff.mp h
      replace hu : s.praDic = some u := hu
      cases heq
      refine ⟨rfl, rfl, hguard.symm, ?_, fun _ => ⟨u, hu, rfl, rfl⟩⟩
      intro hheld
      rw [hsub] at hheld
      cases hheld
    · cases h
      exact (Quiet.refl _).steps (by simp [submits, hfwd]) rfl rfl hguard.symm
        (List.Sublist.refl _)
  · cases h
    exact (Quiet.refl s).steps (by simp [submits, hcan]) rfl rfl (if_neg hcan).symm
      (List.Sublist.refl _)

theorem steps_didSelectRow {s s' : LoanViewController} {card : BankDetialModel}
    {os : List Request} (h : s.step (.didSelectRow card) = some (s', os)) :
    Steps s (.didSelectRow card) s' os := by
  simp only [step] at h
  split at h
  · rename_i rest htop
    refine (notificationClick_quiet h).steps rfl ?_ rfl rfl (List.Sublist.refl _)
    simp [formAfter, filledText, broughtCard, quoted, htop, form]
  · rename_i htop
    cases h
    refine (Quiet.refl s).steps rfl ?_ rfl rfl (List.Sublist.refl _)
    have hnot : s.pushed.head? ≠ some .myBank := by
      intro hhead
      obtain ⟨rest, hrest⟩ := List.head?_eq_some_iff.mp hhead
      exact htop rest hrest
    simp [formAfter, filledText, broughtCard, quoted, hnot, form]

theorem steps_reply {s s' : LoanViewController} {id : ℕ} {body : Body} {os : List Request}
    (h : s.step (.reply id body) = some (s', os)) : Steps s (.reply id body) s' os := by
  simp only [step] at h
  cases hr : s.find id with
  | none =>
    rw [hr] at h
    cases h
    refine (Quiet.refl s).steps rfl ?_ rfl rfl (List.Sublist.refl _)
    cases body <;> simp [formAfter, filledText, broughtCard, quoted, callOf, hr, form]
  | some r =>
    rw [hr] at h
    have hcall : s.callOf id = some r.call := by rw [callOf, hr]; rfl
    have hsame : (s.answered id).form = s.form := rfl
    obtain ⟨s₀, hquiet, hform, hnow, hbut, hflight⟩ := completion_quiet hcall hsame h
    exact hquiet.steps rfl hform hnow hbut (hflight ▸ List.filter_sublist)

/-- What one step of the screen does. -/
theorem steps {s s' : LoanViewController} {e : Event} {os : List Request}
    (h : s.step e = some (s', os)) : Steps s e s' os := by
  cases e with
  | edit text => exact steps_edit h
  | touchNextBut => exact steps_touchNextBut h
  | didSelectRow card => exact steps_didSelectRow h
  | reply id body => exact steps_reply h
  | bankModel card =>
    exact (notificationClick_quiet h).steps rfl rfl rfl rfl (List.Sublist.refl _)
  | resetState i | pop =>
    cases h
    exact (Quiet.refl _).steps rfl rfl rfl rfl (List.Sublist.refl _)
  | deviceBook arr =>
    have hquiet := nofiticationBookCLick_quiet arr s
    rw [Option.some.inj h] at hquiet
    exact hquiet.steps rfl rfl rfl rfl (List.Sublist.refl _)
  | tick d | chouseCardButtonClick | openURL url =>
    cases h
    refine (Quiet.refl _).steps rfl ?_ ?_ ?_ ?_
    · split_ifs <;> rfl
    · simp only [clockAfter]
      split_ifs <;> rfl
    · split_ifs <;> rfl
    · split_ifs <;> exact List.Sublist.refl _

/-- A law about every application of a step is one about the tap that goes through. -/
theorem forall_lends_iff {s s' : LoanViewController} {e : Event} {os : List Request}
    (h : s.step e = some (s', os)) (Q : LoanLendTradeUp → Prop) :
    (∀ u ∈ os.filterMap Request.lend?, Q u) ↔ (submits s e = true → ∀ u ∈ s.praDic, Q u) := by
  cases hsub : submits s e with
  | false =>
    rw [((steps h).held hsub).1]
    simp
  | true =>
    obtain ⟨u, hu, rfl, -⟩ := (steps h).lent hsub
    simp [hu, Request.lend?]

/-- The fields of the application in front of the tap. -/
theorem praDic_fields {s : LoanViewController} {u : LoanLendTradeUp} (h : s.praDic = some u) :
    u.lendAmount = s.moneyText ∧ ∃ c, s.firstBankModel = some c ∧
      u.lendBankid = emptyIfNilStr c.cardBankid ∧ c.bankcardName = some u.lendBankname ∧
      c.bankcardNo = some u.lendCardNo ∧ c.cardBankname = some u.lendCardName := by
  simp only [praDic, Option.bind_eq_bind, Option.bind_eq_some_iff] at h
  obtain ⟨name, ⟨c, hc, hname⟩, no, ⟨c₁, hc₁, hno⟩, cname, ⟨c₂, hc₂, hcname⟩, kind, -, term, -,
    heq⟩ := h
  cases heq
  rw [hc] at hc₁ hc₂
  cases hc₁
  cases hc₂
  exact ⟨rfl, c, hc, by rw [hc]; rfl, hname, hno, hcname⟩

/-! ### Concrete replies -/

def product (amount : String) : APPProdsModel :=
  { amount := some (ns amount)
    prodId := some (ns "P1")
    term := some (ns "30")
    retunKind := some (ns "1") }

def quote (dueSum : String) : RepayInfo :=
  { term := some (.str (ns "30"))
    repayType := some (.str (ns "到期还本付息"))
    dueSum := some (.str (ns dueSum))
    repayDueList := some [some { dueDate := some (ns "2019-10-16"), dueSum := some (ns dueSum) }] }

def bankCard (bankcardNo : String) : BankDetialModel :=
  { bankcardName := some (ns "ICBC")
    bankcardNo := some (ns bankcardNo)
    cardBankid := some (ns "102")
    cardBankname := some (ns "ICBC") }

/-- The replies that open the screen, to the three requests it starts with. -/
def opening (amount dueSum : String) (cards : List BankDetialModel) : List Event :=
  [.reply 0 (.prods (some [some (product amount)])), .reply 1 (.repayInfo (some (quote dueSum))),
    .reply 2 (.bankList (some (cards.map some)))]

end LeYiDai.Loan
