import LeYiDai.Main.LoanStep
import LeYiDai.Main.RepaymentStep

/-! Money requests that are under way together. Both screens rely on the time window of a button,
    which opens again after its interval and knows nothing of the reply: on the loan screen it is
    5 s against replies of up to 10 s, on the repayment screen the button is a new one with each
    sheet.

        tap ──▶ loanLendTradeUp ────────────────▶ reply or timeout, up to 10 s
                     5 s ┆ tap ──▶ loanLendTradeUp
        sheet, pay ──▶ repayListUp ─────────────▶ reply
                 sheet, pay ──▶ repayListUp -/

namespace LeYiDai

/-- A clock at `now` that goes on by `d` does not pass the time `D` after anything that was sent. -/
def WithinDelay (D now d : ℚ) (sent : List ℚ) : Prop := 0 ≤ d → ∀ t ∈ sent, now + d ≤ t + D

instance (D now d : ℚ) (sent : List ℚ) : Decidable (WithinDelay D now d sent) :=
  inferInstanceAs (Decidable (0 ≤ d → ∀ t ∈ sent, now + d ≤ t + D))

theorem WithinDelay.mono {D D' now d : ℚ} {sent : List ℚ} (hle : D ≤ D')
    (h : WithinDelay D now d sent) : WithinDelay D' now d sent :=
  fun hd t ht => (h hd t ht).trans (by linarith)

end LeYiDai

namespace LeYiDai.Loan

open LoanViewController

/-! ### The loan screen -/

/-- At most one application is unanswered after the step. -/
def OneLend (_ : LoanViewController) (_ : Event) (s' : LoanViewController)
    (_ : List Request) : Prop :=
  s'.lends.length ≤ 1

/-- No tap goes through while an application is unanswered. -/
def SubmitsAlone (s : LoanViewController) (e : Event) : Prop :=
  submits s e = true → s.lends = []

/-- Every reply comes within the time `D` after its request. -/
def InTime (D : ℚ) (s : LoanViewController) : Event → Prop
  | .tick d => WithinDelay D s.now d (s.inFlight.map (·.sentAt))
  | _ => True

theorem lends_of_submits {s s' : LoanViewController} {e : Event} {os : List Request}
    (h : s.step e = some (s', os)) (hsub : submits s e = true) :
    ∃ r, s'.lends = s.lends ++ [r] ∧ r.sentAt = s.now := by
  obtain ⟨u, -, rfl, hflight⟩ := (steps h).lent hsub
  refine ⟨{ id := s.nextId, call := .loanLendTradeUp u, sentAt := s.now }, ?_, rfl⟩
  rw [LoanViewController.lends, hflight, List.filter_append]
  rfl

/-- At most one application is unanswered throughout a run iff no tap goes through while one is. -/
theorem one_lend_iff (userId : Json) (creditLeftamtStr : Option NSString) (es : List Event) :
    machine.Always OneLend (viewDidLoad userId creditLeftamtStr) es ↔
      machine.Meets SubmitsAlone (viewDidLoad userId creditLeftamtStr) es := by
  have hexact : ∀ s e s' os, s.lends.length ≤ 1 → machine.step s e = some (s', os) →
      (OneLend s e s' os ↔ SubmitsAlone s e) := by
    intro s e s' os hI hs
    cases hsub : submits s e with
    | false =>
      have hle : s'.lends.length ≤ s.lends.length := ((steps hs).held hsub).2.length_le
      simp [OneLend, SubmitsAlone, hsub, hle.trans hI]
    | true =>
      obtain ⟨r, hlends, -⟩ := lends_of_submits hs hsub
      simp [OneLend, SubmitsAlone, hsub, hlends]
  refine Machine.always_iff_meets (I := fun s => s.lends.length ≤ 1) ?_ hexact es _
    (Nat.zero_le 1)
  exact fun s e s' os hI hC hs => (hexact s e s' os hI hs).mpr hC

/-- The time of the last tap that went through. -/
def lastTap (last : Option ℚ) (s : LoanViewController) (e : Event) : Option ℚ :=
  if submits s e = true then some s.now else last

/-- The confirm button keeps its pace, and an application that is unanswered is the last one and not
    older than `D`. -/
structure Watched (D : ℚ) (s : LoanViewController × Option ℚ) : Prop where
  paced : s.1.nextBut.Paced 5 s.1.now s.2
  recent : ∀ r ∈ s.1.lends, s.2 = some r.sentAt ∧ s.1.now ≤ r.sentAt + D

theorem watched_viewDidLoad (D : ℚ) (userId : Json) (creditLeftamtStr : Option NSString) :
    Watched D (viewDidLoad userId creditLeftamtStr, none) where
  paced := TouchGuard.paced_new (by decide) (by norm_num) 0
  recent r hr := by cases hr

/-- When replies take less than the interval of the button, a tap that goes through finds no
    application unanswered. -/
theorem Watched.alone {D : ℚ} {s : LoanViewController × Option ℚ} {e : Event}
    (hI : Watched D s) (hD : D < 5) : SubmitsAlone s.1 e := by
  intro hsub
  cases e <;> simp only [submits, Bool.and_eq_true, Bool.false_eq_true] at hsub
  obtain ⟨hpassed, -⟩ := hI.paced.forward hsub.2
  refine List.eq_nil_iff_forall_not_mem.mpr fun r hr => ?_
  obtain ⟨hlast, hnow⟩ := hI.recent r hr
  have hlate : r.sentAt + 5 ≤ s.1.now := hpassed _ hlast
  linarith

theorem watched_paced {D : ℚ} {s s' : LoanViewController} {last : Option ℚ} {e : Event}
    {os : List Request} (hI : Watched D (s, last)) (h : s.step e = some (s', os)) :
    s'.nextBut.Paced 5 s'.now (lastTap last s e) := by
  have hpaced : s.nextBut.Paced 5 s.now last := hI.paced
  rw [(steps h).nextBut, (steps h).now]
  cases e with
  | touchNextBut =>
    cases hcan : s.canTouchNextBut with
    | false => simpa [guardAfter, clockAfter, lastTap, submits, hcan] using hpaced
    | true =>
      cases hfwd : (s.nextBut.mySendAction s.now).2 with
      | false => simpa [guardAfter, clockAfter, lastTap, submits, hcan, hfwd] using
          hpaced.dropped hfwd
      | true => simpa [guardAfter, clockAfter, lastTap, submits, hcan, hfwd] using
          (hpaced.forward hfwd).2
  | resetState i => exact hpaced.resetState i
  | tick d =>
    simp only [guardAfter, clockAfter]
    split_ifs with hd
    · exact hpaced.tick (by linarith)
    · exact hpaced
  | _ => exact hpaced

theorem watched_step {D : ℚ} (h0 : 0 ≤ D) (hD : D < 5) {s s' : LoanViewController × Option ℚ}
    {e : Event} {os : List Request} (hI : Watched D s) (hC : InTime D s.1 e)
    (h : (machine.observe lastTap).step s e = some (s', os)) : Watched D s' := by
  obtain ⟨s, last⟩ := s
  obtain ⟨s', last'⟩ := s'
  obtain ⟨hstep, rfl⟩ := Machine.observe_step.mp h
  refine ⟨watched_paced hI hstep, fun r hr => ?_⟩
  cases hsub : submits s e with
  | true =>
    obtain ⟨r', hlends, hsent⟩ := lends_of_submits hstep hsub
    rw [hI.alone hD hsub, List.nil_append] at hlends
    obtain rfl : r = r' := by simpa [hlends] using hr
    have hnow : s'.now = s.now := by
      rw [(steps hstep).now]
      cases e <;> first | rfl | cases hsub
    simp [lastTap, hsub, hsent, hnow, h0]
  | false =>
    have hmem : r ∈ s.lends := ((steps hstep).held hsub).2.subset hr
    obtain ⟨hlast, hage⟩ := hI.recent r hmem
    refine ⟨by simpa [lastTap, hsub] using hlast, ?_⟩
    change s'.now ≤ _
    rw [(steps hstep).now]
    cases e with
    | tick d =>
      simp only [clockAfter]
      split_ifs with hd
      · exact hC hd r.sentAt (List.mem_map_of_mem (List.mem_of_mem_filter hmem))
      · exact hage
    | _ => exact hage

theorem InTime.mono {D D' : ℚ} (hle : D ≤ D') {s : LoanViewController} {e : Event}
    (h : InTime D s e) : InTime D' s e := by
  cases e with
  | tick d => exact WithinDelay.mono hle h
  | _ => trivial

/-- When every reply comes in less than 5 s, no tap goes through while an application is
    unanswered. -/
theorem submits_alone_of_in_time {D : ℚ} (hD : D < 5) (userId : Json)
    (creditLeftamtStr : Option NSString) {es : List Event}
    (h : machine.Meets (InTime D) (viewDidLoad userId creditLeftamtStr) es) :
    machine.Meets SubmitsAlone (viewDidLoad userId creditLeftamtStr) es := by
  have htime : machine.Meets (InTime (max D 0)) (viewDidLoad userId creditLeftamtStr) es :=
    Machine.Always.mono (fun _ _ _ _ => InTime.mono (le_max_left D 0)) es _ h
  have hmax : max D 0 < 5 := max_lt hD (by norm_num)
  rw [Machine.Meets, ← Machine.always_observe (f := lastTap) es _ none] at htime ⊢
  exact Machine.always_of_meets (I := Watched (max D 0))
    (fun s e s' os hI hC hs =>
      ⟨watched_step (le_max_right D 0) hmax hI hC hs, hI.alone hmax⟩)
    es _ (watched_viewDidLoad _ userId creditLeftamtStr) htime

instance (s : LoanViewController) (e : Event) (s' : LoanViewController) (os : List Request) :
    Decidable (OneLend s e s' os) :=
  inferInstanceAs (Decidable (s'.lends.length ≤ 1))

instance (D : ℚ) (s : LoanViewController) : (e : Event) → Decidable (InTime D s e)
  | .tick d => inferInstanceAs (Decidable (WithinDelay D s.now d (s.inFlight.map (·.sentAt))))
  | .edit _ | .touchNextBut | .resetState _ | .chouseCardButtonClick | .didSelectRow _ | .pop
  | .bankModel _ | .deviceBook _ | .openURL _ | .reply _ _ => .isTrue trivial

/-- Two taps 5 s apart, with the reply to the first still out. -/
def twoTaps : List Event :=
  opening "1000" "1030" [bankCard "6222020011112222"] ++
    [.touchNextBut, .tick 5, .resetState 0, .touchNextBut]

theorem two_lends_of_twoTaps :
    machine.Meets (InTime 5) (viewDidLoad (.str (ns "U1")) (some (ns "8000"))) twoTaps ∧
      ¬ machine.Always OneLend (viewDidLoad (.str (ns "U1")) (some (ns "8000"))) twoTaps := by
  decide +kernel

/-- A bound on the time replies take keeps applications apart iff it is less than 5 s. -/
theorem one_lend_of_in_time_iff (D : ℚ) :
    (∀ (userId : Json) (creditLeftamtStr : Option NSString) (es : List Event),
      machine.Meets (InTime D) (viewDidLoad userId creditLeftamtStr) es →
        machine.Always OneLend (viewDidLoad userId creditLeftamtStr) es) ↔ D < 5 := by
  constructor
  · intro h
    by_contra hD
    obtain ⟨htime, htwo⟩ := two_lends_of_twoTaps
    exact htwo (h _ _ twoTaps
      (Machine.Always.mono (fun _ _ _ _ => InTime.mono (not_lt.mp hD)) _ _ htime))
  · intro hD userId creditLeftamtStr es h
    exact (one_lend_iff userId creditLeftamtStr es).mpr
      (submits_alone_of_in_time hD userId creditLeftamtStr h)

end LeYiDai.Loan

namespace LeYiDai.Repay

open RepaymentViewController

/-! ### The repayment screen -/

/-- The repayments that are unanswered. -/
def RepaymentViewController.ups (s : RepaymentViewController) : List RepayListUp :=
  s.inFlight.filterMap Request.up?

/-- Those of them that name an account. -/
def RepaymentViewController.naming (s : RepaymentViewController) (accno : NSString) :
    List RepayListUp :=
  s.ups.filter (accno ∈ ·.loanAcctNos)

/-- At most one unanswered repayment names an account. -/
def NamedOnce (s : RepaymentViewController) : Prop := ∀ accno, (s.naming accno).length ≤ 1

/-- No tap pays for a bill whose account an unanswered repayment names. -/
def PaysApart (s : RepaymentViewController) (e : Event) : Prop :=
  pays s e = true → ∀ bill ∈ s.selectArray, s.naming (repayAccno bill) = []

/-- No sheet is opened while a repayment is unanswered. -/
def OpensSettled (s : RepaymentViewController) (e : Event) : Prop :=
  opens s e = true → s.ups = []

/-- Every reply comes within the time `D` after its request. -/
def InTime (D : ℚ) (s : RepaymentViewController) : Event → Prop
  | .tick d => WithinDelay D s.now d (s.inFlight.map (·.sentAt))
  | _ => True

theorem ups_of_pays {s s' : RepaymentViewController} {e : Event} {os : List Request}
    (h : s.step e = some (s', os)) (hpays : pays s e = true) :
    ∃ u, s'.ups = s.ups ++ [u] ∧ u.loanAcctNos = s.selectArray.map repayAccno := by
  obtain ⟨u, hu, rfl, hflight⟩ := (steps h).paid hpays
  refine ⟨u, ?_, (repayDic_fields hu).2.2.2⟩
  rw [ups, hflight, List.filterMap_append]
  rfl

theorem ups_sublist {s s' : RepaymentViewController} {e : Event} {os : List Request}
    (h : s.step e = some (s', os)) (hpays : pays s e = false) : s'.ups.Sublist s.ups :=
  ((steps h).quiet hpays).2.filterMap _

theorem named_once_step_iff {s s' : RepaymentViewController} {e : Event} {os : List Request}
    (hI : NamedOnce s) (h : s.step e = some (s', os)) : NamedOnce s' ↔ PaysApart s e := by
  cases hpays : pays s e with
  | false =>
    have hle : ∀ accno, (s'.naming accno).length ≤ (s.naming accno).length := fun accno =>
      ((ups_sublist h hpays).filter _).length_le
    simp only [PaysApart, hpays, Bool.false_eq_true, false_imp_iff, iff_true]
    exact fun accno => (hle accno).trans (hI accno)
  | true =>
    obtain ⟨u, hups, haccnos⟩ := ups_of_pays h hpays
    have hnaming : ∀ accno, s'.naming accno =
        s.naming accno ++ [u].filter (accno ∈ ·.loanAcctNos) := fun accno => by
      rw [naming, hups, List.filter_append]
      rfl
    constructor
    · intro honce _ bill hbill
      have hnamed : repayAccno bill ∈ u.loanAcctNos := haccnos ▸ List.mem_map_of_mem hbill
      have hone := honce (repayAccno bill)
      rw [hnaming] at hone
      simpa [hnamed] using hone
    · intro hapart accno
      rw [hnaming]
      by_cases hnamed : accno ∈ u.loanAcctNos
      · obtain ⟨bill, hbill, rfl⟩ := List.mem_map.mp (haccnos ▸ hnamed)
        simp [hapart hpays bill hbill, hnamed]
      · simpa [hnamed] using hI accno

/-- At most one unanswered repayment names an account, throughout a run, iff no tap pays for a bill
    whose account an unanswered repayment names. -/
theorem named_once_iff (userId : Json) (overFlag : ℤ) (es : List Event) :
    machine.Always (fun _ _ s' _ => NamedOnce s') (viewDidLoad userId overFlag) es ↔
      machine.Meets PaysApart (viewDidLoad userId overFlag) es :=
  Machine.always_iff_meets (I := NamedOnce)
    (fun _ _ _ _ hI hC hs => (named_once_step_iff hI hs).mpr hC)
    (fun _ _ _ _ hI hs => named_once_step_iff hI hs) es _ (fun _ => Nat.zero_le 1)

/-- A sheet that is up stands over no unanswered repayment, if none was opened over one: only the
    sheet itself has kept the taps apart. -/
theorem pays_apart_of_opens_settled (userId : Json) (overFlag : ℤ) {es : List Event}
    (h : machine.Meets OpensSettled (viewDidLoad userId overFlag) es) :
    machine.Meets PaysApart (viewDidLoad userId overFlag) es := by
  refine Machine.always_of_meets (I := fun s => s.bankViewShown = true → s.ups = []) ?_ es _
    (fun hshown => by cases hshown) h
  intro s e s' os hI hC hs
  constructor
  · intro hshown
    have hbefore : s.ups = [] ∧ pays s e = false := by
      rcases (steps hs).sheet hshown with hopens | ⟨hup, hpays⟩
      · refine ⟨hC hopens, ?_⟩
        cases e <;> first | rfl | cases hopens
      · exact ⟨hI hup, hpays⟩
    exact List.sublist_nil.mp (hbefore.1 ▸ ups_sublist hs hbefore.2)
  · intro hpays bill _
    have hup : s.bankViewShown = true := by
      cases e <;> simp_all [pays, sheetUp]
    rw [naming, hI hup]
    rfl

instance (D : ℚ) (s : RepaymentViewController) : (e : Event) → Decidable (InTime D s e)
  | .tick d => inferInstanceAs (Decidable (WithinDelay D s.now d (s.inFlight.map (·.sentAt))))
  | .edit _ | .selectButtonClick _ | .detialButCick _ | .hideBottomView | .touchSureBut
  | .resetSureBut _ | .cancleButtonClick | .selectBankViewClick | .didSelectRow _ | .pop
  | .bankModel _ | .touchRepayBut | .resetRepayBut _ | .reply _ _ => .isTrue trivial

/-- Two sheets for the bill, the second opened and paid while the reply to the first is out. -/
def twoSheets : List Event :=
  [.reply 0 (.repayList (some (listReply [bill "A1" "560.00"]))), .touchSureBut, .tick 1,
    .resetSureBut 0, .touchRepayBut, .touchSureBut, .touchRepayBut]

theorem two_ups_of_twoSheets :
    machine.Meets (InTime 0) (viewDidLoad (.str (ns "U1")) 1) twoSheets ∧
      ¬ machine.Always (fun _ _ s' _ => (s'.naming (ns "A1")).length ≤ 1)
        (viewDidLoad (.str (ns "U1")) 1) twoSheets := by
  decide +kernel

theorem InTime.mono {D D' : ℚ} (hle : D ≤ D') {s : RepaymentViewController} {e : Event}
    (h : InTime D s e) : InTime D' s e := by
  cases e with
  | tick d => exact WithinDelay.mono hle h
  | _ => trivial

/-- No bound on the time replies take keeps repayments apart: the guard of the confirm button starts
    when a sheet is opened, that of the pay button is new with every sheet. -/
theorem named_twice_in_time {D : ℚ} (hD : 0 ≤ D) :
    ¬ ∀ (userId : Json) (overFlag : ℤ) (es : List Event),
      machine.Meets (InTime D) (viewDidLoad userId overFlag) es →
        machine.Always (fun _ _ s' _ => NamedOnce s') (viewDidLoad userId overFlag) es := by
  intro h
  obtain ⟨htime, htwo⟩ := two_ups_of_twoSheets
  have hrun := h _ _ twoSheets (Machine.Always.mono (fun _ _ _ _ => InTime.mono hD) _ _ htime)
  exact htwo (Machine.Always.mono (fun _ _ _ _ honce => honce (ns "A1")) _ _ hrun)

end LeYiDai.Repay

namespace LeYiDai

/-! ### Both screens -/

/-- Requests for money stand alone in a run exactly under these conditions. On the loan screen no
    tap may go through while an application is unanswered, which a bound on the time replies take
    ensures in every run iff it is less than the 5 s of the button; on the repayment screen no tap
    may pay for a bill whose account an unanswered repayment names. -/
theorem one_request_iff (D : ℚ) (userId : Json) (creditLeftamtStr : Option NSString)
    (overFlag : ℤ) (es : List Loan.Event) (fs : List Repay.Event) :
    (Loan.LoanViewController.machine.Always Loan.OneLend
        (Loan.LoanViewController.viewDidLoad userId creditLeftamtStr) es ↔
      Loan.LoanViewController.machine.Meets Loan.SubmitsAlone
        (Loan.LoanViewController.viewDidLoad userId creditLeftamtStr) es) ∧
    ((∀ (userId : Json) (creditLeftamtStr : Option NSString) (es : List Loan.Event),
      Loan.LoanViewController.machine.Meets (Loan.InTime D)
          (Loan.LoanViewController.viewDidLoad userId creditLeftamtStr) es →
        Loan.LoanViewController.machine.Always Loan.OneLend
          (Loan.LoanViewController.viewDidLoad userId creditLeftamtStr) es) ↔ D < 5) ∧
    (Repay.RepaymentViewController.machine.Always (fun _ _ s' _ => Repay.NamedOnce s')
        (Repay.RepaymentViewController.viewDidLoad userId overFlag) fs ↔
      Repay.RepaymentViewController.machine.Meets Repay.PaysApart
        (Repay.RepaymentViewController.viewDidLoad userId overFlag) fs) :=
  ⟨Loan.one_lend_iff userId creditLeftamtStr es, Loan.one_lend_of_in_time_iff D,
    Repay.named_once_iff userId overFlag fs⟩

/-- With replies that take up to the 10 s of the timeout, both screens send money requests
    together. -/
theorem two_requests :
    (¬ ∀ (userId : Json) (creditLeftamtStr : Option NSString) (es : List Loan.Event),
      Loan.LoanViewController.machine.Meets (Loan.InTime 10)
          (Loan.LoanViewController.viewDidLoad userId creditLeftamtStr) es →
        Loan.LoanViewController.machine.Always Loan.OneLend
          (Loan.LoanViewController.viewDidLoad userId creditLeftamtStr) es) ∧
    ¬ ∀ (userId : Json) (overFlag : ℤ) (es : List Repay.Event),
      Repay.RepaymentViewController.machine.Meets (Repay.InTime 10)
          (Repay.RepaymentViewController.viewDidLoad userId overFlag) es →
        Repay.RepaymentViewController.machine.Always (fun _ _ s' _ => Repay.NamedOnce s')
          (Repay.RepaymentViewController.viewDidLoad userId overFlag) es :=
  ⟨fun h => absurd ((Loan.one_lend_of_in_time_iff 10).mp h) (by norm_num),
    Repay.named_twice_in_time (by norm_num)⟩

end LeYiDai
