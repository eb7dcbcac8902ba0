import LeYiDai.Main.LoanSafety

/-! The plan on the loan screen. Every quote reply that succeeds draws its labels and buttons again:
    the lower view is cleared before it is filled, the upper one is only filled. After any run the
    lower view shows the last quote alone and the upper view the labels of every quote so far.

        quotes    q₁            q₂                 q₃
        upper     q₁            q₁ q₂              q₁ q₂ q₃
        lower     q₁            q₂                 q₃ -/

namespace LeYiDai.Loan

open LoanViewController

/-- The labels one quote adds to the upper view. -/
def topLabels (q : Option RepayInfo) : List TaggedView :=
  [⟨1000, ns "借多久"⟩, ⟨600, fmt (q.bind (·.term)) ++ ns "天"⟩,
    ⟨1001, ns "怎么还"⟩, ⟨601, fmt (q.bind (·.repayType))⟩]

/-- The labels and buttons one quote puts into the lower view. -/
def centerViews (q : Option RepayInfo) : List TaggedView :=
  let dueModel := (planOf q).head?
  [⟨1000, ns "还款计划"⟩,
    ⟨1200, ns "首期" ++ fmtStr (dueModel.bind (·.dueDate)) ++ ns "应还 " ++
      fmtStr (dueModel.bind (·.dueSum))⟩,
    ⟨1001, ns "总利息"⟩, ⟨1201, fmt (q.bind (·.dueSum)) ++ ns "元"⟩]

/-- The labels and buttons of the two views. -/
def LoanViewController.planViews (s : LoanViewController) : List TaggedView × List TaggedView :=
  (s.centerTopView, s.centerView)

/-- The results of the quotes that have been answered with success, in order. -/
def quotesShown (qs : List (Option RepayInfo)) (s : LoanViewController) (e : Event) :
    List (Option RepayInfo) :=
  qs ++ ((quoted s e).map (·.2)).toList

/-- What the two views show after the quotes `qs`: all of them above, the last one below. -/
structure ShowsPlans (qs : List (Option RepayInfo)) (s : LoanViewController) : Prop where
  showable : ∀ q ∈ qs, Showable q
  upper : s.centerTopView = qs.flatMap topLabels
  lower : s.centerView = (qs.getLast?.map centerViews).getD []

/-! ### One quote -/

theorem repayInfoSuccess_planViews {s s' : LoanViewController} {q : Option RepayInfo}
    {os : List Request} (h : s.repayInfoSuccess q = some (s', os)) :
    s'.planViews = (s.centerTopView ++ topLabels q,
      (s.centerView.filter (·.tag < 500)).filter (·.tag < 1000) ++ centerViews q) := by
  simp only [repayInfoSuccess, relodHuanKuanCenterView, Option.bind_eq_bind,
    Option.bind_eq_some_iff] at h
  obtain ⟨rows, hrows, s₁, ⟨repayType, ⟨r, rfl, hrepay⟩, hs₁⟩, heq⟩ := h
  cases hs₁
  cases heq
  have hplan : planOf (some r) = rows := mapM_id_eq hrows
  have htype : (some r).bind (·.repayType) = some repayType := hrepay
  simp only [planViews, topLabels, centerViews, hplan, htype]

/-- A quote of its own on a screen without labels. -/
theorem repayInfoSuccess_fresh (userId : Json) (creditLeftamtStr : Option NSString)
    {q : Option RepayInfo} (hq : Showable q) :
    ((viewDidLoad userId creditLeftamtStr).repayInfoSuccess q).map (fun p => p.1.planViews) =
      some (topLabels q, centerViews q) := by
  obtain ⟨⟨s', os⟩, hs'⟩ := Option.isSome_iff_exists.mp (repayInfoSuccess_isSome_iff.mpr hq)
  rw [hs', Option.map_some, repayInfoSuccess_planViews hs']
  rfl

/-- What is left of the lower view once its tagged rows are removed: nothing. -/
theorem centerViews_cleared (q : Option RepayInfo) :
    ((centerViews q).filter (·.tag < 500)).filter (·.tag < 1000) = [] := by
  simp [centerViews]

/-! ### Handlers that leave the plan alone -/

variable {s s' : LoanViewController} {os : List Request} {e : Event}

theorem useGetRepayInfo_planViews (h : s.useGetRepayInfo = some (s', os)) :
    s'.planViews = s.planViews := by
  simp only [useGetRepayInfo, Option.bind_eq_bind, Option.bind_eq_some_iff] at h
  obtain ⟨prodId, -, lendTerm, -, retuKind, -, heq⟩ := h
  cases heq
  rfl

theorem reloadBankView_planViews (h : s.reloadBankView = some s') :
    s'.planViews = s.planViews := by
  obtain ⟨title, -, rfl⟩ := Option.map_eq_some_iff.mp h
  rfl

theorem notificationClick_planViews {card : BankDetialModel}
    (h : s.notificationClick card = some (s', os)) : s'.planViews = s.planViews := by
  obtain ⟨h₁, rfl⟩ := Machine.of_silent h
  exact (reloadBankView_planViews h₁).trans rfl

theorem textCLick_planViews (h : s.textCLick = some (s', os)) : s'.planViews = s.planViews := by
  simp only [textCLick] at h
  split_ifs at h
  · cases h
    rfl
  · exact (useGetRepayInfo_planViews h).trans rfl

/-- A completion block other than a quote's own leaves the plan alone. -/
theorem completion_planViews {call : Call} {body : Body}
    (hother : ∀ p q, call = .getRepayInfo p → body ≠ .repayInfo q)
    (h : s.completion call body = some (s', os)) : s'.planViews = s.planViews := by
  unfold completion at h
  split at h
  · exact (useGetRepayInfo_planViews h).trans rfl
  · exact absurd rfl (hother _ _ rfl)
  · obtain ⟨h₁, rfl⟩ := Machine.of_silent h
    exact (reloadBankView_planViews h₁).trans rfl
  · cases h
    rfl
  · cases h
    rfl

theorem touchNextBut_planViews (h : s.touchNextBut = some (s', os)) :
    s'.planViews = s.planViews := by
  simp only [LoanViewController.touchNextBut] at h
  split_ifs at h
  · obtain ⟨u, -, heq⟩ := Option.map_eq_some_iff.mp h
    cases heq
    rfl
  · cases h
    rfl

/-! ### A run -/

/-- A step that answers no quote leaves the plan alone. -/
theorem step_planViews (hnone : quoted s e = none) (h : s.step e = some (s', os)) :
    s'.planViews = s.planViews := by
  cases e with
  | edit text =>
    simp only [step] at h
    split_ifs at h
    · exact (textCLick_planViews h).trans rfl
    · cases h
      rfl
  | touchNextBut =>
    simp only [step] at h
    split_ifs at h
    · exact touchNextBut_planViews h
    · cases h
      rfl
  | didSelectRow card =>
    simp only [step] at h
    split at h
    · exact (notificationClick_planViews h).trans rfl
    · cases h
      rfl
  | bankModel card => exact notificationClick_planViews h
  | deviceBook arr =>
    simp only [step, nofiticationBookCLick] at h
    split_ifs at h <;> cases h <;> rfl
  | reply id body =>
    simp only [step] at h
    cases hr : s.find id with
    | none =>
      rw [hr] at h
      cases h
      rfl
    | some r =>
      rw [hr] at h
      refine (completion_planViews ?_ h).trans rfl
      rintro p q hp rfl
      simp [quoted, callOf, hr, hp] at hnone
  | resetState _ | pop =>
    cases h
    rfl
  | tick _ | chouseCardButtonClick | openURL _ =>
    cases h
    split_ifs <;> rfl

/-- A step that answers a quote is that quote's success block, on the same two views. -/
theorem step_quoted {p : NSString} {q : Option RepayInfo} (hq : quoted s e = some (p, q))
    (h : s.step e = some (s', os)) :
    ∃ s₀ : LoanViewController, s₀.planViews = s.planViews ∧
      s₀.repayInfoSuccess q = some (s', os) := by
  cases e with
  | reply id body =>
    cases body with
    | repayInfo result =>
      cases hr : s.find id with
      | none => simp [quoted, callOf, hr] at hq
      | some r =>
        cases hcall : r.call with
        | getRepayInfo g =>
          simp only [quoted, callOf, hr, hcall, Option.map_some, Option.some.injEq,
            Prod.mk.injEq] at hq
          simp only [step, hr, hcall, completion, hq.2] at h
          exact ⟨s.answered id, rfl, h⟩
        | _ => simp [quoted, callOf, hr, hcall] at hq
    | _ => simp [quoted] at hq
  | _ => simp [quoted] at hq

theorem ShowsPlans.step {qs : List (Option RepayInfo)} (hs : ShowsPlans qs s)
    (h : s.step e = some (s', os)) : ShowsPlans (quotesShown qs s e) s' := by
  cases hq : quoted s e with
  | none =>
    have hviews := step_planViews hq h
    simp only [planViews, Prod.mk.injEq] at hviews
    have hqs : quotesShown qs s e = qs := by simp [quotesShown, hq]
    rw [hqs]
    exact ⟨hs.showable, hviews.1.trans hs.upper, hviews.2.trans hs.lower⟩
  | some pq =>
    obtain ⟨p, q⟩ := pq
    obtain ⟨s₀, hs₀, hrun⟩ := step_quoted hq h
    have hshow : Showable q := repayInfoSuccess_isSome_iff.mp (by rw [hrun]; rfl)
    have hviews := repayInfoSuccess_planViews hrun
    simp only [planViews, Prod.mk.injEq] at hviews hs₀
    have hqs : quotesShown qs s e = qs ++ [q] := by simp [quotesShown, hq]
    rw [hqs]
    refine ⟨?_, ?_, ?_⟩
    · intro q' hq'
      rcases List.mem_append.mp hq' with hq' | hq'
      · exact hs.showable q' hq'
      · rwa [List.mem_singleton.mp hq']
    · rw [hviews.1, hs₀.1, hs.upper]
      simp
    · -- the rows of the quote before are cleared, whichever it was
      have hcleared : (s₀.centerView.filter (·.tag < 500)).filter (·.tag < 1000) = [] := by
        rw [hs₀.2, hs.lower]
        cases qs.getLast? with
        | none => rfl
        | some q₀ => exact centerViews_cleared q₀
      rw [hviews.2, hcleared]
      simp

/-- The loan screen with the quotes answered so far beside it. -/
def planMachine : Machine (LoanViewController × List (Option RepayInfo)) Event Request :=
  machine.observe quotesShown

theorem planMachine_shows (userId : Json) (creditLeftamtStr : Option NSString) {es : List Event}
    {qs : List (Option RepayInfo)}
    (h : planMachine.run (viewDidLoad userId creditLeftamtStr, []) es = some ((s, qs), os)) :
    ShowsPlans qs s := by
  refine Machine.inv_of_run (I := fun t => ShowsPlans t.2 t.1) ?_ ⟨by simp, rfl, rfl⟩ h
  rintro ⟨s₁, qs₁⟩ e ⟨s₂, qs₂⟩ os hs hstep
  obtain ⟨hstep', rfl⟩ := Machine.observe_step.mp hstep
  exact hs.step hstep'

/-- In every run of the loan screen the two views show what the last quote alone shows on a fresh
    screen iff it is the only quote. -/
theorem plan_refreshed_iff (userId : Json) (creditLeftamtStr : Option NSString) (es : List Event)
    (s : LoanViewController) (qs : List (Option RepayInfo)) (q : Option RepayInfo)
    (os : List Request)
    (h : planMachine.run (viewDidLoad userId creditLeftamtStr, []) es = some ((s, qs ++ [q]), os)) :
    ((viewDidLoad userId creditLeftamtStr).repayInfoSuccess q).map (fun p => p.1.planViews) =
      some s.planViews ↔ qs = [] := by
  have hs := planMachine_shows userId creditLeftamtStr h
  rw [repayInfoSuccess_fresh userId creditLeftamtStr (hs.showable q (by simp)), planViews,
    hs.upper, hs.lower, Option.some.injEq, Prod.mk.injEq]
  constructor
  · rintro ⟨hupper, -⟩
    have hlength := congrArg List.length hupper
    rw [List.flatMap_append, List.length_append] at hlength
    have hnone : (qs.flatMap topLabels).length = 0 := by
      simp only [List.flatMap_cons, List.flatMap_nil, List.append_nil] at hlength
      omega
    rw [List.length_eq_zero_iff, List.flatMap_eq_nil_iff] at hnone
    cases qs with
    | nil => rfl
    | cons q₀ qs => exact absurd (hnone q₀ (by simp)) (by simp [topLabels])
  · rintro rfl
    simp

/-- The first quote of a screen just opened. -/
theorem first_quote_refreshed :
    ∃ s os, planMachine.run (viewDidLoad (.str (ns "U1")) (some (ns "8000")), [])
        (opening "1000" "1030" [bankCard "6222020011112222"]) =
          some ((s, [] ++ [some (quote "1030")]), os) ∧
      ((viewDidLoad (.str (ns "U1")) (some (ns "8000"))).repayInfoSuccess
        (some (quote "1030"))).map (fun p => p.1.planViews) = some s.planViews := by
  have hrun : (planMachine.run (viewDidLoad (.str (ns "U1")) (some (ns "8000")), [])
      (opening "1000" "1030" [bankCard "6222020011112222"])).map (·.1.2) =
        some ([] ++ [some (quote "1030")]) := by decide +kernel
  obtain ⟨⟨⟨s, qs⟩, os⟩, hs, rfl⟩ := Option.map_eq_some_iff.mp hrun
  exact ⟨s, os, hs, (plan_refreshed_iff _ _ _ _ _ _ _ hs).mpr rfl⟩

/-- An edit after the first quote: the upper view keeps the labels of both quotes. -/
theorem second_quote_left_behind :
    ∃ s os, planMachine.run (viewDidLoad (.str (ns "U1")) (some (ns "8000")), [])
        (opening "1000" "1030" [bankCard "6222020011112222"] ++
          [.edit (ns "500"), .reply 3 (.repayInfo (some (quote "515")))]) =
          some ((s, [some (quote "1030")] ++ [some (quote "515")]), os) ∧
      ((viewDidLoad (.str (ns "U1")) (some (ns "8000"))).repayInfoSuccess
        (some (quote "515"))).map (fun p => p.1.planViews) ≠ some s.planViews := by
  have hrun : (planMachine.run (viewDidLoad (.str (ns "U1")) (some (ns "8000")), [])
      (opening "1000" "1030" [bankCard "6222020011112222"] ++
        [.edit (ns "500"), .reply 3 (.repayInfo (some (quote "515")))])).map
          (fun r => (r.1.2, r.1.1.planViews)) =
        some ([some (quote "1030")] ++ [some (quote "515")],
          (topLabels (some (quote "1030")) ++ topLabels (some (quote "515")),
            centerViews (some (quote "515")))) := by decide +kernel
  obtain ⟨⟨⟨s, qs⟩, os⟩, hs, heq⟩ := Option.map_eq_some_iff.mp hrun
  simp only [Prod.mk.injEq] at heq
  obtain ⟨rfl, hviews⟩ := heq
  refine ⟨s, os, hs, ?_⟩
  rw [hviews]
  decide +kernel

end LeYiDai.Loan
