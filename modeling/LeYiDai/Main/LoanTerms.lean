import LeYiDai.Foundation.Numerals
import LeYiDai.Main.LoanStep
import LeYiDai.Main.MainViewController

/-! What a loan application carries. The confirm button sends what the screen holds at the moment of
    the tap: the text of the field, the card and, beside them on the screen, the plan. Each of the
    three is read off the events that last wrote it, and each law about an application is exact in
    those events. -/

namespace LeYiDai.Loan

open LoanViewController

/-! ### The amount -/

/-- The text is a positive number not greater than the remaining credit. -/
def WithinCredit (creditLeftamt : Option NSString) (text : NSString) : Prop :=
  ∃ amount ∈ decimal? text, ∃ left ∈ creditLeftamt.bind decimal?, 0 < amount ∧ amount ≤ left

/-- Every application of the step asks for an amount within the credit. -/
def LendsWithin (creditLeftamt : Option NSString) (_ : LoanViewController) (_ : Event)
    (_ : LoanViewController) (os : List Request) : Prop :=
  ∀ u ∈ os.filterMap Request.lend?, WithinCredit creditLeftamt u.lendAmount

/-- The text last put into the field, by the user or by the product reply. -/
def lastText (text : NSString) (s : LoanViewController) (e : Event) : NSString :=
  (filledText s e).getD text

/-- No tap goes through while the text last put into the field is out of bounds. -/
def SubmitsWithin (creditLeftamt : Option NSString) (s : LoanViewController × NSString)
    (e : Event) : Prop :=
  submits s.1 e = true → WithinCredit creditLeftamt s.2

/-- The loan screen a tap on the home screen opens. -/
def loanFrom (userId : Json) (h : Home.MainViewController) : Option LoanViewController :=
  h.whiteBgViewButtonClick.bind fun
    | .loan creditLeftamtStr => some (viewDidLoad userId creditLeftamtStr)
    | .evaluation => none

/-- A granted customer is sent on with the limit in place of what remains of it. -/
theorem loanFrom_granted {h : Home.MainViewController} {home : Home.MainDetianModel}
    (hmodel : h.detialModel = some home) (hstate : home.userState = 4)
    (happ : home.creditAppstate = 1) (userId : Json) :
    loanFrom userId h = some (viewDidLoad userId home.creditLimit) := by
  simp [loanFrom, Home.MainViewController.whiteBgViewButtonClick, hmodel, hstate, happ]

/-- From the home screen of a granted customer, every application of a run is within the remaining
    credit iff no tap goes through on a text that is not: nothing on the way to the server looks at
    the amount. -/
theorem lends_within_iff {h : Home.MainViewController} {home : Home.MainDetianModel}
    (hmodel : h.detialModel = some home) (hstate : home.userState = 4)
    (happ : home.creditAppstate = 1) (userId : Json) :
    ∃ s, loanFrom userId h = some s ∧ ∀ es,
      (machine.Always (LendsWithin home.creditLeftamt) s es ↔
        (machine.observe lastText).Meets (SubmitsWithin home.creditLeftamt) (s, []) es) := by
  refine ⟨_, loanFrom_granted hmodel hstate happ userId, fun es => ?_⟩
  rw [← Machine.always_observe (f := lastText) es _ []]
  refine Machine.always_iff_meets (M := machine.observe lastText)
    (I := fun s => s.2 = s.1.moneyText) ?_ ?_ es _ rfl
  · rintro ⟨s, text⟩ e ⟨s', text'⟩ os hI - hs
    obtain ⟨hstep, rfl⟩ := Machine.observe_step.mp hs
    replace hI : text = s.moneyText := hI
    have hform : s'.moneyText = _ := congrArg Form.moneyText (steps hstep).form
    rw [hform, lastText, hI]
    rfl
  · rintro ⟨s, text⟩ e ⟨s', text'⟩ os hI hs
    obtain ⟨hstep, -⟩ := Machine.observe_step.mp hs
    replace hI : text = s.moneyText := hI
    rw [LendsWithin, forall_lends_iff hstep, SubmitsWithin]
    refine imp_congr_right fun hsub => ?_
    obtain ⟨u, hu, -⟩ := (steps hstep).lent hsub
    simp [hu, hI, (praDic_fields hu).1]

instance (creditLeftamt : Option NSString) (text : NSString) :
    Decidable (WithinCredit creditLeftamt text) :=
  inferInstanceAs (Decidable (∃ amount ∈ decimal? text, ∃ left ∈ creditLeftamt.bind decimal?,
    0 < amount ∧ amount ≤ left))

instance (creditLeftamt : Option NSString) (s : LoanViewController) (e : Event)
    (s' : LoanViewController) (os : List Request) :
    Decidable (LendsWithin creditLeftamt s e s' os) :=
  inferInstanceAs (Decidable (∀ u ∈ os.filterMap Request.lend?,
    WithinCredit creditLeftamt u.lendAmount))

/-- A granted customer with part of the limit left. -/
def grantedReply (creditLimit creditLeftamt : String) : Home.MainDetianModel :=
  { userState := 4
    creditInfo := some
      { creditAppstate := some (ns "1")
        creditLeftamt := some (ns creditLeftamt)
        creditLimit := some (ns creditLimit)
        inteRate := none }
    loanRepayDue := none }

theorem lends_within_iff_granted :
    ∃ s, loanFrom (.str (ns "U1"))
        (Home.MainViewController.fresh.showDetial (grantedReply "8000" "5000")) = some s ∧
      ∀ es, (machine.Always (LendsWithin (grantedReply "8000" "5000").creditLeftamt) s es ↔
        (machine.observe lastText).Meets
          (SubmitsWithin (grantedReply "8000" "5000").creditLeftamt) (s, []) es) :=
  lends_within_iff (by decide +kernel) (by decide) (by decide +kernel) _

/-- The amount of the product reply, over what is left, leaves with the first tap. -/
theorem lends_over_credit : ¬ ∀ (h : Home.MainViewController) (home : Home.MainDetianModel)
    (userId : Json) (s : LoanViewController) (es : List Event), h.detialModel = some home →
      home.userState = 4 → home.creditAppstate = 1 → loanFrom userId h = some s →
        machine.Always (LendsWithin home.creditLeftamt) s es := by
  intro h
  have hrun := h (Home.MainViewController.fresh.showDetial (grantedReply "8000" "5000"))
    (grantedReply "8000" "5000") (.str (ns "U1"))
    (viewDidLoad (.str (ns "U1")) (some (ns "8000")))
    (opening "6000" "6180" [bankCard "6222020011112222"] ++ [.touchNextBut]) (by decide +kernel)
    (by decide) (by decide +kernel) (by decide +kernel)
  revert hrun
  decide +kernel

/-! ### The card -/

/-- The application carries the card. -/
def Carries (u : LoanLendTradeUp) (card : BankDetialModel) : Prop :=
  u.lendBankid = emptyIfNilStr card.cardBankid ∧ some u.lendBankname = card.bankcardName ∧
    some u.lendCardNo = card.bankcardNo ∧ some u.lendCardName = card.cardBankname

/-- Two cards an application cannot tell apart. -/
def SameCard (c d : BankDetialModel) : Prop :=
  emptyIfNilStr c.cardBankid = emptyIfNilStr d.cardBankid ∧ c.bankcardName = d.bankcardName ∧
    c.bankcardNo = d.bankcardNo ∧ c.cardBankname = d.cardBankname

/-- The card the user last picked from the list of this screen, and the card last brought to it. -/
structure Cards where
  picked : Option BankDetialModel
  brought : Option BankDetialModel

def lastCards (t : Cards) (s : LoanViewController) (e : Event) : Cards :=
  { picked := (pickedCard s e).or t.picked
    brought := (broughtCard s e).getD t.brought }

/-- Every application of the step carries the card the user picked, if one was. -/
def LendsPicked (s : LoanViewController × Cards) (_ : Event) (_ : LoanViewController × Cards)
    (os : List Request) : Prop :=
  ∀ u ∈ os.filterMap Request.lend?, ∀ card ∈ s.2.picked, Carries u card

/-- No tap goes through while the card last brought differs from the one the user picked. -/
def SubmitsPicked (s : LoanViewController × Cards) (e : Event) : Prop :=
  submits s.1 e = true → ∀ card ∈ s.2.picked, ∃ last ∈ s.2.brought, SameCard last card

/-- An application carries a card iff the card the screen holds is the same. -/
theorem carries_iff {s : LoanViewController} {u : LoanLendTradeUp} (hu : s.praDic = some u)
    (card : BankDetialModel) : Carries u card ↔ ∃ last ∈ s.firstBankModel, SameCard last card := by
  obtain ⟨-, c, hc, hid, hname, hno, hcname⟩ := praDic_fields hu
  simp only [Carries, SameCard, hc, hid, ← hname, ← hno, ← hcname, Option.mem_some_iff,
    exists_eq_left']

/-- Every application after a pick carries the picked card iff no tap goes through while the card
    last brought to the screen, by a list reply or a tap in another card list, is a different
    one. -/
theorem lends_picked_iff (userId : Json) (creditLeftamtStr : Option NSString) (es : List Event) :
    (machine.observe lastCards).Always LendsPicked
        (viewDidLoad userId creditLeftamtStr, ⟨none, none⟩) es ↔
      (machine.observe lastCards).Meets SubmitsPicked
        (viewDidLoad userId creditLeftamtStr, ⟨none, none⟩) es := by
  refine Machine.always_iff_meets (I := fun s => s.2.brought = s.1.firstBankModel) ?_ ?_ es _ rfl
  · rintro ⟨s, t⟩ e ⟨s', t'⟩ os hI - hs
    obtain ⟨hstep, rfl⟩ := Machine.observe_step.mp hs
    replace hI : t.brought = s.firstBankModel := hI
    have hform : s'.firstBankModel = _ := congrArg Form.firstBankModel (steps hstep).form
    rw [hform, lastCards, hI]
    rfl
  · rintro ⟨s, t⟩ e ⟨s', t'⟩ os hI hs
    obtain ⟨hstep, -⟩ := Machine.observe_step.mp hs
    replace hI : t.brought = s.firstBankModel := hI
    rw [LendsPicked, forall_lends_iff hstep, SubmitsPicked]
    refine imp_congr_right fun hsub => ?_
    obtain ⟨u, hu, -⟩ := (steps hstep).lent hsub
    simp only [hu, Option.mem_some_iff, forall_eq', hI, carries_iff hu]

instance (u : LoanLendTradeUp) (card : BankDetialModel) : Decidable (Carries u card) :=
  inferInstanceAs (Decidable (_ ∧ _ ∧ _ ∧ _))

instance (s : LoanViewController × Cards) (e : Event) (s' : LoanViewController × Cards)
    (os : List Request) : Decidable (LendsPicked s e s' os) :=
  inferInstanceAs (Decidable (∀ u ∈ os.filterMap Request.lend?, ∀ card ∈ s.2.picked,
    Carries u card))

/-- An edit after the pick asks for a quote, the quote for the cards, and the first of them is the
    payout card again. -/
theorem lends_unpicked : ¬ ∀ (userId : Json) (creditLeftamtStr : Option NSString)
    (es : List Event), (machine.observe lastCards).Always LendsPicked
      (viewDidLoad userId creditLeftamtStr, ⟨none, none⟩) es := by
  intro h
  have hrun := h (.str (ns "U1")) (some (ns "8000"))
    (opening "1000" "1030" [bankCard "6222020011112222", bankCard "6222020033334444"] ++
      [.chouseCardButtonClick, .didSelectRow (bankCard "6222020033334444"), .edit (ns "500"),
        .reply 3 (.repayInfo (some (quote "515"))),
        .reply 4 (.bankList (some [some (bankCard "6222020011112222"),
          some (bankCard "6222020033334444")])), .touchNextBut])
  revert hrun
  decide +kernel

/-! ### The terms -/

/-- The success replies to quote requests so far, the last one in front, each with the amount its
    request asked for. -/
abbrev Quotes := List (NSString × Option RepayInfo)

def quotesSoFar (t : Quotes) (s : LoanViewController) (e : Event) : Quotes :=
  (quoted s e).toList ++ t

/-- For every application of the step, the plan and the total on the screen are those of a quote for
    the amount it asks for. -/
def LendsQuoted (s : LoanViewController × Quotes) (_ : Event) (_ : LoanViewController × Quotes)
    (os : List Request) : Prop :=
  ∀ u ∈ os.filterMap Request.lend?, ∃ q ∈ s.2, q.1 = u.lendAmount ∧ s.1.dataDic = q.2 ∧
    s.1.repayDueListArray = planOf q.2

/-- No tap goes through unless the last quote says what a quote for the text in the field said. -/
def SubmitsQuoted (s : LoanViewController × Quotes) (e : Event) : Prop :=
  submits s.1 e = true → ∃ q ∈ s.2, q.1 = s.1.moneyText ∧ s.2.head?.map (·.2) = some q.2

/-- The screen shows the last quote. -/
def ShowsLast (s : LoanViewController × Quotes) : Prop :=
  ∀ q ∈ s.2.head?, s.1.dataDic = q.2 ∧ s.1.repayDueListArray = planOf q.2

/-- For every application the terms on the screen are those quoted for its amount iff no tap goes
    through unless the quote that came last says what a quote for the text in the field said. -/
theorem lends_quoted_iff (userId : Json) (creditLeftamtStr : Option NSString) (es : List Event) :
    (machine.observe quotesSoFar).Always LendsQuoted
        (viewDidLoad userId creditLeftamtStr, []) es ↔
      (machine.observe quotesSoFar).Meets SubmitsQuoted
        (viewDidLoad userId creditLeftamtStr, []) es := by
  refine Machine.always_iff_meets (I := ShowsLast) ?_ ?_ es _ (by simp [ShowsLast])
  · rintro ⟨s, t⟩ e ⟨s', t'⟩ os hI - hs
    obtain ⟨hstep, rfl⟩ := Machine.observe_step.mp hs
    have hdic : s'.dataDic = _ := congrArg Form.dataDic (steps hstep).form
    have hrows : s'.repayDueListArray = _ := congrArg Form.repayDueListArray (steps hstep).form
    intro q hq
    rw [hdic, hrows]
    cases hquoted : quoted s e with
    | none =>
      have hq' : q ∈ t.head? := by simpa [quotesSoFar, hquoted] using hq
      simpa [formAfter, hquoted] using hI q hq'
    | some q' =>
      obtain rfl : q' = q := by simpa [quotesSoFar, hquoted] using hq
      simp [formAfter, hquoted]
  · rintro ⟨s, t⟩ e ⟨s', t'⟩ os hI hs
    obtain ⟨hstep, -⟩ := Machine.observe_step.mp hs
    rw [LendsQuoted, forall_lends_iff hstep, SubmitsQuoted]
    refine imp_congr_right fun hsub => ?_
    obtain ⟨u, hu, -⟩ := (steps hstep).lent hsub
    simp only [hu, Option.mem_some_iff, forall_eq', (praDic_fields hu).1]
    cases t with
    | nil => simp
    | cons last t =>
      obtain ⟨hdic, hrows⟩ : s.dataDic = last.2 ∧ s.repayDueListArray = planOf last.2 :=
        hI last rfl
      simp only [hdic, hrows, List.head?_cons, Option.map_some, Option.some.injEq]
      refine exists_congr fun q => and_congr_right fun _ => and_congr_right fun _ => ?_
      exact ⟨fun h => h.1, fun h => ⟨h, congrArg planOf h⟩⟩

instance (s : LoanViewController × Quotes) (e : Event) (s' : LoanViewController × Quotes)
    (os : List Request) : Decidable (LendsQuoted s e s' os) :=
  inferInstanceAs (Decidable (∀ u ∈ os.filterMap Request.lend?, ∃ q ∈ s.2,
    q.1 = u.lendAmount ∧ s.1.dataDic = q.2 ∧ s.1.repayDueListArray = planOf q.2))

/-- An edit whose quote fails leaves the terms of the amount before it on the screen. -/
theorem lends_unquoted : ¬ ∀ (userId : Json) (creditLeftamtStr : Option NSString)
    (es : List Event), (machine.observe quotesSoFar).Always LendsQuoted
      (viewDidLoad userId creditLeftamtStr, []) es := by
  intro h
  have hrun := h (.str (ns "U1")) (some (ns "8000"))
    (opening "1000" "1030" [bankCard "6222020011112222"] ++
      [.edit (ns "500"), .reply 3 .failure, .touchNextBut])
  revert hrun
  decide +kernel

end LeYiDai.Loan
