import LeYiDai.Main.LoanStep

/-! When the loan screen raises. A handler raises on a literal with `nil` in it (a product or a card
    with a field missing, a quote without a repayment kind, an entry of the plan that is no object)
    and on a card number too short to cut four digits off. The reply handlers and the edit handler
    call each other, so the condition of each is the one of the last handler it reaches. -/

namespace LeYiDai.Loan

open LoanViewController

/-! ### Conditions on what the screen holds -/

/-- A quote can be asked for: the product has an id, a term and a repayment kind. -/
def Quotable (model : Option APPProdsModel) : Prop :=
  ∃ p ∈ model, p.prodId.isSome ∧ p.term.isSome ∧ p.retunKind.isSome

/-- An application can be sent: the card has its three names and numbers, the product a repayment
    kind and a term. -/
def Payable (card : Option BankDetialModel) (model : Option APPProdsModel) : Prop :=
  (∃ c ∈ card, c.bankcardName.isSome ∧ c.bankcardNo.isSome ∧ c.cardBankname.isSome) ∧
    ∃ p ∈ model, p.retunKind.isSome ∧ p.term.isSome

/-- A quote can be shown: every entry of the plan is an object and the repayment kind is there. -/
def Showable (result : Option RepayInfo) : Prop :=
  (∀ row ∈ (result.bind (·.repayDueList)).getD [], row.isSome) ∧
    (result.bind (·.repayType)).isSome

/-- An amount within the limit the screen was given. -/
def WithinLimit (s : LoanViewController) (text : NSString) : Prop :=
  intValueStr text ≤ (s.creditLeftamtStr.map intValueStr).getD 0

/-- What keeps a reply to a request from raising. -/
def SafeReply : Option Call → Body → Prop
  | some (.getAppprods _), .prods prods => Quotable (prods.getD []).head?.join
  | some (.getRepayInfo _), .repayInfo result => Showable result
  | some (.queryList _), .bankList bankList =>
    Sliceable ((bankList.getD []).head?.join.bind (·.bankcardNo))
  | _, _ => True

/-- What keeps an event from raising. -/
def Safe (s : LoanViewController) : Event → Prop
  | .edit text => s.pushed.isEmpty = true → WithinLimit s text → Quotable s.prodsModel
  | .touchNextBut => submits s .touchNextBut = true → Payable s.firstBankModel s.prodsModel
  | .didSelectRow card => s.pushed.head? = some .myBank → Sliceable card.bankcardNo
  | .bankModel card => Sliceable card.bankcardNo
  | .reply id body => SafeReply (s.callOf id) body
  | _ => True

/-! ### Handlers -/

variable {s : LoanViewController}

theorem useGetRepayInfo_isSome_iff : s.useGetRepayInfo.isSome ↔ Quotable s.prodsModel := by
  rw [useGetRepayInfo, Quotable]
  rcases s.prodsModel with _ | ⟨amount, prodId, term, retunKind⟩
  · simp
  · rcases prodId with _ | prodId <;> rcases term with _ | term <;>
      rcases retunKind with _ | retunKind <;> simp

theorem praDic_isSome_iff : s.praDic.isSome ↔ Payable s.firstBankModel s.prodsModel := by
  rw [praDic, Payable]
  rcases s.firstBankModel with _ | ⟨name, no, bankid, bankname⟩
  · simp
  · rcases s.prodsModel with _ | ⟨amount, prodId, term, retunKind⟩
    · rcases name with _ | name <;> rcases no with _ | no <;>
        rcases bankname with _ | bankname <;> simp
    · rcases name with _ | name <;> rcases no with _ | no <;>
        rcases bankname with _ | bankname <;> rcases term with _ | term <;>
          rcases retunKind with _ | retunKind <;> simp

theorem reloadBankView_isSome_iff :
    s.reloadBankView.isSome ↔ Sliceable (s.firstBankModel.bind (·.bankcardNo)) := by
  rw [reloadBankView, Option.isSome_map, cardTitle_isSome_iff]

theorem notificationClick_isSome_iff {card : BankDetialModel} :
    (s.notificationClick card).isSome ↔ Sliceable card.bankcardNo := by
  rw [notificationClick, Option.isSome_map, reloadBankView_isSome_iff]
  rfl

theorem relodHuanKuanCenterView_isSome_iff :
    s.relodHuanKuanCenterView.isSome ↔ (s.dataDic.bind (·.repayType)).isSome := by
  rw [relodHuanKuanCenterView]
  cases s.dataDic.bind (·.repayType) <;> simp

theorem textCLick_isSome_iff :
    s.textCLick.isSome ↔ (WithinLimit s s.moneyText → Quotable s.prodsModel) := by
  simp only [textCLick, WithinLimit]
  split_ifs with hover
  · have hnot : ¬ intValueStr s.moneyText ≤ (s.creditLeftamtStr.map intValueStr).getD 0 := by omega
    simp [hnot]
  · have hle : intValueStr s.moneyText ≤ (s.creditLeftamtStr.map intValueStr).getD 0 := by omega
    rw [useGetRepayInfo_isSome_iff]
    simp [hle]

theorem mapM_id_isSome_iff {α : Type} :
    ∀ {l : List (Option α)}, (l.mapM id).isSome ↔ ∀ x ∈ l, x.isSome
  | [] => by simp
  | none :: l => by simp [List.mapM_cons]
  | some a :: l => by
      have ih := mapM_id_isSome_iff (l := l)
      rw [List.mapM_cons]
      cases hl : l.mapM id with
      | none =>
        rw [hl] at ih
        simpa [hl] using ih
      | some rows =>
        rw [hl] at ih
        simpa [hl] using ih

theorem repayInfoSuccess_isSome_iff {result : Option RepayInfo} :
    (s.repayInfoSuccess result).isSome ↔ Showable result := by
  rw [repayInfoSuccess, Showable, ← mapM_id_isSome_iff]
  cases hrows : ((result.bind (·.repayDueList)).getD []).mapM id with
  | none => simp
  | some rows =>
    have hshow := relodHuanKuanCenterView_isSome_iff
      (s := { s with repayDueListArray := rows, dataDic := result })
    simp only [Option.bind_eq_bind, Option.bind_some, Option.isSome_some, true_and]
    rw [← hshow]
    cases relodHuanKuanCenterView { s with repayDueListArray := rows, dataDic := result } <;> simp

theorem completion_isSome_iff {call : Call} {body : Body} :
    (s.completion call body).isSome ↔ SafeReply (some call) body := by
  cases call with
  | getAppprods prodId =>
    cases body with
    | prods prods => exact useGetRepayInfo_isSome_iff
    | _ => simp [completion, SafeReply]
  | getRepayInfo q =>
    cases body with
    | repayInfo result => exact repayInfoSuccess_isSome_iff
    | _ => simp [completion, SafeReply]
  | queryList userId =>
    cases body with
    | bankList bankList =>
      rw [completion, bankListSuccess, Option.isSome_map, reloadBankView_isSome_iff]
      rfl
    | _ => simp [completion, SafeReply]
  | loanLendTradeUp u => cases body <;> simp [completion, SafeReply]
  | phoneBook userId data => cases body <;> simp [completion, SafeReply]

/-! ### The screen -/

/-- A tap on the confirm button raises only when it goes through with a field of the card or of the
    product missing. -/
theorem touchNextBut_isSome_iff : (s.step .touchNextBut).isSome ↔ Safe s .touchNextBut := by
  simp only [step, Safe, submits, Bool.and_eq_true]
  split_ifs with hcan
  · simp only [LoanViewController.touchNextBut]
    split_ifs with hfwd
    · rw [useLoanLendTradeUp, Option.isSome_map, praDic_isSome_iff]
      simp [hcan, hfwd]
    · simp [hfwd]
  · simp [hcan]

/-- A step raises exactly when its event is not safe. -/
theorem step_isSome_iff (s : LoanViewController) (e : Event) : (s.step e).isSome ↔ Safe s e := by
  cases e with
  | edit text =>
    simp only [step, Safe]
    split_ifs with htop
    · rw [textCLick_isSome_iff]
      simp [htop, WithinLimit]
    · simp [htop]
  | touchNextBut => exact touchNextBut_isSome_iff
  | didSelectRow card =>
    simp only [step, Safe]
    split
    · rename_i rest htop
      rw [notificationClick_isSome_iff]
      simp [htop]
    · rename_i htop
      have hnot : s.pushed.head? ≠ some .myBank := by
        intro hhead
        obtain ⟨rest, hrest⟩ := List.head?_eq_some_iff.mp hhead
        exact htop rest hrest
      simp [hnot]
  | bankModel card => exact notificationClick_isSome_iff
  | reply id body =>
    simp only [step, Safe, callOf]
    cases s.find id with
    | none => cases body <;> simp [SafeReply]
    | some r => exact completion_isSome_iff
  | resetState i | tick d | chouseCardButtonClick | pop | deviceBook arr | openURL url =>
    simp [step, Safe]

/-- A run of the loan screen raises nowhere iff every event it comes to is safe: a quote is asked
    for with a whole product only, an application is sent with a whole card, and every card number
    that comes in is missing or has four units. -/
theorem loan_raises_nowhere_iff (userId : Json) (creditLeftamtStr : Option NSString)
    (es : List Event) :
    (machine.run (viewDidLoad userId creditLeftamtStr) es).isSome ↔
      machine.Attempts Safe (viewDidLoad userId creditLeftamtStr) es :=
  Machine.run_isSome_iff step_isSome_iff es _

/-- An amount typed before the product is there raises. -/
theorem raises_before_product : ¬ ∀ (userId : Json) (creditLeftamtStr : Option NSString)
    (es : List Event), (machine.run (viewDidLoad userId creditLeftamtStr) es).isSome = true := by
  intro h
  have hrun := h (.str (ns "U1")) (some (ns "5000")) [.edit (ns "100")]
  revert hrun
  decide +kernel

end LeYiDai.Loan
