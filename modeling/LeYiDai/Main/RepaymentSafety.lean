import LeYiDai.Main.RepaymentStep

/-! When the repayment screen raises: on a list reply without a bill, on a card number too short to
    cut four digits off, and on a payment before the reply has brought the default card's number and
    name. A row of the table is always the row of a bill. -/

namespace LeYiDai.Repay

open RepaymentViewController

/-- What keeps a reply to a request from raising. -/
def SafeReply : Option Call → Body → Prop
  | some (.getRepayList _), .repayList result => (result.bind (·.repayList)).getD [] ≠ []
  | _, _ => True

/-- What keeps an event from raising. Before the reply the default card's number is drawn as
    `(null)`, which is long enough. A controller that is gone gets neither cards nor replies. -/
def Safe (s : RepaymentViewController) : Event → Prop
  | .touchSureBut =>
    opens s .touchSureBut = true → 4 ≤ (fmt (s.dataDictt.bind (·.bankcardNo))).length
  | .touchRepayBut => pays s .touchRepayBut = true →
    ∃ d ∈ s.dataDictt, d.bankcardNo.isSome ∧ d.bankcardName.isSome
  | .didSelectRow card => s.place = .underCards → Sliceable card.bankcardNo
  | .bankModel card => s.alive = true → Sliceable card.bankcardNo
  | .reply id body => s.alive = true → SafeReply (s.callOf id) body
  | _ => True

/-! ### Handlers -/

variable {s : RepaymentViewController}

theorem selectButtonClick_isSome {row : ℕ} (hrow : row < s.dataArray.length) :
    (s.selectButtonClick row).isSome := by
  rw [RepaymentViewController.selectButtonClick, selectRow_eq, List.getElem?_eq_getElem hrow]
  simp only
  split_ifs <;> rfl

theorem sureButtonClick_isSome_iff :
    s.sureButtonClick.isSome ↔ 4 ≤ (fmt (s.dataDictt.bind (·.bankcardNo))).length := by
  rw [sureButtonClick, Option.isSome_map, substringFromIndex_isSome_iff]

theorem repayDic_isSome_iff :
    s.repayDic.isSome ↔ ∃ d ∈ s.dataDictt, d.bankcardNo.isSome ∧ d.bankcardName.isSome := by
  rw [repayDic]
  rcases s.dataDictt with _ | ⟨bills, no, name, cardName⟩
  · simp
  · rcases no with _ | no <;> rcases name with _ | name <;> simp

theorem notificationClick_isSome_iff {card : BankDetialModel} :
    (s.notificationClick card).isSome ↔ Sliceable card.bankcardNo := by
  rw [notificationClick, Option.isSome_map, cardTitle_isSome_iff]

theorem repayInsertSuccess_isSome_iff {result : Option RepayResult} :
    (s.repayInsertSuccess result).isSome ↔ (result.bind (·.repayList)).getD [] ≠ [] := by
  rw [repayInsertSuccess]
  split
  · rename_i hlist
    simp [hlist]
  · rename_i dic rest hlist
    simp [hlist]

theorem completion_isSome_iff {call : Call} {body : Body} :
    (s.completion call body).isSome ↔ SafeReply (some call) body := by
  cases call with
  | getRepayList userId =>
    cases body with
    | repayList result => exact repayInsertSuccess_isSome_iff
    | _ => simp [completion, SafeReply]
  | repayListUp u => cases body <;> simp [completion, SafeReply]

/-! ### The screen -/

theorem touchSureBut_isSome_iff : (s.step .touchSureBut).isSome ↔ Safe s .touchSureBut := by
  simp only [step, Safe, opens, Bool.and_eq_true]
  split_ifs with hun
  · rw [Option.isSome_map, RepaymentViewController.touchSureBut]
    simp only
    split_ifs with hfwd
    · rw [sureButtonClick_isSome_iff]
      simp [hun, hfwd]
    · simp [hfwd]
  · simp [hun]

theorem touchRepayBut_isSome_iff : (s.step .touchRepayBut).isSome ↔ Safe s .touchRepayBut := by
  simp only [step, Safe, pays, Bool.and_eq_true]
  cases hv : s.bankView with
  | none => simp
  | some v =>
    simp only [Option.any_some]
    split_ifs with hup
    · simp only [RepaymentViewController.touchRepayBut]
      split_ifs with hfwd
      · rw [repayButClick, Option.isSome_map, repayDic_isSome_iff]
        simp [hup, hfwd]
      · simp [hfwd]
    · simp [hup]

/-- A step raises exactly when its event is not safe. -/
theorem step_isSome_iff (s : RepaymentViewController) (e : Event) :
    (s.step e).isSome ↔ Safe s e := by
  cases e with
  | selectButtonClick row =>
    simp only [step, Safe]
    split_ifs with hrow
    · rw [Option.isSome_map]
      have hlt : row < s.dataArray.length := by simp_all
      simp [selectButtonClick_isSome hlt]
    · simp
  | touchSureBut => exact touchSureBut_isSome_iff
  | touchRepayBut => exact touchRepayBut_isSome_iff
  | didSelectRow card =>
    simp only [step, Safe]
    split_ifs with hcards
    · rw [Option.isSome_map, notificationClick_isSome_iff]
      simp [hcards]
    · simp [hcards]
  | bankModel card =>
    simp only [step, Safe]
    split_ifs with halive
    · rw [Option.isSome_map, notificationClick_isSome_iff]
      simp [halive]
    · simp [halive]
  | reply id body =>
    simp only [step, Safe, callOf]
    cases s.find id with
    | none => cases body <;> simp [SafeReply]
    | some r =>
      simp only [Option.map_some]
      split_ifs with halive
      · rw [Option.isSome_map, completion_isSome_iff]
        simp [halive]
      · simp [halive]
  | edit text | detialButCick row | hideBottomView | resetSureBut i | cancleButtonClick |
      selectBankViewClick | pop | resetRepayBut i | tick d =>
    simp [step, Safe]

/-- A run of the repayment screen raises nowhere iff every event it comes to is safe: list replies
    hold a bill, card numbers have four units, and no tap pays before the default card's number and
    name are there. Nothing raises once the controller is gone. -/
theorem repayment_raises_nowhere_iff (userId : Json) (overFlag : ℤ) (es : List Event) :
    (machine.run (viewDidLoad userId overFlag) es).isSome ↔
      machine.Attempts Safe (viewDidLoad userId overFlag) es :=
  Machine.run_isSome_iff step_isSome_iff es _

/-- An empty list reply raises. -/
theorem raises_on_empty_list : ¬ ∀ (userId : Json) (overFlag : ℤ) (es : List Event),
    (machine.run (viewDidLoad userId overFlag) es).isSome = true := by
  intro h
  have hrun := h (.str (ns "U1")) 1 [.reply 0 (.repayList (some (listReply [])))]
  revert hrun
  decide +kernel

/-- The same reply to a screen that has been left reaches nobody. -/
example : (machine.run (viewDidLoad (.str (ns "U1")) 1)
    [.pop, .reply 0 (.repayList (some (listReply [])))]).isSome = true := by
  decide +kernel

end LeYiDai.Repay
