import LeYiDai.Foundation.Values
import LeYiDai.Lib.Machine

/-! RecordViewController: the loan records and the repayment records behind one segmented control.
    The control changes the tab at once and asks for its rows; whatever list arrives last fills the
    table, and a tapped row opens the detail screen of the tab.

        segment ──▶ tab, typeStr ──▶ request ──▶ (any order) ──▶ listArray
        row tap ──▶ LoanDetial or RepaymentDetial, by the tab, with the row of listArray -/

namespace LeYiDai.Records

structure Request where
  id : ℕ
  userId : Json
  loanType : NSString
  deriving DecidableEq

/-- The detail screens, with the dictionary they are handed. -/
inductive Detail where
  | loanDetial (dataDic : NSDictionary)
  | repaymentDetial (dataDic : NSDictionary)
  deriving DecidableEq

structure RecordViewController where
  userId : Json
  selectSegIndexd : ℕ
  typeStr : NSString
  listArray : List NSDictionary
  isFirstReson : Bool
  pushed : List Detail
  nextId : ℕ
  inFlight : List Request
  deriving DecidableEq

/-- What can happen to the screen. The result of a reply is its `loanList`. -/
inductive Event where
  | segControlClick (selectedSegmentIndex : ℕ)
  | didSelectRow (row : ℕ)
  | pop
  | reply (id : ℕ) (body : Reply (List NSDictionary))

/-- The record type of a segment. -/
def typeOf (selectedSegmentIndex : ℕ) : NSString :=
  if selectedSegmentIndex = 0 then ns "lend" else ns "repay"

namespace RecordViewController

/-- `useLoanLendTradeList`: the request leaves. -/
def useLoanLendTradeList (s : RecordViewController) : RecordViewController × List Request :=
  let r : Request := { id := s.nextId, userId := s.userId, loanType := s.typeStr }
  ({ s with nextId := s.nextId + 1, inFlight := s.inFlight ++ [r] }, [r])

/-- `viewDidLoad`. -/
def viewDidLoad (userId : Json) : RecordViewController :=
  (useLoanLendTradeList
    { userId
      selectSegIndexd := 0
      typeStr := ns "lend"
      listArray := []
      isFirstReson := false
      pushed := []
      nextId := 0
      inFlight := [] }).1

/-- `segControlClick:`. -/
def segControlClick (selectedSegmentIndex : ℕ) (s : RecordViewController) :
    RecordViewController × List Request :=
  useLoanLendTradeList { s with
    selectSegIndexd := selectedSegmentIndex
    typeStr := if selectedSegmentIndex = 0 then ns "lend" else ns "repay" }

/-- `tableView:didSelectRowAtIndexPath:`. -/
def didSelectRow (dic : NSDictionary) (s : RecordViewController) : RecordViewController :=
  let detail := if s.selectSegIndexd = 0 then .loanDetial dic else .repaymentDetial dic
  { s with pushed := detail :: s.pushed }

/-- The completion block of a list request. A refused one shows a message. -/
def completion (body : Reply (List NSDictionary)) (s : RecordViewController) :
    RecordViewController :=
  match body with
  | .failure => s
  | .refused => { s with isFirstReson := true }
  | .result loanList => { s with isFirstReson := true, listArray := loanList.getD [] }

def find (s : RecordViewController) (id : ℕ) : Option Request := s.inFlight.find? (·.id = id)

/-- The request is no longer in flight. -/
def answered (id : ℕ) (s : RecordViewController) : RecordViewController :=
  { s with inFlight := s.inFlight.filter (·.id ≠ id) }

/-- One event. The control and the rows take touches while the screen is on top. -/
def step (s : RecordViewController) : Event → Option (RecordViewController × List Request)
  | .segControlClick i => some (if s.pushed.isEmpty then s.segControlClick i else (s, []))
  | .didSelectRow row =>
    match s.listArray[row]? with
    | some dic => some (if s.pushed.isEmpty then s.didSelectRow dic else s, [])
    | none => some (s, [])
  | .pop => some ({ s with pushed := s.pushed.tail }, [])
  | .reply id body =>
    match s.find id with
    | none => some (s, [])
    | some _ => some ((s.answered id).completion body, [])

def machine : Machine RecordViewController Event Request := ⟨step⟩

end RecordViewController

open RecordViewController

/-! ### The kind of the rows -/

/-- The list a reply brings, with the record type its request asked for. -/
def brought (s : RecordViewController) : Event → Option (NSString × List NSDictionary)
  | .reply id (.result loanList) => (s.find id).map fun r => (r.loanType, loanList.getD [])
  | _ => none

/-- The record type of the rows of the table: what the request of the last list asked for. -/
def rowType (kind : NSString) (s : RecordViewController) (e : Event) : NSString :=
  ((brought s e).map (·.1)).getD kind

/-- The detail screen of a record type. -/
def detailOf (kind : NSString) (dic : NSDictionary) : Detail :=
  if kind = ns "lend" then .loanDetial dic else .repaymentDetial dic

/-- The rows of the table are of the kind of the selected segment. -/
def RowsSelected (s : RecordViewController × NSString) : Prop :=
  s.1.listArray ≠ [] → s.2 = typeOf s.1.selectSegIndexd

/-- The row a tap opens. -/
def tapped (s : RecordViewController) : Event → Option NSDictionary
  | .didSelectRow row => if s.pushed.isEmpty then s.listArray[row]? else none
  | _ => none

/-- After the step the rows are of the selected kind, and a tapped row is opened in the detail
    screen of its own kind. -/
def ShowsOwnKind (s : RecordViewController × NSString) (e : Event)
    (s' : RecordViewController × NSString) (_ : List Request) : Prop :=
  RowsSelected s' ∧ ∀ dic ∈ tapped s.1 e, s'.1.pushed = detailOf s.2 dic :: s.1.pushed

/-- A switch finds no rows or rows of the kind it selects, and a list with rows answers a request
    for the kind that is selected when it arrives. -/
def KeepsKind (s : RecordViewController × NSString) (e : Event) : Prop :=
  match e with
  | .segControlClick i => s.1.pushed.isEmpty = true → s.1.listArray ≠ [] → s.2 = typeOf i
  | .reply _ _ => ∀ l ∈ brought s.1 e, l.2 ≠ [] → l.1 = typeOf s.1.selectSegIndexd
  | _ => True

theorem typeOf_eq_lend_iff {i : ℕ} : typeOf i = ns "lend" ↔ i = 0 := by
  have hne : ns "repay" ≠ ns "lend" := by decide +kernel
  rw [typeOf]
  split_ifs with hi
  · simp [hi]
  · simp [hi, hne]

/-- What a step does to the rows, their kind and the segment: a switch selects, a list replaces, and
    every other event leaves them. -/
theorem rowsSelected_step {s s' : RecordViewController × NSString} {e : Event} {os : List Request}
    (hI : RowsSelected s) (h : (machine.observe rowType).step s e = some (s', os)) :
    RowsSelected s' ↔ KeepsKind s e := by
  obtain ⟨s, kind⟩ := s
  obtain ⟨s', kind'⟩ := s'
  obtain ⟨hstep, rfl⟩ := Machine.observe_step.mp h
  cases e with
  | segControlClick i =>
    simp only [machine, step, Option.some.injEq] at hstep
    split_ifs at hstep with htop
    · cases hstep
      simp [RowsSelected, KeepsKind, htop, rowType, brought]
    · cases hstep
      simpa [RowsSelected, KeepsKind, htop, rowType, brought] using hI
  | didSelectRow row =>
    have hsame : s'.listArray = s.listArray ∧ s'.selectSegIndexd = s.selectSegIndexd := by
      simp only [machine, step] at hstep
      split at hstep
      · cases hstep
        split_ifs <;> exact ⟨rfl, rfl⟩
      · cases hstep
        exact ⟨rfl, rfl⟩
    simpa [RowsSelected, KeepsKind, rowType, brought, hsame] using hI
  | pop =>
    cases hstep
    simpa [RowsSelected, KeepsKind, rowType, brought] using hI
  | reply id body =>
    simp only [machine, step] at hstep
    cases hr : s.find id with
    | none =>
      rw [hr] at hstep
      cases hstep
      cases body <;> simpa [RowsSelected, KeepsKind, rowType, brought, hr] using hI
    | some r =>
      rw [hr] at hstep
      cases hstep
      cases body with
      | failure | refused =>
        simpa [RowsSelected, KeepsKind, rowType, brought, completion, answered] using hI
      | result loanList =>
        simp [RowsSelected, KeepsKind, rowType, brought, completion, answered, hr]

/-- While the rows are of the selected kind, a tapped row opens in the detail screen of its kind. -/
theorem pushed_tapped {s s' : RecordViewController} {kind : NSString} {e : Event}
    {os : List Request} {dic : NSDictionary} (hI : RowsSelected (s, kind))
    (hdic : tapped s e = some dic) (h : s.step e = some (s', os)) :
    s'.pushed = detailOf kind dic :: s.pushed := by
  cases e with
  | didSelectRow row =>
    simp only [tapped] at hdic
    split_ifs at hdic with htop
    simp only [step, hdic] at h
    rw [if_pos htop] at h
    cases h
    have hrows : s.listArray ≠ [] := by
      intro hnone
      rw [hnone] at hdic
      cases hdic
    have hkind : kind = typeOf s.selectSegIndexd := hI hrows
    rw [didSelectRow, detailOf]
    simp only [hkind, typeOf_eq_lend_iff]
  | _ => cases hdic

/-- In every run, the rows are of the selected kind after every step and every tapped row opens the
    detail screen of its own kind, iff every switch finds no rows or rows of the kind it selects and
    every list with rows answers a request for the kind then selected. -/
theorem shows_own_kind_iff (userId : Json) (es : List Event) :
    (machine.observe rowType).Always ShowsOwnKind (viewDidLoad userId, ns "lend") es ↔
      (machine.observe rowType).Meets KeepsKind (viewDidLoad userId, ns "lend") es := by
  refine Machine.always_iff_meets (I := RowsSelected) ?_ ?_ es _ (fun h => absurd rfl h)
  · intro s e s' os hI hC h
    exact (rowsSelected_step hI h).mpr hC
  · intro s e s' os hI h
    rw [← rowsSelected_step hI h]
    constructor
    · exact fun hP => hP.1
    · intro hrows
      refine ⟨hrows, fun dic hdic => ?_⟩
      obtain ⟨hstep, -⟩ := Machine.observe_step.mp h
      exact pushed_tapped hI hdic hstep

instance (s : RecordViewController × NSString) : Decidable (RowsSelected s) :=
  inferInstanceAs (Decidable (_ → _))

instance (s : RecordViewController × NSString) (e : Event) (s' : RecordViewController × NSString)
    (os : List Request) : Decidable (ShowsOwnKind s e s' os) :=
  inferInstanceAs (Decidable (_ ∧ _))

/-- A switch while loan records are listed leaves them under the repayment tab, and the row opens as
    a repayment. -/
theorem shows_other_kind : ¬ ∀ (userId : Json) (es : List Event),
    (machine.observe rowType).Always ShowsOwnKind (viewDidLoad userId, ns "lend") es := by
  intro h
  have hrun := h (.str (ns "U1"))
    [.reply 0 (.result (some [dictionary [(ns "loanAmt", .str (ns "1000"))]])),
      .segControlClick 1, .didSelectRow 0]
  revert hrun
  decide +kernel

end LeYiDai.Records
