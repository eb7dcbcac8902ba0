import LeYiDai.Main.RepaymentStep
import Mathlib.Data.List.Dedup

/-! The rows of the repayment screen. The select button of a row turns its bill in the selection,
    the last selected bill apart; the detail button stops one view short of its row's cell and opens
    the breakdown of the first row, over the lines that earlier taps left in the same place. What
    the rows show as checked is the selection: the table is drawn anew wherever that changes. -/

namespace LeYiDai.Repay

open RepaymentViewController

/-! ### The select and the detail button -/

/-- The lines of a bill's breakdown: principal, interest and fee. -/
def breakdown (bill : NSDictionary) : List (NSString × NSString) :=
  let field (key : String) : NSString := emptyIfNilStr (yyString (bill.lookup (ns key)))
  [(ns "还款本金", field "dueCapi"), (ns "利息", field "dueInte"), (ns "费用", field "dueOtherfee")]

/-- The breakdown of the first row. -/
def firstBreakdown (s : RepaymentViewController) : List (NSString × NSString) :=
  (s.dataArray.head?.map breakdown).getD []

/-- The rows to be read in the breakdown view: lines of one text lie in one place and read as
    one. -/
def visibleRows (s : RepaymentViewController) : List (NSString × NSString) := s.bottomView.dedup

/-- One bill enters or leaves the selection, the others stay as they are. -/
def Toggles (bill : NSDictionary) (s s' : RepaymentViewController) : Prop :=
  (bill ∈ s'.selectArray ↔ bill ∉ s.selectArray) ∧
    s'.selectArray.filter (· ≠ bill) = s.selectArray.filter (· ≠ bill)

/-- The breakdown view is up and shows the lines of the bill. -/
def ShowsBreakdown (bill : NSDictionary) (s' : RepaymentViewController) : Prop :=
  s'.bottomViewShown = true ∧ visibleRows s' = breakdown bill

/-- The buttons of a row act on the row's own bill. -/
def OwnRow (s : RepaymentViewController) (e : Event) (s' : RepaymentViewController)
    (_ : List Request) : Prop :=
  match e with
  | .selectButtonClick row =>
    s.uncovered = true → ∀ bill ∈ s.dataArray[row]?, Toggles bill s s'
  | .detialButCick row =>
    s.uncovered = true → ∀ bill ∈ s.dataArray[row]?, ShowsBreakdown bill s'
  | _ => True

/-- The select button acts on the row's own bill and leaves the only selected bill alone; the detail
    button shows the row's own bill where that reads as the first row's does. -/
def OwnRowKeepsLast (s : RepaymentViewController) (e : Event) (s' : RepaymentViewController)
    (_ : List Request) : Prop :=
  match e with
  | .selectButtonClick row => s.uncovered = true → ∀ bill ∈ s.dataArray[row]?,
    if s.selectArray = [bill] then s'.selectArray = s.selectArray else Toggles bill s s'
  | .detialButCick row => s.uncovered = true → ∀ bill ∈ s.dataArray[row]?,
    breakdown bill = firstBreakdown s → ShowsBreakdown bill s'
  | _ => True

/-- The breakdown view holds the first row's lines some number of times, and the list that the one
    request brings finds the screen without bills. -/
structure Layered (s : RepaymentViewController) : Prop where
  layers : ∃ n, s.bottomView = (List.replicate n (firstBreakdown s)).flatten
  asked : Asked s

theorem breakdown_nodup (bill : NSDictionary) : (breakdown bill).Nodup := by
  have h₁ : ns "还款本金" ≠ ns "利息" := by decide +kernel
  have h₂ : ns "还款本金" ≠ ns "费用" := by decide +kernel
  have h₃ : ns "利息" ≠ ns "费用" := by decide +kernel
  simp [breakdown, h₁, h₂, h₃]

theorem dedup_flatten_replicate {α : Type} [DecidableEq α] {l : List α} (h : l.Nodup) :
    ∀ n : ℕ, (List.replicate (n + 1) l).flatten.dedup = l
  | 0 => by simpa using h.dedup
  | n + 1 => by
      rw [List.replicate_succ, List.flatten_cons, List.dedup_append,
        dedup_flatten_replicate h n]
      exact List.Subset.union_eq_right (List.Subset.refl l)

theorem detialButCick_bottomView {s : RepaymentViewController} {row : ℕ}
    (h : row < s.dataArray.length) :
    (s.detialButCick row).bottomView = s.bottomView ++ firstBreakdown s := by
  have hrow : detialRow row = 0 := rfl
  rw [RepaymentViewController.detialButCick, hrow, firstBreakdown]
  cases hbills : s.dataArray with
  | nil => rw [hbills] at h; cases h
  | cons bill bills => rfl

theorem touchSureBut_bottomView {s s' : RepaymentViewController} (h : s.touchSureBut = some s') :
    s'.bottomView = s.bottomView := by
  simp only [RepaymentViewController.touchSureBut] at h
  split_ifs at h
  · obtain ⟨strCar, -, rfl⟩ := Option.map_eq_some_iff.mp h
    rfl
  · cases h
    rfl

theorem touchRepayBut_bottomView {s s' : RepaymentViewController} {v : RepaySelectBankView}
    {os : List Request} (h : s.touchRepayBut v = some (s', os)) :
    s'.bottomView = s.bottomView := by
  simp only [RepaymentViewController.touchRepayBut] at h
  split_ifs at h
  · obtain ⟨u, -, heq⟩ := Option.map_eq_some_iff.mp h
    cases heq
    rfl
  · cases h
    rfl

/-- Only a tap on a detail button adds lines to the breakdown view, and it adds the first row's. -/
theorem bottomView_step {s s' : RepaymentViewController} {e : Event} {os : List Request}
    (h : s.step e = some (s', os)) :
    s'.bottomView = s.bottomView ∨ s'.bottomView = s.bottomView ++ firstBreakdown s := by
  cases e with
  | detialButCick row =>
    cases h
    split_ifs with hrow
    · rw [Bool.and_eq_true, decide_eq_true_eq] at hrow
      exact .inr (detialButCick_bottomView hrow.2)
    · exact .inl rfl
  | hideBottomView | resetSureBut i | pop | resetRepayBut i =>
    cases h
    exact .inl rfl
  | edit text | cancleButtonClick | selectBankViewClick | tick d =>
    cases h
    left
    split_ifs <;> rfl
  | selectButtonClick row =>
    left
    simp only [step] at h
    split_ifs at h
    · obtain ⟨h₁, rfl⟩ := Machine.of_silent h
      exact (selectButtonClick_frame h₁).2.2.2
    · cases h
      rfl
  | touchSureBut =>
    left
    simp only [step] at h
    split_ifs at h
    · obtain ⟨h₁, rfl⟩ := Machine.of_silent h
      exact touchSureBut_bottomView h₁
    · cases h
      rfl
  | touchRepayBut =>
    left
    simp only [step] at h
    split at h
    · split_ifs at h
      · exact touchRepayBut_bottomView h
      · cases h
        rfl
    · cases h
      rfl
  | didSelectRow card =>
    left
    simp only [step] at h
    split_ifs at h
    · obtain ⟨h₁, rfl⟩ := Machine.of_silent h
      exact (notificationClick_frame h₁).2.2.2.1
    · cases h
      rfl
  | bankModel card =>
    left
    simp only [step] at h
    split_ifs at h
    · obtain ⟨h₁, rfl⟩ := Machine.of_silent h
      exact (notificationClick_frame h₁).2.2.2.1
    · cases h
      rfl
  | reply id body =>
    left
    simp only [step] at h
    split at h
    · cases h
      rfl
    · split_ifs at h
      · obtain ⟨h₁, rfl⟩ := Machine.of_silent h
        exact (completion_frame h₁).2.2.2
      · cases h
        rfl

theorem layered_viewDidLoad (userId : Json) (overFlag : ℤ) :
    Layered (viewDidLoad userId overFlag) where
  layers := ⟨0, rfl⟩
  asked := asked_viewDidLoad userId overFlag

theorem layered_step {s s' : RepaymentViewController} {e : Event} {os : List Request}
    (hI : Layered s) (h : s.step e = some (s', os)) : Layered s' := by
  obtain ⟨⟨n, hlayers⟩, hasked⟩ := hI
  refine ⟨?_, asked_step hasked h⟩
  by_cases hwrites : writes s e = some .loaded
  · have hblank : firstBreakdown s = [] := by
      rw [firstBreakdown, (hasked.of_loads hwrites h).1]
      rfl
    have hnone : s.bottomView = [] := by rw [hlayers, hblank]; simp
    refine ⟨0, ?_⟩
    rcases bottomView_step h with hview | hview
    · rw [hview, hnone]
      rfl
    · rw [hview, hnone, hblank]
      rfl
  · have hfirst : firstBreakdown s' = firstBreakdown s := by
      rw [firstBreakdown, firstBreakdown, (same_of_not_loads hwrites h).1]
    rcases bottomView_step h with hview | hview
    · exact ⟨n, by rw [hview, hfirst, hlayers]⟩
    · exact ⟨n + 1, by rw [hview, hfirst, hlayers, List.replicate_succ', List.flatten_append]
                       simp⟩

/-- The select button turns its row's bill, unless that is all the selection. -/
theorem toggles_select {s s' : RepaymentViewController} {row : ℕ} {bill : NSDictionary}
    (hbill : s.dataArray[row]? = some bill) (h : s.selectButtonClick row = some s') :
    if s.selectArray = [bill] then s'.selectArray = s.selectArray else Toggles bill s s' := by
  rw [RepaymentViewController.selectButtonClick, selectRow_eq, hbill] at h
  simp only at h
  split_ifs at h with hsel hone
  · cases h
    obtain ⟨b, hb⟩ := List.length_eq_one_iff.mp hone
    rw [hb, List.mem_singleton] at hsel
    rw [if_pos (by rw [hb, hsel])]
  · cases h
    rw [if_neg (fun hall => hone (by rw [hall]; rfl))]
    refine ⟨?_, ?_⟩
    · simp [getAllAmutMoney, hsel]
    · simp [getAllAmutMoney, List.filter_filter]
  · cases h
    rw [if_neg (fun hall => hsel (by rw [hall]; exact List.mem_singleton_self bill))]
    refine ⟨?_, ?_⟩
    · simp [getAllAmutMoney, hsel]
    · simp [getAllAmutMoney, List.filter_append]

/-- In every run, a tap on a row's select button turns the row's bill in the selection and no other,
    unless it is the only one selected, which then stays; and a tap on a row's detail button opens a
    breakdown that shows the row's principal, interest and fee, whatever was opened before, where
    these read as the first row's do. -/
theorem rows_own_keeping_last (userId : Json) (overFlag : ℤ) (es : List Event) :
    machine.Always OwnRowKeepsLast (viewDidLoad userId overFlag) es := by
  refine Machine.always_of_inv (I := Layered) ?_ es _ (layered_viewDidLoad userId overFlag)
  intro s e s' os hI h
  refine ⟨layered_step hI h, ?_⟩
  cases e with
  | selectButtonClick row =>
    intro hun bill hbill
    have hrow : row < s.dataArray.length := (List.getElem?_eq_some_iff.mp hbill).1
    have htap : s.selectButtonClick row = some s' := by
      simp only [machine, step, hun, hrow, decide_true, Bool.and_self, if_pos] at h
      obtain ⟨h₁, rfl⟩ := Machine.of_silent h
      exact h₁
    exact toggles_select hbill htap
  | detialButCick row =>
    intro hun bill hbill hfirst
    have hrow : row < s.dataArray.length := (List.getElem?_eq_some_iff.mp hbill).1
    have htap : s' = s.detialButCick row := by
      simp only [machine, step, hun, hrow, decide_true, Bool.and_self, if_pos] at h
      cases h
      rfl
    obtain ⟨n, hlayers⟩ := hI.layers
    rw [htap]
    refine ⟨rfl, ?_⟩
    rw [visibleRows, detialButCick_bottomView hrow, hlayers, ← hfirst]
    have hlines := dedup_flatten_replicate (breakdown_nodup bill) n
    rwa [List.replicate_succ', List.flatten_append, List.flatten_singleton] at hlines
  | _ => trivial

instance (bill : NSDictionary) (s s' : RepaymentViewController) : Decidable (Toggles bill s s') :=
  inferInstanceAs (Decidable (_ ∧ _))

instance (bill : NSDictionary) (s' : RepaymentViewController) :
    Decidable (ShowsBreakdown bill s') :=
  inferInstanceAs (Decidable (_ ∧ _))

instance (s : RepaymentViewController) (e : Event) (s' : RepaymentViewController)
    (os : List Request) : Decidable (OwnRow s e s' os) :=
  match e with
  | .selectButtonClick row =>
    inferInstanceAs (Decidable (_ → ∀ bill ∈ s.dataArray[row]?, Toggles bill s s'))
  | .detialButCick row =>
    inferInstanceAs (Decidable (_ → ∀ bill ∈ s.dataArray[row]?, ShowsBreakdown bill s'))
  | .edit _ | .hideBottomView | .touchSureBut | .resetSureBut _ | .cancleButtonClick
  | .selectBankViewClick | .didSelectRow _ | .pop | .bankModel _ | .touchRepayBut
  | .resetRepayBut _ | .tick _ | .reply _ _ => inferInstanceAs (Decidable True)

/-- A bill with the amounts of a breakdown. -/
def splitBill (accno capi inte fee : String) : NSDictionary :=
  dictionary [(repayAccnoKey, .str (ns accno)), (dueAmtKey, .str (ns "560.00")),
    (ns "dueCapi", .str (ns capi)), (ns "dueInte", .str (ns inte)),
    (ns "dueOtherfee", .str (ns fee))]

/-- Two bills, the first of them selected. -/
def twoBills : List Event :=
  [.reply 0 (.repayList (some (listReply
    [splitBill "A1" "500.00" "50.00" "10.00", splitBill "A2" "300.00" "30.00" "5.00"])))]

/-- A tap on the only selected row turns nothing, and the detail button of the second row opens the
    breakdown of the first. -/
theorem rows_astray :
    ¬ machine.Always OwnRow (viewDidLoad (.str (ns "U1")) 1) (twoBills ++ [.selectButtonClick 0]) ∧
      ¬ machine.Always OwnRow (viewDidLoad (.str (ns "U1")) 1) (twoBills ++ [.detialButCick 1]) := by
  decide +kernel

/-! ### The selection -/

/-- The selection holds bills of the list, none of them twice, and is empty only before there are
    bills. -/
structure Selected (b : Books) : Prop extends Picked b where
  nonempty : b.dataArray ≠ [] → b.selectArray ≠ []

/-- A bill out of a selection of several leaves some. -/
theorem filter_ne_nil_of_nodup {α : Type} [DecidableEq α] {l : List α} {a : α} (hnodup : l.Nodup)
    (hmem : a ∈ l) (hlen : l.length ≠ 1) : l.filter (· ≠ a) ≠ [] := by
  intro hnone
  have hall : ∀ b ∈ l, b = a := by
    intro b hb
    simpa using List.filter_eq_nil_iff.mp hnone b hb
  have hone : l = List.replicate l.length a := List.eq_replicate_iff.mpr ⟨rfl, hall⟩
  rw [hone, List.nodup_replicate] at hnodup
  have hpos : 0 < l.length := List.length_pos_of_mem hmem
  omega

theorem Turns.selected {s s' : RepaymentViewController} {e : Event} (h : Turns s e s')
    (hI : Selected s.books) : Selected s'.books := by
  refine ⟨h.picked hI.toPicked, ?_⟩
  obtain ⟨⟨hlisted, hnodup⟩, hnonempty⟩ := hI
  cases h with
  | quiet hwrites hbooks => exact hbooks ▸ hnonempty
  | typed hwrites hbooks =>
    obtain ⟨text, htext⟩ := hbooks
    exact htext ▸ hnonempty
  | summed hwrites hbooks =>
    obtain ⟨bill, -, hsel⟩ := hbooks.selection
    intro _
    rcases hsel with ⟨hmem, hlen, hsel⟩ | ⟨-, hsel⟩
    · rw [hsel]
      exact filter_ne_nil_of_nodup hnodup hmem hlen
    · rw [hsel]
      exact List.append_ne_nil_of_right_ne_nil _ (List.cons_ne_nil _ _)
  | loaded hwrites hbooks =>
    obtain ⟨dic, -, hsel, -⟩ := hbooks
    intro _
    rw [hsel]
    exact List.cons_ne_nil _ _

/-! ### The table -/

/-- `tableView:cellForRowAtIndexPath:`, the image of the select button: whether the row is drawn as
    checked. -/
def cellForRow (s : RepaymentViewController) (row : ℕ) : Bool :=
  s.dataArray[row]?.any (· ∈ s.selectArray)

/-- The rows of the table as `reloadData` draws them. -/
def reloadData (s : RepaymentViewController) : List Bool :=
  (List.range s.dataArray.length).map (cellForRow s)

/-- Whether the handler of the event calls `reloadData`: it stands after the early return of the
    select button and at the end of the list reply. -/
def reloads (s : RepaymentViewController) : Event → Bool
  | .selectButtonClick row => s.uncovered && row < s.dataArray.length && !keepsLast s row
  | .reply id (.repayList _) => s.alive && (s.callOf id).any fun
    | .getRepayList _ => true
    | .repayListUp _ => false
  | _ => false

/-- The screen and its table: for each row, whether it was last drawn as checked. -/
structure RepayTable where
  screen : RepaymentViewController
  drawn : List Bool

/-- What happens to the screen, or a row that scrolls in and is drawn in a cell of the table. -/
inductive TableEvent where
  | screen (e : Event)
  | scroll (row : ℕ)

def RepayTable.step (t : RepayTable) : TableEvent → Option (RepayTable × List Request)
  | .screen e => (t.screen.step e).map fun (s', os) =>
    ({ screen := s', drawn := if reloads t.screen e then reloadData s' else t.drawn }, os)
  | .scroll row => some ({ t with drawn := t.drawn.set row (cellForRow t.screen row) }, [])

def tableMachine : Machine RepayTable TableEvent Request := ⟨RepayTable.step⟩

/-- The selection is not empty once there are bills, holds no bill twice and bills of the list only;
    a row is drawn as checked exactly when its bill is selected; and a repayment carries the account
    numbers of the selected bills in the order of the selection. -/
structure SelectionLaw (t : RepayTable) (_ : TableEvent) (t' : RepayTable) (os : List Request) :
    Prop where
  nonempty : t'.screen.dataArray ≠ [] → t'.screen.selectArray ≠ []
  nodup : t'.screen.selectArray.Nodup
  listed : ∀ bill ∈ t'.screen.selectArray, bill ∈ t'.screen.dataArray
  drawn : t'.drawn = t'.screen.dataArray.map fun bill => decide (bill ∈ t'.screen.selectArray)
  accounts : ∀ u ∈ os.filterMap Request.up?,
    u.loanAcctNos = t.screen.selectArray.map repayAccno

theorem reloadData_eq (s : RepaymentViewController) :
    reloadData s = s.dataArray.map fun bill => decide (bill ∈ s.selectArray) := by
  refine List.ext_getElem (by simp [reloadData]) fun row hrow hrow' => ?_
  rw [List.length_map] at hrow'
  simp [reloadData, cellForRow, List.getElem?_eq_getElem hrow']

/-- The table is drawn anew exactly by the events that write the amount of the selection. -/
theorem reloads_iff {s : RepaymentViewController} {e : Event} :
    reloads s e = true ↔ writes s e = some .summed ∨ writes s e = some .loaded := by
  cases e with
  | selectButtonClick row => simp [reloads, writes, and_assoc]
  | reply id body =>
    cases body with
    | repayList result =>
      rcases hcall : s.callOf id with _ | ⟨userId | u⟩ <;> simp [reloads, writes, hcall]
    | _ => simp [reloads, writes]
  | _ => simp [reloads, writes]

/-- A step that does not reload the table leaves the list and the selection as they were. -/
theorem same_of_not_reloads {s s' : RepaymentViewController} {e : Event} {os : List Request}
    (hreloads : ¬ reloads s e = true) (h : s.step e = some (s', os)) :
    s'.dataArray = s.dataArray ∧ s'.selectArray = s.selectArray := by
  have hturns := (steps h).turns
  cases hturns with
  | quiet _ hbooks => exact ⟨congrArg Books.dataArray hbooks, congrArg Books.selectArray hbooks⟩
  | typed _ hbooks =>
    obtain ⟨text, htext⟩ := hbooks
    exact ⟨congrArg Books.dataArray htext, congrArg Books.selectArray htext⟩
  | summed hwrites _ => exact absurd (reloads_iff.mpr (.inl hwrites)) hreloads
  | loaded hwrites _ => exact absurd (reloads_iff.mpr (.inr hwrites)) hreloads

/-- What the table keeps: the selection is one of the list, and every row is drawn as it stands. -/
structure Drawn (t : RepayTable) : Prop where
  selected : Selected t.screen.books
  drawn : t.drawn = t.screen.dataArray.map fun bill => decide (bill ∈ t.screen.selectArray)

theorem drawn_viewDidLoad (userId : Json) (overFlag : ℤ) :
    Drawn { screen := viewDidLoad userId overFlag, drawn := [] } where
  selected := ⟨⟨fun _ h => (nomatch h), List.nodup_nil⟩, fun h => absurd rfl h⟩
  drawn := rfl

/-- A row that scrolls in is drawn as it was drawn before. -/
theorem set_cellForRow {t : RepayTable} (hI : Drawn t) (row : ℕ) :
    t.drawn.set row (cellForRow t.screen row) = t.drawn := by
  rcases lt_or_ge row t.drawn.length with hrow | hrow
  · have hbill : row < t.screen.dataArray.length := by
      rw [hI.drawn, List.length_map] at hrow
      exact hrow
    have hsame : t.drawn[row] = cellForRow t.screen row := by
      simp [hI.drawn, cellForRow, List.getElem?_eq_getElem hbill]
    rw [← hsame, List.set_getElem_self]
  · exact List.set_eq_of_length_le hrow

theorem drawn_step {t t' : RepayTable} {e : TableEvent} {os : List Request} (hI : Drawn t)
    (h : tableMachine.step t e = some (t', os)) : Drawn t' := by
  cases e with
  | scroll row =>
    cases h
    refine ⟨hI.selected, ?_⟩
    rw [set_cellForRow hI row]
    exact hI.drawn
  | screen e =>
    obtain ⟨⟨s', os'⟩, hs, heq⟩ := Option.map_eq_some_iff.mp h
    cases heq
    refine ⟨(steps hs).turns.selected hI.selected, ?_⟩
    simp only
    split_ifs with hreloads
    · exact reloadData_eq s'
    · obtain ⟨hdata, hsel⟩ := same_of_not_reloads hreloads hs
      rw [hdata, hsel]
      exact hI.drawn

/-- Over every run of the screen and its table, with rows scrolling in at any time, the selection is
    one of the list, not empty once there are bills, drawn as it stands and sent as it stands. -/
theorem selection_law (userId : Json) (overFlag : ℤ) (es : List TableEvent) :
    tableMachine.Always SelectionLaw
      { screen := viewDidLoad userId overFlag, drawn := [] } es := by
  refine Machine.always_of_inv (I := Drawn) ?_ es _ (drawn_viewDidLoad userId overFlag)
  intro t e t' os hI h
  have hI' := drawn_step hI h
  refine ⟨hI', hI'.selected.nonempty, hI'.selected.nodup, hI'.selected.listed, hI'.drawn, ?_⟩
  cases e with
  | scroll row =>
    cases h
    intro u hu
    cases hu
  | screen e =>
    obtain ⟨⟨s', os'⟩, hs, heq⟩ := Option.map_eq_some_iff.mp h
    cases heq
    rw [forall_ups_iff hs]
    intro _ u hu
    exact (repayDic_fields hu).2.2.2

end LeYiDai.Repay
