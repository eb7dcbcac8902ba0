import LeYiDai.Main.RepaymentViewController
import Mathlib.Data.List.Nodup

/-! What one step of the repayment screen does, said once. The books (bills, selection, list reply,
    amount) turn in one of four ways, by what the event writes into the amount field; the sheet
    stands from the tap that opens it to the one that pays, under the title of the card tapped
    last; a repayment leaves exactly on a tap that pays, made from the books before it. -/

namespace LeYiDai.Repay

open RepaymentViewController

/-! ### What a handler can do -/

/-- What the request that a reply answers asked for. -/
def RepaymentViewController.callOf (s : RepaymentViewController) (id : ℕ) : Option Call :=
  (s.find id).map Request.call

/-- The repayment among the requests of a step. -/
def Request.up? (r : Request) : Option RepayListUp :=
  match r.call with
  | .repayListUp u => some u
  | _ => none

/-- A tap on the confirm button that opens a sheet. -/
def opens (s : RepaymentViewController) : Event → Bool
  | .touchSureBut => s.uncovered && (s.sureBut.mySendAction s.now).2
  | _ => false

/-- A tap on the pay button that pays: it reaches the button and is not held back. -/
def pays (s : RepaymentViewController) : Event → Bool
  | .touchRepayBut => s.sheetUp && s.bankView.any fun v => (v.repayBut.mySendAction s.now).2
  | _ => false

/-- The card whose title an event puts on the sheet: one tapped in a card list. -/
def tappedCard (s : RepaymentViewController) : Event → Option BankDetialModel
  | .didSelectRow card => if s.place = .underCards then some card else none
  | .bankModel card => if s.alive then some card else none
  | _ => none

/-- The title of a sheet opened over a list reply, `(null)` in its place before there is one. -/
def sheetTitle (dataDictt : Option RepayResult) : Option NSString :=
  let cardStr := fmt (dataDictt.bind (·.bankcardNo))
  (substringFromIndex cardStr (nsuSub cardStr.length 4)).map fun strCar =>
    fmt (dataDictt.bind (·.cardBankname)) ++ ns "  " ++ strCar

/-- The tap leaves the last selected bill as it is. -/
def keepsLast (s : RepaymentViewController) (row : ℕ) : Bool :=
  s.dataArray[row]?.any (· ∈ s.selectArray) && s.selectArray.length = 1

/-- Where the text of the amount field comes from: the first bill of a list reply, the float sum
    after a row tap, the user. -/
inductive Source where | loaded | summed | typed
  deriving DecidableEq

/-- What an event writes into the amount field. -/
def writes (s : RepaymentViewController) : Event → Option Source
  | .edit _ => if s.place = .top then some .typed else none
  | .selectButtonClick row =>
    if s.uncovered && row < s.dataArray.length && !keepsLast s row then some .summed else none
  | .reply id (.repayList _) =>
    match s.callOf id with
    | some (.getRepayList _) => if s.alive then some .loaded else none
    | _ => none
  | _ => none

/-- The bills, the selection, the list reply and the amount. -/
structure Books where
  dataArray : List NSDictionary
  selectArray : List NSDictionary
  dataDictt : Option RepayResult
  moneyText : NSString

def RepaymentViewController.books (s : RepaymentViewController) : Books :=
  { dataArray := s.dataArray
    selectArray := s.selectArray
    dataDictt := s.dataDictt
    moneyText := s.moneyText }

/-- The selection with one bill more or less, and the amount computed from it. -/
structure Toggled (b b' : Books) : Prop where
  same : b'.dataArray = b.dataArray ∧ b'.dataDictt = b.dataDictt
  selection : ∃ bill ∈ b.dataArray,
    bill ∈ b.selectArray ∧ b.selectArray.length ≠ 1 ∧
        b'.selectArray = b.selectArray.filter (· ≠ bill) ∨
      bill ∉ b.selectArray ∧ b'.selectArray = b.selectArray ++ [bill]
  amount : b'.moneyText = format2f (addFloats (b'.selectArray.map dueAmt))

/-- The first bill of a list selected, with its own amount. -/
def Loaded (b' : Books) : Prop :=
  ∃ dic, dic ∈ b'.dataArray ∧ b'.selectArray = [dic] ∧ b'.moneyText = dueAmt dic

/-- What a step does to the books, by what its event writes. -/
inductive Turns (s : RepaymentViewController) (e : Event) (s' : RepaymentViewController) :
    Prop where
  | quiet (hwrites : writes s e = none) (hbooks : s'.books = s.books)
  | typed (hwrites : writes s e = some .typed)
      (hbooks : ∃ text, s'.books = { s.books with moneyText := text })
  | summed (hwrites : writes s e = some .summed) (hbooks : Toggled s.books s'.books)
  | loaded (hwrites : writes s e = some .loaded) (hbooks : Loaded s'.books)

/-- What a step does to the title of the sheet's card button. -/
inductive Titles (s : RepaymentViewController) (e : Event) (s' : RepaymentViewController) :
    Prop where
  | kept (hopens : opens s e = false) (htapped : tappedCard s e = none)
      (htitle : s'.bankView.map (·.bankNum) = s.bankView.map (·.bankNum))
  | opened (hopens : opens s e = true)
      (htitle : s'.bankView.map (·.bankNum) = sheetTitle s.dataDictt)
  | tapped (card : BankDetialModel) (htapped : tappedCard s e = some card)
      (htitle : ∀ v ∈ s'.bankView, cardTitle card.cardBankname card.bankcardNo = some v.bankNum)

/-- Three views above a select button stands its row's cell. -/
theorem selectRow_eq (row : ℕ) : selectRow row = row := rfl

theorem turns_select {s s' : RepaymentViewController} {row : ℕ}
    (hrow : (s.uncovered && row < s.dataArray.length) = true)
    (h : s.selectButtonClick row = some s') : Turns s (.selectButtonClick row) s' := by
  rw [RepaymentViewController.selectButtonClick, selectRow_eq] at h
  cases hbill : s.dataArray[row]? with
  | none =>
    rw [hbill] at h
    cases h
  | some bill =>
    have hmem : bill ∈ s.dataArray := List.mem_of_getElem? hbill
    simp only [hbill] at h
    split_ifs at h with hsel hlast
    · cases h
      exact .quiet (by simp [writes, keepsLast, hbill, hsel, hlast]) rfl
    · cases h
      exact .summed (by simpa [writes, keepsLast, hbill, hsel, hlast] using hrow)
        ⟨⟨rfl, rfl⟩, ⟨bill, hmem, .inl ⟨hsel, hlast, rfl⟩⟩, rfl⟩
    · cases h
      exact .summed (by simpa [writes, keepsLast, hbill, hsel] using hrow)
        ⟨⟨rfl, rfl⟩, ⟨bill, hmem, .inr ⟨hsel, rfl⟩⟩, rfl⟩

theorem turns_reply {s s' : RepaymentViewController} {id : ℕ} {body : Body} {r : Request}
    (hr : s.find id = some r) (halive : s.alive = true)
    (h : (s.answered id).completion r.call body = some s') :
    Turns s (.reply id body) s' := by
  have hcall : s.callOf id = some r.call := by rw [callOf, hr]; rfl
  cases hc : r.call with
  | getRepayList userId =>
    rw [hc] at h hcall
    cases body with
    | repayList result =>
      have hwrites : writes s (.reply id (.repayList result)) = some .loaded := by
        simp [writes, hcall, halive]
      simp only [completion, repayInsertSuccess] at h
      split at h
      · cases h
      · rename_i dic rest hlist
        cases h
        exact .loaded hwrites ⟨dic, by simp [books], rfl, rfl⟩
    | failure | refused | repaid =>
      cases h
      exact .quiet rfl rfl
  | repayListUp u =>
    rw [hc] at h hcall
    cases body with
    | repayList result =>
      cases h
      exact .quiet (by simp [writes, hcall]) rfl
    | failure | refused | repaid =>
      cases h
      exact .quiet rfl rfl

theorem notificationClick_frame {s s' : RepaymentViewController} {card : BankDetialModel}
    (h : s.notificationClick card = some s') : s'.books = s.books ∧ s'.inFlight = s.inFlight ∧
      s'.bankViewShown = s.bankViewShown ∧ s'.bottomView = s.bottomView ∧
        ∀ v ∈ s'.bankView, cardTitle card.cardBankname card.bankcardNo = some v.bankNum := by
  obtain ⟨butStr, hbut, rfl⟩ := Option.map_eq_some_iff.mp h
  refine ⟨rfl, rfl, rfl, rfl, fun v hv => ?_⟩
  obtain ⟨v₀, -, rfl⟩ := Option.map_eq_some_iff.mp hv
  exact hbut

theorem selectButtonClick_frame {s s' : RepaymentViewController} {row : ℕ}
    (h : s.selectButtonClick row = some s') : s'.inFlight = s.inFlight ∧
      s'.bankViewShown = s.bankViewShown ∧ s'.bankView = s.bankView ∧
        s'.bottomView = s.bottomView := by
  unfold RepaymentViewController.selectButtonClick at h
  split at h
  · cases h
  · split_ifs at h <;> cases h <;> exact ⟨rfl, rfl, rfl, rfl⟩

theorem completion_frame {s s' : RepaymentViewController} {call : Call} {body : Body}
    (h : s.completion call body = some s') : s'.inFlight = s.inFlight ∧
      s'.bankViewShown = s.bankViewShown ∧ s'.bankView = s.bankView ∧
        s'.bottomView = s.bottomView := by
  unfold completion at h
  split at h
  · unfold repayInsertSuccess at h
    split at h <;> cases h
    exact ⟨rfl, rfl, rfl, rfl⟩
  · cases h
    exact ⟨rfl, rfl, rfl, rfl⟩
  · cases h
    exact ⟨rfl, rfl, rfl, rfl⟩

theorem sureButtonClick_title {s s' : RepaymentViewController} (h : s.sureButtonClick = some s') :
    s'.bankView.map (·.bankNum) = sheetTitle s.dataDictt := by
  obtain ⟨strCar, hcut, rfl⟩ := Option.map_eq_some_iff.mp h
  rw [sheetTitle, hcut]
  rfl

/-- What one step does: the books turn one of four ways, a repayment leaves exactly on a tap that
    pays, made from the books before it, the sheet is there after it was opened and before it has
    paid, and its title is the default card's or that of the card tapped. -/
structure Steps (s : RepaymentViewController) (e : Event) (s' : RepaymentViewController)
    (os : List Request) : Prop where
  turns : Turns s e s'
  titles : Titles s e s'
  sheet : s'.bankViewShown = true →
    opens s e = true ∨ s.bankViewShown = true ∧ pays s e = false
  quiet : pays s e = false → os = [] ∧ s'.inFlight.Sublist s.inFlight
  paid : pays s e = true → ∃ u, s.repayDic = some u ∧
    os = [{ id := s.nextId, call := .repayListUp u, sentAt := s.now }] ∧
      s'.inFlight = s.inFlight ++ os

theorem steps_of_quiet {s s' : RepaymentViewController} {e : Event} {os : List Request}
    (hpays : pays s e = false) (hturns : Turns s e s') (htitles : Titles s e s')
    (hsheet : s'.bankViewShown = true → opens s e = true ∨ s.bankViewShown = true)
    (hos : os = []) (hflight : s'.inFlight.Sublist s.inFlight) : Steps s e s' os where
  turns := hturns
  titles := htitles
  sheet h := (hsheet h).imp_right fun hshown => ⟨hshown, hpays⟩
  quiet _ := ⟨hos, hflight⟩
  paid h := by rw [hpays] at h; cases h

/-- A step that touches neither the books nor the sheet and sends nothing. -/
theorem steps_of_frame {s s' : RepaymentViewController} {e : Event} {os : List Request}
    (hpays : pays s e = false) (hopens : opens s e = false) (hwrites : writes s e = none)
    (htapped : tappedCard s e = none) (hbooks : s'.books = s.books)
    (htitle : s'.bankView.map (·.bankNum) = s.bankView.map (·.bankNum))
    (hshown : s'.bankViewShown = true → s.bankViewShown = true) (hos : os = [])
    (hflight : s'.inFlight.Sublist s.inFlight) : Steps s e s' os :=
  steps_of_quiet hpays (.quiet hwrites hbooks) (.kept hopens htapped htitle)
    (fun h => .inr (hshown h)) hos hflight

theorem steps_touchSureBut {s s' : RepaymentViewController} {os : List Request}
    (h : s.step .touchSureBut = some (s', os)) : Steps s .touchSureBut s' os := by
  simp only [step] at h
  split_ifs at h with hun
  · obtain ⟨h₁, rfl⟩ := Machine.of_silent h
    simp only [RepaymentViewController.touchSureBut] at h₁
    split_ifs at h₁ with hfwd
    · have hopens : opens s .touchSureBut = true := by simp [opens, hun, hfwd]
      have htitle := sureButtonClick_title h₁
      obtain ⟨strCar, -, rfl⟩ := Option.map_eq_some_iff.mp h₁
      exact steps_of_quiet rfl (.quiet rfl rfl) (.opened hopens htitle) (fun _ => .inl hopens) rfl
        (List.Sublist.refl _)
    · cases h₁
      exact steps_of_frame rfl (by simp [opens, hfwd]) rfl rfl rfl rfl id rfl
        (List.Sublist.refl _)
  · cases h
    exact steps_of_frame rfl (by simp [opens, hun]) rfl rfl rfl rfl id rfl (List.Sublist.refl _)

theorem steps_touchRepayBut {s s' : RepaymentViewController} {os : List Request}
    (h : s.step .touchRepayBut = some (s', os)) : Steps s .touchRepayBut s' os := by
  simp only [step] at h
  cases hv : s.bankView with
  | none =>
    rw [hv] at h
    cases h
    exact steps_of_frame (by simp [pays, hv]) rfl rfl rfl rfl rfl id rfl (List.Sublist.refl _)
  | some v =>
    simp only [hv] at h
    split_ifs at h with hup
    · simp only [RepaymentViewController.touchRepayBut] at h
      split_ifs at h with hfwd
      · obtain ⟨u, hu, heq⟩ := Option.map_eq_some_iff.mp h
        replace hu : s.repayDic = some u := hu
        have hpays : pays s .touchRepayBut = true := by simp [pays, hup, hv, hfwd]
        cases heq
        exact
          { turns := .quiet rfl rfl
            titles := .kept rfl rfl (by rw [hv]; rfl)
            sheet := fun hshown => by cases hshown
            quiet := fun hheld => by rw [hpays] at hheld; cases hheld
            paid := fun _ => ⟨u, hu, rfl, rfl⟩ }
      · cases h
        exact steps_of_frame (by simp [pays, hv, hfwd]) rfl rfl rfl rfl (by rw [hv]; rfl) id rfl
          (List.Sublist.refl _)
    · cases h
      exact steps_of_frame (by simp [pays, hup]) rfl rfl rfl rfl rfl id rfl (List.Sublist.refl _)

/-- A card tapped in a list, after the event's own change `s₀` of the state. -/
theorem steps_tapped {s s₀ s' : RepaymentViewController} {e : Event} {card : BankDetialModel}
    (h : s₀.notificationClick card = some s') (hpays : pays s e = false)
    (hwrites : writes s e = none) (htapped : tappedCard s e = some card)
    (hbooks : s₀.books = s.books) (hshown : s₀.bankViewShown = s.bankViewShown)
    (hflight : s₀.inFlight = s.inFlight) : Steps s e s' [] := by
  obtain ⟨hbooks', hflight', hshown', -, htitle⟩ := notificationClick_frame h
  exact steps_of_quiet hpays (.quiet hwrites (hbooks'.trans hbooks)) (.tapped card htapped htitle)
    (fun hup => .inr (hshown ▸ hshown' ▸ hup)) rfl
    ((hflight'.trans hflight) ▸ List.Sublist.refl _)

theorem steps_reply {s s' : RepaymentViewController} {id : ℕ} {body : Body} {os : List Request}
    (h : s.step (.reply id body) = some (s', os)) : Steps s (.reply id body) s' os := by
  simp only [step] at h
  cases hr : s.find id with
  | none =>
    rw [hr] at h
    cases h
    refine steps_of_frame rfl rfl ?_ rfl rfl rfl (fun hup => hup) rfl (List.Sublist.refl _)
    cases body <;> simp [writes, callOf, hr]
  | some r =>
    simp only [hr] at h
    split_ifs at h with halive
    · obtain ⟨h₁, rfl⟩ := Machine.of_silent h
      obtain ⟨hflight, hshown, hview, -⟩ := completion_frame h₁
      exact steps_of_quiet rfl (turns_reply hr halive h₁) (.kept rfl rfl (congrArg _ hview))
        (fun hup => .inr (hshown ▸ hup)) rfl (hflight ▸ List.filter_sublist)
    · cases h
      refine steps_of_frame rfl rfl ?_ rfl rfl rfl (fun hup => hup) rfl List.filter_sublist
      cases body with
      | repayList result =>
        rcases hcall : s.callOf id with _ | ⟨userId | u⟩ <;> simp [writes, hcall, halive]
      | failure | refused | repaid => rfl

/-- What one step of the screen does. -/
theorem steps {s s' : RepaymentViewController} {e : Event} {os : List Request}
    (h : s.step e = some (s', os)) : Steps s e s' os := by
  cases e with
  | edit text =>
    cases h
    split_ifs with htop
    · exact steps_of_quiet rfl (.typed (if_pos htop) ⟨text, rfl⟩) (.kept rfl rfl rfl) .inr rfl
        (List.Sublist.refl _)
    · exact steps_of_frame rfl rfl (if_neg htop) rfl rfl rfl id rfl (List.Sublist.refl _)
  | selectButtonClick row =>
    simp only [step] at h
    split_ifs at h with hrow
    · obtain ⟨h₁, rfl⟩ := Machine.of_silent h
      obtain ⟨hflight, hshown, hview, -⟩ := selectButtonClick_frame h₁
      exact steps_of_quiet rfl (turns_select hrow h₁) (.kept rfl rfl (congrArg _ hview))
        (fun hup => .inr (hshown ▸ hup)) rfl (hflight ▸ List.Sublist.refl _)
    · cases h
      exact steps_of_frame rfl rfl (by simp_all [writes]) rfl rfl rfl id rfl (List.Sublist.refl _)
  | touchSureBut => exact steps_touchSureBut h
  | touchRepayBut => exact steps_touchRepayBut h
  | reply id body => exact steps_reply h
  | didSelectRow card =>
    simp only [step] at h
    split_ifs at h with hcards
    · obtain ⟨h₁, rfl⟩ := Machine.of_silent h
      exact steps_tapped h₁ rfl rfl (if_pos hcards) rfl rfl rfl
    · cases h
      exact steps_of_frame rfl rfl rfl (if_neg hcards) rfl rfl id rfl (List.Sublist.refl _)
  | bankModel card =>
    simp only [step] at h
    split_ifs at h with halive
    · obtain ⟨h₁, rfl⟩ := Machine.of_silent h
      exact steps_tapped h₁ rfl rfl (if_pos halive) rfl rfl rfl
    · cases h
      exact steps_of_frame rfl rfl rfl (if_neg halive) rfl rfl id rfl (List.Sublist.refl _)
  | hideBottomView | resetSureBut i | pop =>
    cases h
    exact steps_of_frame rfl rfl rfl rfl rfl rfl id rfl (List.Sublist.refl _)
  | resetRepayBut i =>
    cases h
    exact steps_of_frame rfl rfl rfl rfl rfl (by rw [Option.map_map]; rfl) id rfl
      (List.Sublist.refl _)
  | detialButCick row | selectBankViewClick | tick d =>
    cases h
    split_ifs <;> exact steps_of_frame rfl rfl rfl rfl rfl rfl id rfl (List.Sublist.refl _)
  | cancleButtonClick =>
    cases h
    split_ifs
    · exact steps_of_frame rfl rfl rfl rfl rfl rfl (fun hup => by cases hup) rfl
        (List.Sublist.refl _)
    · exact steps_of_frame rfl rfl rfl rfl rfl rfl id rfl (List.Sublist.refl _)

/-- A law about every repayment of a step is one about the tap that pays. -/
theorem forall_ups_iff {s s' : RepaymentViewController} {e : Event} {os : List Request}
    (h : s.step e = some (s', os)) (Q : RepayListUp → Prop) :
    (∀ u ∈ os.filterMap Request.up?, Q u) ↔ (pays s e = true → ∀ u ∈ s.repayDic, Q u) := by
  cases hpays : pays s e with
  | false =>
    rw [((steps h).quiet hpays).1]
    simp
  | true =>
    obtain ⟨u, hu, rfl, -⟩ := (steps h).paid hpays
    simp [hu, Request.up?]

/-- The fields of the repayment in front of the tap. -/
theorem repayDic_fields {s : RepaymentViewController} {u : RepayListUp} (h : s.repayDic = some u) :
    s.dataDictt.bind (·.bankcardNo) = some u.repayaccNo ∧
      s.dataDictt.bind (·.bankcardName) = some u.repayAccname ∧ u.realAmt = s.moneyText ∧
        u.loanAcctNos = s.selectArray.map repayAccno := by
  simp only [repayDic, Option.bind_eq_bind, Option.bind_eq_some_iff] at h
  obtain ⟨no, hno, name, hname, heq⟩ := h
  cases heq
  exact ⟨Option.bind_eq_some_iff.mpr hno, Option.bind_eq_some_iff.mpr hname, rfl, rfl⟩

/-! ### The list request -/

/-- The request for the list among the requests on their way. -/
def asksList (r : Request) : Bool :=
  match r.call with
  | .getRepayList _ => true
  | .repayListUp _ => false

/-- The list is asked for once: while the request is on its way, the screen has none of the list. -/
def Asked (s : RepaymentViewController) : Prop :=
  s.inFlight.filter asksList = [] ∨
    s.dataArray = [] ∧ s.dataDictt = none ∧ ∃ r, s.inFlight.filter asksList = [r]

/-- A step leaves no request for the list that was not on its way before. -/
theorem asked_sublist {s s' : RepaymentViewController} {e : Event} {os : List Request}
    (h : s.step e = some (s', os)) :
    (s'.inFlight.filter asksList).Sublist (s.inFlight.filter asksList) := by
  cases hpays : pays s e with
  | false => exact ((steps h).quiet hpays).2.filter _
  | true =>
    obtain ⟨u, -, hos, hflight⟩ := (steps h).paid hpays
    rw [hflight, hos, List.filter_append]
    simp [asksList]

/-- The event that loads the bills answers a request for the list, which it takes off the way. -/
theorem asked_loaded {s s' : RepaymentViewController} {e : Event} {os : List Request}
    (hwrites : writes s e = some .loaded) (h : s.step e = some (s', os)) :
    ∃ r ∈ s.inFlight.filter asksList, s'.inFlight = s.inFlight.filter (·.id ≠ r.id) := by
  cases e with
  | reply id body =>
    cases hr : s.find id with
    | none => cases body <;> simp [writes, callOf, hr] at hwrites
    | some r =>
      have hfound : r ∈ s.inFlight := List.mem_of_find?_eq_some hr
      have hid : r.id = id := by simpa using List.find?_some hr
      have hflight : s'.inFlight = s.inFlight.filter (·.id ≠ id) := by
        simp only [step, hr] at h
        split_ifs at h
        · obtain ⟨h₁, rfl⟩ := Machine.of_silent h
          exact (completion_frame h₁).1
        · cases h
          rfl
      refine ⟨r, List.mem_filter.mpr ⟨hfound, ?_⟩, hid ▸ hflight⟩
      cases hc : r.call with
      | getRepayList userId => simp [asksList, hc]
      | repayListUp u => cases body <;> simp [writes, callOf, hr, hc] at hwrites
  | selectButtonClick row => simp [writes] at hwrites
  | edit text =>
    simp only [writes] at hwrites
    split_ifs at hwrites
    cases hwrites
  | _ => cases hwrites

theorem asked_viewDidLoad (userId : Json) (overFlag : ℤ) : Asked (viewDidLoad userId overFlag) :=
  .inr ⟨rfl, rfl, _, rfl⟩

/-- The list finds the screen without bills and without a default card. -/
theorem Asked.of_loads {s s' : RepaymentViewController} {e : Event} {os : List Request}
    (hI : Asked s) (hwrites : writes s e = some .loaded) (h : s.step e = some (s', os)) :
    s.dataArray = [] ∧ s.dataDictt = none ∧ s'.inFlight.filter asksList = [] := by
  obtain ⟨r, hr, hflight⟩ := asked_loaded hwrites h
  obtain ⟨hdata, hdict, r₀, hr₀⟩ := hI.resolve_left fun hnone => by rw [hnone] at hr; cases hr
  have hsame : r = r₀ := by
    rw [hr₀] at hr
    exact List.mem_singleton.mp hr
  refine ⟨hdata, hdict, ?_⟩
  rw [hflight, List.filter_comm, hr₀, hsame]
  simp

/-- Only the list reply changes the list and the default card. -/
theorem same_of_not_loads {s s' : RepaymentViewController} {e : Event} {os : List Request}
    (hwrites : writes s e ≠ some .loaded) (h : s.step e = some (s', os)) :
    s'.dataArray = s.dataArray ∧ s'.dataDictt = s.dataDictt := by
  cases (steps h).turns with
  | quiet _ hbooks => exact ⟨congrArg Books.dataArray hbooks, congrArg Books.dataDictt hbooks⟩
  | typed _ hbooks =>
    obtain ⟨text, htext⟩ := hbooks
    exact ⟨congrArg Books.dataArray htext, congrArg Books.dataDictt htext⟩
  | summed _ hbooks => exact hbooks.same
  | loaded hloaded _ => exact absurd hloaded hwrites

theorem asked_step {s s' : RepaymentViewController} {e : Event} {os : List Request}
    (hI : Asked s) (h : s.step e = some (s', os)) : Asked s' := by
  by_cases hwrites : writes s e = some .loaded
  · exact .inl (hI.of_loads hwrites h).2.2
  · obtain ⟨hdata, hdict⟩ := same_of_not_loads hwrites h
    have hsub := asked_sublist h
    rcases hI with hnone | ⟨hnodata, hnodict, r₀, hr₀⟩
    · rw [hnone] at hsub
      exact .inl (List.sublist_nil.mp hsub)
    · rw [hr₀] at hsub
      rcases List.sublist_singleton.mp hsub with hnone | hone
      · exact .inl hnone
      · exact .inr ⟨hdata.trans hnodata, hdict.trans hnodict, r₀, hone⟩

/-! ### What the turns keep of the selection -/

/-- The selection holds bills of the list, none of them twice. -/
structure Picked (b : Books) : Prop where
  listed : ∀ bill ∈ b.selectArray, bill ∈ b.dataArray
  nodup : b.selectArray.Nodup

theorem Turns.picked {s s' : RepaymentViewController} {e : Event} (h : Turns s e s')
    (hI : Picked s.books) : Picked s'.books := by
  obtain ⟨hlisted, hnodup⟩ := hI
  cases h with
  | quiet hwrites hbooks => exact hbooks ▸ ⟨hlisted, hnodup⟩
  | typed hwrites hbooks =>
    obtain ⟨text, htext⟩ := hbooks
    exact htext ▸ ⟨hlisted, hnodup⟩
  | summed hwrites hbooks =>
    obtain ⟨⟨hdata, -⟩, ⟨bill, hbill, hsel⟩, -⟩ := hbooks
    rcases hsel with ⟨-, -, hsel⟩ | ⟨hnew, hsel⟩
    · refine ⟨fun b hb => ?_, hsel ▸ hnodup.filter _⟩
      rw [hsel] at hb
      rw [hdata]
      exact hlisted b (List.mem_of_mem_filter hb)
    · refine ⟨fun b hb => ?_, ?_⟩
      · rw [hsel] at hb
        rw [hdata]
        rcases List.mem_append.mp hb with hb | hb
        · exact hlisted b hb
        · exact List.mem_singleton.mp hb ▸ hbill
      · rw [hsel]
        exact hnodup.append (List.nodup_singleton bill) (by simpa using hnew)
  | loaded hwrites hbooks =>
    obtain ⟨dic, hdic, hsel, -⟩ := hbooks
    refine ⟨fun b hb => ?_, hsel ▸ List.nodup_singleton dic⟩
    rw [hsel] at hb
    exact List.mem_singleton.mp hb ▸ hdic

/-! ### Concrete replies -/

def bill (accno amt : String) : NSDictionary :=
  dictionary [(repayAccnoKey, .str (ns accno)), (dueAmtKey, .str (ns amt))]

/-- A list reply with the given bills and a default card. -/
def listReply (bills : List NSDictionary) : RepayResult :=
  { repayList := some bills
    bankcardNo := some (.str (ns "6222020011112222"))
    bankcardName := some (.str (ns "ICBC"))
    cardBankname := some (.str (ns "ICBC")) }

end LeYiDai.Repay
