import LeYiDai.Main.RepaymentStep

/-! What a repayment carries. A tap on the pay button sends the default card, the text of the amount
    field and the accounts of the selected bills. The card is the one on the sheet unless another
    was chosen or the sheet was opened before the list; the text is the sum of the bills as long as
    the user has not typed over it and the float sum lands on it. -/

namespace LeYiDai.Repay

open RepaymentViewController

/-! ### The card -/

/-- A card as it is charged and shown: its number, its name and its title on a sheet. -/
structure Card where
  bankcardNo : Option Json
  bankcardName : Option Json
  title : Option NSString
  deriving DecidableEq

/-- A card of a card list. -/
def listedCard (card : BankDetialModel) : Card where
  bankcardNo := card.bankcardNo.map .str
  bankcardName := card.bankcardName.map .str
  title := cardTitle card.cardBankname card.bankcardNo

/-- The default card of the list reply. -/
def defaultCard (dataDictt : Option RepayResult) : Card where
  bankcardNo := dataDictt.bind (·.bankcardNo)
  bankcardName := dataDictt.bind (·.bankcardName)
  title := sheetTitle dataDictt

/-- The card chosen since the sheet was opened, and whether it was opened over a list reply. -/
structure Sheet where
  chosen : Option BankDetialModel
  overReply : Bool
  deriving DecidableEq

def noSheet : Sheet := { chosen := none, overReply := false }

def watchSheet (t : Sheet) (s : RepaymentViewController) (e : Event) : Sheet :=
  if opens s e then { chosen := none, overReply := s.dataDictt.isSome }
  else { t with chosen := (tappedCard s e).or t.chosen }

/-- The card to be charged: the one chosen, the default card without one. -/
def cardDue (s : RepaymentViewController × Sheet) : Card :=
  match s.2.chosen with
  | some card => listedCard card
  | none => defaultCard s.1.dataDictt

/-- Every repayment of the step goes, under the title the sheet shows, to the card due: number, name
    and title are those of one card. -/
def ChargesShown (s : RepaymentViewController × Sheet) (_ : Event)
    (_ : RepaymentViewController × Sheet) (os : List Request) : Prop :=
  ∀ u ∈ os.filterMap Request.up?, cardDue s =
    { bankcardNo := some u.repayaccNo
      bankcardName := some u.repayAccname
      title := s.1.bankView.map (·.bankNum) }

/-- A tap that pays finds the default card on the sheet: the card chosen has its number and its
    name, and without one the sheet was opened over the list reply, or reads as if it had been. -/
def PaysDefault (s : RepaymentViewController × Sheet) (e : Event) : Prop :=
  pays s.1 e = true →
    match s.2.chosen with
    | some card => (listedCard card).bankcardNo = (defaultCard s.1.dataDictt).bankcardNo ∧
        (listedCard card).bankcardName = (defaultCard s.1.dataDictt).bankcardName
    | none => s.2.overReply = true ∨ sheetTitle none = sheetTitle s.1.dataDictt

/-- The title on the sheet: that of the card chosen, and without one that of the list reply the
    sheet was opened over. -/
def Titled (s : RepaymentViewController × Sheet) : Prop :=
  ∀ v ∈ s.1.bankView, some v.bankNum =
    match s.2.chosen with
    | some card => (listedCard card).title
    | none => sheetTitle (if s.2.overReply then s.1.dataDictt else none)

/-- What every state of a run keeps of the sheet. -/
structure SheetKept (s : RepaymentViewController × Sheet) : Prop where
  titled : Titled s
  overReply : s.2.overReply = true → s.1.dataDictt ≠ none
  asked : Asked s.1

/-- A step that keeps the title of the sheet and what it stands for keeps the law. -/
theorem Titled.of_title {s s' : RepaymentViewController} {t : Sheet} (hI : Titled (s, t))
    (htitle : s'.bankView.map (·.bankNum) = s.bankView.map (·.bankNum))
    (hdict : t.overReply = true → s'.dataDictt = s.dataDictt) : Titled (s', t) := by
  intro v hv
  have hmem : some v.bankNum = s.bankView.map (·.bankNum) := by
    rw [← htitle, Option.mem_def.mp hv]
    rfl
  obtain ⟨v₀, hv₀, hnum⟩ := Option.map_eq_some_iff.mp hmem.symm
  have hbefore := hI v₀ hv₀
  rw [hnum] at hbefore
  rw [hbefore]
  cases hover : t.overReply with
  | false => simp
  | true => simp [hdict hover]

/-- The default card a sheet was opened over stays. -/
theorem SheetKept.same_dict {s s' : RepaymentViewController} {t : Sheet} {e : Event}
    {os : List Request} (hI : SheetKept (s, t)) (h : s.step e = some (s', os))
    (hover : t.overReply = true) : s'.dataDictt = s.dataDictt := by
  refine (same_of_not_loads (fun hwrites => ?_) h).2
  exact hI.overReply hover (hI.asked.of_loads hwrites h).2.1

/-- Opening a sheet does not load the list. -/
theorem writes_of_opens {s : RepaymentViewController} {e : Event} (h : opens s e = true) :
    writes s e = none := by
  cases e <;> first | rfl | cases h

theorem sheetKept_step {s s' : RepaymentViewController × Sheet} {e : Event} {os : List Request}
    (hI : SheetKept s) (h : (machine.observe watchSheet).step s e = some (s', os)) :
    SheetKept s' := by
  obtain ⟨s, t⟩ := s
  obtain ⟨s', t'⟩ := s'
  obtain ⟨hstep, rfl⟩ := Machine.observe_step.mp h
  have hasked := asked_step hI.asked hstep
  rw [watchSheet]
  cases hopens : opens s e with
  | true =>
    have hdict : s'.dataDictt = s.dataDictt :=
      (same_of_not_loads (by rw [writes_of_opens hopens]; exact nofun) hstep).2
    refine ⟨?_, ?_, hasked⟩
    · cases (steps hstep).titles with
      | opened _ htitle =>
        intro v hv
        have hnum : some v.bankNum = sheetTitle s.dataDictt := by
          rw [← htitle, Option.mem_def.mp hv]
          rfl
        rw [hnum]
        cases hreply : s.dataDictt <;> simp [hdict, hreply]
      | kept hheld =>
        rw [hopens] at hheld
        cases hheld
      | tapped card htapped =>
        cases e <;> first | cases hopens | cases htapped
    · intro hover
      rw [hdict]
      exact Option.isSome_iff_ne_none.mp hover
  | false =>
    refine ⟨?_, fun hover => ?_, hasked⟩
    · cases (steps hstep).titles with
      | kept _ htapped htitle =>
        rw [htapped]
        exact hI.titled.of_title htitle (hI.same_dict hstep)
      | opened hopened =>
        rw [hopens] at hopened
        cases hopened
      | tapped card htapped htitle =>
        rw [htapped]
        exact fun v hv => (htitle v hv).symm
    · rw [hI.same_dict hstep hover]
      exact hI.overReply hover

theorem sheetKept_viewDidLoad (userId : Json) (overFlag : ℤ) :
    SheetKept (viewDidLoad userId overFlag, noSheet) where
  titled _ hv := by cases hv
  overReply hover := by cases hover
  asked := asked_viewDidLoad userId overFlag

/-- In every state a run reaches, the sheet shows the title of the card that was chosen last, and
    before that of the list reply it was opened over. -/
theorem sheet_titled {userId : Json} {overFlag : ℤ} {es : List Event}
    {s : RepaymentViewController × Sheet} {os : List Request}
    (h : (machine.observe watchSheet).run (viewDidLoad userId overFlag, noSheet) es =
      some (s, os)) : Titled s :=
  (Machine.inv_of_run (fun _ _ _ _ hI hs => sheetKept_step hI hs)
    (sheetKept_viewDidLoad userId overFlag) h).titled

/-- A tap that pays is on a sheet. -/
theorem exists_sheet_of_pays {s : RepaymentViewController} {e : Event} (h : pays s e = true) :
    ∃ v, s.bankView = some v := by
  cases hv : s.bankView with
  | none => cases e <;> simp [pays, hv] at h
  | some v => exact ⟨v, rfl⟩

/-- The repayment in front of the tap, which goes to the default card, is for the card due under the
    title shown iff the tap finds the default card on the sheet. -/
theorem chargesShown_iff {s : RepaymentViewController} {t : Sheet} {u : RepayListUp}
    (hI : SheetKept (s, t)) (hu : s.repayDic = some u) {v : RepaySelectBankView}
    (hv : s.bankView = some v) :
    cardDue (s, t) =
        { bankcardNo := some u.repayaccNo
          bankcardName := some u.repayAccname
          title := s.bankView.map (·.bankNum) } ↔
      match t.chosen with
      | some card => (listedCard card).bankcardNo = (defaultCard s.dataDictt).bankcardNo ∧
          (listedCard card).bankcardName = (defaultCard s.dataDictt).bankcardName
      | none => t.overReply = true ∨ sheetTitle none = sheetTitle s.dataDictt := by
  obtain ⟨hno, hname, -⟩ := repayDic_fields hu
  have htitle := hI.titled v hv
  rw [hv, Option.map_some, htitle, ← hno, ← hname, cardDue]
  simp only
  cases t.chosen with
  | some card => simp [listedCard, defaultCard]
  | none => cases t.overReply <;> simp [defaultCard, eq_comm]

/-- Every repayment of a run is charged to the card whose title the sheet shows, the card chosen
    last or else the default card, iff every tap that pays finds the default card on the sheet: a
    card chosen reaches the title alone, and a sheet opened before the list reply shows no card. -/
theorem charges_shown_iff (userId : Json) (overFlag : ℤ) (es : List Event) :
    (machine.observe watchSheet).Always ChargesShown (viewDidLoad userId overFlag, noSheet) es ↔
      (machine.observe watchSheet).Meets PaysDefault (viewDidLoad userId overFlag, noSheet) es := by
  refine Machine.always_iff_meets (I := SheetKept)
    (fun _ _ _ _ hI _ hs => sheetKept_step hI hs) ?_ es _ (sheetKept_viewDidLoad userId overFlag)
  rintro ⟨s, t⟩ e ⟨s', t'⟩ os hI hs
  obtain ⟨hstep, -⟩ := Machine.observe_step.mp hs
  rw [ChargesShown, forall_ups_iff hstep, PaysDefault]
  refine imp_congr_right fun hpays => ?_
  obtain ⟨u, hu, -⟩ := (steps hstep).paid hpays
  obtain ⟨v, hv⟩ := exists_sheet_of_pays hpays
  simp only [hu, Option.mem_def, Option.some.injEq, forall_eq']
  exact chargesShown_iff hI hu hv

instance (s : RepaymentViewController × Sheet) (e : Event) (s' : RepaymentViewController × Sheet)
    (os : List Request) : Decidable (ChargesShown s e s' os) :=
  inferInstanceAs (Decidable (∀ u ∈ os.filterMap Request.up?, cardDue s =
    { bankcardNo := some u.repayaccNo
      bankcardName := some u.repayAccname
      title := s.1.bankView.map (·.bankNum) }))

/-- A card chosen on the sheet is shown there, and the default card is charged. -/
theorem charges_unshown : ¬ ∀ (userId : Json) (overFlag : ℤ) (es : List Event),
    (machine.observe watchSheet).Always ChargesShown (viewDidLoad userId overFlag, noSheet)
      es := by
  intro h
  have hrun := h (.str (ns "U1")) 1
    [.reply 0 (.repayList (some (listReply [bill "A1" "560.00"]))), .touchSureBut,
      .selectBankViewClick,
      .didSelectRow
        { bankcardName := some (ns "CMB")
          bankcardNo := some (ns "6225880033334444")
          cardBankid := some (ns "308")
          cardBankname := some (ns "CMB") }, .touchRepayBut]
  revert hrun
  decide +kernel

/-- A sheet opened before the list reply goes on reading `(null)  ull)` after it, and the default
    card is charged. -/
example : ¬ (machine.observe watchSheet).Always ChargesShown
    (viewDidLoad (.str (ns "U1")) 1, noSheet)
    [.touchSureBut, .reply 0 (.repayList (some (listReply [bill "A1" "560.00"]))),
      .touchRepayBut] := by
  decide +kernel

/-! ### The amount -/

/-- The bills that bear one of the account numbers. -/
def billsNamed (bills : List NSDictionary) (accnos : List NSString) : List NSDictionary :=
  bills.filter fun bill => repayAccno bill ∈ accnos

/-- The exact sum of the amounts of some bills. -/
def total (bills : List NSDictionary) : ℚ := exactSum (bills.map dueAmt)

/-- Every repayment of the step pays the exact sum of the bills it names. -/
def PaysTotal (s : RepaymentViewController) (_ : Event) (_ : RepaymentViewController)
    (os : List Request) : Prop :=
  ∀ u ∈ os.filterMap Request.up?,
    decimal? u.realAmt = some (total (billsNamed s.dataArray u.loanAcctNos))

/-- Where the text of the field comes from, by the last event that wrote it. -/
def lastWrite (source : Source) (s : RepaymentViewController) (e : Event) : Source :=
  (writes s e).getD source

/-- Each account number named is that of one bill of the list. -/
def NamesOne (bills : List NSDictionary) (accnos : List NSString) : Prop :=
  ∀ accno ∈ accnos, (billsNamed bills [accno]).length = 1

/-- What a repayment pays that the user has not typed over. The amount of a loaded list is the text
    of one of the bills named, the only one where account numbers name one bill each. One summed
    after a row tap is the exact sum iff the float sum of the selection lands on it, which a small
    enough sum of prices does. -/
def PaysTotalUntyped (s : RepaymentViewController × Source) (_ : Event)
    (_ : RepaymentViewController × Source) (os : List Request) : Prop :=
  ∀ u ∈ os.filterMap Request.up?,
    let bills := billsNamed s.1.dataArray u.loanAcctNos
    match s.2 with
    | .loaded => ∃ bill ∈ bills, u.realAmt = dueAmt bill ∧
      (NamesOne s.1.dataArray u.loanAcctNos →
        bills = [bill] ∧ ∀ q ∈ decimal? u.realAmt, q = total bills)
    | .summed =>
      (decimal? u.realAmt = some (total bills) ↔
        Lands (addFloats (s.1.selectArray.map dueAmt)) (total bills)) ∧
      (NamesOne s.1.dataArray u.loanAcctNos → Summable (bills.map dueAmt) →
        decimal? u.realAmt = some (total bills))
    | .typed => True

/-- What the amount is, by where it comes from. -/
def AmountOf (b : Books) : Source → Prop
  | .loaded => b.dataDictt ≠ none → ∃ bill, b.selectArray = [bill] ∧ b.moneyText = dueAmt bill
  | .summed => b.moneyText = format2f (addFloats (b.selectArray.map dueAmt))
  | .typed => True

/-- The selection holds bills of the list, none twice, and the amount is theirs unless it was
    typed. -/
structure Kept (s : RepaymentViewController × Source) : Prop where
  listed : ∀ bill ∈ s.1.books.selectArray, bill ∈ s.1.books.dataArray
  nodup : s.1.books.selectArray.Nodup
  amount : AmountOf s.1.books s.2

theorem kept_viewDidLoad (userId : Json) (overFlag : ℤ) :
    Kept (viewDidLoad userId overFlag, .loaded) where
  listed _ h := by cases h
  nodup := List.nodup_nil
  amount h := absurd rfl h

theorem kept_step {s s' : RepaymentViewController × Source} {e : Event} {os : List Request}
    (hI : Kept s) (h : (machine.observe lastWrite).step s e = some (s', os)) : Kept s' := by
  obtain ⟨s, source⟩ := s
  obtain ⟨s', source'⟩ := s'
  obtain ⟨hstep, rfl⟩ := Machine.observe_step.mp h
  obtain ⟨hlisted, hnodup, hamount⟩ := hI
  have hturns := (steps hstep).turns
  obtain ⟨hlisted', hnodup'⟩ := hturns.picked ⟨hlisted, hnodup⟩
  refine ⟨hlisted', hnodup', ?_⟩
  cases hturns with
  | quiet hwrites hbooks =>
    rw [lastWrite, hwrites]
    exact hbooks ▸ hamount
  | typed hwrites hbooks =>
    rw [lastWrite, hwrites]
    exact trivial
  | summed hwrites hbooks =>
    rw [lastWrite, hwrites]
    exact hbooks.amount
  | loaded hwrites hbooks =>
    obtain ⟨dic, -, hsel, hmoney⟩ := hbooks
    rw [lastWrite, hwrites]
    exact fun _ => ⟨dic, hsel, hmoney⟩

/-- Where the account numbers name one bill each, the bills a repayment names are the selected
    ones. -/
theorem billsNamed_perm {s : RepaymentViewController} {source : Source} (hI : Kept (s, source))
    (hone : NamesOne s.dataArray (s.selectArray.map repayAccno)) :
    (billsNamed s.dataArray (s.selectArray.map repayAccno)).Perm s.selectArray := by
  -- a bill of the list under a selected bill's number is that bill, and stands there once
  have hsame : ∀ other ∈ s.selectArray, billsNamed s.dataArray [repayAccno other] = [other] := by
    intro other hother
    obtain ⟨bill, hbill⟩ := List.length_eq_one_iff.mp (hone _ (List.mem_map_of_mem hother))
    have hmem : other ∈ billsNamed s.dataArray [repayAccno other] :=
      List.mem_filter.mpr ⟨hI.listed other hother, by simp⟩
    rw [hbill] at hmem ⊢
    rw [List.mem_singleton.mp hmem]
  have hiff : ∀ bill, bill ∈ billsNamed s.dataArray (s.selectArray.map repayAccno) ↔
      bill ∈ s.selectArray := by
    intro bill
    constructor
    · intro hbill
      obtain ⟨hlisted, haccno⟩ := List.mem_filter.mp hbill
      obtain ⟨other, hother, hno⟩ := List.mem_map.mp (of_decide_eq_true haccno)
      have hmem : bill ∈ billsNamed s.dataArray [repayAccno other] :=
        List.mem_filter.mpr ⟨hlisted, by simp [hno]⟩
      rw [hsame other hother] at hmem
      exact List.mem_singleton.mp hmem ▸ hother
    · exact fun hbill => List.mem_filter.mpr
        ⟨hI.listed bill hbill, by simpa using ⟨bill, hbill, rfl⟩⟩
  refine (List.perm_ext_iff_of_nodup (List.nodup_iff_count_le_one.mpr fun bill => ?_)
    hI.nodup).mpr hiff
  by_cases hbill : bill ∈ billsNamed s.dataArray (s.selectArray.map repayAccno)
  · have honly := hsame bill ((hiff bill).mp hbill)
    calc (billsNamed s.dataArray (s.selectArray.map repayAccno)).count bill
        ≤ s.dataArray.count bill := List.filter_sublist.count_le bill
      _ = (billsNamed s.dataArray [repayAccno bill]).count bill :=
          (List.count_filter (by simp)).symm
      _ ≤ 1 := by simp [honly]
  · exact (List.count_eq_zero_of_not_mem hbill).le.trans (Nat.zero_le 1)

theorem total_perm {bills bills' : List NSDictionary} (h : bills.Perm bills') :
    total bills = total bills' := exactSum_perm (h.map dueAmt)

/-- In every run, a repayment that the user has not typed over pays the text of the one bill of a
    loaded list, and after a row tap the exact sum of the bills it names iff the float sum lands on
    it. -/
theorem pays_total_untyped (userId : Json) (overFlag : ℤ) (es : List Event) :
    (machine.observe lastWrite).Always PaysTotalUntyped (viewDidLoad userId overFlag, .loaded)
      es := by
  refine Machine.always_of_inv (I := Kept) ?_ es _ (kept_viewDidLoad userId overFlag)
  rintro ⟨s, source⟩ e s' os hI hs
  refine ⟨kept_step hI hs, ?_⟩
  obtain ⟨hstep, -⟩ := Machine.observe_step.mp hs
  rw [PaysTotalUntyped, forall_ups_iff hstep]
  intro _ u hu
  obtain ⟨hno, -, hreal, haccnos⟩ := repayDic_fields hu
  rw [haccnos]
  have hamount := hI.amount
  cases source with
  | typed => trivial
  | summed =>
    have hmoney : u.realAmt = format2f (addFloats (s.selectArray.map dueAmt)) :=
      hreal.trans hamount
    simp only
    rw [hmoney, decimal?_format2f_iff]
    refine ⟨Iff.rfl, fun hone hsmall => ?_⟩
    have hperm := billsNamed_perm hI hone
    rw [total_perm hperm]
    exact (hsmall.perm (hperm.map dueAmt)).lands
  | loaded =>
    have hloaded : s.dataDictt ≠ none := by
      intro hnone
      rw [hnone] at hno
      cases hno
    obtain ⟨bill, hsel, hmoney⟩ := hamount hloaded
    replace hsel : s.selectArray = [bill] := hsel
    have hmem : bill ∈ s.selectArray := by rw [hsel]; exact List.mem_singleton_self bill
    have hnamed : bill ∈ billsNamed s.dataArray (s.selectArray.map repayAccno) :=
      List.mem_filter.mpr ⟨hI.listed bill hmem, by simpa using ⟨bill, hmem, rfl⟩⟩
    refine ⟨bill, hnamed, hreal.trans hmoney, fun hone => ?_⟩
    have hperm := billsNamed_perm hI hone
    rw [hsel] at hperm
    rw [hsel, List.perm_singleton.mp hperm]
    refine ⟨rfl, fun q hq => ?_⟩
    rw [hreal.trans hmoney] at hq
    simp [total, exactSum, amount, Option.mem_def.mp hq]

/-- One bill of 50000.00 and twelve bills of 7999.92 in all are small enough. -/
example : Summable [ns "50000.00"] ∧ Summable (List.replicate 12 (ns "666.66")) := by
  refine ⟨⟨?_, 16, by norm_num, ?_⟩, ⟨?_, 13, by norm_num, ?_⟩⟩
  · simp only [List.forall_mem_singleton]
    exact ⟨5000000, by decide +kernel⟩
  · decide +kernel
  · intro t ht
    rw [List.eq_of_mem_replicate ht]
    exact ⟨66666, by decide +kernel⟩
  · decide +kernel

instance (s : RepaymentViewController) (e : Event) (s' : RepaymentViewController)
    (os : List Request) : Decidable (PaysTotal s e s' os) :=
  inferInstanceAs (Decidable (∀ u ∈ os.filterMap Request.up?,
    decimal? u.realAmt = some (total (billsNamed s.dataArray u.loanAcctNos))))

/-- Three ways to pay something else than the sum: the amount is a text field, and what the user
    types into it is paid; a float sum lands a hundredth off; and an account number that two bills
    bear names both. -/
theorem pays_other_than_total :
    ¬ machine.Always PaysTotal (viewDidLoad (.str (ns "U1")) 1)
        [.reply 0 (.repayList (some (listReply [bill "A1" "560.00"]))), .edit (ns "100"),
          .touchSureBut, .touchRepayBut] ∧
      ¬ machine.Always PaysTotal (viewDidLoad (.str (ns "U1")) 1)
        [.reply 0 (.repayList (some (listReply [bill "A1" "28071.82", bill "A2" "37471.19"]))),
          .selectButtonClick 1, .touchSureBut, .touchRepayBut] ∧
      ¬ machine.Always PaysTotal (viewDidLoad (.str (ns "U1")) 1)
        [.reply 0 (.repayList (some (listReply [bill "A1" "560.00", bill "A1" "300.00"]))),
          .touchSureBut, .touchRepayBut] := by
  decide +kernel

end LeYiDai.Repay
