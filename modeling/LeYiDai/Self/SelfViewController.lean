import LeYiDai.Lib.Machine
import LeYiDai.Main.MainViewController

/-! SelfViewController, the profile, under the tab bar. Every successful home reply is broadcast
    once as `Main_data` and kept by the home screen alone; the profile listens from the moment its
    view loads, and its label is set by what it hears.

        home appears ──▶ request ──reply──▶ Main_data ──▶ label, once the profile is loaded
        profile selected first ──▶ loaded: listening, the label without a text

    A reply that came before stays unheard, so the label tells the truth for certain only when the
    reply it has missed asks for no certification. -/

namespace LeYiDai.Profile
open Home

/-- The tabs of BaseTabbarViewController. -/
inductive Tab where | home | record | me
  deriving DecidableEq

/-- `detialModel.userState`, zero for nil. -/
def userState (detialModel : Option MainDetianModel) : ℤ := (detialModel.map (·.userState)).getD 0

def certified : NSString := ns "已认证"

def uncertified : NSString := ns "未认证"

/-- The text a home reply asks for. -/
def certification (detialModel : Option MainDetianModel) : NSString :=
  if 3 < userState detialModel then certified else uncertified

/-- The profile from the load of its view on; the label has no text at first. -/
structure SelfViewController where
  statueLab : Option NSString
  deriving DecidableEq

namespace SelfViewController

/-- `viewDidLoad`, which adds the observer. -/
def viewDidLoad : SelfViewController := { statueLab := none }

/-- `selfNotificationCLick:`. -/
def selfNotificationCLick (object : Option MainDetianModel) (_ : SelfViewController) :
    SelfViewController :=
  { statueLab := some (certification object) }

end SelfViewController

/-- The tab bar: the tab shown, the home screen with its requests under way, and the profile once
    it has been loaded. -/
structure BaseTabbarViewController where
  selected : Tab
  mainVc : MainViewController
  requests : ℕ
  selfVc : Option SelfViewController

namespace BaseTabbarViewController

/-- `viewWillAppear:` of the home screen sends `useMainInsert`. -/
def mainWillAppear (t : BaseTabbarViewController) : BaseTabbarViewController :=
  { t with requests := t.requests + 1 }

/-- The tab bar comes up with the home screen. -/
def viewDidLoad : BaseTabbarViewController :=
  mainWillAppear { selected := .home, mainVc := .fresh, requests := 0, selfVc := none }

/-- A tab is selected; a profile that is selected first is loaded. -/
def select (tab : Tab) (t : BaseTabbarViewController) : BaseTabbarViewController :=
  if tab = t.selected then t
  else
    let t := { t with selected := tab }
    match tab with
    | .home => t.mainWillAppear
    | .record => t
    | .me => { t with selfVc := some (t.selfVc.getD .viewDidLoad) }

/-- `postNotificationName:` with `Main_data`; nobody listens before the profile is loaded. -/
def postMainData (object : Option MainDetianModel) (t : BaseTabbarViewController) :
    BaseTabbarViewController :=
  { t with selfVc := t.selfVc.map (·.selfNotificationCLick object) }

/-- The completion of a `useMainInsert`; a success is broadcast. -/
def mainReply (r : Reply MainDetianModel) (t : BaseTabbarViewController) :
    BaseTabbarViewController :=
  if t.requests = 0 then t
  else
    let t := { t with requests := t.requests - 1, mainVc := t.mainVc.useMainInsert r }
    match r with
    | .failure | .refused => t
    | .result m => t.postMainData m

/-- What the profile's label says. -/
def statueLab (t : BaseTabbarViewController) : Option NSString := t.selfVc.bind (·.statueLab)

end BaseTabbarViewController

/-- The home screen also appears again when a screen over it is left. -/
inductive Event where
  | select (tab : Tab)
  | mainAppears
  | mainReply (r : Reply MainDetianModel)

open BaseTabbarViewController

def step (t : BaseTabbarViewController) : Event → BaseTabbarViewController
  | .select tab => t.select tab
  | .mainAppears => if t.selected = .home then t.mainWillAppear else t
  | .mainReply r => t.mainReply r

def machine : Machine BaseTabbarViewController Event Unit where
  step t e := some (step t e, [])

/-- The observer of the replies: the latest success that answered a request. -/
def latestReply (latest : Option (Option MainDetianModel)) (t : BaseTabbarViewController) :
    Event → Option (Option MainDetianModel)
  | .mainReply (.result m) => if t.requests = 0 then latest else some m
  | _ => latest

/-- The tab bar beside the latest home reply. -/
abbrev Observed := BaseTabbarViewController × Option (Option MainDetianModel)

def start : Observed := (.viewDidLoad, none)

/-- While the profile is shown, its label reads certified exactly when the latest reply says so. -/
def Truthful (o : Observed) : Prop :=
  o.1.selected = .me → ∀ m ∈ o.2, (o.1.statueLab = some certified ↔ 3 < userState m)

instance (o : Observed) : Decidable (Truthful o) := inferInstanceAs (Decidable (_ → _))

/-- When the profile is loaded, the reply that the home screen keeps, if any, asks for no
    certification. -/
def Fits (o : Observed) : Event → Prop
  | .select .me => o.1.selfVc = none → userState o.1.mainVc.detialModel ≤ 3
  | _ => True

/-- The home screen keeps the latest reply. The label of a loaded profile is that of the latest
    reply too, or has no text while the latest reply asks for no certification. -/
structure Told (o : Observed) : Prop where
  kept : o.1.mainVc.detialModel = o.2.join
  loaded : o.1.selected = .me → o.1.selfVc ≠ none
  unheard : ∀ v ∈ o.1.selfVc, v.statueLab = none → ∀ m ∈ o.2, userState m ≤ 3
  heard : ∀ v ∈ o.1.selfVc, ∀ text ∈ v.statueLab, ∃ m, o.2 = some m ∧ text = certification m

variable {o : Observed} {e : Event} {m : Option MainDetianModel}

theorem certification_eq_iff : certification m = certified ↔ 3 < userState m := by
  rw [certification]
  split_ifs with h
  · exact iff_of_true rfl h
  · exact iff_of_false (by decide) h

/-- A label that has been told is truthful. -/
theorem Told.truthful (h : Told o) : Truthful o := by
  intro hme m hm
  obtain ⟨v, hv⟩ := Option.ne_none_iff_exists'.mp (h.loaded hme)
  rw [statueLab, hv, Option.bind_some]
  cases htext : v.statueLab with
  | none =>
    have hle := h.unheard v hv htext m hm
    exact iff_of_false (by simp) (by omega)
  | some text =>
    obtain ⟨m', hm', rfl⟩ := h.heard v hv text htext
    obtain rfl : m = m' := Option.some.inj (hm.symm.trans hm')
    rw [Option.some.injEq]
    exact certification_eq_iff

/-- What an observed step does: the tab bar steps, the observer looks at the reply. -/
def next (o : Observed) (e : Event) : Observed := (step o.1 e, latestReply o.2 o.1 e)

theorem told_start : Told start where
  kept := rfl
  loaded h := by cases h
  unheard v hv := by cases hv
  heard v hv := by cases hv

theorem creatMianUI_detialModel (m : MainDetianModel) (h : MainViewController) :
    (h.creatMianUI m).detialModel = h.detialModel := by
  rw [MainViewController.creatMianUI]
  split_ifs <;> rfl

theorem useMainInsert_detialModel (h : MainViewController) :
    (h.useMainInsert (.result m)).detialModel = m := by
  cases m with
  | none => rfl
  | some m =>
    rw [MainViewController.useMainInsert, MainViewController.showDetial]
    split_ifs
    · rfl
    · exact creatMianUI_detialModel m _
    · rfl

/-- The home screen keeps the model whose state the latest reply has. -/
theorem Told.userState_kept (h : Told o) (hm : m ∈ o.2) :
    userState o.1.mainVc.detialModel = userState m := by
  have hlatest : o.2 = some m := hm
  rw [h.kept, hlatest, Option.join_some]

/-- A reply tells a loaded profile. -/
theorem Told.mainReply (h : Told o) (r : Reply MainDetianModel) :
    Told (next o (.mainReply r)) := by
  by_cases hnone : o.1.requests = 0
  · have hsame : next o (.mainReply r) = o := by
      cases r <;> simp [next, step, BaseTabbarViewController.mainReply, latestReply, hnone]
    rw [hsame]
    exact h
  · cases r with
    | failure | refused =>
      simp only [next, step, BaseTabbarViewController.mainReply, latestReply, if_neg hnone]
      exact ⟨h.kept, h.loaded, h.unheard, h.heard⟩
    | result m =>
      simp only [next, step, BaseTabbarViewController.mainReply, latestReply, if_neg hnone]
      refine ⟨useMainInsert_detialModel _, ?_, ?_, ?_⟩
      · intro hme
        simpa [postMainData] using h.loaded hme
      · rintro v hv hlabel
        obtain ⟨v', -, rfl⟩ := Option.map_eq_some_iff.mp hv
        cases hlabel
      · rintro v hv text htext
        obtain ⟨v', -, rfl⟩ := Option.map_eq_some_iff.mp hv
        exact ⟨m, rfl, (Option.some.inj htext).symm⟩

/-- A tab that is selected finds the profile told, unless the profile is loaded after a reply that
    asks for a certification. -/
theorem Told.select (h : Told o) {tab : Tab} (hfits : Fits o (.select tab)) :
    Told (next o (.select tab)) := by
  by_cases hsame : tab = o.1.selected
  · simp only [next, step, BaseTabbarViewController.select, if_pos hsame]
    exact h
  · simp only [next, step, BaseTabbarViewController.select, if_neg hsame]
    cases tab with
    | home => exact ⟨h.kept, fun hme => (by cases hme), h.unheard, h.heard⟩
    | record => exact ⟨h.kept, fun hme => (by cases hme), h.unheard, h.heard⟩
    | me =>
      cases hself : o.1.selfVc with
      | none =>
        refine ⟨h.kept, fun _ hno => (by cases hno), ?_, ?_⟩
        · rintro v - - m hm
          have hle : userState o.1.mainVc.detialModel ≤ 3 := hfits hself
          rwa [h.userState_kept hm] at hle
        · rintro v hv text htext
          cases hv
          cases htext
      | some v =>
        refine ⟨h.kept, fun _ hno => (by cases hno), ?_, ?_⟩
        · rintro v' hv'
          exact h.unheard v' (hself.trans hv')
        · rintro v' hv'
          exact h.heard v' (hself.trans hv')

theorem Told.next (h : Told o) (hfits : Fits o e) : Told (next o e) := by
  cases e with
  | select tab => exact h.select hfits
  | mainAppears =>
    simp only [Profile.next, step, latestReply]
    split_ifs
    · exact ⟨h.kept, h.loaded, h.unheard, h.heard⟩
    · exact h
  | mainReply r => exact h.mainReply r

/-- A step that does not fit shows a label that is not truthful. -/
theorem Told.fits_of_truthful (h : Told o) (htrue : Truthful (Profile.next o e)) : Fits o e := by
  match e with
  | .select .home | .select .record | .mainAppears | .mainReply _ => trivial
  | .select .me =>
    intro hself
    have hother : Tab.me ≠ o.1.selected := by
      intro hme
      exact h.loaded hme.symm hself
    have hnext : Profile.next o (.select .me) =
        ({ o.1 with selected := .me, selfVc := some .viewDidLoad }, o.2) := by
      simp [Profile.next, step, BaseTabbarViewController.select, latestReply, hother, hself]
    rw [hnext] at htrue
    cases hlatest : o.2 with
    | none =>
      rw [h.kept, hlatest]
      exact (by decide : (0 : ℤ) ≤ 3)
    | some m =>
      rw [h.userState_kept hlatest]
      by_contra hgt
      have hlabel : (none : Option NSString) = some certified :=
        (htrue rfl m hlatest).mpr (by omega)
      cases hlabel

/-- On every run the label is truthful in every state iff the profile is never loaded after a reply
    that asks for a certification. -/
theorem certification_truthful_iff (events : List Event) :
    (machine.observe latestReply).Always (fun _ _ o _ => Truthful o) start events ↔
      (machine.observe latestReply).Meets Fits start events := by
  have hnext : ∀ o e o' os, (machine.observe latestReply).step o e = some (o', os) →
      o' = next o e := by
    rintro o e o' os hstep
    cases hstep
    rfl
  refine Machine.always_iff_meets (I := Told) ?_ ?_ events start told_start
  · rintro o e o' os h hfits hstep
    rw [hnext o e o' os hstep]
    exact h.next hfits
  · rintro o e o' os h hstep
    rw [hnext o e o' os hstep]
    exact ⟨h.fits_of_truthful, fun hfits => (h.next hfits).truthful⟩

/-- A home reply in the given state. -/
def replyIn (n : ℤ) : MainDetianModel :=
  { userState := n, creditInfo := none, loanRepayDue := none }

/-- The home screen has its reply before the profile is opened for the first time. -/
theorem loaded_after_reply :
    ¬ (machine.observe latestReply).Always (fun _ _ o _ => Truthful o) start
      [.mainReply (.result (some (replyIn 4))), .select .me] := by
  decide

end LeYiDai.Profile
