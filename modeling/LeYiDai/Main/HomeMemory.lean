import LeYiDai.Main.MainViewController
import Mathlib.Data.Finset.Image
import Mathlib.Data.Finset.Insert
import Mathlib.Data.Fintype.Basic
import Mathlib.Data.List.Induction
import Mathlib.Tactic.IntervalCases

/-! How far the home screen forgets. The controller's views after a history of replies are read off
    the history: the panel is that of the first reply, and what a state-6 reply adds stays. The
    screen after a history is the screen of its last reply alone exactly when the first reply asks
    for the same panel and no earlier reply has left views behind. -/

namespace LeYiDai.Home

/-! ### What is shown -/

/-- The role of a view in the panel: the view with its text and its picture left out. -/
def CenterView.role : CenterView → CenterView
  | .lable i _ => .lable i []
  | .lastLable _ => .lastLable []
  | .leftImg _ => .leftImg []
  | .sheheLab _ => .sheheLab []
  | v => v

/-- What the panel shows. -/
structure PanelContents where
  views : Finset CenterView
  title : Option NSString
  amount : Option NSString
  buttonTitle : NSString
  buttonEnabled : Bool
  deriving DecidableEq

namespace MainCenterView

/-- The subviews that are not hidden. -/
def visible (p : MainCenterView) : List CenterView :=
  p.subviews.filter fun v =>
    !(v = .img && p.imgHidden) && !(v = .totalMoney && p.totalMoneyHidden)

def contents (p : MainCenterView) : PanelContents :=
  { views := (p.visible.map CenterView.role).toFinset
    title := p.titLab
    amount := p.moneyLab
    buttonTitle := p.statueTitle
    buttonEnabled := p.statueEnabled }

end MainCenterView

/-- What the home screen shows; the overdue banner is one of its views. -/
structure HomeScreen where
  views : Finset HomeView
  panel : Option PanelContents
  deriving DecidableEq

namespace MainViewController

def screen (h : MainViewController) : HomeScreen :=
  { views := h.subviews.toFinset
    panel := if .whiteBgView ∈ h.subviews then h.whiteBgView.map (·.contents) else none }

/-- A fresh controller after the given successful replies. -/
def received (rs : List MainDetianModel) : MainViewController :=
  rs.foldl (fun h m => h.useMainInsert (.result (some m))) fresh

end MainViewController

/-! ### Panels -/

/-- The eight panels a reply in one of the six states can ask for. -/
inductive PanelKind where
  | uncertified | incomplete | waiting | approved | rejected | lending | repaying | overdue
  deriving DecidableEq

def panelKind (m : MainDetianModel) : PanelKind :=
  if m.userState = 1 then .uncertified
  else if m.userState = 2 then .incomplete
  else if m.userState = 3 then .waiting
  else if m.userState = 4 then
    if m.creditAppstate = 1 then .approved
    else if m.creditAppstate = 9 then .rejected
    else .waiting
  else if m.userState = 5 then .lending
  else if m.overFlag = 1 then .repaying
  else .overdue

/-- The amount a panel shows: a rejected customer is shown zero. -/
def panelAmount (m : MainDetianModel) : Option NSString :=
  if panelKind m = .rejected then some (ns "0") else m.creditLeftamt

/-- Two replies ask for the same panel: the same kind, and the same amount unless it is not
    shown. -/
def SamePanel (m m' : MainDetianModel) : Prop :=
  panelKind m = panelKind m' ∧ (panelKind m = .rejected ∨ m.creditLeftamt = m'.creditLeftamt)

/-- The reply is in one of the six states. -/
def InStates (m : MainDetianModel) : Prop := 1 ≤ m.userState ∧ m.userState ≤ 6

namespace PanelKind

def title : PanelKind → NSString
  | .uncertified | .incomplete | .waiting => ns "最高可借额度"
  | .approved => ns "可借额度"
  | .rejected => ns "审核未通过,7天后再试"
  | .lending | .repaying | .overdue => ns "剩余额度"

def buttonTitle : PanelKind → NSString
  | .uncertified => ns "去认证"
  | .overdue => ns "逾期中"
  | _ => ns "我要借钱"

def buttonEnabled : PanelKind → Bool
  | .uncertified | .incomplete | .approved => true
  | _ => false

def views : PanelKind → List CenterView
  | .uncertified | .incomplete =>
    [.arrimg 0, .lable 0 [], .arrimg 1, .lable 1 [], .arrimg 2, .lable 2 [], .lastLable [],
      .lineVc, .titLab, .moneyLab, .rateLab, .statueBut]
  | .rejected =>
    [.arrimg 0, .lable 0 [], .arrimg 1, .lable 1 [], .arrimg 2, .lable 2 [], .lastLable [],
      .lineVc, .titLab, .moneyLab, .rateLab, .statueBut, .img, .totalMoney]
  | .waiting | .approved | .lending =>
    [.leftImg [], .sheheLab [], .lineVc, .titLab, .moneyLab, .rateLab, .statueBut, .img,
      .totalMoney]
  | .repaying | .overdue => [.titLab, .moneyLab, .rateLab, .statueBut, .img, .totalMoney]

def contents (k : PanelKind) (amount : Option NSString) : PanelContents :=
  { views := k.views.toFinset
    title := some k.title
    amount
    buttonTitle := k.buttonTitle
    buttonEnabled := k.buttonEnabled }

/-- What a panel shows tells its kind. -/
theorem eq_of_contents {k k' : PanelKind} (hviews : k.views.toFinset = k'.views.toFinset)
    (htitle : k.title = k'.title) (hbutton : k.buttonTitle = k'.buttonTitle)
    (henabled : k.buttonEnabled = k'.buttonEnabled) : k = k' := by
  revert hviews htitle hbutton henabled
  cases k <;> cases k' <;> decide +kernel

end PanelKind

variable {m : MainDetianModel}

namespace MainCenterView

theorem setDetial_subviews (p : MainCenterView) : p.setDetial.subviews = p.subviews := by
  unfold setDetial
  dsimp only
  split_ifs <;> rfl

theorem subviews_initWithMainType (m : MainDetianModel) :
    (initWithMainType m).subviews =
      [.titLab, .moneyLab, .rateLab, .statueBut, .img, .totalMoney].foldl addSubview
        (header m) := by
  rw [initWithMainType, creatMainUI, initDetialView]
  dsimp only
  rw [setDetial_subviews]
  rfl

/-- What is shown under a header, with the picture and the total hidden or not. -/
def shown (head : List CenterView) (hidden : Bool) : List CenterView :=
  (([.titLab, .moneyLab, .rateLab, .statueBut, .img, .totalMoney].foldl addSubview head).filter
    fun v => !(v = .img && hidden) && !(v = .totalMoney && hidden)).map CenterView.role

/-- The four steps of an application. -/
def steps : List CenterView :=
  [.arrimg 0, .lable 0 (ns "申请借款"), .arrimg 1, .lable 1 (ns "快速审核"), .arrimg 2,
    .lable 2 (ns "实名认证"), .lastLable (ns "快速放款"), .lineVc]

theorem shown_steps_hidden : shown steps true = PanelKind.uncertified.views := by decide +kernel

theorem shown_steps : shown steps false = PanelKind.rejected.views := by decide +kernel

theorem shown_status (image text : NSString) :
    shown [.leftImg image, .sheheLab text, .lineVc] false = PanelKind.waiting.views := by
  simp [shown, addSubview, CenterView.role, PanelKind.views]

theorem shown_nil : shown [] false = PanelKind.repaying.views := by decide +kernel

variable {k : PanelKind} {head : List CenterView} {hidden : Bool}

/-- The panel's contents from its header, its hidden flags and its texts. -/
theorem contents_of (hkind : panelKind m = k) (hhead : header m = head)
    (hviews : shown head hidden = k.views)
    (himg : (initWithMainType m).imgHidden = hidden)
    (htotal : (initWithMainType m).totalMoneyHidden = hidden)
    (htitle : (initWithMainType m).titLab = some k.title)
    (hamount : (initWithMainType m).moneyLab = panelAmount m)
    (hbutton : (initWithMainType m).statueTitle = k.buttonTitle)
    (henabled : (initWithMainType m).statueEnabled = k.buttonEnabled) :
    (initWithMainType m).contents = (panelKind m).contents (panelAmount m) := by
  rw [shown] at hviews
  rw [contents, visible, subviews_initWithMainType, hhead, himg, htotal, hviews, htitle, hamount,
    hbutton, henabled, hkind]
  rfl

/-- A granted customer's panel goes by the approval state. -/
theorem contents_initWithMainType_granted (h : m.userState = 4) :
    (initWithMainType m).contents = (panelKind m).contents (panelAmount m) := by
  by_cases h1 : m.creditAppstate = 1
  · have hkind : panelKind m = .approved := by simp [panelKind, h, h1]
    have hhead : header m =
        [.leftImg (ns "loan_icon"), .sheheLab (ns "恭喜您，审核通过！立即去借款吧。"), .lineVc] := by
      simp [header, h, h1]
    apply contents_of hkind hhead (shown_status _ _) <;>
      simp [initWithMainType, creatMainUI, initDetialView, setDetial, panelAmount, hkind, h, h1] <;>
      rfl
  by_cases h9 : m.creditAppstate = 9
  · have hkind : panelKind m = .rejected := by simp [panelKind, h, h9]
    have hhead : header m = steps := by simp [header, h, h9, steps]
    apply contents_of hkind hhead shown_steps <;>
      simp [initWithMainType, creatMainUI, initDetialView, setDetial, panelAmount, hkind, h, h9] <;>
      rfl
  · have hkind : panelKind m = .waiting := by simp [panelKind, h, h1, h9]
    have hhead : header m = [.leftImg (ns "loan_icon"),
        .sheheLab (ns "正在放款中，预计10分钟内到达账户，请耐心等待"), .lineVc] := by
      simp [header, h, h1, h9]
    apply contents_of hkind hhead (shown_status _ _) <;>
      simp [initWithMainType, creatMainUI, initDetialView, setDetial, panelAmount, hkind, h, h1,
        h9] <;>
      rfl

/-- The panel of a customer who repays goes by the overdue flag. -/
theorem contents_initWithMainType_repaying (h : m.userState = 6) :
    (initWithMainType m).contents = (panelKind m).contents (panelAmount m) := by
  have hhead : header m = [] := by simp [header, h]
  by_cases h1 : m.overFlag = 1
  · have hkind : panelKind m = .repaying := by simp [panelKind, h, h1]
    apply contents_of hkind hhead shown_nil <;>
      simp [initWithMainType, creatMainUI, initDetialView, setDetial, panelAmount, hkind, h, h1] <;>
      rfl
  · have hkind : panelKind m = .overdue := by simp [panelKind, h, h1]
    apply contents_of hkind hhead shown_nil <;>
      simp [initWithMainType, creatMainUI, initDetialView, setDetial, panelAmount, hkind, h, h1] <;>
      rfl

/-- A panel shows what its reply's kind and amount say. -/
theorem contents_initWithMainType (h : InStates m) :
    (initWithMainType m).contents = (panelKind m).contents (panelAmount m) := by
  obtain ⟨state, credit, due⟩ := m
  obtain ⟨hlow, hhigh⟩ : 1 ≤ state ∧ state ≤ 6 := h
  interval_cases state
  · exact contents_of rfl rfl shown_steps_hidden rfl rfl rfl rfl rfl rfl
  · exact contents_of rfl rfl shown_steps_hidden rfl rfl rfl rfl rfl rfl
  · exact contents_of rfl rfl (shown_status _ _) rfl rfl rfl rfl rfl rfl
  · exact contents_initWithMainType_granted rfl
  · exact contents_of rfl rfl (shown_status _ _) rfl rfl rfl rfl rfl rfl
  · exact contents_initWithMainType_repaying rfl

end MainCenterView

/-- Two panels show the same iff their replies ask for the same panel. -/
theorem contents_eq_iff {m' : MainDetianModel} (h : InStates m) (h' : InStates m') :
    (MainCenterView.initWithMainType m).contents = (MainCenterView.initWithMainType m').contents ↔
      SamePanel m m' := by
  rw [MainCenterView.contents_initWithMainType h, MainCenterView.contents_initWithMainType h']
  constructor
  · intro heq
    simp only [PanelKind.contents, PanelContents.mk.injEq, Option.some.injEq] at heq
    obtain ⟨hviews, htitle, hamount, hbutton, henabled⟩ := heq
    have hkind := PanelKind.eq_of_contents hviews htitle hbutton henabled
    refine ⟨hkind, ?_⟩
    by_cases hrej : panelKind m = .rejected
    · exact .inl hrej
    · have hrej' : panelKind m' ≠ .rejected := hkind ▸ hrej
      rw [panelAmount, panelAmount, if_neg hrej, if_neg hrej'] at hamount
      exact .inr hamount
  · rintro ⟨hkind, hrej | hamount⟩
    · rw [panelAmount, panelAmount, if_pos hrej, if_pos (hkind ▸ hrej), hkind]
    · rw [panelAmount, panelAmount, hkind, hamount]

/-! ### Views after a history -/

theorem mem_addSubview {α : Type} [DecidableEq α] {views : List α} {v w : α} :
    v ∈ addSubview views w ↔ v ∈ views ∨ v = w := by
  by_cases hv : v = w <;> simp [addSubview, hv]

namespace MainViewController

/-- The views a reply asks for. -/
def asked (m : MainDetianModel) : List HomeView :=
  if m.userState = 6 then
    (if m.overFlag = 1 then [] else [.accationView]) ++
      [.whiteNavBg, .blueBgView, .whiteBgView, .bottomBut]
  else [.topBgImg, .whiteBgView]

theorem topBgImg_mem_asked {m : MainDetianModel} :
    .topBgImg ∈ asked m ↔ ¬ m.userState = 6 := by
  unfold asked
  split_ifs with h6 <;> simp [h6]

/-- What a reply builds, in the states there are. -/
theorem showDetial_eq (h : MainViewController) (hm : InStates m) :
    h.showDetial m =
      if m.userState = 6 then
        (((({ h with detialModel := some m }).remove .topBgImg).makeWhiteBgView m).remove
          .whiteBgView).creatMianUI m
      else ({ h with detialModel := some m }).creatInitNoAuthonUI m := by
  obtain ⟨hlow, hhigh⟩ := hm
  rw [showDetial]
  split_ifs with hbelow h6
  · omega
  · rfl
  · rfl
  · omega

/-- One reply adds the views it asks for and takes away the picture only. -/
theorem mem_showDetial (h : MainViewController) (hm : InStates m) {v : HomeView} :
    v ∈ (h.showDetial m).subviews ↔
      v ∈ asked m ∨ v ∈ h.subviews ∧ ¬ (m.userState = 6 ∧ v = .topBgImg) := by
  rw [showDetial_eq h hm]
  by_cases h6 : m.userState = 6
  · simp only [if_pos h6, creatMianUI, asked]
    split_ifs <;>
      simp only [add, remove, makeWhiteBgView, mem_addSubview, List.mem_filter,
        decide_eq_true_eq] <;>
      cases v <;> simp [h6]
  · simp only [if_neg h6, creatInitNoAuthonUI, asked, add, makeWhiteBgView, mem_addSubview]
    cases v <;> simp [h6]

/-- One reply keeps the panel that is there. -/
theorem whiteBgView_showDetial (h : MainViewController) (hm : InStates m) :
    (h.showDetial m).whiteBgView = some (h.whiteBgView.getD (.initWithMainType m)) := by
  rw [showDetial_eq h hm]
  split_ifs
  · simp only [creatMianUI]
    split_ifs <;> simp [add, remove, makeWhiteBgView]
  · simp only [creatInitNoAuthonUI, add, makeWhiteBgView]

theorem received_append (rs : List MainDetianModel) (r : MainDetianModel) :
    received (rs ++ [r]) = (received rs).showDetial r := by
  rw [received, List.foldl_append]
  rfl

/-- After a history the panel is that of its first reply. -/
theorem whiteBgView_received (rs : List MainDetianModel) (r : MainDetianModel)
    (hstates : ∀ m ∈ rs ++ [r], InStates m) :
    (received (rs ++ [r])).whiteBgView = some (.initWithMainType (rs.headD r)) := by
  induction rs using List.reverseRecOn generalizing r with
  | nil =>
    rw [received_append, whiteBgView_showDetial _ (hstates r (by simp))]
    rfl
  | append_singleton rs m ih =>
    rw [received_append, whiteBgView_showDetial _ (hstates r (by simp)),
      ih m fun m' hm' => hstates m' (List.mem_append_left _ hm')]
    cases rs <;> rfl

/-- After a history every view some reply asked for is there, but for the picture, which the last
    reply decides. -/
theorem mem_received (rs : List MainDetianModel) (r : MainDetianModel)
    (hstates : ∀ m ∈ rs ++ [r], InStates m) {v : HomeView} :
    v ∈ (received (rs ++ [r])).subviews ↔
      v ∈ asked r ∨ (∃ m ∈ rs, v ∈ asked m) ∧ v ≠ .topBgImg := by
  induction rs using List.reverseRecOn generalizing r with
  | nil =>
    rw [received_append, mem_showDetial _ (hstates r (by simp))]
    simp [received, fresh]
  | append_singleton rs m ih =>
    have hprev : v ∈ (received (rs ++ [m])).subviews ↔
        v ∈ asked m ∨ (∃ m ∈ rs, v ∈ asked m) ∧ v ≠ .topBgImg :=
      ih m fun m' hm' => hstates m' (List.mem_append_left _ hm')
    rw [received_append, mem_showDetial _ (hstates r (by simp)), hprev]
    by_cases hv : v = .topBgImg
    · subst hv
      simp only [topBgImg_mem_asked, ne_eq, not_true, and_false, or_false, and_true]
      exact or_iff_left_of_imp And.right
    · simp only [hv, and_false, not_false_eq_true, and_true, ne_eq, List.mem_append,
        List.mem_singleton, or_and_right, exists_or, exists_eq_left]
      exact or_congr_right or_comm

end MainViewController

open MainViewController

/-- The history leaves nothing of its own on the screen of its last reply: its first reply asks for
    the same panel, and a state-6 reply before the last one is followed by a state-6 reply, which
    shows the overdue banner if the earlier one did. -/
def LeavesNothing (rs : List MainDetianModel) (r : MainDetianModel) : Prop :=
  SamePanel (rs.headD r) r ∧
    ∀ m ∈ rs, m.userState = 6 → r.userState = 6 ∧ (r.overFlag = 1 → m.overFlag = 1)

theorem asked_subset_iff {m r : MainDetianModel} :
    (∀ v ∈ asked m, v ≠ .topBgImg → v ∈ asked r) ↔
      (m.userState = 6 → r.userState = 6 ∧ (r.overFlag = 1 → m.overFlag = 1)) := by
  unfold asked
  split_ifs <;> simp_all

theorem whiteBgView_mem_asked (m : MainDetianModel) : .whiteBgView ∈ asked m := by
  unfold asked
  split_ifs <;> simp

/-- The screen after a history shows the panel of its first reply. -/
theorem screen_received (rs : List MainDetianModel) (r : MainDetianModel)
    (hstates : ∀ m ∈ rs ++ [r], InStates m) :
    (received (rs ++ [r])).screen =
      { views := (received (rs ++ [r])).subviews.toFinset
        panel := some (MainCenterView.initWithMainType (rs.headD r)).contents } := by
  have hmem : .whiteBgView ∈ (received (rs ++ [r])).subviews :=
    (mem_received rs r hstates).mpr (.inl (whiteBgView_mem_asked r))
  rw [screen, if_pos hmem, whiteBgView_received rs r hstates]
  rfl

/-- The views after a history are those of the last reply iff the earlier ones asked for no
    others. -/
theorem subviews_received_iff (rs : List MainDetianModel) (r : MainDetianModel)
    (hstates : ∀ m ∈ rs ++ [r], InStates m) :
    (received (rs ++ [r])).subviews.toFinset = (received [r]).subviews.toFinset ↔
      ∀ m ∈ rs, m.userState = 6 → r.userState = 6 ∧ (r.overFlag = 1 → m.overFlag = 1) := by
  have halone : ∀ v, v ∈ (received [r]).subviews ↔ v ∈ asked r := fun v => by
    rw [← List.nil_append [r], mem_received [] r fun m hm => hstates m (by simp_all)]
    simp
  simp only [Finset.ext_iff, List.mem_toFinset, mem_received rs r hstates, halone,
    or_iff_left_iff_imp, ← asked_subset_iff]
  constructor
  · intro h m hm v hv hne
    exact h v ⟨⟨m, hm, hv⟩, hne⟩
  · rintro h v ⟨⟨m, hm, hv⟩, hne⟩
    exact h m hm v hv hne

/-- After any history the home screen shows what a fresh one shows after the last reply alone iff
    the history leaves nothing. -/
theorem screen_forgets_iff (rs : List MainDetianModel) (r : MainDetianModel)
    (hstates : ∀ m ∈ rs ++ [r], InStates m) :
    (received (rs ++ [r])).screen = (received [r]).screen ↔ LeavesNothing rs r := by
  have hr : InStates r := hstates r (by simp)
  have hfirst : InStates (rs.headD r) := by
    cases rs with
    | nil => exact hr
    | cons m rs => exact hstates m (by simp)
  have halone := screen_received [] r fun m hm => hstates m (List.mem_append_right _ hm)
  rw [screen_received rs r hstates, ← List.nil_append [r], halone, HomeScreen.mk.injEq,
    List.nil_append, subviews_received_iff rs r hstates, Option.some.injEq, List.headD_nil,
    contents_eq_iff hfirst hr]
  exact and_comm

/-- A reply in the given state with the given approval state and overdue flag. -/
def replyIn (state : ℤ) (appstate : String) (overFlag : ℤ) : MainDetianModel :=
  { userState := state
    creditInfo := some
      { creditAppstate := some (ns appstate)
        creditLeftamt := some (ns "5000")
        creditLimit := some (ns "8000")
        inteRate := some (ns "0.05") }
    loanRepayDue := some
      { overFlag
        dueTermSum := none
        dueTerm := none
        dueDate := none
        dueAmt := none
        overDays := none } }

theorem screen_forgets_iff_repaying :
    (received ([replyIn 6 "1" 1] ++ [replyIn 6 "1" 1])).screen =
      (received [replyIn 6 "1" 1]).screen ↔ LeavesNothing [replyIn 6 "1" 1] (replyIn 6 "1" 1) :=
  screen_forgets_iff [replyIn 6 "1" 1] (replyIn 6 "1" 1) (by simp [InStates, replyIn])

/-- A customer who is granted a loan still sees the panel that asks for the first certificate. -/
theorem screen_remembers : ¬ ∀ (rs : List MainDetianModel) (r : MainDetianModel),
    (∀ m ∈ rs ++ [r], InStates m) → (received (rs ++ [r])).screen = (received [r]).screen := by
  intro h
  have hscreen := h [replyIn 1 "0" 1] (replyIn 4 "1" 1) (by simp [InStates, replyIn])
  revert hscreen
  decide +kernel

end LeYiDai.Home
