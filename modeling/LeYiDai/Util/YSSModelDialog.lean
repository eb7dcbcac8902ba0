import LeYiDai.Lib.Machine
import LeYiDai.Lib.Pending
import Mathlib.Data.List.InsertIdx

/-! YSSModelDialog: a dialog and the background behind it are put on the window, each under its tag,
    and found again by it. Hiding fades what it found and removes it when the fade completes,
    whatever has happened in between.

        show v     ──▶ a new background and v on the window
        hide, tap  ──▶ the first dialog by tag, with it the first background or the one tapped
                         └──fade──▶ completion: both leave the window, also when shown again

    What the window comes to once every fade has completed is what the completions leave alone. -/

namespace LeYiDai.ModelDialog

/-- A view on the window: the `n`-th background made, or the view a caller hands over. -/
inductive Subview where
  | background (n : ℕ)
  | dialog (view : ℕ)
  deriving DecidableEq

def Subview.tag : Subview → ℕ
  | .background _ => 88889
  | .dialog _ => 88888

/-- The block that runs when a fade completes, with what it captured: nothing where the tag was not
    found. -/
structure Completion where
  view : Option Subview
  backgroundView : Option Subview
  deriving DecidableEq

/-- What a completion removes. -/
def Completion.views (c : Completion) : List Subview := c.view.toList ++ c.backgroundView.toList

/-- The subviews of the key window that carry the two tags, from the back to the front; the
    completions that have not run; the backgrounds made so far. `shown` remembers whether the last
    request was a show. -/
structure Window where
  subviews : List Subview
  outstanding : List Completion
  created : ℕ
  shown : Bool
  deriving DecidableEq

/-- `viewWithTag:` goes through the subviews from the back. -/
def viewWithTag (tag : ℕ) (subviews : List Subview) : Option Subview :=
  subviews.find? fun v => v.tag = tag

/-- `addSubview:`. A view that is there already comes to the front. -/
def addSubview (v : Subview) (subviews : List Subview) : List Subview :=
  (subviews.filter fun u => u ≠ v) ++ [v]

/-- `removeFromSuperview`, sent to nil as well. -/
def removeFromSuperview (v : Option Subview) (subviews : List Subview) : List Subview :=
  match v with
  | some v => subviews.filter fun u => u ≠ v
  | none => subviews

namespace Window

def empty : Window := { subviews := [], outstanding := [], created := 0, shown := false }

/-- `showView:andAlpha:`. -/
def showView (view : ℕ) (w : Window) : Window :=
  let backgroundView := Subview.background w.created
  let subviews := addSubview backgroundView w.subviews
  { w with
    subviews := addSubview (.dialog view) subviews
    created := w.created + 1
    shown := true }

/-- The fade of both hides; its completion removes the view found and the background given. -/
def fade (backgroundView : Option Subview) (w : Window) : Window :=
  { w with
    outstanding := w.outstanding ++ [{ view := viewWithTag 88888 w.subviews, backgroundView }]
    shown := false }

/-- `hideView`. -/
def hideView (w : Window) : Window := w.fade (viewWithTag 88889 w.subviews)

/-- `hideView:`, for a tap on the `n`-th background; it takes one that is on the window. -/
def tapBackground (n : ℕ) (w : Window) : Window :=
  if .background n ∈ w.subviews then w.fade (some (.background n)) else w

/-- The `k`-th outstanding completion runs. -/
def complete (k : ℕ) (w : Window) : Window :=
  match w.outstanding[k]? with
  | some c => { w with
      subviews := removeFromSuperview c.backgroundView (removeFromSuperview c.view w.subviews)
      outstanding := w.outstanding.eraseIdx k }
  | none => w

/-- Completions run one after the other. -/
def completeAll (ks : List ℕ) (w : Window) : Window := ks.foldl (fun w k => w.complete k) w

end Window

inductive Event where
  | showView (view : ℕ)
  | hideView
  | tapBackground (n : ℕ)
  | completion (k : ℕ)

def step (w : Window) : Event → Window
  | .showView view => w.showView view
  | .hideView => w.hideView
  | .tapBackground n => w.tapBackground n
  | .completion k => w.complete k

def machine : Machine Window Event Unit where
  step w e := some (step w e, [])

/-! ### The law and its condition -/

/-- One dialog with one background where a dialog is shown, neither where none is. -/
def Tidy (shown : Bool) (views : List Subview) : Prop :=
  (views.countP fun v => v.tag = 88888) = shown.toNat ∧
    (views.countP fun v => v.tag = 88889) = shown.toNat

instance (shown : Bool) (views : List Subview) : Decidable (Tidy shown views) :=
  inferInstanceAs (Decidable (_ ∧ _))

namespace Window

/-- With no completion outstanding the window holds what the last request asks for. -/
def Lawful (w : Window) : Prop := w.outstanding = [] → Tidy w.shown w.subviews

instance (w : Window) : Decidable w.Lawful :=
  inferInstanceAs (Decidable (w.outstanding = [] → Tidy w.shown w.subviews))

/-- What an outstanding completion will remove. -/
def captured (w : Window) : List Subview := (w.outstanding.map (·.views)).flatten

/-- What the window comes to once all completions have run. -/
def remaining (w : Window) : List Subview :=
  Pending.remaining w.subviews (w.outstanding.map (·.views))

/-- A show comes on a hide, with a view that no outstanding completion will remove; a hide that
    comes on a show takes up views that none will remove. -/
def Fits (w : Window) : Event → Prop
  | .showView view => w.shown = false ∧ .dialog view ∉ w.captured
  | .hideView => w.shown = true →
      (∀ v ∈ viewWithTag 88888 w.subviews, v ∉ w.captured) ∧
        ∀ v ∈ viewWithTag 88889 w.subviews, v ∉ w.captured
  | .tapBackground n => w.shown = true → .background n ∈ w.subviews →
      (∀ v ∈ viewWithTag 88888 w.subviews, v ∉ w.captured) ∧ .background n ∉ w.captured
  | .completion _ => True

/-- Backgrounds that have been made have smaller numbers than those to come. -/
def Fresh (w : Window) : Prop :=
  ∀ n, .background n ∈ w.subviews ∨ .background n ∈ w.captured → n < w.created

variable {w : Window} {n view : ℕ} {e : Event}

/-! ### Completions -/

theorem removeFromSuperview_views (c : Completion) (xs : List Subview) :
    removeFromSuperview c.backgroundView (removeFromSuperview c.view xs) =
      xs.filter fun v => v ∉ c.views := by
  obtain ⟨view, background⟩ := c
  cases view <;> cases background <;>
    simp [removeFromSuperview, Completion.views, List.filter_filter, Bool.and_comm]

theorem complete_shown (k : ℕ) : (w.complete k).shown = w.shown := by
  unfold complete
  split <;> rfl

/-- A completion that runs leaves what remains alone. -/
theorem complete_remaining (k : ℕ) : (w.complete k).remaining = w.remaining := by
  unfold complete
  split
  · rename_i c hc
    have hviews : (w.outstanding.map (·.views))[k]? = some c.views := by
      rw [List.getElem?_map, hc]
      rfl
    simp only [remaining, removeFromSuperview_views]
    rw [← List.eraseIdx_map]
    exact Pending.remaining_run hviews
  · rfl

theorem completeAll_shown (ks : List ℕ) : (w.completeAll ks).shown = w.shown := by
  induction ks generalizing w with
  | nil => rfl
  | cons k ks ih => exact ih.trans (complete_shown k)

theorem completeAll_remaining (ks : List ℕ) : (w.completeAll ks).remaining = w.remaining := by
  induction ks generalizing w with
  | nil => rfl
  | cons k ks ih => exact ih.trans (complete_remaining k)

/-- The completions can all run. -/
theorem exists_completeAll (w : Window) : ∃ ks, (w.completeAll ks).outstanding = [] := by
  induction h : w.outstanding generalizing w with
  | nil => exact ⟨[], h⟩
  | cons c cs ih =>
    have hcs : (w.complete 0).outstanding = cs := by simp [complete, h]
    obtain ⟨ks, hks⟩ := ih (w.complete 0) hcs
    exact ⟨0 :: ks, hks⟩

theorem remaining_of_idle (h : w.outstanding = []) : w.remaining = w.subviews := by
  rw [remaining, h]
  exact Pending.remaining_nil

/-- The law holds however the outstanding completions run iff what remains obeys it. -/
theorem lawful_iff : (∀ ks, (w.completeAll ks).Lawful) ↔ Tidy w.shown w.remaining := by
  constructor
  · intro h
    obtain ⟨ks, hks⟩ := exists_completeAll w
    have hlaw := h ks hks
    rwa [← remaining_of_idle hks, completeAll_remaining, completeAll_shown] at hlaw
  · intro h ks hks
    rwa [← remaining_of_idle hks, completeAll_remaining, completeAll_shown]

/-! ### Requests -/

theorem tidy_false_iff {views : List Subview} : Tidy false views ↔ views = [] := by
  constructor
  · rintro ⟨hdialog, hbackground⟩
    rw [Bool.toNat_false, List.countP_eq_zero] at hdialog hbackground
    refine List.eq_nil_iff_forall_not_mem.mpr fun v hv => ?_
    cases v with
    | background n => exact hbackground _ hv (by simp [Subview.tag])
    | dialog view => exact hdialog _ hv (by simp [Subview.tag])
  · rintro rfl
    exact ⟨rfl, rfl⟩

theorem mem_of_viewWithTag {tag : ℕ} {xs : List Subview} {v : Subview}
    (h : viewWithTag tag xs = some v) : v ∈ xs ∧ v.tag = tag :=
  ⟨List.mem_of_find?_eq_some h, by simpa using List.find?_some h⟩

/-- A tag that one of the remaining views carries is found. -/
theorem viewWithTag_of_remaining {tag : ℕ}
    (h : (w.remaining.countP fun v => v.tag = tag) = 1) :
    ∃ v, viewWithTag tag w.subviews = some v := by
  have hpos : 0 < w.remaining.countP fun v => v.tag = tag := by omega
  obtain ⟨v, hv, htag⟩ := List.countP_pos_iff.mp hpos
  have hfound : (viewWithTag tag w.subviews).isSome :=
    List.find?_isSome.mpr ⟨v, (Pending.mem_remaining.mp hv).1, htag⟩
  exact Option.isSome_iff_exists.mp hfound

theorem mem_remaining_iff {v : Subview} (h : v ∈ w.subviews) :
    v ∈ w.remaining ↔ v ∉ w.captured := by
  rw [remaining, Pending.mem_remaining]
  exact and_iff_right h

theorem fade_remaining (background : Option Subview) : (w.fade background).remaining =
    w.remaining.filter fun v =>
      v ∉ (viewWithTag 88888 w.subviews).toList ++ background.toList := by
  rw [remaining, fade]
  simp only [List.map_append, List.map_cons, List.map_nil]
  exact Pending.remaining_start

/-- Where nothing remains, a hide leaves it so. -/
theorem fade_tidy_hidden (htidy : Tidy w.shown w.remaining) (hshown : w.shown = false)
    (background : Option Subview) : Tidy false (w.fade background).remaining := by
  rw [hshown, tidy_false_iff] at htidy
  rw [fade_remaining, htidy]
  exact ⟨rfl, rfl⟩

/-- A hide of the dialog shown leaves nothing iff neither view it takes up is already to be
    removed. -/
theorem fade_tidy_iff (htidy : Tidy w.shown w.remaining) (hshown : w.shown = true)
    {b : Subview} (hb : b ∈ w.subviews) (hbtag : b.tag = 88889) :
    Tidy false (w.fade (some b)).remaining ↔
      (∀ v ∈ viewWithTag 88888 w.subviews, v ∉ w.captured) ∧ b ∉ w.captured := by
  rw [hshown] at htidy
  obtain ⟨hdialog, hbackground⟩ := htidy
  obtain ⟨d, hd⟩ := viewWithTag_of_remaining hdialog
  obtain ⟨hdmem, hdtag⟩ := mem_of_viewWithTag hd
  have hremoved : (w.fade (some b)).remaining =
      Pending.remaining w.subviews (w.outstanding.map (·.views) ++ [[d, b]]) := by
    rw [remaining, fade, hd]
    simp [Completion.views]
  have hnone : (∀ v ∈ viewWithTag 88888 w.subviews, v ∉ w.captured) ↔ d ∉ w.captured := by
    simp [hd]
  have hd' : ∀ v : Subview, v.tag = 88888 → (v ∈ [d, b] ↔ v = d) := by
    intro v hv
    have hne : v ≠ b := by
      rintro rfl
      omega
    simp [hne]
  have hb' : ∀ v : Subview, v.tag = 88889 → (v ∈ [d, b] ↔ v = b) := by
    intro v hv
    have hne : v ≠ d := by
      rintro rfl
      omega
    simp [hne]
  rw [hremoved, Tidy, Bool.toNat_false, hnone, ← mem_remaining_iff hdmem, ← mem_remaining_iff hb]
  exact and_congr
    (Pending.countP_remaining_start hdialog (by simpa using hdtag) (by simpa using hd'))
    (Pending.countP_remaining_start hbackground (by simpa using hbtag) (by simpa using hb'))

theorem showView_remaining (hnew : .background w.created ∉ w.captured) :
    (w.showView view).remaining =
      (w.remaining.filter fun v => v ≠ .background w.created ∧ v ≠ .dialog view) ++
        .background w.created :: if .dialog view ∈ w.captured then [] else [.dialog view] := by
  have hsubviews : (w.showView view).subviews =
      (w.subviews.filter fun v => v ≠ .background w.created ∧ v ≠ .dialog view) ++
        ([.background w.created] ++ [.dialog view]) := by
    simp [showView, addSubview, List.filter_append, List.filter_filter, Bool.and_comm]
  rw [remaining, hsubviews, Pending.remaining_append, Pending.remaining_append,
    Pending.remaining_filter, Pending.remaining_single, Pending.remaining_single]
  have hkept : .background w.created ∉ (w.outstanding.map (·.views)).flatten := hnew
  rw [showView, if_neg hkept]
  rfl

/-- A show obeys the law iff it comes on a hide, with a view that no completion will remove. -/
theorem showView_tidy_iff (htidy : Tidy w.shown w.remaining) (hfresh : w.Fresh) :
    Tidy true (w.showView view).remaining ↔ w.shown = false ∧ .dialog view ∉ w.captured := by
  have hnew : .background w.created ∉ w.captured := by
    intro h
    exact absurd (hfresh w.created (.inr h)) (Nat.lt_irrefl _)
  rw [showView_remaining hnew]
  cases hshown : w.shown with
  | false =>
    rw [hshown, tidy_false_iff] at htidy
    rw [htidy]
    by_cases hview : .dialog view ∈ w.captured <;> simp [hview, Tidy, Subview.tag]
  | true =>
    -- the background of the dialog that is shown stays beside the new one
    rw [hshown] at htidy
    have hold : ((w.remaining.filter fun v => v ≠ .background w.created ∧ v ≠ .dialog view).countP
        fun v => v.tag = 88889) = 1 := by
      rw [List.countP_filter, ← Bool.toNat_true, ← htidy.2]
      refine List.countP_congr fun v hv => ?_
      have hne : v ≠ .background w.created := by
        rintro rfl
        have hmem := (Pending.mem_remaining.mp hv).1
        exact absurd (hfresh w.created (.inl hmem)) (Nat.lt_irrefl _)
      cases v with
      | background n => simpa [Subview.tag] using hne
      | dialog view => simp [Subview.tag]
    refine iff_of_false ?_ (by simp)
    rintro ⟨-, hbackground⟩
    rw [List.countP_append, hold, List.countP_cons_of_pos (by simp [Subview.tag]),
      Bool.toNat_true] at hbackground
    omega

/-! ### Runs -/

/-- A step out of a state in which the law will hold keeps it iff it fits. -/
theorem step_tidy_iff (htidy : Tidy w.shown w.remaining) (hfresh : w.Fresh) :
    Tidy (step w e).shown (step w e).remaining ↔ w.Fits e := by
  cases e with
  | showView view => exact showView_tidy_iff htidy hfresh
  | hideView =>
    change Tidy false (w.fade _).remaining ↔ _
    cases hshown : w.shown with
    | false => exact iff_of_true (fade_tidy_hidden htidy hshown _) (by simp [Fits, hshown])
    | true =>
      obtain ⟨b, hb⟩ : ∃ b, viewWithTag 88889 w.subviews = some b := by
        rw [hshown] at htidy
        exact viewWithTag_of_remaining htidy.2
      obtain ⟨hmem, htag⟩ := mem_of_viewWithTag hb
      rw [hb, fade_tidy_iff htidy hshown hmem htag]
      simp [Fits, hshown, hb]
  | tapBackground n =>
    by_cases hmem : .background n ∈ w.subviews
    · rw [step, tapBackground, if_pos hmem]
      change Tidy false (w.fade _).remaining ↔ _
      cases hshown : w.shown with
      | false => exact iff_of_true (fade_tidy_hidden htidy hshown _) (by simp [Fits, hshown])
      | true =>
        rw [fade_tidy_iff htidy hshown hmem rfl]
        simp [Fits, hshown, hmem]
    · rw [step, tapBackground, if_neg hmem]
      exact iff_of_true htidy fun _ h => absurd h hmem
  | completion k =>
    rw [step, complete_shown, complete_remaining]
    exact iff_of_true htidy trivial

theorem fade_fresh {background : Option Subview} (hfresh : w.Fresh)
    (hon : ∀ v ∈ background, v ∈ w.subviews) : (w.fade background).Fresh := by
  rintro n (hn | hn)
  · exact hfresh n (.inl hn)
  · have hsplit : .background n ∈ w.captured ∨
        viewWithTag 88888 w.subviews = some (.background n) ∨
        background = some (.background n) := by
      simpa [captured, fade, Completion.views, Option.mem_toList] using hn
    rcases hsplit with h | h | h
    · exact hfresh n (.inr h)
    · exact hfresh n (.inl (mem_of_viewWithTag h).1)
    · exact hfresh n (.inl (hon _ h))

theorem complete_fresh (hfresh : w.Fresh) (k : ℕ) : (w.complete k).Fresh := by
  unfold complete
  split
  · rintro n (hn | hn)
    · simp only [removeFromSuperview_views] at hn
      exact hfresh n (.inl (List.mem_of_mem_filter hn))
    · obtain ⟨views, hviews, hmem⟩ := List.mem_flatten.mp hn
      obtain ⟨c, hc, rfl⟩ := List.mem_map.mp hviews
      refine hfresh n (.inr (List.mem_flatten.mpr ⟨c.views, ?_, hmem⟩))
      exact List.mem_map_of_mem (List.mem_of_mem_eraseIdx hc)
  · exact hfresh

theorem step_fresh (hfresh : w.Fresh) : (step w e).Fresh := by
  cases e with
  | showView view =>
    rintro n (hn | hn)
    · have hsplit : .background n ∈ w.subviews ∨ n = w.created := by
        by_cases h : n = w.created
        · exact .inr h
        · exact .inl (by simpa [step, showView, addSubview, h] using hn)
      rcases hsplit with h | rfl
      · exact Nat.lt_succ_of_lt (hfresh n (.inl h))
      · exact Nat.lt_succ_self _
    · exact Nat.lt_succ_of_lt (hfresh n (.inr hn))
  | hideView => exact fade_fresh hfresh fun v hv => (mem_of_viewWithTag hv).1
  | tapBackground n =>
    rw [step, tapBackground]
    split_ifs with hmem
    · refine fade_fresh hfresh fun v hv => ?_
      cases hv
      exact hmem
    · exact hfresh
  | completion k => exact complete_fresh hfresh k

end Window

/-- The law holds in every state of a run, however the completions outstanding there run, iff every
    step of the run fits. -/
theorem dialog_lawful_iff (events : List Event) :
    machine.Always (fun _ _ w _ => ∀ ks, (w.completeAll ks).Lawful) .empty events ↔
      machine.Meets Window.Fits .empty events := by
  have hfresh : Window.empty.Fresh := by
    rintro n (hn | hn) <;> cases hn
  refine Machine.always_iff_meets (M := machine)
    (I := fun w : Window => Tidy w.shown w.remaining ∧ w.Fresh) ?_ ?_ events .empty
    ⟨by decide, hfresh⟩
  · rintro w e w' os ⟨htidy, hfresh⟩ hfits hstep
    cases hstep
    exact ⟨(Window.step_tidy_iff htidy hfresh).mpr hfits, Window.step_fresh hfresh⟩
  · rintro w e w' os ⟨htidy, hfresh⟩ hstep
    cases hstep
    rw [Window.lawful_iff]
    exact Window.step_tidy_iff htidy hfresh

/-- A dialog shown again while it is fading out leaves with the fade; its new background stays. -/
theorem reshown_dialog_removed :
    machine.run .empty [.showView 0, .hideView, .showView 0, .completion 0] =
      some ({ subviews := [.background 1], outstanding := [], created := 2, shown := true }, []) ∧
    ¬ machine.Always (fun _ _ w _ => w.Lawful) .empty
      [.showView 0, .hideView, .showView 0, .completion 0] := by
  decide

end LeYiDai.ModelDialog
