import LeYiDai.Lib.Machine
import Mathlib.Data.List.Basic
import Mathlib.Data.List.Chain

/-! KLTNavigationController: a stack of screens and pictures of the ones below. The controller keeps
    pictures for the drag from the edge, its AnimationContoller others for the transitions it is
    asked for; neither looks at the other's.

        push ──▶ screenshotImgs, and screenShotArray where UIKit animates
        pop  ──▶ the last of each, shown where UIKit animates
        drag ──▶ the last of screenshotImgs under the finger, then a pop without animation -/

namespace LeYiDai.Navigation

variable {ν κ π : Type*}

/-! ### AnimationContoller -/

structure AnimationContoller (π : Type*) where
  screenShotArray : List π
  removeCount : ℕ

def removeLastObjects {α : Type*} : ℕ → List α → List α
  | 0, l => l
  | n + 1, l => removeLastObjects n l.dropLast

namespace AnimationContoller

def init : AnimationContoller π := { screenShotArray := [], removeCount := 0 }

/-- `animateTransition:` of a push. -/
def animatePush (screenImg : π) (a : AnimationContoller π) : AnimationContoller π :=
  { a with screenShotArray := a.screenShotArray ++ [screenImg] }

/-- `animateTransition:` of a pop with its completion, and the image that slides in. -/
def animatePop (a : AnimationContoller π) : AnimationContoller π × Option π :=
  let screenShotArray := removeLastObjects (a.removeCount - 1) a.screenShotArray
  ({ screenShotArray := screenShotArray.dropLast, removeCount := 0 }, screenShotArray.getLast?)

def removeLastScreenShot (a : AnimationContoller π) : AnimationContoller π :=
  { a with screenShotArray := a.screenShotArray.dropLast }

def removeAllScreenShot (a : AnimationContoller π) : AnimationContoller π :=
  { a with screenShotArray := [] }

end AnimationContoller

/-! ### KLTNavigationController -/

/-- The instance variable `animationController` is nil until it is asked for. -/
structure KLTNavigationController (ν π : Type*) where
  viewControllers : List ν
  screenshotImgs : List π
  animationController : Option (AnimationContoller π)

/-- How often the loop of `popToViewController:` removes a picture, over the controllers from the
    top: once for each above the given one, never for the root. -/
def removals [DecidableEq ν] (viewController : ν) : List ν → ℕ
  | [] => 0
  | [_] => 0
  | c :: d :: rest => if c = viewController then 0 else removals viewController (d :: rest) + 1

namespace KLTNavigationController

def initWithRootViewController (root : ν) : KLTNavigationController ν π :=
  { viewControllers := [root], screenshotImgs := [], animationController := none }

/-- The getter. -/
def animator (s : KLTNavigationController ν π) : AnimationContoller π :=
  s.animationController.getD .init

/-- `screenShot`: of the window, if there is one. -/
def screenShot (window : Option π) (s : KLTNavigationController ν π) :
    KLTNavigationController ν π :=
  match window with
  | some snapshot => { s with screenshotImgs := s.screenshotImgs ++ [snapshot] }
  | none => s

/-- UIKit animates what it is asked to in a window. -/
def animates (animated : Bool) (window : Option π) : Bool := animated && window.isSome

/-- The push of UIKit, which raises on a controller that is on the stack. -/
def superPush [DecidableEq ν] (viewController : ν) (animated : Bool) (window : Option π)
    (s : KLTNavigationController ν π) : Option (KLTNavigationController ν π) :=
  if viewController ∈ s.viewControllers then none
  else
    let s := { s with viewControllers := s.viewControllers ++ [viewController] }
    match animated, window with
    | true, some screenImg =>
      some { s with animationController := some (s.animator.animatePush screenImg) }
    | _, _ => some s

/-- The pop of UIKit down to the given controllers, and the image that slides in. -/
def superPop (viewControllers : List ν) (animated : Bool) (window : Option π)
    (s : KLTNavigationController ν π) : KLTNavigationController ν π × List (Option π) :=
  let s := { s with viewControllers }
  if animates animated window then
    let (a, image) := s.animator.animatePop
    ({ s with animationController := some a }, [image])
  else (s, [])

/-- `pushViewController:animated:`. -/
def pushViewController [DecidableEq ν] [DecidableEq κ] (classOf : ν → κ) (viewController : ν)
    (animated : Bool) (window : Option π) (s : KLTNavigationController ν π) :
    Option (KLTNavigationController ν π) :=
  if s.viewControllers.getLast?.map classOf = some (classOf viewController) then some s
  else
    let s := if 1 ≤ s.viewControllers.length then s.screenShot window else s
    s.superPush viewController animated window

/-- `popViewControllerAnimated:`. Without a controller `index - 1` wraps round. -/
def popViewController (animated : Bool) (window : Option π) (s : KLTNavigationController ν π) :
    KLTNavigationController ν π × List (Option π) :=
  let index := s.viewControllers.length
  let s := if 0 < index ∧ index - 1 ≤ s.screenshotImgs.length then
    { s with screenshotImgs := s.screenshotImgs.dropLast } else s
  if index ≤ 1 then (s, []) else s.superPop s.viewControllers.dropLast animated window

/-- `popToViewController:animated:`. UIKit raises on a controller that is not on the stack. -/
def popToViewController [DecidableEq ν] (viewController : ν) (animated : Bool) (window : Option π)
    (s : KLTNavigationController ν π) : Option (KLTNavigationController ν π × List (Option π)) :=
  let removeCount := removals viewController s.viewControllers.reverse
  let s : KLTNavigationController ν π := { s with
    screenshotImgs := removeLastObjects removeCount s.screenshotImgs
    animationController := s.animationController.map fun a => { a with removeCount } }
  if viewController ∉ s.viewControllers then none
  else if s.viewControllers.getLast? = some viewController then some (s, [])
  else some (s.superPop (s.viewControllers.reverse.dropWhile (· ≠ viewController)).reverse
    animated window)

/-- `popToRootViewControllerAnimated:`. -/
def popToRootViewController (animated : Bool) (window : Option π)
    (s : KLTNavigationController ν π) : KLTNavigationController ν π × List (Option π) :=
  let s : KLTNavigationController ν π := { s with
    screenshotImgs := []
    animationController := s.animationController.map AnimationContoller.removeAllScreenShot }
  if s.viewControllers.length ≤ 1 then (s, [])
  else s.superPop (s.viewControllers.take 1) animated window

/-- `panGestureRec:` returns while the root is on the screen. -/
def atRoot [DecidableEq ν] (s : KLTNavigationController ν π) : Bool :=
  s.viewControllers.getLast? = s.viewControllers.head?

/-- `dragEnd` past the forty points. -/
def dragEnd (s : KLTNavigationController ν π) : KLTNavigationController ν π :=
  let (s, _) := s.popViewController false none
  { s with animationController := some s.animator.removeLastScreenShot }

end KLTNavigationController

/-- The controllers of a stack, the top first, after `pushViewController:animated:`. -/
def pushOnto [DecidableEq κ] (classOf : ν → κ) (viewController : ν) (viewControllers : List ν) :
    List ν :=
  if viewControllers.head?.map classOf = some (classOf viewController) then viewControllers
  else viewController :: viewControllers

open KLTNavigationController

/-- What is called, with what the window shows at that moment, and the finger at the edge. -/
inductive Event (ν π : Type*) where
  | pushViewController (viewController : ν) (animated : Bool) (window : Option π)
  | popViewController (animated : Bool) (window : Option π)
  | popToViewController (viewController : ν) (animated : Bool) (window : Option π)
  | popToRootViewController (animated : Bool) (window : Option π)
  | dragBegin
  | dragEnd (far : Bool)

/-- One call with its transition; out come the images that the user sees of the screen to come. -/
def machine [DecidableEq ν] [DecidableEq κ] (classOf : ν → κ) :
    Machine (KLTNavigationController ν π) (Event ν π) (Option π) where
  step s
    | .pushViewController viewController animated window =>
      (s.pushViewController classOf viewController animated window).map (·, [])
    | .popViewController animated window => some (s.popViewController animated window)
    | .popToViewController viewController animated window =>
      s.popToViewController viewController animated window
    | .popToRootViewController animated window => some (s.popToRootViewController animated window)
    | .dragBegin => some (s, if s.atRoot then [] else [s.screenshotImgs.getLast?])
    | .dragEnd far => some (if s.atRoot || !far then s else s.dragEnd, [])

/-! ### Pages -/

/-- The screens as the user went through them, each below with what the window showed when it was
    left. -/
structure Pages (ν π : Type*) where
  top : ν
  below : List (ν × Option π)

namespace Pages

def controllers (t : Pages ν π) : List ν := t.top :: t.below.map Prod.fst

def back : ℕ → Pages ν π → Pages ν π
  | 0, t => t
  | n + 1, t =>
    match t.below with
    | [] => t
    | (c, _) :: rest => back n { top := c, below := rest }

/-- How many pages a call goes back. -/
def goes [DecidableEq ν] (t : Pages ν π) : Event ν π → ℕ
  | .popViewController _ _ => 1
  | .popToViewController viewController _ _ => t.controllers.idxOf viewController
  | .popToRootViewController _ _ => t.below.length
  | .dragEnd true => 1
  | _ => 0

def next [DecidableEq ν] [DecidableEq κ] (classOf : ν → κ) (t : Pages ν π) (e : Event ν π) :
    Pages ν π :=
  match e with
  | .pushViewController viewController _ window =>
    if classOf t.top = classOf viewController then t
    else { top := viewController, below := (t.top, window) :: t.below }
  | e => t.back (t.goes e)

/-- What the page to come looked like when it was left; a drag lets the next one below be seen. -/
def picture [DecidableEq ν] (t : Pages ν π) (e : Event ν π) : Option π :=
  let n := match e with
    | .dragBegin => 1
    | e => t.goes e
  (t.below[n - 1]?).bind Prod.snd

/-- Controllers come in and go out over a transition, except that the way to the root has none. -/
def Animated [DecidableEq ν] [DecidableEq κ] (classOf : ν → κ) (t : Pages ν π) : Event ν π → Prop
  | .pushViewController viewController animated window =>
    classOf t.top ≠ classOf viewController → animates animated window = true
  | .popViewController animated window => t.below ≠ [] → animates animated window = true
  | .popToViewController viewController animated window =>
    t.top ≠ viewController → animates animated window = true
  | .popToRootViewController animated window => t.below ≠ [] → animates animated window = false
  | .dragBegin | .dragEnd _ => True

end Pages

/-- Both arrays hold the pictures of the pages below. -/
structure Mirrors (s : KLTNavigationController ν π) (t : Pages ν π) : Prop where
  stack : s.viewControllers = t.controllers.reverse
  nodup : t.controllers.Nodup
  shots : t.below.map Prod.snd = s.screenshotImgs.reverse.map some
  array : s.animator.screenShotArray = s.screenshotImgs
  removeCount : s.animator.removeCount = 0

/-! ### Lists from their end -/

theorem removeLastObjects_reverse {α : Type*} (n : ℕ) (l : List α) :
    removeLastObjects n l.reverse = (l.drop n).reverse := by
  induction n generalizing l with
  | zero => rfl
  | succ n ih => rw [removeLastObjects, List.dropLast_reverse, ih, List.drop_tail]

theorem removeLastObjects_succ {α : Type*} (n : ℕ) (l : List α) :
    removeLastObjects (n + 1) l = (removeLastObjects n l).dropLast := by
  induction n generalizing l with
  | zero => rfl
  | succ n ih => rw [removeLastObjects, ih, removeLastObjects]

theorem length_removeLastObjects {α : Type*} (n : ℕ) (l : List α) :
    (removeLastObjects n l).length = l.length - n := by
  induction n generalizing l with
  | zero => rfl
  | succ n ih =>
    rw [removeLastObjects, ih, List.length_dropLast]
    omega

/-- The loop finds a controller that is there. -/
theorem removals_eq_idxOf [DecidableEq ν] {viewController : ν} {l : List ν}
    (h : viewController ∈ l) : removals viewController l = l.idxOf viewController := by
  induction l with
  | nil => cases h
  | cons c rest ih =>
    cases rest with
    | nil =>
      obtain rfl := List.mem_singleton.mp h
      simp [removals]
    | cons d rest =>
      rw [removals]
      by_cases hc : c = viewController
      · rw [if_pos hc, hc, List.idxOf_cons_self]
      · rw [if_neg hc, ih ((List.mem_cons.mp h).resolve_left (Ne.symm hc)), List.idxOf_cons_ne _ hc]

theorem dropWhile_eq_drop_idxOf [DecidableEq ν] (viewController : ν) (l : List ν) :
    l.dropWhile (· ≠ viewController) = l.drop (l.idxOf viewController) := by
  induction l with
  | nil => rfl
  | cons c rest ih =>
    by_cases hc : c = viewController
    · rw [hc, List.idxOf_cons_self, List.dropWhile_cons_of_neg (by simp)]
      rfl
    · rw [List.idxOf_cons_ne _ hc, List.dropWhile_cons_of_pos (by simpa using hc), ih]
      rfl

/-! ### Going back -/

variable {s s' : KLTNavigationController ν π} {t : Pages ν π}

namespace Pages

theorem below_back (n : ℕ) (t : Pages ν π) (h : n ≤ t.below.length) :
    (t.back n).below = t.below.drop n := by
  induction n generalizing t with
  | zero => rfl
  | succ n ih =>
    obtain ⟨top, below⟩ := t
    cases below with
    | nil => cases h
    | cons p rest => exact ih _ (Nat.le_of_succ_le_succ h)

theorem controllers_back (n : ℕ) (t : Pages ν π) (h : n ≤ t.below.length) :
    (t.back n).controllers = t.controllers.drop n := by
  induction n generalizing t with
  | zero => rfl
  | succ n ih =>
    obtain ⟨top, below⟩ := t
    cases below with
    | nil => cases h
    | cons p rest => exact ih _ (Nat.le_of_succ_le_succ h)

theorem back_of_root (h : t.below = []) (n : ℕ) : t.back n = t := by
  cases n with
  | zero => rfl
  | succ n => rw [back, h]

end Pages

theorem mirrors_init (root : ν) :
    Mirrors (initWithRootViewController root : KLTNavigationController ν π)
      { top := root, below := [] } :=
  ⟨rfl, List.pairwise_singleton _ root, rfl, rfl, rfl⟩

theorem Mirrors.length_shots (h : Mirrors s t) : s.screenshotImgs.length = t.below.length := by
  have hlength := congrArg List.length h.shots
  simpa using hlength.symm

theorem Mirrors.length_stack (h : Mirrors s t) :
    s.viewControllers.length = t.below.length + 1 := by
  rw [h.stack, List.length_reverse, Pages.controllers, List.length_cons, List.length_map]

theorem Mirrors.getLast? (h : Mirrors s t) : s.viewControllers.getLast? = some t.top := by
  rw [h.stack, List.getLast?_reverse]
  rfl

/-- The picture of a page below, among the pictures. -/
theorem Mirrors.picture (h : Mirrors s t) (n : ℕ) :
    (t.below[n]?).bind Prod.snd = (removeLastObjects n s.screenshotImgs).getLast? := by
  have hshots : s.screenshotImgs = s.screenshotImgs.reverse.reverse := by rw [List.reverse_reverse]
  have hget := congrArg (fun l => l[n]?) h.shots
  simp only [List.getElem?_map] at hget
  rw [hshots, removeLastObjects_reverse, List.getLast?_reverse, List.head?_drop]
  cases hbelow : t.below[n]? with
  | none =>
    rw [hbelow] at hget
    cases hpic : s.screenshotImgs.reverse[n]? with
    | none => rfl
    | some p =>
      rw [hpic] at hget
      cases hget
  | some p =>
    rw [hbelow] at hget
    cases hpic : s.screenshotImgs.reverse[n]? with
    | none =>
      rw [hpic] at hget
      cases hget
    | some q =>
      rw [hpic] at hget
      exact Option.some.inj hget

theorem Mirrors.nodup_drop (h : Mirrors s t) (n : ℕ) : (t.controllers.drop n).Nodup :=
  h.nodup.sublist (List.drop_sublist n _)

/-- After a way back that takes the pictures along, it is on the animator. -/
theorem Mirrors.back_iff (h : Mirrors s t) {n : ℕ} (hn : n ≤ t.below.length)
    (s' : KLTNavigationController ν π)
    (hstack : s'.viewControllers = (t.controllers.drop n).reverse)
    (hshots : s'.screenshotImgs = removeLastObjects n s.screenshotImgs) :
    Mirrors s' (t.back n) ↔
      s'.animator.screenShotArray = s'.screenshotImgs ∧ s'.animator.removeCount = 0 := by
  constructor
  · exact fun h' => ⟨h'.array, h'.removeCount⟩
  · rintro ⟨harray, hcount⟩
    refine ⟨?_, ?_, ?_, harray, hcount⟩
    · rw [hstack, Pages.controllers_back n t hn]
    · rw [Pages.controllers_back n t hn]
      exact h.nodup_drop n
    · have himgs : s.screenshotImgs = s.screenshotImgs.reverse.reverse :=
        (List.reverse_reverse _).symm
      rw [Pages.below_back n t hn, hshots, himgs, removeLastObjects_reverse, List.reverse_reverse,
        List.map_drop, List.map_drop, h.shots]

/-- A pop of UIKit goes right iff it is animated. -/
theorem Mirrors.superPop_iff (h : Mirrors s t) {n : ℕ} (hn : n < t.below.length)
    (s₁ : KLTNavigationController ν π) (stack : List ν) (animated : Bool) (window : Option π)
    (hstack : stack = (t.controllers.drop (n + 1)).reverse)
    (hshots : s₁.screenshotImgs = removeLastObjects (n + 1) s.screenshotImgs)
    (harray : s₁.animator.screenShotArray = s.screenshotImgs)
    (hcount : s₁.animator.removeCount - 1 = n) :
    (Mirrors (s₁.superPop stack animated window).1 (t.back (n + 1)) ∧
        ∀ image ∈ (s₁.superPop stack animated window).2, image = (t.below[n]?).bind Prod.snd) ↔
      animates animated window = true := by
  cases hanimates : animates animated window with
  | true =>
    have heq : s₁.superPop stack animated window =
        ({ s₁ with
            viewControllers := stack
            animationController := some s₁.animator.animatePop.1 },
          [s₁.animator.animatePop.2]) := by
      rw [superPop, if_pos hanimates]
      rfl
    have hback := h.back_iff hn { s₁ with
      viewControllers := stack
      animationController := some s₁.animator.animatePop.1 } hstack hshots
    rw [heq]
    refine iff_of_true ⟨hback.mpr ⟨?_, rfl⟩, fun image himage => ?_⟩ rfl
    · have harray' : s₁.animator.animatePop.1.screenShotArray =
          (removeLastObjects n s.screenshotImgs).dropLast := by
        rw [AnimationContoller.animatePop, hcount, harray]
      rw [← removeLastObjects_succ, ← hshots] at harray'
      exact harray'
    · rw [List.mem_singleton.mp himage, h.picture, AnimationContoller.animatePop, hcount, harray]
  | false =>
    have heq : s₁.superPop stack animated window = ({ s₁ with viewControllers := stack }, []) := by
      rw [superPop, if_neg (by simp [hanimates])]
    rw [heq]
    refine iff_of_false ?_ Bool.false_ne_true
    rintro ⟨hmirrors, -⟩
    have hsame : s₁.animator.screenShotArray = s₁.screenshotImgs := hmirrors.array
    -- the array still has the pictures that are gone
    have hlength := congrArg List.length hsame
    rw [harray, hshots, length_removeLastObjects, h.length_shots] at hlength
    omega

/-- At the root nothing is left to remove. -/
theorem Mirrors.atRoot_shots (h : Mirrors s t) (hroot : t.below = []) : s.screenshotImgs = [] := by
  have hlength := h.length_shots
  rw [hroot] at hlength
  exact List.eq_nil_of_length_eq_zero hlength

theorem Mirrors.popViewController_iff (h : Mirrors s t) (animated : Bool) (window : Option π) :
    (Mirrors (s.popViewController animated window).1 (t.back 1) ∧
        ∀ image ∈ (s.popViewController animated window).2, image = (t.below[0]?).bind Prod.snd) ↔
      (t.below ≠ [] → animates animated window = true) := by
  have hpictures : 0 < s.viewControllers.length ∧
      s.viewControllers.length - 1 ≤ s.screenshotImgs.length := by
    rw [h.length_stack, h.length_shots]
    omega
  rw [popViewController]
  simp only [if_pos hpictures]
  rcases Nat.eq_zero_or_pos t.below.length with hzero | hpos
  · have hroot := List.eq_nil_of_length_eq_zero hzero
    have hone : s.viewControllers.length ≤ 1 := by rw [h.length_stack, hzero]
    rw [if_pos hone, Pages.back_of_root hroot]
    refine iff_of_true ⟨?_, nofun⟩ fun hne => absurd hroot hne
    have hshots : s.screenshotImgs.dropLast = s.screenshotImgs := by
      rw [h.atRoot_shots hroot, List.dropLast_nil]
    rw [hshots]
    exact h
  · have hmany : ¬s.viewControllers.length ≤ 1 := by
      rw [h.length_stack]
      omega
    have hpop := h.superPop_iff hpos { s with screenshotImgs := s.screenshotImgs.dropLast }
      s.viewControllers.dropLast animated window
      (by rw [h.stack, List.dropLast_reverse, List.drop_one]) rfl h.array
      (congrArg (· - 1) h.removeCount)
    rw [if_neg hmany, hpop]
    exact ⟨fun hanimates _ => hanimates, fun himp => himp (List.length_pos_iff.mp hpos)⟩

/-- With pictures below there is an animator. -/
theorem Mirrors.exists_animator (h : Mirrors s t) (hpos : 0 < t.below.length) :
    ∃ a, s.animationController = some a := by
  cases hnone : s.animationController with
  | some a => exact ⟨a, rfl⟩
  | none =>
    have hempty : s.screenshotImgs = [] := by
      rw [← h.array, animator, hnone]
      rfl
    have hlength := h.length_shots
    rw [hempty, List.length_nil] at hlength
    omega

theorem Mirrors.popToViewController_iff [DecidableEq ν] (h : Mirrors s t) {viewController : ν}
    {animated : Bool} {window : Option π} {p : KLTNavigationController ν π × List (Option π)}
    (hpop : s.popToViewController viewController animated window = some p) :
    (Mirrors p.1 (t.back (t.controllers.idxOf viewController)) ∧
        ∀ image ∈ p.2, image =
          (t.below[t.controllers.idxOf viewController - 1]?).bind Prod.snd) ↔
      (t.top ≠ viewController → animates animated window = true) := by
  have hhead : t.controllers.head? = some t.top := rfl
  rw [popToViewController] at hpop
  simp only [h.stack, List.reverse_reverse, List.getLast?_reverse, hhead] at hpop
  split_ifs at hpop with hmem htop
  · obtain rfl : t.top = viewController := Option.some.inj htop
    have hidx : t.controllers.idxOf t.top = 0 := List.idxOf_cons_self
    have hremovals : removals t.top t.controllers = 0 := by
      rw [removals_eq_idxOf (by simpa using hmem), hidx]
    have hback := h.back_iff (Nat.zero_le _) { s with
      viewControllers := t.controllers.reverse
      animationController := s.animationController.map fun a => { a with removeCount := 0 } }
      rfl rfl
    have harray := h.array
    cases hpop
    rw [hidx, hremovals]
    refine iff_of_true ⟨hback.mpr ⟨?_, ?_⟩, nofun⟩ fun hne => absurd rfl hne
    · refine Eq.trans ?_ harray
      rw [animator, animator]
      cases s.animationController <;> rfl
    · rw [animator]
      cases s.animationController <;> rfl
  · have hmem' : viewController ∈ t.controllers := by simpa using hmem
    have hne : t.top ≠ viewController := fun heq => htop (congrArg some heq)
    obtain ⟨n, hidx⟩ : ∃ n, t.controllers.idxOf viewController = n + 1 :=
      ⟨(t.below.map Prod.fst).idxOf viewController, List.idxOf_cons_ne _ hne⟩
    have hlt : n < t.below.length := by
      have hidx' := List.idxOf_lt_length_of_mem hmem'
      rw [hidx, Pages.controllers, List.length_cons, List.length_map] at hidx'
      omega
    obtain ⟨a, ha⟩ := h.exists_animator (by omega)
    have harray := h.array
    have hcount := h.removeCount
    rw [animator, ha] at harray hcount
    have hsuper := h.superPop_iff hlt { s with
      screenshotImgs := removeLastObjects (n + 1) s.screenshotImgs
      animationController := some { a with removeCount := n + 1 } }
      (t.controllers.drop (n + 1)).reverse animated window rfl rfl harray rfl
    cases hpop
    rw [removals_eq_idxOf hmem', dropWhile_eq_drop_idxOf, hidx, ha]
    exact hsuper.trans ⟨fun hanimates _ => hanimates, fun himp => himp hne⟩

theorem animatePop_of_empty {a : AnimationContoller π} (hshots : a.screenShotArray = [])
    (hcount : a.removeCount = 0) : a.animatePop.2 = none := by
  rw [AnimationContoller.animatePop, hshots, hcount]
  rfl

theorem Mirrors.popToRootViewController_iff (h : Mirrors s t) (animated : Bool)
    (window : Option π) :
    (Mirrors (s.popToRootViewController animated window).1 (t.back t.below.length) ∧
        ∀ image ∈ (s.popToRootViewController animated window).2,
          image = (t.below[t.below.length - 1]?).bind Prod.snd) ↔
      (t.below ≠ [] → animates animated window = false) := by
  have hshots : removeLastObjects t.below.length s.screenshotImgs = [] := by
    refine List.eq_nil_of_length_eq_zero ?_
    rw [length_removeLastObjects, h.length_shots, Nat.sub_self]
  have hcleared : ((s.animationController.map AnimationContoller.removeAllScreenShot).getD
      .init).screenShotArray = [] ∧ ((s.animationController.map
        AnimationContoller.removeAllScreenShot).getD .init).removeCount = 0 := by
    have hcount := h.removeCount
    rw [animator] at hcount
    cases ha : s.animationController with
    | none => exact ⟨rfl, rfl⟩
    | some a =>
      rw [ha] at hcount
      exact ⟨rfl, hcount⟩
  rw [popToRootViewController]
  dsimp only
  rcases Nat.eq_zero_or_pos t.below.length with hzero | hpos
  · have hroot := List.eq_nil_of_length_eq_zero hzero
    have hone : s.viewControllers.length ≤ 1 := by rw [h.length_stack, hzero]
    rw [if_pos hone]
    refine iff_of_true ⟨?_, nofun⟩ fun hne => absurd hroot hne
    refine (h.back_iff le_rfl _ ?_ hshots.symm).mpr hcleared
    rw [hzero]
    exact h.stack
  · have hmany : ¬s.viewControllers.length ≤ 1 := by
      rw [h.length_stack]
      omega
    have hne : t.below ≠ [] := List.length_pos_iff.mp hpos
    rw [if_neg hmany, superPop]
    cases hanimates : animates animated window with
    | true =>
      -- the array is empty before the transition asks it for an image
      refine iff_of_false ?_ fun himp => Bool.noConfusion (himp hne)
      rintro ⟨-, himages⟩
      have himage := (himages _ (List.mem_singleton.mpr rfl)).symm.trans
        (animatePop_of_empty hcleared.1 hcleared.2)
      have hlength := length_removeLastObjects (t.below.length - 1) s.screenshotImgs
      rw [h.picture] at himage
      rw [List.getLast?_eq_none_iff.mp himage, List.length_nil, h.length_shots] at hlength
      omega
    | false =>
      refine iff_of_true ⟨?_, nofun⟩ fun _ => rfl
      refine (h.back_iff le_rfl _ ?_ hshots.symm).mpr hcleared
      have hlength : t.controllers.length - 1 = t.below.length := by
        rw [Pages.controllers, List.length_cons, List.length_map, Nat.add_sub_cancel]
      dsimp only
      rw [h.stack, List.take_reverse, hlength]
      rfl

/-- A drag goes back one page and takes both pictures along. -/
theorem Mirrors.dragEnd (h : Mirrors s t) (hpos : 0 < t.below.length) :
    Mirrors s.dragEnd (t.back 1) := by
  have hpictures : 0 < s.viewControllers.length ∧
      s.viewControllers.length - 1 ≤ s.screenshotImgs.length := by
    rw [h.length_stack, h.length_shots]
    omega
  have hmany : ¬s.viewControllers.length ≤ 1 := by
    rw [h.length_stack]
    omega
  have hdrag : s.dragEnd =
      { viewControllers := s.viewControllers.dropLast
        screenshotImgs := s.screenshotImgs.dropLast
        animationController := some s.animator.removeLastScreenShot } := by
    simp only [KLTNavigationController.dragEnd, popViewController, if_pos hpictures, if_neg hmany,
      superPop, animates]
    rfl
  rw [hdrag]
  refine (h.back_iff hpos _ ?_ rfl).mpr ⟨?_, h.removeCount⟩
  · dsimp only
    rw [h.stack, List.dropLast_reverse, List.drop_one]
  · exact congrArg List.dropLast h.array

/-- The gesture is for every page but the root. -/
theorem Mirrors.atRoot_iff [DecidableEq ν] (h : Mirrors s t) :
    s.atRoot = true ↔ t.below = [] := by
  rw [atRoot, decide_eq_true_eq, h.getLast?, h.stack, List.head?_reverse, Pages.controllers]
  obtain ⟨top, below⟩ := t
  constructor
  · intro htop
    rcases List.eq_nil_or_concat' below with hnil | ⟨rest, p, rfl⟩
    · exact hnil
    · -- the root is another controller
      have hnodup := (List.nodup_cons.mp h.nodup).1
      rw [List.map_append, List.map_singleton, ← List.cons_append, List.getLast?_concat] at htop
      obtain rfl : top = p.1 := Option.some.inj htop
      exact absurd (List.mem_map_of_mem (by simp)) hnodup
  · rintro rfl
    rfl

/-- A push goes right iff it is animated, unless it is refused. -/
theorem Mirrors.pushViewController_iff [DecidableEq ν] [DecidableEq κ] (h : Mirrors s t)
    {classOf : ν → κ} {viewController : ν} {animated : Bool} {window : Option π}
    (hpush : s.pushViewController classOf viewController animated window = some s') :
    Mirrors s' (t.next classOf (.pushViewController viewController animated window)) ↔
      (classOf t.top ≠ classOf viewController → animates animated window = true) := by
  rw [pushViewController, h.getLast?, Option.map_some] at hpush
  rw [Pages.next]
  by_cases hclass : classOf t.top = classOf viewController
  · rw [if_pos (congrArg some hclass)] at hpush
    cases hpush
    rw [if_pos hclass]
    exact iff_of_true h fun hne => absurd hclass hne
  · have hone : 1 ≤ s.viewControllers.length := by
      rw [h.length_stack]
      omega
    simp only [if_neg fun heq => hclass (Option.some.inj heq), if_pos hone] at hpush
    rw [if_neg hclass]
    have hnew : viewController ∉ s.viewControllers → (viewController :: t.controllers).Nodup := by
      intro hmem
      rw [h.stack, List.mem_reverse] at hmem
      exact List.nodup_cons.mpr ⟨hmem, h.nodup⟩
    have hstack : s.viewControllers ++ [viewController] =
        (viewController :: t.controllers).reverse := by
      rw [h.stack, List.reverse_cons]
    cases window with
    | none =>
      -- there is no picture of this page
      rw [screenShot, superPush] at hpush
      split_ifs at hpush with hmem
      refine iff_of_false (fun hmirrors => ?_) fun himp => ?_
      · have hshots := hmirrors.shots
        have hmem : none ∈ s'.screenshotImgs.reverse.map some := hshots ▸ List.mem_cons_self
        obtain ⟨_, -, heq⟩ := List.mem_map.mp hmem
        cases heq
      · have hanimates := himp hclass
        rw [animates, Option.isSome_none, Bool.and_false] at hanimates
        cases hanimates
    | some p =>
      rw [screenShot, superPush] at hpush
      split_ifs at hpush with hmem
      have hshots : some p :: t.below.map Prod.snd =
          (s.screenshotImgs ++ [p]).reverse.map some := by
        rw [h.shots, List.reverse_append]
        rfl
      cases animated with
      | true =>
        cases hpush
        exact iff_of_true ⟨hstack, hnew hmem, hshots, congrArg (· ++ [p]) h.array, h.removeCount⟩
          fun _ => rfl
      | false =>
        cases hpush
        refine iff_of_false (fun hmirrors => ?_) fun himp => Bool.noConfusion (himp hclass)
        -- the array lacks the picture
        have harray : s.animator.screenShotArray = s.screenshotImgs ++ [p] := hmirrors.array
        have hlength := congrArg List.length (h.array.symm.trans harray)
        rw [List.length_append, List.length_singleton] at hlength
        omega

/-! ### Runs -/

/-- A step mirrors the pages and shows the right picture iff its transition is as it should be. -/
theorem Mirrors.step_iff [DecidableEq ν] [DecidableEq κ] {classOf : ν → κ} (h : Mirrors s t)
    {e : Event ν π} {os : List (Option π)}
    (hstep : (machine classOf).step s e = some (s', os)) :
    (Mirrors s' (t.next classOf e) ∧ ∀ image ∈ os, image = t.picture e) ↔
      t.Animated classOf e := by
  cases e with
  | pushViewController viewController animated window =>
    obtain ⟨hpush, rfl⟩ := Machine.of_silent hstep
    rw [h.pushViewController_iff hpush]
    exact and_iff_left nofun
  | popViewController animated window =>
    have heq : s.popViewController animated window = (s', os) := Option.some.inj hstep
    have hpop := h.popViewController_iff animated window
    rw [heq] at hpop
    exact hpop
  | popToViewController viewController animated window => exact h.popToViewController_iff hstep
  | popToRootViewController animated window =>
    have heq : s.popToRootViewController animated window = (s', os) := Option.some.inj hstep
    have hpop := h.popToRootViewController_iff animated window
    rw [heq] at hpop
    exact hpop
  | dragBegin =>
    cases hstep
    refine iff_of_true ⟨h, fun image himage => ?_⟩ trivial
    split_ifs at himage
    · cases himage
    · rw [List.mem_singleton.mp himage]
      exact (h.picture 0).symm
  | dragEnd far =>
    cases hstep
    refine iff_of_true ⟨?_, nofun⟩ trivial
    cases far with
    | false =>
      rw [Bool.not_false, Bool.or_true, if_pos rfl]
      exact h
    | true =>
      rw [Bool.not_true, Bool.or_false]
      split_ifs with hroot
      · rw [h.atRoot_iff] at hroot
        have hsame : t.next classOf (.dragEnd true) = t := Pages.back_of_root hroot 1
        rw [hsame]
        exact h
      · refine h.dragEnd (List.length_pos_iff.mpr fun hnil => hroot ?_)
        rwa [h.atRoot_iff]

/-- In every run the two arrays mirror the pages below, and what the user is shown of the page to
    come is how it was left, iff controllers come and go by transitions and the way to the root has
    none. -/
theorem pictures_mirror_iff [DecidableEq ν] [DecidableEq κ] (classOf : ν → κ) (root : ν)
    (es : List (Event ν π)) :
    ((machine classOf).observe fun t _ e => Pages.next classOf t e).Always
        (fun s e s' os => Mirrors s'.1 s'.2 ∧ ∀ image ∈ os, image = s.2.picture e)
        (initWithRootViewController root, { top := root, below := [] }) es ↔
      ((machine classOf).observe fun t _ e => Pages.next classOf t e).Meets
        (fun s e => s.2.Animated classOf e)
        (initWithRootViewController root, { top := root, below := [] }) es := by
  have hexact : ∀ (s : KLTNavigationController ν π × Pages ν π) (e : Event ν π)
      (s' : KLTNavigationController ν π × Pages ν π) (os : List (Option π)), Mirrors s.1 s.2 →
      ((machine classOf).observe fun t _ e => Pages.next classOf t e).step s e = some (s', os) →
      ((Mirrors s'.1 s'.2 ∧ ∀ image ∈ os, image = s.2.picture e) ↔ s.2.Animated classOf e) := by
    rintro ⟨s, t⟩ e ⟨s', t'⟩ os h hstep
    obtain ⟨hs, rfl⟩ := Machine.observe_step.mp hstep
    exact h.step_iff hs
  refine Machine.always_iff_meets (I := fun s => Mirrors s.1 s.2) ?_ hexact es _ (mirrors_init root)
  exact fun s e s' os h hC hstep => ((hexact s e s' os h hstep).mpr hC).1

/-! ### Neighbours -/

theorem viewControllers_superPop (stack : List ν) (animated : Bool) (window : Option π) :
    (s.superPop stack animated window).1.viewControllers = stack := by
  rw [superPop]
  split_ifs <;> rfl

theorem viewControllers_superPush [DecidableEq ν] {viewController : ν} {animated : Bool}
    {window : Option π} (h : s.superPush viewController animated window = some s') :
    s'.viewControllers = s.viewControllers ++ [viewController] ∧
      viewController ∉ s.viewControllers := by
  rw [superPush] at h
  split_ifs at h with hmem
  refine ⟨?_, hmem⟩
  cases animated <;> cases window <;> cases h <;> rfl

theorem viewControllers_screenShot (window : Option π) (s : KLTNavigationController ν π) :
    (if 1 ≤ s.viewControllers.length then s.screenShot window else s).viewControllers =
      s.viewControllers := by
  split_ifs
  · cases window <;> rfl
  · rfl

/-- Seen from the top, `pushViewController:animated:` is `pushOnto`. -/
theorem reverse_pushViewController [DecidableEq ν] [DecidableEq κ] {classOf : ν → κ}
    {viewController : ν} {animated : Bool} {window : Option π}
    (h : s.pushViewController classOf viewController animated window = some s') :
    s'.viewControllers.reverse = pushOnto classOf viewController s.viewControllers.reverse := by
  rw [pushViewController] at h
  rw [pushOnto, List.head?_reverse]
  by_cases hclass : s.viewControllers.getLast?.map classOf = some (classOf viewController)
  · rw [if_pos hclass] at h ⊢
    cases h
    rfl
  · rw [if_neg hclass] at h ⊢
    rw [(viewControllers_superPush h).1, viewControllers_screenShot, List.reverse_append]
    rfl

theorem viewControllers_popViewController (animated : Bool) (window : Option π) :
    ∃ n, (s.popViewController animated window).1.viewControllers = s.viewControllers.take n := by
  simp only [popViewController]
  split_ifs
  · exact ⟨s.viewControllers.length, List.take_length.symm⟩
  · exact ⟨s.viewControllers.length, List.take_length.symm⟩
  · exact ⟨_, by rw [viewControllers_superPop, List.dropLast_eq_take]⟩
  · exact ⟨_, by rw [viewControllers_superPop, List.dropLast_eq_take]⟩

/-- A call cuts the stack or puts a controller of another class on it that is not there. -/
theorem viewControllers_step [DecidableEq ν] [DecidableEq κ] {classOf : ν → κ} {e : Event ν π}
    {os : List (Option π)} (hstep : (machine classOf).step s e = some (s', os)) :
    (∃ n, s'.viewControllers = s.viewControllers.take n) ∨
      ∃ viewController, s'.viewControllers = s.viewControllers ++ [viewController] ∧
        viewController ∉ s.viewControllers ∧
        s.viewControllers.getLast?.map classOf ≠ some (classOf viewController) := by
  have hall : ∃ n, s.viewControllers = s.viewControllers.take n :=
    ⟨s.viewControllers.length, List.take_length.symm⟩
  cases e with
  | pushViewController viewController animated window =>
    obtain ⟨hpush, -⟩ := Machine.of_silent hstep
    rw [pushViewController] at hpush
    by_cases hclass : s.viewControllers.getLast?.map classOf = some (classOf viewController)
    · rw [if_pos hclass] at hpush
      cases hpush
      exact .inl hall
    · rw [if_neg hclass] at hpush
      have hput := viewControllers_superPush hpush
      rw [viewControllers_screenShot] at hput
      exact .inr ⟨viewController, hput.1, hput.2, hclass⟩
  | popViewController animated window =>
    have heq : s.popViewController animated window = (s', os) := Option.some.inj hstep
    have hpop := viewControllers_popViewController (s := s) animated window
    rw [heq] at hpop
    exact .inl hpop
  | popToViewController viewController animated window =>
    have hpop : s.popToViewController viewController animated window = some (s', os) := hstep
    rw [popToViewController] at hpop
    simp only at hpop
    split_ifs at hpop with hmem htop
    · cases hpop
      exact .inl hall
    · have hstack := congrArg (fun p => p.1.viewControllers) (Option.some.inj hpop)
      simp only [viewControllers_superPop] at hstack
      refine .inl ⟨s.viewControllers.length - s.viewControllers.reverse.idxOf viewController, ?_⟩
      rw [← hstack, dropWhile_eq_drop_idxOf, List.reverse_drop, List.reverse_reverse,
        List.length_reverse]
  | popToRootViewController animated window =>
    have hpop : s.popToRootViewController animated window = (s', os) := Option.some.inj hstep
    rw [popToRootViewController] at hpop
    simp only at hpop
    split_ifs at hpop with hone
    · cases hpop
      exact .inl hall
    · have hstack := congrArg (fun p => p.1.viewControllers) hpop
      simp only [viewControllers_superPop] at hstack
      exact .inl ⟨1, hstack.symm⟩
  | dragBegin =>
    cases hstep
    exact .inl hall
  | dragEnd far =>
    cases hstep
    split_ifs
    · exact .inl hall
    · exact .inl (viewControllers_popViewController false none)

/-- No two neighbours on the stack are of one class, and no controller stands twice. -/
structure Apart (classOf : ν → κ) (s : KLTNavigationController ν π) : Prop where
  nodup : s.viewControllers.Nodup
  chain : s.viewControllers.IsChain fun a b => classOf a ≠ classOf b

/-- However often a screen is asked for, it never stands above one of its class: in every run. -/
theorem neighbours_apart [DecidableEq ν] [DecidableEq κ] (classOf : ν → κ) (root : ν)
    (es : List (Event ν π)) :
    (machine classOf).Always (fun _ _ s' _ => Apart classOf s')
      (initWithRootViewController root) es := by
  refine Machine.always_of_inv (I := Apart classOf) ?_ es _
    ⟨List.pairwise_singleton _ root, List.isChain_singleton root⟩
  intro s e s' os h hstep
  refine (and_self_iff.mpr ?_)
  rcases viewControllers_step hstep with ⟨n, hcut⟩ | ⟨viewController, hput, hmem, hclass⟩
  · refine ⟨?_, ?_⟩
    · rw [hcut]
      exact h.nodup.sublist (List.take_sublist n _)
    · rw [hcut]
      exact h.chain.take n
  · refine ⟨?_, ?_⟩
    · rw [hput]
      exact (List.perm_append_singleton viewController _).nodup_iff.mpr
        (List.nodup_cons.mpr ⟨hmem, h.nodup⟩)
    · rw [hput]
      refine h.chain.append (List.isChain_singleton _) fun a ha b hb heq => hclass ?_
      rw [ha, Option.map_some, heq]
      cases hb
      rfl

end LeYiDai.Navigation
