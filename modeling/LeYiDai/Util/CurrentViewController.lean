import LeYiDai.Lib.Descent

/-! LYDUtil: the search for the view controller in front. From the key window's root it follows
    the presented controller, otherwise the child a container shows: the last one of a split
    controller, the top of a navigation controller, the selected one of a tab controller. Alerts
    are presented on what it returns, and UIKit shows nothing when that presents already. -/

namespace LeYiDai

open StateTransition Relation

/-- The classes the search tells apart. -/
inductive ControllerClass where
  | viewController | splitViewController | navigationController | tabBarController
  deriving DecidableEq

/-- A view controller and what it holds, so a value is a finite tree. `presentedViewController` is
    what the property returns there; a tab controller whose `selectedIndex` is none of its tabs
    shows its More controller, if it has one. -/
structure ViewController where
  address : ℕ
  isa : ControllerClass
  presentedViewController : Option ViewController
  viewControllers : List ViewController
  selectedIndex : ℕ
  moreNavigationController : Option ViewController

namespace ViewController

def topViewController (vc : ViewController) : Option ViewController := vc.viewControllers.getLast?

def selectedViewController (vc : ViewController) : Option ViewController :=
  vc.viewControllers[vc.selectedIndex]?.or vc.moreNavigationController

/-- What a controller holds directly. -/
inductive Child : ViewController → ViewController → Prop
  | presented {vc w : ViewController} (h : vc.presentedViewController = some w) : Child vc w
  | contained {vc w : ViewController} (h : w ∈ vc.viewControllers) : Child vc w
  | more {vc w : ViewController} (h : vc.moreNavigationController = some w) : Child vc w

variable {vc w : ViewController}

theorem child_iff : Child vc w ↔ vc.presentedViewController = some w ∨ w ∈ vc.viewControllers ∨
    vc.moreNavigationController = some w := by
  constructor
  · rintro (h | h | h)
    · exact .inl h
    · exact .inr (.inl h)
    · exact .inr (.inr h)
  · rintro (h | h | h)
    · exact .presented h
    · exact .contained h
    · exact .more h

theorem child_of_top (h : vc.topViewController = some w) : Child vc w :=
  .contained (List.mem_of_getLast? h)

theorem child_of_selected (h : vc.selectedViewController = some w) : Child vc w := by
  rcases Option.or_eq_some_iff.mp h with htab | ⟨-, hmore⟩
  · exact .contained (List.mem_of_getElem? htab)
  · exact .more hmore

theorem Child.sizeOf_lt (h : Child vc w) : sizeOf w < sizeOf vc := by
  obtain ⟨_, _, presented, children, _, more⟩ := vc
  cases h with
  | presented h =>
    cases h
    simp only [mk.sizeOf_spec, Option.some.sizeOf_spec]
    omega
  | contained h =>
    have hmem := List.sizeOf_lt_of_mem h
    simp only [mk.sizeOf_spec] at hmem ⊢
    omega
  | more h =>
    cases h
    simp only [mk.sizeOf_spec, Option.some.sizeOf_spec]
    omega

/-- An argument of the search that is nil or a child. -/
theorem sizeOf_lt_of_child {o : Option ViewController} (h : ∀ w, o = some w → Child vc w) :
    sizeOf o < sizeOf (some vc) := by
  cases o with
  | none =>
    cases vc
    simp only [Option.none.sizeOf_spec, Option.some.sizeOf_spec, mk.sizeOf_spec]
    omega
  | some w =>
    have hlt := (h w rfl).sizeOf_lt
    simp only [Option.some.sizeOf_spec]
    omega

end ViewController

open ViewController

/-- `findBestViewController:`; a message to nil answers nil and is of no class. -/
def findBestViewController : Option ViewController → Option ViewController
  | none => none
  | some vc =>
    if vc.presentedViewController.isSome then
      findBestViewController vc.presentedViewController
    else if vc.isa = .splitViewController then
      if vc.viewControllers.length > 0 then
        -- `lastObject`, the right hand side
        findBestViewController vc.viewControllers.getLast?
      else
        some vc
    else if vc.isa = .navigationController then
      if vc.viewControllers.length > 0 then
        findBestViewController vc.topViewController
      else
        some vc
    else if vc.isa = .tabBarController then
      if vc.viewControllers.length > 0 then
        findBestViewController vc.selectedViewController
      else
        some vc
    else
      some vc
termination_by vc => sizeOf vc
decreasing_by
  · exact sizeOf_lt_of_child fun w h => .presented h
  · exact sizeOf_lt_of_child fun w h => child_of_top h
  · exact sizeOf_lt_of_child fun w h => child_of_top h
  · exact sizeOf_lt_of_child fun w h => child_of_selected h

structure UIWindow where
  rootViewController : Option ViewController

def currentViewController (keyWindow : Option UIWindow) : Option ViewController :=
  findBestViewController (keyWindow.bind UIWindow.rootViewController)

/-! ### The way to the front -/

namespace ViewController

/-- The child a container shows. -/
def visibleChild (vc : ViewController) : Option ViewController :=
  if vc.viewControllers = [] then none
  else match vc.isa with
    | .viewController => none
    | .splitViewController => vc.viewControllers.getLast?
    | .navigationController => vc.topViewController
    | .tabBarController => vc.selectedViewController

/-- The presented controller first, otherwise the visible child. -/
def next (vc : ViewController) : Option ViewController :=
  vc.presentedViewController.or vc.visibleChild

/-- What the search returns where the way ends: nil in a container that shows none of its
    children. -/
def stop (vc : ViewController) : Option ViewController :=
  if vc.isa = .viewController ∨ vc.viewControllers = [] then some vc else none

variable {vc w : ViewController}

theorem child_of_visible (h : vc.visibleChild = some w) : Child vc w := by
  unfold visibleChild at h
  split_ifs at h
  cases hisa : vc.isa <;> simp only [hisa] at h
  case viewController => cases h
  case splitViewController => exact child_of_top h
  case navigationController => exact child_of_top h
  case tabBarController => exact child_of_selected h

theorem child_of_next (h : vc.next = some w) : Child vc w := by
  rcases Option.or_eq_some_iff.mp h with hpresented | ⟨-, hvisible⟩
  · exact .presented hpresented
  · exact child_of_visible hvisible

theorem children_of_reaches {root : ViewController} (h : Reaches next root vc) :
    ReflTransGen Child root vc :=
  ReflTransGen.mono (fun _ _ => child_of_next) _ _ h

/-- Nothing further: nothing is presented, and only a tab controller has children and shows
    none. -/
theorem next_eq_none (h : vc.next = none) :
    vc.presentedViewController = none ∧ (vc.isa = .viewController ∨ vc.viewControllers = [] ∨
      vc.isa = .tabBarController ∧ vc.selectedViewController = none) := by
  obtain ⟨hpresented, hvisible⟩ := Option.or_eq_none_iff.mp h
  refine ⟨hpresented, ?_⟩
  unfold visibleChild at hvisible
  split_ifs at hvisible with hnil
  · exact .inr (.inl hnil)
  · cases hisa : vc.isa <;> simp only [hisa] at hvisible
    case viewController => exact .inl rfl
    case splitViewController => exact absurd (List.getLast?_eq_none_iff.mp hvisible) hnil
    case navigationController => exact absurd (List.getLast?_eq_none_iff.mp hvisible) hnil
    case tabBarController => exact .inr (.inr ⟨rfl, hvisible⟩)

end ViewController

theorem findBestViewController_elim (o : Option ViewController) :
    findBestViewController o = o.elim none fun w => findBestViewController (some w) := by
  cases o with
  | none => rw [findBestViewController, Option.elim_none]
  | some w => rfl

/-- One call of the search: it goes on to the next controller, or stops. -/
theorem findBestViewController_next (vc : ViewController) :
    findBestViewController (some vc) =
      vc.next.elim vc.stop fun w => findBestViewController (some w) := by
  rw [findBestViewController, next]
  cases hpresented : vc.presentedViewController with
  | some w => simp
  | none =>
    simp only [Option.isSome_none, Bool.false_eq_true, if_false, Option.none_or]
    by_cases hnil : vc.viewControllers = []
    · simp [hnil, visibleChild, stop]
    · have hpos : vc.viewControllers.length > 0 := List.length_pos_of_ne_nil hnil
      cases hisa : vc.isa <;>
        simp only [hisa, visibleChild, stop, hnil, hpos, reduceCtorEq, or_self, true_or, if_true,
          if_false]
      case viewController => rfl
      case splitViewController => exact findBestViewController_elim _
      case navigationController => exact findBestViewController_elim _
      case tabBarController => exact findBestViewController_elim _

/-- Where the search ends up. -/
theorem findBestViewController_end (root : ViewController) :
    ∃ vc, Reaches next root vc ∧ vc.next = none ∧ findBestViewController (some root) = vc.stop :=
  Descent.exists_end sizeOf (fun _ _ h => (child_of_next h).sizeOf_lt)
    findBestViewController_next root

/-- A tree of controllers in which a tab controller with tabs has one selected. -/
structure ControllerTree where
  root : ViewController
  selects : ∀ vc, ReflTransGen Child root vc → vc.isa = .tabBarController →
    vc.viewControllers ≠ [] → vc.selectedViewController.isSome

/-- The search returns the controller in front: one of the tree that presents nothing and contains
    nothing, at the end of the way from the root. -/
theorem findBestViewController_front (tree : ControllerTree) :
    ∃ vc, findBestViewController (some tree.root) = some vc ∧
      ReflTransGen Child tree.root vc ∧ vc.presentedViewController = none ∧
      (vc.isa = .viewController ∨ vc.viewControllers = []) ∧ Reaches next tree.root vc := by
  obtain ⟨vc, hreaches, hnext, hfind⟩ := findBestViewController_end tree.root
  obtain ⟨hpresented, hclass⟩ := next_eq_none hnext
  have hin := children_of_reaches hreaches
  have hleaf : vc.isa = .viewController ∨ vc.viewControllers = [] := by
    by_contra hne
    obtain ⟨hisa, hchildren⟩ := not_or.mp hne
    obtain ⟨htab, hselected⟩ := (hclass.resolve_left hisa).resolve_left hchildren
    have hsome := tree.selects vc hin htab hchildren
    rw [hselected] at hsome
    cases hsome
  refine ⟨vc, ?_, hin, hpresented, hleaf, hreaches⟩
  rw [hfind, stop, if_pos hleaf]

namespace ControllerTree

/-- A page, an alert, and a page that presents it. -/
def page : ViewController := ⟨1, .viewController, none, [], 0, none⟩
def alert : ViewController := ⟨2, .viewController, none, [], 0, none⟩
def alertingPage : ViewController := ⟨3, .viewController, some alert, [], 0, none⟩

/-- A navigation controller with the two pages, and a tab controller that has it selected. -/
def pageStack : ViewController := ⟨4, .navigationController, none, [page, alertingPage], 0, none⟩
def tabs : ViewController := ⟨5, .tabBarController, none, [page, pageStack], 1, none⟩

theorem mem_of_child_tabs (vc : ViewController) (h : ReflTransGen Child tabs vc) :
    vc ∈ [tabs, page, pageStack, alertingPage, alert] := by
  induction h with
  | refl => exact List.mem_cons_self
  | tail _ hchild ih =>
    rw [child_iff] at hchild
    simp only [List.mem_cons, List.not_mem_nil, or_false] at ih ⊢
    rcases ih with rfl | rfl | rfl | rfl | rfl
    · rcases hchild with h | h | h
      · cases h
      · rcases List.mem_pair.mp h with rfl | rfl <;> simp
      · cases h
    · simp [page] at hchild
    · rcases hchild with h | h | h
      · cases h
      · rcases List.mem_pair.mp h with rfl | rfl <;> simp
      · cases h
    · rcases hchild with h | h | h
      · cases h
        simp [alert]
      · cases h
      · cases h
    · simp [alert] at hchild

def tabTree : ControllerTree where
  root := tabs
  selects vc h htab _ := by
    have hmem := mem_of_child_tabs vc h
    simp only [List.mem_cons, List.not_mem_nil, or_false] at hmem
    rcases hmem with rfl | rfl | rfl | rfl | rfl
    · rfl
    all_goals cases htab

theorem findBestViewController_front_tabTree :
    (∃ vc, findBestViewController (some tabTree.root) = some vc ∧
      ReflTransGen Child tabTree.root vc ∧ vc.presentedViewController = none ∧
      (vc.isa = .viewController ∨ vc.viewControllers = []) ∧ Reaches next tabTree.root vc) ∧
    findBestViewController (some tabTree.root) = some alert :=
  ⟨findBestViewController_front tabTree, by
    simp [tabTree, tabs, pageStack, alertingPage, alert, findBestViewController,
      selectedViewController, topViewController]⟩

end ControllerTree

/-- Whatever is returned for the key window can present an alert. -/
theorem currentViewController_presents_nothing {keyWindow : Option UIWindow} {vc : ViewController}
    (h : currentViewController keyWindow = some vc) : vc.presentedViewController = none := by
  unfold currentViewController at h
  cases hroot : keyWindow.bind UIWindow.rootViewController with
  | none =>
    rw [hroot, findBestViewController] at h
    cases h
  | some root =>
    obtain ⟨w, -, hnext, hfind⟩ := findBestViewController_end root
    rw [hroot, hfind, stop] at h
    split_ifs at h
    cases h
    exact (next_eq_none hnext).1

end LeYiDai
