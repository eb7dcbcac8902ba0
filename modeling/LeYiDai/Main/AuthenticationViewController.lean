import LeYiDai.AFNetworking.Upload
import LeYiDai.Lib.Machine

/-! AuthenticationViewController: the two pictures of an identity card. A tap on a side opens the
    camera, the picture goes to the side tapped last, and the button sends both.

        tap ──▶ selectInteger ──▶ camera ──▶ image, topData or fanData ──▶ nextBut.enabled
        nextBut ──▶ uploadMoreImage ──▶ userId, front.jpg, back.jpg -/

namespace LeYiDai

open Failure (NSData)

/-! ### RequestAPI -/

namespace Upload

open Multipart
open QueryString (isLeaf sortedEntries)

/-- The name of picture number `i`. -/
def cardName (i : ℕ) : NSString := if i = 0 then ns "front" else ns "back"

/-- The request of `uploadMoreImage:UrlString::Completion:`. -/
def uploadMoreImage (K : KeyOrder) (compare : NSString → NSString → Bool) (r₁ r₂ : UInt32)
    (userId : Json) (arr : List NSData) : MultipartRequest :=
  uploadRequest K compare r₁ r₂ [(ns "userId", userId)] (photoAppends cardName arr) NSIntegerMax

/-- What a server should find of an identity card. -/
def cardFields (userId : Json) (front back : NSData) : List FormField :=
  (parameterField (ns "userId") userId).toList ++
    [photoField (ns "front") front, photoField (ns "back") back]

theorem quotable_cardName (i : ℕ) : Quotable (cardName i) := by
  rw [cardName]
  split_ifs <;> decide

theorem received_uploadMoreImage (D : DataStreams) (K : KeyOrder)
    (compare : NSString → NSString → Bool) (r₁ r₂ : UInt32) {userId : Json}
    (hleaf : isLeaf userId = true) (front back : NSData) :
    Received D (AFCreateMultipartFormBoundary r₁ r₂)
      (uploadMoreImage K compare r₁ r₂ userId [front, back]) (cardFields userId front back) := by
  have hfields : cardFields userId front back =
      photoFields compare [(ns "userId", userId)] cardName [front, back] := by
    rw [photoFields, sortedEntries, List.mergeSort_singleton, List.filterMap_cons,
      List.filterMap_nil, cardFields]
    dsimp only
    cases parameterField (ns "userId") userId <;> rfl
  have hname : Quotable (ns "userId") := by decide
  rw [hfields]
  refine received_photos D K r₁ r₂ NSIntegerMax (by simpa using hleaf) (by simpa using hname)
    quotable_cardName ?_
  rw [← hfields]
  exact List.append_ne_nil_of_right_ne_nil _ (List.cons_ne_nil _ _)

end Upload

/-! ### The screen -/

namespace Authentication

open Multipart Upload

/-- The two image views of the screen. -/
inductive Side where | front | back
  deriving DecidableEq

def Side.tag : Side → ℕ
  | .front => 1
  | .back => 2

/-- What `tapClick:` finds of the camera. -/
inductive Camera where | denied | available | missing
  deriving DecidableEq

/-- The images stand in the two views, `picking` says that the camera lies above the screen. -/
structure AuthenticationViewController (ι : Type*) where
  selectInteger : ℕ
  topImage : Option ι
  fanImage : Option ι
  topData : Option NSData
  fanData : Option NSData
  nextButEnabled : Bool
  picking : Bool

namespace AuthenticationViewController

variable {ι : Type*}

def viewDidLoad : AuthenticationViewController ι :=
  { selectInteger := 0
    topImage := none
    fanImage := none
    topData := none
    fanData := none
    nextButEnabled := false
    picking := false }

def tapClick (side : Side) (camera : Camera) (s : AuthenticationViewController ι) :
    AuthenticationViewController ι :=
  { s with selectInteger := side.tag, picking := camera = .available }

/-- `[self.centerView viewWithTag:self.selectInteger].image = image`, which raises for the tag 0 of
    `centerView` itself, and is said to nil where there is no such view. -/
def setImage (image : Option ι) (s : AuthenticationViewController ι) :
    Option (AuthenticationViewController ι) :=
  match s.selectInteger with
  | 0 => none
  | 1 => some { s with topImage := image }
  | 2 => some { s with fanImage := image }
  | _ => some s

/-- `imagePickerController:didFinishPickingMediaWithInfo:`. -/
def didFinishPickingMedia (jpeg : ι → Option NSData) (image : Option ι)
    (s : AuthenticationViewController ι) : Option (AuthenticationViewController ι) :=
  (s.setImage image).map fun s =>
    let imgData := image.bind jpeg
    let s := { s with picking := false }
    let s :=
      if s.selectInteger = 1 then { s with topData := imgData } else { s with fanData := imgData }
    { s with nextButEnabled := s.topData.isSome && s.fanData.isSome }

/-- `nextButtonClick`: what is sent. An array literal with nil in it raises. -/
def nextButtonClick (userId : Json) (s : AuthenticationViewController ι) :
    Option (Json × List NSData) :=
  s.topData.bind fun topData => s.fanData.map fun fanData =>
    (emptyIfNil (some userId), [topData, fanData])

end AuthenticationViewController

open AuthenticationViewController

/-- A reply shows a message or another screen on top, and is left out. -/
inductive Event (ι : Type*) where
  | tapClick (side : Side) (camera : Camera)
  | didFinishPickingMedia (image : Option ι)
  | imagePickerControllerDidCancel
  | nextButtonClick (userId : Json)

variable {ι : Type*}

/-- The screen and the camera. Under the camera nothing is touched, only an open camera returns
    anything, and a disabled button does nothing. -/
def machine (jpeg : ι → Option NSData) :
    Machine (AuthenticationViewController ι) (Event ι) (Json × List NSData) where
  step s
    | .tapClick side camera => some (if s.picking then s else s.tapClick side camera, [])
    | .didFinishPickingMedia image =>
      if s.picking then (s.didFinishPickingMedia jpeg image).map (·, []) else some (s, [])
    | .imagePickerControllerDidCancel => some ({ s with picking := false }, [])
    | .nextButtonClick userId =>
      if s.nextButEnabled && !s.picking then (s.nextButtonClick userId).map fun sent => (s, [sent])
      else some (s, [])

/-- The data are those of the images on the screen, and the button is on when there are both. -/
structure Shown (jpeg : ι → Option NSData) (s : AuthenticationViewController ι) : Prop where
  topData : s.topData = s.topImage.bind jpeg
  fanData : s.fanData = s.fanImage.bind jpeg
  enabled : s.nextButEnabled = (s.topData.isSome && s.fanData.isSome)
  selected : s.picking = true → s.selectInteger = 1 ∨ s.selectInteger = 2

variable {jpeg : ι → Option NSData} {s s' : AuthenticationViewController ι}

theorem shown_viewDidLoad : Shown jpeg (viewDidLoad : AuthenticationViewController ι) :=
  ⟨rfl, rfl, rfl, nofun⟩

/-- A picture goes to its side. -/
theorem Shown.picked (h : Shown jpeg s) (hpicking : s.picking = true) (image : Option ι) :
    ∃ s', s.didFinishPickingMedia jpeg image = some s' ∧ Shown jpeg s' := by
  rcases h.selected hpicking with hone | htwo
  · refine ⟨{ s with
        topImage := image
        topData := image.bind jpeg
        nextButEnabled := (image.bind jpeg).isSome && s.fanData.isSome
        picking := false }, ?_, rfl, h.fanData, rfl, nofun⟩
    simp [AuthenticationViewController.didFinishPickingMedia, setImage, hone]
  · refine ⟨{ s with
        fanImage := image
        fanData := image.bind jpeg
        nextButEnabled := s.topData.isSome && (image.bind jpeg).isSome
        picking := false }, ?_, h.topData, rfl, rfl, nofun⟩
    simp [AuthenticationViewController.didFinishPickingMedia, setImage, htwo]

/-- What leaves is the data of the two images on the screen. -/
def SendsShown (jpeg : ι → Option NSData) (s : AuthenticationViewController ι) (e : Event ι)
    (os : List (Json × List NSData)) : Prop :=
  ∀ sent ∈ os, ∃ userId front back, e = .nextButtonClick userId ∧
    s.topImage.bind jpeg = some front ∧ s.fanImage.bind jpeg = some back ∧
    sent = (emptyIfNil (some userId), [front, back])

/-- No step raises, and every step keeps the data those of the images. -/
theorem Shown.step (h : Shown jpeg s) (e : Event ι) :
    ∃ s' os, (machine jpeg).step s e = some (s', os) ∧ Shown jpeg s' ∧ SendsShown jpeg s e os := by
  have hnothing : SendsShown jpeg s e [] := fun _ hmem => nomatch hmem
  cases e with
  | tapClick side camera =>
    refine ⟨_, [], rfl, ?_, hnothing⟩
    split_ifs
    · exact h
    · exact ⟨h.topData, h.fanData, h.enabled, fun _ => by cases side <;> simp [tapClick, Side.tag]⟩
  | didFinishPickingMedia image =>
    cases hpicking : s.picking with
    | true =>
      obtain ⟨s', hpicked, hshown⟩ := h.picked hpicking image
      exact ⟨s', [], by simp [machine, hpicking, hpicked], hshown, hnothing⟩
    | false => exact ⟨s, [], by simp [machine, hpicking], h, hnothing⟩
  | imagePickerControllerDidCancel =>
    exact ⟨_, [], rfl, ⟨h.topData, h.fanData, h.enabled, nofun⟩, hnothing⟩
  | nextButtonClick userId =>
    by_cases hon : (s.nextButEnabled && !s.picking) = true
    · have hboth := (Bool.and_eq_true_iff.mp hon).1
      rw [h.enabled, Bool.and_eq_true] at hboth
      obtain ⟨front, hfront⟩ := Option.isSome_iff_exists.mp hboth.1
      obtain ⟨back, hback⟩ := Option.isSome_iff_exists.mp hboth.2
      refine ⟨s, [(emptyIfNil (some userId), [front, back])], ?_, h, ?_⟩
      · simp only [machine, if_pos hon, AuthenticationViewController.nextButtonClick, hfront, hback,
          Option.bind_some, Option.map_some]
      · intro sent hsent
        rw [List.mem_singleton.mp hsent]
        exact ⟨userId, front, back, rfl, h.topData ▸ hfront, h.fanData ▸ hback, rfl⟩
    · exact ⟨s, [], by simp only [machine, if_neg hon], h, hnothing⟩

/-- In every run nothing raises, and whatever is sent the server finds the pictures of the two
    images on the screen behind the user's id, exactly when the delimiter stands in none of them. -/
theorem card_received (jpeg : ι → Option NSData) (es : List (Event ι)) :
    ((machine jpeg).run viewDidLoad es).isSome ∧
      (machine jpeg).Always (fun s e _ os => ∀ sent ∈ os, ∃ userId front back,
        e = .nextButtonClick userId ∧
          s.topImage.bind jpeg = some front ∧ s.fanImage.bind jpeg = some back ∧
          (QueryString.isLeaf userId = true → ∀ D K compare r₁ r₂,
            Received D (AFCreateMultipartFormBoundary r₁ r₂)
              (uploadMoreImage K compare r₁ r₂ sent.1 sent.2)
              (cardFields (emptyIfNil (some userId)) front back))) viewDidLoad es := by
  refine Machine.safe_of_inv (I := Shown jpeg) ?_ es viewDidLoad shown_viewDidLoad
  intro s e hshown
  obtain ⟨s', os, hstep, hnext, hsends⟩ := hshown.step e
  refine ⟨s', os, hstep, hnext, fun sent hsent => ?_⟩
  obtain ⟨userId, front, back, he, hfront, hback, rfl⟩ := hsends sent hsent
  refine ⟨userId, front, back, he, hfront, hback, fun hleaf D K compare r₁ r₂ => ?_⟩
  refine received_uploadMoreImage D K compare r₁ r₂ ?_ front back
  cases userId <;> first | rfl | exact hleaf

end Authentication

end LeYiDai
