import LeYiDai.Lib.Machine
import Mathlib.Data.List.Basic

/-! FeedBackViewController: the pictures of a complaint. Three arrays hold what the picker returned;
    the picker sets all three, the delete button of a picture takes every equal image out of the
    first and one place out of the second, and nothing takes anything out of the third.

        picker       imageArray, pubPicAssetArr, srcStringArray := photos, assets, photos
        delete i     imageArray by value, pubPicAssetArr by place
        tap          three pictures: the preview; otherwise the last cell opens the picker -/

namespace LeYiDai.FeedBack

variable {δ α : Type*}

/-- An image the picker made from an asset. `isEqual:` looks at the data only. -/
structure UIImage (δ α : Type*) where
  data : δ
  asset : α
  deriving DecidableEq

/-- `initWithMaxImagesCount:9`. -/
def maxImagesCount : ℕ := 9

/-- What the picker hands back: the photos, each with its asset. -/
structure Picked (δ α : Type*) where
  photos : List (UIImage δ α)
  le_max : photos.length ≤ maxImagesCount

/-- `picking` while the picker lies above the screen. -/
structure FeedBackViewController (δ α : Type*) where
  imageArray : List (UIImage δ α)
  pubPicAssetArr : List α
  srcStringArray : List (UIImage δ α)
  picking : Bool
  deriving DecidableEq

namespace FeedBackViewController

def viewDidLoad : FeedBackViewController δ α :=
  { imageArray := [], pubPicAssetArr := [], srcStringArray := [], picking := false }

/-- `collectionView:numberOfItemsInSection:`. -/
def numberOfItems (s : FeedBackViewController δ α) : ℕ :=
  if s.imageArray.length = 3 then 3 else s.imageArray.length + 1

/-- `detImgButton:` of the cell at `index`. -/
def detImgButton [DecidableEq δ] (index : ℕ) (s : FeedBackViewController δ α) :
    Option (FeedBackViewController δ α) :=
  match s.imageArray[index]? with
  | some image =>
    if index < s.pubPicAssetArr.length then
      some { s with
        imageArray := s.imageArray.filter (·.data ≠ image.data)
        pubPicAssetArr := s.pubPicAssetArr.eraseIdx index }
    else none
  | none => none

/-- `photoBrowser:highQualityImageURLForIndex:`. The elements are images, which have no
    `stringByReplacingOccurrencesOfString:withString:`; past the end nil answers nil. -/
def highQualityImageURLForIndex (index : ℕ) (s : FeedBackViewController δ α) :
    Option (Option (List UInt16)) :=
  match s.srcStringArray[index]? with
  | some _ => none
  | none => some none

/-- `showBigImage:`: the browser asks for the URL of the picture it opens at. -/
def showBigImage (index : ℕ) (s : FeedBackViewController δ α) :
    Option (FeedBackViewController δ α) :=
  (s.highQualityImageURLForIndex index).map fun _ => s

/-- `collectionView:didSelectItemAtIndexPath:`. -/
def didSelectItem (index : ℕ) (s : FeedBackViewController δ α) :
    Option (FeedBackViewController δ α) :=
  if s.imageArray.length = 3 then s.showBigImage index
  else if index = s.imageArray.length then some { s with picking := true }
  else some s

/-- The block of `chousePiack`. -/
def didFinishPickingPhotos (p : Picked δ α) : FeedBackViewController δ α :=
  { imageArray := p.photos
    pubPicAssetArr := p.photos.map (·.asset)
    srcStringArray := p.photos
    picking := false }

end FeedBackViewController

open FeedBackViewController

inductive Event (δ α : Type*) where
  | didSelectItem (index : ℕ)
  | detImgButton (index : ℕ)
  | picked (p : Picked δ α)
  | cancelled

/-- The picture at `index` is on the screen, under its delete button. -/
def Shown (s : FeedBackViewController δ α) (index : ℕ) : Prop :=
  s.picking = false ∧ index < s.imageArray.length

instance (s : FeedBackViewController δ α) (index : ℕ) : Decidable (Shown s index) :=
  inferInstanceAs (Decidable (_ ∧ _))

/-- The screen with its cells and the picker. What is not on the screen cannot be touched, and only
    an open picker returns anything. -/
def machine [DecidableEq δ] : Machine (FeedBackViewController δ α) (Event δ α) Unit where
  step s
    | .didSelectItem index =>
      if s.picking = false ∧ index < s.numberOfItems then
        (s.didSelectItem index).map (·, []) else some (s, [])
    | .detImgButton index =>
      if Shown s index then (s.detImgButton index).map (·, []) else some (s, [])
    | .picked p => some (if s.picking then didFinishPickingPhotos p else s, [])
    | .cancelled => some ({ s with picking := false }, [])

/-! ### What the three arrays have to do with each other -/

/-- At most three pictures, and entry by entry the three arrays come from one photo. -/
structure Aligned (s : FeedBackViewController δ α) : Prop where
  le_three : s.imageArray.length ≤ 3
  assets : s.pubPicAssetArr = s.imageArray.map (·.asset)
  sources : s.srcStringArray.map (·.asset) = s.imageArray.map (·.asset)

/-- The arrays stay aligned, and a deletion takes its own entry out of each. -/
def KeepsAligned (s : FeedBackViewController δ α) (e : Event δ α)
    (s' : FeedBackViewController δ α) (_ : List Unit) : Prop :=
  Aligned s' ∧ ∀ index, e = .detImgButton index → Shown s index →
    s'.imageArray = s.imageArray.eraseIdx index ∧
      s'.pubPicAssetArr = s.pubPicAssetArr.eraseIdx index ∧
      s'.srcStringArray = s.srcStringArray.eraseIdx index

/-- What keeps them so: no shown picture is deleted, the picker returns at most three photos, and
    none of three pictures is tapped. -/
def Untouched (s : FeedBackViewController δ α) : Event δ α → Prop
  | .didSelectItem index => ¬(Shown s index ∧ s.imageArray.length = 3)
  | .detImgButton index => ¬Shown s index
  | .picked p => s.picking = true → p.photos.length ≤ 3
  | .cancelled => True

variable {s s' : FeedBackViewController δ α} {index : ℕ}

theorem Aligned.lengths (h : Aligned s) :
    s.pubPicAssetArr.length = s.imageArray.length ∧
      s.srcStringArray.length = s.imageArray.length := by
  have hsources := congrArg List.length h.sources
  rw [h.assets]
  simpa using hsources

/-- Deleting a shown picture leaves the third array too long. -/
theorem Aligned.not_deleted [DecidableEq δ] (h : Aligned s) (hi : index < s.imageArray.length) :
    ∃ s', s.detImgButton index = some s' ∧ ¬Aligned s' := by
  have hassets := h.lengths.1
  refine ⟨{ s with
      imageArray := s.imageArray.filter (·.data ≠ (s.imageArray[index]).data)
      pubPicAssetArr := s.pubPicAssetArr.eraseIdx index }, ?_, fun h' => ?_⟩
  · simp [detImgButton, hassets, hi]
  · have hlength : s.srcStringArray.length =
        (s.imageArray.filter (·.data ≠ (s.imageArray[index]).data)).length := h'.lengths.2
    have hlt : (s.imageArray.filter (·.data ≠ (s.imageArray[index]).data)).length <
        s.imageArray.length := by
      refine List.length_filter_lt_length_iff_exists.mpr ⟨_, List.getElem_mem hi, by simp⟩
    have hsources := h.lengths.2
    omega

/-- Opening the preview of a picture raises. -/
theorem Aligned.preview_raises (h : Aligned s) (hi : index < s.imageArray.length) :
    s.showBigImage index = none := by
  have hsources := h.lengths.2
  have hsome : s.srcStringArray[index]? = some s.srcStringArray[index] :=
    List.getElem?_eq_getElem (by omega)
  simp [showBigImage, highQualityImageURLForIndex, hsome]

theorem aligned_picked {p : Picked δ α} :
    Aligned (didFinishPickingPhotos p) ↔ p.photos.length ≤ 3 :=
  ⟨fun h => h.le_three, fun h => ⟨h, rfl, rfl⟩⟩

/-! ### Runs -/

variable [DecidableEq δ] {e : Event δ α}

omit [DecidableEq δ] in
theorem keepsAligned_iff (he : ∀ index, e ≠ .detImgButton index) {os : List Unit} :
    KeepsAligned s e s' os ↔ Aligned s' :=
  ⟨fun h => h.1, fun h => ⟨h, fun index hi => absurd hi (he index)⟩⟩

theorem safe_step_iff {s₁ : FeedBackViewController δ α} (h : machine.step s e = some (s₁, [])) :
    ((machine.step s e).isSome ∧
      ∀ s' os, machine.step s e = some (s', os) → KeepsAligned s e s' os) ↔
        KeepsAligned s e s₁ [] := by
  rw [h]
  constructor
  · exact fun hk => hk.2 s₁ [] rfl
  · rintro hk
    refine ⟨rfl, fun s' os heq => ?_⟩
    cases heq
    exact hk

/-- A tap on three pictures opens the preview, which raises; any other tap opens the picker at
    most. -/
theorem step_didSelectItem (h : Aligned s) (index : ℕ) :
    (Shown s index ∧ s.imageArray.length = 3 ∧ machine.step s (.didSelectItem index) = none) ∨
      ¬(Shown s index ∧ s.imageArray.length = 3) ∧
        ∃ picking, machine.step s (.didSelectItem index) = some ({ s with picking }, []) := by
  by_cases hthree : s.imageArray.length = 3
  · have hitems : s.numberOfItems = s.imageArray.length := by
      rw [numberOfItems, if_pos hthree, hthree]
    by_cases hshown : Shown s index
    · left
      have hlt : index < 3 := hthree ▸ hshown.2
      refine ⟨hshown, hthree, ?_⟩
      simp [machine, hitems, hshown.1, hlt, didSelectItem, hthree, h.preview_raises hshown.2]
    · right
      refine ⟨fun hnot => hshown hnot.1, s.picking, ?_⟩
      have hout : ¬(s.picking = false ∧ index < s.imageArray.length) := hshown
      simp only [machine, hitems, if_neg hout]
  · right
    refine ⟨fun hnot => hthree hnot.2, ?_⟩
    simp only [machine, didSelectItem, if_neg hthree]
    split_ifs
    · exact ⟨true, rfl⟩
    · exact ⟨s.picking, rfl⟩
    · exact ⟨s.picking, rfl⟩

/-- From aligned arrays a step completes and keeps them aligned iff it is one of the harmless
    ones. -/
theorem untouched_iff (h : Aligned s) :
    Untouched s e ↔ (machine.step s e).isSome ∧
      ∀ s' os, machine.step s e = some (s', os) → KeepsAligned s e s' os := by
  cases e with
  | didSelectItem index =>
    rcases step_didSelectItem h index with ⟨hshown, hthree, hraises⟩ | ⟨hnot, picking, hstep⟩
    · rw [hraises]
      exact iff_of_false (fun hnot => hnot ⟨hshown, hthree⟩) (by simp)
    · rw [safe_step_iff hstep, keepsAligned_iff (by simp)]
      exact iff_of_true hnot ⟨h.le_three, h.assets, h.sources⟩
  | detImgButton index =>
    by_cases hshown : Shown s index
    · obtain ⟨s₁, hs₁, hnot⟩ := h.not_deleted hshown.2
      have hstep : machine.step s (.detImgButton index) = some (s₁, []) := by
        simp [machine, hshown, hs₁]
      rw [safe_step_iff hstep]
      exact iff_of_false (fun hnone => hnone hshown) fun hk => hnot hk.1
    · have hstep : machine.step s (.detImgButton index) = some (s, []) := by
        simp [machine, hshown]
      rw [safe_step_iff hstep]
      refine iff_of_true hshown ⟨h, fun i hi hs => ?_⟩
      cases hi
      exact absurd hs hshown
  | picked p =>
    have hstep : machine.step s (.picked p) =
      some (if s.picking then didFinishPickingPhotos p else s, []) := rfl
    rw [safe_step_iff hstep, keepsAligned_iff (by simp), Untouched]
    cases hpicking : s.picking with
    | true => simp [aligned_picked]
    | false => simp [h]
  | cancelled =>
    have hstep : machine.step s .cancelled = some ({ s with picking := false }, []) := rfl
    rw [safe_step_iff hstep, keepsAligned_iff (by simp)]
    exact iff_of_true trivial ⟨h.le_three, h.assets, h.sources⟩

/-- In a run nothing raises and the arrays stay aligned throughout iff no shown picture is deleted,
    no result of the picker has more than three photos, and none of three pictures is tapped. -/
theorem pictures_aligned_iff (es : List (Event δ α)) :
    (machine.run viewDidLoad es).isSome ∧ machine.Always KeepsAligned viewDidLoad es ↔
      machine.Attempts Untouched viewDidLoad es :=
  Machine.safe_iff_attempts (I := Aligned) (fun _ _ _ _ _ h => h.1) (fun _ _ h => untouched_iff h)
    es viewDidLoad ⟨by simp [viewDidLoad], rfl, rfl⟩

/-- Two photos of equal data, the first deleted: no image, one asset and two sources are left. -/
theorem pictures_astray :
    let es : List (Event ℕ ℕ) := [.didSelectItem 0, .picked ⟨[⟨7, 0⟩, ⟨7, 1⟩], by decide⟩,
      .detImgButton 0]
    ¬((machine.run viewDidLoad es).isSome ∧ machine.Always KeepsAligned viewDidLoad es) := by
  rintro es ⟨-, halways⟩
  have hdeleted := (((halways _ _ rfl).2 _ _ rfl).2 _ _ rfl).1.1
  exact absurd hdeleted.lengths.2 (by decide)

end LeYiDai.FeedBack
