import LeYiDai.AFNetworking.Upload
import LeYiDai.Foundation.InputLimiters
import LeYiDai.Foundation.Numerals
import LeYiDai.Self.FeedBackViewController

/-! The feedback as it is sent: the text of the complaint, cut to 200 units while it is typed, and
    the pictures on the screen under numbered names. A cut through a pair of surrogates leaves a
    text without data, and the complaint is missing from what is sent.

        text, imageArray ──▶ custComplaint, userId, img1.jpg, img2.jpg, .. -/

namespace LeYiDai.FeedBack

open Failure (NSData)
open Multipart
open QueryString (isLeaf sortedEntries)

variable {δ α : Type*}

/-! ### RequestAPI -/

/-- `img%ld`, from 1. -/
def imageName (i : ℕ) : NSString := ns "img" ++ natDigits (i + 1)

/-- The request of `feedBackUploadMoreImage::Completion:`. -/
def feedBackUploadMoreImage (K : KeyOrder) (compare : NSString → NSString → Bool)
    (jpeg : δ → NSData) (r₁ r₂ : UInt32) (prmDic : List (NSString × Json))
    (arr : List (UIImage δ α)) : MultipartRequest :=
  uploadRequest K compare r₁ r₂ prmDic
    (photoAppends imageName (arr.map fun image => jpeg image.data)) NSIntegerMax

/-- Numbered names can stand in a header. -/
theorem quotable_imageName (i : ℕ) : Quotable (imageName i) := by
  have hdigit : ∀ u ∈ natDigits (i + 1), (isHighSurrogate u || isLowSurrogate u) = false ∧
      u ≠ 13 ∧ u ≠ 34 := by
    intro u hu
    have hrange := natDigits_all (i + 1) u hu
    simp only [isDigit, Bool.and_eq_true, decide_eq_true_eq, UInt16.le_iff_toNat_le,
      UInt16.reduceToNat] at hrange
    refine ⟨?_, ?_, ?_⟩
    · simp only [isHighSurrogate, isLowSurrogate, Bool.or_eq_false_iff, Bool.and_eq_false_iff,
        decide_eq_false_iff_not]
      omega
    · rintro rfl
      exact absurd hrange.1 (by decide)
    · rintro rfl
      exact absurd hrange.1 (by decide)
  have hdigits : Unbroken (natDigits (i + 1)) :=
    unbroken_of_forall fun u hu => ⟨(hdigit u hu).1, (hdigit u hu).2.1⟩
  have himg : Quotable (ns "img") := by decide
  obtain ⟨hsome, hbreak⟩ := himg.unbroken.append hdigits
  refine ⟨hsome, fun hmem => ?_, hbreak⟩
  rcases List.mem_append.mp hmem with hmem | hmem
  · exact himg.2.1 hmem
  · exact (hdigit 34 hmem).2.2 rfl

/-! ### The screen -/

/-- The screen with its text view, the label under it, and the pictures. -/
structure Screen (δ α : Type*) where
  text : NSString
  allLienceLab : NSString
  pictures : FeedBackViewController δ α

namespace Screen

def viewDidLoad : Screen δ α :=
  { text := [], allLienceLab := ns "0/200", pictures := .viewDidLoad }

/-- The parameters of `sureButtonClick`. -/
def parameters (userId : Json) (s : Screen δ α) : List (NSString × Json) :=
  [(ns "userId", userId), (ns "custComplaint", .str s.text)]

end Screen

inductive ScreenEvent (δ α : Type*) where
  | pictures (e : Event δ α)
  | textViewDidChange (typed : NSString)
  | sureButtonClick (userId : Json)

/-- The whole screen; what is sent comes out. Under the picker nothing is typed and nothing sent. -/
def screenMachine [DecidableEq δ] :
    Machine (Screen δ α) (ScreenEvent δ α) (List (NSString × Json) × List (UIImage δ α)) where
  step s
    | .pictures e => (machine.step s.pictures e).map fun p => ({ s with pictures := p.1 }, [])
    | .textViewDidChange typed =>
      let (text, allLienceLab) := textViewDidChange typed
      some (if s.pictures.picking then s else { s with text, allLienceLab }, [])
    | .sureButtonClick userId =>
      some (s, if s.pictures.picking then [] else [(s.parameters userId, s.pictures.imageArray)])

/-- What a server should find of a feedback. -/
def feedbackFields (compare : NSString → NSString → Bool) (jpeg : δ → NSData) (userId : Json)
    (text : NSString) (images : List (UIImage δ α)) : List FormField :=
  photoFields compare [(ns "userId", userId), (ns "custComplaint", .str text)] imageName
    (images.map fun image => jpeg image.data)

/-- The text fits its label, and no more pictures are shown than the picker hands back. -/
structure Limited (s : Screen δ α) : Prop where
  text_le : s.text.length ≤ 200
  label : s.allLienceLab = ns (toString s.text.length) ++ ns "/200"
  images_le : s.pictures.imageArray.length ≤ maxImagesCount

variable [DecidableEq δ] {s s' : Screen δ α}

omit [DecidableEq δ] in
theorem limited_viewDidLoad : Limited (Screen.viewDidLoad : Screen δ α) where
  text_le := Nat.zero_le _
  label := (by decide : ns "0/200" = ns (toString 0) ++ ns "/200")
  images_le := Nat.zero_le _

theorem length_textViewDidChange (typed : NSString) : (textViewDidChange typed).1.length ≤ 200 := by
  rw [textViewDidChange]
  dsimp only
  split_ifs with hlong
  · exact List.length_take_le 200 typed
  · exact Nat.le_of_not_lt hlong

omit [DecidableEq δ] in
theorem imageArray_of_didSelectItem {p p' : FeedBackViewController δ α} {index : ℕ}
    (h : p.didSelectItem index = some p') : p'.imageArray = p.imageArray := by
  rw [FeedBackViewController.didSelectItem] at h
  split_ifs at h
  · obtain ⟨url, -, rfl⟩ := Option.map_eq_some_iff.mp h
    rfl
  · cases h
    rfl
  · cases h
    rfl

theorem images_le_of_detImgButton {p p' : FeedBackViewController δ α} {index : ℕ}
    (h : p.detImgButton index = some p') : p'.imageArray.length ≤ p.imageArray.length := by
  rw [FeedBackViewController.detImgButton] at h
  split at h
  · split_ifs at h
    cases h
    exact List.length_filter_le _ _
  · cases h

theorem images_le_of_step {p p' : FeedBackViewController δ α} {e : Event δ α} {os : List Unit}
    (h : p.imageArray.length ≤ maxImagesCount) (hstep : machine.step p e = some (p', os)) :
    p'.imageArray.length ≤ maxImagesCount := by
  cases e with
  | didSelectItem index =>
    simp only [machine] at hstep
    split_ifs at hstep
    · rw [imageArray_of_didSelectItem (Machine.of_silent hstep).1]
      exact h
    · cases hstep
      exact h
  | detImgButton index =>
    simp only [machine] at hstep
    split_ifs at hstep
    · exact (images_le_of_detImgButton (Machine.of_silent hstep).1).trans h
    · cases hstep
      exact h
  | picked picks =>
    cases hstep
    split_ifs
    · exact picks.le_max
    · exact h
  | cancelled =>
    cases hstep
    exact h

theorem Limited.step (h : Limited s) {e : ScreenEvent δ α}
    {os : List (List (NSString × Json) × List (UIImage δ α))}
    (hstep : screenMachine.step s e = some (s', os)) : Limited s' := by
  cases e with
  | pictures e =>
    obtain ⟨⟨p, ps⟩, hp, heq⟩ := Option.map_eq_some_iff.mp hstep
    cases heq
    exact ⟨h.text_le, h.label, images_le_of_step h.images_le hp⟩
  | textViewDidChange typed =>
    cases hstep
    by_cases hpicking : s.pictures.picking = true
    · rw [if_pos hpicking]
      exact h
    · rw [if_neg hpicking]
      exact ⟨length_textViewDidChange typed, rfl, h.images_le⟩
  | sureButtonClick userId =>
    cases hstep
    exact h

/-- Whatever is sent in a run, the server finds the user's id, the complaint and the pictures on the
    screen, those that have data, exactly when the delimiter stands in none of them. -/
theorem feedback_received (jpeg : δ → NSData) (es : List (ScreenEvent δ α)) :
    screenMachine.Always (fun s e _ os => ∀ sent ∈ os, ∃ userId, e = .sureButtonClick userId ∧
      s.text.length ≤ 200 ∧ s.pictures.imageArray.length ≤ maxImagesCount ∧
      (isLeaf userId = true → ∀ D K compare r₁ r₂,
        feedbackFields compare jpeg userId s.text s.pictures.imageArray ≠ [] →
          Received D (AFCreateMultipartFormBoundary r₁ r₂)
            (feedBackUploadMoreImage K compare jpeg r₁ r₂ sent.1 sent.2)
            (feedbackFields compare jpeg userId s.text s.pictures.imageArray)))
      Screen.viewDidLoad es := by
  refine Machine.always_of_inv (I := Limited) ?_ es _ limited_viewDidLoad
  intro s e s' os h hstep
  refine ⟨h.step hstep, fun sent hsent => ?_⟩
  cases e with
  | pictures e =>
    obtain ⟨p, -, heq⟩ := Option.map_eq_some_iff.mp hstep
    cases heq
    cases hsent
  | textViewDidChange typed =>
    cases hstep
    cases hsent
  | sureButtonClick userId =>
    cases hstep
    split_ifs at hsent
    · cases hsent
    · obtain rfl := List.mem_singleton.mp hsent
      refine ⟨userId, rfl, h.text_le, h.images_le, fun hleaf D K compare r₁ r₂ hne => ?_⟩
      have hnames : Quotable (ns "userId") ∧ Quotable (ns "custComplaint") := by decide
      refine received_photos D K r₁ r₂ NSIntegerMax ?_ ?_ quotable_imageName hne
      · simpa [Screen.parameters, isLeaf] using hleaf
      · simpa [Screen.parameters] using hnames

/-! ### The complaint -/

/-- What is left of a text has data unless the cut leaves half a pair at its end. -/
theorem isSome_textViewDidChange {typed : NSString} (h : (characters typed).isSome) :
    (characters (textViewDidChange typed).1).isSome ↔
      ¬(200 < typed.length ∧ ∃ u, typed[199]? = some u ∧ isHighSurrogate u = true) := by
  rw [textViewDidChange]
  dsimp only
  split_ifs with hlong
  · have hlast : (typed.take 200).getLast? = typed[199]? := by
      rw [List.getLast?_eq_getElem?, List.length_take, Nat.min_eq_left hlong.le,
        List.getElem?_take_of_lt (by decide)]
    rw [isSome_characters_take h, hlast]
    simp [hlong]
  · simp [hlong, h]

omit [DecidableEq δ] in
/-- Only the complaint goes by its name. -/
theorem complaint_absent_iff (compare : NSString → NSString → Bool) (jpeg : δ → NSData)
    (userId : Json) (text : NSString) (images : List (UIImage δ α)) :
    (∀ field ∈ feedbackFields compare jpeg userId text images,
        field.name ≠ ns "custComplaint") ↔ (characters text).isSome = false := by
  have huser : ns "userId" ≠ ns "custComplaint" := by decide
  have hcomplaint : ∀ data, parameterData (.str text) = some data ↔
      dataUsingEncoding text = some data := fun _ => Iff.rfl
  constructor
  · intro hall
    by_contra hsome
    obtain ⟨cs, hcs⟩ := Option.isSome_iff_exists.mp ((Bool.not_eq_false _).mp hsome)
    refine hall
      { name := ns "custComplaint", fileName := none, contentType := none, data := utf8 cs } ?_ rfl
    refine List.mem_append_left _ (List.mem_filterMap.mpr
      ⟨(ns "custComplaint", .str text), QueryString.mem_sortedEntries.mpr (by simp), ?_⟩)
    have hdata : parameterData (.str text) = some (utf8 cs) :=
      (hcomplaint _).mpr (by rw [dataUsingEncoding, hcs, Option.map_some])
    rw [parameterField, hdata, Option.map_some]
  · intro hnone field hfield hname
    rcases List.mem_append.mp hfield with hfield | hfield
    · obtain ⟨e, he, hmap⟩ := List.mem_filterMap.mp hfield
      obtain ⟨data, hdata, rfl⟩ := Option.map_eq_some_iff.mp hmap
      rcases List.mem_cons.mp (QueryString.mem_sortedEntries.mp he) with rfl | he
      · exact huser hname
      · obtain rfl := List.mem_singleton.mp he
        rw [hcomplaint, dataUsingEncoding] at hdata
        obtain ⟨cs, hcs, -⟩ := Option.map_eq_some_iff.mp hdata
        rw [hcs] at hnone
        cases hnone
    · obtain ⟨i, hi, rfl⟩ := List.mem_mapIdx.mp hfield
      exact absurd (List.cons.inj hname).1 (by decide : (105 : UInt16) ≠ 99)

omit [DecidableEq δ] in
/-- Of a text without lone surrogates the complaint is missing from what is sent iff the cut leaves
    half a pair at its end. -/
theorem complaint_missing_iff {typed : NSString} (h : (characters typed).isSome)
    (compare : NSString → NSString → Bool) (jpeg : δ → NSData) (userId : Json)
    (images : List (UIImage δ α)) :
    (∀ field ∈ feedbackFields compare jpeg userId (textViewDidChange typed).1 images,
        field.name ≠ ns "custComplaint") ↔
      200 < typed.length ∧ ∃ u, typed[199]? = some u ∧ isHighSurrogate u = true := by
  rw [complaint_absent_iff, ← Bool.not_eq_true, isSome_textViewDidChange h, not_not]

/-- A hundred and ninety-nine letters and a face: the complaint is not sent. -/
theorem complaint_missing_face :
    ns "custComplaint" ∉
      (feedbackFields (fun _ _ => true) (fun n : ℕ => [UInt8.ofNat n]) (.num 7 (ns "7"))
        (textViewDidChange (List.replicate 199 97 ++ utf16 '😀')).1
        ([] : List (UIImage ℕ ℕ))).map FormField.name := by
  have hface : (characters (List.replicate 199 97 ++ utf16 '😀')).isSome :=
    isSome_characters_append (unbroken_of_forall fun u hu => by
      rw [List.eq_of_mem_replicate hu]
      decide).1 (by decide)
  intro hmem
  obtain ⟨field, hfield, hname⟩ := List.mem_map.mp hmem
  refine (complaint_missing_iff hface _ _ _ _).mpr ⟨?_, 0xD83D, ?_, by decide⟩ field hfield hname
  · rw [List.length_append, List.length_replicate]
    decide
  · rw [List.getElem?_append_right (by rw [List.length_replicate]), List.length_replicate]
    decide

end LeYiDai.FeedBack
