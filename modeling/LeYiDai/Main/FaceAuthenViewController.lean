import LeYiDai.Foundation.Encoding
import LeYiDai.Lib.Machine
import LeYiDai.Util.FailureMessage

/-! FaceAuthenViewController: a live face, from the camera of the sheet to the server. A verdict
    comes on a thread of its own and its image goes into the request at once; the main queue puts it
    on the button, enables the next button and only then ends the sheet.

        frame ──▶ verdict ──▶ IDFACELIVE ──▶ base64ImageStr ──▶ useFaceRecognition
                     │            └── main queue ──▶ faceBut, nextBut.enabled
                     └── main queue ──▶ closeAction -/

namespace LeYiDai.FaceAuthen

open Failure (NSData)

variable {ι : Type*}

/-- The sheet on the screen. `capturing` says that its camera has a delegate. -/
structure LivenessViewController where
  id : ℕ
  hasFinished : Bool
  capturing : Bool

/-- What waits on the main queue: the image of a notification, or the end of a sheet. -/
inductive Block (ι : Type*) where
  | setImage (img : Option ι)
  | dismiss (sheet : ℕ)

/-- The verdicts on a frame. All but two only change the labels of the sheet. -/
inductive LivenessRemindCode where
  | ok (bestImage : Option (List NSString))
  | timeout
  | other

/-- The screen, the sheet above it, the sheets whose frames are still judged, and the main queue. -/
structure FaceAuthenViewController (ι : Type*) where
  base64ImageStr : Option NSString
  faceButImage : Option ι
  nextButEnabled : Bool
  liveness : Option LivenessViewController
  sheets : ℕ
  judging : List ℕ
  mainQueue : List (Block ι)

namespace FaceAuthenViewController

def viewDidLoad : FaceAuthenViewController ι :=
  { base64ImageStr := none
    faceButImage := none
    nextButEnabled := false
    liveness := none
    sheets := 0
    judging := []
    mainQueue := [] }

/-- `notificationClick:`. -/
def notificationClick (jpeg : ι → Option NSData) (img : Option ι) (s : FaceAuthenViewController ι) :
    FaceAuthenViewController ι :=
  let imgData := img.bind jpeg
  { s with
    base64ImageStr := imgData.map base64EncodedString
    mainQueue := s.mainQueue ++ [.setImage img] }

/-- The dictionary that `nextButtonClick` sends. A dictionary literal with nil in it raises. -/
def nextButtonClick (userId : Json) (s : FaceAuthenViewController ι) :
    Option (List (NSString × Json)) :=
  s.base64ImageStr.map fun base64 => [(ns "base64Image", .str base64), (ns "userId", userId)]

def faceButClick (s : FaceAuthenViewController ι) : FaceAuthenViewController ι :=
  { s with
    liveness := some { id := s.sheets, hasFinished := false, capturing := true }
    sheets := s.sheets + 1 }

/-- A change to the sheet, if it is the one on the screen. -/
def onSheet (sheet : ℕ) (f : LivenessViewController → LivenessViewController)
    (s : FaceAuthenViewController ι) : FaceAuthenViewController ι :=
  { s with liveness := s.liveness.map fun l => if l.id = sheet then f l else l }

/-- `captureOutputSampleBuffer:` and the start of `faceProcesss:`. -/
def captureOutput (s : FaceAuthenViewController ι) : FaceAuthenViewController ι :=
  match s.liveness with
  | some l =>
    if l.capturing && !l.hasFinished then { s with judging := s.judging ++ [l.id] } else s
  | none => s

/-- `setHasFinished:YES` ends the capture for good. -/
def finish (l : LivenessViewController) : LivenessViewController :=
  { l with hasFinished := true, capturing := false }

/-- The completion handler of `faceProcesss:`, for a frame of the given sheet. -/
def livenessCompletion (decodeImage : NSString → Option ι) (jpeg : ι → Option NSData) (sheet : ℕ)
    (remindCode : LivenessRemindCode) (s : FaceAuthenViewController ι) :
    FaceAuthenViewController ι :=
  match remindCode with
  | .ok bestImage =>
    let s := s.onSheet sheet finish
    let s := match bestImage.bind List.getLast? with
      | some best => s.notificationClick jpeg (decodeImage best)
      | none => s
    { s with mainQueue := s.mainQueue ++ [.dismiss sheet] }
  | .timeout => { s with mainQueue := s.mainQueue ++ [.dismiss sheet] }
  | .other => s

/-- What a block of the main queue does. A sheet that is gone is not dismissed again. -/
def performBlock (s : FaceAuthenViewController ι) : Block ι → FaceAuthenViewController ι
  | .setImage img => { s with faceButImage := img, nextButEnabled := true }
  | .dismiss sheet => { s with liveness := s.liveness.filter (·.id ≠ sheet) }

end FaceAuthenViewController

open FaceAuthenViewController

/-- `judged` is the verdict on one of the frames that are judged; `closeAction`, the button of the
    sheet. The events of the app reach the sheet on the screen. -/
inductive Event where
  | faceButClick
  | captureOutput
  | judged (k : ℕ) (remindCode : LivenessRemindCode)
  | closeAction
  | onAppWillResignAction
  | onAppBecomeActive
  | mainQueue
  | nextButtonClick (userId : Json)

/-- One event; the parameters of `useFaceRecognition` come out. Under the sheet nothing is touched,
    and a disabled button does nothing. -/
def machine (decodeImage : NSString → Option ι) (jpeg : ι → Option NSData) :
    Machine (FaceAuthenViewController ι) Event (List (NSString × Json)) where
  step s
    | .faceButClick => some (if s.liveness.isSome then s else s.faceButClick, [])
    | .captureOutput => some (s.captureOutput, [])
    | .judged k remindCode =>
      match s.judging[k]? with
      | some sheet =>
        some (livenessCompletion decodeImage jpeg sheet remindCode
          { s with judging := s.judging.eraseIdx k }, [])
      | none => some (s, [])
    | .closeAction => some ({ s with liveness := none }, [])
    | .onAppWillResignAction =>
      some ({ s with liveness := s.liveness.map fun l => { l with hasFinished := true } }, [])
    | .onAppBecomeActive =>
      some ({ s with liveness := s.liveness.map fun l => { l with hasFinished := false } }, [])
    | .mainQueue =>
      match s.mainQueue with
      | block :: rest => some (performBlock { s with mainQueue := rest } block, [])
      | [] => some (s, [])
    | .nextButtonClick userId =>
      if s.nextButEnabled && s.liveness.isNone then
        (s.nextButtonClick userId).map fun sent => (s, [sent])
      else some (s, [])

/-- The image that a server reads out of the parameters. -/
def serverImage (parameters : List (NSString × Json)) : Option NSData :=
  match parameters.lookup (ns "base64Image") with
  | some (.str base64) => Base64.decode base64Alphabet base64
  | _ => none

/-! ### The latest image -/

def Block.image? : Block ι → Option (Option ι)
  | .setImage img => some img
  | .dismiss _ => none

/-- The images on their way to the button. -/
def waiting (s : FaceAuthenViewController ι) : List (Option ι) :=
  s.mainQueue.filterMap Block.image?

/-- The image that will stand on the button once none is on its way. -/
def latest (s : FaceAuthenViewController ι) : Option ι :=
  (waiting s).getLast?.getD s.faceButImage

/-- What would be sent is the latest image. -/
def Kept (jpeg : ι → Option NSData) (s : FaceAuthenViewController ι) : Prop :=
  s.base64ImageStr = ((latest s).bind jpeg).map base64EncodedString

variable {decodeImage : NSString → Option ι} {jpeg : ι → Option NSData}
  {s s' : FaceAuthenViewController ι}

theorem kept_viewDidLoad : Kept jpeg (viewDidLoad : FaceAuthenViewController ι) := rfl

/-- Only the image of the request, the image of the button and the queue count. -/
theorem Kept.congr (h : Kept jpeg s) (hbase : s'.base64ImageStr = s.base64ImageStr)
    (hbut : s'.faceButImage = s.faceButImage) (hwaiting : waiting s' = waiting s) :
    Kept jpeg s' := by
  rw [Kept, latest, hwaiting, hbut, hbase]
  exact h

theorem waiting_append (s : FaceAuthenViewController ι) (block : Block ι) :
    waiting { s with mainQueue := s.mainQueue ++ [block] } = waiting s ++ block.image?.toList := by
  rw [waiting, List.filterMap_append]
  cases block <;> rfl

theorem Kept.dismissed (h : Kept jpeg s) (sheet : ℕ) :
    Kept jpeg { s with mainQueue := s.mainQueue ++ [.dismiss sheet] } :=
  h.congr rfl rfl ((waiting_append s (.dismiss sheet)).trans (List.append_nil _))

theorem kept_notificationClick (img : Option ι) (s : FaceAuthenViewController ι) :
    Kept jpeg (s.notificationClick jpeg img) := by
  have hlatest : latest (s.notificationClick jpeg img) = img := by
    rw [latest, notificationClick, waiting, List.filterMap_append]
    simp [Block.image?]
  rw [Kept, hlatest]
  rfl

theorem Kept.livenessCompletion (h : Kept jpeg s) (sheet : ℕ) (remindCode : LivenessRemindCode) :
    Kept jpeg (s.livenessCompletion decodeImage jpeg sheet remindCode) := by
  cases remindCode with
  | ok bestImage =>
    rw [FaceAuthenViewController.livenessCompletion]
    refine Kept.dismissed ?_ sheet
    cases bestImage.bind List.getLast? with
    | none => exact h.congr rfl rfl rfl
    | some best => exact kept_notificationClick _ _
  | timeout => exact h.dismissed sheet
  | other => exact h

theorem Kept.performBlock {block : Block ι} {rest : List (Block ι)} (h : Kept jpeg s)
    (hqueue : s.mainQueue = block :: rest) :
    Kept jpeg (performBlock { s with mainQueue := rest } block) := by
  have hwaiting : waiting s = block.image?.toList ++ rest.filterMap Block.image? := by
    rw [waiting, hqueue, List.filterMap_cons]
    cases block <;> rfl
  cases block with
  | setImage img =>
    have hlatest : latest s = (rest.filterMap Block.image?).getLast?.getD img := by
      rw [latest, hwaiting]
      cases hlast : (rest.filterMap Block.image?).getLast? <;>
        simp [Block.image?, List.getLast?_cons, hlast]
    rw [Kept, hlatest] at h
    exact h
  | dismiss sheet => exact h.congr rfl rfl hwaiting.symm

theorem Kept.step (h : Kept jpeg s) {e : Event} {os : List (List (NSString × Json))}
    (hstep : (machine decodeImage jpeg).step s e = some (s', os)) : Kept jpeg s' := by
  cases e with
  | faceButClick =>
    cases hstep
    split_ifs
    · exact h
    · exact h.congr rfl rfl rfl
  | captureOutput =>
    cases hstep
    rw [captureOutput]
    split
    · split_ifs
      · exact h.congr rfl rfl rfl
      · exact h
    · exact h
  | judged k remindCode =>
    simp only [machine] at hstep
    split at hstep
    · cases hstep
      have hjudged : Kept jpeg { s with judging := s.judging.eraseIdx k } := h.congr rfl rfl rfl
      exact hjudged.livenessCompletion _ remindCode
    · cases hstep
      exact h
  | mainQueue =>
    simp only [machine] at hstep
    split at hstep
    · next hqueue =>
      cases hstep
      exact h.performBlock hqueue
    · cases hstep
      exact h
  | nextButtonClick userId =>
    simp only [machine] at hstep
    split_ifs at hstep
    · obtain ⟨sent, -, heq⟩ := Option.map_eq_some_iff.mp hstep
      cases heq
      exact h
    · cases hstep
      exact h
  | closeAction | onAppWillResignAction | onAppBecomeActive =>
    cases hstep
    exact h.congr rfl rfl rfl

/-- What a tap sends holds the data of the latest image, which the server reads. -/
theorem Kept.nextButtonClick (h : Kept jpeg s) {userId : Json} {sent : List (NSString × Json)}
    (hsent : s.nextButtonClick userId = some sent) :
    ∃ image data, latest s = some image ∧ jpeg image = some data ∧
      serverImage sent = some data ∧ sent.lookup (ns "userId") = some userId := by
  obtain ⟨base64, hbase, rfl⟩ := Option.map_eq_some_iff.mp hsent
  rw [h] at hbase
  obtain ⟨data, hdata, rfl⟩ := Option.map_eq_some_iff.mp hbase
  obtain ⟨image, himage, hjpeg⟩ := Option.bind_eq_some_iff.mp hdata
  exact ⟨image, data, himage, hjpeg, Base64.decode_encode base64Alphabet data, rfl⟩

theorem Kept.isSome_nextButtonClick (h : Kept jpeg s) (userId : Json) :
    (s.nextButtonClick userId).isSome ↔ ((latest s).bind jpeg).isSome := by
  rw [FaceAuthenViewController.nextButtonClick, Option.isSome_map, h, Option.isSome_map]

/-! ### Runs -/

/-- A tap that goes through. -/
def Taps (s : FaceAuthenViewController ι) (e : Event) : Prop :=
  (∃ userId, e = .nextButtonClick userId) ∧ (s.nextButEnabled && s.liveness.isNone) = true

/-- Only a tap sends, with no sheet up. -/
theorem sent_of_step {e : Event} {os : List (List (NSString × Json))}
    (hstep : (machine decodeImage jpeg).step s e = some (s', os)) {sent : List (NSString × Json)}
    (hsent : sent ∈ os) : ∃ userId, e = .nextButtonClick userId ∧ s.liveness = none ∧
      s.nextButtonClick userId = some sent := by
  cases e with
  | nextButtonClick userId =>
    simp only [machine] at hstep
    split_ifs at hstep with hon
    · obtain ⟨sent', hclick, heq⟩ := Option.map_eq_some_iff.mp hstep
      cases heq
      obtain rfl := List.mem_singleton.mp hsent
      rw [Bool.and_eq_true, Option.isNone_iff_eq_none] at hon
      exact ⟨userId, rfl, hon.2, hclick⟩
    · cases hstep
      cases hsent
  | judged k remindCode =>
    simp only [machine] at hstep
    split at hstep <;> cases hstep <;> cases hsent
  | mainQueue =>
    simp only [machine] at hstep
    split at hstep <;> cases hstep <;> cases hsent
  | _ =>
    cases hstep
    cases hsent

/-- In whatever order frames, verdicts, blocks and taps come, what a tap sends is read by the server
    as the data of the latest image: the one on the button, unless another is on its way there. -/
theorem face_received (decodeImage : NSString → Option ι) (jpeg : ι → Option NSData)
    (es : List Event) :
    (machine decodeImage jpeg).Always (fun s e _ os => ∀ sent ∈ os, ∃ userId image data,
        e = .nextButtonClick userId ∧ latest s = some image ∧ jpeg image = some data ∧
          serverImage sent = some data ∧ sent.lookup (ns "userId") = some userId ∧
          (waiting s = [] → s.faceButImage = some image)) viewDidLoad es := by
  refine Machine.always_of_inv (I := Kept jpeg) ?_ es _ kept_viewDidLoad
  intro s e s' os h hstep
  refine ⟨h.step hstep, fun sent hsent => ?_⟩
  obtain ⟨userId, rfl, -, hclick⟩ := sent_of_step hstep hsent
  obtain ⟨image, data, hlatest, hjpeg, hserver, huser⟩ := h.nextButtonClick hclick
  refine ⟨userId, image, data, rfl, hlatest, hjpeg, hserver, huser, fun hnone => ?_⟩
  rw [latest, hnone] at hlatest
  exact hlatest

/-- A run raises nowhere iff at every tap that goes through the latest image has data: the best
    image of its verdict could be read, and made into a picture file. -/
theorem face_completes_iff (decodeImage : NSString → Option ι) (jpeg : ι → Option NSData)
    (es : List Event) :
    ((machine decodeImage jpeg).run viewDidLoad es).isSome ↔
      (machine decodeImage jpeg).Attempts
        (fun s e => Taps s e → ((latest s).bind jpeg).isSome) viewDidLoad es := by
  have hkept : (machine decodeImage jpeg).Always (fun _ _ s' _ => Kept jpeg s') viewDidLoad es :=
    Machine.always_of_inv (I := Kept jpeg)
      (fun _ _ _ _ h hstep => ⟨h.step hstep, h.step hstep⟩) es _ kept_viewDidLoad
  have hexact : ∀ (s : FaceAuthenViewController ι) (e : Event), Kept jpeg s →
      ((Taps s e → ((latest s).bind jpeg).isSome) ↔
        ((machine decodeImage jpeg).step s e).isSome ∧
          ∀ s' os, (machine decodeImage jpeg).step s e = some (s', os) → Kept jpeg s') := by
    intro s e h
    rw [and_iff_left fun s' os hstep => h.step hstep]
    cases e with
    | nextButtonClick userId =>
      simp only [machine, Taps]
      split_ifs with hon
      · rw [Option.isSome_map, h.isSome_nextButtonClick]
        simp [hon]
      · simp [hon]
    | judged k remindCode =>
      simp only [machine]
      split <;> simp [Taps]
    | mainQueue =>
      simp only [machine]
      split <;> simp [Taps]
    | _ => simp [machine, Taps]
  rw [← Machine.safe_iff_attempts (I := Kept jpeg) (fun _ _ _ _ _ h => h) hexact es _
    kept_viewDidLoad]
  exact (and_iff_left hkept).symm

/-! ### The order of the main queue -/

def Block.sheet? : Block ι → Option ℕ
  | .setImage _ => none
  | .dismiss sheet => some sheet

/-- The sheets whose end waits. -/
def ending (s : FaceAuthenViewController ι) : List ℕ := s.mainQueue.filterMap Block.sheet?

/-- A good verdict comes while its sheet is up and no end of it waits, and the sheet is not closed
    by hand while an image waits. -/
def Prompt (s : FaceAuthenViewController ι) : Event → Prop
  | .judged k (.ok _) =>
    ∀ sheet ∈ s.judging[k]?, s.liveness.map (·.id) = some sheet ∧ sheet ∉ ending s
  | .closeAction => waiting s = []
  | _ => True

instance [DecidableEq ι] (s : FaceAuthenViewController ι) : ∀ e, Decidable (Prompt s e)
  | .judged _ (.ok _) => inferInstanceAs (Decidable (∀ sheet ∈ _, _ ∧ _))
  | .closeAction => inferInstanceAs (Decidable (_ = _))
  | .judged _ .timeout | .judged _ .other | .faceButClick | .captureOutput
  | .onAppWillResignAction | .onAppBecomeActive | .mainQueue | .nextButtonClick _ =>
    .isTrue trivial

/-- No image stands behind the end of a sheet. -/
def Before (sheet : ℕ) : List (Block ι) → Prop
  | [] => True
  | .setImage _ :: rest => Before sheet rest
  | .dismiss other :: rest => (other = sheet → rest.filterMap Block.image? = []) ∧ Before sheet rest

/-- Images stand before the end of the sheet on the screen, and none waits without a sheet. -/
structure Orderly (s : FaceAuthenViewController ι) : Prop where
  judging_lt : ∀ sheet ∈ s.judging, sheet < s.sheets
  ending_lt : ∀ sheet ∈ ending s, sheet < s.sheets
  idle : s.liveness = none → waiting s = []
  before : ∀ l ∈ s.liveness, l.id < s.sheets ∧ Before l.id s.mainQueue

theorem before_of_notMem {sheet : ℕ} {blocks : List (Block ι)}
    (h : sheet ∉ blocks.filterMap Block.sheet?) : Before sheet blocks := by
  induction blocks with
  | nil => trivial
  | cons block rest ih =>
    cases block with
    | setImage img => exact ih h
    | dismiss other =>
      rw [List.filterMap_cons, Block.sheet?, List.mem_cons, not_or] at h
      exact ⟨fun heq => absurd heq.symm h.1, ih h.2⟩

theorem Before.append_dismiss {sheet : ℕ} {blocks : List (Block ι)} (h : Before sheet blocks)
    (other : ℕ) : Before sheet (blocks ++ [.dismiss other]) := by
  induction blocks with
  | nil => exact ⟨fun _ => rfl, trivial⟩
  | cons block rest ih =>
    cases block with
    | setImage img => exact ih h
    | dismiss first =>
      refine ⟨fun heq => ?_, ih h.2⟩
      have happend : (rest ++ [Block.dismiss other]).filterMap Block.image? = [] := by
        rw [List.filterMap_append, h.1 heq]
        rfl
      exact happend

theorem Before.tail {sheet : ℕ} {block : Block ι} {rest : List (Block ι)}
    (h : Before sheet (block :: rest)) : Before sheet rest := by
  cases block with
  | setImage img => exact h
  | dismiss other => exact h.2

theorem orderly_viewDidLoad : Orderly (viewDidLoad : FaceAuthenViewController ι) :=
  ⟨nofun, nofun, fun _ => rfl, nofun⟩

/-- One more end of a sheet that there has been. -/
theorem Orderly.dismissed (h : Orderly s) {sheet : ℕ} (hsheet : sheet < s.sheets) :
    Orderly { s with mainQueue := s.mainQueue ++ [.dismiss sheet] } := by
  have hwaiting := waiting_append s (.dismiss sheet)
  refine ⟨h.judging_lt, fun other hother => ?_, fun hnone => ?_, fun l hl => ?_⟩
  · rw [ending, List.filterMap_append, List.mem_append] at hother
    rcases hother with hother | hother
    · exact h.ending_lt other hother
    · obtain rfl : other = sheet := by simpa [Block.sheet?] using hother
      exact hsheet
  · rw [hwaiting, h.idle hnone]
    rfl
  · exact ⟨(h.before l hl).1, (h.before l hl).2.append_dismiss sheet⟩

/-- A change that leaves the number of the sheet and the queue alone. -/
theorem Orderly.onSheet (h : Orderly s) {f : LivenessViewController → LivenessViewController}
    (hf : ∀ l, (f l).id = l.id) : Orderly { s with liveness := s.liveness.map f } := by
  refine ⟨h.judging_lt, h.ending_lt, fun hnone => h.idle (Option.map_eq_none_iff.mp hnone), ?_⟩
  intro l hl
  obtain ⟨l', hl', rfl⟩ := Option.map_eq_some_iff.mp hl
  rw [hf]
  exact h.before l' hl'

/-- The image of a good verdict, with no end of its sheet before it. -/
theorem Orderly.notificationClick (h : Orderly s) (img : Option ι) {l : LivenessViewController}
    (hl : s.liveness = some l) (hnot : l.id ∉ ending s) :
    Orderly (s.notificationClick jpeg img) := by
  have hending : ending (s.notificationClick jpeg img) = ending s := by
    rw [ending, FaceAuthenViewController.notificationClick, List.filterMap_append]
    exact List.append_nil _
  refine ⟨h.judging_lt, fun sheet hsheet => ?_, fun hnone => ?_, fun l' hl' => ?_⟩
  · rw [hending] at hsheet
    exact h.ending_lt sheet hsheet
  · exact nomatch hl.symm.trans hnone
  · obtain rfl : l = l' := Option.some.inj (hl.symm.trans hl')
    rw [← hending] at hnot
    exact ⟨(h.before l hl).1, before_of_notMem hnot⟩

theorem Orderly.livenessCompletion (h : Orderly s) {sheet : ℕ} (hsheet : sheet < s.sheets)
    {remindCode : LivenessRemindCode} (hprompt : ∀ bestImage, remindCode = .ok bestImage →
      s.liveness.map (·.id) = some sheet ∧ sheet ∉ ending s) :
    Orderly (s.livenessCompletion decodeImage jpeg sheet remindCode) := by
  cases remindCode with
  | ok bestImage =>
    obtain ⟨hid, hnot⟩ := hprompt bestImage rfl
    obtain ⟨l, hl, rfl⟩ := Option.map_eq_some_iff.mp hid
    have hfinish : Orderly (s.onSheet l.id finish) :=
      h.onSheet fun l' => by split_ifs <;> rfl
    have hl' : (s.onSheet l.id finish).liveness = some (finish l) := by
      rw [FaceAuthenViewController.onSheet, hl, Option.map_some, if_pos rfl]
    rw [FaceAuthenViewController.livenessCompletion]
    cases bestImage.bind List.getLast? with
    | none => exact hfinish.dismissed hsheet
    | some best => exact Orderly.dismissed (hfinish.notificationClick _ hl' hnot) hsheet
  | timeout => exact h.dismissed hsheet
  | other => exact h

theorem Orderly.performBlock {block : Block ι} {rest : List (Block ι)} (h : Orderly s)
    (hqueue : s.mainQueue = block :: rest) :
    Orderly (performBlock { s with mainQueue := rest } block) := by
  have hending : ∀ sheet ∈ rest.filterMap Block.sheet?, sheet < s.sheets := by
    intro sheet hsheet
    refine h.ending_lt sheet ?_
    rw [ending, hqueue, List.filterMap_cons]
    cases block with
    | setImage img => exact hsheet
    | dismiss other => exact List.mem_cons_of_mem other hsheet
  cases block with
  | setImage img =>
    refine ⟨h.judging_lt, hending, fun hnone => ?_, fun l hl => ?_⟩
    · -- without a sheet no image waited
      have himage := h.idle hnone
      rw [waiting, hqueue] at himage
      cases himage
    · have hbefore := h.before l hl
      rw [hqueue] at hbefore
      exact hbefore
  | dismiss sheet =>
    refine ⟨h.judging_lt, hending, fun hnone => ?_, fun l hl => ?_⟩
    · cases hliveness : s.liveness with
      | none =>
        have hidle := h.idle hliveness
        rwa [waiting, hqueue] at hidle
      | some l =>
        have hbefore := (h.before l hliveness).2
        rw [hqueue] at hbefore
        refine hbefore.1 ?_
        have hgone : s.liveness.filter (·.id ≠ sheet) = none := hnone
        rw [hliveness] at hgone
        have hid : l.id = sheet := by simpa [Option.filter] using hgone
        exact hid.symm
    · obtain ⟨hl, -⟩ := Option.filter_eq_some_iff.mp hl
      have hbefore := h.before l hl
      rw [hqueue] at hbefore
      exact ⟨hbefore.1, hbefore.2.tail⟩

theorem Orderly.step (h : Orderly s) {e : Event} (hprompt : Prompt s e)
    {os : List (List (NSString × Json))}
    (hstep : (machine decodeImage jpeg).step s e = some (s', os)) : Orderly s' := by
  cases e with
  | faceButClick =>
    cases hstep
    split_ifs with hup
    · exact h
    · have hnone : s.liveness = none := by simpa using hup
      refine ⟨fun sheet hsheet => (h.judging_lt sheet hsheet).trans (Nat.lt_succ_self _),
        fun sheet hsheet => (h.ending_lt sheet hsheet).trans (Nat.lt_succ_self _), nofun, ?_⟩
      intro l hl
      cases hl
      -- the number is new
      exact ⟨Nat.lt_succ_self _, before_of_notMem fun hmem => (h.ending_lt _ hmem).false⟩
  | captureOutput =>
    cases hstep
    rw [captureOutput]
    split
    · next l hl =>
      split_ifs
      · refine ⟨fun sheet hsheet => ?_, h.ending_lt, h.idle, h.before⟩
        rcases List.mem_append.mp hsheet with hsheet | hsheet
        · exact h.judging_lt sheet hsheet
        · rw [List.mem_singleton.mp hsheet]
          exact (h.before l hl).1
      · exact h
    · exact h
  | judged k remindCode =>
    simp only [machine] at hstep
    split at hstep
    · next sheet hk =>
      cases hstep
      have hjudged : Orderly { s with judging := s.judging.eraseIdx k } :=
        ⟨fun other hother => h.judging_lt other (List.mem_of_mem_eraseIdx hother), h.ending_lt,
          h.idle, h.before⟩
      refine hjudged.livenessCompletion (h.judging_lt sheet (List.mem_of_getElem? hk)) ?_
      rintro bestImage rfl
      exact hprompt sheet hk
    · cases hstep
      exact h
  | closeAction =>
    cases hstep
    exact ⟨h.judging_lt, h.ending_lt, fun _ => hprompt, nofun⟩
  | mainQueue =>
    simp only [machine] at hstep
    split at hstep
    · next hqueue =>
      cases hstep
      exact h.performBlock hqueue
    · cases hstep
      exact h
  | nextButtonClick userId =>
    simp only [machine] at hstep
    split_ifs at hstep
    · obtain ⟨sent, -, heq⟩ := Option.map_eq_some_iff.mp hstep
      cases heq
      exact h
    · cases hstep
      exact h
  | onAppWillResignAction | onAppBecomeActive =>
    cases hstep
    exact h.onSheet fun _ => rfl

/-- Where verdicts are prompt, the image that a tap sends is the one on the button: the queue puts
    it there before it ends the sheet. -/
theorem shown_face_received (decodeImage : NSString → Option ι) (jpeg : ι → Option NSData)
    (es : List Event) (h : (machine decodeImage jpeg).Meets Prompt viewDidLoad es) :
    (machine decodeImage jpeg).Always (fun s _ _ os => ∀ sent ∈ os, ∃ image data,
      s.faceButImage = some image ∧ jpeg image = some data ∧ serverImage sent = some data)
      viewDidLoad es := by
  refine Machine.always_of_meets (I := fun s => Kept jpeg s ∧ Orderly s) ?_ es _
    ⟨kept_viewDidLoad, orderly_viewDidLoad⟩ h
  rintro s e s' os ⟨hkept, horderly⟩ hprompt hstep
  refine ⟨⟨hkept.step hstep, horderly.step hprompt hstep⟩, fun sent hsent => ?_⟩
  obtain ⟨userId, rfl, hon, hclick⟩ := sent_of_step hstep hsent
  obtain ⟨image, data, hlatest, hjpeg, hserver, -⟩ := hkept.nextButtonClick hclick
  rw [latest, horderly.idle hon] at hlatest
  exact ⟨image, data, hlatest, hjpeg, hserver⟩

/-- One frame, one verdict, and the button when the sheet is down. -/
theorem shown_face_received_once :
    (machine (fun _ => some 7) fun n : ℕ => some [UInt8.ofNat n]).Always
      (fun s _ _ os => ∀ sent ∈ os, ∃ image data, s.faceButImage = some image ∧
        some [UInt8.ofNat image] = some data ∧ serverImage sent = some data) viewDidLoad
      [.faceButClick, .captureOutput, .judged 0 (.ok (some [ns "Bw=="])), .mainQueue, .mainQueue,
        .nextButtonClick (.str (ns "7"))] :=
  shown_face_received _ _ _ (by decide)

end LeYiDai.FaceAuthen
