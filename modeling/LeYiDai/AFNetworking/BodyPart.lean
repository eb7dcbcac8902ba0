import LeYiDai.Foundation.Encoding
import LeYiDai.Lib.Delivery
import LeYiDai.Util.FailureMessage

/-! AFHTTPBodyPart: one part of a multipart body, read into buffers. The part goes through four
    phases; a read starts in the one the part is in and goes on into the next ones while there is
    room.

        encapsulation boundary ──▶ header ──▶ body ──▶ final boundary ──▶ (closed)
             data, offset         data, offset   inputStream    data, offset       -/

namespace LeYiDai.Multipart

open Failure (NSData)

/-! ### Streams over data -/

/-- `NSStreamStatus`, in its order. -/
inductive NSStreamStatus where
  | notOpen | opening | opened | reading | writing | atEnd | closed | error
  deriving DecidableEq

/-- `>= NSStreamStatusAtEnd`. -/
def NSStreamStatus.isOver : NSStreamStatus → Bool
  | .atEnd | .closed | .error => true
  | .notOpen | .opening | .opened | .reading | .writing => false

/-- How the system's streams over data answer a read of at most `n` of the bytes that are left: how
    many they hand out, and whether they are at their end then. A stream may know its end with the
    last byte or only when a further read finds none. -/
structure DataStreams where
  count : NSData → ℕ → ℕ
  atEnd : NSData → ℕ → Bool
  count_le_length : ∀ left n, count left n ≤ left.length
  count_le : ∀ left n, count left n ≤ n
  count_pos : ∀ left n, left ≠ [] → 0 < n → 0 < count left n
  whole_of_atEnd : ∀ left n, atEnd left n = true → count left n = left.length
  atEnd_of_empty : ∀ n, 0 < n → atEnd [] n = true

/-- An `NSInputStream` over data. -/
structure InputStream where
  streamStatus : NSStreamStatus
  left : NSData
  deriving DecidableEq

namespace InputStream

def inputStreamWithData (data : NSData) : InputStream := { streamStatus := .notOpen, left := data }

/-- `open`. -/
def opens (s : InputStream) : InputStream :=
  if s.streamStatus = .notOpen then { s with streamStatus := .opened } else s

def close (s : InputStream) : InputStream := { s with streamStatus := .closed }

/-- `read:maxLength:`, `none` for -1. -/
def read (D : DataStreams) (s : InputStream) (n : ℕ) : Option NSData × InputStream :=
  match s.streamStatus with
  | .opened =>
    (some (s.left.take (D.count s.left n)),
      { streamStatus := if D.atEnd s.left n then .atEnd else .opened
        left := s.left.drop (D.count s.left n) })
  | .atEnd => (some [], s)
  | _ => (none, s)

end InputStream

/-! ### Boundaries -/

def kAFMultipartFormCRLF : NSString := ns "\r\n"

def AFMultipartFormInitialBoundary (boundary : NSString) : NSString :=
  ns "--" ++ boundary ++ kAFMultipartFormCRLF

def AFMultipartFormEncapsulationBoundary (boundary : NSString) : NSString :=
  kAFMultipartFormCRLF ++ ns "--" ++ boundary ++ kAFMultipartFormCRLF

def AFMultipartFormFinalBoundary (boundary : NSString) : NSString :=
  kAFMultipartFormCRLF ++ ns "--" ++ boundary ++ ns "--" ++ kAFMultipartFormCRLF

/-- The data of a string; nil has no bytes. -/
def dataOf (s : NSString) : NSData := (dataUsingEncoding s).getD []

/-! ### The part -/

inductive ReadPhase where
  | encapsulationBoundary | header | body | finalBoundary
  deriving DecidableEq

/-- A part. `headers` stand in the order of `allKeys`, `inputStream` is what its getter returns. -/
structure BodyPart where
  headers : List (NSString × NSString)
  boundary : NSString
  body : NSData
  bodyContentLength : ℕ
  hasInitialBoundary : Bool
  hasFinalBoundary : Bool
  phase : ReadPhase
  phaseReadOffset : ℕ
  inputStream : InputStream
  deriving DecidableEq

namespace BodyPart

/-- A new part, as `appendPartWithHeaders:body:` fills it in. -/
def new (headers : List (NSString × NSString)) (boundary : NSString) (body : NSData) : BodyPart :=
  { headers, boundary, body
    bodyContentLength := body.length
    hasInitialBoundary := false
    hasFinalBoundary := false
    phase := .encapsulationBoundary
    phaseReadOffset := 0
    inputStream := .inputStreamWithData body }

def stringForHeaders (p : BodyPart) : NSString :=
  p.headers.flatMap (fun h => h.1 ++ ns ": " ++ h.2 ++ kAFMultipartFormCRLF) ++ kAFMultipartFormCRLF

def encapsulationBoundaryData (p : BodyPart) : NSData :=
  dataOf (if p.hasInitialBoundary then AFMultipartFormInitialBoundary p.boundary
    else AFMultipartFormEncapsulationBoundary p.boundary)

def headersData (p : BodyPart) : NSData := dataOf p.stringForHeaders

def closingBoundaryData (p : BodyPart) : NSData :=
  if p.hasFinalBoundary then dataOf (AFMultipartFormFinalBoundary p.boundary) else []

def contentLength (p : BodyPart) : ℕ :=
  p.encapsulationBoundaryData.length + p.headersData.length + p.bodyContentLength +
    p.closingBoundaryData.length

def hasBytesAvailable (p : BodyPart) : Bool :=
  p.phase = .finalBoundary || !p.inputStream.streamStatus.isOver

def transitionToNextPhase (p : BodyPart) : BodyPart :=
  match p.phase with
  | .encapsulationBoundary => { p with phase := .header, phaseReadOffset := 0 }
  | .header => { p with phase := .body, phaseReadOffset := 0, inputStream := p.inputStream.opens }
  | .body =>
    { p with phase := .finalBoundary, phaseReadOffset := 0, inputStream := p.inputStream.close }
  | .finalBoundary => { p with phase := .encapsulationBoundary, phaseReadOffset := 0 }

/-- The part with another offset into what its phase reads. -/
def seek (p : BodyPart) (n : ℕ) : BodyPart := { p with phaseReadOffset := n }

/-- `readData:intoBuffer:maxLength:`, which raises when the offset lies behind the data. -/
def readData (p : BodyPart) (data : NSData) (length : ℕ) : Option (NSData × BodyPart) :=
  if p.phaseReadOffset ≤ data.length then
    let n := min (data.length - p.phaseReadOffset) length
    let q := p.seek (p.phaseReadOffset + n)
    some ((data.drop p.phaseReadOffset).take n,
      if data.length ≤ q.phaseReadOffset then q.transitionToNextPhase else q)
  else none

/-- The body phase of a read. -/
def readBody (D : DataStreams) (p : BodyPart) (length : ℕ) : Option NSData × BodyPart :=
  let (out, stream) := p.inputStream.read D length
  let q := { p with inputStream := stream }
  match out with
  | none => (none, q)
  | some out => (some out, if stream.streamStatus.isOver then q.transitionToNextPhase else q)

/-- `read:maxLength:`: `some none` for -1, `none` when it raises. -/
def read (D : DataStreams) (p : BodyPart) (length : ℕ) : Option (Option NSData × BodyPart) :=
  (if p.phase = .encapsulationBoundary then p.readData p.encapsulationBoundaryData length
    else some ([], p)).bind fun (out₁, p) =>
  (if p.phase = .header then p.readData p.headersData (length - out₁.length)
    else some ([], p)).bind fun (out₂, p) =>
  let total := out₁ ++ out₂
  match if p.phase = .body then p.readBody D (length - total.length) else (some [], p) with
  | (none, p) => some (none, p)
  | (some out₃, p) =>
    let total := total ++ out₃
    (if p.phase = .finalBoundary then p.readData p.closingBoundaryData (length - total.length)
      else some ([], p)).map fun (out₄, p) => (some (total ++ out₄), p)

/-- `copyWithZone:`. -/
def copy (p : BodyPart) : BodyPart :=
  { new p.headers p.boundary p.body with bodyContentLength := p.bodyContentLength }

/-! ### What is left of a part -/

/-- The bytes of the whole part. -/
def wire (p : BodyPart) : NSData :=
  p.encapsulationBoundaryData ++ p.headersData ++ p.body ++ p.closingBoundaryData

/-- The bytes that are still to be read. -/
def left (p : BodyPart) : NSData :=
  match p.phase with
  | .encapsulationBoundary =>
    if p.inputStream.streamStatus = .notOpen then
      p.encapsulationBoundaryData.drop p.phaseReadOffset ++ p.headersData ++ p.inputStream.left ++
        p.closingBoundaryData
    else []
  | .header =>
    p.headersData.drop p.phaseReadOffset ++ p.inputStream.left ++ p.closingBoundaryData
  | .body => p.inputStream.left ++ p.closingBoundaryData
  | .finalBoundary => p.closingBoundaryData.drop p.phaseReadOffset

/-- The part as it stood before anything of it was read. -/
def rewound (p : BodyPart) : BodyPart :=
  { p with
    phase := .encapsulationBoundary
    phaseReadOffset := 0
    inputStream := .inputStreamWithData p.body }

/-- How far phase and stream agree in every part that is read. -/
def Sound (p : BodyPart) : Prop :=
  match p.phase with
  | .encapsulationBoundary =>
    p.phaseReadOffset ≤ p.encapsulationBoundaryData.length ∧ p.inputStream.streamStatus = .notOpen ∨
      p.phaseReadOffset = 0 ∧ p.inputStream.streamStatus = .closed
  | .header => p.phaseReadOffset ≤ p.headersData.length ∧ p.inputStream.streamStatus = .notOpen
  | .body => p.inputStream.streamStatus = .opened
  | .finalBoundary =>
    p.phaseReadOffset ≤ p.closingBoundaryData.length ∧ p.inputStream.streamStatus = .closed

/-- The phases a part has still to go through. -/
def phasesLeft (p : BodyPart) : ℕ :=
  match p.phase with
  | .encapsulationBoundary => if p.inputStream.streamStatus = .notOpen then 4 else 0
  | .header => 3
  | .body => 2
  | .finalBoundary => 1

/-- What reading does to a part: the next bytes come out, and it goes on. -/
structure Advances (p : BodyPart) (room : ℕ) (out : NSData) (q : BodyPart) : Prop where
  sound : q.Sound
  split : p.left = out ++ q.left
  fits : out.length ≤ room
  shrinks : q.phasesLeft ≤ p.phasesLeft
  rewinds : q.rewound = p.rewound

variable {p q r : BodyPart} {D : DataStreams} {room : ℕ} {out out' : NSData}

theorem Advances.refl (h : p.Sound) (room : ℕ) : Advances p room [] p :=
  ⟨h, rfl, Nat.zero_le _, le_refl _, rfl⟩

theorem Advances.trans (h : Advances p room out q) (h' : Advances q (room - out.length) out' r) :
    Advances p room (out ++ out') r where
  sound := h'.sound
  split := by rw [h.split, h'.split, List.append_assoc]
  fits := by
    have := h.fits
    have := h'.fits
    rw [List.length_append]
    omega
  shrinks := h'.shrinks.trans h.shrinks
  rewinds := h'.rewinds.trans h.rewinds

/-- In its phase the part reads `data`, behind which `rest` comes. -/
structure Reads (p : BodyPart) (data rest : NSData) : Prop where
  offset_le : p.phaseReadOffset ≤ data.length
  sound : ∀ n ≤ data.length, (p.seek n).Sound
  left_eq : ∀ n, (p.seek n).left = data.drop n ++ rest
  next_sound : ∀ n, (p.seek n).transitionToNextPhase.Sound
  next_left : ∀ n, (p.seek n).transitionToNextPhase.left = rest
  next_less : ∀ n, (p.seek n).transitionToNextPhase.phasesLeft < p.phasesLeft

@[simp] theorem phaseReadOffset_seek (p : BodyPart) (n : ℕ) : (p.seek n).phaseReadOffset = n := rfl

theorem rewound_transitionToNextPhase (p : BodyPart) :
    p.transitionToNextPhase.rewound = p.rewound := by
  rw [transitionToNextPhase]
  split <;> rfl

/-- Such a phase hands out the next bytes of its data, and with the last one goes over to what comes
    behind. -/
theorem Reads.advances {data rest : NSData} (h : p.Reads data rest) (room : ℕ) :
    ∃ out q, p.readData data room = some (out, q) ∧ Advances p room out q ∧
      (0 < room → out = [] → q.phasesLeft < p.phasesLeft) := by
  have hleft : p.left = data.drop p.phaseReadOffset ++ rest := h.left_eq p.phaseReadOffset
  have hoffset := h.offset_le
  rw [readData, if_pos h.offset_le]
  refine ⟨_, _, rfl, ?_⟩
  set n := min (data.length - p.phaseReadOffset) room with hn
  have hsplit : data.drop p.phaseReadOffset =
      (data.drop p.phaseReadOffset).take n ++ data.drop (p.phaseReadOffset + n) := by
    rw [← List.drop_drop, List.take_append_drop]
  have hlength : ((data.drop p.phaseReadOffset).take n).length = n := by
    rw [List.length_take, List.length_drop]
    omega
  generalize (data.drop p.phaseReadOffset).take n = out at hsplit hlength
  split_ifs with hend <;> rw [phaseReadOffset_seek] at hend
  · have hless := h.next_less (p.phaseReadOffset + n)
    refine ⟨⟨h.next_sound _, ?_, by omega, hless.le,
      rewound_transitionToNextPhase _⟩, fun _ _ => hless⟩
    rw [hleft, hsplit, h.next_left, List.drop_of_length_le hend, List.append_nil]
  · refine ⟨⟨h.sound _ (by omega), ?_, by omega, le_refl _, rfl⟩, ?_⟩
    · rw [hleft, hsplit, h.left_eq, List.append_assoc]
    · -- with room and data left, something comes out
      rintro hroom rfl
      rw [List.length_nil] at hlength
      omega

theorem reads_encapsulationBoundary (hphase : p.phase = .encapsulationBoundary) (hsound : p.Sound)
    (hbytes : p.hasBytesAvailable = true) :
    p.Reads p.encapsulationBoundaryData
      (p.headersData ++ p.inputStream.left ++ p.closingBoundaryData) := by
  obtain ⟨headers, boundary, body, length, initial, final, phase, offset, status, unread⟩ := p
  cases hphase
  rcases hsound with ⟨hoffset, hstatus⟩ | ⟨-, hstatus⟩
  · cases hstatus
    constructor
    · exact hoffset
    · exact fun n hn => .inl ⟨hn, rfl⟩
    · intro n
      rw [← List.append_assoc, ← List.append_assoc]
      rfl
    · exact fun n => ⟨Nat.zero_le _, rfl⟩
    · exact fun n => rfl
    · exact fun n => Nat.lt_succ_self 3
  · cases hstatus
    cases hbytes

theorem reads_header (hphase : p.phase = .header) (hsound : p.Sound) :
    p.Reads p.headersData (p.inputStream.left ++ p.closingBoundaryData) := by
  obtain ⟨headers, boundary, body, length, initial, final, phase, offset, status, unread⟩ := p
  cases hphase
  obtain ⟨hoffset, hstatus⟩ := hsound
  cases hstatus
  constructor
  · exact hoffset
  · exact fun n hn => ⟨hn, rfl⟩
  · intro n
    rw [← List.append_assoc]
    rfl
  · exact fun n => rfl
  · exact fun n => rfl
  · exact fun n => Nat.lt_succ_self 2

theorem reads_finalBoundary (hphase : p.phase = .finalBoundary) (hsound : p.Sound) :
    p.Reads p.closingBoundaryData [] := by
  obtain ⟨headers, boundary, body, length, initial, final, phase, offset, status, unread⟩ := p
  cases hphase
  obtain ⟨hoffset, hstatus⟩ := hsound
  cases hstatus
  constructor
  · exact hoffset
  · exact fun n hn => ⟨hn, rfl⟩
  · intro n
    rw [List.append_nil]
    rfl
  · exact fun n => .inr ⟨rfl, rfl⟩
  · exact fun n => rfl
  · exact fun n => Nat.lt_succ_self 0

theorem readBody_atEnd (hphase : p.phase = .body) (hsound : p.Sound)
    (hend : D.atEnd p.inputStream.left room = true) :
    p.readBody D room = (some p.inputStream.left,
      { p with
        phase := .finalBoundary
        phaseReadOffset := 0
        inputStream := { streamStatus := .closed, left := [] } }) := by
  have hopened : p.inputStream.streamStatus = .opened := by simpa [Sound, hphase] using hsound
  have hwhole := D.whole_of_atEnd _ _ hend
  simp [readBody, InputStream.read, hopened, hend, hwhole, NSStreamStatus.isOver,
    transitionToNextPhase, hphase, InputStream.close]

theorem readBody_opened (hphase : p.phase = .body) (hsound : p.Sound)
    (hend : D.atEnd p.inputStream.left room = false) :
    p.readBody D room = (some (p.inputStream.left.take (D.count p.inputStream.left room)),
      { p with inputStream :=
          { streamStatus := .opened
            left := p.inputStream.left.drop (D.count p.inputStream.left room) } }) := by
  have hopened : p.inputStream.streamStatus = .opened := by simpa [Sound, hphase] using hsound
  simp [readBody, InputStream.read, hopened, hend, NSStreamStatus.isOver]

/-- The body phase hands out what the stream hands out, and goes on when the stream is at its
    end. -/
theorem readBody_advances (D : DataStreams) (hphase : p.phase = .body) (hsound : p.Sound)
    (room : ℕ) :
    ∃ out q, p.readBody D room = (some out, q) ∧ Advances p room out q ∧
      (0 < room → out = [] → q.phasesLeft < p.phasesLeft) := by
  have hleft : p.left = p.inputStream.left ++ p.closingBoundaryData := by simp [left, hphase]
  have hphases : p.phasesLeft = 2 := by simp [phasesLeft, hphase]
  cases hend : D.atEnd p.inputStream.left room with
  | true =>
    refine ⟨_, _, readBody_atEnd hphase hsound hend, ⟨⟨Nat.zero_le _, rfl⟩, hleft, ?_, ?_, rfl⟩, ?_⟩
    · have := D.count_le p.inputStream.left room
      rwa [D.whole_of_atEnd _ _ hend] at this
    · rw [hphases]
      exact Nat.le_succ 1
    · intro _ _
      rw [hphases]
      exact Nat.lt_succ_self 1
  | false =>
    refine ⟨_, _, readBody_opened hphase hsound hend, ⟨?_, ?_, ?_, ?_, rfl⟩, ?_⟩
    · simp [Sound, hphase]
    · simp only [left, hphase]
      rw [← List.append_assoc, List.take_append_drop]
      rfl
    · rw [List.length_take]
      exact (min_le_left _ _).trans (D.count_le _ _)
    · simp [phasesLeft, hphase]
    · -- a stream that hands out nothing has nothing left, and says so
      intro hroom hout
      exfalso
      have hnone : p.inputStream.left = [] := by
        by_contra hne
        have hpos := D.count_pos p.inputStream.left room hne hroom
        rcases List.take_eq_nil_iff.mp hout with hcount | hnone
        · omega
        · exact hne hnone
      rw [hnone, D.atEnd_of_empty room hroom] at hend
      cases hend

/-- What a read makes of one of the phases: nothing when the part is in another one. -/
structure Stage (φ : ReadPhase) (p : BodyPart) (room : ℕ) (out : NSData) (q : BodyPart) : Prop where
  advances : Advances p room out q
  moves : p.phase = φ → 0 < room → out = [] → q.phasesLeft < p.phasesLeft
  idle : p.phase ≠ φ → out = [] ∧ q = p

theorem stage_readData (φ : ReadPhase) {data : NSData} (hsound : p.Sound)
    (hreads : p.phase = φ → ∃ rest, p.Reads data rest) (room : ℕ) :
    ∃ out q, (if p.phase = φ then p.readData data room else some ([], p)) = some (out, q) ∧
      Stage φ p room out q := by
  by_cases hφ : p.phase = φ
  · obtain ⟨rest, hrest⟩ := hreads hφ
    obtain ⟨out, q, hread, hadv, hmoves⟩ := hrest.advances room
    exact ⟨out, q, by rw [if_pos hφ, hread], hadv, fun _ => hmoves, fun hne => absurd hφ hne⟩
  · exact ⟨[], p, if_neg hφ, .refl hsound room, fun h => absurd h hφ, fun _ => ⟨rfl, rfl⟩⟩

theorem stage_readBody (D : DataStreams) (hsound : p.Sound) (room : ℕ) :
    ∃ out q, (if p.phase = .body then p.readBody D room else (some [], p)) = (some out, q) ∧
      Stage .body p room out q := by
  by_cases hφ : p.phase = .body
  · obtain ⟨out, q, hread, hadv, hmoves⟩ := readBody_advances D hφ hsound room
    exact ⟨out, q, by rw [if_pos hφ, hread], hadv, fun _ => hmoves, fun hne => absurd hφ hne⟩
  · exact ⟨[], p, if_neg hφ, .refl hsound room, fun h => absurd h hφ, fun _ => ⟨rfl, rfl⟩⟩

/-- A read of a part that has bytes available hands out the next of them, and where there is room it
    hands some out or enters another phase. -/
theorem read_advances (D : DataStreams) (hsound : p.Sound) (hbytes : p.hasBytesAvailable = true)
    (room : ℕ) :
    ∃ out q, p.read D room = some (some out, q) ∧ Advances p room out q ∧
      (0 < room → out = [] → q.phasesLeft < p.phasesLeft) := by
  obtain ⟨out₁, p₁, h₁, s₁⟩ := stage_readData .encapsulationBoundary hsound
    (fun hφ => ⟨_, reads_encapsulationBoundary hφ hsound hbytes⟩) room
  obtain ⟨out₂, p₂, h₂, s₂⟩ := stage_readData .header s₁.advances.sound
    (fun hφ => ⟨_, reads_header hφ s₁.advances.sound⟩) (room - out₁.length)
  have hadv₂ := s₁.advances.trans s₂.advances
  obtain ⟨out₃, p₃, h₃, s₃⟩ := stage_readBody D hadv₂.sound (room - (out₁ ++ out₂).length)
  have hadv₃ := hadv₂.trans s₃.advances
  obtain ⟨out₄, p₄, h₄, s₄⟩ := stage_readData .finalBoundary hadv₃.sound
    (fun hφ => ⟨_, reads_finalBoundary hφ hadv₃.sound⟩) (room - (out₁ ++ out₂ ++ out₃).length)
  refine ⟨out₁ ++ out₂ ++ out₃ ++ out₄, p₄, ?_, hadv₃.trans s₄.advances, ?_⟩
  · simp only [read, h₁, h₂, Option.bind_some, h₃, h₄, Option.map_some]
  · -- the phase the part is in makes the progress, the ones before it do nothing
    intro hroom hout
    simp only [List.append_eq_nil_iff] at hout
    obtain ⟨⟨⟨rfl, rfl⟩, rfl⟩, rfl⟩ := hout
    simp only [List.append_nil, List.length_nil, Nat.sub_zero] at s₂ s₃ s₄
    have h₂₁ := s₂.advances.shrinks
    have h₃₂ := s₃.advances.shrinks
    have h₄₃ := s₄.advances.shrinks
    cases hφ : p.phase with
    | encapsulationBoundary =>
      have := s₁.moves hφ hroom rfl
      omega
    | header =>
      obtain rfl := (s₁.idle (by simp [hφ])).2
      have := s₂.moves hφ hroom rfl
      omega
    | body =>
      obtain rfl := (s₁.idle (by simp [hφ])).2
      obtain rfl := (s₂.idle (by simp [hφ])).2
      have := s₃.moves hφ hroom rfl
      omega
    | finalBoundary =>
      obtain rfl := (s₁.idle (by simp [hφ])).2
      obtain rfl := (s₂.idle (by simp [hφ])).2
      obtain rfl := (s₃.idle (by simp [hφ])).2
      exact s₄.moves hφ hroom rfl

/-- A part without bytes available has been read to its end. -/
theorem left_of_not_hasBytesAvailable (hsound : p.Sound) (h : p.hasBytesAvailable = false) :
    p.left = [] := by
  rw [Sound] at hsound
  rw [hasBytesAvailable, Bool.or_eq_false_iff, decide_eq_false_iff_not] at h
  obtain ⟨hfinal, hover⟩ := h
  cases hφ : p.phase with
  | encapsulationBoundary =>
    rw [hφ] at hsound
    rcases hsound with ⟨-, hstatus⟩ | ⟨-, hstatus⟩
    · simp [hstatus, NSStreamStatus.isOver] at hover
    · simp [left, hφ, hstatus]
  | header =>
    rw [hφ] at hsound
    simp [hsound.2, NSStreamStatus.isOver] at hover
  | body =>
    rw [hφ] at hsound
    simp [hsound, NSStreamStatus.isOver] at hover
  | finalBoundary => exact absurd hφ hfinal

/-! ### Parts of which nothing is read yet -/

theorem sound_rewound (p : BodyPart) : p.rewound.Sound := .inl ⟨Nat.zero_le _, rfl⟩

theorem left_rewound (p : BodyPart) : p.rewound.left = p.wire := rfl

theorem flags_eq_of_rewound_eq (h : q.rewound = p.rewound) :
    q.hasInitialBoundary = p.hasInitialBoundary ∧ q.hasFinalBoundary = p.hasFinalBoundary := by
  have hfirst : q.rewound.hasInitialBoundary = p.rewound.hasInitialBoundary := by rw [h]
  have hlast : q.rewound.hasFinalBoundary = p.rewound.hasFinalBoundary := by rw [h]
  exact ⟨hfirst, hlast⟩

theorem length_wire (h : p.bodyContentLength = p.body.length) :
    p.wire.length = p.contentLength := by
  rw [wire, contentLength, List.length_append, List.length_append, List.length_append, h]

end BodyPart

end LeYiDai.Multipart
