import LeYiDai.AFNetworking.BodyPart
import LeYiDai.Lib.Machine

/-! AFMultipartBodyStream: the body of an upload as one stream over its parts. A read goes through
    the parts with an enumerator and fills the buffer from the current one, so that the pieces
    depend on the sizes of the buffers and the bytes do not. The system opens and closes the stream,
    and copies it when it needs the body again.

        open ──▶ read 16 ──▶ read 1024 ──▶ read .. ──▶ []      left s:  what is still to come
          copy, at any point ──▶ the stream as it was before  -/

namespace LeYiDai.Multipart

open Failure (NSData)
open Delivery BodyPart

def NSIntegerMax : ℕ := 2 ^ 63 - 1

/-- `HTTPBodyPartEnumerator` stands before the part with its number, `currentHTTPBodyPart` is the
    number of one. -/
structure BodyStream where
  HTTPBodyParts : List BodyPart
  HTTPBodyPartEnumerator : Option ℕ
  currentHTTPBodyPart : Option ℕ
  streamStatus : NSStreamStatus
  streamError : Bool
  numberOfBytesInPacket : ℕ
  deriving DecidableEq

/-- Both flags off in every part, then the first one's and the last one's on. -/
def withBoundaries (parts : List BodyPart) : List BodyPart :=
  ((parts.map fun p => { p with hasInitialBoundary := false, hasFinalBoundary := false }).modify 0
    fun p => { p with hasInitialBoundary := true }).modify (parts.length - 1)
    fun p => { p with hasFinalBoundary := true }

namespace BodyStream

/-- `initWithStringEncoding:`. -/
def init : BodyStream :=
  { HTTPBodyParts := []
    HTTPBodyPartEnumerator := none
    currentHTTPBodyPart := none
    streamStatus := .notOpen
    streamError := false
    numberOfBytesInPacket := NSIntegerMax }

def setInitialAndFinalBoundaries (s : BodyStream) : BodyStream :=
  { s with HTTPBodyParts := withBoundaries s.HTTPBodyParts }

def appendHTTPBodyPart (p : BodyPart) (s : BodyStream) : BodyStream :=
  { s with HTTPBodyParts := s.HTTPBodyParts ++ [p] }

def isEmpty (s : BodyStream) : Bool := s.HTTPBodyParts.length = 0

def contentLength (s : BodyStream) : ℕ := (s.HTTPBodyParts.map BodyPart.contentLength).sum

/-- `open`. -/
def opens (s : BodyStream) : BodyStream :=
  if s.streamStatus = .opened then s
  else
    { s.setInitialAndFinalBoundaries with
      streamStatus := .opened
      HTTPBodyPartEnumerator := some 0 }

def close (s : BodyStream) : BodyStream := { s with streamStatus := .closed }

/-- `self.currentHTTPBodyPart = [self.HTTPBodyPartEnumerator nextObject]`, and the loop goes on
    unless there is none. -/
def nextObject (s : BodyStream) : Pull BodyStream UInt8 :=
  match s.HTTPBodyPartEnumerator with
  | none => .stop { s with currentHTTPBodyPart := none }
  | some k =>
    if k < s.HTTPBodyParts.length then
      .got [] { s with currentHTTPBodyPart := some k, HTTPBodyPartEnumerator := some (k + 1) }
    else .stop { s with currentHTTPBodyPart := none }

/-- The stream after a read of its part number `i` has changed it. -/
def setPart (s : BodyStream) (i : ℕ) (q : BodyPart) : BodyStream :=
  { s with HTTPBodyParts := s.HTTPBodyParts.set i q }

/-- One round of the loop of `read:maxLength:`. -/
def round (D : DataStreams) (s : BodyStream) (room : ℕ) : Option (Pull BodyStream UInt8) :=
  match s.currentHTTPBodyPart.bind fun i => s.HTTPBodyParts[i]?.map fun p => (i, p) with
  | none => some s.nextObject
  | some (i, p) =>
    if p.hasBytesAvailable then
      (p.read D room).map fun
        | (none, q) => .stop { s.setPart i q with streamError := true }
        | (some out, q) => .got out (s.setPart i q)
    else some s.nextObject

/-- `read:maxLength:`. A part takes at most five rounds in which no byte is read. -/
def read (D : DataStreams) (s : BodyStream) (length : ℕ) : Option (NSData × BodyStream) :=
  if s.streamStatus = .closed then some ([], s)
  else
    fill (round D) (min length s.numberOfBytesInPacket + 5 * s.HTTPBodyParts.length) s
      (min length s.numberOfBytesInPacket)

/-- `copyWithZone:`. -/
def copy (s : BodyStream) : BodyStream :=
  ((s.HTTPBodyParts.map BodyPart.copy).foldl (fun t p => t.appendHTTPBodyPart p)
    init).setInitialAndFinalBoundaries

/-- What the system does with the stream. -/
inductive Event where
  | opens
  | read (maxLength : ℕ)
  | close
  deriving DecidableEq

/-- The stream in the hands of the system; what is read comes out. -/
def machine (D : DataStreams) : Machine BodyStream Event NSData where
  step s
    | .opens => some (s.opens, [])
    | .read n => (s.read D n).map fun r => (r.2, [r.1])
    | .close => some (s.close, [])

/-- The bytes of the whole body. -/
def wire (s : BodyStream) : NSData := s.HTTPBodyParts.flatMap BodyPart.wire

/-- The bytes that are still to be read. -/
def left (s : BodyStream) : NSData := s.HTTPBodyParts.flatMap BodyPart.left

/-- What holds of a stream on its way through the parts: those in front of the enumerator and in
    front of the current part have been read, and the boundaries stand at the ends. -/
structure Sound (s : BodyStream) : Prop where
  parts : ∀ p ∈ s.HTTPBodyParts, p.Sound
  flags : ∀ i p, s.HTTPBodyParts[i]? = some p →
    p.hasInitialBoundary = decide (i = 0) ∧
      p.hasFinalBoundary = decide (i = s.HTTPBodyParts.length - 1)
  enumerates : s.streamStatus = .opened → s.HTTPBodyPartEnumerator ≠ none
  passed : ∀ k, s.HTTPBodyPartEnumerator = some k → ∀ j p, j < k →
    s.currentHTTPBodyPart ≠ some j → s.HTTPBodyParts[j]? = some p → p.left = []
  front : ∀ i, s.currentHTTPBodyPart = some i → ∀ j p, j < i →
    s.HTTPBodyParts[j]? = some p → p.left = []

/-- What a run leaves alone. -/
def text (s : BodyStream) : List BodyPart × ℕ :=
  (s.HTTPBodyParts.map BodyPart.rewound, s.numberOfBytesInPacket)

/-- The rounds that may still go by without a byte. -/
def roundsLeft (s : BodyStream) : ℕ :=
  (s.HTTPBodyParts.map BodyPart.phasesLeft).sum +
    s.HTTPBodyPartEnumerator.elim 0 fun k => s.HTTPBodyParts.length - k

variable {s t : BodyStream} {D : DataStreams}

theorem getElem?_withBoundaries (parts : List BodyPart) (i : ℕ) :
    (withBoundaries parts)[i]? = parts[i]?.map fun p =>
      { p with
        hasInitialBoundary := decide (i = 0)
        hasFinalBoundary := decide (i = parts.length - 1) } := by
  rw [withBoundaries, List.getElem?_modify, List.getElem?_modify, List.getElem?_map]
  generalize parts.length - 1 = last
  cases parts[i]? with
  | none => simp
  | some p =>
    by_cases hfirst : 0 = i <;> by_cases hlast : last = i <;>
      simp [hfirst, hlast, @eq_comm ℕ i 0, @eq_comm ℕ i last]

/-- Boundaries that stand at the ends are set again to what they are. -/
theorem withBoundaries_eq_self {parts : List BodyPart}
    (h : ∀ i p, parts[i]? = some p → p.hasInitialBoundary = decide (i = 0) ∧
      p.hasFinalBoundary = decide (i = parts.length - 1)) : withBoundaries parts = parts := by
  refine List.ext_getElem? fun i => ?_
  rw [getElem?_withBoundaries]
  cases hi : parts[i]? with
  | none => rfl
  | some p =>
    obtain ⟨hfirst, hlast⟩ := h i p hi
    rw [Option.map_some, ← hfirst, ← hlast]

/-! ### One round -/

theorem left_eq_of_passed {parts : List BodyPart} {i : ℕ} {p : BodyPart} (hi : parts[i]? = some p)
    (h : ∀ j q, j < i → parts[j]? = some q → q.left = []) :
    parts.flatMap BodyPart.left = p.left ++ (parts.drop (i + 1)).flatMap BodyPart.left := by
  obtain ⟨hlt, rfl⟩ := List.getElem?_eq_some_iff.mp hi
  have hfront : (parts.take i).flatMap BodyPart.left = [] := by
    rw [List.flatMap_eq_nil_iff]
    intro q hq
    obtain ⟨j, hj, rfl⟩ := List.mem_take_iff_getElem.mp hq
    exact h j _ (by omega) (List.getElem?_eq_getElem _)
  conv_lhs => rw [← List.take_append_drop i parts, List.drop_eq_getElem_cons hlt]
  rw [List.flatMap_append, hfront, List.nil_append, List.flatMap_cons]

variable {i : ℕ} {p q : BodyPart} {out : NSData} {room : ℕ}

theorem getElem?_setPart_self (hi : s.HTTPBodyParts[i]? = some p) :
    (s.setPart i q).HTTPBodyParts[i]? = some q := by
  obtain ⟨hlt, -⟩ := List.getElem?_eq_some_iff.mp hi
  exact List.getElem?_set_self hlt

theorem getElem?_setPart_ne {j : ℕ} (h : i ≠ j) :
    (s.setPart i q).HTTPBodyParts[j]? = s.HTTPBodyParts[j]? := List.getElem?_set_ne h

/-- A read of the current part keeps the stream sound. -/
theorem Sound.setPart (h : s.Sound) (hcurrent : s.currentHTTPBodyPart = some i)
    (hi : s.HTTPBodyParts[i]? = some p) (hadv : p.Advances room out q) : (s.setPart i q).Sound := by
  refine ⟨?_, ?_, h.enumerates, ?_, ?_⟩
  · intro r hr
    rcases List.mem_or_eq_of_mem_set hr with hr | rfl
    · exact h.parts r hr
    · exact hadv.sound
  · intro j r hr
    have hlength : (s.setPart i q).HTTPBodyParts.length = s.HTTPBodyParts.length :=
      List.length_set
    rw [hlength]
    rcases eq_or_ne i j with rfl | hne
    · rw [getElem?_setPart_self hi] at hr
      cases hr
      obtain ⟨hfirst, hlast⟩ := flags_eq_of_rewound_eq hadv.rewinds
      rw [hfirst, hlast]
      exact h.flags i p hi
    · rw [getElem?_setPart_ne hne] at hr
      exact h.flags j r hr
  · intro k hk j r hj hcur hr
    have hne : i ≠ j := by
      rintro rfl
      exact hcur hcurrent
    rw [getElem?_setPart_ne hne] at hr
    exact h.passed k hk j r hj hcur hr
  · intro k hk j r hj hr
    obtain rfl : k = i := Option.some.inj (hk.symm.trans hcurrent)
    rw [getElem?_setPart_ne hj.ne'] at hr
    exact h.front k hk j r hj hr

theorem Sound.left_setPart (h : s.Sound) (hcurrent : s.currentHTTPBodyPart = some i)
    (hi : s.HTTPBodyParts[i]? = some p) (hadv : p.Advances room out q) :
    s.left = out ++ (s.setPart i q).left := by
  have hfront := h.front i hcurrent
  have hfront' : ∀ j r, j < i → (s.setPart i q).HTTPBodyParts[j]? = some r → r.left = [] := by
    intro j r hj hr
    rw [getElem?_setPart_ne hj.ne'] at hr
    exact hfront j r hj hr
  have hdrop : (s.setPart i q).HTTPBodyParts.drop (i + 1) = s.HTTPBodyParts.drop (i + 1) :=
    List.drop_set_of_lt (Nat.lt_succ_self i)
  rw [left, left, left_eq_of_passed hi hfront, left_eq_of_passed (getElem?_setPart_self hi) hfront',
    hdrop, hadv.split, List.append_assoc]

theorem text_setPart (hi : s.HTTPBodyParts[i]? = some p) (hadv : p.Advances room out q) :
    (s.setPart i q).text = s.text := by
  obtain ⟨hlt, rfl⟩ := List.getElem?_eq_some_iff.mp hi
  have hmap : (s.setPart i q).HTTPBodyParts.map BodyPart.rewound =
      s.HTTPBodyParts.map BodyPart.rewound := by
    rw [setPart, List.map_set, hadv.rewinds]
    refine List.ext_getElem (by simp) fun j _ _ => ?_
    rw [List.getElem_set]
    split_ifs with hj
    · simp [hj]
    · rfl
  rw [text, text, hmap]
  rfl

theorem roundsLeft_setPart (hi : s.HTTPBodyParts[i]? = some p) :
    (s.setPart i q).roundsLeft + p.phasesLeft = s.roundsLeft + q.phasesLeft := by
  obtain ⟨hlt, rfl⟩ := List.getElem?_eq_some_iff.mp hi
  obtain ⟨l₁, l₂, hl, -, hset⟩ : ∃ l₁ l₂, s.HTTPBodyParts = l₁ ++ s.HTTPBodyParts[i] :: l₂ ∧
      l₁.length = i ∧ s.HTTPBodyParts.set i q = l₁ ++ q :: l₂ := List.exists_of_set hlt
  have hlength : (s.HTTPBodyParts.set i q).length = s.HTTPBodyParts.length := List.length_set
  rw [roundsLeft, roundsLeft, setPart]
  simp only [hlength]
  have hsum : ((s.HTTPBodyParts.set i q).map BodyPart.phasesLeft).sum +
      (s.HTTPBodyParts[i]).phasesLeft =
        (s.HTTPBodyParts.map BodyPart.phasesLeft).sum + q.phasesLeft := by
    rw [hset]
    conv_rhs => rw [hl]
    simp only [List.map_append, List.map_cons, List.sum_append, List.sum_cons]
    omega
  omega

/-- An open stream of the given parts. -/
structure Reading (base : List BodyPart × ℕ) (s : BodyStream) : Prop where
  sound : s.Sound
  opened : s.streamStatus = .opened
  noError : s.streamError = false
  text_eq : s.text = base

variable {base : List BodyPart × ℕ}

/-- Behind a part that has been read the enumerator goes on, or the body ends. -/
theorem Reading.nextObject (h : s.Reading base)
    (hread : ∀ i p, s.currentHTTPBodyPart = some i → s.HTTPBodyParts[i]? = some p → p.left = [])
    (room : ℕ) : Accounts left roundsLeft (Reading base) s room s.nextObject := by
  obtain ⟨k, hk⟩ := Option.ne_none_iff_exists'.mp (h.sound.enumerates h.opened)
  have hpassed : ∀ j p, j < k → s.HTTPBodyParts[j]? = some p → p.left = [] := by
    intro j p hj hp
    by_cases hcurrent : s.currentHTTPBodyPart = some j
    · exact hread j p hcurrent hp
    · exact h.sound.passed k hk j p hj hcurrent hp
  rw [BodyStream.nextObject, hk]
  dsimp only
  split_ifs with hlt
  · refine .got ⟨⟨h.sound.parts, h.sound.flags, ?_, ?_, ?_⟩, h.opened, h.noError, h.text_eq⟩ rfl
      (Nat.zero_le _) ?_ fun _ => ?_
    · exact fun _ hnone => nomatch hnone
    · intro k' hk' j p hj hcurrent hp
      cases hk'
      have hne : j ≠ k := by
        rintro rfl
        exact hcurrent rfl
      exact hpassed j p (by omega) hp
    · intro i hi j p hj hp
      cases hi
      exact hpassed j p hj hp
    all_goals
      simp only [roundsLeft, hk, Option.elim_some]
      omega
  · have hdry : s.left = [] := by
      rw [left, List.flatMap_eq_nil_iff]
      intro p hp
      obtain ⟨j, hj, rfl⟩ := List.mem_iff_getElem.mp hp
      exact hpassed j _ (by omega) (List.getElem?_eq_getElem hj)
    refine .stop ⟨⟨h.sound.parts, h.sound.flags, ?_, ?_, ?_⟩, h.opened, h.noError, h.text_eq⟩
      hdry hdry
    · exact fun _ hnone => nomatch hnone
    · intro k' hk' j p hj _ hp
      cases hk'
      exact hpassed j p hj hp
    · exact fun i hi => nomatch hi

/-- Every round hands out the next bytes, goes on to the next part, or finds that none is left. -/
theorem supplies_round (D : DataStreams) :
    Supplies (round D) left roundsLeft (Reading base) := by
  intro s room h hroom
  rw [round]
  cases hcurrent : s.currentHTTPBodyPart with
  | none => exact ⟨_, rfl, h.nextObject (by simp [hcurrent]) room⟩
  | some i =>
    rw [Option.bind_some]
    cases hi : s.HTTPBodyParts[i]? with
    | none =>
      refine ⟨_, rfl, h.nextObject ?_ room⟩
      intro j p hj hp
      rw [hcurrent] at hj
      cases hj
      rw [hi] at hp
      cases hp
    | some p =>
      have hsound : p.Sound := h.sound.parts p (List.mem_of_getElem? hi)
      rw [Option.map_some]
      dsimp only
      split_ifs with hbytes
      · obtain ⟨out, q, hread, hadv, hmoves⟩ := read_advances D hsound hbytes room
        refine ⟨_, by rw [hread]; rfl, ?_⟩
        have hrounds := roundsLeft_setPart (q := q) hi
        have hshrinks := hadv.shrinks
        refine .got ⟨h.sound.setPart hcurrent hi hadv, h.opened, h.noError, ?_⟩
          (h.sound.left_setPart hcurrent hi hadv) hadv.fits (by omega) ?_
        · rw [text_setPart hi hadv, h.text_eq]
        · intro hout
          have := hmoves hroom hout
          omega
      · refine ⟨_, rfl, h.nextObject ?_ room⟩
        intro j r hj hr
        rw [hcurrent] at hj
        cases hj
        rw [hi] at hr
        cases hr
        exact left_of_not_hasBytesAvailable hsound (by simpa using hbytes)

theorem roundsLeft_le (s : BodyStream) : s.roundsLeft ≤ 5 * s.HTTPBodyParts.length := by
  have hphases : ∀ p : BodyPart, p.phasesLeft ≤ 4 := by
    intro p
    rw [phasesLeft]
    cases p.phase with
    | encapsulationBoundary =>
      dsimp only
      split_ifs <;> omega
    | header | body | finalBoundary =>
      dsimp only
      omega
  have hsum : ∀ parts : List BodyPart, (parts.map phasesLeft).sum ≤ 4 * parts.length := by
    intro parts
    induction parts with
    | nil => exact Nat.zero_le _
    | cons p parts ih =>
      have := hphases p
      rw [List.map_cons, List.sum_cons, List.length_cons]
      omega
  have := hsum s.HTTPBodyParts
  have henumerator : (s.HTTPBodyPartEnumerator.elim 0 fun k => s.HTTPBodyParts.length - k) ≤
      s.HTTPBodyParts.length := by
    cases s.HTTPBodyPartEnumerator with
    | none => exact Nat.zero_le _
    | some k => exact Nat.sub_le _ _
  rw [roundsLeft]
  omega

/-- A read of an open stream fills its buffer, up to a packet, as far as the body reaches. -/
theorem Reading.read (D : DataStreams) (h : s.Reading base) (n : ℕ) :
    ∃ t, s.read D n = some (s.left.take (min n base.2), t) ∧
      t.left = s.left.drop (min n base.2) ∧ t.Reading base := by
  have hpacket : s.numberOfBytesInPacket = base.2 := congrArg Prod.snd h.text_eq
  rw [BodyStream.read, if_neg (by simp [h.opened]), hpacket]
  exact fill_eq (supplies_round D) _ s _ h (by have := s.roundsLeft_le; omega)

theorem delivers (D : DataStreams) (base : List BodyPart × ℕ) :
    Delivers (BodyStream.read D) left (min · base.2) (Reading base) :=
  fun _ n h => h.read D n

/-! ### Runs -/

/-- A stream in the hands of the system, of the given parts. -/
structure Handled (base : List BodyPart × ℕ) (s : BodyStream) : Prop where
  sound : s.Sound
  noError : s.streamError = false
  text_eq : s.text = base
  unopened : s.streamStatus = .opened ∨ s.streamStatus = .closed ∨
    s.currentHTTPBodyPart = none ∧ s.HTTPBodyPartEnumerator = none

theorem Handled.opens (h : s.Handled base) : s.opens.Reading base ∧ s.opens.left = s.left := by
  rw [BodyStream.opens]
  split_ifs with hopened
  · exact ⟨⟨h.sound, hopened, h.noError, h.text_eq⟩, rfl⟩
  · have hsame := withBoundaries_eq_self h.sound.flags
    rw [setInitialAndFinalBoundaries, hsame]
    refine ⟨⟨⟨h.sound.parts, h.sound.flags, ?_, ?_, h.sound.front⟩, rfl, h.noError, h.text_eq⟩, rfl⟩
    · exact fun _ hnone => nomatch hnone
    · intro k hk j p hj
      cases hk
      exact absurd hj (Nat.not_lt_zero j)

theorem Reading.handled (h : s.Reading base) : s.Handled base :=
  ⟨h.sound, h.noError, h.text_eq, .inl h.opened⟩

/-- What a read of the stream makes of it in any state: nothing comes out unless it is open. -/
theorem Handled.read (D : DataStreams) (h : s.Handled base) (n : ℕ) :
    ∃ out t, s.read D n = some (out, t) ∧ t.Handled base ∧ s.left = out ++ t.left := by
  rcases h.unopened with hopened | hclosed | ⟨hcurrent, henumerator⟩
  · obtain ⟨t, hread, hleft, ht⟩ :=
      Reading.read D ⟨h.sound, hopened, h.noError, h.text_eq⟩ n
    exact ⟨_, t, hread, ht.handled, by rw [hleft, List.take_append_drop]⟩
  · exact ⟨[], s, by rw [BodyStream.read, if_pos hclosed], h, rfl⟩
  · rw [BodyStream.read]
    split_ifs with hclosed
    · exact ⟨[], s, rfl, h, rfl⟩
    · -- without an enumerator there is no part, and the loop breaks at once
      have hstop : s.nextObject = .stop s := by
        obtain ⟨parts, enumerator, current, status, error, packet⟩ := s
        cases hcurrent
        cases henumerator
        rfl
      cases hroom : min n s.numberOfBytesInPacket with
      | zero => exact ⟨[], s, by rw [fill], h, rfl⟩
      | succ room =>
        rw [Nat.add_right_comm]
        exact ⟨[], s, by rw [fill, round, hcurrent, Option.bind_none]; simp [hstop], h, rfl⟩

/-- A run hands out the next bytes of the body and leaves the others to come. -/
theorem Handled.run (D : DataStreams) : ∀ (es : List Event) {s : BodyStream}, s.Handled base →
    ∃ t outs, (machine D).run s es = some (t, outs) ∧ t.Handled base ∧
      s.left = outs.flatten ++ t.left
  | [], s, h => ⟨s, [], rfl, h, rfl⟩
  | e :: es, s, h => by
      have hstep : ∃ t outs, (machine D).step s e = some (t, outs) ∧ t.Handled base ∧
          s.left = outs.flatten ++ t.left := by
        cases e with
        | opens =>
          obtain ⟨hreading, hleft⟩ := h.opens
          exact ⟨s.opens, [], rfl, hreading.handled, hleft.symm⟩
        | read n =>
          obtain ⟨out, t, hread, ht, hleft⟩ := h.read D n
          exact ⟨t, [out], by simp [machine, hread], ht, by simp [hleft]⟩
        | close =>
          have hsound : s.close.Sound :=
            ⟨h.sound.parts, h.sound.flags, nofun, h.sound.passed, h.sound.front⟩
          exact ⟨s.close, [], rfl, ⟨hsound, h.noError, h.text_eq, .inr (.inl rfl)⟩, rfl⟩
      obtain ⟨t₁, outs₁, hone, h₁, hleft₁⟩ := hstep
      obtain ⟨t, outs, hrun, ht, hleft⟩ := Handled.run D es h₁
      refine ⟨t, outs₁ ++ outs, ?_, ht, ?_⟩
      · rw [Machine.run, hone, Option.bind_some]
        simp [hrun]
      · rw [hleft₁, hleft, List.flatten_append, List.append_assoc]

/-- Opened, the stream hands out all that is left of the body to buffers that have room for it, and
    nothing to any buffer after these. -/
theorem Handled.reads_left (D : DataStreams) (h : s.Handled base) {ns : List ℕ}
    (hroom : s.left.length ≤ (ns.map (min · base.2)).sum) (ms : List ℕ) :
    ∃ pieces t, reads (BodyStream.read D) s.opens (ns ++ ms) =
      some (pieces ++ List.replicate ms.length [], t) ∧ pieces.flatten = s.left := by
  obtain ⟨hreading, hleft⟩ := h.opens
  obtain ⟨pieces, t, hreads, hflatten, -, -⟩ :=
    reads_whole (delivers D base) hreading (by rw [hleft]; exact hroom) ms
  exact ⟨pieces, t, hreads, by rw [hflatten, hleft]⟩

/-! ### Streams before the first read, and copies -/

/-- A stream of which nothing has been done but to set the boundaries. -/
structure Prepared (s : BodyStream) : Prop where
  parts : withBoundaries (s.HTTPBodyParts.map BodyPart.copy) = s.HTTPBodyParts
  measured : ∀ p ∈ s.HTTPBodyParts, p.bodyContentLength = p.body.length
  enumerator : s.HTTPBodyPartEnumerator = none
  current : s.currentHTTPBodyPart = none
  notOpen : s.streamStatus = .notOpen
  noError : s.streamError = false

theorem Prepared.getElem? (h : s.Prepared) (hi : s.HTTPBodyParts[i]? = some p) :
    p.rewound = p ∧ p.hasInitialBoundary = decide (i = 0) ∧
      p.hasFinalBoundary = decide (i = s.HTTPBodyParts.length - 1) := by
  have hcopy := hi
  rw [← h.parts, getElem?_withBoundaries, List.getElem?_map, hi, Option.map_some, Option.map_some,
    List.length_map] at hcopy
  rw [← Option.some.inj hcopy]
  exact ⟨rfl, rfl, rfl⟩

theorem Prepared.rewound (h : s.Prepared) (hp : p ∈ s.HTTPBodyParts) : p.rewound = p := by
  obtain ⟨i, hi⟩ := List.mem_iff_getElem?.mp hp
  exact (h.getElem? hi).1

theorem Prepared.handled (h : s.Prepared) : s.Handled s.text where
  sound :=
    { parts := fun p hp => h.rewound hp ▸ sound_rewound p
      flags := fun i p hi => (h.getElem? hi).2
      enumerates := fun hopened => by simp [h.notOpen] at hopened
      passed := fun k hk => by simp [h.enumerator] at hk
      front := fun i hi => by simp [h.current] at hi }
  noError := h.noError
  text_eq := rfl
  unopened := .inr (.inr ⟨h.current, h.enumerator⟩)

theorem Prepared.left_eq (h : s.Prepared) : s.left = s.wire := by
  rw [left, wire, List.flatMap_def, List.flatMap_def]
  refine congrArg List.flatten (List.map_congr_left fun p hp => ?_)
  rw [← left_rewound, h.rewound hp]

/-- The length announced for the body is the number of its bytes. -/
theorem Prepared.length_wire (h : s.Prepared) : s.wire.length = s.contentLength := by
  rw [wire, contentLength, List.length_flatMap]
  exact congrArg List.sum (List.map_congr_left fun p hp => BodyPart.length_wire (h.measured p hp))

theorem foldl_appendHTTPBodyPart : ∀ (parts : List BodyPart) (s : BodyStream),
    parts.foldl (fun t p => t.appendHTTPBodyPart p) s =
      { s with HTTPBodyParts := s.HTTPBodyParts ++ parts }
  | [], s => by rw [List.append_nil]; rfl
  | p :: parts, s => by
      rw [List.foldl_cons, foldl_appendHTTPBodyPart parts, appendHTTPBodyPart, List.append_assoc,
        List.singleton_append]

/-- Whatever the system does with the stream first, reads with room for the rest make up the bytes,
    and nothing comes after them. -/
def HandsOut (D : DataStreams) (s : BodyStream) (bytes : NSData) : Prop :=
  ∀ es : List Event, ∃ t outs, (machine D).run s es = some (t, outs) ∧
    ∀ ns ms : List ℕ,
      bytes.length ≤ outs.flatten.length + (ns.map (min · s.numberOfBytesInPacket)).sum →
        ∃ pieces u, reads (BodyStream.read D) t.opens (ns ++ ms) =
            some (pieces ++ List.replicate ms.length [], u) ∧
          outs.flatten ++ pieces.flatten = bytes

theorem Prepared.handsOut (D : DataStreams) (h : s.Prepared) : s.HandsOut D s.wire := by
  intro es
  obtain ⟨t, outs, hrun, ht, hleft⟩ := h.handled.run D es
  rw [h.left_eq] at hleft
  refine ⟨t, outs, hrun, fun ns ms hroom => ?_⟩
  have hrest : t.left.length ≤ (ns.map (min · s.text.2)).sum := by
    have hlength := congrArg List.length hleft
    rw [List.length_append] at hlength
    have hpacket : s.text.2 = s.numberOfBytesInPacket := rfl
    rw [hpacket]
    omega
  obtain ⟨pieces, u, hreads, hflatten⟩ := ht.reads_left D hrest ms
  exact ⟨pieces, u, hreads, by rw [hflatten, ← hleft]⟩

/-- However far the stream has been read, its copy is the stream as it stood before, but for the
    size of a packet. -/
theorem Prepared.copy_eq (h : s.Prepared) (ht : t.Handled s.text) :
    t.copy = { s with numberOfBytesInPacket := NSIntegerMax } := by
  have hcopies : t.HTTPBodyParts.map BodyPart.copy = s.HTTPBodyParts.map BodyPart.copy := by
    have hrewound : t.HTTPBodyParts.map BodyPart.rewound = s.HTTPBodyParts.map BodyPart.rewound :=
      congrArg Prod.fst ht.text_eq
    have := congrArg (List.map BodyPart.copy) hrewound
    rwa [List.map_map, List.map_map] at this
  rw [copy, foldl_appendHTTPBodyPart, hcopies]
  obtain ⟨parts, enumerator, current, status, error, packet⟩ := s
  obtain ⟨hparts, -, henumerator, hcurrent, hstatus, herror⟩ := h
  cases henumerator
  cases hcurrent
  cases hstatus
  cases herror
  rw [setInitialAndFinalBoundaries]
  dsimp only [init]
  rw [List.nil_append, hparts]

end BodyStream

end LeYiDai.Multipart
