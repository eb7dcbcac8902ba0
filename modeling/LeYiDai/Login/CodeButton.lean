import LeYiDai.Foundation.TextField
import LeYiDai.Lib.Machine

/-! The code button next to a phone field. The login, the bank card and the operator screen each
    hold a copy of it: a flag, a request for a code, and a countdown per successful reply.

        phone edit ──▶ enabled iff 11 units, unless the flag is up
        tap ──▶ getSysCode ──▶ flag up, countdown from 60
        tick ──▶ disabled, flag down (60 times) ──▶ enabled -/

namespace LeYiDai

/-- A countdown, by the request whose reply started it. -/
structure Countdown where
  id : ℕ
  timeout : ℕ
  deriving DecidableEq

structure GetSysCode where
  id : ℕ
  phone : NSString
  appscen : NSString
  deriving DecidableEq

structure CodeButton where
  phoneText : NSString
  enabled : Bool
  title : NSString
  isGetCodeSuccess : Bool
  timers : List Countdown
  nextId : ℕ
  inFlight : List GetSysCode
  deriving DecidableEq

inductive CodeEvent where
  | textDidChange (text : NSString) (marked : Bool)
  | codeButtonClick
  | reply (id : ℕ) (body : Reply Unit)
  | tick (id : ℕ)

/-- What the user does, as opposed to what replies and countdowns do. -/
def CodeEvent.byUser : CodeEvent → Bool
  | .textDidChange _ _ | .codeButtonClick => true
  | .reply _ _ | .tick _ => false

/-- The event a screen hands on to its code button: what the user does needs the screen on top. -/
def CodeEvent.reaches (onTop : Bool) (e : CodeEvent) : Option CodeEvent :=
  if e.byUser && !onTop then none else some e

namespace CodeButton

/-- The button of a new screen. -/
def new : CodeButton where
  phoneText := []
  enabled := false
  title := ns "获取验证码"
  isGetCodeSuccess := false
  timers := []
  nextId := 0
  inFlight := []

/-- `textFieldDidChange:LimitLength:` on the phone field. -/
def textFieldDidChange (c : ComposedSequences) (text : NSString) (marked : Bool) (s : CodeButton) :
    CodeButton :=
  let s := { s with phoneText := limitLength c 11 text marked }
  if s.isGetCodeSuccess then s else { s with enabled := s.phoneText.length = 11 }

/-- `codeButtonClick`, on a button that takes touches. -/
def codeButtonClick (appscen : NSString) (s : CodeButton) : CodeButton × List GetSysCode :=
  if s.enabled && isPhoneNumber s.phoneText then
    let r : GetSysCode := { id := s.nextId, phone := s.phoneText, appscen }
    ({ s with nextId := s.nextId + 1, inFlight := s.inFlight ++ [r] }, [r])
  else (s, [])

/-- The completion block of `getSysCode:`. A failure and a refusal change nothing. -/
def completion (id : ℕ) (body : Reply Unit) (s : CodeButton) : CodeButton :=
  match body with
  | .result _ => { s with
      isGetCodeSuccess := true
      timers := s.timers ++ [{ id, timeout := 60 }] }
  | _ => s

/-- The event handler of a countdown, up to what it does on the main queue. -/
def tick (t : Countdown) (s : CodeButton) : CodeButton :=
  if t.timeout = 0 then { s with
    timers := s.timers.filter (·.id ≠ t.id)
    enabled := true
    title := ns "获取验证码" }
  else { s with
    timers := s.timers.map fun u => if u.id = t.id then { u with timeout := u.timeout - 1 } else u
    enabled := false
    title := ns (toString t.timeout) ++ ns "S"
    isGetCodeSuccess := false }

def find (s : CodeButton) (id : ℕ) : Option GetSysCode := s.inFlight.find? (·.id = id)

/-- The request is no longer in flight. -/
def answered (id : ℕ) (s : CodeButton) : CodeButton :=
  { s with inFlight := s.inFlight.filter (·.id ≠ id) }

def step (c : ComposedSequences) (appscen : NSString) (s : CodeButton) :
    CodeEvent → Option (CodeButton × List GetSysCode)
  | .textDidChange text marked => some (s.textFieldDidChange c text marked, [])
  | .codeButtonClick => some (s.codeButtonClick appscen)
  | .reply id body =>
    match s.find id with
    | none => some (s, [])
    | some _ => some ((s.answered id).completion id body, [])
  | .tick id =>
    match s.timers.find? (·.id = id) with
    | none => some (s, [])
    | some t => some (s.tick t, [])

def machine (c : ComposedSequences) (appscen : NSString) :
    Machine CodeButton CodeEvent GetSysCode := ⟨step c appscen⟩

/-- What a step can do to the button: an edit, a code asked for, a reply to a request in flight, a
    tick of a countdown, and nothing when a reply or a tick finds neither. -/
theorem step_cases {c : ComposedSequences} {appscen : NSString} {s s' : CodeButton} {e : CodeEvent}
    {os : List GetSysCode} (h : s.step c appscen e = some (s', os)) :
    (∃ text marked, e = .textDidChange text marked ∧ s' = s.textFieldDidChange c text marked) ∨
    (e = .codeButtonClick ∧ ∃ nextId inFlight, s' = { s with nextId, inFlight }) ∨
    (∃ id body r, e = .reply id body ∧ s.find id = some r ∧
      s' = (s.answered id).completion id body) ∨
    (∃ id t, e = .tick id ∧ s.timers.find? (·.id = id) = some t ∧ s' = s.tick t) ∨
    (∃ id body, e = .reply id body ∧ s.find id = none ∧ s' = s) ∨
    (∃ id, e = .tick id ∧ s.timers.find? (·.id = id) = none ∧ s' = s) := by
  cases e with
  | textDidChange text marked =>
    cases h
    exact .inl ⟨text, marked, rfl, rfl⟩
  | codeButtonClick =>
    simp only [step, codeButtonClick] at h
    split_ifs at h <;> cases h <;> exact .inr (.inl ⟨rfl, _, _, rfl⟩)
  | reply id body =>
    simp only [step] at h
    split at h
    · rename_i hfind
      cases h
      exact .inr (.inr (.inr (.inr (.inl ⟨id, body, rfl, hfind, rfl⟩))))
    · rename_i r hfind
      cases h
      exact .inr (.inr (.inl ⟨id, body, r, rfl, hfind, rfl⟩))
  | tick id =>
    simp only [step] at h
    split at h
    · rename_i hfind
      cases h
      exact .inr (.inr (.inr (.inr (.inr ⟨id, rfl, hfind, rfl⟩))))
    · rename_i t hfind
      cases h
      exact .inr (.inr (.inr (.inl ⟨id, t, rfl, hfind, rfl⟩)))

/-- Only an edit changes the phone. -/
theorem phoneText_step {c : ComposedSequences} {appscen : NSString} {s s' : CodeButton}
    {e : CodeEvent} {os : List GetSysCode} (he : ∀ text marked, e ≠ .textDidChange text marked)
    (h : s.step c appscen e = some (s', os)) : s'.phoneText = s.phoneText := by
  rcases step_cases h with ⟨text, marked, rfl, -⟩ | ⟨-, _, _, rfl⟩ | ⟨_, body, _, -, -, rfl⟩ |
    ⟨_, t, -, -, rfl⟩ | ⟨_, _, -, -, rfl⟩ | ⟨_, -, -, rfl⟩
  · exact absurd rfl (he text marked)
  · rfl
  · cases body <;> rfl
  · rw [tick]
    split_ifs <;> rfl
  · rfl
  · rfl

/-- A screen that hands an event on to its code button takes a step of the button, and one that
    keeps it back leaves the button alone. -/
theorem handOn_cases {σ ω : Type} {c : ComposedSequences} {appscen : NSString} {s s' : σ}
    {codeBut : σ → CodeButton} {done : CodeEvent → CodeButton → σ} {sent : GetSysCode → ω}
    {onTop : Bool} {e : CodeEvent} {os : List ω} (hdone : ∀ e b, codeBut (done e b) = b)
    (h : (match e.reaches onTop with
      | none => some (s, [])
      | some e => ((codeBut s).step c appscen e).map fun (b, rs) => (done e b, rs.map sent)) =
        some (s', os)) :
    e.reaches onTop = none ∧ codeBut s' = codeBut s ∨
      ∃ e' rs, e.reaches onTop = some e' ∧
        (machine c appscen).step (codeBut s) e' = some (codeBut s', rs) := by
  split at h
  · rename_i hnone
    cases h
    exact .inl ⟨hnone, rfl⟩
  · rename_i e' hsome
    obtain ⟨⟨b, rs⟩, hb, heq⟩ := Option.map_eq_some_iff.mp h
    cases heq
    refine .inr ⟨e', rs, hsome, ?_⟩
    rw [hdone]
    exact hb

/-! ### When the button tells the truth -/

/-- The countdowns that run. One that has not ticked yet counts from the reply that started it when
    `fresh`, else from its first tick. -/
def running (fresh : Bool) (timers : List Countdown) : List Countdown :=
  timers.filter fun t => fresh || t.timeout < 60

/-- The phone has 11 units and no countdown runs. -/
def Ready (fresh : Bool) (s : CodeButton) : Prop :=
  s.phoneText.length = 11 ∧ running fresh s.timers = []

/-- The button is enabled exactly when the phone has 11 units and no countdown runs. -/
def Truthful (fresh : Bool) (s : CodeButton) : Prop := s.enabled = true ↔ s.Ready fresh

/-- What keeps the button truthful. A phone of 11 units is typed only while no countdown runs, and
    right after a reply, while the flag is up, only for another of 11 units; a countdown ends over a
    phone of 11 units and as the last one; and a reply, where it starts the count, finds the button
    not ready. -/
def Steady (c : ComposedSequences) (fresh : Bool) (s : CodeButton) : CodeEvent → Prop
  | .textDidChange text marked =>
    if s.isGetCodeSuccess then running fresh s.timers = [] →
      ((limitLength c 11 text marked).length = 11 ↔ s.phoneText.length = 11)
    else (limitLength c 11 text marked).length = 11 → running fresh s.timers = []
  | .reply id (.result _) => (s.find id).isSome → fresh = true → ¬ s.Ready fresh
  | .tick id => ∀ t ∈ s.timers.find? (·.id = id), t.timeout = 0 →
    s.phoneText.length = 11 ∧ running fresh (s.timers.filter (·.id ≠ t.id)) = []
  | _ => True

/-- The button is truthful, and no countdown is longer than the 60 it started with. -/
structure Counted (fresh : Bool) (s : CodeButton) : Prop where
  truthful : s.Truthful fresh
  timeouts : ∀ t ∈ s.timers, t.timeout ≤ 60

variable {c : ComposedSequences} {appscen : NSString} {fresh : Bool} {s s' : CodeButton}
  {os : List GetSysCode}

theorem counted_new : Counted fresh new where
  truthful := by simp [Truthful, Ready, new]
  timeouts _ h := nomatch h

theorem timeouts_tick (hI : ∀ t ∈ s.timers, t.timeout ≤ 60) (t : Countdown) :
    ∀ u ∈ (s.tick t).timers, u.timeout ≤ 60 := by
  rw [tick]
  split_ifs
  · intro u hu
    exact hI u (List.mem_of_mem_filter hu)
  · intro u hu
    obtain ⟨v, hv, rfl⟩ := List.mem_map.mp hu
    have hle := hI v hv
    split_ifs
    · exact le_trans (Nat.sub_le _ _) hle
    · exact hle

theorem timeouts_step {e : CodeEvent} (hI : ∀ t ∈ s.timers, t.timeout ≤ 60)
    (h : (machine c appscen).step s e = some (s', os)) : ∀ t ∈ s'.timers, t.timeout ≤ 60 := by
  rcases step_cases h with ⟨_, _, -, rfl⟩ | ⟨-, _, _, rfl⟩ | ⟨_, body, _, -, -, rfl⟩ |
    ⟨_, t, -, -, rfl⟩ | ⟨_, _, -, -, rfl⟩ | ⟨_, -, -, rfl⟩
  · rw [textFieldDidChange]
    simp only
    split_ifs <;> exact hI
  · exact hI
  · cases body with
    | failure | refused => exact hI
    | result u =>
      intro t ht
      rcases List.mem_append.mp ht with ht | ht
      · exact hI t ht
      · rw [List.mem_singleton.mp ht]
  · exact timeouts_tick hI t
  · exact hI
  · exact hI

/-- A countdown that ticks and goes on is one that runs. -/
theorem running_tick {timers : List Countdown} {t : Countdown} (fresh : Bool)
    (hI : ∀ t ∈ timers, t.timeout ≤ 60) (hmem : t ∈ timers) :
    running fresh (timers.map fun u =>
      if u.id = t.id then { u with timeout := u.timeout - 1 } else u) ≠ [] := by
  have hle := hI t hmem
  refine List.ne_nil_of_mem (a := { t with timeout := t.timeout - 1 }) ?_
  refine List.mem_filter.mpr ⟨List.mem_map.mpr ⟨t, hmem, by simp⟩, ?_⟩
  have hlt : t.timeout - 1 < 60 := by omega
  simp [hlt]

theorem running_append (timers : List Countdown) (id : ℕ) :
    running fresh (timers ++ [{ id, timeout := 60 }]) = [] ↔
      running fresh timers = [] ∧ fresh = false := by
  cases fresh <;> simp [running]

/-- A reply with a code leaves the button ready only while its countdown counts from the first
    tick. -/
theorem ready_result (id : ℕ) (u : Option Unit) :
    ((s.answered id).completion id (.result u)).Ready fresh ↔ s.Ready fresh ∧ fresh = false := by
  rw [Ready, Ready, completion]
  simp only [running_append, answered, and_assoc]

/-- The step leaves the button truthful iff its event is steady. -/
theorem truthful_step {e : CodeEvent} (hI : Counted fresh s)
    (h : (machine c appscen).step s e = some (s', os)) :
    s'.Truthful fresh ↔ Steady c fresh s e := by
  obtain ⟨htruth, htimeouts⟩ := hI
  rcases step_cases h with ⟨text, marked, rfl, rfl⟩ | ⟨rfl, _, _, rfl⟩ |
    ⟨id, body, r, rfl, hr, rfl⟩ | ⟨id, t, rfl, ht, rfl⟩ | ⟨id, body, rfl, hr, rfl⟩ | ⟨id, rfl, ht, rfl⟩
  · rw [textFieldDidChange, Truthful, Ready, Steady]
    simp only
    split_ifs with hflag
    · rw [Truthful, Ready] at htruth
      rw [htruth]
      tauto
    · simp only [decide_eq_true_eq]
      tauto
  · exact iff_of_true htruth trivial
  · cases body with
    | failure | refused => exact iff_of_true htruth trivial
    | result u =>
      have henabled : ((s.answered id).completion id (.result u)).enabled = s.enabled := rfl
      rw [Truthful] at htruth ⊢
      rw [ready_result, henabled, htruth, Steady, hr]
      cases fresh <;> simp
  · rw [tick, Steady, ht]
    split_ifs with hend
    · simp [Truthful, Ready, hend]
    · have hruns := running_tick fresh htimeouts (List.mem_of_find?_eq_some ht)
      simp [Truthful, Ready, hruns, hend]
  · cases body <;> simp [Steady, hr, htruth]
  · simp [Steady, ht, htruth]

end CodeButton

end LeYiDai
