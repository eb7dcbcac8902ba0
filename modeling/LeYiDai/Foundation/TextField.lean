import LeYiDai.Foundation.Values

/-! Text fields with a length limit. An edit that leaves no marked text and more units than the
    limit cuts the text, at the limit when the unit there stands alone, else after the composed
    character that reaches over it. Which units make one composed character is the system's affair:
    the sequences come as a parameter. -/

namespace LeYiDai

/-- How the system takes a string apart into composed character sequences. -/
structure ComposedSequences where
  sequences : NSString → List NSString
  flatten_sequences : ∀ s, (sequences s).flatten = s

/-- Where the sequence that holds a unit ends, and how long it is. -/
def sequenceAt : List NSString → ℕ → ℕ × ℕ
  | [], i => (i, 0)
  | x :: xs, i =>
    if i < x.length then (x.length, x.length)
    else
      let rest := sequenceAt xs (i - x.length)
      (x.length + rest.1, rest.2)

/-- The text of a field after `textFieldDidChange:LimitLength:`. A limit is positive. -/
def limitLength (c : ComposedSequences) (maxLength : ℕ) (text : NSString) (marked : Bool) :
    NSString :=
  if !marked && maxLength < text.length then
    if (sequenceAt (c.sequences text) maxLength).2 = 1 then text.take maxLength
    else text.take (sequenceAt (c.sequences text) (maxLength - 1)).1
  else text

theorem lt_sequenceAt : ∀ {xs : List NSString} {i : ℕ}, i < xs.flatten.length →
    i < (sequenceAt xs i).1
  | [], i, h => by simp at h
  | x :: xs, i, h => by
      rw [sequenceAt]
      split_ifs with hi
      · exact hi
      · have hrest : i - x.length < xs.flatten.length := by
          rw [List.flatten_cons, List.length_append] at h
          omega
        have hlt := lt_sequenceAt hrest
        simp only
        omega

/-- A cut never empties a text. -/
theorem limitLength_eq_nil_iff {c : ComposedSequences} {maxLength : ℕ} {text : NSString}
    {marked : Bool} (hmax : 0 < maxLength) :
    limitLength c maxLength text marked = [] ↔ text = [] := by
  rw [limitLength]
  split_ifs with hcut hone
  · rw [Bool.and_eq_true, decide_eq_true_eq] at hcut
    rw [List.take_eq_nil_iff]
    constructor
    · rintro (h | h)
      · omega
      · exact h
    · exact .inr
  · rw [Bool.and_eq_true, decide_eq_true_eq] at hcut
    have hlt : maxLength - 1 < (sequenceAt (c.sequences text) (maxLength - 1)).1 :=
      lt_sequenceAt (by rw [c.flatten_sequences]; omega)
    rw [List.take_eq_nil_iff]
    constructor
    · rintro (h | h)
      · omega
      · exact h
    · exact .inr
  · rfl

theorem le_sequenceAt : ∀ (xs : List NSString) (i : ℕ), i ≤ (sequenceAt xs i).1
  | [], i => le_refl i
  | x :: xs, i => by
      rw [sequenceAt]
      split_ifs with hi
      · exact hi.le
      · have hle := le_sequenceAt xs (i - x.length)
        simp only
        omega

/-- Before a sequence of one unit a sequence ends. -/
theorem sequenceAt_of_single : ∀ {xs : List NSString} {i : ℕ}, (sequenceAt xs (i + 1)).2 = 1 →
    (sequenceAt xs i).1 = i + 1
  | [], i, h => by simp [sequenceAt] at h
  | x :: xs, i, h => by
      rw [sequenceAt] at h ⊢
      split_ifs at h with hsucc
      · simp only at h
        omega
      · split_ifs with hi
        · simp only
          omega
        · have hrest : i + 1 - x.length = i - x.length + 1 := by omega
          have hend := sequenceAt_of_single (hrest ▸ h)
          simp only [hend]
          omega

/-- The field keeps the whole of an entered text: the text is marked, or it ends with the composed
    character of the last unit within the limit at the latest. -/
def KeepsWhole (c : ComposedSequences) (maxLength : ℕ) (text : NSString) (marked : Bool) : Prop :=
  marked = true ∨ text.length ≤ (sequenceAt (c.sequences text) (maxLength - 1)).1

theorem limitLength_eq_self_iff {c : ComposedSequences} {maxLength : ℕ} {text : NSString}
    {marked : Bool} (hmax : 0 < maxLength) :
    limitLength c maxLength text marked = text ↔ KeepsWhole c maxLength text marked := by
  have hsucc : maxLength - 1 + 1 = maxLength := by omega
  rw [limitLength, KeepsWhole]
  split_ifs with hcut hone
  · -- a unit of its own stands at the limit: the cut falls right before it
    rw [Bool.and_eq_true, decide_eq_true_eq, Bool.not_eq_true'] at hcut
    rw [← hsucc] at hone
    rw [sequenceAt_of_single hone, List.take_eq_self_iff, hcut.1]
    simp [hsucc]
  · rw [Bool.and_eq_true, decide_eq_true_eq, Bool.not_eq_true'] at hcut
    rw [List.take_eq_self_iff, hcut.1]
    simp
  · rw [Bool.and_eq_true, decide_eq_true_eq, Bool.not_eq_true', not_and, not_lt] at hcut
    refine iff_of_true rfl ?_
    rcases Bool.eq_false_or_eq_true marked with hmarked | hmarked
    · exact .inl hmarked
    · right
      rcases (hcut hmarked).lt_or_eq with hlt | heq
      · exact le_trans (by omega) (le_sequenceAt _ _)
      · have hend : maxLength - 1 < (sequenceAt (c.sequences text) (maxLength - 1)).1 :=
          lt_sequenceAt (by rw [c.flatten_sequences]; omega)
        omega

/-- A form of which one field changes stays filled, or stays unfilled, iff the change neither fills
    nor empties the field while all others are filled. -/
theorem filled_iff_filled {ι : Type} {p q : ι → NSString} (i : ι)
    (hothers : ∀ j, j ≠ i → (q j = [] ↔ p j = [])) :
    ((∀ j, p j ≠ []) ↔ ∀ j, q j ≠ []) ↔ ((∀ j, j ≠ i → p j ≠ []) → (q i = [] ↔ p i = [])) := by
  have hsame : (∀ j, j ≠ i → q j ≠ []) ↔ ∀ j, j ≠ i → p j ≠ [] :=
    forall_congr' fun j => forall_congr' fun hj => not_congr (hothers j hj)
  rw [← and_forall_ne i, ← and_forall_ne (p := fun j => q j ≠ []) i, hsame, and_congr_left_iff]
  refine forall_congr' fun _ => ?_
  rw [ne_eq, ne_eq, not_iff_not]
  exact iff_comm

/-- `isPhoneNumber:`: the predicate `^[1]([3-9])[0-9]{9}$`. -/
def isPhoneNumber : NSString → Bool
  | 49 :: d :: rest => 51 ≤ d && d ≤ 57 && rest.length = 9 && rest.all isDigit
  | _ => false

/-- A surrogate pair is one composed character, every other unit is one of its own. -/
def surrogateSequences : NSString → List NSString
  | [] => []
  | [u] => [[u]]
  | u :: v :: rest =>
    if 0xD800 ≤ u && u < 0xDC00 && 0xDC00 ≤ v && v < 0xE000 then
      [u, v] :: surrogateSequences rest
    else [u] :: surrogateSequences (v :: rest)

def surrogatePairs : ComposedSequences where
  sequences := surrogateSequences
  flatten_sequences s := by
    fun_induction surrogateSequences s <;> simp_all

end LeYiDai
