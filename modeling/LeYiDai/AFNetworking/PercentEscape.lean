import LeYiDai.Foundation.Encoding
import LeYiDai.Foundation.TextField

/-! AFPercentEscapedStringFromString: a string is escaped in batches of fifty units, each stretched
    to whole composed characters. A batch then ends between two characters, so the batches escape to
    what the whole string escapes to.

        index ──▶ rangeOfComposedCharacterSequences (index, 50) ──▶ escape ──▶ index + range.length -/

namespace LeYiDai.QueryString

/-! ### Escaping -/

/-- A digit or an ASCII letter. -/
def isAlphanumeric (c : Char) : Bool :=
  (48 ≤ c.toNat && c.toNat ≤ 57) || (65 ≤ c.toNat && c.toNat ≤ 90) ||
    (97 ≤ c.toNat && c.toNat ≤ 122)

/-- `URLQueryAllowedCharacterSet`. -/
def URLQueryAllowed (c : Char) : Bool :=
  isAlphanumeric c || "!$&'()*+,-./:;=?@_~".toList.contains c

def kAFCharactersGeneralDelimitersToEncode : List Char := ":#[]@".toList

def kAFCharactersSubDelimitersToEncode : List Char := "!$&'()*+,;=".toList

/-- The characters that stay as they are. -/
def allowedCharacterSet (c : Char) : Bool :=
  URLQueryAllowed c &&
    !(kAFCharactersGeneralDelimitersToEncode ++ kAFCharactersSubDelimitersToEncode).contains c

def hexDigit (n : ℕ) : unichar := if n < 10 then UInt16.ofNat (48 + n) else UInt16.ofNat (55 + n)

/-- `%` and two digits. -/
def percentByte (b : UInt8) : NSString := [37, hexDigit (b.toNat / 16), hexDigit (b.toNat % 16)]

def escapeCharacter (c : Char) : NSString :=
  if allowedCharacterSet c then utf16 c else (String.utf8EncodeChar c).flatMap percentByte

/-- `stringByAddingPercentEncodingWithAllowedCharacters:`, nil when a surrogate stands alone. -/
def stringByAddingPercentEncoding (s : NSString) : Option NSString :=
  (characters s).map (·.flatMap escapeCharacter)

/-! ### Batches -/

/-- Composed characters that never end within a surrogate pair. -/
structure CharacterSequences extends ComposedSequences where
  keeps_pairs : ∀ s k u v, ((sequences s).take k).flatten.getLast? = some u →
    ((sequences s).drop k).flatten.head? = some v →
    ¬(isHighSurrogate u = true ∧ isLowSurrogate v = true)

/-- `rangeOfComposedCharacterSequencesForRange:` of a range that is not empty: where it begins and
    how long it is. -/
def rangeOfComposedCharacterSequences (c : ComposedSequences) (s : NSString)
    (location length : ℕ) : ℕ × ℕ :=
  let first := sequenceAt (c.sequences s) location
  let last := sequenceAt (c.sequences s) (location + length - 1)
  (first.1 - first.2, last.1 - (first.1 - first.2))

def batchSize : ℕ := 50

/-- The sequence that holds a unit: where it begins and where it ends. -/
theorem exists_sequenceAt : ∀ {xs : List NSString} {i : ℕ}, i < xs.flatten.length →
    ∃ k, (sequenceAt xs i).1 = (xs.take k).flatten.length + (sequenceAt xs i).2 ∧
      (sequenceAt xs i).1 = (xs.take (k + 1)).flatten.length ∧
      (xs.take k).flatten.length ≤ i ∧ i < (xs.take (k + 1)).flatten.length
  | [], i, h => absurd h (Nat.not_lt_zero i)
  | x :: xs, i, h => by
      rw [sequenceAt]
      split_ifs with hi
      · exact ⟨0, by simp, by simp, by simp, by simpa using hi⟩
      · have hrest : i - x.length < xs.flatten.length := by
          rw [List.flatten_cons, List.length_append] at h
          omega
        obtain ⟨k, hstart, hend, hle, hlt⟩ := exists_sequenceAt hrest
        refine ⟨k + 1, ?_⟩
        simp only [List.take_succ_cons, List.flatten_cons, List.length_append]
        omega

theorem lt_range (c : ComposedSequences) {s : NSString} {i : ℕ} (h : i < s.length) :
    0 < (rangeOfComposedCharacterSequences c s i (min (s.length - i) batchSize)).2 := by
  have hlength : (c.sequences s).flatten.length = s.length := by rw [c.flatten_sequences]
  have hfirst : i < (c.sequences s).flatten.length := by omega
  have hlast : i + min (s.length - i) batchSize - 1 < (c.sequences s).flatten.length := by
    rw [batchSize]
    omega
  obtain ⟨k, hstart, -, hle, -⟩ := exists_sequenceAt hfirst
  have hend := lt_sequenceAt hlast
  simp only [rangeOfComposedCharacterSequences, batchSize] at hend ⊢
  omega

/-- The loop from `index` on; `appendString:` of nil raises. -/
def escapeFrom (c : ComposedSequences) (s : NSString) (index : ℕ) : Option NSString :=
  if _h : index < s.length then
    let range := rangeOfComposedCharacterSequences c s index (min (s.length - index) batchSize)
    (stringByAddingPercentEncoding ((s.drop range.1).take range.2)).bind fun encoded =>
      (escapeFrom c s (index + range.2)).map (encoded ++ ·)
  else some []
termination_by s.length - index
decreasing_by
  have := lt_range c _h
  omega

def AFPercentEscapedStringFromString (c : ComposedSequences) (s : NSString) : Option NSString :=
  escapeFrom c s 0

/-! ### Batches end between characters -/

/-- A composed character ends in front of `i`, or the string begins there. -/
def Boundary (c : ComposedSequences) (s : NSString) (i : ℕ) : Prop :=
  ∃ k, ((c.sequences s).take k).flatten.length = i

variable {c : CharacterSequences} {s t : NSString} {i : ℕ}

theorem flatten_take_length_mono (xs : List NSString) {k m : ℕ} (h : k ≤ m) :
    (xs.take k).flatten.length ≤ (xs.take m).flatten.length := by
  obtain ⟨j, rfl⟩ := Nat.exists_eq_add_of_le h
  rw [List.take_add, List.flatten_append, List.length_append]
  omega

/-- From a boundary a range reaches to a boundary. -/
theorem range_of_boundary {c : ComposedSequences} (hi : Boundary c s i) (hlt : i < s.length) :
    ∃ e, rangeOfComposedCharacterSequences c s i (min (s.length - i) batchSize) = (i, e - i) ∧
      Boundary c s e ∧ i < e := by
  obtain ⟨m, rfl⟩ := hi
  set i := ((c.sequences s).take m).flatten.length with hi
  have hlength : (c.sequences s).flatten.length = s.length := by rw [c.flatten_sequences]
  have hfirst : i < (c.sequences s).flatten.length := by omega
  have hlast : i + min (s.length - i) batchSize - 1 < (c.sequences s).flatten.length := by
    rw [batchSize]
    omega
  obtain ⟨k, hstart, -, hle, hlt'⟩ := exists_sequenceAt hfirst
  obtain ⟨l, -, hend, -, hlt''⟩ := exists_sequenceAt hlast
  have hbegin : ((c.sequences s).take k).flatten.length = i := by
    rcases Nat.lt_or_ge k m with hkm | hkm
    · have := flatten_take_length_mono (c.sequences s) (show k + 1 ≤ m from hkm)
      omega
    · have := flatten_take_length_mono (c.sequences s) hkm
      omega
  refine ⟨((c.sequences s).take (l + 1)).flatten.length, ?_, ⟨l + 1, rfl⟩, ?_⟩
  · rw [rangeOfComposedCharacterSequences, hend]
    simp only [Prod.mk.injEq]
    omega
  · simp only [batchSize] at hlt''
    omega

/-- Where the two parts do not share a surrogate pair, the characters of a string are those of one
    and those of the other. -/
theorem characters_append_eq (h : ∀ u v, s.getLast? = some u → t.head? = some v →
      ¬(isHighSurrogate u = true ∧ isLowSurrogate v = true)) :
    characters (s ++ t) = (characters s).bind fun cs => (characters t).map (cs ++ ·) := by
  induction s using characters.induct with
  | case1 => simp [characters]
  | case2 u hsur =>
    have hnone : characters [u] = none := by rw [characters, if_pos hsur]
    rw [hnone, Option.bind_none, List.singleton_append]
    cases t with
    | nil => exact hnone
    | cons v t =>
      have hpair := h u v rfl rfl
      rw [characters, if_neg (by simpa using hpair), if_pos hsur]
  | case3 u hsur =>
    have hsingle : (isHighSurrogate u || isLowSurrogate u) = false := by simpa using hsur
    rw [List.singleton_append, characters_single_cons hsingle, characters, if_neg hsur]
    rfl
  | case4 u v rest hpair ih =>
    have hrest : ∀ u' v', rest.getLast? = some u' → t.head? = some v' →
        ¬(isHighSurrogate u' = true ∧ isLowSurrogate v' = true) := by
      intro u' v' hu hv
      refine h u' v' ?_ hv
      rw [List.getLast?_cons, List.getLast?_cons, hu]
      rfl
    rw [List.cons_append, List.cons_append, characters, if_pos hpair, characters, if_pos hpair,
      ih hrest]
    cases characters rest <;> cases characters t <;> rfl
  | case5 u v rest hpair hsur =>
    rw [List.cons_append, List.cons_append, characters, if_neg hpair, if_pos hsur, characters,
      if_neg hpair, if_pos hsur]
    rfl
  | case6 u v rest hpair hsur ih =>
    have hrest : ∀ u' v', (v :: rest).getLast? = some u' → t.head? = some v' →
        ¬(isHighSurrogate u' = true ∧ isLowSurrogate v' = true) := by
      intro u' v' hu hv
      refine h u' v' ?_ hv
      rw [List.getLast?_cons, hu]
      rfl
    rw [List.cons_append, List.cons_append, characters, if_neg hpair, if_neg hsur, characters,
      if_neg hpair, if_neg hsur, ← List.cons_append, ih hrest]
    cases characters (v :: rest) <;> cases characters t <;> rfl

theorem escape_append (h : ∀ u v, s.getLast? = some u → t.head? = some v →
      ¬(isHighSurrogate u = true ∧ isLowSurrogate v = true)) :
    stringByAddingPercentEncoding (s ++ t) = (stringByAddingPercentEncoding s).bind fun e =>
      (stringByAddingPercentEncoding t).map (e ++ ·) := by
  rw [stringByAddingPercentEncoding, characters_append_eq h, stringByAddingPercentEncoding,
    stringByAddingPercentEncoding]
  cases characters s <;> cases characters t <;> simp

theorem Boundary.take_drop {c : ComposedSequences} {k : ℕ}
    (h : ((c.sequences s).take k).flatten.length = i) :
    ((c.sequences s).take k).flatten = s.take i ∧ ((c.sequences s).drop k).flatten = s.drop i := by
  have hs : ((c.sequences s).take k).flatten ++ ((c.sequences s).drop k).flatten = s := by
    rw [← List.flatten_append, List.take_append_drop, c.flatten_sequences]
  have htake := congrArg (List.take i) hs
  have hdrop := congrArg (List.drop i) hs
  rw [← h, List.take_append_length] at htake
  rw [← h, List.drop_append_length] at hdrop
  rw [← h]
  exact ⟨htake, hdrop⟩

/-- From a boundary on, the loop escapes the rest of the string. -/
theorem escapeFrom_eq (c : CharacterSequences) (s : NSString) (i : ℕ)
    (hi : Boundary c.toComposedSequences s i) :
    escapeFrom c.toComposedSequences s i = stringByAddingPercentEncoding (s.drop i) := by
  induction hn : s.length - i using Nat.strong_induction_on generalizing i with
  | _ n ih =>
    rw [escapeFrom]
    split_ifs with hlt
    · obtain ⟨e, hrange, hboundary, hie⟩ := range_of_boundary hi hlt
      simp only [hrange]
      have hsum : i + (e - i) = e := by omega
      rw [hsum, ih (s.length - e) (by omega) e hboundary rfl]
      have hsplit : s.drop i = (s.drop i).take (e - i) ++ s.drop e := by
        conv_lhs => rw [← List.take_append_drop (e - i) (s.drop i), List.drop_drop, hsum]
      conv_rhs => rw [hsplit]
      refine (escape_append ?_).symm
      -- the batch ends with a composed character
      intro u v hu hv
      obtain ⟨k, hk⟩ := hboundary
      obtain ⟨htake, hdrop⟩ := Boundary.take_drop hk
      refine c.keeps_pairs s k u v ?_ (by rw [hdrop]; exact hv)
      rw [htake, ← hsum, List.take_add, List.getLast?_append, hu, Option.some_or]
    · rw [List.drop_of_length_le (by omega)]
      rfl

/-- A string is escaped as a whole, whatever its batches. -/
theorem escape_whole (c : CharacterSequences) (s : NSString) :
    AFPercentEscapedStringFromString c.toComposedSequences s = stringByAddingPercentEncoding s :=
  escapeFrom_eq c s 0 ⟨0, rfl⟩

theorem isPair_iff {u v : unichar} :
    (0xD800 ≤ u && u < 0xDC00 && 0xDC00 ≤ v && v < 0xE000) = true ↔
      isHighSurrogate u = true ∧ isLowSurrogate v = true := by
  simp only [isHighSurrogate, isLowSurrogate, Bool.and_eq_true, decide_eq_true_eq,
    UInt16.le_iff_toNat_le, UInt16.lt_iff_toNat_lt, and_assoc]
  rfl

theorem surrogateSequences_keep_pairs (s : NSString) : ∀ k u v,
    ((surrogateSequences s).take k).flatten.getLast? = some u →
      ((surrogateSequences s).drop k).flatten.head? = some v →
        ¬(isHighSurrogate u = true ∧ isLowSurrogate v = true) := by
  induction s using surrogateSequences.induct with
  | case1 =>
    intro k u v hu
    simp [surrogateSequences] at hu
  | case2 w =>
    intro k u v hu hv
    cases k <;> simp [surrogateSequences] at hu hv
  | case3 w x rest hpair ih =>
    intro k u v hu hv
    cases k with
    | zero => simp at hu
    | succ k =>
      rw [surrogateSequences, if_pos hpair, List.take_succ_cons, List.flatten_cons,
        List.getLast?_append] at hu
      rw [surrogateSequences, if_pos hpair, List.drop_succ_cons] at hv
      rcases Option.or_eq_some_iff.mp hu with hu | ⟨-, hu⟩
      · exact ih k u v hu hv
      · -- the unit in front is a low surrogate
        obtain rfl : x = u := by simpa using hu
        have hlow := (isPair_iff.mp hpair).2
        simp only [isHighSurrogate, isLowSurrogate, Bool.and_eq_true, decide_eq_true_eq] at hlow ⊢
        omega
  | case4 w x rest hpair ih =>
    intro k u v hu hv
    cases k with
    | zero => simp at hu
    | succ k =>
      rw [surrogateSequences, if_neg hpair, List.take_succ_cons, List.flatten_cons,
        List.getLast?_append] at hu
      rw [surrogateSequences, if_neg hpair, List.drop_succ_cons] at hv
      rcases Option.or_eq_some_iff.mp hu with hu | ⟨hnone, hu⟩
      · exact ih k u v hu hv
      · -- nothing stands between the unit and what follows it
        cases hu
        have hwhole : ((surrogateSequences (x :: rest)).drop k).flatten = x :: rest := by
          have := surrogatePairs.flatten_sequences (x :: rest)
          change (surrogateSequences (x :: rest)).flatten = _ at this
          rwa [← List.take_append_drop k (surrogateSequences (x :: rest)), List.flatten_append,
            List.getLast?_eq_none_iff.mp hnone, List.nil_append] at this
        rw [hwhole] at hv
        cases hv
        exact fun h => hpair (isPair_iff.mpr h)

/-- Surrogate pairs as the only composed characters. -/
def surrogateCharacters : CharacterSequences where
  toComposedSequences := surrogatePairs
  keeps_pairs := surrogateSequences_keep_pairs

end LeYiDai.QueryString
