import LeYiDai.Foundation.TextField

/-! The two limiters of the app's inputs against what a limiter is for. The text fields of three
    forms keep the composed character that reaches over the limit, the feedback's text view cuts
    through it. Both leave the longest prefix of whole sequences within the limit exactly when a
    sequence ends there.

        limit                │
        a sequence ends      ──┤──┤        both cut here
        a sequence reaches   ──┼────┤      field: behind it, text view: through it -/

namespace LeYiDai

/-- `text` starts with `p`, and `p` is made of whole sequences of `text`. -/
def WholePrefix (c : ComposedSequences) (text p : NSString) : Prop :=
  ∃ k, p = ((c.sequences text).take k).flatten

/-- The longest prefix of whole sequences that has at most `n` units. -/
structure LongestWhole (c : ComposedSequences) (n : ℕ) (text p : NSString) : Prop where
  whole : WholePrefix c text p
  le : p.length ≤ n
  longest : ∀ q, WholePrefix c text q → q.length ≤ n → q.length ≤ p.length

/-- Sequences end after the first `n` units. -/
def EndsAt (xs : List NSString) (n : ℕ) : Prop := ∃ k, (xs.take k).flatten.length = n

/-- No sequence reaches over the limit: the text is not longer, or a sequence ends there. -/
def FitsLimit (c : ComposedSequences) (n : ℕ) (text : NSString) : Prop :=
  text.length ≤ n ∨ EndsAt (c.sequences text) n

/-- `textViewDidChange:` of the feedback: the text left, and the label under it. -/
def textViewDidChange (text : NSString) : NSString × NSString :=
  let text := if 200 < text.length then text.take 200 else text
  (text, ns (toString text.length) ++ ns "/200")

variable {c : ComposedSequences} {n : ℕ} {text p : NSString}

/-- The sequence of the last unit within the limit ends at the limit iff one ends there at all. -/
theorem sequenceAt_pred_eq_iff : ∀ {xs : List NSString} {n : ℕ}, 0 < n → n ≤ xs.flatten.length →
    ((sequenceAt xs (n - 1)).1 = n ↔ EndsAt xs n)
  | [], n, hn, hle => by simp at hle; omega
  | x :: xs, n, hn, hle => by
      rw [List.flatten_cons, List.length_append] at hle
      rw [sequenceAt]
      split_ifs with hx
      · -- the limit lies within the first sequence
        constructor
        · intro h
          exact ⟨1, by simpa using h⟩
        · rintro ⟨k, hk⟩
          cases k with
          | zero => simp at hk; omega
          | succ k =>
            rw [List.take_succ_cons, List.flatten_cons, List.length_append] at hk
            simp only
            omega
      · have hrest : n - 1 - x.length = n - x.length - 1 := by omega
        have ih := @sequenceAt_pred_eq_iff xs (n - x.length) (by omega) (by omega)
        rw [hrest]
        constructor
        · intro h
          obtain ⟨k, hk⟩ := ih.mp (by simp only at h; omega)
          refine ⟨k + 1, ?_⟩
          rw [List.take_succ_cons, List.flatten_cons, List.length_append, hk]
          omega
        · rintro ⟨k, hk⟩
          cases k with
          | zero => simp at hk; omega
          | succ k =>
            rw [List.take_succ_cons, List.flatten_cons, List.length_append] at hk
            have hend := ih.mpr ⟨k, by omega⟩
            simp only
            omega

theorem WholePrefix.take_length (h : WholePrefix c text p) : p = text.take p.length := by
  obtain ⟨k, rfl⟩ := h
  have hprefix : ((c.sequences text).take k).flatten <+: text :=
    ⟨((c.sequences text).drop k).flatten, by
      rw [← List.flatten_append, List.take_append_drop, c.flatten_sequences]⟩
  exact List.prefix_iff_eq_take.mp hprefix

/-- A cut inside the text is whole iff a sequence ends there. -/
theorem wholePrefix_take_iff (hle : n ≤ text.length) :
    WholePrefix c text (text.take n) ↔ EndsAt (c.sequences text) n := by
  constructor
  · rintro ⟨k, hk⟩
    exact ⟨k, by rw [← hk, List.length_take, Nat.min_eq_left hle]⟩
  · rintro ⟨k, hk⟩
    have hwhole : WholePrefix c text ((c.sequences text).take k).flatten := ⟨k, rfl⟩
    rw [← hk, ← hwhole.take_length]
    exact hwhole

theorem longestWhole_self (h : text.length ≤ n) : LongestWhole c n text text where
  whole := ⟨(c.sequences text).length, by rw [List.take_length, c.flatten_sequences]⟩
  le := h
  longest q hq _ := by
    rw [hq.take_length, List.length_take]
    exact Nat.min_le_right _ _

/-- A longer text cut at the limit is the longest whole prefix iff a sequence ends there. -/
theorem longestWhole_take_limit (hlt : n < text.length) :
    LongestWhole c n text (text.take n) ↔ EndsAt (c.sequences text) n := by
  rw [← wholePrefix_take_iff hlt.le]
  refine ⟨fun h => h.whole, fun h => ⟨h, by simp, fun q _ hq => ?_⟩⟩
  rwa [List.length_take, Nat.min_eq_left hlt.le]

/-- The limiter of the text fields, on a text without marked text. -/
theorem limitLength_longest_iff (hn : 0 < n) :
    LongestWhole c n text (limitLength c n text false) ↔ FitsLimit c n text := by
  rw [limitLength, FitsLimit]
  by_cases hle : text.length ≤ n
  · rw [if_neg (by simpa using hle)]
    exact iff_of_true (longestWhole_self hle) (.inl hle)
  · have hlt : n < text.length := by omega
    have hends := @sequenceAt_pred_eq_iff (c.sequences text) n hn
      (by rw [c.flatten_sequences]; exact hlt.le)
    rw [if_pos (by simpa using hlt), or_iff_right hle]
    split_ifs with hone
    · exact longestWhole_take_limit hlt
    · constructor
      · intro h
        -- the cut is not before the limit, so it is at the limit or too long
        have hge : n - 1 < (sequenceAt (c.sequences text) (n - 1)).1 :=
          lt_sequenceAt (by rw [c.flatten_sequences]; omega)
        have hshort := h.le
        rw [List.length_take] at hshort
        exact hends.mp (by omega)
      · intro h
        rw [hends.mpr h]
        exact (longestWhole_take_limit hlt).mpr h

/-- The limiter of the feedback's text view. -/
theorem textViewDidChange_longest_iff :
    LongestWhole c 200 text (textViewDidChange text).1 ↔ FitsLimit c 200 text := by
  simp only [textViewDidChange, FitsLimit]
  split_ifs with hlt
  · rw [or_iff_right (by omega)]
    exact longestWhole_take_limit hlt
  · exact iff_of_true (longestWhole_self (by omega)) (.inl (by omega))

/-- Each limiter leaves the longest prefix of whole sequences within its limit iff no sequence
    reaches over the limit. -/
theorem limiters_longest_iff (c : ComposedSequences) (n : ℕ) (hn : 0 < n) (text : NSString) :
    (LongestWhole c n text (limitLength c n text false) ↔ FitsLimit c n text) ∧
      (LongestWhole c 200 text (textViewDidChange text).1 ↔ FitsLimit c 200 text) :=
  ⟨limitLength_longest_iff hn, textViewDidChange_longest_iff⟩

/-- Twelve digits in a field for eleven. -/
theorem limiters_longest_phone :
    LongestWhole surrogatePairs 11 (ns "138000000001")
        (limitLength surrogatePairs 11 (ns "138000000001") false) ∧
      LongestWhole surrogatePairs 200 (ns "138000000001")
        (textViewDidChange (ns "138000000001")).1 := by
  obtain ⟨hfield, hview⟩ := limiters_longest_iff surrogatePairs 11 (by decide) (ns "138000000001")
  exact ⟨hfield.mpr (.inr ⟨11, by decide⟩), hview.mpr (.inl (by decide))⟩

/-- A surrogate pair across the limit: the field keeps it whole and twelve units, the text view
    keeps its first half. -/
theorem limiters_overrun :
    ¬LongestWhole surrogatePairs 11 (ns "1380000000😀")
        (limitLength surrogatePairs 11 (ns "1380000000😀") false) ∧
      ¬LongestWhole surrogatePairs 200 (List.replicate 199 97 ++ ns "😀")
        (textViewDidChange (List.replicate 199 97 ++ ns "😀")).1 := by
  constructor
  · exact fun h => absurd h.le (by decide)
  · intro h
    have hlength : (List.replicate 199 97 ++ ns "😀").length = 201 := by
      rw [List.length_append, List.length_replicate]
      decide
    rcases textViewDidChange_longest_iff.mp h with hle | hends
    · omega
    · rw [← sequenceAt_pred_eq_iff (by decide)
        (by rw [surrogatePairs.flatten_sequences, hlength]; decide)] at hends
      revert hends
      decide +kernel

end LeYiDai
