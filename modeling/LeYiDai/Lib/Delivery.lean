import Mathlib.Algebra.Ring.Nat
import Mathlib.Data.List.SplitLengths
import Mathlib.Tactic.Common

/-! Handing out a list in pieces. A loop that fills a buffer runs one round after another: a round
    finds nothing left and stops, hands out some elements, or moves on inside without any.
    `fill_eq` says what rounds that account for every element make of the buffer, `reads_eq` what a
    reader with full buffers makes of any sequence of buffer sizes: the list cut to those lengths.

        pull ──▶ got [..] ──▶ pull ──▶ got [] ──▶ pull ──▶ stop, or the buffer is full -/

namespace Delivery

variable {σ α : Type*}

/-- What one round did. -/
inductive Pull (σ α : Type*) where
  | stop (s : σ)
  | got (out : List α) (s : σ)

/-- Rounds until the `room` in the buffer is used up or one of them stops; `none` once a round
    raises, or when the rounds that are allowed are used up first. -/
def fill (pull : σ → ℕ → Option (Pull σ α)) : ℕ → σ → ℕ → Option (List α × σ)
  | _, s, 0 => some ([], s)
  | 0, _, _ + 1 => none
  | rounds + 1, s, room + 1 =>
    (pull s (room + 1)).bind fun
      | .stop s' => some ([], s')
      | .got out s' => (fill pull rounds s' (room + 1 - out.length)).map fun r => (out ++ r.1, r.2)

/-- A reader asked for one buffer after another. -/
def reads (read : σ → ℕ → Option (List α × σ)) : σ → List ℕ → Option (List (List α) × σ)
  | s, [] => some ([], s)
  | s, n :: ns =>
    (read s n).bind fun r => (reads read r.2 ns).map fun t => (r.1 :: t.1, t.2)

/-- What a round may do with a list of which `left` is what is left: it stops when nothing is, hands
    out the next elements, or moves on. -/
inductive Accounts (left : σ → List α) (weight : σ → ℕ) (I : σ → Prop) (s : σ) (room : ℕ) :
    Pull σ α → Prop
  | stop {s' : σ} (inv : I s') (dry : left s = []) (dry' : left s' = []) :
      Accounts left weight I s room (.stop s')
  | got {s' : σ} {out : List α} (inv : I s') (split : left s = out ++ left s')
      (fits : out.length ≤ room) (shrinks : weight s' ≤ weight s)
      (moves : out = [] → weight s' < weight s) : Accounts left weight I s room (.got out s')

/-- Every round accounts for what is left. -/
def Supplies (pull : σ → ℕ → Option (Pull σ α)) (left : σ → List α) (weight : σ → ℕ)
    (I : σ → Prop) : Prop :=
  ∀ s room, I s → 0 < room → ∃ p, pull s room = some p ∧ Accounts left weight I s room p

/-- A reader that fills every buffer as far as the list reaches. -/
def Delivers (read : σ → ℕ → Option (List α × σ)) (left : σ → List α) (cap : ℕ → ℕ)
    (I : σ → Prop) : Prop :=
  ∀ s n, I s → ∃ s', read s n = some ((left s).take (cap n), s') ∧
    left s' = (left s).drop (cap n) ∧ I s'

variable {pull : σ → ℕ → Option (Pull σ α)} {read : σ → ℕ → Option (List α × σ)}
  {left : σ → List α} {weight : σ → ℕ} {cap : ℕ → ℕ} {I : σ → Prop}

/-- With rounds enough, the buffer is filled as far as the list reaches. -/
theorem fill_eq (h : Supplies pull left weight I) :
    ∀ (rounds : ℕ) (s : σ) (room : ℕ), I s → room + weight s ≤ rounds →
      ∃ s', fill pull rounds s room = some ((left s).take room, s') ∧
        left s' = (left s).drop room ∧ I s'
  | _, s, 0, hI, _ => ⟨s, by rw [fill, List.take_zero], by rw [List.drop_zero], hI⟩
  | 0, _, _ + 1, _, hrounds => by omega
  | rounds + 1, s, room + 1, hI, hrounds => by
      obtain ⟨p, hp, hacc⟩ := h s (room + 1) hI room.succ_pos
      rw [fill, hp, Option.bind_some]
      cases hacc with
      | stop hinv hdry hdry' =>
        refine ⟨_, by rw [hdry, List.take_nil], ?_, hinv⟩
        rw [hdry, hdry', List.drop_nil]
      | @got s' out hinv hsplit hfits hshrinks hmoves =>
        have hless : room + 1 - out.length + weight s' ≤ rounds := by
          rcases eq_or_ne out [] with hout | hout
          · have := hmoves hout
            omega
          · have := List.length_pos_iff.mpr hout
            omega
        obtain ⟨t, ht, hleft, hinv'⟩ := fill_eq h rounds s' (room + 1 - out.length) hinv hless
        refine ⟨t, ?_, ?_, hinv'⟩
        · dsimp only
          rw [ht, Option.map_some, hsplit, List.take_append, List.take_of_length_le hfits]
        · rw [hleft, hsplit, List.drop_append, List.drop_of_length_le hfits, List.nil_append]

/-- Whatever the sizes of the buffers, what comes out is the list cut to these lengths. -/
theorem reads_eq (h : Delivers read left cap I) : ∀ (ns : List ℕ) (s : σ), I s →
    ∃ s', reads read s ns = some ((ns.map cap).splitLengths (left s), s') ∧
      left s' = (left s).drop (ns.map cap).sum ∧ I s'
  | [], s, hI => ⟨s, rfl, by simp, hI⟩
  | n :: ns, s, hI => by
      obtain ⟨s', hread, hleft, hinv⟩ := h s n hI
      obtain ⟨t, hreads, hrest, hinv'⟩ := reads_eq h ns s' hinv
      refine ⟨t, ?_, ?_, hinv'⟩
      · rw [reads, hread, Option.bind_some, hreads, Option.map_some, List.map_cons,
          List.splitLengths_cons, hleft]
      · rw [hrest, hleft, List.drop_drop, List.map_cons, List.sum_cons]

theorem splitLengths_empty : ∀ ns : List ℕ,
    ns.splitLengths ([] : List α) = List.replicate ns.length []
  | [] => rfl
  | n :: ns => by
      rw [List.splitLengths_cons, List.take_nil, List.drop_nil, splitLengths_empty ns,
        List.length_cons, List.replicate_succ]

/-- Lengths that a list is too short for cut off nothing. -/
theorem splitLengths_append : ∀ (ns ms : List ℕ) (l : List α), l.length ≤ ns.sum →
    (ns ++ ms).splitLengths l = ns.splitLengths l ++ List.replicate ms.length []
  | [], ms, l, hl => by
      obtain rfl : l = [] := List.length_eq_zero_iff.mp (by simpa using hl)
      rw [List.nil_append, splitLengths_empty, List.splitLengths_nil, List.nil_append]
  | n :: ns, ms, l, hl => by
      have hrest : (l.drop n).length ≤ ns.sum := by
        rw [List.sum_cons] at hl
        rw [List.length_drop]
        omega
      rw [List.cons_append, List.splitLengths_cons, List.splitLengths_cons,
        splitLengths_append ns ms (l.drop n) hrest, List.cons_append]

/-- Buffers with room enough take the whole list, and every buffer after that stays empty. -/
theorem reads_whole (h : Delivers read left cap I) {s : σ} {ns : List ℕ} (hI : I s)
    (hroom : (left s).length ≤ (ns.map cap).sum) (ms : List ℕ) :
    ∃ pieces s', reads read s (ns ++ ms) = some (pieces ++ List.replicate ms.length [], s') ∧
      pieces.flatten = left s ∧ left s' = [] ∧ I s' := by
  obtain ⟨s', hreads, hleft, hinv⟩ := reads_eq h (ns ++ ms) s hI
  rw [List.map_append] at hreads hleft
  refine ⟨(ns.map cap).splitLengths (left s), s', ?_, List.flatten_splitLengths _ _ hroom, ?_, hinv⟩
  · rw [hreads, splitLengths_append _ _ _ hroom, List.length_map]
  · rw [hleft, List.sum_append, List.drop_eq_nil_iff]
    omega

end Delivery
