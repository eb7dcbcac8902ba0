import Mathlib.Data.List.Basic
import Mathlib.Tactic.Common

/-! Delayed removals. Some elements of a list have been taken up by removals that have not run yet;
    `remaining` is what the list comes to once all of them have. A removal that runs leaves it alone
    (`remaining_run`), a new removal takes its elements out of it (`remaining_start`), and with no
    removal outstanding it is the list itself. Among elements of one kind of which one remains, a
    removal of one of that kind clears them exactly when it takes up the one that remains
    (`countP_remaining_start`). -/

namespace Pending

variable {α : Type*} [DecidableEq α]

/-- What is left of `xs` once every removal has run. -/
def remaining (xs : List α) (removals : List (List α)) : List α :=
  xs.filter fun x => x ∉ removals.flatten

variable {xs ys r : List α} {removals : List (List α)} {x d : α} {p : α → Bool}

theorem mem_remaining : x ∈ remaining xs removals ↔ x ∈ xs ∧ x ∉ removals.flatten := by
  simp [remaining]

@[simp] theorem remaining_nil : remaining xs [] = xs := by simp [remaining]

theorem remaining_append :
    remaining (xs ++ ys) removals = remaining xs removals ++ remaining ys removals :=
  List.filter_append ..

theorem remaining_filter :
    remaining (xs.filter p) removals = (remaining xs removals).filter p :=
  List.filter_comm ..

theorem remaining_single :
    remaining [x] removals = if x ∈ removals.flatten then [] else [x] := by
  rw [remaining, List.filter_singleton]
  by_cases h : x ∈ removals.flatten
  · rw [if_pos h, decide_eq_false (not_not.mpr h)]
    rfl
  · rw [if_neg h, decide_eq_true h]
    rfl

/-- A new removal takes its elements out of what remains. -/
theorem remaining_start :
    remaining xs (removals ++ [r]) = (remaining xs removals).filter fun x => x ∉ r := by
  rw [remaining, remaining, List.filter_filter]
  refine List.filter_congr fun x _ => ?_
  rw [List.flatten_append, List.flatten_singleton]
  simp only [List.mem_append, not_or, Bool.decide_and, Bool.and_comm]

/-- A removal that runs leaves what remains alone. -/
theorem remaining_run {k : ℕ} (h : removals[k]? = some r) :
    remaining (xs.filter fun x => x ∉ r) (removals.eraseIdx k) = remaining xs removals := by
  obtain ⟨hk, rfl⟩ := List.getElem?_eq_some_iff.mp h
  have hmem : ∀ x, x ∈ removals.flatten ↔
      x ∈ removals[k] ∨ x ∈ (removals.eraseIdx k).flatten := by
    intro x
    rw [List.eraseIdx_eq_take_drop_succ, List.flatten_append, List.mem_append]
    conv_lhs => rw [← List.take_append_drop k removals, List.drop_eq_getElem_cons hk]
    rw [List.flatten_append, List.flatten_cons, List.mem_append, List.mem_append]
    exact or_left_comm
  rw [remaining, remaining, List.filter_filter]
  refine List.filter_congr fun x _ => ?_
  simp only [hmem x, not_or, Bool.decide_and, Bool.and_comm]

/-- Where one element of a kind remains, a removal that takes up `d` of that kind and none other of
    it leaves none iff `d` is the one. -/
theorem countP_remaining_start (hone : (remaining xs removals).countP p = 1) (hd : p d)
    (hr : ∀ x, p x → (x ∈ r ↔ x = d)) :
    (remaining xs (removals ++ [r])).countP p = 0 ↔ d ∈ remaining xs removals := by
  rw [remaining_start, List.countP_eq_zero]
  rw [List.countP_eq_length_filter, List.length_eq_one_iff] at hone
  obtain ⟨y, hy⟩ := hone
  have honly : ∀ x, x ∈ remaining xs removals ∧ p x ↔ x = y := by
    intro x
    rw [← List.mem_filter, hy, List.mem_singleton]
  constructor
  · intro h
    have hmem := (honly y).mpr rfl
    have hin : y ∈ r := by
      by_contra hout
      exact h y (List.mem_filter.mpr ⟨hmem.1, by simpa using hout⟩) hmem.2
    rw [← (hr y hmem.2).mp hin]
    exact hmem.1
  · intro h x hx hp
    obtain ⟨hmem, hout⟩ := List.mem_filter.mp hx
    have hxd : x = d := ((honly x).mp ⟨hmem, hp⟩).trans ((honly d).mp ⟨h, hd⟩).symm
    simp [hxd, (hr d hd).mpr rfl] at hout

end Pending
