import Mathlib.Data.List.Infix
import Mathlib.Tactic.Common

/-! Lists with a delimiter. A delimiter whose first element does not come again in it cannot overlap
    itself, so it is found where it was put unless it stands in front of that place already. `cut`
    divides at the first place, `pieces` at every place; `pieces_join` says that dividing gives back
    what was joined when the delimiter stands in none of it. -/

/-- A delimiter that does not overlap itself. -/
structure Delimiter (α : Type*) where
  head : α
  tail : List α
  head_notMem : head ∉ tail

namespace Delimiter

variable {α : Type*}

def toList (d : Delimiter α) : List α := d.head :: d.tail

/-- What stands before the first delimiter and what stands after it. -/
def cut [DecidableEq α] (d : Delimiter α) : List α → Option (List α × List α)
  | [] => none
  | a :: l =>
    if d.toList <+: a :: l then some ([], l.drop d.tail.length)
    else (d.cut l).map fun p => (a :: p.1, p.2)

/-- A first piece and others, the delimiter before each of these. -/
def join (d : Delimiter α) (x : List α) (xs : List (List α)) : List α :=
  x ++ xs.flatMap (d.toList ++ ·)

variable {d : Delimiter α} {l x y : List α} {xs ys : List (List α)}

@[simp] theorem join_nil : d.join x [] = x := by simp [join]

theorem join_cons (z : List α) : d.join x (z :: xs) = x ++ (d.toList ++ d.join z xs) := by
  simp [join, List.append_assoc]

theorem join_eq_append (x : List α) (xs : List (List α)) : d.join x xs = x ++ d.join [] xs := rfl

/-- A delimiter put after a list without one does not begin earlier. -/
theorem not_prefix_append {a : α} (h : ¬d.toList <:+: a :: x) (y : List α) :
    ¬d.toList <+: a :: (x ++ (d.toList ++ y)) := by
  rw [← List.cons_append]
  intro hstarts
  rcases Nat.lt_or_ge (a :: x).length d.toList.length with hlt | hge
  · -- it would reach into the one that was put there, whose head it would hold in its tail
    obtain ⟨t, ht⟩ := hstarts
    have hget : (d.toList ++ t)[(a :: x).length]? = some d.head := by
      rw [ht, List.getElem?_append_right (le_refl _)]
      simp [toList]
    rw [List.getElem?_append_left hlt, List.length_cons, toList, List.getElem?_cons_succ] at hget
    exact d.head_notMem (List.mem_of_getElem? hget)
  · exact h (List.prefix_of_prefix_length_le hstarts (List.prefix_append _ _) hge).isInfix

/-- A delimiter does not begin in a list without its head. -/
theorem toList_infix_append_iff (h : d.head ∉ x) :
    d.toList <:+: x ++ y ↔ d.toList <:+: y := by
  induction x with
  | nil => rfl
  | cons a x ih =>
    rw [List.mem_cons, not_or] at h
    have hstarts : ¬d.toList <+: a :: (x ++ y) := by
      rintro ⟨t, ht⟩
      exact h.1 (List.cons.inj ht).1
    rw [List.cons_append, List.infix_cons_iff, ih h.2]
    simp [hstarts]

variable [DecidableEq α]

theorem cut_eq_none_iff : ∀ {l : List α}, d.cut l = none ↔ ¬d.toList <:+: l
  | [] => by simp [cut, toList]
  | a :: l => by
      rw [cut, List.infix_cons_iff]
      split_ifs with hstarts
      · simp [hstarts]
      · rw [Option.map_eq_none_iff, cut_eq_none_iff]
        simp [hstarts]

theorem of_cut_eq_some : ∀ {l x y : List α}, d.cut l = some (x, y) →
    l = x ++ (d.toList ++ y) ∧ ¬d.toList <:+: x
  | [], _, _, h => by cases h
  | a :: l, x, y, h => by
      rw [cut] at h
      split_ifs at h with hstarts
      · cases h
        obtain ⟨t, ht⟩ := hstarts
        refine ⟨?_, by simp [toList]⟩
        rw [toList, List.cons_append, List.cons.injEq] at ht
        rw [← ht.2, List.drop_append_length, toList, ht.1]
        simp
      · obtain ⟨⟨u, v⟩, hcut, heq⟩ := Option.map_eq_some_iff.mp h
        cases heq
        obtain ⟨hl, hu⟩ := of_cut_eq_some hcut
        refine ⟨by rw [hl, List.cons_append], ?_⟩
        rw [List.infix_cons_iff]
        rintro (hpre | hin)
        · rw [hl, ← List.cons_append] at hstarts
          exact hstarts (hpre.trans (List.prefix_append _ _))
        · exact hu hin

theorem cut_append : ∀ {x : List α}, ¬d.toList <:+: x → ∀ y,
    d.cut (x ++ (d.toList ++ y)) = some (x, y)
  | [], _, y => by
      rw [List.nil_append, toList, List.cons_append, cut, if_pos, List.drop_append_length]
      exact List.prefix_append _ _
  | a :: x, h, y => by
      have hx : ¬d.toList <:+: x := fun hin => h (List.infix_cons hin)
      rw [List.cons_append, cut, if_neg (not_prefix_append h y), cut_append hx y, Option.map_some]

/-- The pieces between the delimiters. -/
def pieces (d : Delimiter α) (l : List α) : List (List α) :=
  match _h : d.cut l with
  | none => [l]
  | some (x, y) => x :: d.pieces y
termination_by l.length
decreasing_by
  rw [(of_cut_eq_some _h).1]
  simp only [List.length_append, toList, List.length_cons]
  omega

theorem pieces_of_none (h : d.cut l = none) : d.pieces l = [l] := by
  rw [pieces]
  split
  · rfl
  · rename_i h'
    rw [h] at h'
    cases h'

theorem pieces_of_some (h : d.cut l = some (x, y)) : d.pieces l = x :: d.pieces y := by
  rw [pieces]
  split
  · rename_i h'
    rw [h] at h'
    cases h'
  · rename_i h'
    rw [h] at h'
    cases h'
    rfl

theorem not_infix_of_mem_pieces (l : List α) : ∀ x ∈ d.pieces l, ¬d.toList <:+: x := by
  induction l using pieces.induct d with
  | case1 l h =>
    rw [pieces_of_none h]
    intro x hx
    rw [List.mem_singleton.mp hx]
    exact cut_eq_none_iff.mp h
  | case2 l x y h ih =>
    rw [pieces_of_some h]
    intro z hz
    rcases List.mem_cons.mp hz with rfl | hz
    · exact (of_cut_eq_some h).2
    · exact ih z hz

/-- Pieces without the delimiter are what the joined list is divided into. -/
theorem pieces_join : ∀ {x : List α} {xs : List (List α)}, (∀ z ∈ x :: xs, ¬d.toList <:+: z) →
    d.pieces (d.join x xs) = x :: xs
  | x, [], h => by
      rw [join_nil, pieces_of_none (cut_eq_none_iff.mpr (h x List.mem_cons_self))]
  | x, z :: zs, h => by
      have hrest : ∀ w ∈ z :: zs, ¬d.toList <:+: w := fun w hw => h w (List.mem_cons_of_mem _ hw)
      rw [join_cons, pieces_of_some (cut_append (h x List.mem_cons_self) _), pieces_join hrest]

/-- Joined again, the pieces are the list. -/
theorem exists_join_pieces (d : Delimiter α) (l : List α) :
    ∃ x xs, d.pieces l = x :: xs ∧ d.join x xs = l := by
  induction l using pieces.induct d with
  | case1 l h => exact ⟨l, [], pieces_of_none h, join_nil⟩
  | case2 l x y h ih =>
    obtain ⟨z, zs, hpieces, hjoin⟩ := ih
    refine ⟨x, z :: zs, by rw [pieces_of_some h, hpieces], ?_⟩
    rw [join_cons, hjoin, ← (of_cut_eq_some h).1]

/-- The pieces of two lists with a delimiter between them. -/
theorem pieces_append (d : Delimiter α) (l m : List α) :
    d.pieces (l ++ (d.toList ++ m)) = d.pieces l ++ d.pieces m := by
  obtain ⟨x, xs, hl, hjoin⟩ := d.exists_join_pieces l
  obtain ⟨z, zs, hm, hjoin'⟩ := d.exists_join_pieces m
  have hwhole : l ++ (d.toList ++ m) = d.join x (xs ++ z :: zs) := by
    rw [← hjoin, ← hjoin', join, join, join]
    simp [List.append_assoc]
  rw [hwhole, hl, hm, pieces_join]
  · rfl
  · intro w hw
    rw [← List.cons_append, ← hl, ← hm, List.mem_append] at hw
    rcases hw with hw | hw
    · exact not_infix_of_mem_pieces l w hw
    · exact not_infix_of_mem_pieces m w hw

/-- The pieces of a joined list are those of what was joined. -/
theorem pieces_join_eq (x : List α) (xs : List (List α)) :
    d.pieces (d.join x xs) = (x :: xs).flatMap d.pieces := by
  induction xs generalizing x with
  | nil => rw [join_nil, List.flatMap_cons, List.flatMap_nil, List.append_nil]
  | cons z zs ih =>
    rw [join_cons, pieces_append, ih, List.flatMap_cons, List.flatMap_cons, List.flatMap_cons]

end Delimiter
