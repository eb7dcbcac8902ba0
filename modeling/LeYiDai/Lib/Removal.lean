import Mathlib.Data.List.Basic
import Mathlib.Tactic.Common

/-! Taking pieces out of a list, from the left and without overlap. Some elements are glued to the
    one before them: a piece counts only when what follows it is loose. `erase` takes out several
    pieces in one pass. Taking out pieces of one element afterwards is the same as having them among
    the pieces (`erase_foldl_single`), a list stays as it is iff no piece occurs in it
    (`erase_eq_self_iff`), and what is kept can be found in the list again, behind a gap of pieces
    (`erase_eq_cons`, `erase_eq_append`, `erase_gap`). -/

namespace Removal

variable {α : Type*}

/-- Nothing at the front of `s` is glued to what stands before it. -/
def Loose (glued : α → Bool) (s : List α) : Prop := ∀ x ∈ s.head?, glued x = false

instance (glued : α → Bool) (s : List α) : Decidable (Loose glued s) :=
  inferInstanceAs (Decidable (∀ x ∈ s.head?, glued x = false))

/-- `p` stands at the front of `s`. -/
def AtHead (glued : α → Bool) (s p : List α) : Prop := p <+: s ∧ Loose glued (s.drop p.length)

/-- `p` stands somewhere in `s`. -/
def Occurs (glued : α → Bool) (p s : List α) : Prop := ∃ a b, s = a ++ (p ++ b) ∧ Loose glued b

/-- Pieces one after the other. -/
inductive Gap (ps : List (List α)) : List α → Prop where
  | nil : Gap ps []
  | cons {p g : List α} (hp : p ∈ ps) (hg : Gap ps g) : Gap ps (p ++ g)

variable [DecidableEq α] (glued : α → Bool) (ps : List (List α))

instance (s p : List α) : Decidable (AtHead glued s p) := inferInstanceAs (Decidable (_ ∧ _))

/-- The first of the pieces that stands at the front of `s`. -/
def headPiece (s : List α) : Option (List α) := ps.find? fun p => AtHead glued s p

/-- `erase`, with the number of elements still to be skipped. -/
def eraseAux : ℕ → List α → List α
  | _, [] => []
  | k + 1, _ :: xs => eraseAux k xs
  | 0, x :: xs =>
    match headPiece glued ps (x :: xs) with
    | some p => eraseAux (p.length - 1) xs
    | none => x :: eraseAux 0 xs

/-- The list without the pieces. -/
def erase (s : List α) : List α := eraseAux glued ps 0 s

variable {glued ps} {s t p g : List α} {x : α}

theorem eraseAux_eq_drop : ∀ (k : ℕ) (s : List α),
    eraseAux glued ps k s = erase glued ps (s.drop k)
  | 0, _ => rfl
  | _ + 1, [] => rfl
  | k + 1, _ :: xs => eraseAux_eq_drop k xs

theorem erase_nil : erase glued ps [] = [] := rfl

theorem erase_piece (h : headPiece glued ps s = some p) (hp : p ≠ []) :
    erase glued ps s = erase glued ps (s.drop p.length) := by
  obtain ⟨n, hn⟩ := Nat.exists_eq_succ_of_ne_zero fun h0 => hp (List.length_eq_zero_iff.mp h0)
  cases s with
  | nil => simp
  | cons x xs =>
    have hstep : erase glued ps (x :: xs) = eraseAux glued ps (p.length - 1) xs := by
      rw [erase, eraseAux, h]
    rw [hstep, eraseAux_eq_drop, hn, List.drop_succ_cons, Nat.succ_sub_one]

theorem erase_kept {xs : List α} (h : headPiece glued ps (x :: xs) = none) :
    erase glued ps (x :: xs) = x :: erase glued ps xs := by
  rw [erase, eraseAux, h]
  rfl

theorem headPiece_mem (h : headPiece glued ps s = some p) : p ∈ ps ∧ AtHead glued s p := by
  refine ⟨List.mem_of_find?_eq_some h, ?_⟩
  simpa using List.find?_some h

theorem headPiece_eq_none : headPiece glued ps s = none ↔ ∀ p ∈ ps, ¬AtHead glued s p := by
  simp [headPiece]

omit [DecidableEq α] in
/-- A piece at the front, and what follows it. -/
theorem AtHead.eq_append (h : AtHead glued s p) : s = p ++ s.drop p.length := by
  obtain ⟨b, rfl⟩ := h.1
  simp

/-- The list is empty, has a piece in front, or has an element in front that stays. -/
theorem erase_induction (glued : α → Bool) {motive : List α → Prop} (hps : [] ∉ ps)
    (nil : motive [])
    (piece : ∀ s p, headPiece glued ps s = some p → motive (s.drop p.length) → motive s)
    (kept : ∀ x xs, headPiece glued ps (x :: xs) = none → motive xs → motive (x :: xs)) :
    ∀ s, motive s := by
  intro s
  induction hn : s.length using Nat.strongRecOn generalizing s with
  | ind n ih =>
    cases s with
    | nil => exact nil
    | cons x xs =>
      cases h : headPiece glued ps (x :: xs) with
      | none => exact kept x xs h (ih xs.length (by simp [← hn]) xs rfl)
      | some p =>
        have hp : 0 < p.length := List.length_pos_iff.mpr fun h0 => hps (h0 ▸ (headPiece_mem h).1)
        refine piece _ p h (ih _ ?_ _ rfl)
        rw [List.length_drop, ← hn]
        simp only [List.length_cons]
        omega

theorem erase_length_le (hps : [] ∉ ps) (s : List α) : (erase glued ps s).length ≤ s.length := by
  induction s using erase_induction glued hps with
  | nil => simp [erase_nil]
  | piece s p h ih =>
    rw [erase_piece h fun h0 => hps (h0 ▸ (headPiece_mem h).1)]
    rw [List.length_drop] at ih
    omega
  | kept x xs h ih =>
    rw [erase_kept h]
    simpa using ih

/-- Pieces that have elements, are not glued to what stands before them, and none of which begins
    another. -/
structure Pieces (glued : α → Bool) (ps : List (List α)) : Prop where
  ne_nil : [] ∉ ps
  loose : ∀ p ∈ ps, Loose glued p
  prefix_free : ∀ p ∈ ps, ∀ q ∈ ps, p <+: q → p = q

omit [DecidableEq α] in
theorem Pieces.mono {qs : List (List α)} (h : Pieces glued ps) (hsub : qs ⊆ ps) :
    Pieces glued qs where
  ne_nil hq := h.ne_nil (hsub hq)
  loose p hp := h.loose p (hsub hp)
  prefix_free p hp q hq := h.prefix_free p (hsub hp) q (hsub hq)

theorem Pieces.ne (h : Pieces glued ps) (hs : headPiece glued ps s = some p) : p ≠ [] :=
  fun h0 => h.ne_nil (h0 ▸ (headPiece_mem hs).1)

omit [DecidableEq α] in
theorem loose_append (hp : p ≠ []) : Loose glued (p ++ t) ↔ Loose glued p := by
  cases p with
  | nil => exact absurd rfl hp
  | cons x xs => rfl

theorem loose_erase (h : Pieces glued ps) (s : List α) :
    Loose glued (erase glued ps s) ↔ Loose glued s := by
  induction s using erase_induction glued h.ne_nil with
  | nil => rfl
  | piece s p hs ih =>
    obtain ⟨hmem, hhead⟩ := headPiece_mem hs
    have hfront : Loose glued s := by
      rw [hhead.eq_append, loose_append (h.ne hs)]
      exact h.loose p hmem
    rw [erase_piece hs (h.ne hs), ih]
    exact iff_of_true hhead.2 hfront
  | kept x xs hs ih =>
    rw [erase_kept hs]
    rfl

/-! ### One pass for several -/

theorem headPiece_append (qs : List (List α)) (s : List α) :
    headPiece glued (ps ++ qs) s = (headPiece glued ps s).or (headPiece glued qs s) :=
  List.find?_append

theorem headPiece_single {d : α} (hne : s ≠ []) :
    headPiece glued [[d]] s = if s.head? = some d ∧ Loose glued s.tail then some [d] else none := by
  cases s with
  | nil => exact absurd rfl hne
  | cons y ys =>
    have hhead : AtHead glued (y :: ys) [d] ↔ y = d ∧ Loose glued ys := by
      simp [AtHead, eq_comm]
    simp only [headPiece, List.find?_cons, hhead, List.find?_nil, List.head?_cons,
      Option.some.injEq, List.tail_cons]
    split_ifs with hd <;> simp [hd]

/-- Taking out a piece of one element after others is taking it out with them. -/
theorem erase_erase_single (h : Pieces glued ps) (d : α) (s : List α) :
    erase glued [[d]] (erase glued ps s) = erase glued (ps ++ [[d]]) s := by
  induction s using erase_induction glued h.ne_nil with
  | nil => rfl
  | piece s p hs ih =>
    have hs' : headPiece glued (ps ++ [[d]]) s = some p := by
      rw [headPiece_append, hs, Option.some_or]
    rw [erase_piece hs (h.ne hs), erase_piece hs' (h.ne hs), ih]
  | kept x xs hs ih =>
    have hafter : headPiece glued [[d]] (x :: erase glued ps xs) =
        headPiece glued (ps ++ [[d]]) (x :: xs) := by
      rw [headPiece_append, hs, Option.none_or, headPiece_single (by simp),
        headPiece_single (by simp)]
      simp [loose_erase h]
    rw [erase_kept hs]
    cases hd : headPiece glued (ps ++ [[d]]) (x :: xs) with
    | none =>
      rw [hd] at hafter
      rw [erase_kept hafter, erase_kept hd, ih]
    | some q =>
      rw [hd] at hafter
      have hq : q = [d] := by simpa using (headPiece_mem hafter).1
      have hne : q ≠ [] := by simp [hq]
      rw [erase_piece hafter hne, erase_piece hd hne, hq]
      simpa using ih

theorem erase_foldl_single : ∀ (ds : List α) (ps : List (List α)),
    Pieces glued (ps ++ ds.map fun d => [d]) → ∀ s : List α,
      ds.foldl (fun s d => erase glued [[d]] s) (erase glued ps s) =
        erase glued (ps ++ ds.map fun d => [d]) s
  | [], ps, _, s => by simp
  | d :: ds, ps, h, s => by
      have hassoc : ps ++ (d :: ds).map (fun d => [d]) = ps ++ [[d]] ++ ds.map fun d => [d] := by
        simp
      rw [hassoc] at h ⊢
      rw [List.foldl_cons, erase_erase_single (h.mono (by simp))]
      exact erase_foldl_single ds (ps ++ [[d]]) h s

/-! ### What stays -/

theorem occurs_of_erase_ne (h : Pieces glued ps) (hne : erase glued ps s ≠ s) :
    ∃ p ∈ ps, Occurs glued p s := by
  induction s using erase_induction glued h.ne_nil with
  | nil => exact absurd rfl hne
  | piece s p hs ih =>
    obtain ⟨hmem, hhead⟩ := headPiece_mem hs
    exact ⟨p, hmem, [], s.drop p.length, hhead.eq_append, hhead.2⟩
  | kept x xs hs ih =>
    rw [erase_kept hs] at hne
    obtain ⟨p, hp, a, b, hab, hb⟩ := ih fun hxs => hne (by rw [hxs])
    exact ⟨p, hp, x :: a, b, by rw [hab, List.cons_append], hb⟩

theorem erase_length_lt (h : Pieces glued ps) (hp : p ∈ ps) (ho : Occurs glued p s) :
    (erase glued ps s).length < s.length := by
  induction s using erase_induction glued h.ne_nil with
  | nil =>
    obtain ⟨a, b, hab, -⟩ := ho
    have hnil : p = [] := by
      have := (List.append_eq_nil_iff.mp hab.symm).2
      exact (List.append_eq_nil_iff.mp this).1
    exact absurd (hnil ▸ hp) h.ne_nil
  | piece s q hs ih =>
    have hq : 0 < q.length := List.length_pos_iff.mpr (h.ne hs)
    have hle : (erase glued ps (s.drop q.length)).length ≤ (s.drop q.length).length :=
      erase_length_le h.ne_nil _
    have hlen := congrArg List.length (headPiece_mem hs).2.eq_append
    rw [List.length_append] at hlen
    rw [erase_piece hs (h.ne hs)]
    omega
  | kept x xs hs ih =>
    obtain ⟨a, b, hab, hb⟩ := ho
    rw [erase_kept hs, List.length_cons, List.length_cons]
    cases a with
    | nil =>
      refine absurd ⟨⟨b, hab.symm⟩, ?_⟩ (headPiece_eq_none.mp hs p hp)
      rw [hab]
      simpa using hb
    | cons y a =>
      rw [List.cons_append, List.cons.injEq] at hab
      exact Nat.succ_lt_succ (ih ⟨a, b, hab.2, hb⟩)

/-- A list stays as it is iff none of the pieces occurs in it. -/
theorem erase_eq_self_iff (h : Pieces glued ps) :
    erase glued ps s = s ↔ ∀ p ∈ ps, ¬Occurs glued p s := by
  constructor
  · intro heq p hp ho
    have hlt := erase_length_lt h hp ho
    rw [heq] at hlt
    exact Nat.lt_irrefl _ hlt
  · intro hno
    by_contra hne
    obtain ⟨p, hp, ho⟩ := occurs_of_erase_ne h hne
    exact hno p hp ho

/-! ### Finding what stays -/

/-- The first element that stays, behind a gap. -/
theorem erase_eq_cons (h : Pieces glued ps) (hs : erase glued ps s = x :: t) :
    ∃ g r, s = g ++ x :: r ∧ Gap ps g ∧ headPiece glued ps (x :: r) = none ∧
      erase glued ps r = t := by
  induction s using erase_induction glued h.ne_nil with
  | nil => cases hs
  | piece s p hp ih =>
    rw [erase_piece hp (h.ne hp)] at hs
    obtain ⟨g, r, hgr, hgap, hkept, hr⟩ := ih hs
    obtain ⟨hmem, hhead⟩ := headPiece_mem hp
    refine ⟨p ++ g, r, ?_, .cons hmem hgap, hkept, hr⟩
    rw [List.append_assoc, ← hgr]
    exact hhead.eq_append
  | kept y ys hy ih =>
    rw [erase_kept hy] at hs
    cases hs
    exact ⟨[], ys, rfl, .nil, hy, rfl⟩

/-- Whatever the result ends in comes from a last part of the list. -/
theorem erase_eq_append (h : Pieces glued ps) : ∀ {a u s : List α},
    erase glued ps s = a ++ u → ∃ b r, s = b ++ r ∧ erase glued ps r = u
  | [], u, s, hs => ⟨[], s, rfl, hs⟩
  | x :: a, u, s, hs => by
      obtain ⟨g, r, hgr, -, -, hr⟩ := erase_eq_cons h hs
      obtain ⟨b, r', hbr, hr'⟩ := erase_eq_append h hr
      exact ⟨g ++ x :: b, r', by rw [hgr, hbr]; simp, hr'⟩

/-- A piece of one element never occurs in what is left. -/
theorem not_occurs_single (h : Pieces glued ps) {d : α} (hd : [d] ∈ ps) (s : List α) :
    ¬Occurs glued [d] (erase glued ps s) := by
  rintro ⟨a, b, hab, hb⟩
  obtain ⟨-, r, -, hr⟩ := erase_eq_append h hab
  rw [List.singleton_append] at hr
  obtain ⟨g, r', -, -, hkept, hr'⟩ := erase_eq_cons h hr
  rw [← hr', loose_erase h] at hb
  exact headPiece_eq_none.mp hkept [d] hd ⟨⟨r', rfl⟩, hb⟩

/-- An element that begins no piece stays. -/
theorem erase_cons_of_head {xs : List α} (hx : ∀ p ∈ ps, p ≠ [] ∧ p.head? ≠ some x) :
    erase glued ps (x :: xs) = x :: erase glued ps xs := by
  refine erase_kept (headPiece_eq_none.mpr ?_)
  rintro p hp ⟨⟨b, hb⟩, -⟩
  obtain ⟨hne, hhead⟩ := hx p hp
  cases p with
  | nil => exact hne rfl
  | cons y ys =>
    rw [List.cons_append, List.cons.injEq] at hb
    exact hhead (by simp [hb.1])

omit [DecidableEq α] in
theorem Gap.loose (h : Pieces glued ps) (hg : Gap ps g) (ht : Loose glued t) :
    Loose glued (g ++ t) := by
  cases hg with
  | nil => exact ht
  | @cons p g hp _ =>
    rw [List.append_assoc, loose_append fun h0 => h.ne_nil (h0 ▸ hp)]
    exact h.loose p hp

/-- A gap goes, whatever loose comes after it. -/
theorem erase_gap (h : Pieces glued ps) (hg : Gap ps g) (ht : Loose glued t) :
    erase glued ps (g ++ t) = erase glued ps t := by
  induction hg with
  | nil => rfl
  | @cons p g hp hg ih =>
    have hhead : AtHead glued (p ++ g ++ t) p := by
      rw [List.append_assoc]
      exact ⟨⟨g ++ t, rfl⟩, by simpa using hg.loose h ht⟩
    cases hs : headPiece glued ps (p ++ g ++ t) with
    | none => exact absurd hhead (headPiece_eq_none.mp hs p hp)
    | some q =>
      obtain ⟨hq, hqhead⟩ := headPiece_mem hs
      have hpq : q = p := by
        rcases List.prefix_or_prefix_of_prefix hqhead.1 hhead.1 with hle | hle
        · exact h.prefix_free q hq p hp hle
        · exact (h.prefix_free p hp q hq hle).symm
      rw [erase_piece hs (h.ne hs), hpq, List.append_assoc, List.drop_left, ih]

/-- Nothing is taken out across a place whose next element stands in no piece but at its front. -/
theorem erase_append (h : Pieces glued ps) (ht : ∀ y ∈ t.head?, ∀ p ∈ ps, y ∉ p.tail)
    (a : List α) : ∃ b, erase glued ps (a ++ t) = b ++ erase glued ps t := by
  induction hn : a.length using Nat.strongRecOn generalizing a with
  | ind n ih =>
    cases a with
    | nil => exact ⟨[], rfl⟩
    | cons x xs =>
      cases hs : headPiece glued ps (x :: xs ++ t) with
      | none =>
        obtain ⟨b, hb⟩ := ih xs.length (by simp [← hn]) xs rfl
        refine ⟨x :: b, ?_⟩
        rw [List.cons_append] at hs ⊢
        rw [erase_kept hs, hb, List.cons_append]
      | some p =>
        obtain ⟨hp, hhead⟩ := headPiece_mem hs
        have hpos : 0 < p.length := List.length_pos_iff.mpr (h.ne hs)
        have hle : p.length ≤ (x :: xs).length := by
          by_contra hlong
          -- a longer piece would hold the first element of `t` behind its own first one
          obtain ⟨q, rfl⟩ := List.prefix_of_prefix_length_le (List.prefix_append (x :: xs) t)
            hhead.1 (by omega)
          cases q with
          | nil => simp at hlong
          | cons y q =>
            obtain ⟨b, hb⟩ := (List.prefix_append_right_inj (x :: xs)).mp hhead.1
            exact ht y (by simp [← hb]) _ hp (by simp)
        obtain ⟨b, hb⟩ := ih ((x :: xs).drop p.length).length
          (by rw [List.length_drop, ← hn]; simp only [List.length_cons] at hle ⊢; omega) _ rfl
        refine ⟨b, ?_⟩
        rw [erase_piece hs (h.ne hs), List.drop_append_of_le_length hle, hb]

end Removal
