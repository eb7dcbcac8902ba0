import Mathlib.Logic.Equiv.Basic
import Mathlib.Tactic.Common

/-! Message dispatch over single inheritance. A `MethodTable` holds the implementations each class
    has of its own; a message reaches the first one on the way up. The operations are those of a
    runtime that lets a program rewrite the table: a method can be added where the class has none,
    replaced, and two methods can exchange their implementations where they stand. `send` performs
    a message whose implementation may send further ones to the same receiver, with a bound on the
    nesting; `Answers` says that it comes back with that answer under every bound from some point
    on. -/

variable {κ ς ι α ρ : Type*}

/-- Classes with at most one superclass each; the depth makes every way up end. -/
structure Hierarchy (κ : Type*) where
  superclass : κ → Option κ
  depth : κ → ℕ
  superclass_depth : ∀ c d, superclass c = some d → depth d < depth c

namespace Hierarchy

/-- A class and at most `n` classes above it. -/
def climb (H : Hierarchy κ) : ℕ → κ → List κ
  | 0, c => [c]
  | n + 1, c => c :: ((H.superclass c).map (H.climb n)).getD []

/-- A class and all classes above it, from the class upwards. -/
def ancestry (H : Hierarchy κ) (c : κ) : List κ := H.climb (H.depth c) c

variable (H : Hierarchy κ)

theorem climb_of_root {c : κ} (h : H.superclass c = none) : ∀ n, H.climb n c = [c]
  | 0 => rfl
  | _ + 1 => by rw [climb, h]; rfl

/-- Climbing further than the depth finds nothing new. -/
theorem climb_depth : ∀ (n : ℕ) (c : κ), H.depth c ≤ n → H.climb n c = H.ancestry c
  | 0, c, h => by rw [ancestry, Nat.le_zero.mp h]
  | n + 1, c, h => by
      cases hs : H.superclass c with
      | none => rw [ancestry, H.climb_of_root hs, H.climb_of_root hs]
      | some d =>
        have hd := H.superclass_depth c d hs
        obtain ⟨m, hm⟩ := Nat.exists_eq_succ_of_ne_zero (Nat.ne_of_gt (Nat.zero_lt_of_lt hd))
        rw [ancestry, hm, climb, climb, hs]
        simp only [Option.map_some, Option.getD_some]
        rw [climb_depth n d (by omega), climb_depth m d (by omega)]

theorem ancestry_root {c : κ} (h : H.superclass c = none) : H.ancestry c = [c] :=
  H.climb_of_root h _

theorem ancestry_super {c d : κ} (h : H.superclass c = some d) :
    H.ancestry c = c :: H.ancestry d := by
  have hd := H.superclass_depth c d h
  rw [← H.climb_depth (H.depth c + 1) c (by omega), climb, h, Option.map_some, Option.getD_some,
    H.climb_depth (H.depth c) d (by omega)]

theorem ancestry_eq_cons (c : κ) : ∃ cs, H.ancestry c = c :: cs := by
  cases h : H.superclass c with
  | none => exact ⟨[], H.ancestry_root h⟩
  | some d => exact ⟨H.ancestry d, H.ancestry_super h⟩

theorem self_mem_ancestry (c : κ) : c ∈ H.ancestry c := by
  obtain ⟨cs, hcs⟩ := H.ancestry_eq_cons c
  simp [hcs]

/-- What follows a class on the way up is the way up from there. -/
theorem ancestry_of_append : ∀ (ds : List κ) {c d : κ} {es : List κ},
    H.ancestry c = ds ++ d :: es → H.ancestry d = d :: es
  | [], c, d, es, h => by
      obtain ⟨cs, hcs⟩ := H.ancestry_eq_cons c
      have hcd : c = d := by simp_all
      rw [← hcd, h, hcd, List.nil_append]
  | a :: ds, c, d, es, h => by
      cases hs : H.superclass c with
      | none =>
        rw [H.ancestry_root hs] at h
        simp at h
      | some e =>
        rw [H.ancestry_super hs] at h
        exact ancestry_of_append ds (List.cons.inj h).2

theorem ancestry_trans {c d e : κ} (hd : d ∈ H.ancestry c) (he : e ∈ H.ancestry d) :
    e ∈ H.ancestry c := by
  obtain ⟨ds, es, hc⟩ := List.append_of_mem hd
  rw [H.ancestry_of_append ds hc] at he
  rw [hc]
  exact List.mem_append_right _ he

/-- A class above another is less deep. -/
theorem depth_lt_of_mem_ancestry {d : κ} : ∀ (n : ℕ) (c : κ), H.depth c ≤ n →
    d ∈ H.ancestry c → d ≠ c → H.depth d < H.depth c := by
  intro n
  induction n with
  | zero =>
    intro c hn hd hne
    rw [ancestry, Nat.le_zero.mp hn] at hd
    exact absurd (List.mem_singleton.mp hd) hne
  | succ n ih =>
    intro c hn hd hne
    cases hs : H.superclass c with
    | none =>
      rw [H.ancestry_root hs] at hd
      exact absurd (List.mem_singleton.mp hd) hne
    | some e =>
      have he := H.superclass_depth c e hs
      rw [H.ancestry_super hs] at hd
      rcases List.mem_cons.mp hd with rfl | hd
      · exact absurd rfl hne
      · by_cases hde : d = e
        · rw [hde]
          exact he
        · exact Nat.lt_trans (ih e (by omega) hd hde) he

/-- No two classes are above each other. -/
theorem not_mem_ancestry {c d : κ} (hd : d ∈ H.ancestry c) (hne : d ≠ c) : c ∉ H.ancestry d := by
  intro hc
  have hdc := H.depth_lt_of_mem_ancestry _ c (Nat.le_refl _) hd hne
  have hcd := H.depth_lt_of_mem_ancestry _ d (Nat.le_refl _) hc hne.symm
  omega

theorem depth_le_of_mem_ancestry {c d : κ} (hd : d ∈ H.ancestry c) : H.depth d ≤ H.depth c := by
  by_cases hdc : d = c
  · exact Nat.le_of_eq (congrArg H.depth hdc)
  · exact Nat.le_of_lt (H.depth_lt_of_mem_ancestry _ c (Nat.le_refl _) hd hdc)

/-- The way up passes each class once, and ever less deep ones. -/
theorem depth_lt_of_mem_above {c d : κ} {ds : List κ} (h : H.ancestry c = c :: ds) (hd : d ∈ ds) :
    H.depth d < H.depth c := by
  cases hs : H.superclass c with
  | none =>
    rw [H.ancestry_root hs] at h
    simp [← (List.cons.inj h).2] at hd
  | some e =>
    rw [H.ancestry_super hs] at h
    rw [← (List.cons.inj h).2] at hd
    exact Nat.lt_of_le_of_lt (H.depth_le_of_mem_ancestry hd) (H.superclass_depth c e hs)

theorem not_mem_ancestry_above {c d : κ} {ds : List κ} (h : H.ancestry c = c :: ds)
    (hd : d ∈ ds) : c ∉ H.ancestry d := fun hc =>
  absurd (H.depth_lt_of_mem_above h hd) (Nat.not_lt.mpr (H.depth_le_of_mem_ancestry hc))

theorem not_mem_below {b c : κ} {ds es : List κ} (h : H.ancestry b = ds ++ c :: es) : c ∉ ds := by
  intro hc
  obtain ⟨as, bs, rfl⟩ := List.append_of_mem hc
  have hup := H.ancestry_of_append as (by rw [h, List.append_assoc, List.cons_append])
  exact H.not_mem_ancestry_above hup (by simp) (H.self_mem_ancestry c)

end Hierarchy

/-- The implementations each class has of its own. -/
abbrev MethodTable (κ ς ι : Type*) := κ → ς → Option ι

/-- A method, by the place in the table it stands at. -/
structure Method (κ ς : Type*) where
  owner : κ
  selector : ς

namespace MethodTable

/-- The implementation a message to an instance of `c` reaches. -/
def lookup (H : Hierarchy κ) (T : MethodTable κ ς ι) (c : κ) (s : ς) : Option ι :=
  (H.ancestry c).findSome? fun d => T d s

def getInstanceMethod (H : Hierarchy κ) (T : MethodTable κ ς ι) (c : κ) (s : ς) :
    Option (Method κ ς) :=
  ((H.ancestry c).find? fun d => (T d s).isSome).map fun d => ⟨d, s⟩

def getImplementation (T : MethodTable κ ς ι) (m : Method κ ς) : Option ι := T m.owner m.selector

variable {H : Hierarchy κ} {T T' : MethodTable κ ς ι} {c d : κ} {s t : ς}

/-! ### Lookup -/

theorem lookup_congr (h : ∀ d ∈ H.ancestry c, T' d s = T d t) :
    T'.lookup H c s = T.lookup H c t := by
  unfold lookup
  generalize H.ancestry c = ds at h ⊢
  induction ds with
  | nil => rfl
  | cons d ds ih =>
    rw [List.findSome?_cons, List.findSome?_cons, h d (by simp),
      ih fun e he => h e (by simp [he])]

theorem lookup_own {i : ι} (h : T c s = some i) : T.lookup H c s = some i := by
  obtain ⟨cs, hcs⟩ := H.ancestry_eq_cons c
  rw [lookup, hcs, List.findSome?_cons, h]

/-- A class without a method of its own answers as its superclass does. -/
theorem lookup_inherit (hd : H.superclass c = some d) (h : T c s = none) :
    T.lookup H c s = T.lookup H d s := by
  rw [lookup, H.ancestry_super hd, List.findSome?_cons, h]
  rfl

/-- Without a method of its own a class answers as whatever stands above it. -/
theorem lookup_above (h : T c s = none) :
    T.lookup H c s = (H.superclass c).bind fun d => T.lookup H d s := by
  cases hs : H.superclass c with
  | none => simp [lookup, H.ancestry_root hs, h]
  | some d => rw [lookup_inherit hs h, Option.bind_some]

theorem lookup_isSome_iff : (T.lookup H c s).isSome ↔ ∃ d ∈ H.ancestry c, (T d s).isSome :=
  List.findSome?_isSome_iff

theorem getInstanceMethod_own {i : ι} (h : T c s = some i) :
    getInstanceMethod H T c s = some ⟨c, s⟩ := by
  obtain ⟨cs, hcs⟩ := H.ancestry_eq_cons c
  simp [getInstanceMethod, hcs, h]

/-- The method found for a message, its place and what is above and below it. -/
theorem getInstanceMethod_of_lookup (h : (T.lookup H c s).isSome) :
    ∃ d, getInstanceMethod H T c s = some ⟨d, s⟩ ∧ d ∈ H.ancestry c ∧
      T d s = T.lookup H c s := by
  unfold getInstanceMethod
  unfold lookup at h ⊢
  generalize H.ancestry c = ds at h ⊢
  induction ds with
  | nil => simp at h
  | cons e es ih =>
    cases he : T e s with
    | some i => exact ⟨e, by simp [he], by simp, by simp [he]⟩
    | none =>
      rw [List.findSome?_cons, he] at h
      obtain ⟨d, hfind, hmem, hd⟩ := ih h
      exact ⟨d, by simpa [List.find?_cons, he] using hfind, by simp [hmem],
        by simpa [he] using hd⟩

/-- The method found stands in the class or above it, and is what the message reaches. -/
theorem lookup_of_getInstanceMethod (h : getInstanceMethod H T c s = some ⟨d, t⟩) :
    s = t ∧ d ∈ H.ancestry c ∧ (T d s).isSome ∧ T.lookup H c s = T d s := by
  obtain ⟨e, he, heq⟩ := Option.map_eq_some_iff.mp h
  cases heq
  have hmem := List.mem_of_find?_eq_some he
  have hown : (T d s).isSome := List.find?_some (p := fun f => (T f s).isSome) he
  obtain ⟨f, hf, -, hlookup⟩ := getInstanceMethod_of_lookup
    (lookup_isSome_iff.mpr ⟨d, hmem, hown⟩)
  rw [h] at hf
  cases hf
  exact ⟨rfl, hmem, hown, hlookup.symm⟩

theorem lookup_eq_none (h : getInstanceMethod H T c s = none) : T.lookup H c s = none := by
  cases hlookup : T.lookup H c s with
  | none => rfl
  | some i =>
    obtain ⟨d, hd, -⟩ := getInstanceMethod_of_lookup (by rw [hlookup]; rfl)
    rw [h] at hd
    cases hd

/-! ### Sending -/

/-- A message to one receiver whose methods are found by `look`: the implementation runs with the
    argument and may send on. `none` when the nesting passes the bound or nothing answers. -/
def send (look : ς → Option ι) (body : ι → α → (ς → α → Option ρ) → Option ρ) :
    ℕ → ς → α → Option ρ
  | 0, _, _ => none
  | n + 1, s, x => (look s).bind fun i => body i x (send look body n)

/-- The message comes back with `r`, however deep a nesting from some depth on is allowed. -/
def Answers (look : ς → Option ι) (body : ι → α → (ς → α → Option ρ) → Option ρ) (s : ς) (x : α)
    (r : ρ) : Prop :=
  ∃ n, ∀ m, n ≤ m → send look body m s x = some r

variable {look : ς → Option ι} {body : ι → α → (ς → α → Option ρ) → Option ρ} {x y : α} {r r' : ρ}
  {i : ι}

theorem Answers.unique (h : Answers look body s x r) (h' : Answers look body s x r') : r = r' := by
  obtain ⟨n, hn⟩ := h
  obtain ⟨n', hn'⟩ := h'
  have hr := hn (max n n') (Nat.le_max_left n n')
  rw [hn' (max n n') (Nat.le_max_right n n')] at hr
  exact (Option.some.inj hr).symm

/-- An implementation that sends nothing answers at once. -/
theorem Answers.leaf (hi : look s = some i) (h : ∀ k, body i x k = some r) :
    Answers look body s x r := by
  refine ⟨1, fun m hm => ?_⟩
  obtain ⟨m, rfl⟩ := Nat.exists_eq_add_of_le' hm
  rw [send, hi, Option.bind_some, h]

/-- An implementation that ends in a message answers what that message does. -/
theorem Answers.tail (hi : look s = some i) (h : ∀ k, body i x k = k t y)
    (ht : Answers look body t y r) : Answers look body s x r := by
  obtain ⟨n, hn⟩ := ht
  refine ⟨n + 1, fun m hm => ?_⟩
  obtain ⟨m, rfl⟩ := Nat.exists_eq_add_of_le' (Nat.le_of_add_left_le hm)
  rw [send, hi, Option.bind_some, h, hn m (by omega)]

/-- An implementation that sends a message and then goes on from its answer. -/
theorem Answers.followed {f : ρ → ρ} (hi : look s = some i)
    (h : ∀ k, body i x k = (k t y).map f) (ht : Answers look body t y r) :
    Answers look body s x (f r) := by
  obtain ⟨n, hn⟩ := ht
  refine ⟨n + 1, fun m hm => ?_⟩
  obtain ⟨m, rfl⟩ := Nat.exists_eq_add_of_le' (Nat.le_of_add_left_le hm)
  rw [send, hi, Option.bind_some, h, hn m (by omega), Option.map_some]

/-- Messages that reach nothing, or lead to a message among themselves first, never come back. -/
theorem send_eq_none_of_stuck (Stuck : ς → α → Prop)
    (hstuck : ∀ s x, Stuck s x → look s = none ∨ ∃ (i : ι) (t : ς) (y : α) (g : ρ → Option ρ),
      look s = some i ∧ (∀ k, body i x k = (k t y).bind g) ∧ Stuck t y) :
    ∀ n s x, Stuck s x → send look body n s x = none := by
  intro n
  induction n with
  | zero => exact fun _ _ _ => rfl
  | succ n ih =>
    intro s x hsx
    rcases hstuck s x hsx with hlook | ⟨i, t, y, g, hlook, hbody, hty⟩
    · rw [send, hlook, Option.bind_none]
    · rw [send, hlook, Option.bind_some, hbody, ih t y hty, Option.bind_none]

theorem send_eq_none_of_look (hs : look s = none) (n : ℕ) (x : α) :
    send look body n s x = none :=
  send_eq_none_of_stuck (fun t _ => t = s) (fun _ _ h => .inl (h ▸ hs)) n s x rfl

/-! ### Rewriting -/

variable [DecidableEq κ] [DecidableEq ς]

def replaceMethod (T : MethodTable κ ς ι) (c : κ) (s : ς) (imp : Option ι) : MethodTable κ ς ι :=
  fun d t => if d = c ∧ t = s then imp else T d t

/-- The table with the method added, `none` when the class has one of its own. -/
def addMethod (T : MethodTable κ ς ι) (c : κ) (s : ς) (imp : Option ι) :
    Option (MethodTable κ ς ι) :=
  if (T c s).isSome then none else some (T.replaceMethod c s imp)

def exchangeImplementations (T : MethodTable κ ς ι) (m m' : Method κ ς) : MethodTable κ ς ι :=
  (T.replaceMethod m.owner m.selector (T.getImplementation m')).replaceMethod m'.owner m'.selector
    (T.getImplementation m)

theorem getInstanceMethod_replaceMethod (hst : s ≠ t) (d : κ) (imp : Option ι) :
    getInstanceMethod H (T.replaceMethod d t imp) c s = getInstanceMethod H T c s := by
  simp [getInstanceMethod, replaceMethod, hst]

/-- The entries after an exchange: each of the two places holds what the other held. -/
theorem exchangeImplementations_entry {e : κ} {i j : ι} (hs : T c s = some i) (ht : T e t = some j)
    (d : κ) (u : ς) : T.exchangeImplementations ⟨c, s⟩ ⟨e, t⟩ d u =
      if d = e ∧ u = t then some i else if d = c ∧ u = s then some j else T d u := by
  simp [exchangeImplementations, replaceMethod, getImplementation, hs, ht]

/-- A message finds what is put in the place of the method it found. -/
theorem lookup_replaceMethod (h : getInstanceMethod H T c s = some ⟨d, s⟩) :
    (T.replaceMethod d s (some i)).lookup H c s = some i := by
  unfold getInstanceMethod at h
  unfold lookup
  generalize H.ancestry c = ds at h ⊢
  induction ds with
  | nil => simp at h
  | cons e es ih =>
    by_cases hed : e = d
    · subst hed
      simp [replaceMethod]
    · cases he : T e s with
      | some j =>
        rw [List.find?_cons, he] at h
        exact absurd (by simpa using h) hed
      | none =>
        rw [List.find?_cons, he] at h
        rw [List.findSome?_cons]
        simpa [replaceMethod, hed, he] using ih h

/-- A message that finds another method does not notice that one is replaced. -/
theorem lookup_replaceMethod_of_ne (hown : (T d t).isSome)
    (h : getInstanceMethod H T c s ≠ some ⟨d, t⟩) :
    (T.replaceMethod d t (some i)).lookup H c s = T.lookup H c s := by
  by_cases hst : s = t
  · subst hst
    unfold getInstanceMethod at h
    unfold lookup
    generalize H.ancestry c = ds at h ⊢
    induction ds with
    | nil => rfl
    | cons e es ih =>
      by_cases hed : e = d
      · -- the search would have stopped here
        subst hed
        exact absurd (by simp [hown]) h
      · rw [List.findSome?_cons, List.findSome?_cons]
        cases he : T e s with
        | some j => simp [replaceMethod, hed, he]
        | none =>
          have hrest := ih (by simpa [List.find?_cons, he] using h)
          simpa [replaceMethod, hed, he] using hrest
  · exact lookup_congr fun e _ => by simp [replaceMethod, hst]

end MethodTable
