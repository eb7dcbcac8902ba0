import Mathlib.Algebra.Order.BigOperators.Group.List
import Mathlib.Algebra.Order.Field.Power
import Mathlib.Algebra.Order.Floor.Ring
import Mathlib.Algebra.Ring.Int.Parity
import Mathlib.Data.Int.Log
import Mathlib.Data.List.Induction
import Mathlib.Data.Rat.Floor
import Mathlib.Tactic.FieldSimp
import Mathlib.Tactic.GCongr
import Mathlib.Tactic.Linarith
import Mathlib.Tactic.Positivity
import Mathlib.Tactic.Ring

/-! Rounding and its accumulation. `roundHalfEven` goes to the nearest integer, `roundBinary` to the
    nearest number of a binary format, half a unit in the last place away at most. A loop that adds
    up rounded numbers and rounds every partial sum is off by what the numbers lose and by what each
    partial sum after the first loses: the first number is rounded already. -/

namespace Rounding

/-! ### Integers -/

/-- The nearest integer, the even one of two. -/
def roundHalfEven (x : ℚ) : ℤ :=
  if x - ⌊x⌋ < 1 / 2 then ⌊x⌋
  else if 1 / 2 < x - ⌊x⌋ then ⌊x⌋ + 1
  else if Even ⌊x⌋ then ⌊x⌋ else ⌊x⌋ + 1

theorem abs_roundHalfEven_sub_le (x : ℚ) : |(roundHalfEven x : ℚ) - x| ≤ 1 / 2 := by
  have hlow := Int.floor_le x
  have hhigh := Int.lt_floor_add_one x
  rw [abs_le]
  unfold roundHalfEven
  split_ifs <;> push_cast <;> constructor <;> linarith

/-- A number less than a half away from an integer rounds to it. -/
theorem roundHalfEven_of_near {x : ℚ} {n : ℤ} (h : |x - n| < 1 / 2) : roundHalfEven x = n := by
  have hround := abs_le.mp (abs_roundHalfEven_sub_le x)
  have hnear := abs_lt.mp h
  have hlow : (n : ℚ) - 1 < roundHalfEven x := by linarith [hround.1, hnear.1]
  have hhigh : (roundHalfEven x : ℚ) < n + 1 := by linarith [hround.2, hnear.2]
  have hlow' : n - 1 < roundHalfEven x := by exact_mod_cast hlow
  have hhigh' : roundHalfEven x < n + 1 := by exact_mod_cast hhigh
  omega

theorem roundHalfEven_intCast (n : ℤ) : roundHalfEven n = n :=
  roundHalfEven_of_near (by simp)

/-- Half way between two integers the even one is taken. -/
theorem roundHalfEven_of_tie {x : ℚ} {n : ℤ} (h : |x - n| = 1 / 2) (heven : Even n) :
    roundHalfEven x = n := by
  rcases (abs_eq (by norm_num : (0 : ℚ) ≤ 1 / 2)).mp h with habove | hbelow
  · have hfloor : ⌊x⌋ = n := Int.floor_eq_iff.mpr ⟨by linarith, by linarith⟩
    rw [roundHalfEven, hfloor, habove, if_neg (lt_irrefl _), if_neg (lt_irrefl _), if_pos heven]
  · have hfloor : ⌊x⌋ = n - 1 :=
      Int.floor_eq_iff.mpr ⟨by push_cast; linarith, by push_cast; linarith⟩
    have hfrac : x - ((n - 1 : ℤ) : ℚ) = 1 / 2 := by push_cast; linarith
    have hodd : ¬ Even (n - 1) := by simpa [Int.even_sub_one] using heven
    rw [roundHalfEven, hfloor, hfrac, if_neg (lt_irrefl _), if_neg (lt_irrefl _), if_neg hodd,
      sub_add_cancel]

theorem roundHalfEven_eq_iff {x : ℚ} {n : ℤ} :
    roundHalfEven x = n ↔ |x - n| < 1 / 2 ∨ |x - n| = 1 / 2 ∧ Even n := by
  constructor
  · rintro rfl
    have hle : |x - roundHalfEven x| ≤ 1 / 2 := by
      rw [abs_sub_comm]
      exact abs_roundHalfEven_sub_le x
    refine hle.lt_or_eq.imp_right fun htie => ⟨htie, ?_⟩
    by_contra hodd
    -- the even neighbour on the other side is a half away as well
    rcases (abs_eq (by norm_num : (0 : ℚ) ≤ 1 / 2)).mp htie with habove | hbelow
    · have hother : roundHalfEven x = roundHalfEven x + 1 := by
        refine roundHalfEven_of_tie ?_ (Int.even_add_one.mpr hodd)
        push_cast
        rw [← sub_sub, habove]
        norm_num
      omega
    · have hother : roundHalfEven x = roundHalfEven x - 1 := by
        refine roundHalfEven_of_tie ?_ (Int.even_sub_one.mpr hodd)
        push_cast
        rw [← sub_add, hbelow]
        norm_num
      omega
  · rintro (hnear | ⟨htie, heven⟩)
    · exact roundHalfEven_of_near hnear
    · exact roundHalfEven_of_tie htie heven

theorem roundHalfEven_neg (x : ℚ) : roundHalfEven (-x) = -roundHalfEven x := by
  have hmirror : |-x - ((-roundHalfEven x : ℤ) : ℚ)| = |x - roundHalfEven x| := by
    rw [Int.cast_neg, neg_sub_neg, abs_sub_comm]
  rw [roundHalfEven_eq_iff, hmirror, even_neg]
  exact roundHalfEven_eq_iff.mp rfl

theorem roundHalfEven_nonneg {x : ℚ} (hx : 0 ≤ x) : 0 ≤ roundHalfEven x := by
  have hround := abs_le.mp (abs_roundHalfEven_sub_le x)
  have hlow : (-1 : ℚ) < roundHalfEven x := by linarith [hround.1]
  have hlow' : -1 < roundHalfEven x := by exact_mod_cast hlow
  omega

/-! ### Binary formats -/

/-- The exponent of the last place of `x` with `p` bits, not below `emin`. -/
def lastPlace (p : ℕ) (emin : ℤ) (x : ℚ) : ℤ := max (Int.log 2 |x| + 1 - p) emin

/-- Half a unit in the last place of `x`. -/
def halfPlace (p : ℕ) (emin : ℤ) (x : ℚ) : ℚ := 2 ^ lastPlace p emin x / 2

/-- The nearest number with `p` bits and a last place not below `2 ^ emin`. -/
def roundBinary (p : ℕ) (emin : ℤ) (x : ℚ) : ℚ :=
  roundHalfEven (x / 2 ^ lastPlace p emin x) * 2 ^ lastPlace p emin x

variable {p : ℕ} {emin : ℤ} {x : ℚ}

theorem abs_roundBinary_sub_le (p : ℕ) (emin : ℤ) (x : ℚ) :
    |roundBinary p emin x - x| ≤ halfPlace p emin x := by
  have hunit : (0 : ℚ) < 2 ^ lastPlace p emin x := by positivity
  have hscaled : roundBinary p emin x - x =
      (roundHalfEven (x / 2 ^ lastPlace p emin x) - x / 2 ^ lastPlace p emin x) *
        2 ^ lastPlace p emin x := by
    rw [roundBinary]
    field_simp
  rw [hscaled, abs_mul, abs_of_pos hunit]
  calc |(roundHalfEven (x / 2 ^ lastPlace p emin x) : ℚ) - x / 2 ^ lastPlace p emin x| *
        2 ^ lastPlace p emin x
      ≤ 1 / 2 * (2 : ℚ) ^ lastPlace p emin x := by
        gcongr
        exact abs_roundHalfEven_sub_le _
    _ = halfPlace p emin x := by
        rw [halfPlace]
        ring

/-- Below `2 ^ k` the last place is at most `k - p`, above the end of the format. -/
theorem lastPlace_le {k : ℤ} (hk : emin ≤ k - p) (hx : |x| < 2 ^ k) (hzero : x ≠ 0) :
    lastPlace p emin x ≤ k - p := by
  have hlog : Int.log 2 |x| < k :=
    (Int.lt_zpow_iff_log_lt (by norm_num) (abs_pos.mpr hzero)).mp (by exact_mod_cast hx)
  exact max_le (by omega) hk

theorem roundBinary_zero (p : ℕ) (emin : ℤ) : roundBinary p emin 0 = 0 := by
  rw [roundBinary, zero_div, ← Int.cast_zero, roundHalfEven_intCast, Int.cast_zero, zero_mul]

/-- A number below `2 ^ k` loses at most half a unit of that size. -/
theorem abs_roundBinary_sub_le_of_lt {k : ℤ} (hk : emin ≤ k - p) (hx : |x| < 2 ^ k) :
    |roundBinary p emin x - x| ≤ 2 ^ (k - p) / 2 := by
  by_cases hzero : x = 0
  · rw [hzero, roundBinary_zero, sub_zero, abs_zero]
    positivity
  · refine (abs_roundBinary_sub_le p emin x).trans ?_
    rw [halfPlace]
    gcongr
    · norm_num
    · exact lastPlace_le hk hx hzero

/-- A multiple of a power of two that is no less than its last place is in the format. -/
theorem roundBinary_of_multiple {m e : ℤ} (h : x = m * 2 ^ e) (he : lastPlace p emin x ≤ e) :
    roundBinary p emin x = x := by
  have hunit : (2 : ℚ) ^ lastPlace p emin x ≠ 0 := by positivity
  have hm : x / 2 ^ lastPlace p emin x = (m * 2 ^ (e - lastPlace p emin x).toNat : ℤ) := by
    have hexp : ((e - lastPlace p emin x).toNat : ℤ) = e - lastPlace p emin x :=
      Int.toNat_of_nonneg (by omega)
    rw [div_eq_iff hunit]
    push_cast
    rw [← zpow_natCast, hexp, mul_assoc, ← zpow_add₀ (by norm_num), sub_add_cancel]
    exact h
  have hx := (div_eq_iff hunit).mp hm
  rw [roundBinary, hm, roundHalfEven_intCast]
  exact hx.symm

theorem abs_lt_of_lastPlace (p : ℕ) (emin : ℤ) (x : ℚ) :
    |x| < 2 ^ (lastPlace p emin x + p) := by
  have hlog : |x| < 2 ^ (Int.log 2 |x| + 1) := by
    exact_mod_cast Int.lt_zpow_succ_log_self (b := 2) (by norm_num) |x|
  have hplace : Int.log 2 |x| + 1 - p ≤ lastPlace p emin x := le_max_left _ _
  exact hlog.trans_le (zpow_le_zpow_right₀ (by norm_num) (by omega))

/-- The digits of a rounded number: `p` bits, or one more where it was rounded up to a power of
    two. -/
theorem abs_digits_le (p : ℕ) (emin : ℤ) (x : ℚ) :
    |roundHalfEven (x / 2 ^ lastPlace p emin x)| ≤ 2 ^ p := by
  have hunit : (0 : ℚ) < 2 ^ lastPlace p emin x := by positivity
  have hquot : |x / 2 ^ lastPlace p emin x| < 2 ^ p := by
    rw [abs_div, abs_of_pos hunit, div_lt_iff₀ hunit, mul_comm, ← zpow_natCast,
      ← zpow_add₀ (by norm_num)]
    exact abs_lt_of_lastPlace p emin x
  generalize x / 2 ^ lastPlace p emin x = y at hquot ⊢
  have hround := abs_le.mp (abs_roundHalfEven_sub_le y)
  have hy := abs_lt.mp hquot
  have hlt : |(roundHalfEven y : ℚ)| < 2 ^ p + 1 := by
    rw [abs_lt]
    constructor <;> linarith [hround.1, hround.2, hy.1, hy.2]
  have hlt' : |roundHalfEven y| < 2 ^ p + 1 := by exact_mod_cast hlt
  omega

/-- What was rounded stays as it is. -/
theorem roundBinary_roundBinary (hp : 0 < p) (emin : ℤ) (x : ℚ) :
    roundBinary p emin (roundBinary p emin x) = roundBinary p emin x := by
  have hle := abs_digits_le p emin x
  have hy : roundBinary p emin x =
      roundHalfEven (x / 2 ^ lastPlace p emin x) * 2 ^ lastPlace p emin x := rfl
  have hemin : emin ≤ lastPlace p emin x := le_max_right _ _
  generalize roundHalfEven (x / 2 ^ lastPlace p emin x) = r at hle hy
  generalize lastPlace p emin x = e at hy hemin
  have hunit : (0 : ℚ) < 2 ^ e := by positivity
  by_cases hzero : roundBinary p emin x = 0
  · rw [hzero, roundBinary_zero]
  rcases hle.lt_or_eq with hlt | htop
  · -- the last place does not move up
    have hcast : |(r : ℚ)| < 2 ^ p := by exact_mod_cast hlt
    have hbelow : |roundBinary p emin x| < 2 ^ (e + p) := by
      rw [hy, abs_mul, abs_of_pos hunit, zpow_add₀ (by norm_num), zpow_natCast, mul_comm]
      gcongr
    have hk : emin ≤ e + p - p := by omega
    have hplace := lastPlace_le hk hbelow hzero
    exact roundBinary_of_multiple hy (by omega)
  · -- rounded up to a power of two: one place up, and half the digits
    obtain ⟨q, rfl⟩ : ∃ q, p = q + 1 := ⟨p - 1, by omega⟩
    have hcast : |(r : ℚ)| = 2 ^ (q + 1) := by exact_mod_cast htop
    have hbelow : |roundBinary (q + 1) emin x| < 2 ^ (e + 1 + (q + 1 : ℕ)) := by
      rw [hy, abs_mul, abs_of_pos hunit, hcast, ← zpow_natCast, ← zpow_add₀ (by norm_num)]
      exact zpow_lt_zpow_right₀ (by norm_num) (by omega)
    have hk : emin ≤ e + 1 + (q + 1 : ℕ) - (q + 1 : ℕ) := by omega
    have hplace := lastPlace_le hk hbelow hzero
    have hdigits : (r : ℚ) = ((r.sign * 2 ^ q : ℤ) : ℚ) * 2 := by
      have hsign : r = r.sign * 2 ^ q * 2 := by
        rw [mul_assoc, ← pow_succ, ← htop, Int.sign_mul_abs]
      exact_mod_cast hsign
    refine roundBinary_of_multiple (m := r.sign * 2 ^ q) (e := e + 1) ?_ (by omega)
    rw [hy, hdigits, zpow_add₀ (by norm_num), zpow_one]
    ring

/-! ### Sums -/

/-- A loop that adds up rounded numbers and rounds every partial sum. -/
def accumulate (fl : ℚ → ℚ) (xs : List ℚ) : ℚ := xs.foldl (fun acc x => fl (acc + fl x)) 0

theorem accumulate_append_singleton (fl : ℚ → ℚ) (xs : List ℚ) (x : ℚ) :
    accumulate fl (xs ++ [x]) = fl (accumulate fl xs + fl x) := by
  rw [accumulate, List.foldl_append]
  rfl

/-- What a loop over `xs` can lose: `w` of each number, and `h` for each partial sum after the
    first. -/
def lossBound (w : ℚ → ℚ) (h : ℚ) (xs : List ℚ) : ℚ :=
  (xs.map w).sum + ((xs.length - 1 : ℕ) : ℚ) * h

theorem lossBound_append_singleton (w : ℚ → ℚ) (h : ℚ) {xs : List ℚ} (hxs : xs ≠ []) (x : ℚ) :
    lossBound w h (xs ++ [x]) = lossBound w h xs + w x + h := by
  obtain ⟨n, hn⟩ :=
    Nat.exists_eq_succ_of_ne_zero (fun hnil => hxs (List.length_eq_zero_iff.mp hnil))
  rw [lossBound, lossBound, List.map_append, List.sum_append, List.map_singleton,
    List.sum_singleton, List.length_append, List.length_singleton, hn, Nat.add_sub_cancel,
    Nat.succ_sub_one]
  push_cast
  ring

variable {fl w : ℚ → ℚ} {h B : ℚ}

/-- A loop over nonnegative numbers that keeps below `B`, where a partial sum loses `h` at most, is
    off by `lossBound`. -/
theorem abs_accumulate_sub_le (hidem : ∀ x, fl (fl x) = fl x) (hw : ∀ x, |fl x - x| ≤ w x)
    (hh : 0 ≤ h) (hsum : ∀ t, |t| < B → |fl t - t| ≤ h) {xs : List ℚ} (hxs : ∀ x ∈ xs, 0 ≤ x)
    (hB : xs.sum + lossBound w h xs < B) :
    |accumulate fl xs - xs.sum| ≤ lossBound w h xs := by
  induction xs using List.reverseRecOn with
  | nil => simp [accumulate, lossBound]
  | append_singleton xs x ih =>
    have hw0 : 0 ≤ w x := (abs_nonneg _).trans (hw x)
    have hx : 0 ≤ x := hxs x (by simp)
    rw [accumulate_append_singleton]
    rw [List.sum_append, List.sum_singleton] at hB ⊢
    by_cases hnil : xs = []
    · -- the first number is rounded once
      subst hnil
      have hfirst : fl (accumulate fl [] + fl x) = fl x := by
        rw [accumulate, List.foldl_nil, zero_add, hidem]
      rw [hfirst]
      simpa [lossBound] using hw x
    · rw [lossBound_append_singleton w h hnil] at hB ⊢
      have hacc := ih (fun y hy => hxs y (by simp [hy])) (by linarith)
      have hnum := hw x
      have hnn : 0 ≤ xs.sum := List.sum_nonneg fun y hy => hxs y (by simp [hy])
      have hpartial : |accumulate fl xs + fl x - (xs.sum + x)| ≤ lossBound w h xs + w x := by
        rw [add_sub_add_comm]
        exact (abs_add_le _ _).trans (add_le_add hacc hnum)
      have hrange : |accumulate fl xs + fl x| < B := by
        obtain ⟨hlow, hhigh⟩ := abs_le.mp hpartial
        rw [abs_lt]
        constructor <;> linarith
      have hlast := hsum _ hrange
      calc |fl (accumulate fl xs + fl x) - (xs.sum + x)|
          = |fl (accumulate fl xs + fl x) - (accumulate fl xs + fl x) +
              (accumulate fl xs + fl x - (xs.sum + x))| := by ring_nf
        _ ≤ h + (lossBound w h xs + w x) := (abs_add_le _ _).trans (add_le_add hlast hpartial)
        _ = lossBound w h xs + w x + h := by ring

end Rounding
