import LeYiDai.Foundation.Values
import LeYiDai.Lib.Rounding
import Mathlib.Data.Nat.Digits.Defs

/-! Decimal numerals and `float`. `decimal?` is the exact number a text stands for; `floatValue` is
    what the code reads from it, a binary number of 24 bits; `format2f` is `%.2f`, which prints the
    nearest hundredth. A sum of floats is printed exactly iff it lands within half a hundredth of
    the exact sum, as prices do whose sum is small enough for what the loop loses. -/

namespace LeYiDai

open Rounding

/-! ### Numerals -/

/-- The number of a sign, digits before the point and digits after it. -/
def decimalValue (neg : Bool) (whole frac : NSString) : ℚ :=
  let q : ℚ := digitsValue (whole ++ frac) / 10 ^ frac.length
  if neg then -q else q

/-- A numeral at the front of a text. -/
structure Numeral where
  neg : Bool
  whole : NSString
  frac : NSString
  rest : NSString

def scanNumeral (s : NSString) : Numeral :=
  let (neg, s) := takeSign s
  match s.dropWhile isDigit with
  | 46 :: t =>
    { neg, whole := s.takeWhile isDigit, frac := t.takeWhile isDigit, rest := t.dropWhile isDigit }
  | t => { neg, whole := s.takeWhile isDigit, frac := [], rest := t }

/-- The number a text stands for, when all of it is a numeral. -/
def decimal? (s : NSString) : Option ℚ :=
  let n := scanNumeral s
  if n.rest = [] ∧ n.whole ++ n.frac ≠ [] then some (decimalValue n.neg n.whole n.frac) else none

/-- The power of ten behind a numeral. -/
def exponentValue : NSString → ℤ
  | 101 :: s | 69 :: s =>
    let (neg, s) := takeSign s
    let n : ℤ := digitsValue (s.takeWhile isDigit)
    if neg then -n else n
  | _ => 0

/-- The number at the front of a text, after blanks; zero when there is none. -/
def scanDouble (s : NSString) : ℚ :=
  let n := scanNumeral (s.dropWhile isBlank)
  if n.whole ++ n.frac = [] then 0
  else decimalValue n.neg n.whole n.frac * 10 ^ exponentValue n.rest

/-! ### float -/

/-- The values of `float`. -/
inductive Single where
  | fin (q : ℚ)
  | inf (neg : Bool)
  | nan
  deriving DecidableEq

/-- The nearest `float`. -/
def single (q : ℚ) : Single :=
  let r := roundBinary 24 (-149) q
  if |r| < 2 ^ 128 then .fin r else .inf (q < 0)

/-- The sum of two floats. -/
def Single.add : Single → Single → Single
  | .fin a, .fin b => single (a + b)
  | .inf s, .inf t => if s = t then .inf s else .nan
  | .nan, _ | _, .nan => .nan
  | .inf s, .fin _ | .fin _, .inf s => .inf s

/-- `floatValue`. -/
def floatValue (s : NSString) : Single := single (scanDouble s)

/-! ### Printing -/

def digitChar (d : ℕ) : unichar := UInt16.ofNat (48 + d)

/-- The decimal digits of a number. -/
def natDigits (n : ℕ) : NSString :=
  if n = 0 then [48] else (Nat.digits 10 n).reverse.map digitChar

/-- A number of hundredths with its point. -/
def centsText (c : ℕ) : NSString :=
  natDigits (c / 100) ++ 46 :: [digitChar (c / 10 % 10), digitChar (c % 10)]

/-- `%.2f`. -/
def format2f : Single → NSString
  | .fin q => (if q < 0 then [45] else []) ++ centsText (roundHalfEven (|q| * 100)).toNat
  | .inf neg => (if neg then [45] else []) ++ ns "inf"
  | .nan => ns "nan"

/-! ### Reading a numeral -/

theorem takeSign_of_digit {u : unichar} (hu : isDigit u = true) (s : NSString) :
    takeSign (u :: s) = (false, u :: s) := by
  unfold takeSign
  split
  · rename_i heq
    cases heq
    cases hu
  · rename_i heq
    cases heq
    cases hu
  · rfl

/-- A text that starts with a blank is no numeral. -/
theorem decimal?_blank {u : unichar} (hu : isBlank u = true) (s : NSString) :
    decimal? (u :: s) = none := by
  have hcases : u = 32 ∨ u = 9 ∨ u = 10 ∨ u = 11 ∨ u = 12 ∨ u = 13 := by
    simp only [isBlank, Bool.or_eq_true, Bool.and_eq_true, decide_eq_true_eq,
      UInt16.le_iff_toNat_le, ← UInt16.toNat_inj] at hu ⊢
    simp at hu ⊢
    omega
  rcases hcases with rfl | rfl | rfl | rfl | rfl | rfl <;> rfl

/-- The code reads a numeral as the number it stands for. -/
theorem scanDouble_of_decimal? {s : NSString} {q : ℚ} (h : decimal? s = some q) :
    scanDouble s = q := by
  have hblank : s.dropWhile isBlank = s := by
    cases s with
    | nil => rfl
    | cons u s =>
      by_cases hu : isBlank u = true
      · rw [decimal?_blank hu] at h
        cases h
      · exact List.dropWhile_cons_of_neg hu
  simp only [decimal?] at h
  split_ifs at h with hn
  cases h
  rw [scanDouble, hblank]
  simp [hn.1, hn.2, exponentValue]

/-! ### Reading what was printed -/

theorem toNat_digitChar {d : ℕ} (hd : d < 10) : (digitChar d).toNat = 48 + d := by
  rw [digitChar, UInt16.toNat_ofNat']
  omega

theorem isDigit_digitChar {d : ℕ} (hd : d < 10) : isDigit (digitChar d) = true := by
  have h := toNat_digitChar hd
  simp only [isDigit, Bool.and_eq_true, decide_eq_true_eq, UInt16.le_iff_toNat_le, h]
  simp
  omega

theorem digitsValue_append_digit (ds : NSString) {d : ℕ} (hd : d < 10) :
    digitsValue (ds ++ [digitChar d]) = 10 * digitsValue ds + d := by
  rw [digitsValue, List.foldl_append, List.foldl_cons, List.foldl_nil, toNat_digitChar hd]
  simp [digitsValue]

theorem digitsValue_natDigits (n : ℕ) : digitsValue (natDigits n) = n := by
  by_cases hn : n = 0
  · subst hn
    rfl
  rw [natDigits, if_neg hn]
  conv_rhs => rw [← Nat.ofDigits_digits 10 n]
  have hlt : ∀ d ∈ Nat.digits 10 n, d < 10 := fun d => Nat.digits_lt_base (by norm_num)
  generalize Nat.digits 10 n = ds at hlt
  induction ds with
  | nil => rfl
  | cons d ds ih =>
    rw [List.reverse_cons, List.map_append, List.map_singleton,
      digitsValue_append_digit _ (hlt d (by simp)), ih fun e he => hlt e (by simp [he]),
      Nat.ofDigits_cons]
    ring

theorem natDigits_all (n : ℕ) : ∀ u ∈ natDigits n, isDigit u = true := by
  unfold natDigits
  split_ifs
  · intro u hu
    obtain rfl := List.mem_singleton.mp hu
    rfl
  · intro u hu
    obtain ⟨d, hd, rfl⟩ := List.mem_map.mp hu
    exact isDigit_digitChar (Nat.digits_lt_base (by norm_num) (List.mem_reverse.mp hd))

theorem natDigits_ne_nil (n : ℕ) : natDigits n ≠ [] := by
  unfold natDigits
  split_ifs with hn
  · simp
  · simpa [Nat.digits_eq_nil_iff_eq_zero] using hn

theorem takeSign_natDigits (n : ℕ) (s : NSString) :
    takeSign (natDigits n ++ s) = (false, natDigits n ++ s) := by
  obtain ⟨u, ds, hds⟩ := List.exists_cons_of_ne_nil (natDigits_ne_nil n)
  rw [hds, List.cons_append]
  exact takeSign_of_digit (natDigits_all n u (by simp [hds])) _

theorem scanNumeral_centsText (c : ℕ) : scanNumeral (centsText c) =
    { neg := false
      whole := natDigits (c / 100)
      frac := [digitChar (c / 10 % 10), digitChar (c % 10)]
      rest := [] } := by
  have hpoint : isDigit 46 = false := by decide
  have htens := isDigit_digitChar (Nat.mod_lt (c / 10) (by norm_num : 0 < 10))
  have hones := isDigit_digitChar (Nat.mod_lt c (by norm_num : 0 < 10))
  rw [scanNumeral, centsText, takeSign_natDigits]
  simp only [List.takeWhile_append_of_pos (natDigits_all _),
    List.dropWhile_append_of_pos (natDigits_all _)]
  simp [hpoint, htens, hones]

/-- A minus sign in front of a text without a sign. -/
theorem scanNumeral_minus {s : NSString} (hs : takeSign s = (false, s)) :
    scanNumeral (45 :: s) = { scanNumeral s with neg := true } := by
  rw [scanNumeral, scanNumeral, hs]
  simp only [takeSign]
  split <;> rfl

theorem digitsValue_cents (c : ℕ) :
    digitsValue (natDigits (c / 100) ++ [digitChar (c / 10 % 10), digitChar (c % 10)]) = c := by
  rw [List.append_cons, digitsValue_append_digit _ (Nat.mod_lt _ (by norm_num)),
    digitsValue_append_digit _ (Nat.mod_lt _ (by norm_num)), digitsValue_natDigits]
  omega

/-- A printed number of hundredths reads as that number. -/
theorem decimal?_centsText (c : ℕ) : decimal? (centsText c) = some (c / 100 : ℚ) := by
  rw [decimal?, scanNumeral_centsText]
  simp [decimalValue, digitsValue_cents]
  norm_num

theorem decimal?_minus_centsText (c : ℕ) :
    decimal? (45 :: centsText c) = some (-(c / 100) : ℚ) := by
  have hsign : takeSign (centsText c) = (false, centsText c) := takeSign_natDigits _ _
  rw [decimal?, scanNumeral_minus hsign, scanNumeral_centsText]
  simp [decimalValue, digitsValue_cents]
  norm_num

/-- `%.2f` prints the nearest hundredth, the even one of two. -/
theorem decimal?_format2f_fin (q : ℚ) :
    decimal? (format2f (.fin q)) = some (roundHalfEven (q * 100) / 100 : ℚ) := by
  have hnn : 0 ≤ roundHalfEven (|q| * 100) := roundHalfEven_nonneg (by positivity)
  have hcast : ((roundHalfEven (|q| * 100)).toNat : ℚ) = roundHalfEven (|q| * 100) := by
    exact_mod_cast Int.toNat_of_nonneg hnn
  rw [format2f]
  split_ifs with hneg
  · rw [List.singleton_append, decimal?_minus_centsText, hcast, abs_of_neg hneg, neg_mul,
      roundHalfEven_neg]
    push_cast
    congr 1
    ring
  · rw [List.nil_append, decimal?_centsText, hcast, abs_of_nonneg (not_lt.mp hneg)]

/-- The float is finite and lies within half a hundredth of the number, a whole number of
    hundredths; half a hundredth off, that number is even. -/
def Lands (v : Single) (x : ℚ) : Prop :=
  ∃ (q : ℚ) (c : ℤ), v = .fin q ∧ x = c / 100 ∧ (|q - x| < 1 / 200 ∨ |q - x| = 1 / 200 ∧ Even c)

/-- A float is printed as the number exactly where it lands on it. -/
theorem decimal?_format2f_iff {v : Single} {x : ℚ} :
    decimal? (format2f v) = some x ↔ Lands v x := by
  cases v with
  | fin q =>
    have hscale : ∀ c : ℤ, |q * 100 - c| = 100 * |q - c / 100| := by
      intro c
      have hfactor : q * 100 - c = 100 * (q - c / 100) := by ring
      rw [hfactor, abs_mul, abs_of_pos (by norm_num)]
    have hround : ∀ c : ℤ, roundHalfEven (q * 100) = c ↔
        |q - c / 100| < 1 / 200 ∨ |q - c / 100| = 1 / 200 ∧ Even c := by
      intro c
      rw [roundHalfEven_eq_iff, hscale]
      refine or_congr ⟨fun h => by linarith, fun h => by linarith⟩ (and_congr_left' ?_)
      exact ⟨fun h => by linarith, fun h => by linarith⟩
    rw [decimal?_format2f_fin, Option.some.injEq]
    constructor
    · rintro rfl
      exact ⟨q, _, rfl, rfl, (hround _).mp rfl⟩
    · rintro ⟨q', c, hq, rfl, hnear⟩
      cases hq
      rw [(hround c).mpr hnear]
  | inf neg =>
    have hnone : decimal? (format2f (.inf neg)) = none := by cases neg <;> decide +kernel
    rw [hnone]
    exact iff_of_false nofun (by rintro ⟨q, c, hq, -⟩; cases hq)
  | nan =>
    have hnone : decimal? (format2f .nan) = none := by decide +kernel
    rw [hnone]
    exact iff_of_false nofun (by rintro ⟨q, c, hq, -⟩; cases hq)

/-! ### Sums of floats -/

/-- The loop that adds up the `floatValue`s of some texts. -/
def addFloats (ts : List NSString) : Single :=
  ts.foldl (fun acc t => acc.add (floatValue t)) (.fin 0)

/-- The number a text stands for, one that is no numeral counting as zero. -/
def amount (t : NSString) : ℚ := (decimal? t).getD 0

/-- The exact sum of some texts. -/
def exactSum (ts : List NSString) : ℚ := (ts.map amount).sum

/-- The text stands for a whole number of hundredths, not negative. -/
def Priced (t : NSString) : Prop := ∃ c : ℕ, decimal? t = some (c / 100 : ℚ)

/-- What the loop can lose while its sums keep below `2 ^ k`: half a unit in the last place of each
    amount, and half a unit of a number below `2 ^ k` for each addition after the first. -/
def floatLoss (k : ℕ) (ts : List NSString) : ℚ :=
  lossBound (halfPlace 24 (-149)) (2 ^ k / 2 ^ 25) (ts.map amount)

/-- Prices with a sum below a power of two, `131072` at most, under which the loop loses less than
    half a hundredth. -/
structure Summable (ts : List NSString) : Prop where
  priced : ∀ t ∈ ts, Priced t
  small : ∃ k ≤ 17, exactSum ts + 1 / 200 ≤ 2 ^ k ∧ floatLoss k ts < 1 / 200

theorem Priced.nonneg {t : NSString} (h : Priced t) : 0 ≤ amount t := by
  obtain ⟨c, hc⟩ := h
  rw [amount, hc]
  exact div_nonneg (Nat.cast_nonneg c) (by norm_num)

theorem exactSum_append (ts : List NSString) (t : NSString) :
    exactSum (ts ++ [t]) = exactSum ts + amount t := by
  simp [exactSum]

theorem exactSum_perm {ts ts' : List NSString} (h : ts.Perm ts') : exactSum ts = exactSum ts' :=
  (h.map _).sum_eq

theorem exactSum_nonneg {ts : List NSString} (h : ∀ t ∈ ts, Priced t) : 0 ≤ exactSum ts := by
  refine List.sum_nonneg fun x hx => ?_
  obtain ⟨t, ht, rfl⟩ := List.mem_map.mp hx
  exact (h t ht).nonneg

/-- The sum of prices is a price. -/
theorem exists_cents {ts : List NSString} (h : ∀ t ∈ ts, Priced t) :
    ∃ c : ℕ, exactSum ts = c / 100 := by
  induction ts using List.reverseRecOn with
  | nil => exact ⟨0, by simp [exactSum]⟩
  | append_singleton ts t ih =>
    obtain ⟨c, hc⟩ := ih fun t' ht' => h t' (by simp [ht'])
    obtain ⟨d, hd⟩ := h t (by simp)
    refine ⟨c + d, ?_⟩
    rw [exactSum_append, hc, amount, hd, Option.getD_some]
    push_cast
    ring

/-- The loss of a shorter loop is no more. -/
theorem floatLoss_init (k : ℕ) (ts : List NSString) (t : NSString) :
    floatLoss k ts ≤ floatLoss k (ts ++ [t]) := by
  by_cases hnil : ts = []
  · subst hnil
    have hhalf : (0 : ℚ) ≤ halfPlace 24 (-149) (amount t) := by
      rw [halfPlace]
      positivity
    simpa [floatLoss, lossBound] using hhalf
  · have hhalf : (0 : ℚ) ≤ halfPlace 24 (-149) (amount t) := by
      rw [halfPlace]
      positivity
    have hsum : (0 : ℚ) ≤ 2 ^ k / 2 ^ 25 := by positivity
    rw [floatLoss, floatLoss, List.map_append, List.map_singleton,
      lossBound_append_singleton _ _ (by simpa using hnil)]
    linarith

namespace Summable

variable {ts : List NSString}

theorem perm {ts' : List NSString} (h : ts.Perm ts') (hs : Summable ts) : Summable ts' where
  priced t ht := hs.priced t (h.mem_iff.mpr ht)
  small := by
    obtain ⟨k, hk, hsum, hloss⟩ := hs.small
    refine ⟨k, hk, exactSum_perm h ▸ hsum, ?_⟩
    have hsame : floatLoss k ts = floatLoss k ts' := by
      rw [floatLoss, floatLoss, lossBound, lossBound, ((h.map amount).map _).sum_eq,
        (h.map amount).length_eq]
    exact hsame ▸ hloss

theorem init {t : NSString} (h : Summable (ts ++ [t])) : Summable ts := by
  obtain ⟨k, hk, hsum, hloss⟩ := h.small
  have hlast : 0 ≤ amount t := (h.priced t (by simp)).nonneg
  rw [exactSum_append] at hsum
  exact ⟨fun t' ht' => h.priced t' (by simp [ht']), k, hk, by linarith,
    (floatLoss_init k ts t).trans_lt hloss⟩

/-- A sum the code deals with is below `2 ^ 17`. -/
theorem exactSum_lt (h : Summable ts) : exactSum ts < 2 ^ 17 := by
  obtain ⟨k, hk, hsum, -⟩ := h.small
  have hpow : (2 : ℚ) ^ k ≤ 2 ^ 17 := pow_le_pow_right₀ (by norm_num) hk
  linarith

/-- The error of the loop. -/
theorem abs_accumulate_sub_lt (h : Summable ts) :
    |accumulate (roundBinary 24 (-149)) (ts.map amount) - exactSum ts| < 1 / 200 := by
  obtain ⟨k, hk, hsum, hloss⟩ := h.small
  refine lt_of_le_of_lt ?_ hloss
  refine abs_accumulate_sub_le (B := 2 ^ k) (fun x => roundBinary_roundBinary (by norm_num) _ x)
    (fun x => abs_roundBinary_sub_le 24 (-149) x) (by positivity) ?_ ?_ ?_
  · intro t ht
    have hk' : (-149 : ℤ) ≤ (k : ℤ) - (24 : ℕ) := by push_cast; omega
    have hround := abs_roundBinary_sub_le_of_lt hk' (by exact_mod_cast ht)
    refine hround.trans (le_of_eq ?_)
    rw [zpow_sub₀ (by norm_num), zpow_natCast, zpow_natCast]
    ring
  · intro x hx
    obtain ⟨t, ht, rfl⟩ := List.mem_map.mp hx
    exact (h.priced t ht).nonneg
  · change exactSum ts + floatLoss k ts < 2 ^ k
    linarith

end Summable

theorem single_eq_fin {q : ℚ} (h : |roundBinary 24 (-149) q| < 2 ^ 128) :
    single q = .fin (roundBinary 24 (-149) q) := if_pos h

theorem floatValue_of_priced {t : NSString} (ht : Priced t) (hlt : amount t < 2 ^ 17) :
    floatValue t = .fin (roundBinary 24 (-149) (amount t)) := by
  have hscan : scanDouble t = amount t := by
    obtain ⟨c, hc⟩ := ht
    rw [amount, hc, scanDouble_of_decimal? hc, Option.getD_some]
  have hnn := ht.nonneg
  have hround := abs_le.mp (abs_roundBinary_sub_le_of_lt (p := 24) (k := 17)
    (by norm_num : (-149 : ℤ) ≤ _) (by rwa [abs_of_nonneg hnn]))
  rw [floatValue, hscan]
  refine single_eq_fin (abs_lt.mpr ?_)
  norm_num at hround hlt ⊢
  constructor <;> linarith [hround.1, hround.2]

/-- Within these bounds nothing overflows, and the loop is the rounding loop on exact numbers. -/
theorem addFloats_eq {ts : List NSString} (h : Summable ts) :
    addFloats ts = .fin (accumulate (roundBinary 24 (-149)) (ts.map amount)) := by
  induction ts using List.reverseRecOn with
  | nil => rfl
  | append_singleton ts t ih =>
    have hinit := h.init
    have hwhole := h.exactSum_lt
    have hsplit : accumulate (roundBinary 24 (-149)) ((ts ++ [t]).map amount) =
        roundBinary 24 (-149) (accumulate (roundBinary 24 (-149)) (ts.map amount) +
          roundBinary 24 (-149) (amount t)) := by
      rw [List.map_append, List.map_singleton, accumulate_append_singleton]
    have herr := abs_lt.mp h.abs_accumulate_sub_lt
    have hnn := exactSum_nonneg h.priced
    have hlt : amount t < 2 ^ 17 := by
      rw [exactSum_append] at hwhole
      linarith [exactSum_nonneg hinit.priced]
    rw [addFloats, List.foldl_append]
    change (addFloats ts).add (floatValue t) = _
    rw [ih hinit, floatValue_of_priced (h.priced t (by simp)) hlt, Single.add, hsplit]
    refine single_eq_fin ?_
    rw [← hsplit, abs_lt]
    constructor <;> linarith [herr.1, herr.2]

/-- Within these bounds the float sum lands on the exact sum. -/
theorem Summable.lands {ts : List NSString} (h : Summable ts) :
    Lands (addFloats ts) (exactSum ts) := by
  obtain ⟨c, hc⟩ := exists_cents h.priced
  exact ⟨_, c, addFloats_eq h, by rw [hc, Int.cast_natCast], .inl h.abs_accumulate_sub_lt⟩

example : format2f (addFloats [ns "512.30", ns "87.7"]) = ns "600.00" := by decide +kernel

end LeYiDai
