import Mathlib.Data.Option.Basic
import Mathlib.Tactic.Common

/-! Bytes as characters of an alphabet of sixty-four, six bits to a character. Three bytes make four
    characters; one or two bytes at the end are filled up with padding. `decode_encode` says that
    decoding gives back the bytes.

        b₀ b₁ b₂ ──▶ b₀ · 2¹⁶ + b₁ · 2⁸ + b₂ ──▶ s₀ s₁ s₂ s₃ -/

/-- Sixty-four characters with their values, and one more for padding. -/
structure Alphabet (γ : Type*) where
  char : Fin 64 → γ
  pad : γ
  value : γ → Option (Fin 64)
  value_char : ∀ i, value (char i) = some i
  value_pad : value pad = none

namespace Base64

variable {γ : Type*}

/-- Three bytes as one number. -/
def group (a b c : UInt8) : ℕ := a.toNat * 65536 + b.toNat * 256 + c.toNat

/-- The last six bits. -/
def low (n : ℕ) : Fin 64 := Fin.ofNat 64 n

/-- The sextets of a number of 24 bits, from the left. -/
def sextet (n : ℕ) : Fin 4 → Fin 64
  | 0 => low (n / 262144)
  | 1 => low (n / 4096)
  | 2 => low (n / 64)
  | 3 => low n

def encode (A : Alphabet γ) : List UInt8 → List γ
  | [] => []
  | [a] =>
    let n := group a 0 0
    [A.char (sextet n 0), A.char (sextet n 1), A.pad, A.pad]
  | [a, b] =>
    let n := group a b 0
    [A.char (sextet n 0), A.char (sextet n 1), A.char (sextet n 2), A.pad]
  | a :: b :: c :: rest =>
    let n := group a b c
    A.char (sextet n 0) :: A.char (sextet n 1) :: A.char (sextet n 2) :: A.char (sextet n 3) ::
      encode A rest

/-- Four sextets as one number. -/
def number (w x y z : Fin 64) : ℕ :=
  w.val * 262144 + x.val * 4096 + y.val * 64 + z.val

/-- The bytes of a number of 24 bits, from the left. -/
def byte (n : ℕ) : Fin 3 → UInt8
  | 0 => UInt8.ofNat (n / 65536)
  | 1 => UInt8.ofNat (n / 256)
  | 2 => UInt8.ofNat n

/-- The bytes of the last group, which has the given number of them; the others are zero. -/
def lastBytes (n : ℕ) : Fin 3 → Option (List UInt8)
  | 0 => none
  | 1 => if byte n 1 = 0 then some [byte n 0] else none
  | 2 => if byte n 2 = 0 then some [byte n 0, byte n 1] else none

/-- Characters in groups of four, `none` for anything else. Padding stands at the end, in place of
    the last character or the last two. -/
def decode [DecidableEq γ] (A : Alphabet γ) : List γ → Option (List UInt8)
  | [] => some []
  | w :: x :: y :: z :: rest =>
    (A.value w).bind fun w => (A.value x).bind fun x =>
      match A.value y, A.value z with
      | some y, some z =>
        let n := number w x y z
        (decode A rest).map ([byte n 0, byte n 1, byte n 2] ++ ·)
      | some y, none => if z = A.pad ∧ rest = [] then lastBytes (number w x y 0) 2 else none
      | none, _ =>
        if y = A.pad ∧ z = A.pad ∧ rest = [] then lastBytes (number w x 0 0) 1 else none
  | _ => none

/-- The sextets of three bytes make their number again. -/
theorem number_sextet (a b c : UInt8) :
    number (sextet (group a b c) 0) (sextet (group a b c) 1) (sextet (group a b c) 2)
      (sextet (group a b c) 3) = group a b c := by
  have ha := a.toNat_lt
  have hb := b.toNat_lt
  have hc := c.toNat_lt
  simp only [number, sextet, low, group, Fin.ofNat]
  omega

theorem byte_group (a b c : UInt8) :
    byte (group a b c) 0 = a ∧ byte (group a b c) 1 = b ∧ byte (group a b c) 2 = c := by
  have ha := a.toNat_lt
  have hb := b.toNat_lt
  have hc := c.toNat_lt
  refine ⟨?_, ?_, ?_⟩ <;> refine UInt8.toNat_inj.mp ?_ <;>
    simp only [byte, group, UInt8.toNat_ofNat'] <;> omega

/-- Zero bytes at the end leave zero sextets. -/
theorem sextet_group_zero (a b : UInt8) :
    sextet (group a b 0) 3 = 0 ∧ sextet (group a 0 0) 2 = 0 := by
  have ha := a.toNat_lt
  have hb := b.toNat_lt
  have hzero : (0 : UInt8).toNat = 0 := rfl
  constructor <;> refine Fin.ext ?_ <;> simp only [sextet, low, group, Fin.ofNat, hzero] <;>
    simp <;> omega

theorem lastBytes_one (a : UInt8) :
    lastBytes (number (sextet (group a 0 0) 0) (sextet (group a 0 0) 1) 0 0) 1 = some [a] := by
  have hn := number_sextet a 0 0
  rw [(sextet_group_zero a 0).1, (sextet_group_zero a 0).2] at hn
  obtain ⟨h0, h1, -⟩ := byte_group a 0 0
  rw [hn, lastBytes, if_pos h1, h0]

theorem lastBytes_two (a b : UInt8) :
    lastBytes
        (number (sextet (group a b 0) 0) (sextet (group a b 0) 1) (sextet (group a b 0) 2) 0) 2 =
      some [a, b] := by
  have hn := number_sextet a b 0
  rw [(sextet_group_zero a b).1] at hn
  obtain ⟨h0, h1, h2⟩ := byte_group a b 0
  rw [hn, lastBytes, if_pos h2, h0, h1]

theorem decode_two_pads [DecidableEq γ] (A : Alphabet γ) (w x : Fin 64) :
    decode A [A.char w, A.char x, A.pad, A.pad] = lastBytes (number w x 0 0) 1 := by
  rw [decode, A.value_char, A.value_char, Option.bind_some, Option.bind_some]
  split
  · next h _ =>
    rw [A.value_pad] at h
    cases h
  · next h _ =>
    rw [A.value_pad] at h
    cases h
  · exact if_pos ⟨rfl, rfl, rfl⟩

theorem decode_one_pad [DecidableEq γ] (A : Alphabet γ) (w x y : Fin 64) :
    decode A [A.char w, A.char x, A.char y, A.pad] = lastBytes (number w x y 0) 2 := by
  rw [decode, A.value_char, A.value_char, Option.bind_some, Option.bind_some]
  split
  · next h =>
    rw [A.value_pad] at h
    cases h
  · next y' hy _ =>
    rw [A.value_char] at hy
    cases hy
    exact if_pos ⟨rfl, rfl⟩
  · next h =>
    rw [A.value_char] at h
    cases h

theorem decode_encode [DecidableEq γ] (A : Alphabet γ) (bs : List UInt8) :
    decode A (encode A bs) = some bs := by
  induction bs using encode.induct with
  | case1 => rfl
  | case2 a => rw [encode, decode_two_pads, lastBytes_one]
  | case3 a b => rw [encode, decode_one_pad, lastBytes_two]
  | case4 a b c rest ih =>
    obtain ⟨h0, h1, h2⟩ := byte_group a b c
    simp only [encode, decode, A.value_char, Option.bind_some, number_sextet, h0, h1, h2, ih]
    rfl

end Base64
