import LeYiDai.Foundation.Values
import LeYiDai.Lib.Base64
import Mathlib.Data.Char

/-! The bytes of a string. UTF-8 has bytes for every character but none for a surrogate that stands
    alone, so `dataUsingEncoding:` answers nil on a string that is not a sequence of characters. -/

namespace LeYiDai

def isHighSurrogate (u : unichar) : Bool := 0xD800 ≤ u.toNat && u.toNat < 0xDC00

def isLowSurrogate (u : unichar) : Bool := 0xDC00 ≤ u.toNat && u.toNat < 0xE000

/-- The character that a surrogate pair stands for. -/
def pairCharacter (u v : unichar) : Char :=
  Char.ofNat (0x10000 + (u.toNat - 0xD800) * 0x400 + (v.toNat - 0xDC00))

/-- The characters of a string, `none` when a surrogate stands alone. -/
def characters : NSString → Option (List Char)
  | [] => some []
  | [u] => if isHighSurrogate u || isLowSurrogate u then none else some [Char.ofNat u.toNat]
  | u :: v :: rest =>
    if isHighSurrogate u && isLowSurrogate v then
      (characters rest).map (pairCharacter u v :: ·)
    else if isHighSurrogate u || isLowSurrogate u then none
    else (characters (v :: rest)).map (Char.ofNat u.toNat :: ·)

/-- The UTF-8 bytes of characters. -/
def utf8 (cs : List Char) : List UInt8 := cs.flatMap String.utf8EncodeChar

/-- `dataUsingEncoding:NSUTF8StringEncoding`. -/
def dataUsingEncoding (s : NSString) : Option (List UInt8) := (characters s).map utf8

/-- `initWithData:encoding:` with `NSUTF8StringEncoding`. -/
def stringWithData (d : List UInt8) : Option NSString :=
  d.toByteArray.utf8Decode?.map fun cs => cs.toList.flatMap utf16

variable {s t : NSString} {cs ds : List Char} {u v : unichar} {c : Char}

/-! ### Characters and units -/

theorem toNat_ofNat {n : ℕ} (h : n < 0xD800 ∨ 0xDFFF < n ∧ n < 0x110000) :
    (Char.ofNat n).toNat = n := by
  have hvalid : n.isValidChar := h
  rw [Char.ofNat, dif_pos hvalid]
  rfl

theorem toNat_pairCharacter (hu : isHighSurrogate u = true) (hv : isLowSurrogate v = true) :
    (pairCharacter u v).toNat = 0x10000 + (u.toNat - 0xD800) * 0x400 + (v.toNat - 0xDC00) := by
  simp only [isHighSurrogate, isLowSurrogate, Bool.and_eq_true, decide_eq_true_eq] at hu hv
  exact toNat_ofNat (by omega)

theorem utf16_pairCharacter (hu : isHighSurrogate u = true) (hv : isLowSurrogate v = true) :
    utf16 (pairCharacter u v) = [u, v] := by
  have hnat := toNat_pairCharacter hu hv
  simp only [isHighSurrogate, isLowSurrogate, Bool.and_eq_true, decide_eq_true_eq] at hu hv
  rw [utf16, if_neg (by omega), hnat]
  have hhigh : 0xD800 + (0x10000 + (u.toNat - 0xD800) * 0x400 + (v.toNat - 0xDC00) - 0x10000) /
      0x400 = u.toNat := by omega
  have hlow : 0xDC00 + (0x10000 + (u.toNat - 0xD800) * 0x400 + (v.toNat - 0xDC00) - 0x10000) %
      0x400 = v.toNat := by omega
  simp only [hhigh, hlow, UInt16.ofNat_toNat]

theorem utf16_single (h : (isHighSurrogate u || isLowSurrogate u) = false) :
    utf16 (Char.ofNat u.toNat) = [u] := by
  have hlt := u.toNat_lt
  simp only [isHighSurrogate, isLowSurrogate, Bool.or_eq_false_iff, Bool.and_eq_false_iff,
    decide_eq_false_iff_not] at h
  rw [utf16, toNat_ofNat (by omega), if_pos hlt, UInt16.ofNat_toNat]

/-- The characters of a string spell it. -/
theorem flatMap_utf16_of_characters (h : characters s = some cs) : cs.flatMap utf16 = s := by
  induction s using characters.induct generalizing cs with
  | case1 =>
    cases h
    rfl
  | case2 u hsur =>
    rw [characters, if_pos hsur] at h
    cases h
  | case3 u hsur =>
    rw [characters, if_neg hsur] at h
    cases h
    rw [List.flatMap_singleton, utf16_single (by simpa using hsur)]
  | case4 u v rest hpair ih =>
    rw [characters, if_pos hpair] at h
    obtain ⟨ds, hds, rfl⟩ := Option.map_eq_some_iff.mp h
    rw [Bool.and_eq_true] at hpair
    rw [List.flatMap_cons, utf16_pairCharacter hpair.1 hpair.2, ih hds]
    rfl
  | case5 u v rest hpair hsur =>
    rw [characters, if_neg hpair, if_pos hsur] at h
    cases h
  | case6 u v rest hpair hsur ih =>
    rw [characters, if_neg hpair, if_neg hsur] at h
    obtain ⟨ds, hds, rfl⟩ := Option.map_eq_some_iff.mp h
    rw [List.flatMap_cons, utf16_single (by simpa using hsur), ih hds]
    rfl

theorem characters_single_cons (h : (isHighSurrogate u || isLowSurrogate u) = false)
    (s : NSString) : characters (u :: s) = (characters s).map (Char.ofNat u.toNat :: ·) := by
  have hhigh : isHighSurrogate u = false := (Bool.or_eq_false_iff.mp h).1
  cases s with
  | nil => simp [characters, h]
  | cons v s => rw [characters, if_neg (by simp [hhigh]), if_neg (by simp [h])]

theorem characters_utf16_append (c : Char) (s : NSString) :
    characters (utf16 c ++ s) = (characters s).map (c :: ·) := by
  have hvalid : c.toNat < 0xD800 ∨ 0xDFFF < c.toNat ∧ c.toNat < 0x110000 := c.valid
  rw [utf16]
  split_ifs with hsmall
  · have hnat : (UInt16.ofNat c.toNat).toNat = c.toNat := UInt16.toNat_ofNat_of_lt' hsmall
    have hsingle : (isHighSurrogate (UInt16.ofNat c.toNat) ||
        isLowSurrogate (UInt16.ofNat c.toNat)) = false := by
      simp only [isHighSurrogate, isLowSurrogate, hnat, Bool.or_eq_false_iff, Bool.and_eq_false_iff,
        decide_eq_false_iff_not]
      omega
    rw [List.singleton_append, characters_single_cons hsingle, hnat, Char.ofNat_toNat]
  · have hhigh : (UInt16.ofNat (0xD800 + (c.toNat - 0x10000) / 0x400)).toNat =
        0xD800 + (c.toNat - 0x10000) / 0x400 :=
      UInt16.toNat_ofNat_of_lt' (by change _ < 65536; omega)
    have hlow : (UInt16.ofNat (0xDC00 + (c.toNat - 0x10000) % 0x400)).toNat =
        0xDC00 + (c.toNat - 0x10000) % 0x400 :=
      UInt16.toNat_ofNat_of_lt' (by change _ < 65536; omega)
    have hpair : (isHighSurrogate (UInt16.ofNat (0xD800 + (c.toNat - 0x10000) / 0x400)) &&
        isLowSurrogate (UInt16.ofNat (0xDC00 + (c.toNat - 0x10000) % 0x400))) = true := by
      simp only [isHighSurrogate, isLowSurrogate, hhigh, hlow, Bool.and_eq_true, decide_eq_true_eq]
      omega
    have hchar : 0x10000 + (0xD800 + (c.toNat - 0x10000) / 0x400 - 0xD800) * 0x400 +
        (0xDC00 + (c.toNat - 0x10000) % 0x400 - 0xDC00) = c.toNat := by omega
    simp only [List.cons_append, List.nil_append]
    rw [characters, if_pos hpair, pairCharacter, hhigh, hlow, hchar, Char.ofNat_toNat]

/-- A string is a sequence of characters exactly when it is spelled by them. -/
theorem characters_eq_some_iff : characters s = some cs ↔ cs.flatMap utf16 = s := by
  constructor
  · exact flatMap_utf16_of_characters
  · rintro rfl
    induction cs with
    | nil => rfl
    | cons c cs ih => rw [List.flatMap_cons, characters_utf16_append, ih, Option.map_some]

@[simp] theorem characters_ns (s : String) : characters (ns s) = some s.toList :=
  characters_eq_some_iff.mpr rfl

theorem characters_append (hs : characters s = some cs) (ht : characters t = some ds) :
    characters (s ++ t) = some (cs ++ ds) := by
  rw [characters_eq_some_iff] at hs ht ⊢
  rw [List.flatMap_append, hs, ht]

/-! ### Bytes -/

theorem not_high_of_low (h : isLowSurrogate u = true) : isHighSurrogate u = false := by
  simp only [isLowSurrogate, isHighSurrogate, Bool.and_eq_true, decide_eq_true_eq] at h ⊢
  simp only [Bool.and_eq_false_iff, decide_eq_false_iff_not]
  omega

/-- Cut off anywhere, a string of characters is one unless it ends with half a pair. -/
theorem isSome_characters_take (h : (characters s).isSome) (n : ℕ) :
    (characters (s.take n)).isSome ↔ ∀ u ∈ (s.take n).getLast?, isHighSurrogate u = false := by
  induction s using characters.induct generalizing n with
  | case1 => simp [characters]
  | case2 u hsur =>
    rw [characters, if_pos hsur] at h
    cases h
  | case3 u hsur =>
    have hplain : (isHighSurrogate u || isLowSurrogate u) = false := by simpa using hsur
    obtain ⟨hhigh, hlow⟩ := Bool.or_eq_false_iff.mp hplain
    cases n with
    | zero => simp [characters]
    | succ n => simp [characters, hhigh, hlow]
  | case4 u v rest hpair ih =>
    rw [characters, if_pos hpair, Option.isSome_map] at h
    obtain ⟨hhigh, hlow⟩ := (Bool.and_eq_true _ _).mp hpair
    match n with
    | 0 => simp [characters]
    | 1 => simp [characters, hhigh]
    | n + 2 =>
      rw [List.take_succ_cons, List.take_succ_cons, characters, if_pos hpair, Option.isSome_map,
        ih h n, List.getLast?_cons_cons, List.getLast?_cons]
      cases hlast : (rest.take n).getLast? with
      | none => simp [not_high_of_low hlow]
      | some w => simp
  | case5 u v rest hpair hsur =>
    rw [characters, if_neg hpair, if_pos hsur] at h
    cases h
  | case6 u v rest hpair hsur ih =>
    have hplain : (isHighSurrogate u || isLowSurrogate u) = false := by simpa using hsur
    rw [characters_single_cons hplain, Option.isSome_map] at h
    cases n with
    | zero => simp [characters]
    | succ n =>
      rw [List.take_succ_cons, characters_single_cons hplain, Option.isSome_map, ih h n,
        List.getLast?_cons]
      cases hlast : ((v :: rest).take n).getLast? with
      | none => simp [(Bool.or_eq_false_iff.mp hplain).1]
      | some w => simp

theorem utf8_append (cs ds : List Char) : utf8 (cs ++ ds) = utf8 cs ++ utf8 ds :=
  List.flatMap_append

/-- Read back, the bytes of a string are the string. -/
theorem stringWithData_of_dataUsingEncoding {d : List UInt8} (h : dataUsingEncoding s = some d) :
    stringWithData d = some s := by
  obtain ⟨cs, hcs, rfl⟩ := Option.map_eq_some_iff.mp h
  have hbytes : (utf8 cs).toByteArray = cs.utf8Encode := rfl
  rw [stringWithData, hbytes, List.utf8Decode?_utf8Encode, Option.map_some, List.toList_toArray,
    characters_eq_some_iff.mp hcs]

/-- A byte of the first half of the table is the character it stands for. -/
theorem mem_of_mem_utf8EncodeChar {b : UInt8} (hb : b.toNat < 128)
    (h : b ∈ String.utf8EncodeChar c) : c.toNat = b.toNat := by
  have hbyte : ∀ n < 256, (UInt8.ofNat n).toNat = n := fun n hn => UInt8.toNat_ofNat_of_lt' hn
  rw [String.utf8EncodeChar] at h
  simp only [Char.toNat_val] at h
  split_ifs at h with h₁ h₂ h₃
  · rw [List.mem_singleton.mp h, hbyte _ (by omega)]
  · -- a longer sequence has no byte below 128
    exfalso
    rcases List.mem_cons.mp h with rfl | h
    · rw [hbyte _ (by omega)] at hb
      omega
    · rw [List.mem_singleton.mp h, hbyte _ (by omega)] at hb
      omega
  · exfalso
    simp only [List.mem_cons, List.not_mem_nil, or_false] at h
    rcases h with rfl | rfl | rfl <;>
    · rw [hbyte _ (by omega)] at hb
      omega
  · exfalso
    simp only [List.mem_cons, List.not_mem_nil, or_false] at h
    rcases h with rfl | rfl | rfl | rfl <;>
    · rw [hbyte _ (by omega)] at hb
      omega

/-- A byte of the first half of the table among the bytes of a string is a unit of it. -/
theorem exists_unit_of_mem {d : List UInt8} (h : dataUsingEncoding s = some d) {b : UInt8}
    (hb : b.toNat < 128) (hmem : b ∈ d) : UInt16.ofNat b.toNat ∈ s := by
  obtain ⟨cs, hcs, rfl⟩ := Option.map_eq_some_iff.mp h
  obtain ⟨c, hc, hbc⟩ := List.mem_flatMap.mp hmem
  have hnat := mem_of_mem_utf8EncodeChar hb hbc
  rw [← characters_eq_some_iff.mp hcs]
  refine List.mem_flatMap.mpr ⟨c, hc, ?_⟩
  rw [utf16, if_pos (by omega), hnat]
  exact List.mem_singleton.mpr rfl

/-! ### Base64 -/

/-- `A`-`Z`, `a`-`z`, `0`-`9`, `+`, `/`. -/
def base64Char (i : Fin 64) : unichar :=
  UInt16.ofNat <|
    if i.val < 26 then i.val + 65
    else if i.val < 52 then i.val + 71
    else if i.val < 62 then i.val - 4
    else if i.val = 62 then 43
    else 47

def base64Value (u : unichar) : Option (Fin 64) :=
  let n := u.toNat
  if 65 ≤ n && n ≤ 90 then some (Base64.low (n - 65))
  else if 97 ≤ n && n ≤ 122 then some (Base64.low (n - 71))
  else if 48 ≤ n && n ≤ 57 then some (Base64.low (n + 4))
  else if n = 43 then some (Base64.low 62)
  else if n = 47 then some (Base64.low 63)
  else none

theorem base64Value_char : ∀ i, base64Value (base64Char i) = some i := by decide

theorem base64Value_pad : base64Value 61 = none := by decide

def base64Alphabet : Alphabet unichar where
  char := base64Char
  pad := 61
  value := base64Value
  value_char := base64Value_char
  value_pad := base64Value_pad

/-- `base64EncodedStringWithOptions:0`. -/
def base64EncodedString (d : List UInt8) : NSString := Base64.encode base64Alphabet d

end LeYiDai
