import Mathlib.Data.Finmap
import Mathlib.Data.List.Basic
import Mathlib.Tactic.Common

/-! Foundation values as the handlers see them. A string is its UTF-16 units, a JSON object is known
    by what `intValue` and `%@` answer, and `nil` is `none`: a message to `nil` answers `nil` or
    zero. A message that an object does not understand, an index out of range and a `nil` in a
    literal raise, and the function that sends it returns `none`. -/

namespace LeYiDai

abbrev unichar := UInt16

/-- An `NSString`: its UTF-16 units. -/
abbrev NSString := List unichar

/-- The UTF-16 units of one character. -/
def utf16 (c : Char) : List unichar :=
  if c.toNat < 0x10000 then [UInt16.ofNat c.toNat]
  else
    let v := c.toNat - 0x10000
    [UInt16.ofNat (0xD800 + v / 0x400), UInt16.ofNat (0xDC00 + v % 0x400)]

/-- A string literal of the source. -/
def ns (s : String) : NSString := s.toList.flatMap utf16

/-- What a server may send. A number answers `intValue` and `%@`; an array or an object answers
    `%@` with a description of its own. -/
inductive Json where
  | null
  | str (s : NSString)
  | num (intValue : ℤ) (description : NSString)
  | arr (elems : List Json) (description : NSString)
  | obj (entries : List (NSString × Json)) (description : NSString)

namespace Json

mutual
/-- Equality of values is decidable. -/
def decEq : (a b : Json) → Decidable (a = b)
  | .null, .null => .isTrue rfl
  | .str s, .str t => decidable_of_iff (s = t) (by simp)
  | .num i s, .num j t => decidable_of_iff (i = j ∧ s = t) (by simp)
  | .arr xs s, .arr ys t =>
    have := decEqElems xs ys
    decidable_of_iff (xs = ys ∧ s = t) (by simp)
  | .obj xs s, .obj ys t =>
    have := decEqEntries xs ys
    decidable_of_iff (xs = ys ∧ s = t) (by simp)
  | .null, .str _ | .null, .num _ _ | .null, .arr _ _ | .null, .obj _ _
  | .str _, .null | .str _, .num _ _ | .str _, .arr _ _ | .str _, .obj _ _
  | .num _ _, .null | .num _ _, .str _ | .num _ _, .arr _ _ | .num _ _, .obj _ _
  | .arr _ _, .null | .arr _ _, .str _ | .arr _ _, .num _ _ | .arr _ _, .obj _ _
  | .obj _ _, .null | .obj _ _, .str _ | .obj _ _, .num _ _ | .obj _ _, .arr _ _ =>
    .isFalse (by simp)

def decEqElems : (xs ys : List Json) → Decidable (xs = ys)
  | [], [] => .isTrue rfl
  | x :: xs, y :: ys =>
    have := decEq x y
    have := decEqElems xs ys
    decidable_of_iff (x = y ∧ xs = ys) (by simp)
  | [], _ :: _ | _ :: _, [] => .isFalse (by simp)

def decEqEntries : (xs ys : List (NSString × Json)) → Decidable (xs = ys)
  | [], [] => .isTrue rfl
  | (k, x) :: xs, (l, y) :: ys =>
    have := decEq x y
    have := decEqEntries xs ys
    decidable_of_iff ((k = l ∧ x = y) ∧ xs = ys) (by simp)
  | [], _ :: _ | _ :: _, [] => .isFalse (by simp)
end

instance : DecidableEq Json := decEq

end Json

/-- An `NSDictionary`: keys are unique and their order does not matter. -/
abbrev NSDictionary := Finmap fun _ : NSString => Json

/-! Named instances, by which every module decides membership in the same way. -/

instance instLawfulBEqNSString : LawfulBEq NSString := inferInstance

instance instLawfulBEqNSDictionary : LawfulBEq NSDictionary := inferInstance

/-- The dictionary with the given entries, a later one for a key replacing an earlier one. -/
def dictionary (entries : List (NSString × Json)) : NSDictionary :=
  entries.foldl (fun d p => d.insert p.1 p.2) ∅

/-- A change made to every value before the dictionary is built is made to every value in it. -/
theorem lookup_dictionary_map (g : Json → Json) (es : List (NSString × Json)) (key : NSString) :
    (dictionary (es.map fun p => (p.1, g p.2))).lookup key =
      ((dictionary es).lookup key).map g := by
  suffices h : ∀ (d d' : NSDictionary), d'.lookup key = (d.lookup key).map g →
      ((es.map fun p => (p.1, g p.2)).foldl (fun d p => d.insert p.1 p.2) d').lookup key =
        ((es.foldl (fun d p => d.insert p.1 p.2) d).lookup key).map g by
    exact h ∅ ∅ (by rw [Finmap.lookup_empty]; rfl)
  induction es with
  | nil => exact fun d d' h => h
  | cons p es ih =>
    intro d d' h
    rw [List.map_cons, List.foldl_cons, List.foldl_cons]
    refine ih _ _ ?_
    rcases eq_or_ne key p.1 with rfl | hne
    · rw [Finmap.lookup_insert, Finmap.lookup_insert]
      rfl
    · rw [Finmap.lookup_insert_of_ne _ hne, Finmap.lookup_insert_of_ne _ hne, h]

theorem foldl_and {α : Type} (f : α → Bool) : ∀ (l : List α) (b : Bool),
    l.foldl (fun x a => x && f a) b = (b && l.all f)
  | [], b => by simp
  | a :: l, b => by rw [List.foldl_cons, foldl_and f l, List.all_cons, Bool.and_assoc]

/-- What holds of all entries of a dictionary holds of all it answers. -/
theorem dictionary_all_iff {d : NSDictionary} {f : NSString → Json → Bool} :
    d.all f = true ↔ ∀ key, ∀ v ∈ d.lookup key, f key v = true := by
  have hlist : d.all f = true ↔ ∀ p ∈ d.entries, f p.1 p.2 = true := by
    rcases d with ⟨⟨l⟩, hnodup⟩
    change l.foldl (fun x p => x && f p.1 p.2) true = true ↔ _
    rw [foldl_and fun p : (_ : NSString) × Json => f p.1 p.2]
    simp
  rw [hlist]
  constructor
  · exact fun h key v hv => h ⟨key, v⟩ (Finmap.mem_lookup_iff.mp hv)
  · exact fun h p hp => h p.1 p.2 (Finmap.mem_lookup_iff.mpr hp)

/-! ### Formats -/

/-- `%@` of an object that may be `nil`. -/
def fmt : Option Json → NSString
  | none => ns "(null)"
  | some .null => ns "<null>"
  | some (.str s) => s
  | some (.num _ d) => d
  | some (.arr _ d) => d
  | some (.obj _ d) => d

/-- `%@` of a string property that may be `nil`. -/
def fmtStr (s : Option NSString) : NSString := s.getD (ns "(null)")

/-- `EMPTY_IF_NIL` on an object. -/
def emptyIfNil : Option Json → Json
  | none => .str []
  | some .null => .str []
  | some v => v

/-- `EMPTY_IF_NIL` on a string property. -/
def emptyIfNilStr (s : Option NSString) : NSString := s.getD []

/-- `STRING_ISNIL` on a string that is not `nil`. -/
def stringIsNil (s : NSString) : Bool :=
  s = [] || s = ns "(null)" || s = ns "null" || s = ns "(NULL)" || s = ns "NULL" || s = ns "<null>"

/-- `STRING_ISNIL` on a string that may be `nil`. -/
def isNilStr (s : Option NSString) : Bool := s.all stringIsNil

/-- Nothing distinguishes `nil` from the empty string there. -/
theorem isNilStr_eq (s : Option NSString) : isNilStr s = stringIsNil (emptyIfNilStr s) := by
  cases s <;> rfl

theorem ne_nil_of_stringIsNil {s : NSString} (h : stringIsNil s = false) : s ≠ [] := by
  rintro rfl
  cases h

/-- What a model's string property holds after YYModel has read the key: a string as it is, a
    number through `stringValue`, and nothing for any other value. -/
def yyString : Option Json → Option NSString
  | some (.str s) => some s
  | some (.num _ d) => some d
  | _ => none

/-! ### Integers -/

def isDigit (u : unichar) : Bool := 48 ≤ u && u ≤ 57

def isBlank (u : unichar) : Bool := u = 32 || (9 ≤ u && u ≤ 13)

/-- The value of a run of decimal digits. -/
def digitsValue (ds : NSString) : ℕ := ds.foldl (fun acc u => 10 * acc + (u.toNat - 48)) 0

/-- A sign in front of a number, and what follows it. -/
def takeSign : NSString → Bool × NSString
  | 45 :: rest => (true, rest)
  | 43 :: rest => (false, rest)
  | s => (false, s)

/-- `intValue` of a string: blanks, a sign, the digits in front, held within 32 bits; zero when no
    digit is there. -/
def intValueStr (s : NSString) : ℤ :=
  let (neg, rest) := takeSign (s.dropWhile isBlank)
  let n : ℤ := digitsValue (rest.takeWhile isDigit)
  max (-2147483648) (min 2147483647 (if neg then -n else n))

/-- `[v intValue]`: zero from `nil`; `NSNull`, an array and a dictionary do not understand it. -/
def intValue : Option Json → Option ℤ
  | none => some 0
  | some (.str s) => some (intValueStr s)
  | some (.num i _) => some i
  | some _ => none

/-! ### Substrings -/

/-- Unsigned subtraction of `NSUInteger`, which wraps below zero. -/
def nsuSub (a b : ℕ) : ℕ := if b ≤ a then a - b else a + 2 ^ 64 - b

/-- `substringFromIndex:`, which raises past the end. -/
def substringFromIndex (s : NSString) (i : ℕ) : Option NSString :=
  if i ≤ s.length then some (s.drop i) else none

/-- `[no substringFromIndex:no.length-4]` for a string that may be `nil`. -/
def lastFour : Option NSString → Option (Option NSString)
  | none => some none
  | some s => (substringFromIndex s (nsuSub s.length 4)).map some

theorem substringFromIndex_length_sub_four {s : NSString} (h : 4 ≤ s.length) :
    substringFromIndex s (nsuSub s.length 4) = some (s.drop (s.length - 4)) := by
  rw [nsuSub, if_pos h, substringFromIndex, if_pos (Nat.sub_le _ _)]

/-- On fewer than four units the index wraps and the substring is out of range. -/
theorem substringFromIndex_raises {s : NSString} (h : s.length < 4) :
    substringFromIndex s (nsuSub s.length 4) = none := by
  rw [nsuSub, if_neg (by omega), substringFromIndex, if_neg (by omega)]

/-- The last four units can be cut off exactly when there are four. -/
theorem substringFromIndex_isSome_iff {s : NSString} :
    (substringFromIndex s (nsuSub s.length 4)).isSome ↔ 4 ≤ s.length := by
  rcases le_or_gt 4 s.length with h | h
  · simp [substringFromIndex_length_sub_four h, h]
  · simp [substringFromIndex_raises h, h]

/-! ### Replies -/

/-- How a request's completion block is called: the transport failed, the server answered with
    `success` other than 1, or it answered with a result (`nil` when the key is missing). -/
inductive Reply (α : Type) where
  | failure
  | refused
  | result (r : Option α)
  deriving DecidableEq

end LeYiDai
