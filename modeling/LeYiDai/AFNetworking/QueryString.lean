import LeYiDai.AFNetworking.PercentEscape
import LeYiDai.Lib.Delimiter

/-! The parameters of a GET request: a tree of dictionaries and arrays becomes a list of pairs, the
    pairs a query behind the URL. Against it stands the way a server reads a query: fields between
    `&`, a name up to the first `=`, and in both `+` and `%` undone.

        {a: 1, b: [x, y]}  ──▶  a = 1, b[] = x, b[] = y  ──▶  a=1&b%5B%5D=x&b%5B%5D=y
                                        ▲                                │
                                        └────────── server ◀────────────┘ -/

namespace LeYiDai.QueryString

/-! ### Pairs -/

structure AFQueryStringPair where
  field : Option NSString
  value : Json

/-- The key of a value inside a dictionary. -/
def nestedField (key : Option NSString) (nestedKey : NSString) : NSString :=
  match key with
  | some key => key ++ ns "[" ++ nestedKey ++ ns "]"
  | none => nestedKey

/-- The entries in the order of their keys, by `compare:`. -/
def sortedEntries (compare : NSString → NSString → Bool) (entries : List (NSString × Json)) :
    List (NSString × Json) :=
  entries.mergeSort fun a b => compare a.1 b.1

theorem mem_sortedEntries {compare : NSString → NSString → Bool}
    {entries : List (NSString × Json)} {p : NSString × Json} :
    p ∈ sortedEntries compare entries ↔ p ∈ entries :=
  (List.mergeSort_perm _ _).mem_iff

def AFQueryStringPairsFromKeyAndValue (compare : NSString → NSString → Bool) :
    Option NSString → Json → List AFQueryStringPair
  | key, .obj entries _ =>
    (sortedEntries compare entries).attach.flatMap fun ⟨(nestedKey, nestedValue), _⟩ =>
      AFQueryStringPairsFromKeyAndValue compare (some (nestedField key nestedKey)) nestedValue
  | key, .arr elems _ =>
    elems.attach.flatMap fun ⟨nestedValue, _⟩ =>
      AFQueryStringPairsFromKeyAndValue compare (some (fmtStr key ++ ns "[]")) nestedValue
  | key, value => [{ field := key, value }]
termination_by _ value => sizeOf value
decreasing_by
  · rename_i hmem
    have hsize := List.sizeOf_lt_of_mem (mem_sortedEntries.mp hmem)
    simp only [Prod.mk.sizeOf_spec, Json.obj.sizeOf_spec] at hsize ⊢
    omega
  · rename_i hmem
    have hsize := List.sizeOf_lt_of_mem hmem
    simp only [Json.arr.sizeOf_spec]
    omega

/-- The pairs of a parameter dictionary, given by its entries. -/
def AFQueryStringPairsFromDictionary (compare : NSString → NSString → Bool)
    (entries : List (NSString × Json)) : List AFQueryStringPair :=
  AFQueryStringPairsFromKeyAndValue compare none (.obj entries [])

/-- A value that is neither a dictionary nor an array. -/
def isLeaf : Json → Bool
  | .arr _ _ | .obj _ _ => false
  | _ => true

theorem pairs_of_leaf {compare : NSString → NSString → Bool} {value : Json}
    (h : isLeaf value = true) (key : Option NSString) :
    AFQueryStringPairsFromKeyAndValue compare key value = [{ field := key, value }] := by
  cases value with
  | null => rw [AFQueryStringPairsFromKeyAndValue] <;> exact nofun
  | str s => rw [AFQueryStringPairsFromKeyAndValue] <;> exact nofun
  | num i d => rw [AFQueryStringPairsFromKeyAndValue] <;> exact nofun
  | arr elems d => cases h
  | obj entries d => cases h

/-- A dictionary without nesting gives one pair for each entry. -/
theorem pairs_of_leaves {entries : List (NSString × Json)} (compare : NSString → NSString → Bool)
    (h : ∀ e ∈ entries, isLeaf e.2 = true) :
    AFQueryStringPairsFromDictionary compare entries =
      (sortedEntries compare entries).map fun e => { field := some e.1, value := e.2 } := by
  have hleaf : ∀ e ∈ sortedEntries compare entries, AFQueryStringPairsFromKeyAndValue compare
      (some (nestedField none e.1)) e.2 = [{ field := some e.1, value := e.2 }] :=
    fun e he => pairs_of_leaf (h e (mem_sortedEntries.mp he)) _
  rw [AFQueryStringPairsFromDictionary, AFQueryStringPairsFromKeyAndValue, List.map_eq_flatMap,
    List.flatMap_subtype (g := fun e : NSString × Json =>
      AFQueryStringPairsFromKeyAndValue compare (some (nestedField none e.1)) e.2) fun _ _ => rfl,
    List.unattach_attach]
  exact List.flatMap_congr hleaf

/-- `URLEncodedStringValue`, which raises where escaping does. -/
def AFQueryStringPair.URLEncodedStringValue (c : ComposedSequences) (p : AFQueryStringPair) :
    Option NSString :=
  if p.value = .null then AFPercentEscapedStringFromString c (emptyIfNilStr p.field)
  else
    (AFPercentEscapedStringFromString c (emptyIfNilStr p.field)).bind fun field =>
      (AFPercentEscapedStringFromString c (fmt (some p.value))).map fun value =>
        field ++ ns "=" ++ value

def componentsJoinedByString (separator : NSString) : List NSString → NSString
  | [] => []
  | x :: xs => x ++ xs.flatMap (separator ++ ·)

def AFQueryStringFromParameters (c : ComposedSequences) (compare : NSString → NSString → Bool)
    (parameters : List (NSString × Json)) : Option NSString :=
  ((AFQueryStringPairsFromDictionary compare parameters).mapM
    (AFQueryStringPair.URLEncodedStringValue c)).map (componentsJoinedByString (ns "&"))

/-! ### The request -/

def separator (u : unichar) : Delimiter unichar where
  head := u
  tail := []
  head_notMem := List.not_mem_nil

/-- A URL up to its fragment. -/
def beforeFragment (url : NSString) : NSString :=
  (((separator 35).cut url).map (·.1)).getD url

/-- `query` of a URL: what stands between the first `?` and the fragment. -/
def urlQuery (url : NSString) : Option NSString :=
  ((separator 63).cut (beforeFragment url)).map (·.2)

/-- `requestBySerializingRequest:withParameters:error:` of a request whose method puts the
    parameters in the URL: the URL it ends with. -/
def urlWithParameters (c : ComposedSequences) (compare : NSString → NSString → Bool)
    (url : NSString) (parameters : Option (List (NSString × Json))) : Option NSString :=
  match parameters with
  | none => some url
  | some parameters =>
    (AFQueryStringFromParameters c compare parameters).map fun query =>
      if query.length > 0 then
        url ++ (if (urlQuery url).isSome then ns "&" else ns "?") ++ query
      else url

/-! ### The server -/

def hexValue (u : unichar) : Option ℕ :=
  if 48 ≤ u.toNat ∧ u.toNat ≤ 57 then some (u.toNat - 48)
  else if 65 ≤ u.toNat ∧ u.toNat ≤ 70 then some (u.toNat - 55)
  else if 97 ≤ u.toNat ∧ u.toNat ≤ 102 then some (u.toNat - 87)
  else none

/-- The bytes a component stands for: `+` is a space, `%` and two digits a byte. -/
def formBytes : NSString → Option (List UInt8)
  | [] => some []
  | u :: rest =>
    if u = 37 then
      match rest with
      | a :: b :: rest =>
        (hexValue a).bind fun high => (hexValue b).bind fun low =>
          (formBytes rest).map (UInt8.ofNat (16 * high + low) :: ·)
      | _ => none
    else if u = 43 then (formBytes rest).map (32 :: ·)
    else if u.toNat < 128 then (formBytes rest).map (UInt8.ofNat u.toNat :: ·)
    else none

def formDecode (s : NSString) : Option NSString := (formBytes s).bind stringWithData

/-- A field of a query: its name, and its value when there is a `=`. -/
def decodeField (s : NSString) : Option (NSString × Option NSString) :=
  match (separator 61).cut s with
  | none => (formDecode s).map fun name => (name, none)
  | some (name, value) =>
    (formDecode name).bind fun name => (formDecode value).map fun value => (name, some value)

/-- The fields of a query; what is empty between two `&` is no field. -/
def decodeQuery (query : NSString) : Option (List (NSString × Option NSString)) :=
  (((separator 38).pieces query).filter (· ≠ [])).mapM decodeField

/-- What a server finds in the URL of a request. -/
def serverParameters (url : NSString) : Option (List (NSString × Option NSString)) :=
  match urlQuery url with
  | none => some []
  | some query => decodeQuery query

/-! ### One component -/

variable {c : CharacterSequences} {u : unichar}

theorem hexDigit_spec : ∀ n < 16, hexValue (hexDigit n) = some n ∧ hexDigit n ≠ 35 ∧
    hexDigit n ≠ 38 ∧ hexDigit n ≠ 61 := by decide

theorem toNat_lt_of_allowed {x : Char} (h : allowedCharacterSet x = true) : x.toNat < 128 := by
  rw [allowedCharacterSet, Bool.and_eq_true, URLQueryAllowed, Bool.or_eq_true] at h
  rcases h.1 with halnum | hmem
  · simp only [isAlphanumeric, Bool.or_eq_true, Bool.and_eq_true, decide_eq_true_eq] at halnum
    omega
  · have hall : "!$&'()*+,-./:;=?@_~".toList.all (fun y => y.toNat < 128) = true := rfl
    have hx := List.all_eq_true.mp hall x (List.contains_iff_mem.mp hmem)
    exact of_decide_eq_true hx

theorem ne_of_allowed {x : Char} (h : allowedCharacterSet x = true) :
    ∀ y ∈ "#%&+=".toList, x.toNat ≠ y.toNat := by
  intro y hy heq
  obtain rfl := Char.toNat_inj.mp heq
  have hnone : "#%&+=".toList.all (fun z => !allowedCharacterSet z) = true := rfl
  have hx := List.all_eq_true.mp hnone x hy
  rw [h] at hx
  cases hx

/-- What an escaped character may be made of. -/
theorem ne_of_mem_escapeCharacter {x : Char} (h : u ∈ escapeCharacter x) :
    u ≠ 35 ∧ u ≠ 38 ∧ u ≠ 61 := by
  rw [escapeCharacter] at h
  split_ifs at h with hallowed
  · have hlt := toNat_lt_of_allowed hallowed
    have hne := ne_of_allowed hallowed
    rw [utf16, if_pos (by omega), List.mem_singleton] at h
    subst h
    have hnat : (UInt16.ofNat x.toNat).toNat = x.toNat :=
      UInt16.toNat_ofNat_of_lt' (by change _ < 65536; omega)
    refine ⟨?_, ?_, ?_⟩ <;> intro heq <;> rw [heq] at hnat
    · exact hne '#' (by decide) hnat.symm
    · exact hne '&' (by decide) hnat.symm
    · exact hne '=' (by decide) hnat.symm
  · obtain ⟨b, -, hu⟩ := List.mem_flatMap.mp h
    have hb := b.toNat_lt
    simp only [percentByte, List.mem_cons, List.not_mem_nil, or_false] at hu
    rcases hu with rfl | rfl | rfl
    · decide
    · exact (hexDigit_spec _ (by omega)).2
    · exact (hexDigit_spec _ (by omega)).2

theorem formBytes_percent (a b : unichar) (rest : NSString) :
    formBytes (37 :: a :: b :: rest) = (hexValue a).bind fun high => (hexValue b).bind fun low =>
      (formBytes rest).map (UInt8.ofNat (16 * high + low) :: ·) := by
  rw [formBytes.eq_def]
  rfl

theorem formBytes_plain (hu : u ≠ 37) (hu' : u ≠ 43) (hlt : u.toNat < 128) (rest : NSString) :
    formBytes (u :: rest) = (formBytes rest).map (UInt8.ofNat u.toNat :: ·) := by
  rw [formBytes.eq_def]
  simp only [hu, hu', hlt, if_true, if_false]

theorem formBytes_percentByte (b : UInt8) (rest : NSString) :
    formBytes (percentByte b ++ rest) = (formBytes rest).map (b :: ·) := by
  have hb := b.toNat_lt
  have hsum : 16 * (b.toNat / 16) + b.toNat % 16 = b.toNat := Nat.div_add_mod b.toNat 16
  rw [percentByte, List.cons_append, List.cons_append, List.singleton_append, formBytes_percent,
    (hexDigit_spec (b.toNat / 16) (by omega)).1, (hexDigit_spec (b.toNat % 16) (by omega)).1]
  simp only [Option.bind_some, hsum, UInt8.ofNat_toNat]

theorem formBytes_percentBytes (bs : List UInt8) (rest : NSString) :
    formBytes (bs.flatMap percentByte ++ rest) = (formBytes rest).map (bs ++ ·) := by
  induction bs with
  | nil => simp
  | cons b bs ih =>
    rw [List.flatMap_cons, List.append_assoc, formBytes_percentByte, ih, Option.map_map]
    rfl

/-- An escaped character stands for its bytes. -/
theorem formBytes_escapeCharacter (x : Char) (rest : NSString) :
    formBytes (escapeCharacter x ++ rest) =
      (formBytes rest).map (String.utf8EncodeChar x ++ ·) := by
  rw [escapeCharacter]
  split_ifs with hallowed
  · have hlt := toNat_lt_of_allowed hallowed
    have hne := ne_of_allowed hallowed
    have hnat : (UInt16.ofNat x.toNat).toNat = x.toNat :=
      UInt16.toNat_ofNat_of_lt' (by change _ < 65536; omega)
    have hpercent : UInt16.ofNat x.toNat ≠ 37 := by
      intro heq
      rw [heq] at hnat
      exact hne '%' (by decide) hnat.symm
    have hplus : UInt16.ofNat x.toNat ≠ 43 := by
      intro heq
      rw [heq] at hnat
      exact hne '+' (by decide) hnat.symm
    have hbytes : String.utf8EncodeChar x = [UInt8.ofNat x.toNat] := by
      rw [String.utf8EncodeChar]
      simp only [Char.toNat_val]
      rw [if_pos (by omega)]
    rw [utf16, if_pos (by omega), List.singleton_append,
      formBytes_plain hpercent hplus (by omega), hnat, hbytes]
    rfl
  · exact formBytes_percentBytes _ rest

/-- A server undoes the escaping of a component. -/
theorem formDecode_escape {s e : NSString} (h : stringByAddingPercentEncoding s = some e) :
    formDecode e = some s := by
  obtain ⟨cs, hcs, rfl⟩ := Option.map_eq_some_iff.mp h
  have hbytes : formBytes (cs.flatMap escapeCharacter) = some (utf8 cs) := by
    clear h hcs
    induction cs with
    | nil => rfl
    | cons x cs ih =>
      rw [List.flatMap_cons, formBytes_escapeCharacter, ih, Option.map_some]
      rfl
  have hdata : dataUsingEncoding s = some (utf8 cs) := by
    rw [dataUsingEncoding, hcs, Option.map_some]
  rw [formDecode, hbytes, Option.bind_some, stringWithData_of_dataUsingEncoding hdata]

theorem ne_of_mem_escape {s e : NSString} (h : stringByAddingPercentEncoding s = some e)
    (hu : u ∈ e) : u ≠ 35 ∧ u ≠ 38 ∧ u ≠ 61 := by
  obtain ⟨cs, -, rfl⟩ := Option.map_eq_some_iff.mp h
  obtain ⟨x, -, hx⟩ := List.mem_flatMap.mp hu
  exact ne_of_mem_escapeCharacter hx

/-- Escaped in batches, a string is read back as it was and holds no separator, and escaping fails
    on nothing but a lone surrogate. -/
theorem escape_round_trip (c : CharacterSequences) (s : NSString) :
    (AFPercentEscapedStringFromString c.toComposedSequences s).isSome = (characters s).isSome ∧
      ∀ e ∈ AFPercentEscapedStringFromString c.toComposedSequences s,
        formDecode e = some s ∧ ∀ u ∈ e, u ≠ 35 ∧ u ≠ 38 ∧ u ≠ 61 := by
  rw [escape_whole]
  refine ⟨by rw [stringByAddingPercentEncoding, Option.isSome_map], fun e he => ?_⟩
  exact ⟨formDecode_escape he, fun u hu => ne_of_mem_escape he hu⟩

/-! ### Fields -/

/-- What a pair says: a name, and a value unless it is null. -/
def AFQueryStringPair.plain (p : AFQueryStringPair) : NSString × Option NSString :=
  (emptyIfNilStr p.field, if p.value = .null then none else some (fmt (some p.value)))

/-- No surrogate stands alone in it. -/
def AFQueryStringPair.encodable (p : AFQueryStringPair) : Bool :=
  (characters (emptyIfNilStr p.field)).isSome &&
    (p.value = .null || (characters (fmt (some p.value))).isSome)

theorem mem_iff_separator {s : NSString} : (separator u).toList <:+: s ↔ u ∈ s :=
  List.singleton_infix_iff u s

/-- A server reads an encoded pair as what it says. -/
theorem decodeField_encoded {p : AFQueryStringPair} {e : NSString}
    (h : p.URLEncodedStringValue c.toComposedSequences = some e) :
    decodeField e = some p.plain ∧ 35 ∉ e ∧ 38 ∉ e ∧ (e = [] ↔ p.plain = ([], none)) := by
  rw [AFQueryStringPair.URLEncodedStringValue, escape_whole, escape_whole] at h
  rw [AFQueryStringPair.plain, decodeField]
  split_ifs at h with hnull
  · rw [if_pos hnull]
    have hfield := formDecode_escape h
    have hcut : (separator 61).cut e = none :=
      Delimiter.cut_eq_none_iff.mpr fun hin =>
        (ne_of_mem_escape h (mem_iff_separator.mp hin)).2.2 rfl
    refine ⟨by rw [hcut, hfield]; rfl, fun hin => (ne_of_mem_escape h hin).1 rfl,
      fun hin => (ne_of_mem_escape h hin).2.1 rfl, ?_⟩
    rw [Prod.mk.injEq, eq_self_iff_true, and_true]
    constructor
    · rintro rfl
      exact (Option.some.inj hfield).symm
    · intro hempty
      rw [hempty] at h
      exact (Option.some.inj h).symm
  · obtain ⟨f, hf, hrest⟩ := Option.bind_eq_some_iff.mp h
    obtain ⟨v, hv, rfl⟩ := Option.map_eq_some_iff.mp hrest
    rw [if_neg hnull]
    have hfield := formDecode_escape hf
    have hvalue := formDecode_escape hv
    have hcut : (separator 61).cut (f ++ ns "=" ++ v) = some (f, v) := by
      rw [List.append_assoc]
      exact Delimiter.cut_append
        (fun hin => (ne_of_mem_escape hf (mem_iff_separator.mp hin)).2.2 rfl) v
    have hmem : ∀ w ∈ f ++ ns "=" ++ v, w ≠ 35 ∧ w ≠ 38 := by
      intro w hw
      rw [List.mem_append, List.mem_append] at hw
      rcases hw with (hw | hw) | hw
      · exact ⟨(ne_of_mem_escape hf hw).1, (ne_of_mem_escape hf hw).2.1⟩
      · obtain rfl : w = 61 := List.mem_singleton.mp hw
        decide
      · exact ⟨(ne_of_mem_escape hv hw).1, (ne_of_mem_escape hv hw).2.1⟩
    refine ⟨by rw [hcut]; simp [hfield, hvalue], fun hin => (hmem _ hin).1 rfl,
      fun hin => (hmem _ hin).2 rfl, ?_⟩
    constructor
    · intro hempty
      simp only [List.append_eq_nil_iff] at hempty
      exact absurd hempty.1.2 (by decide)
    · intro hplain
      exact absurd (congrArg Prod.snd hplain) (Option.some_ne_none _)

theorem isSome_URLEncodedStringValue (c : CharacterSequences) (p : AFQueryStringPair) :
    (p.URLEncodedStringValue c.toComposedSequences).isSome = p.encodable := by
  rw [AFQueryStringPair.URLEncodedStringValue, AFQueryStringPair.encodable, escape_whole,
    escape_whole, stringByAddingPercentEncoding, stringByAddingPercentEncoding]
  split_ifs with hnull
  · simp [hnull]
  · cases characters (emptyIfNilStr p.field) <;> cases characters (fmt (some p.value)) <;>
      simp [hnull]

/-- The fields a server should find: what the pairs say, but for one that says nothing. -/
def plainFields (pairs : List AFQueryStringPair) : List (NSString × Option NSString) :=
  (pairs.map (·.plain)).filter (· ≠ ([], none))

theorem decode_encoded : ∀ {pairs : List AFQueryStringPair} {es : List NSString},
    pairs.mapM (AFQueryStringPair.URLEncodedStringValue c.toComposedSequences) = some es →
      (∀ e ∈ es, 35 ∉ e ∧ 38 ∉ e) ∧
        (es.filter (· ≠ [])).mapM decodeField = some (plainFields pairs)
  | [], es, h => by
      rw [List.mapM_nil] at h
      cases h
      exact ⟨by simp, rfl⟩
  | p :: pairs, es, h => by
      rw [List.mapM_cons] at h
      obtain ⟨e, he, hrest⟩ := Option.bind_eq_some_iff.mp h
      obtain ⟨es', hes, heq⟩ := Option.bind_eq_some_iff.mp hrest
      cases heq
      obtain ⟨hdecode, hhash, hamp, hempty⟩ := decodeField_encoded he
      obtain ⟨hmem, hfields⟩ := decode_encoded hes
      refine ⟨?_, ?_⟩
      · intro x hx
        rcases List.mem_cons.mp hx with rfl | hx
        · exact ⟨hhash, hamp⟩
        · exact hmem x hx
      · by_cases hnil : e = []
        · have hplain := hempty.mp hnil
          rw [List.filter_cons_of_neg (by simpa using hnil), hfields, plainFields, plainFields,
            List.map_cons, List.filter_cons_of_neg (by simpa using hplain)]
        · have hplain : p.plain ≠ ([], none) := fun heq => hnil (hempty.mpr heq)
          rw [List.filter_cons_of_pos (by simpa using hnil), List.mapM_cons, hdecode, hfields,
            plainFields, plainFields, List.map_cons,
            List.filter_cons_of_pos (by simpa using hplain)]
          rfl

theorem isSome_mapM {α β : Type} (f : α → Option β) : ∀ l : List α,
    (l.mapM f).isSome = l.all fun a => (f a).isSome
  | [] => rfl
  | a :: l => by
      rw [List.mapM_cons, List.all_cons, ← isSome_mapM f l]
      cases f a with
      | none => rfl
      | some b => cases l.mapM f <;> rfl

/-! ### The whole query -/

theorem filter_pieces_joined {es : List NSString} (h : ∀ e ∈ es, 38 ∉ e) :
    ((separator 38).pieces (componentsJoinedByString (ns "&") es)).filter (· ≠ []) =
      es.filter (· ≠ []) := by
  cases es with
  | nil =>
    rw [componentsJoinedByString, Delimiter.pieces_of_none rfl]
    rfl
  | cons x xs =>
    have hjoin : componentsJoinedByString (ns "&") (x :: xs) = (separator 38).join x xs := rfl
    rw [hjoin, Delimiter.pieces_join fun z hz hin => h z hz (mem_iff_separator.mp hin)]

theorem not_mem_joined {es : List NSString} (h : ∀ e ∈ es, 35 ∉ e) :
    35 ∉ componentsJoinedByString (ns "&") es := by
  cases es with
  | nil => exact List.not_mem_nil
  | cons x xs =>
    rw [componentsJoinedByString, List.mem_append, List.mem_flatMap]
    rintro (hx | ⟨y, hy, hmem⟩)
    · exact h x List.mem_cons_self hx
    · rcases List.mem_append.mp hmem with hamp | hmem
      · revert hamp
        decide
      · exact h y (List.mem_cons_of_mem _ hy) hmem

theorem decodeQuery_append (q r : NSString) :
    decodeQuery (q ++ (ns "&" ++ r)) =
      (decodeQuery q).bind fun fs => (decodeQuery r).map (fs ++ ·) := by
  have hpieces := (separator 38).pieces_append q r
  change (separator 38).pieces (q ++ (ns "&" ++ r)) = _ at hpieces
  rw [decodeQuery, hpieces, List.filter_append, List.mapM_append]
  rw [decodeQuery, decodeQuery]
  cases (((separator 38).pieces q).filter (· ≠ [])).mapM decodeField <;>
    cases (((separator 38).pieces r).filter (· ≠ [])).mapM decodeField <;> rfl

theorem beforeFragment_eq {url : NSString} (h : 35 ∉ url) : beforeFragment url = url := by
  have hnone : (separator 35).cut url = none :=
    Delimiter.cut_eq_none_iff.mpr fun hin => h (mem_iff_separator.mp hin)
  rw [beforeFragment, hnone]
  rfl

theorem beforeFragment_append {url : NSString} (h : 35 ∈ url) (more : NSString) :
    beforeFragment (url ++ more) = beforeFragment url := by
  cases hcut : (separator 35).cut url with
  | none => exact absurd (mem_iff_separator.mpr h) (Delimiter.cut_eq_none_iff.mp hcut)
  | some p =>
    obtain ⟨a, b⟩ := p
    obtain ⟨hurl, ha⟩ := Delimiter.of_cut_eq_some hcut
    have hlonger : (separator 35).cut (url ++ more) = some (a, b ++ more) := by
      rw [hurl, List.append_assoc, List.append_assoc]
      exact Delimiter.cut_append ha _
    rw [beforeFragment, beforeFragment, hcut, hlonger]
    rfl

theorem serverParameters_append {url query : NSString} (hurl : 35 ∉ url) (hquery : 35 ∉ query) :
    serverParameters (url ++ (if (urlQuery url).isSome then ns "&" else ns "?") ++ query) =
      (serverParameters url).bind fun fs => (decodeQuery query).map (fs ++ ·) := by
  have hmark : 35 ∉ (if (urlQuery url).isSome then ns "&" else ns "?") := by
    split_ifs <;> decide
  have hwhole : 35 ∉ url ++ (if (urlQuery url).isSome then ns "&" else ns "?") ++ query := by
    simp only [List.mem_append, not_or]
    exact ⟨⟨hurl, hmark⟩, hquery⟩
  rw [serverParameters, urlQuery, beforeFragment_eq hwhole, serverParameters, urlQuery,
    beforeFragment_eq hurl]
  cases hcut : (separator 63).cut url with
  | none =>
    have hfirst := Delimiter.cut_append (Delimiter.cut_eq_none_iff.mp hcut) query
    change (separator 63).cut (url ++ (ns "?" ++ query)) = _ at hfirst
    simp [hfirst]
  | some p =>
    obtain ⟨a, b⟩ := p
    obtain ⟨heq, ha⟩ := Delimiter.of_cut_eq_some hcut
    have hfirst := Delimiter.cut_append ha (b ++ (ns "&" ++ query))
    rw [← List.append_assoc (separator 63).toList, ← List.append_assoc a, ← heq] at hfirst
    simp [hfirst, decodeQuery_append]

/-- A request is made unless a surrogate stands alone in one of its parameters, and a server finds
    the parameters behind those of the URL; behind a fragment it finds none of them. -/
theorem server_reads_parameters (c : CharacterSequences) (compare : NSString → NSString → Bool)
    (url : NSString) (parameters : List (NSString × Json)) :
    (urlWithParameters c.toComposedSequences compare url (some parameters)).isSome =
        (AFQueryStringPairsFromDictionary compare parameters).all (·.encodable) ∧
      ∀ url' ∈ urlWithParameters c.toComposedSequences compare url (some parameters),
        serverParameters url' =
          if 35 ∈ url then serverParameters url
          else (serverParameters url).map
            (· ++ plainFields (AFQueryStringPairsFromDictionary compare parameters)) := by
  constructor
  · rw [urlWithParameters, Option.isSome_map, AFQueryStringFromParameters, Option.isSome_map,
      isSome_mapM]
    simp only [isSome_URLEncodedStringValue]
  · intro url' hurl'
    obtain ⟨query, hquery, rfl⟩ := Option.map_eq_some_iff.mp hurl'
    obtain ⟨es, hes, rfl⟩ := Option.map_eq_some_iff.mp hquery
    obtain ⟨hmem, hfields⟩ := decode_encoded hes
    have hdecode : decodeQuery (componentsJoinedByString (ns "&") es) =
        some (plainFields (AFQueryStringPairsFromDictionary compare parameters)) := by
      rw [decodeQuery, filter_pieces_joined fun e he => (hmem e he).2, hfields]
    have hhash := not_mem_joined fun e he => (hmem e he).1
    generalize componentsJoinedByString (ns "&") es = query at hdecode hhash
    by_cases hlength : query.length > 0
    · rw [if_pos hlength]
      by_cases hfragment : 35 ∈ url
      · rw [if_pos hfragment, serverParameters, urlQuery, List.append_assoc,
          beforeFragment_append hfragment]
        rfl
      · rw [if_neg hfragment, serverParameters_append hfragment hhash, hdecode]
        cases serverParameters url <;> rfl
    · -- nothing is appended, and nothing is to be found
      obtain rfl : query = [] := List.length_eq_zero_iff.mp (by omega)
      have hnone : plainFields (AFQueryStringPairsFromDictionary compare parameters) = [] := by
        rw [decodeQuery, Delimiter.pieces_of_none rfl] at hdecode
        exact (Option.some.inj hdecode).symm
      rw [if_neg hlength, hnone]
      simp

end LeYiDai.QueryString
