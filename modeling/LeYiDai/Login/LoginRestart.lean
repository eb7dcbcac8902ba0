import LeYiDai.Login.LoginModel

/-! The login across a restart. A login result goes through `nullDicToDic:` and `setLogonData:` into
    the user defaults, and the next launch reads it back with the same field assignments. The round
    trip loses nothing; what breaks it is a null below the top level, which the store refuses, and a
    field that is no string, since the six copied fields hold what the server sent. -/

namespace LeYiDai

def Json.isString : Json → Bool
  | .str _ => true
  | _ => false

/-- All seven fields are strings. -/
def LoginModel.allStrings (m : LoginModel) : Bool :=
  m.accountType.isString && m.account.isString && m.userId.isString && m.userName.isString &&
    m.custId.isString && m.custName.isString && m.token.isString

/-- The keys whose values are copied into the model as they are. -/
def copiedKeys : List String := ["account", "userId", "userName", "custId", "custName", "token"]

/-- The success block of `loginButClick`. -/
def loginSuccess (result : Option Json) : Option (LoginModel × Option NSDictionary) :=
  setLogonData (nullDicToDic result)

/-- The login succeeds without raising, leaves strings, and a model built from what is stored has
    the same fields and the same `isLogin`. -/
def SurvivesRestart (result : Json) : Prop :=
  ∃ m info, loginSuccess (some result) = some (m, info) ∧ m.allStrings = true ∧
    LoginModel.initPDUserWithDic info = m ∧ (LoginModel.initPDUserWithDic info).isLogin = m.isLogin

/-- A value that `nullDicToDic:` leaves fit for the user defaults. -/
def Storable (v : Json) : Prop := v = .null ∨ v.isPropertyList = true

/-- A value that a copied field ends up with a string for. -/
def Textual (v : Json) : Prop := v = .null ∨ v.isString = true

/-! ### Null filtering -/

/-- What `nullDicToDic:` makes of a value. -/
def unNull (v : Json) : Json := if v = .null then .str [] else v

theorem lookup_nullDicToDic (es : List (NSString × Json)) (desc key : NSString) :
    (nullDicToDic (some (.obj es desc))).lookup key = ((dictionary es).lookup key).map unNull :=
  lookup_dictionary_map unNull es key

theorem isPropertyList_unNull_iff {v : Json} : (unNull v).isPropertyList = true ↔ Storable v := by
  rw [unNull, Storable]
  split_ifs with hnull
  · simp [hnull, Json.isPropertyList]
  · simp [hnull]

theorem isString_unNull_iff {v : Json} :
    (emptyIfNil (some (unNull v))).isString = true ↔ Textual v := by
  rw [unNull, Textual]
  cases v <;> simp [emptyIfNil, Json.isString]

/-! ### The login -/

/-- The store takes the filtered result iff no null hides below its top level. -/
theorem setPersistent_nullDicToDic_iff {es : List (NSString × Json)} (desc : NSString) :
    (setPersistent (nullDicToDic (some (.obj es desc)))).isSome ↔
      ∀ key, ∀ v ∈ (dictionary es).lookup key, Storable v := by
  have hall : (nullDicToDic (some (.obj es desc))).all (fun _ v => v.isPropertyList) = true ↔
      ∀ key, ∀ v ∈ (dictionary es).lookup key, Storable v := by
    rw [dictionary_all_iff]
    refine forall_congr' fun key => ?_
    rw [lookup_nullDicToDic]
    simp only [Option.mem_map, forall_exists_index, and_imp, forall_apply_eq_imp_iff₂,
      isPropertyList_unNull_iff]
  rw [setPersistent, ← hall]
  split_ifs with hstored <;> simp [hstored]

/-- The model is made of strings iff each copied key is missing, null or a string. -/
theorem allStrings_nullDicToDic_iff {es : List (NSString × Json)} (desc : NSString) :
    (LoginModel.fields (some (nullDicToDic (some (.obj es desc))))).allStrings = true ↔
      ∀ key ∈ copiedKeys, ∀ v ∈ (dictionary es).lookup (ns key), Textual v := by
  have hfield : ∀ key : String,
      (emptyIfNil (NSDictionary.get? (some (nullDicToDic (some (.obj es desc)))) key)).isString =
        true ↔ ∀ v ∈ (dictionary es).lookup (ns key), Textual v := by
    intro key
    rw [NSDictionary.get?, Option.bind_some, lookup_nullDicToDic]
    cases (dictionary es).lookup (ns key) with
    | none => simp [emptyIfNil, Json.isString]
    | some v =>
      rw [Option.map_some, isString_unNull_iff]
      simp
  have htype : (LoginModel.fields
      (some (nullDicToDic (some (.obj es desc))))).accountType.isString = true := rfl
  rw [LoginModel.allStrings, htype]
  simp only [LoginModel.fields, Bool.true_and, Bool.and_eq_true, hfield]
  simp [copiedKeys, and_assoc]

/-- For every JSON object the server may return as the login result, the login survives a restart
    iff no value holds a null below the top level and each of the six copied keys is missing, null
    or a string. -/
theorem survives_restart_iff (es : List (NSString × Json)) (desc : NSString) :
    SurvivesRestart (.obj es desc) ↔
      (∀ key, ∀ v ∈ (dictionary es).lookup key, Storable v) ∧
        ∀ key ∈ copiedKeys, ∀ v ∈ (dictionary es).lookup (ns key), Textual v := by
  rw [← setPersistent_nullDicToDic_iff desc, ← allStrings_nullDicToDic_iff desc]
  constructor
  · rintro ⟨m, info, hlogin, hstrings, -⟩
    obtain ⟨stored, hstored, heq⟩ := Option.map_eq_some_iff.mp hlogin
    cases heq
    exact ⟨by rw [hstored]; rfl, hstrings⟩
  · rintro ⟨hstored, hstrings⟩
    obtain ⟨stored, hstored⟩ := Option.isSome_iff_exists.mp hstored
    have hsame : stored = nullDicToDic (some (.obj es desc)) := by
      rw [setPersistent] at hstored
      split_ifs at hstored
      cases hstored
      rfl
    refine ⟨_, some stored, ?_, hstrings, by rw [hsame]; rfl, by rw [hsame]; rfl⟩
    rw [loginSuccess, setLogonData, hstored]
    rfl

/-- A null inside a value of the result makes the login raise. -/
theorem nested_null_raises : ¬ ∀ (es : List (NSString × Json)) (desc : NSString),
    SurvivesRestart (.obj es desc) := by
  intro h
  obtain ⟨m, info, hlogin, -⟩ := h
    [(ns "token", .str (ns "T1")), (ns "profile", .obj [(ns "email", .null)] (ns "\x7b\x7d"))] []
  have hraises : loginSuccess (some (.obj [(ns "token", .str (ns "T1")),
      (ns "profile", .obj [(ns "email", .null)] (ns "\x7b\x7d"))] [])) = none := by
    decide +kernel
  rw [hraises] at hlogin
  cases hlogin

end LeYiDai
