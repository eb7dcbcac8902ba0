import LeYiDai.Foundation.Values

/-! LoginModel: the seven fields of the login, filled from a dictionary, kept in the user defaults
    under Login_info, and emptied at the end of a session. The fields are declared strings and hold
    whatever the server sent; only `accountType` goes through a format. -/

namespace LeYiDai

structure LoginModel where
  accountType : Json
  account : Json
  userId : Json
  userName : Json
  custId : Json
  custName : Json
  token : Json
  deriving DecidableEq

/-- `dic[key]` on a dictionary that may be `nil`. -/
def NSDictionary.get? (dic : Option NSDictionary) (key : String) : Option Json :=
  dic.bind fun d => d.lookup (ns key)

namespace LoginModel

/-- The field assignments that `initPDUserWithDic:` and `setLogonData:` both make. -/
def fields (dic : Option NSDictionary) : LoginModel where
  accountType := .str (fmt (some (emptyIfNil (NSDictionary.get? dic "accountType"))))
  account := emptyIfNil (NSDictionary.get? dic "account")
  userId := emptyIfNil (NSDictionary.get? dic "userId")
  userName := emptyIfNil (NSDictionary.get? dic "userName")
  custId := emptyIfNil (NSDictionary.get? dic "custId")
  custName := emptyIfNil (NSDictionary.get? dic "custName")
  token := emptyIfNil (NSDictionary.get? dic "token")

/-- `initPDUserWithDic:`, run by `init` on the stored Login_info. -/
def initPDUserWithDic (dic : Option NSDictionary) : LoginModel := fields dic

/-- The fields after `removeFromLocal`. -/
def removed : LoginModel where
  accountType := .str []
  account := .str []
  userId := .str []
  userName := .str []
  custId := .str []
  custName := .str []
  token := .str []

/-- `isLogin`: the token is not the empty string. `isEqualToString:` is understood by strings
    only, and no field is ever `nil` once it has been set. -/
def isLogin (m : LoginModel) : Option Bool :=
  match m.token with
  | .str t => some (t ≠ [])
  | _ => none

end LoginModel

mutual
/-- A value the user defaults can store: no `NSNull` at any depth. -/
def Json.isPropertyList : Json → Bool
  | .null => false
  | .str _ => true
  | .num _ _ => true
  | .arr xs _ => Json.allPropertyLists xs
  | .obj es _ => Json.allPropertyEntries es

def Json.allPropertyLists : List Json → Bool
  | [] => true
  | x :: xs => x.isPropertyList && Json.allPropertyLists xs

def Json.allPropertyEntries : List (NSString × Json) → Bool
  | [] => true
  | (_, x) :: xs => x.isPropertyList && Json.allPropertyEntries xs
end

/-- `setObject:forKey:` on the user defaults, which raises unless every value is a property list. -/
def setPersistent (dic : NSDictionary) : Option NSDictionary :=
  if dic.all fun _ v => v.isPropertyList then some dic else none

/-- `nullDicToDic:`: a copy of the dictionary with each top-level null replaced by the empty string;
    anything but a dictionary gives the empty one. -/
def nullDicToDic : Option Json → NSDictionary
  | some (.obj es _) =>
    dictionary (es.map fun p => (p.1, if p.2 = .null then .str [] else p.2))
  | _ => ∅

/-- `setLogonData:`: the model's fields and the stored Login_info. -/
def setLogonData (dic : NSDictionary) : Option (LoginModel × Option NSDictionary) :=
  (setPersistent dic).map fun stored => (LoginModel.fields (some dic), some stored)

/-- `removeFromLocal`: the emptied fields, and no stored Login_info. -/
def removeFromLocal : LoginModel × Option NSDictionary := (LoginModel.removed, none)

end LeYiDai
