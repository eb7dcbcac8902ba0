import LeYiDai.Foundation.Values
import Mathlib.Tactic.Common

/-! The message of a failed request: AFURLResponseSerialization, which makes an error of a response,
    and the failure blocks of RequestAPI, which look at its code alone.

        status      content type     body         code
        any         acceptable       no JSON       3840    ──▶ the server message
        not 2xx     any              otherwise    -1011    ──▶ the network message
        2xx         unacceptable     not empty    -1016    ──▶ the network message
        transport error                           negative ──▶ the network message

    A failed status never shows in the code, so the server is blamed for a body that is no JSON
    only. -/

namespace LeYiDai.Failure

/-! ### Errors -/

/-- An `NSError`; the second has an underlying error in its `userInfo`. -/
inductive NSError where
  | error (domain : NSString) (code : ℤ)
  | wrapping (domain : NSString) (code : ℤ) (underlyingError : NSError)

namespace NSError

def domain : NSError → NSString
  | error d _ => d
  | wrapping d _ _ => d

def code : NSError → ℤ
  | error _ c => c
  | wrapping _ c _ => c

/-- The same error with `u` in its `userInfo`, unless one is there. -/
def wrap : NSError → NSError → NSError
  | error d c, u => wrapping d c u
  | wrapping d c u', _ => wrapping d c u'

theorem code_wrap (e u : NSError) : (e.wrap u).code = e.code := by cases e <;> rfl

end NSError

def NSCocoaErrorDomain : NSString := ns "NSCocoaErrorDomain"

def NSURLErrorDomain : NSString := ns "NSURLErrorDomain"

def AFURLResponseSerializationErrorDomain : NSString :=
  ns "com.alamofire.error.serialization.response"

def NSPropertyListReadCorruptError : ℤ := 3840

def NSURLErrorBadServerResponse : ℤ := -1011

def NSURLErrorCannotDecodeContentData : ℤ := -1016

def AFErrorWithUnderlyingError (error underlyingError : Option NSError) : Option NSError :=
  match error, underlyingError with
  | none, u => u
  | some e, none => some e
  | some e, some u => some (e.wrap u)

def AFErrorOrUnderlyingErrorHasCodeInDomain (code : ℤ) (domain : NSString) : NSError → Bool
  | .error d c => d = domain && c = code
  | .wrapping d c u => d = domain && c = code ||
      AFErrorOrUnderlyingErrorHasCodeInDomain code domain u

/-! ### The serializer -/

abbrev NSData := List UInt8

/-- A response to a request: it always has the URL it came from. -/
structure HTTPURLResponse where
  statusCode : ℤ
  MIMEType : Option NSString
  deriving DecidableEq

/-- `JSONObjectWithData:options:error:` with no options. What it cannot read it reports as a corrupt
    property list. -/
structure JSONSerialization where
  JSONObjectWithData : NSData → Except NSError Json
  corrupt : ∀ data e, JSONObjectWithData data = .error e →
    e.domain = NSCocoaErrorDomain ∧ e.code = NSPropertyListReadCorruptError

/-- The status codes from 200 to 299. -/
def AcceptableStatus (r : HTTPURLResponse) : Prop := 200 ≤ r.statusCode ∧ r.statusCode < 300

instance (r : HTTPURLResponse) : Decidable (AcceptableStatus r) :=
  inferInstanceAs (Decidable (_ ∧ _))

/-- The `acceptableContentTypes` that `sessionManager` sets. -/
def acceptableContentTypes : List NSString := [ns "application/json", ns "text/html"]

/-- The content type is in the set, or there is neither a type nor a body. -/
def AcceptableContent (r : HTTPURLResponse) (data : NSData) : Prop :=
  (∃ type ∈ r.MIMEType, type ∈ acceptableContentTypes) ∨ (r.MIMEType = none ∧ data = [])

instance (r : HTTPURLResponse) (data : NSData) : Decidable (AcceptableContent r data) :=
  inferInstanceAs (Decidable ((∃ type ∈ r.MIMEType, type ∈ acceptableContentTypes) ∨ _))

/-- `validateResponse:data:error:`: whether the response is valid, and the error when it is not. -/
def validateResponse (r : HTTPURLResponse) (data : NSData) : Bool × Option NSError :=
  let contentError : Option NSError :=
    if ¬AcceptableContent r data ∧ data ≠ [] then
      AFErrorWithUnderlyingError (some (.error AFURLResponseSerializationErrorDomain
        NSURLErrorCannotDecodeContentData)) none
    else none
  let validationError : Option NSError :=
    if ¬AcceptableStatus r then
      AFErrorWithUnderlyingError (some (.error AFURLResponseSerializationErrorDomain
        NSURLErrorBadServerResponse)) contentError
    else contentError
  (AcceptableContent r data ∧ AcceptableStatus r, validationError)

/-- One space. -/
def space : NSData := [32]

/-- `responseObjectForResponse:data:error:` of AFJSONResponseSerializer. -/
def responseObjectForResponse (J : JSONSerialization) (r : HTTPURLResponse) (data : NSData) :
    Option Json × Option NSError :=
  let (responseIsValid, error) := validateResponse r data
  if !responseIsValid && error.any (AFErrorOrUnderlyingErrorHasCodeInDomain
      NSURLErrorCannotDecodeContentData AFURLResponseSerializationErrorDomain) then
    (none, error)
  else if data = [] ∨ data = space then (none, error)
  else
    match J.JSONObjectWithData data with
    | .error serializationError =>
      (none, AFErrorWithUnderlyingError (some serializationError) error)
    | .ok responseObject => (some responseObject, error)

/-! ### The request -/

/-- An error of the transport has a negative code. -/
structure TransportError where
  code : ℤ
  negative : code < 0

/-- How a task completes: with a response and its body, or with an error of the transport. -/
inductive Completion where
  | response (r : HTTPURLResponse) (data : NSData)
  | transport (e : TransportError)

/-- `URLSession:task:didCompleteWithError:`, up to the completion handler. -/
def didComplete (J : JSONSerialization) : Completion → Option Json × Option NSError
  | .transport e => (none, some (.error NSURLErrorDomain e.code))
  | .response r data => responseObjectForResponse J r data

/-- The error the failure block runs with; the success block runs where there is none. -/
def failure (J : JSONSerialization) (x : Completion) : Option NSError := (didComplete J x).2

def serverFailed : NSString := ns "不好意思，服务器走神了，请稍后再试"

def checkNetwork : NSString := ns "网络链接失败，请检查网络设置"

/-- What the failure blocks of `POST` and `GET` tell the user. -/
def failureMessage (error : NSError) : NSString :=
  if 500 ≤ error.code then serverFailed else checkNetwork

/-! ### What the message should say -/

/-- The server answered with a status of 500 or above. -/
def ServerFailure : Completion → Prop
  | .response r _ => 500 ≤ r.statusCode
  | .transport _ => False

/-- No answer was received. -/
def NoAnswer : Completion → Prop
  | .response _ _ => False
  | .transport _ => True

/-- The message blames the server exactly for its failures and the network exactly where no answer
    came. -/
def Apt (x : Completion) (message : NSString) : Prop :=
  (message = serverFailed ↔ ServerFailure x) ∧ (message = checkNetwork ↔ NoAnswer x)

/-- The body is not empty, not a single space, and no JSON. -/
def Garbled (J : JSONSerialization) (data : NSData) : Prop :=
  data ≠ [] ∧ data ≠ space ∧ (J.JSONObjectWithData data).toOption = none

instance (J : JSONSerialization) (data : NSData) : Decidable (Garbled J data) :=
  inferInstanceAs (Decidable (_ ∧ _ ∧ _))

/-- The transport failed, or the server did and sent a body of an acceptable type that is no
    JSON. -/
def Telling (J : JSONSerialization) : Completion → Prop
  | .response r data => 500 ≤ r.statusCode ∧ AcceptableContent r data ∧ Garbled J data
  | .transport _ => True

instance (J : JSONSerialization) : (x : Completion) → Decidable (Telling J x)
  | .response _ _ => inferInstanceAs (Decidable (_ ∧ _ ∧ _))
  | .transport _ => .isTrue trivial

/-! ### Codes -/

variable {J : JSONSerialization} {r : HTTPURLResponse} {data : NSData} {x : Completion}

/-- The code of the validation error is that of the status where the status is bad. -/
theorem validateResponse_code : (validateResponse r data).2.map NSError.code =
    if ¬AcceptableStatus r then some (-1011)
    else if ¬AcceptableContent r data ∧ data ≠ [] then some (-1016)
    else none := by
  simp only [validateResponse]
  split_ifs <;> rfl

/-- The error of the content type is found in the validation error, below that of the status. -/
theorem validateResponse_content :
    (validateResponse r data).2.any (AFErrorOrUnderlyingErrorHasCodeInDomain
      NSURLErrorCannotDecodeContentData AFURLResponseSerializationErrorDomain) =
      decide (¬AcceptableContent r data ∧ data ≠ []) := by
  have hcodes : NSURLErrorBadServerResponse ≠ NSURLErrorCannotDecodeContentData := by decide
  simp only [validateResponse]
  by_cases hcontent : ¬AcceptableContent r data ∧ data ≠ []
  · rw [if_pos hcontent, decide_eq_true hcontent]
    split_ifs
    · simp [AFErrorWithUnderlyingError, AFErrorOrUnderlyingErrorHasCodeInDomain]
    · simp [AFErrorWithUnderlyingError, NSError.wrap, AFErrorOrUnderlyingErrorHasCodeInDomain]
  · rw [if_neg hcontent, decide_eq_false hcontent]
    split_ifs
    · rfl
    · simp [AFErrorWithUnderlyingError, AFErrorOrUnderlyingErrorHasCodeInDomain, hcodes]

/-- An error of the parser comes out with its own code. -/
theorem AFErrorWithUnderlyingError_code (e : NSError) (u : Option NSError) :
    (AFErrorWithUnderlyingError (some e) u).map NSError.code = some e.code := by
  cases u with
  | none => rfl
  | some u => exact congrArg some (NSError.code_wrap e u)

/-- The code of the error a response is given: that of the parser where the body is read and is no
    JSON, that of the validation otherwise. -/
theorem responseObject_code : (responseObjectForResponse J r data).2.map NSError.code =
    if AcceptableContent r data ∧ Garbled J data then some 3840
    else (validateResponse r data).2.map NSError.code := by
  simp only [responseObjectForResponse, validateResponse_content]
  by_cases hcontent : ¬AcceptableContent r data ∧ data ≠ []
  · have hinvalid : (validateResponse r data).1 = false := by
      simp [validateResponse, hcontent.1]
    rw [if_pos (by simp [hinvalid, hcontent]), if_neg fun h => hcontent.1 h.1]
  · rw [if_neg (by simp [hcontent])]
    by_cases hempty : data = [] ∨ data = space
    · have hread : ¬Garbled J data := fun h => hempty.elim h.1 h.2.1
      rw [if_pos hempty, if_neg fun h => hread h.2]
    · obtain ⟨hnil, hspace⟩ := not_or.mp hempty
      have haccept : AcceptableContent r data := by
        by_contra h
        exact hcontent ⟨h, hnil⟩
      rw [if_neg hempty]
      cases hjson : J.JSONObjectWithData data with
      | error e =>
        rw [if_pos ⟨haccept, hnil, hspace, by rw [hjson]; rfl⟩]
        exact (AFErrorWithUnderlyingError_code e _).trans (congrArg some (J.corrupt data e hjson).2)
      | ok o =>
        have hread : ¬Garbled J data := by
          rintro ⟨-, -, h⟩
          rw [hjson] at h
          cases h
        rw [if_neg fun h => hread h.2]

/-! ### Messages -/

theorem serverFailed_ne_checkNetwork : serverFailed ≠ checkNetwork := by decide

theorem failureMessage_server_iff (e : NSError) :
    failureMessage e = serverFailed ↔ 500 ≤ e.code := by
  rw [failureMessage]
  split_ifs with h
  · exact iff_of_true rfl h
  · exact iff_of_false serverFailed_ne_checkNetwork.symm h

theorem failureMessage_network_iff (e : NSError) :
    failureMessage e = checkNetwork ↔ e.code < 500 := by
  rw [failureMessage]
  split_ifs with h
  · exact iff_of_false serverFailed_ne_checkNetwork (by omega)
  · exact iff_of_true rfl (by omega)

/-- The code of a response's error reaches 500 iff the body was read and is no JSON. -/
theorem code_of_response {e : NSError} (h : (responseObjectForResponse J r data).2 = some e) :
    500 ≤ e.code ↔ AcceptableContent r data ∧ Garbled J data := by
  have hcode : (responseObjectForResponse J r data).2.map NSError.code = _ := responseObject_code
  rw [h, Option.map_some, validateResponse_code] at hcode
  split_ifs at hcode with hread hstatus hcontent
  · exact iff_of_true (by simp_all) hread
  · exact iff_of_false (by simp_all) hread
  · exact iff_of_false (by simp_all) hread

/-- The failure block tells the truth iff the transport failed, or the server did with a body of an
    acceptable type that is no JSON. -/
theorem failureMessage_apt_iff (J : JSONSerialization) (x : Completion) (e : NSError)
    (h : failure J x = some e) : Apt x (failureMessage e) ↔ Telling J x := by
  rw [Apt, failureMessage_server_iff, failureMessage_network_iff]
  cases x with
  | transport t =>
    have hneg : e.code < 0 := by
      obtain rfl : NSError.error NSURLErrorDomain t.code = e := Option.some.inj h
      exact t.negative
    exact iff_of_true ⟨iff_of_false (by omega) id, iff_of_true (by omega) trivial⟩ trivial
  | response r data =>
    have hcode := code_of_response h
    constructor
    · rintro ⟨hserver, hnetwork⟩
      have hlarge : 500 ≤ e.code := by
        by_contra hsmall
        exact hnetwork.mp (by omega)
      exact ⟨hserver.mp hlarge, hcode.mp hlarge⟩
    · rintro ⟨hstatus, hread⟩
      have hlarge := hcode.mpr hread
      exact ⟨iff_of_true hlarge hstatus, iff_of_false (by omega) id⟩

/-! ### A parser that knows the empty object -/

/-- It reads `{}` and nothing else. -/
def emptyObjectOnly : JSONSerialization where
  JSONObjectWithData data :=
    if data = [123, 125] then .ok (.obj [] (ns "{}"))
    else .error (.error NSCocoaErrorDomain NSPropertyListReadCorruptError)
  corrupt data e h := by
    split_ifs at h
    cases h
    exact ⟨rfl, rfl⟩

/-- A gateway's 502 page, sent as `text/html`, and a phone that is offline. -/
theorem failureMessage_apt_badGateway :
    Apt (.response ⟨502, some (ns "text/html")⟩ [60, 112, 62])
        (failureMessage ((NSError.error NSCocoaErrorDomain NSPropertyListReadCorruptError).wrap
          (.error AFURLResponseSerializationErrorDomain NSURLErrorBadServerResponse))) ∧
      Apt (.transport { code := -1009, negative := by decide })
        (failureMessage (.error NSURLErrorDomain (-1009))) :=
  ⟨(failureMessage_apt_iff emptyObjectOnly _ _ rfl).mpr (by decide),
    (failureMessage_apt_iff emptyObjectOnly _ _ rfl).mpr (by decide)⟩

/-- The server answers 500 with an empty object: the user is sent to the network settings. And a
    page that is no JSON is the server's failure even with status 200. -/
theorem server_failure_blames_network :
    (∃ e, failure emptyObjectOnly (.response ⟨500, some (ns "application/json")⟩ [123, 125]) =
        some e ∧ failureMessage e = checkNetwork ∧
        ¬Apt (.response ⟨500, some (ns "application/json")⟩ [123, 125]) (failureMessage e)) ∧
    ∃ e, failure emptyObjectOnly (.response ⟨200, some (ns "text/html")⟩ [60, 112, 62]) = some e ∧
        failureMessage e = serverFailed ∧
        ¬Apt (.response ⟨200, some (ns "text/html")⟩ [60, 112, 62]) (failureMessage e) := by
  refine ⟨⟨_, rfl, rfl, ?_⟩, ⟨_, rfl, rfl, ?_⟩⟩
  · rintro ⟨-, hnetwork⟩
    exact hnetwork.mp rfl
  · rintro ⟨hserver, -⟩
    have hstatus : (500 : ℤ) ≤ 200 := hserver.mp rfl
    omega

end LeYiDai.Failure
