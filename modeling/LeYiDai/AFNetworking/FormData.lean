import LeYiDai.AFNetworking.BodyStream
import LeYiDai.AFNetworking.QueryString

/-! AFStreamingMultipartFormData: an upload as a request. The parameters come first, then what the
    caller's block appends, each as a part of one body stream; the boundary stands in the content
    type. A form nothing was appended to leaves the request without a body.

        userId=7, front.jpg, back.jpg ──▶ --B.. userId  --B.. front  --B.. back  --B..-- -/

namespace LeYiDai.Multipart

open Failure (NSData)
open QueryString (AFQueryStringPairsFromDictionary AFQueryStringPair hexDigit)

/-! ### The form -/

/-- `%08X`. -/
def hex8 (n : UInt32) : NSString :=
  (List.range 8).map fun i => hexDigit (n.toNat / 16 ^ (7 - i) % 16)

/-- `AFCreateMultipartFormBoundary` on what `arc4random` returned. -/
def AFCreateMultipartFormBoundary (r₁ r₂ : UInt32) : NSString :=
  ns "Boundary+" ++ hex8 r₁ ++ hex8 r₂

/-- The order in which a dictionary gives its keys, which is the system's affair. -/
structure KeyOrder where
  allKeys : List (NSString × NSString) → List (NSString × NSString)
  perm : ∀ headers, (allKeys headers).Perm headers

structure AFStreamingMultipartFormData where
  boundary : NSString
  bodyStream : BodyStream

namespace AFStreamingMultipartFormData

/-- `initWithURLRequest:stringEncoding:`. -/
def init (boundary : NSString) : AFStreamingMultipartFormData :=
  { boundary, bodyStream := .init }

def appendPartWithHeaders (headers : List (NSString × NSString)) (body : NSData)
    (f : AFStreamingMultipartFormData) : AFStreamingMultipartFormData :=
  { f with bodyStream := f.bodyStream.appendHTTPBodyPart (.new headers f.boundary body) }

def appendPartWithFileData (K : KeyOrder) (data : NSData) (name fileName mimeType : NSString)
    (f : AFStreamingMultipartFormData) : AFStreamingMultipartFormData :=
  f.appendPartWithHeaders (K.allKeys
    [(ns "Content-Disposition",
        ns "form-data; name=\"" ++ name ++ ns "\"; filename=\"" ++ fileName ++ ns "\""),
      (ns "Content-Type", mimeType)]) data

def appendPartWithFormData (K : KeyOrder) (data : NSData) (name : NSString)
    (f : AFStreamingMultipartFormData) : AFStreamingMultipartFormData :=
  f.appendPartWithHeaders (K.allKeys
    [(ns "Content-Disposition", ns "form-data; name=\"" ++ name ++ ns "\"")]) data

/-- `throttleBandwidthWithPacketSize:delay:`, without the delay. -/
def throttleBandwidth (numberOfBytes : ℕ) (f : AFStreamingMultipartFormData) :
    AFStreamingMultipartFormData :=
  { f with bodyStream := { f.bodyStream with numberOfBytesInPacket := numberOfBytes } }

end AFStreamingMultipartFormData

/-- What a request has of the form: nothing when nothing was appended. -/
structure MultipartRequest where
  HTTPBodyStream : Option BodyStream
  contentType : Option NSString
  contentLength : Option ℕ

open AFStreamingMultipartFormData

def requestByFinalizingMultipartFormData (f : AFStreamingMultipartFormData) : MultipartRequest :=
  if f.bodyStream.isEmpty then
    { HTTPBodyStream := none, contentType := none, contentLength := none }
  else
    let stream := f.bodyStream.setInitialAndFinalBoundaries
    { HTTPBodyStream := some stream
      contentType := some (ns "multipart/form-data; boundary=" ++ f.boundary)
      contentLength := some stream.contentLength }

/-- The data of a parameter, nil when a surrogate stands alone in its description. -/
def parameterData (value : Json) : Option NSData :=
  if value = .null then some [] else dataUsingEncoding (fmt (some value))

/-- A parameter becomes a part when it has data. -/
def appendParameter (K : KeyOrder) (f : AFStreamingMultipartFormData) (pair : AFQueryStringPair) :
    AFStreamingMultipartFormData :=
  match parameterData pair.value with
  | some data => f.appendPartWithFormData K data (fmtStr pair.field)
  | none => f

/-- `multipartFormRequestWithMethod:URLString:parameters:constructingBodyWithBlock:error:`. -/
def multipartFormRequest (K : KeyOrder) (compare : NSString → NSString → Bool)
    (boundary : NSString) (parameters : List (NSString × Json))
    (block : AFStreamingMultipartFormData → AFStreamingMultipartFormData) : MultipartRequest :=
  requestByFinalizingMultipartFormData (block
    ((AFQueryStringPairsFromDictionary compare parameters).foldl (appendParameter K)
      (init boundary)))

/-! ### What is appended -/

/-- A field of a form: the name, the file name and the type of a file, and the data. -/
structure FormField where
  name : NSString
  fileName : Option NSString
  contentType : Option NSString
  data : NSData
  deriving DecidableEq

/-- One call of the caller's, or one parameter. -/
inductive Append where
  | formData (name : NSString) (data : NSData)
  | fileData (name fileName mimeType : NSString) (data : NSData)

namespace Append

def perform (K : KeyOrder) (f : AFStreamingMultipartFormData) :
    Append → AFStreamingMultipartFormData
  | formData name data => f.appendPartWithFormData K data name
  | fileData name fileName mimeType data => f.appendPartWithFileData K data name fileName mimeType

/-- The field the server should find. -/
def field : Append → FormField
  | formData name data => { name, fileName := none, contentType := none, data }
  | fileData name fileName mimeType data =>
    { name, fileName := some fileName, contentType := some mimeType, data }

end Append

/-- A string that may stand in a header: no surrogate alone, no quote and no line break. -/
def Quotable (s : NSString) : Prop := (characters s).isSome ∧ 34 ∉ s ∧ 13 ∉ s

instance (s : NSString) : Decidable (Quotable s) := inferInstanceAs (Decidable (_ ∧ _ ∧ _))

namespace Append

def Named : Append → Prop
  | formData name _ => Quotable name
  | fileData name fileName mimeType _ => Quotable name ∧ Quotable fileName ∧ Quotable mimeType

/-- The headers of the part. -/
def headers : Append → List (NSString × NSString)
  | formData name _ => [(ns "Content-Disposition", ns "form-data; name=\"" ++ name ++ ns "\"")]
  | fileData name fileName mimeType _ =>
    [(ns "Content-Disposition",
        ns "form-data; name=\"" ++ name ++ ns "\"; filename=\"" ++ fileName ++ ns "\""),
      (ns "Content-Type", mimeType)]

theorem perform_eq (K : KeyOrder) (f : AFStreamingMultipartFormData) (x : Append) :
    x.perform K f = f.appendPartWithHeaders (K.allKeys x.headers) x.field.data := by
  cases x <;> rfl

end Append

/-! ### Bytes of strings -/

variable {s t : NSString} {K : KeyOrder} {x : Append}

theorem dataOf_append (hs : (characters s).isSome) (ht : (characters t).isSome) :
    dataOf (s ++ t) = dataOf s ++ dataOf t := by
  obtain ⟨cs, hcs⟩ := Option.isSome_iff_exists.mp hs
  obtain ⟨ds, hds⟩ := Option.isSome_iff_exists.mp ht
  rw [dataOf, dataOf, dataOf, dataUsingEncoding, dataUsingEncoding, dataUsingEncoding,
    characters_append hcs hds, hcs, hds]
  exact utf8_append cs ds

theorem isSome_characters_append (hs : (characters s).isSome) (ht : (characters t).isSome) :
    (characters (s ++ t)).isSome := by
  obtain ⟨cs, hcs⟩ := Option.isSome_iff_exists.mp hs
  obtain ⟨ds, hds⟩ := Option.isSome_iff_exists.mp ht
  rw [characters_append hcs hds]
  rfl

@[simp] theorem isSome_characters_ns (s : String) : (characters (ns s)).isSome := by
  rw [characters_ns]
  rfl

theorem stringWithData_dataOf (h : (characters s).isSome) : stringWithData (dataOf s) = some s := by
  obtain ⟨cs, hcs⟩ := Option.isSome_iff_exists.mp h
  have hdata : dataUsingEncoding s = some (utf8 cs) := by
    rw [dataUsingEncoding, hcs, Option.map_some]
  rw [dataOf, hdata]
  exact stringWithData_of_dataUsingEncoding hdata

theorem dataOf_inj (hs : (characters s).isSome) (ht : (characters t).isSome) :
    dataOf s = dataOf t ↔ s = t := by
  constructor
  · intro h
    have hboth := congrArg stringWithData h
    rw [stringWithData_dataOf hs, stringWithData_dataOf ht] at hboth
    exact Option.some.inj hboth
  · rintro rfl
    rfl

theorem not_mem_dataOf {b : UInt8} (hb : b.toNat < 128) (h : UInt16.ofNat b.toNat ∉ s) :
    b ∉ dataOf s := by
  rw [dataOf]
  cases hdata : dataUsingEncoding s with
  | none => exact List.not_mem_nil
  | some d => exact fun hmem => h (exists_unit_of_mem hdata hb hmem)

end LeYiDai.Multipart
