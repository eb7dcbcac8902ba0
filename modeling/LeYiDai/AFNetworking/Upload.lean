import LeYiDai.AFNetworking.FormServer

/-! An upload, from the caller's parts to the server's fields. The system reads the body with
    buffers of its own, opens and closes it as it likes and takes a copy when the server wants the
    body again.

        parameters, parts ──▶ request ──▶ open, read, close, .. ──▶ bytes ──▶ fields
                                 └── copy, at any point ──▶ the same bytes -/

namespace LeYiDai.Multipart

open Failure (NSData)
open BodyStream (HandsOut machine)

/-- Streams that hand out all the room allows and know their end with the last byte. -/
def DataStreams.eager : DataStreams where
  count left n := min n left.length
  atEnd left n := decide (left.length ≤ n)
  count_le_length _ _ := Nat.min_le_right _ _
  count_le _ _ := Nat.min_le_left _ _
  count_pos _ _ hleft hn := Nat.lt_min.mpr ⟨hn, List.length_pos_iff.mpr hleft⟩
  whole_of_atEnd _ _ h := Nat.min_eq_right (of_decide_eq_true h)
  atEnd_of_empty _ _ := decide_eq_true (Nat.zero_le _)

/-- Keys in the order of the literal. -/
def KeyOrder.literal : KeyOrder where
  allKeys := id
  perm headers := .refl headers

variable (D : DataStreams) (K : KeyOrder) (compare : NSString → NSString → Bool) (r₁ r₂ : UInt32)
  (parameters : List (NSString × Json)) (xs : List Append) (packet : ℕ)

/-- The request of an upload whose block appends the given parts, throttled to a packet size. -/
def uploadRequest : MultipartRequest :=
  multipartFormRequest K compare (AFCreateMultipartFormBoundary r₁ r₂) parameters fun f =>
    (xs.foldl (fun f x => x.perform K f) f).throttleBandwidth packet

/-- What is appended in all. -/
def uploadAppends : List Append := parameterAppends compare parameters ++ xs

/-- The stream that an upload sends. -/
def uploadStream : BodyStream :=
  streamOf K (AFCreateMultipartFormBoundary r₁ r₂) packet (uploadAppends compare parameters xs)

variable {compare parameters xs}

/-- Parameters without nesting are appended one by one, in the order of their keys. -/
theorem parameterAppends_of_leaves (h : ∀ e ∈ parameters, QueryString.isLeaf e.2 = true) :
    parameterAppends compare parameters =
      (QueryString.sortedEntries compare parameters).filterMap fun e =>
        (parameterData e.2).map (.formData e.1) := by
  rw [parameterAppends, QueryString.pairs_of_leaves compare h, List.filterMap_map]
  rfl

theorem uploadRequest_eq (h : uploadAppends compare parameters xs ≠ []) :
    uploadRequest K compare r₁ r₂ parameters xs packet =
      { HTTPBodyStream := some (uploadStream K compare r₁ r₂ parameters xs packet)
        contentType := some (contentTypeOf (AFCreateMultipartFormBoundary r₁ r₂))
        contentLength :=
          some (uploadStream K compare r₁ r₂ parameters xs packet).contentLength } := by
  rw [uploadRequest, multipartFormRequest_eq, ← uploadAppends, if_neg h]
  rfl

theorem prepared_uploadStream :
    (uploadStream K compare r₁ r₂ parameters xs packet).Prepared := prepared_streamOf ..

/-- As many bytes come out as the length announces, whatever buffers they are read into and whatever
    the system did with the stream before. -/
theorem upload_delivered (h : uploadAppends compare parameters xs ≠ []) :
    ∃ stream bytes, uploadRequest K compare r₁ r₂ parameters xs packet =
        { HTTPBodyStream := some stream
          contentType := some (contentTypeOf (AFCreateMultipartFormBoundary r₁ r₂))
          contentLength := some bytes.length } ∧
      stream.HandsOut D bytes := by
  have hprepared : (uploadStream K compare r₁ r₂ parameters xs packet).Prepared :=
    prepared_uploadStream K r₁ r₂ packet
  refine ⟨_, _, ?_, hprepared.handsOut D⟩
  rw [uploadRequest_eq K r₁ r₂ packet h, hprepared.length_wire]

/-- A front picture of two bytes, read in packets of sixteen. -/
theorem upload_delivered_front : ∃ stream bytes,
    uploadRequest .literal (fun _ _ => true) 0 0 [(ns "userId", .str (ns "7"))]
        [.fileData (ns "front") (ns "front.jpg") (ns "image/jpg") [255, 216]] 16 =
      { HTTPBodyStream := some stream
        contentType := some (contentTypeOf (AFCreateMultipartFormBoundary 0 0))
        contentLength := some bytes.length } ∧
      stream.HandsOut .eager bytes :=
  upload_delivered .eager .literal 0 0 16 (by simp [uploadAppends])

/-- Whatever the system does with the stream, the server finds these fields exactly when the
    delimiter stands in none of their data. -/
def Received (D : DataStreams) (boundary : NSString) (request : MultipartRequest)
    (fields : List FormField) : Prop :=
  ∃ stream type bytes, request.HTTPBodyStream = some stream ∧ request.contentType = some type ∧
    request.contentLength = some bytes.length ∧ stream.HandsOut D bytes ∧
    (serverForm type bytes = some fields ↔ ∀ field ∈ fields, Clear boundary field.data)

theorem received_uploadRequest (h : uploadAppends compare parameters xs ≠ [])
    (hnamed : ∀ x ∈ uploadAppends compare parameters xs, x.Named) :
    Received D (AFCreateMultipartFormBoundary r₁ r₂)
      (uploadRequest K compare r₁ r₂ parameters xs packet)
      ((uploadAppends compare parameters xs).map Append.field) := by
  have hprepared : (uploadStream K compare r₁ r₂ parameters xs packet).Prepared :=
    prepared_uploadStream K r₁ r₂ packet
  rw [uploadRequest_eq K r₁ r₂ packet h, ← hprepared.length_wire]
  refine ⟨_, _, _, rfl, rfl, rfl, hprepared.handsOut D, ?_⟩
  rw [List.forall_mem_map]
  exact serverForm_wire_iff K packet (unbroken_boundary r₁ r₂) h hnamed

/-- Of an upload the server finds the parameters that have data and then the files, in the order in
    which they were appended, exactly when the delimiter stands in no data; nothing is sent when
    nothing was appended. -/
theorem server_reads_upload (hnamed : ∀ x ∈ uploadAppends compare parameters xs, x.Named) :
    let request := uploadRequest K compare r₁ r₂ parameters xs packet
    (request.HTTPBodyStream = none ↔ uploadAppends compare parameters xs = []) ∧
      ∀ stream ∈ request.HTTPBodyStream, ∃ type bytes, request.contentType = some type ∧
        stream.HandsOut D bytes ∧
        (serverForm type bytes = some ((uploadAppends compare parameters xs).map Append.field) ↔
          ∀ x ∈ uploadAppends compare parameters xs,
            Clear (AFCreateMultipartFormBoundary r₁ r₂) x.field.data) := by
  intro request
  by_cases h : uploadAppends compare parameters xs = []
  · have hnone : request.HTTPBodyStream = none := by
      subst request
      rw [uploadRequest, multipartFormRequest_eq, ← uploadAppends, if_pos h]
    rw [hnone]
    exact ⟨iff_of_true rfl h, fun _ hmem => nomatch hmem⟩
  · obtain ⟨stream, type, bytes, hstream, htype, -, hbytes, hfields⟩ :=
      received_uploadRequest D K r₁ r₂ packet h hnamed
    rw [List.forall_mem_map] at hfields
    have hsome : request.HTTPBodyStream = some stream := hstream
    rw [hsome]
    refine ⟨iff_of_false nofun h, fun other hother => ?_⟩
    cases hother
    exact ⟨type, bytes, htype, hbytes, hfields⟩

theorem server_reads_upload_front :
    let xs := [.fileData (ns "front") (ns "front.jpg") (ns "image/jpg") [255, 216]]
    let request := uploadRequest .literal (fun _ _ => true) 0 0 [] xs 16
    (request.HTTPBodyStream = none ↔ uploadAppends (fun _ _ => true) [] xs = []) ∧
      ∀ stream ∈ request.HTTPBodyStream, ∃ type bytes, request.contentType = some type ∧
        stream.HandsOut .eager bytes ∧
        (serverForm type bytes = some ((uploadAppends (fun _ _ => true) [] xs).map Append.field) ↔
          ∀ x ∈ uploadAppends (fun _ _ => true) [] xs,
            Clear (AFCreateMultipartFormBoundary 0 0) x.field.data) := by
  have hnone : parameterAppends (fun _ _ => true) [] = [] := by
    rw [parameterAppends_of_leaves (by simp), QueryString.sortedEntries, List.mergeSort_nil,
      List.filterMap_nil]
  have hquotable :
      Quotable (ns "front") ∧ Quotable (ns "front.jpg") ∧ Quotable (ns "image/jpg") := by
    decide
  refine server_reads_upload .eager .literal 0 0 16 fun x hx => ?_
  rw [uploadAppends, hnone] at hx
  rw [List.mem_singleton.mp hx]
  exact hquotable

/-- A copy taken at any point is the body of the same request without the throttling, and hands out
    the same bytes from the first on. -/
theorem upload_copied (h : uploadAppends compare parameters xs ≠ []) (es : List BodyStream.Event) :
    ∃ stream bytes t outs,
      (uploadRequest K compare r₁ r₂ parameters xs packet).HTTPBodyStream = some stream ∧
      stream.HandsOut D bytes ∧ (machine D).run stream es = some (t, outs) ∧
      (uploadRequest K compare r₁ r₂ parameters xs NSIntegerMax).HTTPBodyStream = some t.copy ∧
      t.copy.HandsOut D bytes := by
  have hprepared : (uploadStream K compare r₁ r₂ parameters xs packet).Prepared :=
    prepared_uploadStream K r₁ r₂ packet
  obtain ⟨t, outs, hrun, ht, -⟩ := hprepared.handled.run D es
  have hcopy : t.copy = uploadStream K compare r₁ r₂ parameters xs NSIntegerMax :=
    hprepared.copy_eq ht
  have hwire : t.copy.wire = (uploadStream K compare r₁ r₂ parameters xs packet).wire := by
    rw [hcopy]
    rfl
  refine ⟨_, _, t, outs, ?_, hprepared.handsOut D, hrun, ?_, ?_⟩
  · rw [uploadRequest_eq K r₁ r₂ packet h]
  · rw [uploadRequest_eq K r₁ r₂ NSIntegerMax h, hcopy]
  · rw [← hwire]
    rw [hcopy]
    exact (prepared_uploadStream K r₁ r₂ NSIntegerMax).handsOut D

theorem upload_copied_front : ∃ stream bytes t outs,
    (uploadRequest .literal (fun _ _ => true) 0 0 []
      [.fileData (ns "front") (ns "front.jpg") (ns "image/jpg") [255, 216]] 16).HTTPBodyStream =
        some stream ∧
      stream.HandsOut .eager bytes ∧
      (machine .eager).run stream [.opens, .read 100, .close] = some (t, outs) ∧
      (uploadRequest .literal (fun _ _ => true) 0 0 []
        [.fileData (ns "front") (ns "front.jpg") (ns "image/jpg") [255, 216]]
        NSIntegerMax).HTTPBodyStream = some t.copy ∧
      t.copy.HandsOut .eager bytes :=
  upload_copied .eager .literal 0 0 16 (by simp [uploadAppends]) _

/-! ### Parameters and pictures

The two uploads of the app: parameters without nesting, then pictures under names of their own. -/

/-- The field of a parameter, when it has data. -/
def parameterField (name : NSString) (value : Json) : Option FormField :=
  (parameterData value).map fun data => { name, fileName := none, contentType := none, data }

/-- The field of a picture. -/
def photoField (name : NSString) (data : NSData) : FormField :=
  { name, fileName := some (name ++ ns ".jpg"), contentType := some (ns "image/jpg"), data }

/-- The loop that appends pictures, each under the name of its place. -/
def photoAppends (name : ℕ → NSString) (arr : List NSData) : List Append :=
  arr.mapIdx fun i imageData =>
    .fileData (name i) (name i ++ ns ".jpg") (ns "image/jpg") imageData

/-- What a server should find. -/
def photoFields (compare : NSString → NSString → Bool) (parameters : List (NSString × Json))
    (name : ℕ → NSString) (arr : List NSData) : List FormField :=
  (QueryString.sortedEntries compare parameters).filterMap (fun e => parameterField e.1 e.2) ++
    arr.mapIdx fun i imageData => photoField (name i) imageData

variable {name : ℕ → NSString}

theorem Quotable.jpg {s : NSString} (h : Quotable s) : Quotable (s ++ ns ".jpg") := by
  have hjpg : 34 ∉ ns ".jpg" ∧ 13 ∉ ns ".jpg" := by decide
  refine ⟨isSome_characters_append h.1 (isSome_characters_ns _), ?_, ?_⟩
  · exact fun hmem => (List.mem_append.mp hmem).elim h.2.1 hjpg.1
  · exact fun hmem => (List.mem_append.mp hmem).elim h.2.2 hjpg.2

theorem map_field_photos (hleaf : ∀ e ∈ parameters, QueryString.isLeaf e.2 = true)
    (arr : List NSData) :
    (uploadAppends compare parameters (photoAppends name arr)).map Append.field =
      photoFields compare parameters name arr := by
  have hphotos : (photoAppends name arr).map Append.field =
      arr.mapIdx fun i imageData => photoField (name i) imageData := by
    refine List.ext_getElem? fun i => ?_
    rw [photoAppends, List.getElem?_map, List.getElem?_mapIdx, List.getElem?_mapIdx, Option.map_map]
    rfl
  have hparameters : (parameterAppends compare parameters).map Append.field =
      (QueryString.sortedEntries compare parameters).filterMap
        fun e => parameterField e.1 e.2 := by
    rw [parameterAppends_of_leaves hleaf, List.map_filterMap]
    refine List.filterMap_congr fun e _ => ?_
    rw [Option.map_map]
    rfl
  rw [uploadAppends, List.map_append, hparameters, hphotos, photoFields]

theorem named_photos (hleaf : ∀ e ∈ parameters, QueryString.isLeaf e.2 = true)
    (hparameters : ∀ e ∈ parameters, Quotable e.1) (hname : ∀ i, Quotable (name i))
    (arr : List NSData) :
    ∀ x ∈ uploadAppends compare parameters (photoAppends name arr), x.Named := by
  intro x hx
  rcases List.mem_append.mp hx with hx | hx
  · rw [parameterAppends_of_leaves hleaf] at hx
    obtain ⟨e, he, hmap⟩ := List.mem_filterMap.mp hx
    obtain ⟨data, -, rfl⟩ := Option.map_eq_some_iff.mp hmap
    exact hparameters e (QueryString.mem_sortedEntries.mp he)
  · obtain ⟨i, hi, rfl⟩ := List.mem_mapIdx.mp hx
    have htype : Quotable (ns "image/jpg") := by decide
    exact ⟨hname i, (hname i).jpg, htype⟩

/-- Of such an upload the server finds the parameters that have data and every picture, unless a
    picture or a parameter holds the delimiter. -/
theorem received_photos (hleaf : ∀ e ∈ parameters, QueryString.isLeaf e.2 = true)
    (hparameters : ∀ e ∈ parameters, Quotable e.1) (hname : ∀ i, Quotable (name i))
    {arr : List NSData} (hne : photoFields compare parameters name arr ≠ []) :
    Received D (AFCreateMultipartFormBoundary r₁ r₂)
      (uploadRequest K compare r₁ r₂ parameters (photoAppends name arr) packet)
      (photoFields compare parameters name arr) := by
  rw [← map_field_photos hleaf] at hne ⊢
  exact received_uploadRequest D K r₁ r₂ packet (fun hnil => hne (by rw [hnil, List.map_nil]))
    (named_photos hleaf hparameters hname arr)

end LeYiDai.Multipart
