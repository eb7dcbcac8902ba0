import LeYiDai.AFNetworking.FormData
import LeYiDai.Lib.Delimiter

/-! The server's side of an upload: how a form is taken apart again. The body is divided at the
    delimiters, a piece is header lines up to an empty one and the data behind it, and the
    disposition tells the name and the file name. The fields come back exactly when the delimiter
    stands in none of the data, which its two random numbers make likely and nothing makes certain.

        --B..  name="front"; filename="front.jpg"  data  --B..  ..  --B..-- ──▶ front, .. -/

namespace LeYiDai.Multipart

open Failure (NSData)
open QueryString (AFQueryStringPairsFromDictionary AFQueryStringPair hexDigit)

/-! ### Taking a form apart -/

def crlf : Delimiter UInt8 where
  head := 13
  tail := [10]
  head_notMem := by decide

/-- A line break, two dashes and the boundary. -/
def dashBoundary (boundary : NSData) (h : 13 ∉ boundary) : Delimiter UInt8 where
  head := 13
  tail := 10 :: 45 :: 45 :: boundary
  head_notMem := by simpa using h

/-- The header lines up to an empty line, and what follows it. -/
def headerLines (d : NSData) : Option (List NSData × NSData) :=
  match _h : crlf.cut d with
  | none => none
  | some ([], body) => some ([], body)
  | some (a :: line, rest) => (headerLines rest).map fun p => ((a :: line) :: p.1, p.2)
termination_by d.length
decreasing_by
  rw [(Delimiter.of_cut_eq_some _h).1]
  simp only [List.length_append, List.length_cons]
  omega

/-- `: `. -/
def colon : Delimiter UInt8 where
  head := 58
  tail := [32]
  head_notMem := by decide

def quote : Delimiter UInt8 where
  head := 34
  tail := []
  head_notMem := by decide

/-- The value of the header that is wanted. -/
def headerValue (field : NSString) (lines : List NSData) : Option NSData :=
  lines.findSome? fun line =>
    match colon.cut line with
    | some (name, value) => if name = dataOf field then some value else none
    | none => none

/-- `form-data; name="` in front, then a name, and a file name when more follows. -/
def disposition (value : NSData) : Option (NSString × Option NSString) :=
  if dataOf (ns "form-data; name=\"") <+: value then
    (quote.cut (value.drop (dataOf (ns "form-data; name=\"")).length)).bind fun (name, rest) =>
      (stringWithData name).bind fun name =>
        if rest = [] then some (name, none)
        else if dataOf (ns "; filename=\"") <+: rest then
          (quote.cut (rest.drop (dataOf (ns "; filename=\"")).length)).bind fun (fileName, _) =>
            (stringWithData fileName).map fun fileName => (name, some fileName)
        else none
  else none

/-- The field of a part that begins after a boundary. -/
def readPart (part : NSData) : Option FormField :=
  match crlf.cut part with
  | some ([], rest) =>
    (headerLines rest).bind fun (lines, data) =>
      ((headerValue (ns "Content-Disposition") lines).bind disposition).bind
        fun (name, fileName) =>
          match headerValue (ns "Content-Type") lines with
          | none => some { name, fileName, contentType := none, data }
          | some type =>
            (stringWithData type).map fun type => { name, fileName, contentType := some type, data }
  | _ => none

/-- The fields up to the boundary that two dashes follow. -/
def readParts : List NSData → Option (List FormField)
  | [] => none
  | part :: parts =>
    if [45, 45] <+: part then some []
    else (readPart part).bind fun field => (readParts parts).map (field :: ·)

/-- The body of a form with the given boundary; a line break is thought in front of it. -/
def readBody (boundary : NSData) (body : NSData) : Option (List FormField) :=
  if h : 13 ∈ boundary then none
  else readParts ((dashBoundary boundary h).pieces (crlf.toList ++ body)).tail

/-- `boundary=`. -/
def boundaryMark : Delimiter unichar where
  head := 98
  tail := ns "oundary="
  head_notMem := by decide

/-- A form by its content type and its body. -/
def serverForm (contentType : NSString) (body : NSData) : Option (List FormField) :=
  match boundaryMark.cut contentType with
  | some (_, boundary) => readBody (dataOf boundary) body
  | none => none

variable {K : KeyOrder} {x : Append}

/-! ### Header lines -/

/-- A header as it stands in a part. -/
def lineData (h : NSString × NSString) : NSData := dataOf h.1 ++ (colon.toList ++ dataOf h.2)

/-- A header whose line the server can read. -/
structure Readable (h : NSString × NSString) : Prop where
  field : (characters h.1).isSome
  value : (characters h.2).isSome
  no_colon : 58 ∉ dataOf h.1
  no_break : 13 ∉ lineData h
  no_dash : (lineData h).head? ≠ some 45

theorem headersData_eq {p : BodyPart} (h : ∀ header ∈ p.headers, Readable header) :
    p.headersData = p.headers.flatMap (fun header => lineData header ++ crlf.toList) ++
      crlf.toList := by
  have hbreak : dataOf kAFMultipartFormCRLF = crlf.toList := rfl
  have hcolon : dataOf (ns ": ") = colon.toList := rfl
  suffices hall : ∀ headers : List (NSString × NSString), (∀ header ∈ headers, Readable header) →
      (characters (headers.flatMap fun h => h.1 ++ ns ": " ++ h.2 ++ kAFMultipartFormCRLF)).isSome ∧
        dataOf (headers.flatMap fun h => h.1 ++ ns ": " ++ h.2 ++ kAFMultipartFormCRLF) =
          headers.flatMap fun header => lineData header ++ crlf.toList by
    obtain ⟨hsome, hdata⟩ := hall p.headers h
    rw [BodyPart.headersData, BodyPart.stringForHeaders, dataOf_append hsome (by decide), hdata,
      hbreak]
  intro headers
  induction headers with
  | nil => exact fun _ => ⟨rfl, rfl⟩
  | cons header headers ih =>
    intro hreadable
    obtain ⟨hfield, hvalue, -⟩ := hreadable header List.mem_cons_self
    obtain ⟨hsome, hdata⟩ := ih fun h' hh => hreadable h' (List.mem_cons_of_mem _ hh)
    have hname := isSome_characters_append hfield (isSome_characters_ns ": ")
    have hline := isSome_characters_append hname hvalue
    have hwhole : (characters (header.1 ++ ns ": " ++ header.2 ++ kAFMultipartFormCRLF)).isSome :=
      isSome_characters_append hline (isSome_characters_ns _)
    refine ⟨isSome_characters_append hwhole hsome, ?_⟩
    rw [List.flatMap_cons, List.flatMap_cons, dataOf_append hwhole hsome, hdata,
      dataOf_append hline (by decide), dataOf_append hname hvalue,
      dataOf_append hfield (by decide), hbreak, hcolon, lineData,
      List.append_assoc (dataOf header.1)]

theorem headerLines_of_nil {d body : NSData} (h : crlf.cut d = some ([], body)) :
    headerLines d = some ([], body) := by
  rw [headerLines]
  split <;> rename_i h' <;> rw [h] at h' <;> cases h'
  rfl

theorem headerLines_of_cons {d line rest : NSData} (hline : line ≠ [])
    (h : crlf.cut d = some (line, rest)) :
    headerLines d = (headerLines rest).map fun p => (line :: p.1, p.2) := by
  rw [headerLines]
  split <;> rename_i h' <;> rw [h] at h' <;> cases h'
  · exact absurd rfl hline
  · rfl

theorem headerLines_eq_some {d : NSData} : ∀ {lines : List NSData} {body : NSData},
    headerLines d = some (lines, body) → (crlf.toList ++ body) <:+ d := by
  induction hn : d.length using Nat.strong_induction_on generalizing d with
  | _ n ih =>
    intro lines body h
    cases hcut : crlf.cut d with
    | none =>
      rw [headerLines] at h
      split at h <;> rename_i h' <;> rw [hcut] at h' <;> cases h'
      cases h
    | some p =>
      obtain ⟨line, rest⟩ := p
      obtain ⟨hd, -⟩ := Delimiter.of_cut_eq_some hcut
      rcases eq_or_ne line [] with rfl | hline
      · rw [headerLines_of_nil hcut] at h
        cases h
        exact ⟨[], hd.symm⟩
      · rw [headerLines_of_cons hline hcut] at h
        obtain ⟨⟨ls, b⟩, hrest, heq⟩ := Option.map_eq_some_iff.mp h
        cases heq
        have hless : rest.length < n := by
          rw [← hn, hd]
          simp only [List.length_append, Delimiter.toList, List.length_cons]
          omega
        have hsuffix := ih rest.length hless rfl hrest
        rw [hd, ← List.append_assoc]
        exact hsuffix.trans (List.suffix_append _ _)

theorem lineData_ne_nil (h : NSString × NSString) : lineData h ≠ [] := by
  rw [lineData, colon, Delimiter.toList]
  simp

theorem crlf_absent {d : NSData} (h : 13 ∉ d) : ¬crlf.toList <:+: d := fun hin =>
  h (hin.subset List.mem_cons_self)

/-- The lines of a part's headers, and the data behind the empty line. -/
theorem headerLines_headers {headers : List (NSString × NSString)} (body : NSData)
    (h : ∀ header ∈ headers, Readable header) :
    headerLines (headers.flatMap (fun header => lineData header ++ crlf.toList) ++
      (crlf.toList ++ body)) = some (headers.map lineData, body) := by
  induction headers with
  | nil => exact headerLines_of_nil (Delimiter.cut_append (crlf_absent List.not_mem_nil) body)
  | cons header headers ih =>
    have hreadable := h header List.mem_cons_self
    rw [List.flatMap_cons, List.append_assoc, List.append_assoc,
      headerLines_of_cons (lineData_ne_nil header)
        (Delimiter.cut_append (crlf_absent hreadable.no_break) _),
      ih fun h' hh => h h' (List.mem_cons_of_mem _ hh), Option.map_some, List.map_cons]

/-- The value of a header that no other header shares its name with. -/
theorem headerValue_eq {headers : List (NSString × NSString)} {field value : NSString}
    (hfield : (characters field).isSome) (hreadable : ∀ header ∈ headers, Readable header)
    (hmem : (field, value) ∈ headers)
    (honly : ∀ header ∈ headers, header.1 = field → header.2 = value) :
    headerValue field (headers.map lineData) = some (dataOf value) := by
  induction headers with
  | nil => cases hmem
  | cons header headers ih =>
    have hhead := hreadable header List.mem_cons_self
    have hcut : colon.cut (lineData header) = some (dataOf header.1, dataOf header.2) :=
      Delimiter.cut_append (fun hin => hhead.no_colon (hin.subset List.mem_cons_self)) _
    rw [headerValue, List.map_cons, List.findSome?_cons, hcut]
    dsimp only
    by_cases hname : header.1 = field
    · rw [if_pos (by rw [hname]), honly header List.mem_cons_self hname]
    · rw [if_neg fun heq => hname ((dataOf_inj hhead.field hfield).mp heq)]
      refine ih (fun h hh => hreadable h (List.mem_cons_of_mem _ hh)) ?_
        fun h hh => honly h (List.mem_cons_of_mem _ hh)
      rcases List.mem_cons.mp hmem with rfl | hmem
      · exact absurd rfl hname
      · exact hmem

theorem headerValue_none {headers : List (NSString × NSString)} {field : NSString}
    (hfield : (characters field).isSome) (hreadable : ∀ header ∈ headers, Readable header)
    (hnone : ∀ header ∈ headers, header.1 ≠ field) :
    headerValue field (headers.map lineData) = none := by
  rw [headerValue, List.findSome?_eq_none_iff]
  intro line hline
  obtain ⟨header, hmem, rfl⟩ := List.mem_map.mp hline
  have hhead := hreadable header hmem
  have hcut : colon.cut (lineData header) = some (dataOf header.1, dataOf header.2) :=
    Delimiter.cut_append (fun hin => hhead.no_colon (hin.subset List.mem_cons_self)) _
  rw [hcut]
  dsimp only
  rw [if_neg fun heq => hnone header hmem ((dataOf_inj hhead.field hfield).mp heq)]

/-! ### One part -/

/-- A string of which a line can be made. -/
def Unbroken (s : NSString) : Prop := (characters s).isSome ∧ 13 ∉ s

theorem Unbroken.append {s t : NSString} (hs : Unbroken s) (ht : Unbroken t) :
    Unbroken (s ++ t) :=
  ⟨isSome_characters_append hs.1 ht.1, fun h => (List.mem_append.mp h).elim hs.2 ht.2⟩

theorem Quotable.unbroken {s : NSString} (h : Quotable s) : Unbroken s := ⟨h.1, h.2.2⟩

theorem Quotable.quote_absent {s : NSString} (h : Quotable s) : ¬quote.toList <:+: dataOf s :=
  fun hin => not_mem_dataOf (b := 34) (by decide) h.2.1 (hin.subset List.mem_cons_self)

theorem readable_of_unbroken {field value : NSString}
    (hfield : field = ns "Content-Disposition" ∨ field = ns "Content-Type")
    (hvalue : Unbroken value) : Readable (field, value) := by
  have hname : 13 ∉ dataOf field ∧ 58 ∉ dataOf field ∧ (dataOf field).head? = some 67 := by
    rcases hfield with rfl | rfl <;> decide
  refine ⟨?_, hvalue.1, hname.2.1, ?_, ?_⟩
  · rcases hfield with rfl | rfl <;> exact isSome_characters_ns _
  · rw [lineData, List.mem_append, List.mem_append]
    rintro (h | h | h)
    · exact hname.1 h
    · revert h
      decide
    · exact not_mem_dataOf (by decide) hvalue.2 h
  · rw [lineData, List.head?_append, hname.2.2, Option.some_or]
    decide

namespace Append

/-- The value of the disposition. -/
def dispositionValue : Append → NSString
  | formData name _ => ns "form-data; name=\"" ++ name ++ ns "\""
  | fileData name fileName _ _ =>
    ns "form-data; name=\"" ++ name ++ ns "\"; filename=\"" ++ fileName ++ ns "\""

theorem readable (h : x.Named) : ∀ header ∈ x.headers, Readable header := by
  have hstart : Unbroken (ns "form-data; name=\"") := ⟨isSome_characters_ns _, by decide⟩
  have hmiddle : Unbroken (ns "\"; filename=\"") := ⟨isSome_characters_ns _, by decide⟩
  have hend : Unbroken (ns "\"") := ⟨isSome_characters_ns _, by decide⟩
  cases x with
  | formData name data =>
    intro header hmem
    rw [List.mem_singleton.mp hmem]
    exact readable_of_unbroken (.inl rfl) ((hstart.append h.unbroken).append hend)
  | fileData name fileName mimeType data =>
    obtain ⟨hname, hfile, htype⟩ := h
    intro header hmem
    rcases List.mem_cons.mp hmem with rfl | hmem
    · exact readable_of_unbroken (.inl rfl)
        ((((hstart.append hname.unbroken).append hmiddle).append hfile.unbroken).append hend)
    · rw [List.mem_singleton.mp hmem]
      exact readable_of_unbroken (.inr rfl) htype.unbroken

/-- The disposition tells the name and the file name. -/
theorem disposition_eq (h : x.Named) :
    disposition (dataOf x.dispositionValue) = some (x.field.name, x.field.fileName) := by
  have hend : dataOf (ns "\"") = quote.toList := rfl
  have hmiddle : dataOf (ns "\"; filename=\"") = quote.toList ++ dataOf (ns "; filename=\"") := rfl
  cases x with
  | formData name data =>
    have hname : Quotable name := h
    have hvalue : dataOf (formData name data).dispositionValue =
        dataOf (ns "form-data; name=\"") ++ (dataOf name ++ (quote.toList ++ [])) := by
      rw [dispositionValue,
        dataOf_append (isSome_characters_append (isSome_characters_ns _) hname.1)
          (isSome_characters_ns _), dataOf_append (isSome_characters_ns _) hname.1, hend,
        List.append_nil, List.append_assoc]
    rw [hvalue, disposition, if_pos (List.prefix_append _ _), List.drop_left,
      Delimiter.cut_append hname.quote_absent, Option.bind_some]
    dsimp only
    rw [stringWithData_dataOf hname.1]
    rfl
  | fileData name fileName mimeType data =>
    obtain ⟨hname, hfile, -⟩ := h
    have hvalue : dataOf (fileData name fileName mimeType data).dispositionValue =
        dataOf (ns "form-data; name=\"") ++ (dataOf name ++ (quote.toList ++
          (dataOf (ns "; filename=\"") ++ (dataOf fileName ++ (quote.toList ++ []))))) := by
      have h₁ := isSome_characters_append (isSome_characters_ns "form-data; name=\"") hname.1
      have h₂ := isSome_characters_append h₁ (isSome_characters_ns "\"; filename=\"")
      have h₃ := isSome_characters_append h₂ hfile.1
      rw [dispositionValue, dataOf_append h₃ (isSome_characters_ns _), dataOf_append h₂ hfile.1,
        dataOf_append h₁ (isSome_characters_ns _), dataOf_append (isSome_characters_ns _) hname.1,
        hend, hmiddle]
      simp only [List.append_assoc, List.append_nil]
    rw [hvalue, disposition, if_pos (List.prefix_append _ _), List.drop_left,
      Delimiter.cut_append hname.quote_absent, Option.bind_some]
    dsimp only
    rw [stringWithData_dataOf hname.1, Option.bind_some, if_neg, if_pos (List.prefix_append _ _),
      List.drop_left, Delimiter.cut_append hfile.quote_absent, Option.bind_some]
    · dsimp only
      rw [stringWithData_dataOf hfile.1]
      rfl
    · intro hnil
      exact absurd (List.append_eq_nil_iff.mp hnil).1 (by decide)

theorem contentType_ne : ns "Content-Type" ≠ ns "Content-Disposition" := by decide

theorem headerValue_disposition {headers : List (NSString × NSString)} (h : x.Named)
    (hperm : headers.Perm x.headers) :
    headerValue (ns "Content-Disposition") (headers.map lineData) =
      some (dataOf x.dispositionValue) := by
  have hreadable : ∀ header ∈ headers, Readable header := fun header hmem =>
    x.readable h header (hperm.mem_iff.mp hmem)
  refine headerValue_eq (isSome_characters_ns _) hreadable ?_ fun header hmem hfield => ?_
  · rw [hperm.mem_iff]
    cases x <;> exact List.mem_cons_self
  · rw [hperm.mem_iff] at hmem
    cases x with
    | formData name data => rw [List.mem_singleton.mp hmem]; rfl
    | fileData name fileName mimeType data =>
      rcases List.mem_cons.mp hmem with rfl | hmem
      · rfl
      · rw [List.mem_singleton.mp hmem] at hfield
        exact absurd hfield contentType_ne

theorem headerValue_type {headers : List (NSString × NSString)} (h : x.Named)
    (hperm : headers.Perm x.headers) :
    headerValue (ns "Content-Type") (headers.map lineData) = x.field.contentType.map dataOf := by
  have hreadable : ∀ header ∈ headers, Readable header := fun header hmem =>
    x.readable h header (hperm.mem_iff.mp hmem)
  cases x with
  | formData name data =>
    refine headerValue_none (isSome_characters_ns _) hreadable fun header hmem => ?_
    rw [hperm.mem_iff] at hmem
    rw [List.mem_singleton.mp hmem]
    exact contentType_ne.symm
  | fileData name fileName mimeType data =>
    refine headerValue_eq (isSome_characters_ns _) hreadable ?_ fun header hmem hfield => ?_
    · rw [hperm.mem_iff]
      exact List.mem_cons_of_mem _ List.mem_cons_self
    · rw [hperm.mem_iff] at hmem
      rcases List.mem_cons.mp hmem with rfl | hmem
      · exact absurd hfield contentType_ne.symm
      · rw [List.mem_singleton.mp hmem]

end Append

/-- What stands between two delimiters. -/
def segment (headers : List (NSString × NSString)) (body : NSData) : NSData :=
  crlf.toList ++ (headers.flatMap (fun header => lineData header ++ crlf.toList) ++
    (crlf.toList ++ body))

theorem cut_segment (headers : List (NSString × NSString)) (body : NSData) :
    crlf.cut (segment headers body) = some ([], headers.flatMap
      (fun header => lineData header ++ crlf.toList) ++ (crlf.toList ++ body)) :=
  Delimiter.cut_append (crlf_absent List.not_mem_nil) _

/-- A part whose data stays whole is read as what was appended. -/
theorem readPart_segment {headers : List (NSString × NSString)} (h : x.Named)
    (hperm : headers.Perm x.headers) : readPart (segment headers x.field.data) = some x.field := by
  have hlines := headerLines_headers x.field.data fun header hmem =>
    x.readable h header (hperm.mem_iff.mp hmem)
  rw [readPart, cut_segment]
  dsimp only
  rw [hlines, Option.bind_some]
  dsimp only
  rw [x.headerValue_disposition h hperm, Option.bind_some, x.disposition_eq h, Option.bind_some]
  dsimp only
  rw [x.headerValue_type h hperm]
  cases x with
  | formData name data => rfl
  | fileData name fileName mimeType data =>
    rw [Append.field, Option.map_some]
    dsimp only
    rw [stringWithData_dataOf h.2.2.1]
    rfl

/-- The data of a field that is read ends its part, behind a line break. -/
theorem suffix_of_readPart {part : NSData} {field : FormField} (h : readPart part = some field) :
    (crlf.toList ++ field.data) <:+ part := by
  rw [readPart] at h
  split at h
  · rename_i rest hcut
    obtain ⟨⟨lines, data⟩, hlines, hfield⟩ := Option.bind_eq_some_iff.mp h
    obtain ⟨⟨name, fileName⟩, -, hfield⟩ := Option.bind_eq_some_iff.mp hfield
    have hdata : field.data = data := by
      dsimp only at hfield
      split at hfield
      · cases hfield
        rfl
      · obtain ⟨type, -, heq⟩ := Option.map_eq_some_iff.mp hfield
        rw [← heq]
    rw [hdata, (Delimiter.of_cut_eq_some hcut).1, List.nil_append]
    exact (headerLines_eq_some hlines).trans (List.suffix_append _ _)
  · cases h

/-! ### Delimiters -/

variable {boundary : NSData} {hboundary : 13 ∉ boundary}

/-- The delimiter does not begin in a line that does not start with a dash. -/
theorem dashBoundary_infix_iff {line rest : NSData} (hbreak : 13 ∉ line)
    (hdash : (line ++ rest).head? ≠ some 45) :
    (dashBoundary boundary hboundary).toList <:+: crlf.toList ++ (line ++ rest) ↔
      (dashBoundary boundary hboundary).toList <:+: rest := by
  have hhead : (dashBoundary boundary hboundary).head ∉ 10 :: line := by
    rw [List.mem_cons, not_or]
    exact ⟨(by decide : (13 : UInt8) ≠ 10), hbreak⟩
  have hstarts : ¬(dashBoundary boundary hboundary).toList <+: 13 :: 10 :: (line ++ rest) := by
    rintro ⟨t, ht⟩
    refine hdash ?_
    rw [← (List.cons.inj (List.cons.inj ht).2).2]
    rfl
  have hsplit : crlf.toList ++ (line ++ rest) = 13 :: (10 :: line ++ rest) := rfl
  rw [hsplit, List.infix_cons_iff, Delimiter.toList_infix_append_iff hhead]
  constructor
  · rintro (hprefixed | hin)
    · exact absurd hprefixed hstarts
    · exact hin
  · exact .inr

theorem dashBoundary_infix_segment {headers : List (NSString × NSString)} {body : NSData}
    (h : ∀ header ∈ headers, Readable header) :
    (dashBoundary boundary hboundary).toList <:+: segment headers body ↔
      (dashBoundary boundary hboundary).toList <:+: crlf.toList ++ body := by
  rw [segment]
  induction headers with
  | nil =>
    rw [List.flatMap_nil, ← List.nil_append (crlf.toList ++ body)]
    exact dashBoundary_infix_iff List.not_mem_nil (by simp [crlf, Delimiter.toList])
  | cons header headers ih =>
    have hreadable := h header List.mem_cons_self
    rw [List.flatMap_cons, List.append_assoc, List.append_assoc,
      dashBoundary_infix_iff hreadable.no_break, ih fun h' hh => h h' (List.mem_cons_of_mem _ hh)]
    rw [List.head?_append]
    cases hline : (lineData header).head? with
    | none => exact absurd (List.head?_eq_none_iff.mp hline) (lineData_ne_nil header)
    | some b =>
      rw [Option.some_or, ← hline]
      exact hreadable.no_dash

/-- What stands behind the last delimiter. -/
def epilogue : NSData := [45, 45, 13, 10]

theorem pieces_epilogue : (dashBoundary boundary hboundary).pieces epilogue = [epilogue] := by
  refine Delimiter.pieces_of_none (Delimiter.cut_eq_none_iff.mpr fun hin => ?_)
  have hall := List.IsInfix.eq_of_length_le hin (by simp [epilogue, Delimiter.toList, dashBoundary])
  exact absurd (List.cons.inj hall).1 (by decide : (13 : UInt8) ≠ 45)

/-- The fields that are read are those appended exactly when the delimiter stands in no data. -/
theorem readParts_segments {parts : List (Append × List (NSString × NSString))}
    (h : ∀ p ∈ parts, p.1.Named ∧ p.2.Perm p.1.headers) :
    readParts ((parts.map fun p => segment p.2 p.1.field.data).flatMap
        (dashBoundary boundary hboundary).pieces ++ [epilogue]) =
      some (parts.map fun p => p.1.field) ↔
        ∀ p ∈ parts, ¬(dashBoundary boundary hboundary).toList <:+:
          crlf.toList ++ p.1.field.data := by
  induction parts with
  | nil => simp [readParts, epilogue]
  | cons p parts ih =>
    obtain ⟨x, headers⟩ := p
    obtain ⟨hnamed, hperm⟩ := h _ List.mem_cons_self
    have ih := ih fun p hp => h p (List.mem_cons_of_mem _ hp)
    have hreadable : ∀ header ∈ headers, Readable header := fun header hmem =>
      x.readable hnamed header (hperm.mem_iff.mp hmem)
    have hclean : (dashBoundary boundary hboundary).toList <:+: segment headers x.field.data ↔ _ :=
      dashBoundary_infix_segment hreadable
    rw [List.map_cons, List.map_cons, List.flatMap_cons, List.forall_mem_cons, ← ih]
    dsimp only
    by_cases hin : (dashBoundary boundary hboundary).toList <:+: crlf.toList ++ x.field.data
    · -- the first piece of the segment is not read as the field, whose data it does not hold
      obtain ⟨piece, pieces, hpieces, -⟩ :=
        (dashBoundary boundary hboundary).exists_join_pieces (segment headers x.field.data)
      have hwhole : ¬(dashBoundary boundary hboundary).toList <:+: piece :=
        Delimiter.not_infix_of_mem_pieces (segment headers x.field.data) piece
          (hpieces ▸ List.mem_cons_self)
      refine ⟨fun hread => ?_, fun hall => absurd hin hall.1⟩
      rw [hpieces, List.cons_append, List.cons_append, readParts] at hread
      split_ifs at hread
      · cases hread
      · obtain ⟨field, hfield, hrest⟩ := Option.bind_eq_some_iff.mp hread
        obtain ⟨fields, -, heq⟩ := Option.map_eq_some_iff.mp hrest
        obtain rfl := (List.cons.inj heq).1
        exact absurd (hin.trans (suffix_of_readPart hfield).isInfix) hwhole
    · have hpieces : (dashBoundary boundary hboundary).pieces (segment headers x.field.data) =
          [segment headers x.field.data] :=
        Delimiter.pieces_of_none (Delimiter.cut_eq_none_iff.mpr (mt hclean.mp hin))
      have hdash : ¬[45, 45] <+: segment headers x.field.data := fun ⟨_, ht⟩ =>
        absurd (List.cons.inj ht).1 (by decide : (45 : UInt8) ≠ 13)
      rw [hpieces, List.singleton_append, List.cons_append, readParts, if_neg hdash,
        readPart_segment hnamed hperm, Option.bind_some]
      simp [hin]

/-! ### The whole body -/

theorem unbroken_of_forall {s : NSString}
    (h : ∀ u ∈ s, (isHighSurrogate u || isLowSurrogate u) = false ∧ u ≠ 13) : Unbroken s := by
  refine ⟨?_, fun hmem => (h 13 hmem).2 rfl⟩
  induction s with
  | nil => rfl
  | cons u s ih =>
    rw [characters_single_cons (h u List.mem_cons_self).1, Option.isSome_map]
    exact ih fun v hv => h v (List.mem_cons_of_mem _ hv)

theorem unbroken_boundary (r₁ r₂ : UInt32) : Unbroken (AFCreateMultipartFormBoundary r₁ r₂) := by
  have hdigit : ∀ n < 16, (isHighSurrogate (hexDigit n) || isLowSurrogate (hexDigit n)) = false ∧
      hexDigit n ≠ 13 := by decide
  have hex : ∀ r : UInt32, Unbroken (hex8 r) := by
    intro r
    refine unbroken_of_forall fun u hu => ?_
    obtain ⟨i, -, rfl⟩ := List.mem_map.mp hu
    exact hdigit _ (Nat.mod_lt _ (by decide))
  exact (Unbroken.append ⟨isSome_characters_ns _, by decide⟩ (hex r₁)).append (hex r₂)

/-- The parts of a stream with their boundaries, the first one's flag as given. -/
def bounded : Bool → List BodyPart → List BodyPart
  | _, [] => []
  | first, p :: ps =>
    { p with hasInitialBoundary := first, hasFinalBoundary := ps.isEmpty } :: bounded false ps

theorem getElem?_bounded : ∀ (first : Bool) (parts : List BodyPart) (i : ℕ),
    (bounded first parts)[i]? = parts[i]?.map fun p =>
      { p with
        hasInitialBoundary := first && decide (i = 0)
        hasFinalBoundary := decide (i = parts.length - 1) }
  | _, [], _ => rfl
  | first, p :: ps, 0 => by cases ps <;> simp [bounded]
  | first, p :: ps, i + 1 => by
      rw [bounded, List.getElem?_cons_succ, getElem?_bounded false ps i, List.getElem?_cons_succ]
      cases hi : ps[i]? with
      | none => rfl
      | some q =>
        obtain ⟨hlt, -⟩ := List.getElem?_eq_some_iff.mp hi
        have hlast : decide (i = ps.length - 1) = decide (i + 1 = ps.length) :=
          decide_eq_decide.mpr (by omega)
        simp [hlast]

theorem withBoundaries_eq_bounded (parts : List BodyPart) :
    withBoundaries parts = bounded true parts :=
  List.ext_getElem? fun i => by
    rw [BodyStream.getElem?_withBoundaries, getElem?_bounded, Bool.true_and]

variable {boundary : NSString} {hboundary : 13 ∉ dataOf boundary}

theorem dataOf_dash (hsome : (characters boundary).isSome) (s : String) :
    dataOf (kAFMultipartFormCRLF ++ ns "--" ++ boundary ++ ns s) =
      (dashBoundary (dataOf boundary) hboundary).toList ++ dataOf (ns s) := by
  have hstart : (characters (kAFMultipartFormCRLF ++ ns "--")).isSome := rfl
  have hbytes : dataOf (kAFMultipartFormCRLF ++ ns "--") = [13, 10, 45, 45] := rfl
  rw [dataOf_append (isSome_characters_append hstart hsome) (isSome_characters_ns _),
    dataOf_append hstart hsome, hbytes]
  rfl

/-- A part stands behind a delimiter; the line break of the first one is thought in front of it. -/
theorem break_append_wire (hsome : (characters boundary).isSome) {p : BodyPart}
    (hp : p.boundary = boundary) (h : ∀ header ∈ p.headers, Readable header)
    (hbody : 13 ∉ dataOf boundary) :
    (if p.hasInitialBoundary then crlf.toList else []) ++ p.wire =
      (dashBoundary (dataOf boundary) hbody).toList ++ (segment p.headers p.body ++
        if p.hasFinalBoundary then (dashBoundary (dataOf boundary) hbody).toList ++ epilogue
        else []) := by
  have hbreak : dataOf kAFMultipartFormCRLF = crlf.toList := rfl
  have hend : ns "--" ++ kAFMultipartFormCRLF = ns "--\r\n" := rfl
  have hopening :
      (if p.hasInitialBoundary then crlf.toList else []) ++ p.encapsulationBoundaryData =
        (dashBoundary (dataOf boundary) hbody).toList ++ crlf.toList := by
    rw [← hbreak, kAFMultipartFormCRLF, ← dataOf_dash hsome, BodyPart.encapsulationBoundaryData, hp]
    split_ifs
    · rw [AFMultipartFormInitialBoundary, ← dataOf_append (by decide)
        (isSome_characters_append (isSome_characters_append (isSome_characters_ns _) hsome)
          (by decide))]
      simp only [List.append_assoc]
      rfl
    · rw [List.nil_append, AFMultipartFormEncapsulationBoundary]
      rfl
  have hclosing : p.closingBoundaryData = if p.hasFinalBoundary then
      (dashBoundary (dataOf boundary) hbody).toList ++ epilogue else [] := by
    rw [BodyPart.closingBoundaryData, hp]
    split_ifs
    · rw [AFMultipartFormFinalBoundary, List.append_assoc _ (ns "--"), hend, dataOf_dash hsome]
      rfl
    · rfl
  rw [BodyPart.wire, headersData_eq h, hclosing, ← List.append_assoc, ← List.append_assoc,
    ← List.append_assoc, hopening, segment]
  simp only [List.append_assoc]

/-- With a line break in front of it, the body is the parts and an end, each behind a delimiter. -/
theorem break_append_bounded (hsome : (characters boundary).isSome) :
    ∀ (first : Bool) (parts : List BodyPart), parts ≠ [] → (∀ p ∈ parts, p.boundary = boundary) →
      (∀ p ∈ parts, ∀ header ∈ p.headers, Readable header) →
      (if first then crlf.toList else []) ++ (bounded first parts).flatMap BodyPart.wire =
        (dashBoundary (dataOf boundary) hboundary).join []
          (parts.map (fun p => segment p.headers p.body) ++ [epilogue])
  | _, [], hne, _, _ => absurd rfl hne
  | first, [p], _, hparts, hheaders => by
      have hpart := break_append_wire hsome
        (p := { p with hasInitialBoundary := first, hasFinalBoundary := true })
        (hparts p List.mem_cons_self) (hheaders p List.mem_cons_self) hboundary
      rw [bounded, bounded, List.flatMap_cons, List.flatMap_nil, List.append_nil]
      dsimp only at hpart ⊢
      rw [List.isEmpty_nil, hpart, List.map_cons, List.map_nil, List.singleton_append,
        Delimiter.join_cons, Delimiter.join_cons, Delimiter.join_nil]
      simp
  | first, p :: q :: ps, _, hparts, hheaders => by
      have hpart := break_append_wire hsome
        (p := { p with hasInitialBoundary := first, hasFinalBoundary := false })
        (hparts p List.mem_cons_self) (hheaders p List.mem_cons_self) hboundary
      have ih := break_append_bounded hsome false (q :: ps) (List.cons_ne_nil _ _)
        (fun r hr => hparts r (List.mem_cons_of_mem _ hr))
        (fun r hr => hheaders r (List.mem_cons_of_mem _ hr))
      rw [bounded, List.flatMap_cons, ← List.append_assoc, List.isEmpty_cons]
      dsimp only at hpart ih ⊢
      rw [if_neg Bool.false_ne_true, List.append_nil] at hpart
      rw [if_neg Bool.false_ne_true, List.nil_append] at ih
      have hsegments : (p :: q :: ps).map (fun p => segment p.headers p.body) ++ [epilogue] =
          segment p.headers p.body ::
            ((q :: ps).map (fun p => segment p.headers p.body) ++ [epilogue]) := rfl
      rw [hpart, ih, hsegments, Delimiter.join_cons (segment p.headers p.body), List.nil_append,
        Delimiter.join_eq_append (segment p.headers p.body), List.append_assoc]

/-! ### Requests -/

namespace Append

/-- The part that is appended. -/
def part (K : KeyOrder) (boundary : NSString) (x : Append) : BodyPart :=
  .new (K.allKeys x.headers) boundary x.field.data

theorem foldl_perform (K : KeyOrder) : ∀ (xs : List Append) (f : AFStreamingMultipartFormData),
    xs.foldl (fun f x => x.perform K f) f =
      { f with bodyStream :=
        { f.bodyStream with
          HTTPBodyParts := f.bodyStream.HTTPBodyParts ++ xs.map (part K f.boundary) } }
  | [], f => by rw [List.map_nil, List.append_nil]; rfl
  | x :: xs, f => by
      rw [List.foldl_cons, foldl_perform K xs, perform_eq,
        AFStreamingMultipartFormData.appendPartWithHeaders, BodyStream.appendHTTPBodyPart]
      simp [part]

end Append

/-- The parameters that are appended: those with data. -/
def parameterAppends (compare : NSString → NSString → Bool) (parameters : List (NSString × Json)) :
    List Append :=
  (AFQueryStringPairsFromDictionary compare parameters).filterMap fun pair =>
    (parameterData pair.value).map (.formData (fmtStr pair.field))

/-- A delimiter begins nowhere in the data. -/
def Clear (boundary : NSString) (data : NSData) : Prop :=
  ¬dataOf (ns "\r\n--" ++ boundary) <:+: dataOf (ns "\r\n") ++ data

instance (boundary : NSString) (data : NSData) : Decidable (Clear boundary data) :=
  inferInstanceAs (Decidable ¬_)

/-- The stream over the parts, with its boundaries. -/
def streamOf (K : KeyOrder) (boundary : NSString) (packet : ℕ) (xs : List Append) : BodyStream :=
  BodyStream.setInitialAndFinalBoundaries
    { BodyStream.init with
      HTTPBodyParts := xs.map (Append.part K boundary)
      numberOfBytesInPacket := packet }

theorem wire_streamOf (K : KeyOrder) (boundary : NSString) (packet : ℕ) (xs : List Append) :
    (streamOf K boundary packet xs).wire =
      (withBoundaries (xs.map (Append.part K boundary))).flatMap BodyPart.wire := rfl

def contentTypeOf (boundary : NSString) : NSString :=
  ns "multipart/form-data; boundary=" ++ boundary

/-- The parameters and the caller's parts are what is appended; nothing is sent when there are
    none. -/
theorem multipartFormRequest_eq (K : KeyOrder) (compare : NSString → NSString → Bool)
    (boundary : NSString) (parameters : List (NSString × Json)) (xs : List Append) (packet : ℕ) :
    multipartFormRequest K compare boundary parameters
        (fun f => (xs.foldl (fun f x => x.perform K f) f).throttleBandwidth packet) =
      if parameterAppends compare parameters ++ xs = [] then
        { HTTPBodyStream := none, contentType := none, contentLength := none }
      else
        let stream := streamOf K boundary packet (parameterAppends compare parameters ++ xs)
        { HTTPBodyStream := some stream
          contentType := some (contentTypeOf boundary)
          contentLength := some stream.contentLength } := by
  have hparameters : ∀ (pairs : List AFQueryStringPair) (f : AFStreamingMultipartFormData),
      pairs.foldl (appendParameter K) f =
      (pairs.filterMap fun pair =>
        (parameterData pair.value).map (Append.formData (fmtStr pair.field))).foldl
          (fun f x => x.perform K f) f := by
    intro pairs
    induction pairs with
    | nil => exact fun _ => rfl
    | cons pair pairs ih =>
      intro f
      rw [List.foldl_cons, ih, List.filterMap_cons, appendParameter]
      cases parameterData pair.value <;> rfl
  rw [multipartFormRequest, hparameters, ← List.foldl_append, Append.foldl_perform,
    requestByFinalizingMultipartFormData, ← parameterAppends]
  cases parameterAppends compare parameters ++ xs with
  | nil => rfl
  | cons x xs => rfl

/-- The stream of a request: nothing of it has been read. -/
theorem prepared_streamOf (K : KeyOrder) (boundary : NSString) (packet : ℕ) (xs : List Append) :
    (streamOf K boundary packet xs).Prepared := by
  have hparts : ∀ p ∈ xs.map (Append.part K boundary),
      ∃ headers body, p = .new headers boundary body := by
    intro p hp
    obtain ⟨x, -, rfl⟩ := List.mem_map.mp hp
    exact ⟨_, _, rfl⟩
  rw [streamOf]
  generalize xs.map (Append.part K boundary) = parts at hparts
  have hcopies : (withBoundaries parts).map BodyPart.copy = parts := by
    refine List.ext_getElem? fun i => ?_
    rw [List.getElem?_map, BodyStream.getElem?_withBoundaries]
    cases hi : parts[i]? with
    | none => rfl
    | some p =>
      obtain ⟨headers, body, rfl⟩ := hparts p (List.mem_of_getElem? hi)
      rfl
  refine ⟨?_, ?_, rfl, rfl, rfl, rfl⟩
  · exact congrArg withBoundaries hcopies
  · intro p hp
    obtain ⟨i, hi⟩ := List.mem_iff_getElem?.mp hp
    have hi : (withBoundaries parts)[i]? = some p := hi
    rw [BodyStream.getElem?_withBoundaries] at hi
    obtain ⟨q, hq, rfl⟩ := Option.map_eq_some_iff.mp hi
    obtain ⟨headers, body, rfl⟩ := hparts q (List.mem_of_getElem? hq)
    rfl

/-- The server finds what was appended exactly when no data holds a delimiter. -/
theorem serverForm_wire_iff {xs : List Append} (K : KeyOrder) (packet : ℕ)
    (hboundary : Unbroken boundary) (hne : xs ≠ []) (hnamed : ∀ x ∈ xs, x.Named) :
    serverForm (contentTypeOf boundary) (streamOf K boundary packet xs).wire =
        some (xs.map Append.field) ↔ ∀ x ∈ xs, Clear boundary x.field.data := by
  have hbreak : 13 ∉ dataOf boundary := not_mem_dataOf (by decide) hboundary.2
  have hmark : boundaryMark.cut (contentTypeOf boundary) =
      some (ns "multipart/form-data; ", boundary) := by
    have habsent : ¬boundaryMark.toList <:+: ns "multipart/form-data; " := by decide
    have hstart : ns "multipart/form-data; boundary=" =
        ns "multipart/form-data; " ++ boundaryMark.toList := by decide
    rw [contentTypeOf, hstart, List.append_assoc, Delimiter.cut_append habsent]
  have hdelimiter : (dashBoundary (dataOf boundary) hbreak).toList =
      dataOf (ns "\r\n--" ++ boundary) := by
    rw [dataOf_append (isSome_characters_ns _) hboundary.1]
    rfl
  have hreadable : ∀ p ∈ xs.map (Append.part K boundary), ∀ header ∈ p.headers,
      Readable header := by
    intro p hp
    obtain ⟨x, hx, rfl⟩ := List.mem_map.mp hp
    exact fun header hmem => x.readable (hnamed x hx) header ((K.perm _).mem_iff.mp hmem)
  have hsame : ∀ p ∈ xs.map (Append.part K boundary), p.boundary = boundary := by
    intro p hp
    obtain ⟨x, -, rfl⟩ := List.mem_map.mp hp
    rfl
  have hwire : crlf.toList ++ (streamOf K boundary packet xs).wire =
      (dashBoundary (dataOf boundary) hbreak).join []
        ((xs.map fun x => (x, K.allKeys x.headers)).map
          (fun p => segment p.2 p.1.field.data) ++ [epilogue]) := by
    have hwhole := @break_append_bounded boundary hbreak hboundary.1 true
      (xs.map (Append.part K boundary)) (by simpa using hne) hsame hreadable
    rw [if_pos rfl, ← withBoundaries_eq_bounded, List.map_map] at hwhole
    rw [List.map_map, wire_streamOf]
    exact hwhole
  have hfields : xs.map Append.field =
      (xs.map fun x => (x, K.allKeys x.headers)).map fun p => p.1.field := by
    rw [List.map_map]
    rfl
  have hempty : (dashBoundary (dataOf boundary) hbreak).pieces [] = [[]] :=
    Delimiter.pieces_of_none rfl
  rw [serverForm, hmark]
  dsimp only
  rw [readBody, dif_neg hbreak, hwire, Delimiter.pieces_join_eq, List.flatMap_cons, hempty,
    List.singleton_append, List.tail_cons, List.flatMap_append, List.flatMap_cons, List.flatMap_nil,
    pieces_epilogue, List.append_nil, hfields, readParts_segments, List.forall_mem_map, hdelimiter]
  · rfl
  · intro p hp
    obtain ⟨x, hx, rfl⟩ := List.mem_map.mp hp
    exact ⟨hnamed x hx, K.perm _⟩

end LeYiDai.Multipart
