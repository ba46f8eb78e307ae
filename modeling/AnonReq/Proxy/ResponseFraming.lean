import AnonReq.Foundation.Utf8
import AnonReq.Proxy.TransparentProxy

/-!
# The responses of the transparent proxy

`_route_to_dispatcher`, `_preserve_headers` and `_serialize_response` of
`proxy/transparent_proxy.py`: the headers of a routed request are kept, with their names in lower
case, and sent back with the body that the dispatcher gives; the content length of the body is set
in front of them, and one of the request replaces it.

* `Routed` says what the response is; `routed_and_noBreaks`: every routed response is so.
* `noBreaks_of_handleConnection`: a request that is read from a connection has no line break in its
  headers.
* `not_framed`: a response with a header of the request, and one with its content length.
-/

namespace AnonReq.Proxy

open Splitting

/-! ### The model -/

/-- `str.lower`, with what is known of it for ASCII and for line breaks. -/
structure HeaderCase extends LowerCase where
  lower_ascii : ∀ text, (∀ c ∈ text, c.toNat < 128) → lower text = text.map Char.toLower
  mem_of_mem_lower : ∀ text, ∀ c ∈ lower text, c = '\r' ∨ c = '\n' → c ∈ text

/-- `ProxyResponse`. -/
structure ProxyResponse where
  statusCode : ℕ
  body : List UInt8
  headers : List (Text × Text) := []
  forwardedUntouched : Bool := false
  routedToDispatcher : Bool := false
  classification : Text := "unknown".toList

/-- What the dispatcher returns: bytes, or a value that `str` shows as a text. -/
inductive DispatchResult where
  | bytes (data : List UInt8)
  | other (shown : Text)

/-- The body of the response. -/
def DispatchResult.body : DispatchResult → List UInt8
  | .bytes data => data
  | .other shown => Utf8.encode shown

variable (L : HeaderCase)

/-- The body of the loop in `_preserve_headers`. -/
def preserveValue (headers preserved : List (Text × Text)) (name : Text) : List (Text × Text) :=
  match Dict.get preserved name with
  | none => preserved
  | some value => Dict.set preserved name ((Dict.get headers name).getD value)

/-- `_preserve_headers(headers)`. -/
def preserveHeaders (headers : List (Text × Text)) : List (Text × Text) :=
  ["connection".toList, "keep-alive".toList, "host".toList].foldl (preserveValue headers)
    (Dict.ofList (headers.map fun e => (L.lower e.1, e.2)))

/-- `_route_to_dispatcher(request, decision)`, with a dispatcher that is given the content type. -/
def routeToDispatcher (dispatch : Text → ProxyRequest → DispatchResult) (request : ProxyRequest)
    (classification : Text) : ProxyResponse :=
  let headers := preserveHeaders L request.headers
  let contentType := (Dict.get headers "content-type".toList).getD "application/json".toList
  { statusCode := 200
    body := (dispatch contentType request).body
    headers
    routedToDispatcher := true
    classification }

/-- `content-length`. -/
def contentLength : Text := "content-length".toList

/-- The reason that is given for a status code. -/
def reason (statusCode : ℕ) : Text :=
  (([(200, "OK".toList), (403, "Forbidden".toList), (451, "Unavailable For Legal Reasons".toList),
    (500, "Internal Server Error".toList)] : List (ℕ × Text)).lookup statusCode).getD "OK".toList

/-- The headers that `_serialize_response` writes. -/
def responseHeaders (response : ProxyResponse) : List (Text × Text) :=
  Dict.update [(contentLength, Nat.toDigits 10 response.body.length)] response.headers

/-- A header, as it is written. -/
def headerLine (header : Text × Text) : Text := header.1 ++ ": ".toList ++ header.2

/-- The first line of a response. -/
def statusLine (statusCode : ℕ) : Text :=
  "HTTP/1.1 ".toList ++ Nat.toDigits 10 statusCode ++ ' ' :: reason statusCode

/-- The lines of the head of a response. -/
def headLines (response : ProxyResponse) : List Text :=
  statusLine response.statusCode :: (responseHeaders response).map headerLine

/-- `c.encode("ascii")` of a character that has one. -/
def asciiByte (c : Char) : UInt8 := UInt8.ofNat c.toNat

/-- `text.encode("ascii")`, `none` where it raises. -/
def encodeAscii (text : Text) : Option (List UInt8) :=
  if text.all fun c => c.toNat < 128 then some (text.map asciiByte) else none

/-- `_serialize_response(response)`, `none` where it raises: each line ends with a line break, and
an empty line ends the head. -/
def serializeResponse (response : ProxyResponse) : Option (List UInt8) :=
  (encodeAscii (block crlf (headLines response))).map fun head => head ++ response.body

/-- What `_handle_connection` writes after an exception. -/
def internalServerError : List UInt8 :=
  "HTTP/1.1 500 Internal Server Error\r\nConnection: close\r\n\r\n".toList.map asciiByte

/-- What `_handle_connection` writes for a response. -/
def writtenResponse (response : ProxyResponse) : List UInt8 :=
  (serializeResponse response).getD internalServerError

/-! ### What has to hold -/

/-- A text without CR and LF. -/
def NoBreak (text : Text) : Prop := ∀ c ∈ text, c ≠ '\r' ∧ c ≠ '\n'

/-- All texts of the headers are ASCII. -/
def AsciiHeaders (headers : List (Text × Text)) : Prop :=
  ∀ h ∈ headers, (∀ c ∈ h.1, c.toNat < 128) ∧ ∀ c ∈ h.2, c.toNat < 128

/-- No header has a line break in it. -/
def NoBreaks (headers : List (Text × Text)) : Prop := ∀ h ∈ headers, NoBreak h.1 ∧ NoBreak h.2

/-- The response has one content length, which is that of its body, no line break in a header, and
no other header of the request. -/
structure Framed (request : ProxyRequest) (response : ProxyResponse) : Prop where
  one : ((responseHeaders response).filter fun h => L.lower h.1 = contentLength).length = 1
  length : ∀ h ∈ responseHeaders response, L.lower h.1 = contentLength →
    h.2 = Nat.toDigits 10 response.body.length
  noBreaks : NoBreaks (responseHeaders response)
  notCopied : ∀ h ∈ responseHeaders response, ∀ e ∈ request.headers, h.1 = L.lower e.1 →
    h.1 = contentLength

/-- **The response to a routed request.** -/
structure Routed (request : ProxyRequest) (response : ProxyResponse) : Prop where
  /-- There is one content length. -/
  one : ((responseHeaders response).filter fun h => L.lower h.1 = contentLength).length = 1
  /-- It is that of the body, if the request has none. -/
  length : (∀ e ∈ request.headers, L.lower e.1 ≠ contentLength) →
    ∀ h ∈ responseHeaders response, h.1 = contentLength →
      h.2 = Nat.toDigits 10 response.body.length
  /-- All other headers are headers of the request, with names in lower case. -/
  preserved : ∀ h ∈ responseHeaders response, h.1 ≠ contentLength →
    ∃ e ∈ request.headers, L.lower e.1 = h.1 ∧ e.2 = h.2
  /-- No header of the request is missing. -/
  complete : ∀ e ∈ request.headers, L.lower e.1 ∈ (responseHeaders response).map Prod.fst
  /-- There is no line break in a header, if there is none in those of the request. -/
  noBreaks : NoBreaks request.headers → NoBreaks (responseHeaders response)
  /-- If the headers are ASCII and have no line breaks, the body is what follows the first empty
  line of what is written. -/
  written : AsciiHeaders (responseHeaders response) → NoBreaks request.headers →
    cut (lineBreak ++ lineBreak) (writtenResponse response) =
      some (List.intercalate lineBreak ((headLines response).map (List.map asciiByte)),
        response.body)
  /-- If some header is not ASCII, a fixed response is written. -/
  failed : ¬ AsciiHeaders (responseHeaders response) →
    writtenResponse response = internalServerError

variable {L}

/-! ### The headers -/

/-- The headers of a request that are kept: their names differ, each is a header of the request with
its name in lower case, and no name is missing. -/
structure KeptHeaders (L : HeaderCase) (headers kept : List (Text × Text)) : Prop where
  nodup : (kept.map Prod.fst).Nodup
  origin : ∀ h ∈ kept, ∃ e ∈ headers, L.lower e.1 = h.1 ∧ e.2 = h.2
  complete : ∀ e ∈ headers, L.lower e.1 ∈ kept.map Prod.fst

theorem keptHeaders_ofList (headers : List (Text × Text)) :
    KeptHeaders L headers (Dict.ofList (headers.map fun e => (L.lower e.1, e.2))) where
  nodup := Dict.nodup_keys_ofList _
  origin h hh := by
    obtain ⟨e, he, rfl⟩ := List.mem_map.mp (Dict.mem_of_mem_ofList hh)
    exact ⟨e, he, rfl, rfl⟩
  complete e he := Dict.mem_keys_ofList.mpr (List.mem_map_of_mem (List.mem_map_of_mem he))

/-- The loop over the names keeps the headers, as the names are in lower case. -/
theorem KeptHeaders.preserveValue {headers kept : List (Text × Text)}
    (h : KeptHeaders L headers kept) {name : Text} (hname : L.lower name = name) :
    KeptHeaders L headers (preserveValue headers kept name) := by
  rw [Proxy.preserveValue]
  cases hvalue : Dict.get kept name with
  | none => exact h
  | some value =>
    refine ⟨Dict.nodup_keys_set h.nodup _ _, fun header hheader => ?_, fun e he => ?_⟩
    · obtain rfl | hheader := Dict.mem_of_mem_set hheader
      · cases hget : Dict.get headers name with
        | none => exact h.origin _ (Dict.mem_of_get_eq_some hvalue)
        | some old => exact ⟨(name, old), Dict.mem_of_get_eq_some hget, hname, rfl⟩
      · exact h.origin header hheader
    · exact Dict.mem_keys_set.mpr (Or.inr (h.complete e he))

theorem keptHeaders_preserveHeaders (headers : List (Text × Text)) :
    KeptHeaders L headers (preserveHeaders L headers) := by
  have hlower : ∀ name ∈ ["connection".toList, "keep-alive".toList, "host".toList],
      L.lower name = name := by
    intro name hname
    have hascii : name.Forall (fun c => c.toNat < 128) ∧ name.map Char.toLower = name := by
      revert name
      decide
    rw [L.lower_ascii name (List.forall_iff_forall_mem.mp hascii.1), hascii.2]
  obtain ⟨hconnection, hnames⟩ := List.forall_mem_cons.mp hlower
  obtain ⟨hkeepAlive, hnames⟩ := List.forall_mem_cons.mp hnames
  exact (((keptHeaders_ofList headers).preserveValue hconnection).preserveValue
    hkeepAlive).preserveValue (hnames _ List.mem_cons_self)

section Kept

variable {headers kept : List (Text × Text)} {n : Text}

/-- With a content length in front of them, the headers are the content length, which one of them
may replace, and those headers. -/
theorem KeptHeaders.cases (h : KeptHeaders L headers kept) {header : Text × Text}
    (hheader : header ∈ Dict.update [(contentLength, n)] kept) :
    header = (contentLength, n) ∨
      ∃ e ∈ headers, L.lower e.1 = header.1 ∧ e.2 = header.2 :=
  (Dict.mem_of_mem_update hheader).imp List.mem_singleton.mp (h.origin header)

theorem lower_contentLength : L.lower contentLength = contentLength := by
  rw [L.lower_ascii contentLength (List.forall_iff_forall_mem.mp (by decide))]
  decide

/-- There is one content length. -/
theorem KeptHeaders.length_filter (h : KeptHeaders L headers kept) :
    ((Dict.update [(contentLength, n)] kept).filter fun header =>
      L.lower header.1 = contentLength).length = 1 := by
  have hname : ∀ header ∈ Dict.update [(contentLength, n)] kept,
      decide (L.lower header.1 = contentLength) = (header.1 == contentLength) := by
    intro header hheader
    have hlower : L.lower header.1 = header.1 := by
      obtain rfl | ⟨e, -, hname, -⟩ := h.cases hheader
      · exact lower_contentLength
      · rw [← hname, L.lower_idem]
    rw [hlower]
    exact (beq_eq_decide _ _).symm
  have hnodup : ((Dict.update [(contentLength, n)] kept).map Prod.fst).Nodup :=
    Dict.nodup_keys_update (by exact List.nodup_singleton contentLength) kept
  have hmem : contentLength ∈ (Dict.update [(contentLength, n)] kept).map Prod.fst :=
    Dict.mem_keys_update.mpr (Or.inl List.mem_cons_self)
  rw [List.filter_congr hname, ← List.countP_eq_length_filter,
    ← List.count_eq_one_of_mem hnodup hmem, List.count, List.countP_map]
  rfl

end Kept

/-! ### The bytes -/

theorem noBreak_digits (n : ℕ) : NoBreak (Nat.toDigits 10 n) := by
  intro c hc
  have hdigit : c.isDigit = true := Nat.isDigit_of_mem_toDigits (by decide) (by decide) hc
  constructor <;> rintro rfl <;> exact absurd hdigit (by decide)

theorem asciiByte_ne {c : Char} (hascii : c.toNat < 128) (h : c ≠ '\r') : asciiByte c ≠ 0x0D := by
  intro hbyte
  have hnat : c.toNat % 256 = 13 := congrArg UInt8.toNat hbyte
  rw [Nat.mod_eq_of_lt (by omega)] at hnat
  exact h (Char.toNat_inj.mp hnat)

/-- The characters of a header line are those of the name, of the value and of what is between
them. -/
theorem forall_mem_headerLine {P : Char → Prop} {header : Text × Text}
    (hname : ∀ c ∈ header.1, P c) (hcolon : ∀ c ∈ ": ".toList, P c)
    (hvalue : ∀ c ∈ header.2, P c) : ∀ c ∈ headerLine header, P c := by
  intro c hc
  obtain hc | hc := List.mem_append.mp hc
  · obtain hc | hc := List.mem_append.mp hc
    · exact hname c hc
    · exact hcolon c hc
  · exact hvalue c hc

/-- All texts are ASCII exactly if the head is. -/
theorem ascii_head_iff {headers : List (Text × Text)} {line : Text}
    (hline : ∀ c ∈ line, c.toNat < 128) :
    (∀ c ∈ block crlf (line :: headers.map headerLine), c.toNat < 128) ↔
      AsciiHeaders headers := by
  constructor
  · intro h header hheader
    have hflat : ∀ c ∈ headerLine header, c.toNat < 128 := fun c hc =>
      h c (mem_block_of_mem (List.mem_flatten.mpr ⟨headerLine header,
        List.mem_cons_of_mem line (List.mem_map_of_mem hheader), hc⟩))
    exact ⟨fun c hc => hflat c (List.mem_append_left _ (List.mem_append_left _ hc)),
      fun c hc => hflat c (List.mem_append_right _ hc)⟩
  · intro h c hc
    have hcolon : ∀ c ∈ ": ".toList, c.toNat < 128 := List.forall_iff_forall_mem.mp (by decide)
    have hcrlf : ∀ c ∈ crlf, c.toNat < 128 := List.forall_iff_forall_mem.mp (by decide)
    obtain hc | hc := mem_block hc
    · rw [List.flatten_cons, List.mem_append] at hc
      obtain hc | hc := hc
      · exact hline c hc
      · obtain ⟨text, htext, hc⟩ := List.mem_flatten.mp hc
        obtain ⟨header, hheader, rfl⟩ := List.mem_map.mp htext
        exact forall_mem_headerLine (h header hheader).1 hcolon (h header hheader).2 c hc
    · exact hcrlf c hc

theorem all_isAscii_iff {text : Text} :
    (text.all fun c => c.toNat < 128) = true ↔ ∀ c ∈ text, c.toNat < 128 := by
  simp only [List.all_eq_true, decide_eq_true_eq]

/-- What is written for a response with ASCII headers. -/
theorem writtenResponse_of_ascii {response : ProxyResponse}
    (hstatus : ∀ c ∈ statusLine response.statusCode, c.toNat < 128)
    (h : AsciiHeaders (responseHeaders response)) :
    writtenResponse response =
      block lineBreak ((headLines response).map (List.map asciiByte)) ++ response.body := by
  have hascii := all_isAscii_iff.mpr ((ascii_head_iff hstatus).mpr h)
  rw [writtenResponse, serializeResponse, encodeAscii, headLines, if_pos hascii, map_block]
  rfl

/-- What is written for another response. -/
theorem writtenResponse_of_not_ascii {response : ProxyResponse}
    (hstatus : ∀ c ∈ statusLine response.statusCode, c.toNat < 128)
    (h : ¬ AsciiHeaders (responseHeaders response)) :
    writtenResponse response = internalServerError := by
  have hascii := mt all_isAscii_iff.mp (mt (ascii_head_iff hstatus).mp h)
  rw [writtenResponse, serializeResponse, encodeAscii, headLines, if_neg hascii]
  rfl

/-- The carriage return does not occur in a line of the head, if it does not occur in a header. -/
theorem cr_not_mem_headLines {response : ProxyResponse}
    (hstatus : ∀ c ∈ statusLine response.statusCode, c.toNat < 128 ∧ c ≠ '\r')
    (hascii : AsciiHeaders (responseHeaders response))
    (hbreaks : NoBreaks (responseHeaders response)) :
    ∀ line ∈ (headLines response).map (List.map asciiByte), 0x0D ∉ line := by
  have hcolon : ∀ c ∈ ": ".toList, c.toNat < 128 ∧ c ≠ '\r' :=
    List.forall_iff_forall_mem.mp (by decide)
  have hline : ∀ line ∈ headLines response, ∀ c ∈ line, c.toNat < 128 ∧ c ≠ '\r' := by
    intro line hline
    obtain rfl | hline := List.mem_cons.mp hline
    · exact hstatus
    · obtain ⟨header, hheader, rfl⟩ := List.mem_map.mp hline
      have hname : ∀ c ∈ header.1, c.toNat < 128 ∧ c ≠ '\r' := fun c hc =>
        ⟨(hascii header hheader).1 c hc, ((hbreaks header hheader).1 c hc).1⟩
      have hvalue : ∀ c ∈ header.2, c.toNat < 128 ∧ c ≠ '\r' := fun c hc =>
        ⟨(hascii header hheader).2 c hc, ((hbreaks header hheader).2 c hc).1⟩
      exact forall_mem_headerLine hname hcolon hvalue
  intro bytes hbytes hcr
  obtain ⟨line, hmem, rfl⟩ := List.mem_map.mp hbytes
  obtain ⟨c, hc, hbyte⟩ := List.mem_map.mp hcr
  obtain ⟨hsmall, hne⟩ := hline line hmem c hc
  exact asciiByte_ne hsmall hne hbyte

/-! ### Routed requests -/

/-- The response to a routed request has no line break in a header, if the request has none. -/
theorem KeptHeaders.noBreaks {headers kept : List (Text × Text)} (h : KeptHeaders L headers kept)
    (hbreaks : NoBreaks headers) (n : ℕ) :
    NoBreaks (Dict.update [(contentLength, Nat.toDigits 10 n)] kept) := by
  intro header hheader
  obtain rfl | ⟨e, he, hname, hvalue⟩ := h.cases hheader
  · have hname : ∀ c ∈ contentLength, c ≠ '\r' ∧ c ≠ '\n' :=
      List.forall_iff_forall_mem.mp (by decide)
    exact ⟨hname, noBreak_digits n⟩
  · obtain ⟨hkey, htext⟩ := hbreaks e he
    rw [← hname, ← hvalue]
    refine ⟨fun c hc => ?_, htext⟩
    have hmem := L.mem_of_mem_lower e.1 c hc
    exact ⟨fun hcr => (hkey c (hmem (Or.inl hcr))).1 hcr,
      fun hlf => (hkey c (hmem (Or.inr hlf))).2 hlf⟩

/-- A request that is read from a connection has no line break in a header. -/
theorem noBreaks_of_handleConnection {segments : List (List UInt8)} {request : ProxyRequest}
    (h : handleConnection L.toLowerCase segments = some request) : NoBreaks request.headers := by
  have hone {text : Text} (h : OneLine text) : NoBreak text := by
    intro c hc
    have hbreak := h c hc
    constructor <;> rintro rfl <;> exact absurd hbreak (by decide)
  obtain ⟨first, lines, hlines, hheaders, -⟩ := parseHttpRequest_eq_some h
  intro header hheader
  rw [hheaders] at hheader
  obtain ⟨line, hline, hentry⟩ := List.mem_filterMap.mp (Dict.mem_of_mem_ofList hheader)
  obtain ⟨parts, hcut, rfl⟩ := Option.map_eq_some_iff.mp hentry
  have hline : NoBreak line :=
    hone (oneLine_of_mem_splitlines (hlines ▸ List.mem_cons_of_mem first hline))
  rw [eq_of_cut hcut] at hline
  have hname : NoBreak parts.1 := fun c hc =>
    hline c (List.mem_append_left _ (by simpa using hc))
  have hvalue : NoBreak parts.2 := fun c hc => hline c (by simp [hc])
  refine ⟨fun c hc => ?_, fun c hc => hvalue c (Text.mem_of_mem_strip hc)⟩
  have hmem := fun hbreak => hname c (Text.mem_of_mem_strip (L.mem_of_mem_lower _ c hc hbreak))
  exact ⟨fun hcr => (hmem (Or.inl hcr)).1 hcr, fun hlf => (hmem (Or.inr hlf)).2 hlf⟩

/-- **Every routed request** is answered so. -/
theorem routed_routeToDispatcher (L : HeaderCase) (dispatch : Text → ProxyRequest → DispatchResult)
    (request : ProxyRequest) (classification : Text) :
    Routed L request (routeToDispatcher L dispatch request classification) := by
  -- the response under a name, so that its headers are not computed
  obtain ⟨response, hresponse⟩ : ∃ response,
    response = routeToDispatcher L dispatch request classification := ⟨_, rfl⟩
  have hkept : KeptHeaders L request.headers response.headers :=
    hresponse ▸ keptHeaders_preserveHeaders request.headers
  have hstatus : ∀ c ∈ statusLine response.statusCode, c.toNat < 128 ∧ c ≠ '\r' := by
    have hcode : response.statusCode = 200 := by
      rw [hresponse]
      rfl
    rw [hcode]
    exact List.forall_iff_forall_mem.mp (by decide)
  have hsmall : ∀ c ∈ statusLine response.statusCode, c.toNat < 128 := fun c hc =>
    (hstatus c hc).1
  rw [← hresponse]
  constructor
  case one => exact hkept.length_filter
  case length =>
    intro hnone header hheader hname
    obtain rfl | ⟨e, he, hlower, -⟩ := hkept.cases hheader
    · rfl
    · exact absurd (hlower.trans hname) (hnone e he)
  case preserved =>
    intro header hheader hname
    obtain rfl | horigin := hkept.cases hheader
    · exact absurd rfl hname
    · exact horigin
  case complete =>
    exact fun e he => Dict.mem_keys_update.mpr (Or.inr (hkept.complete e he))
  case noBreaks => exact fun hbreaks => hkept.noBreaks hbreaks _
  case written =>
    intro hascii hbreaks
    rw [writtenResponse_of_ascii hsmall hascii]
    refine cut_block (by decide) (List.cons_ne_nil _ _) (fun bytes hbytes => ?_)
      (cr_not_mem_headLines hstatus hascii (hkept.noBreaks hbreaks _)) response.body
    obtain rfl | hbytes := List.mem_cons.mp hbytes
    · exact List.cons_ne_nil _ _
    · obtain ⟨line, hline, rfl⟩ := List.mem_map.mp hbytes
      obtain ⟨header, -, rfl⟩ := List.mem_map.mp hline
      simp [headerLine]
  case failed => exact writtenResponse_of_not_ascii hsmall

/-- **Responses to routed requests**, and the headers of the requests that are read. -/
theorem routed_and_noBreaks (L : HeaderCase) (dispatch : Text → ProxyRequest → DispatchResult)
    (request : ProxyRequest) (classification : Text) :
    Routed L request (routeToDispatcher L dispatch request classification) ∧
      ∀ segments, handleConnection L.toLowerCase segments = some request →
        NoBreaks request.headers :=
  ⟨routed_routeToDispatcher L dispatch request classification,
    fun _ => noBreaks_of_handleConnection⟩

/-- No letter has a line break as its lower case. -/
theorem eq_of_toLower_isBreak {c : Char} (h : c.toLower = '\r' ∨ c.toLower = '\n') :
    c.toLower = c := by
  refine toLower_eq_self_of_lt ?_
  obtain h | h := h <;> rw [h] <;> decide

/-- Lower case for the ASCII letters. -/
def asciiHeaderCase : HeaderCase where
  toLowerCase := asciiLower
  lower_ascii _ _ := rfl
  mem_of_mem_lower text c hc hbreak := by
    obtain ⟨d, hd, rfl⟩ := List.mem_map.mp hc
    rwa [eq_of_toLower_isBreak hbreak]

/-- A dispatcher that always gives the same. -/
def dispatched (_ : Text) (_ : ProxyRequest) : DispatchResult :=
  .bytes ("dispatched".toList.map asciiByte)

/-- A request with one header. -/
def requestWith (name value : String) : ProxyRequest where
  method := "POST".toList
  host := "api.openai.com".toList
  path := "/v1/chat/completions".toList
  headers := [(name.toList, value.toList)]

/-- **A header of the request** stands in the response; and a content length of the request stands
in place of that of the body. -/
theorem not_framed :
    ¬ Framed asciiHeaderCase (requestWith "connection" "keep-alive")
        (routeToDispatcher asciiHeaderCase dispatched (requestWith "connection" "keep-alive") []) ∧
      ¬ Framed asciiHeaderCase (requestWith "Content-Length" "2")
        (routeToDispatcher asciiHeaderCase dispatched (requestWith "Content-Length" "2") []) := by
  constructor
  · intro h
    have hcopied := h.notCopied ("connection".toList, "keep-alive".toList) (by decide)
      ("connection".toList, "keep-alive".toList) (by decide) (by decide)
    exact absurd hcopied (by decide)
  · intro h
    have hlength := h.length ("content-length".toList, "2".toList) (by decide) (by decide)
    exact absurd hlength (by decide)

end AnonReq.Proxy
