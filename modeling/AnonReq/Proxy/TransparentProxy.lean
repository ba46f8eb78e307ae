import AnonReq.Foundation.Characters
import AnonReq.Foundation.Decimal
import AnonReq.Foundation.Dict
import AnonReq.Foundation.Splitting

/-!
# The connections of the transparent proxy

`proxy/transparent_proxy.py`: a connection is read once, and what the read returns is taken apart
as a request. The head is decoded as Latin-1 and split at the line breaks of Unicode.

* `parse_wire`: a request that is read whole is taken apart into its parts, if its header names
  differ and no header value has a line break or outer space of Latin-1.
* `handleConnection_iff`: a request cut into reads is taken apart into its parts exactly if it is
  such a request and the first read holds it, or all of it that matters.
-/

namespace AnonReq.Proxy

open Splitting

/-! ### The model -/

/-- A byte, decoded as `iso-8859-1`. -/
def latin1 (b : UInt8) : Char := Char.ofNat b.toNat

/-- Bytes, decoded as `iso-8859-1`. -/
def decodeLatin1 (bytes : List UInt8) : Text := bytes.map latin1

/-- `ProxyRequest`. -/
structure ProxyRequest where
  method : Text
  host : Text
  path : Text
  headers : List (Text × Text) := []
  body : List UInt8 := []
  clientHello : List UInt8 := []
deriving DecidableEq

/-- The break of a header line: carriage return and line feed. -/
def lineBreak : List UInt8 := [0x0D, 0x0A]

/-- The first two parts of `lines[0].split(" ", 2)`. -/
def requestLine (line : Text) : Text × Text :=
  match cut [' '] line with
  | none => (line, [])
  | some (method, rest) => (method, (partition [' '] rest).1)

variable (L : LowerCase)

/-- What a header line sets: `line.split(":", 1)`, if it has a colon. -/
def headerEntry (line : Text) : Option (Text × Text) :=
  (cut [':'] line).map fun parts => (L.lower (Text.strip parts.1), Text.strip parts.2)

/-- `_parse_http_request`; without a first line it raises. -/
def parseHttpRequest (data : List UInt8) : Option ProxyRequest :=
  let (head, body) := partition (lineBreak ++ lineBreak) data
  match splitlines (decodeLatin1 head) with
  | [] => none
  | first :: lines =>
    let (method, path) := requestLine first
    let headers := Dict.ofList (lines.filterMap (headerEntry L))
    some {
      method := method
      host := (Dict.get headers "host".toList).getD []
      path := if path.isEmpty then "/".toList else path
      headers := headers
      body := body
      clientHello := data.take 512 }

/-- `reader.read(n)`: what of the first segment fits. -/
def read (n : ℕ) (segments : List (List UInt8)) : List UInt8 := (segments.headD []).take n

/-- `_handle_connection`: the request that is handled, of a connection that arrives in segments. -/
def handleConnection (segments : List (List UInt8)) : Option ProxyRequest :=
  parseHttpRequest L (read 65536 segments)

/-! ### Messages -/

/-- A blank: space or tabulator. -/
def isBlank (b : UInt8) : Bool := b == 0x20 || b == 0x09

/-- A visible character of ASCII. -/
def isVisible (b : UInt8) : Bool := 0x21 ≤ b && b ≤ 0x7E

/-- A character of a token: a visible one that is no delimiter. -/
def isTokenByte (b : UInt8) : Bool :=
  isVisible b && !("\"(),/:;<=>?@[\\]\x7b\x7d".toList.map Char.toNat).contains b.toNat

/-- A byte of a header value: blank, visible, or beyond ASCII. -/
def isFieldByte (b : UInt8) : Bool := isBlank b || isVisible b || 0x80 ≤ b

/-- A header line: a token, a colon, and a value between blanks. -/
structure HeaderLine where
  name : List UInt8
  before : List UInt8
  value : List UInt8
  after : List UInt8
  name_ne_nil : name ≠ []
  name_token : ∀ b ∈ name, isTokenByte b = true
  before_blank : ∀ b ∈ before, isBlank b = true
  after_blank : ∀ b ∈ after, isBlank b = true
  value_field : ∀ b ∈ value, isFieldByte b = true
  value_head : ∀ b ∈ value.head?, isBlank b = false
  value_last : ∀ b ∈ value.getLast?, isBlank b = false

/-- The bytes of a header line. -/
def HeaderLine.bytes (f : HeaderLine) : List UInt8 :=
  f.name ++ 0x3A :: (f.before ++ (f.value ++ f.after))

/-- A request of HTTP/1.1 with a content length. -/
structure HttpRequest where
  method : List UInt8
  target : List UInt8
  fields : List HeaderLine
  body : List UInt8
  method_ne_nil : method ≠ []
  method_token : ∀ b ∈ method, isTokenByte b = true
  target_ne_nil : target ≠ []
  target_visible : ∀ b ∈ target, isVisible b = true
  content_length : ∃ f ∈ fields,
    (decodeLatin1 f.name).map Char.toLower = "content-length".toList ∧ f.value ≠ [] ∧
      (∀ b ∈ f.value, 0x30 ≤ b ∧ b ≤ 0x39) ∧ Decimal.value (decodeLatin1 f.value) = body.length

namespace HttpRequest

/-- The first line. -/
def startLine (r : HttpRequest) : List UInt8 :=
  r.method ++ 0x20 :: (r.target ++ 0x20 :: [0x48, 0x54, 0x54, 0x50, 0x2F, 0x31, 0x2E, 0x31])

/-- The lines of the head. -/
def lines (r : HttpRequest) : List (List UInt8) := r.startLine :: r.fields.map HeaderLine.bytes

/-- The bytes of the request. -/
def wire (r : HttpRequest) : List UInt8 := block lineBreak r.lines ++ r.body

/-- The header lines, as a dictionary has them if their names differ. -/
def headers (r : HttpRequest) : List (Text × Text) :=
  r.fields.map fun f => (L.lower (decodeLatin1 f.name), decodeLatin1 f.value)

/-- The request with exactly these header lines and this body. -/
def proxyRequest (r : HttpRequest) : ProxyRequest where
  method := decodeLatin1 r.method
  host := (Dict.get (r.headers L) "host".toList).getD []
  path := decodeLatin1 r.target
  headers := r.headers L
  body := r.body
  clientHello := r.wire.take 512

end HttpRequest

/-- A way in which bytes arrive. -/
structure Segmentation (bytes : List UInt8) where
  segments : List (List UInt8)
  ne_nil : ∀ segment ∈ segments, segment ≠ []
  flatten_eq : segments.flatten = bytes

/-- A header value that has no line break of Latin-1 (the byte `0x85`), and no space of Latin-1 at
its ends (the byte `0xA0`). -/
def Clean (value : List UInt8) : Prop :=
  0x85 ∉ value ∧ (∀ b ∈ value.head?, b ≠ 0xA0) ∧ ∀ b ∈ value.getLast?, b ≠ 0xA0

/-- The names of the header lines differ, and their values are clean. -/
structure HttpRequest.Representable (r : HttpRequest) : Prop where
  nodup : ((r.headers L).map Prod.fst).Nodup
  clean : ∀ f ∈ r.fields, Clean f.value

/-! ### Bytes and characters -/

theorem toNat_latin1 (b : UInt8) : (latin1 b).toNat = b.toNat := by
  have hlt : b.toNat < 256 := b.toNat_lt
  have hvalid : b.toNat.isValidChar := Or.inl (by omega)
  rw [latin1, Char.ofNat, dif_pos hvalid]
  rfl

theorem latin1_injective : Function.Injective latin1 := fun a b h => by
  have hnat := congrArg Char.toNat h
  rw [toNat_latin1, toNat_latin1] at hnat
  exact UInt8.toNat_inj.mp hnat

@[simp] theorem decodeLatin1_append (a b : List UInt8) :
    decodeLatin1 (a ++ b) = decodeLatin1 a ++ decodeLatin1 b :=
  List.map_append

@[simp] theorem decodeLatin1_cons (b : UInt8) (bytes : List UInt8) :
    decodeLatin1 (b :: bytes) = latin1 b :: decodeLatin1 bytes :=
  rfl

theorem isSpace_latin1 (b : UInt8) : Text.isSpace (latin1 b) = true ↔
    9 ≤ b.toNat ∧ b.toNat ≤ 13 ∨ 28 ≤ b.toNat ∧ b.toNat ≤ 32 ∨ b.toNat = 0x85 ∨
      b.toNat = 0xA0 := by
  have hlt : b.toNat < 256 := b.toNat_lt
  simp only [Text.isSpace, toNat_latin1, Bool.or_eq_true, Bool.and_eq_true, decide_eq_true_eq,
    List.contains_eq_mem, List.mem_cons, List.not_mem_nil, or_false]
  omega

theorem isLineBreak_latin1 (b : UInt8) : isLineBreak (latin1 b) = true ↔
    10 ≤ b.toNat ∧ b.toNat ≤ 13 ∨ 28 ≤ b.toNat ∧ b.toNat ≤ 30 ∨ b.toNat = 0x85 := by
  have hlt : b.toNat < 256 := b.toNat_lt
  simp only [isLineBreak, toNat_latin1, decide_eq_true_eq, List.contains_eq_mem, List.mem_cons,
    List.not_mem_nil, or_false]
  omega

theorem isBlank_iff {b : UInt8} : isBlank b = true ↔ b.toNat = 32 ∨ b.toNat = 9 := by
  rw [isBlank, Bool.or_eq_true, beq_iff_eq, beq_iff_eq, ← UInt8.toNat_inj, ← UInt8.toNat_inj]
  rfl

theorem isVisible_iff {b : UInt8} : isVisible b = true ↔ 33 ≤ b.toNat ∧ b.toNat ≤ 126 := by
  rw [isVisible, Bool.and_eq_true, decide_eq_true_eq, decide_eq_true_eq, UInt8.le_iff_toNat_le,
    UInt8.le_iff_toNat_le]
  rfl

theorem isSpace_of_isBlank {b : UInt8} (h : isBlank b = true) : Text.isSpace (latin1 b) = true := by
  rw [isSpace_latin1]
  have := isBlank_iff.mp h
  omega

/-- A visible character is neither space nor a line break. -/
theorem not_space_of_isVisible {b : UInt8} (h : isVisible b = true) :
    Text.isSpace (latin1 b) = false ∧ isLineBreak (latin1 b) = false := by
  rw [← Bool.not_eq_true, ← Bool.not_eq_true, isSpace_latin1, isLineBreak_latin1]
  have := isVisible_iff.mp h
  omega

theorem isVisible_of_isTokenByte {b : UInt8} (h : isTokenByte b = true) : isVisible b = true :=
  (Bool.and_eq_true_iff.mp h).1

variable {bytes : List UInt8}

/-- A delimiter does not occur in a token. -/
theorem not_mem_of_token (h : ∀ b ∈ bytes, isTokenByte b = true) {d : UInt8}
    (hd : isTokenByte d = false) : latin1 d ∉ decodeLatin1 bytes := by
  intro hmem
  obtain ⟨b, hb, hsame⟩ := List.mem_map.mp hmem
  rw [latin1_injective hsame] at hb
  exact absurd (hd.symm.trans (h d hb)) Bool.false_ne_true

theorem oneLine_of_visible (h : ∀ b ∈ bytes, isVisible b = true) :
    OneLine (decodeLatin1 bytes) := by
  intro c hc
  obtain ⟨b, hb, rfl⟩ := List.mem_map.mp hc
  exact (not_space_of_isVisible (h b hb)).2

theorem space_of_blank (h : ∀ b ∈ bytes, isBlank b = true) :
    ∀ c ∈ decodeLatin1 bytes, Text.isSpace c = true := by
  intro c hc
  obtain ⟨b, hb, rfl⟩ := List.mem_map.mp hc
  exact isSpace_of_isBlank (h b hb)

theorem mem_head_decodeLatin1 {c : Char} :
    c ∈ (decodeLatin1 bytes).head? ↔ ∃ b ∈ bytes.head?, latin1 b = c := by
  rw [decodeLatin1, List.head?_map]
  exact Option.map_eq_some_iff

theorem mem_last_decodeLatin1 {c : Char} :
    c ∈ (decodeLatin1 bytes).getLast? ↔ ∃ b ∈ bytes.getLast?, latin1 b = c := by
  rw [decodeLatin1, List.getLast?_map]
  exact Option.map_eq_some_iff

/-! ### Header lines -/

namespace HeaderLine

variable {L} (f : HeaderLine)

theorem colon_not_mem_name : ':' ∉ decodeLatin1 f.name :=
  not_mem_of_token f.name_token (d := 0x3A) (by decide)

theorem strip_name : Text.strip (decodeLatin1 f.name) = decodeLatin1 f.name := by
  rw [Text.strip_eq_self_iff]
  have hvisible : ∀ b ∈ f.name, Text.isSpace (latin1 b) = false := fun b hb =>
    (not_space_of_isVisible (isVisible_of_isTokenByte (f.name_token b hb))).1
  constructor
  · intro c hc
    obtain ⟨b, hb, rfl⟩ := mem_head_decodeLatin1.mp hc
    exact hvisible b (List.mem_of_mem_head? hb)
  · intro c hc
    obtain ⟨b, hb, rfl⟩ := mem_last_decodeLatin1.mp hc
    exact hvisible b (List.mem_of_getLast? hb)

/-- A value is stripped of nothing if and only if it does not begin or end with a line break or a
space of Latin-1. -/
theorem strip_value_iff : Text.strip (decodeLatin1 f.value) = decodeLatin1 f.value ↔
    (∀ b ∈ f.value.head?, b ≠ 0x85 ∧ b ≠ 0xA0) ∧ ∀ b ∈ f.value.getLast?, b ≠ 0x85 ∧ b ≠ 0xA0 := by
  have hspace : ∀ b ∈ f.value, isBlank b = false →
      (Text.isSpace (latin1 b) = false ↔ b ≠ 0x85 ∧ b ≠ 0xA0) := by
    intro b hb hblank
    have hfield := f.value_field b hb
    rw [isFieldByte, hblank, Bool.false_or, Bool.or_eq_true, isVisible_iff, decide_eq_true_eq,
      UInt8.le_iff_toNat_le] at hfield
    have hbound : (0x80 : UInt8).toNat = 128 := rfl
    have hnel : (0x85 : UInt8).toNat = 133 := rfl
    have hnbsp : (0xA0 : UInt8).toNat = 160 := rfl
    rw [← Bool.not_eq_true, isSpace_latin1, ne_eq, ne_eq, ← UInt8.toNat_inj, ← UInt8.toNat_inj]
    omega
  rw [Text.strip_eq_self_iff]
  refine and_congr ⟨fun h b hb => ?_, fun h c hc => ?_⟩ ⟨fun h b hb => ?_, fun h c hc => ?_⟩
  · exact (hspace b (List.mem_of_mem_head? hb) (f.value_head b hb)).mp
      (h _ (mem_head_decodeLatin1.mpr ⟨b, hb, rfl⟩))
  · obtain ⟨b, hb, rfl⟩ := mem_head_decodeLatin1.mp hc
    exact (hspace b (List.mem_of_mem_head? hb) (f.value_head b hb)).mpr (h b hb)
  · exact (hspace b (List.mem_of_getLast? hb) (f.value_last b hb)).mp
      (h _ (mem_last_decodeLatin1.mpr ⟨b, hb, rfl⟩))
  · obtain ⟨b, hb, rfl⟩ := mem_last_decodeLatin1.mp hc
    exact (hspace b (List.mem_of_getLast? hb) (f.value_last b hb)).mpr (h b hb)

theorem oneLine_value_iff : OneLine (decodeLatin1 f.value) ↔ 0x85 ∉ f.value := by
  constructor
  · intro h hmem
    have hbreak : isLineBreak (latin1 0x85) = true := by rw [isLineBreak_latin1]; decide
    exact absurd (hbreak.symm.trans (h _ (List.mem_map_of_mem hmem))) Bool.noConfusion
  · intro h c hc
    obtain ⟨b, hb, rfl⟩ := List.mem_map.mp hc
    have hne : b ≠ 0x85 := fun heq => h (heq ▸ hb)
    have hfield := f.value_field b hb
    rw [isFieldByte, Bool.or_eq_true, Bool.or_eq_true, isBlank_iff, isVisible_iff,
      decide_eq_true_eq, UInt8.le_iff_toNat_le] at hfield
    have hbound : (0x80 : UInt8).toNat = 128 := rfl
    have hnel : (0x85 : UInt8).toNat = 133 := rfl
    rw [← Bool.not_eq_true, isLineBreak_latin1]
    rw [ne_eq, ← UInt8.toNat_inj] at hne
    omega

/-- A value is clean if and only if it is one line that is stripped of nothing. -/
theorem clean_iff : Clean f.value ↔ OneLine (decodeLatin1 f.value) ∧
    Text.strip (decodeLatin1 f.value) = decodeLatin1 f.value := by
  rw [Clean, oneLine_value_iff, strip_value_iff]
  refine and_congr_right fun hnel => ?_
  have hne : ∀ b ∈ f.value, (b ≠ 0xA0 ↔ b ≠ 0x85 ∧ b ≠ 0xA0) := by
    intro b hb
    have hother : b ≠ 0x85 := fun heq => hnel (heq ▸ hb)
    exact (and_iff_right hother).symm
  exact and_congr (forall₂_congr fun b hb => hne b (List.mem_of_mem_head? hb))
    (forall₂_congr fun b hb => hne b (List.mem_of_getLast? hb))

theorem decodeLatin1_bytes : decodeLatin1 f.bytes = decodeLatin1 f.name ++
    ':' :: (decodeLatin1 f.before ++ (decodeLatin1 f.value ++ decodeLatin1 f.after)) := by
  rw [bytes, decodeLatin1_append, decodeLatin1_cons, decodeLatin1_append, decodeLatin1_append]
  rfl

theorem bytes_ne_nil : decodeLatin1 f.bytes ≠ [] := by
  rw [decodeLatin1_bytes]
  exact List.append_ne_nil_of_right_ne_nil _ (List.cons_ne_nil _ _)

theorem oneLine_bytes (h : 0x85 ∉ f.value) : OneLine (decodeLatin1 f.bytes) := by
  have hblank : ∀ bytes : List UInt8, (∀ b ∈ bytes, isBlank b = true) →
      OneLine (decodeLatin1 bytes) := by
    intro bytes hbytes c hc
    obtain ⟨b, hb, rfl⟩ := List.mem_map.mp hc
    have := isBlank_iff.mp (hbytes b hb)
    rw [← Bool.not_eq_true, isLineBreak_latin1]
    omega
  have hname := oneLine_of_visible fun b hb => isVisible_of_isTokenByte (f.name_token b hb)
  have hcolon : OneLine [':'] := List.forall_mem_singleton.mpr (by decide)
  rw [decodeLatin1_bytes, ← List.singleton_append]
  exact oneLine_append hname (oneLine_append hcolon (oneLine_append (hblank _ f.before_blank)
    (oneLine_append (f.oneLine_value_iff.mpr h) (hblank _ f.after_blank))))

/-- **A whole header line** sets its name to its value. -/
theorem headerEntry_bytes : headerEntry L (decodeLatin1 f.bytes) =
    some (L.lower (decodeLatin1 f.name), Text.strip (decodeLatin1 f.value)) := by
  rw [headerEntry, decodeLatin1_bytes, cut_append f.colon_not_mem_name, Option.map_some,
    strip_name, Text.strip_append_of_space (space_of_blank f.before_blank),
    Text.strip_append_space (space_of_blank f.after_blank)]

/-- **The beginning of a header line** that sets the whole value leaves out blanks only. -/
theorem blank_of_headerEntry {p s : Text} (hsplit : decodeLatin1 f.bytes = p ++ s) {key : Text}
    (h : headerEntry L p = some (key, decodeLatin1 f.value)) :
    ∀ c ∈ s, c ∈ decodeLatin1 f.before ∨ c ∈ decodeLatin1 f.after := by
  obtain ⟨⟨name, w⟩, hcut, hentry⟩ := Option.map_eq_some_iff.mp h
  have hvalue : Text.strip w = decodeLatin1 f.value := (Prod.mk.inj hentry).2
  obtain rfl : p = name ++ ([':'] ++ w) := eq_of_cut hcut
  have hrest : w ++ s =
      decodeLatin1 f.before ++ (decodeLatin1 f.value ++ decodeLatin1 f.after) := by
    have hwhole := cut_append f.colon_not_mem_name
      (decodeLatin1 f.before ++ (decodeLatin1 f.value ++ decodeLatin1 f.after))
    have hpart := cut_append (not_mem_of_cut hcut) (w ++ s)
    have hsame : name ++ ':' :: (w ++ s) = decodeLatin1 f.bytes := by
      rw [hsplit]
      simp
    rw [hsame, f.decodeLatin1_bytes, hwhole] at hpart
    exact (Prod.mk.inj (Option.some.inj hpart)).2.symm
  obtain ⟨t, ht, hs⟩ | ⟨w', rfl, hw'⟩ := List.append_eq_append_iff.mp hrest
  -- nothing but blanks of the front were read, so the value is empty
  · have hw : ∀ c ∈ w, Text.isSpace c = true := fun c hc =>
      space_of_blank f.before_blank c (ht ▸ List.mem_append_left t hc)
    have hnil : decodeLatin1 f.value = [] := by
      rw [← hvalue, Text.strip, List.dropWhile_eq_nil_iff.mpr hw]
      rfl
    rw [hs, hnil, List.nil_append]
    intro c hc
    obtain hc | hc := List.mem_append.mp hc
    · exact Or.inl (ht ▸ List.mem_append_right w hc)
    · exact Or.inr hc
  · obtain ⟨v, hv, rfl⟩ | ⟨t, rfl, ht⟩ := List.append_eq_append_iff.mp hw'.symm
    -- what was read of the value is as long as all of it
    · have hlength : (decodeLatin1 f.value).length ≤ w'.length := by
        rw [← hvalue, Text.strip_append_of_space (space_of_blank f.before_blank)]
        exact (Text.length_strip_le w').trans (List.length_dropWhile_le _ _)
      have htotal := congrArg List.length hv
      rw [List.length_append] at htotal
      obtain rfl : v = [] := List.eq_nil_of_length_eq_zero (by omega)
      exact fun c hc => Or.inr hc
    · exact fun c hc => Or.inr (ht ▸ List.mem_append_right t hc)

/-- What is space and has no colon may be left out at the end of a header line. -/
theorem headerEntry_append {p s : Text} (hcolon : ':' ∉ s)
    (hspace : ∀ c ∈ s, Text.isSpace c = true) : headerEntry L (p ++ s) = headerEntry L p := by
  by_cases hp : ':' ∈ p
  · obtain ⟨key, w, rfl, hkey⟩ := List.eq_append_cons_of_mem hp
    rw [List.append_assoc, List.cons_append, headerEntry, headerEntry, cut_append hkey,
      cut_append hkey, Option.map_some, Option.map_some, Text.strip_append_space hspace]
  · have happ : ':' ∉ p ++ s := fun h => (List.mem_append.mp h).elim hp hcolon
    rw [headerEntry, headerEntry, cut_eq_none hp, cut_eq_none happ]

end HeaderLine

/-! ### Reading a request -/

variable {L} in
/-- The parts of what is parsed. -/
theorem parseHttpRequest_eq_some {data : List UInt8} {request : ProxyRequest}
    (h : parseHttpRequest L data = some request) :
    ∃ first lines, splitlines (decodeLatin1 (partition (lineBreak ++ lineBreak) data).1) =
        first :: lines ∧
      request.headers = Dict.ofList (lines.filterMap (headerEntry L)) ∧
      request.body = (partition (lineBreak ++ lineBreak) data).2 ∧
      request.clientHello = data.take 512 := by
  unfold parseHttpRequest at h
  dsimp only at h
  split at h
  · exact absurd h (Option.some_ne_none request).symm
  · rename_i first lines hlines
    obtain rfl := Option.some.inj h
    exact ⟨first, lines, hlines, rfl, rfl, rfl⟩

namespace HttpRequest

variable {L} (r : HttpRequest)

theorem requestLine_startLine :
    requestLine (decodeLatin1 r.startLine) = (decodeLatin1 r.method, decodeLatin1 r.target) := by
  have hmethod : ' ' ∉ decodeLatin1 r.method :=
    not_mem_of_token r.method_token (d := 0x20) (by decide)
  have htarget : ' ' ∉ decodeLatin1 r.target := by
    intro hmem
    obtain ⟨b, hb, hspace⟩ := List.mem_map.mp hmem
    have hvisible := (not_space_of_isVisible (r.target_visible b hb)).1
    rw [hspace] at hvisible
    exact absurd hvisible (by decide)
  have hline : decodeLatin1 r.startLine = decodeLatin1 r.method ++
      ' ' :: (decodeLatin1 r.target ++ ' ' :: "HTTP/1.1".toList) := by
    rw [startLine, decodeLatin1_append, decodeLatin1_cons, decodeLatin1_append, decodeLatin1_cons]
    rfl
  rw [requestLine, hline, cut_append hmethod]
  dsimp only
  rw [partition, cut_append htarget]
  rfl

theorem startLine_ne_nil : decodeLatin1 r.startLine ≠ [] := by
  rw [startLine, decodeLatin1_append, decodeLatin1_cons]
  exact List.append_ne_nil_of_right_ne_nil _ (List.cons_ne_nil _ _)

theorem oneLine_startLine : OneLine (decodeLatin1 r.startLine) := by
  have hmethod := oneLine_of_visible fun b hb => isVisible_of_isTokenByte (r.method_token b hb)
  have hspace : OneLine [' '] := List.forall_mem_singleton.mpr (by decide)
  have hversion := oneLine_of_visible (List.all_eq_true.mp
    (show [0x48, 0x54, 0x54, 0x50, 0x2F, 0x31, 0x2E, 0x31].all isVisible = true by decide))
  have hline : decodeLatin1 r.startLine = decodeLatin1 r.method ++ ([' '] ++
      (decodeLatin1 r.target ++ ([' '] ++
        decodeLatin1 [0x48, 0x54, 0x54, 0x50, 0x2F, 0x31, 0x2E, 0x31]))) := by
    rw [startLine, decodeLatin1_append, decodeLatin1_cons, decodeLatin1_append, decodeLatin1_cons]
    rfl
  rw [hline]
  exact oneLine_append hmethod (oneLine_append hspace (oneLine_append
    (oneLine_of_visible r.target_visible) (oneLine_append hspace hversion)))

theorem fields_ne_nil : r.fields ≠ [] := by
  obtain ⟨f, hf, -⟩ := r.content_length
  exact List.ne_nil_of_mem hf

/-- The lines of the head, decoded. -/
def texts : List Text := r.lines.map decodeLatin1

theorem texts_eq :
    r.texts = decodeLatin1 r.startLine :: r.fields.map fun f => decodeLatin1 f.bytes := by
  rw [texts, lines, List.map_cons, List.map_map]
  rfl

theorem texts_ne_nil : ∀ line ∈ r.texts, line ≠ [] := by
  rw [texts_eq, List.forall_mem_cons, List.forall_mem_map]
  exact ⟨r.startLine_ne_nil, fun f _ => f.bytes_ne_nil⟩

variable {r}

theorem Representable.oneLine_texts (h : r.Representable L) : ∀ line ∈ r.texts, OneLine line := by
  rw [texts_eq, List.forall_mem_cons, List.forall_mem_map]
  exact ⟨r.oneLine_startLine, fun f hf => f.oneLine_bytes (h.clean f hf).1⟩

/-- **The header lines** set their names to their values. -/
theorem Representable.filterMap_headerEntry (h : r.Representable L) {fields : List HeaderLine}
    (hfields : ∀ f ∈ fields, f ∈ r.fields) :
    (fields.map fun f => decodeLatin1 f.bytes).filterMap (headerEntry L) =
      fields.map fun f => (L.lower (decodeLatin1 f.name), decodeLatin1 f.value) := by
  rw [List.filterMap_map, ← List.filterMap_eq_map]
  refine List.filterMap_congr fun f hf => ?_
  rw [Function.comp_apply, f.headerEntry_bytes,
    (f.clean_iff.mp (h.clean f (hfields f hf))).2]
  rfl

/-- The carriage return does not occur in a line of the head. -/
theorem Representable.cr_not_mem (h : r.Representable L) : ∀ line ∈ r.lines, 0x0D ∉ line := by
  intro line hline hcr
  have hone := h.oneLine_texts _ (List.mem_map_of_mem hline) _ (List.mem_map_of_mem hcr)
  exact absurd hone (by decide)

theorem Representable.cut_wire (h : r.Representable L) :
    cut (lineBreak ++ lineBreak) r.wire = some (lineBreak.intercalate r.lines, r.body) := by
  refine cut_block (by decide) (List.cons_ne_nil _ _) (fun line hline hnil => ?_) h.cr_not_mem
    r.body
  exact r.texts_ne_nil _ (List.mem_map_of_mem hline) (by rw [hnil]; rfl)

theorem Representable.filterMap_fields (h : r.Representable L) :
    (r.fields.map fun f => decodeLatin1 f.bytes).filterMap (headerEntry L) = r.headers L :=
  h.filterMap_headerEntry fun _ hf => hf

/-- What is read of a request, from its first line and lines that set its headers. -/
theorem Representable.parseHttpRequest_eq (h : r.Representable L) {data : List UInt8}
    {lines : List Text}
    (hlines : splitlines (decodeLatin1 (partition (lineBreak ++ lineBreak) data).1) =
      decodeLatin1 r.startLine :: lines)
    (hentries : lines.filterMap (headerEntry L) = r.headers L)
    (hbody : (partition (lineBreak ++ lineBreak) data).2 = r.body)
    (hhello : data.take 512 = r.wire.take 512) :
    parseHttpRequest L data = some (r.proxyRequest L) := by
  have htarget : (decodeLatin1 r.target).isEmpty = false := by
    rw [List.isEmpty_eq_false_iff, decodeLatin1, ne_eq, List.map_eq_nil_iff]
    exact r.target_ne_nil
  unfold parseHttpRequest
  dsimp only
  rw [hlines]
  dsimp only
  rw [hentries, Dict.ofList_eq_self h.nodup, hbody, hhello, r.requestLine_startLine, proxyRequest]
  dsimp only
  rw [htarget]
  rfl

theorem decodeLatin1_intercalate (lines : List (List UInt8)) :
    decodeLatin1 (lineBreak.intercalate lines) = crlf.intercalate (lines.map decodeLatin1) := by
  induction lines with
  | nil => rfl
  | cons line lines ih =>
    by_cases hnil : lines = []
    · rw [hnil]
      simp
    · rw [List.map_cons, List.intercalate_cons_of_ne_nil hnil,
        List.intercalate_cons_of_ne_nil (mt List.map_eq_nil_iff.mp hnil), decodeLatin1_append,
        decodeLatin1_append, ih]
      rfl

/-- **A request that is read whole** is taken apart into its parts. -/
theorem Representable.parse_wire (h : r.Representable L) :
    parseHttpRequest L r.wire = some (r.proxyRequest L) := by
  have hpartition : partition (lineBreak ++ lineBreak) r.wire =
      (lineBreak.intercalate r.lines, r.body) := by
    rw [partition, h.cut_wire]
    rfl
  refine h.parseHttpRequest_eq ?_ h.filterMap_fields (by rw [hpartition]) rfl
  rw [hpartition, decodeLatin1_intercalate, ← texts_eq]
  exact splitlines_intercalate h.oneLine_texts r.texts_ne_nil

/-- A blank, or a part of a line break. -/
def isFiller (b : UInt8) : Bool := isBlank b || lineBreak.contains b

theorem space_of_filler (h : ∀ b ∈ bytes, isFiller b = true) :
    ∀ c ∈ decodeLatin1 bytes, Text.isSpace c = true := by
  intro c hc
  obtain ⟨b, hb, rfl⟩ := List.mem_map.mp hc
  obtain hblank | hbreak := Bool.or_eq_true_iff.mp (h b hb)
  · exact isSpace_of_isBlank hblank
  · have hmem : b = 0x0D ∨ b = 0x0A := by simpa [lineBreak] using hbreak
    obtain rfl | rfl := hmem <;> rw [isSpace_latin1] <;> decide

theorem colon_not_mem_of_filler (h : ∀ b ∈ bytes, isFiller b = true) :
    ':' ∉ decodeLatin1 bytes := by
  intro hmem
  obtain ⟨b, hb, hcolon⟩ := List.mem_map.mp hmem
  obtain rfl : b = 0x3A := latin1_injective (hcolon.trans rfl)
  exact absurd (h _ hb) (by decide)

/-- What a part of a request is split into: its head and the beginning of its body, or only
itself, where it ends before the body. -/
theorem Representable.partition_prefix (h : r.Representable L) {data rest : List UInt8}
    (hwire : r.wire = data ++ rest) :
    (∃ body, partition (lineBreak ++ lineBreak) data = (lineBreak.intercalate r.lines, body) ∧
      r.body = body ++ rest) ∨
    partition (lineBreak ++ lineBreak) data = (data, []) ∧ rest ≠ [] := by
  have hcut := h.cut_wire
  rw [hwire] at hcut
  obtain ⟨body, hdata, hbody⟩ | ⟨hnone, -⟩ := cut_prefix (by decide) hcut
  · exact Or.inl ⟨body, by rw [partition, hdata]; rfl, hbody⟩
  · refine Or.inr ⟨by rw [partition, hnone]; rfl, fun hnil => ?_⟩
    rw [hnil, List.append_nil, hnone] at hcut
    exact absurd hcut (Option.some_ne_none _).symm

/-- A request without body is a block of lines. -/
theorem decodeLatin1_wire (hbody : r.body = []) :
    decodeLatin1 r.wire = block crlf r.texts := by
  rw [wire, hbody, List.append_nil, decodeLatin1, map_block]
  rfl

theorem colon_mem_flatten {fields : List HeaderLine} (hne : fields ≠ []) :
    ':' ∈ (fields.map fun f => decodeLatin1 f.bytes).flatten := by
  obtain ⟨f, fields, rfl⟩ := List.exists_cons_of_ne_nil hne
  rw [List.map_cons, List.flatten_cons, f.decodeLatin1_bytes]
  exact List.mem_append_left _ (List.mem_append_right _ List.mem_cons_self)

/-- **A request without body that is read but for filler at its end** is taken apart into its
parts. -/
theorem Representable.parse_prefix (h : r.Representable L) {data rest : List UInt8}
    (hwire : r.wire = data ++ rest) (hbody : r.body = []) (hrest : rest ≠ [])
    (hfiller : ∀ b ∈ rest, isFiller b = true) (hhello : 512 ≤ data.length) :
    parseHttpRequest L data = some (r.proxyRequest L) := by
  have hpartition : partition (lineBreak ++ lineBreak) data = (data, []) := by
    obtain ⟨body, -, hsplit⟩ | ⟨hpartition, -⟩ := h.partition_prefix hwire
    · rw [hbody] at hsplit
      exact absurd (List.append_eq_nil_iff.mp hsplit.symm).2 hrest
    · exact hpartition
  have hblock : decodeLatin1 data ++ decodeLatin1 rest = block crlf r.texts := by
    rw [← decodeLatin1_wire hbody, hwire, decodeLatin1_append]
  have hhello : data.take 512 = r.wire.take 512 := by
    rw [hwire, List.take_append_of_le_length hhello]
  have hcolon := colon_not_mem_of_filler hfiller
  obtain ⟨done, p, s, todo, htexts, hlines, -, hleft⟩ | ⟨hlines, -⟩ :=
    splitlines_of_prefix h.oneLine_texts r.texts_ne_nil hblock
      (mt List.map_eq_nil_iff.mp hrest)
  · have hs : ':' ∉ s := fun hmem => hcolon (hleft _ (Or.inl hmem))
    have htodo : ':' ∉ todo.flatten := fun hmem => hcolon (hleft _ (Or.inr hmem))
    rw [texts_eq] at htexts
    obtain _ | ⟨first, done⟩ := done
    -- what is left out cannot begin in the first line, as the header lines have colons
    · obtain ⟨-, hfields⟩ := List.cons.inj htexts
      exact absurd (hfields ▸ colon_mem_flatten r.fields_ne_nil) htodo
    · obtain ⟨rfl, hfields⟩ := List.cons.inj htexts
      obtain ⟨fs, gs, hsplit, rfl, hgs⟩ := List.map_eq_append_iff.mp hfields
      obtain ⟨f, fs', rfl, hf, rfl⟩ := List.map_eq_cons_iff.mp hgs
      obtain rfl : fs' = [] := Classical.not_not.mp fun hne => htodo (colon_mem_flatten hne)
      have hlines : splitlines (decodeLatin1 data) =
          decodeLatin1 r.startLine :: ((fs.map fun f => decodeLatin1 f.bytes) ++ [p]) := by
        refine hlines.resolve_left fun ⟨_, hp⟩ => hs ?_
        rw [hp, List.nil_append] at hf
        rw [← hf, f.decodeLatin1_bytes]
        exact List.mem_append_right _ List.mem_cons_self
      refine h.parseHttpRequest_eq (by rw [hpartition]; exact hlines) ?_
        (by rw [hpartition, hbody]) hhello
      have hentry : headerEntry L p = headerEntry L (p ++ s) :=
        (HeaderLine.headerEntry_append hs fun c hc =>
          space_of_filler hfiller c (hleft c (Or.inl hc))).symm
      rw [← h.filterMap_fields, hsplit, List.map_append, List.filterMap_append,
        List.filterMap_append, List.map_singleton, hf, List.filterMap_cons, List.filterMap_cons,
        hentry]
  · obtain ⟨extra, hextra, hlines⟩ : ∃ extra : List Text, extra.filterMap (headerEntry L) = [] ∧
        splitlines (decodeLatin1 data) = r.texts ++ extra := by
      obtain hlines | hlines := hlines
      · exact ⟨[], rfl, by rw [hlines, List.append_nil]⟩
      · exact ⟨[[]], rfl, hlines⟩
    rw [texts_eq, List.cons_append] at hlines
    refine h.parseHttpRequest_eq (by rw [hpartition]; exact hlines) ?_
      (by rw [hpartition, hbody]) hhello
    rw [List.filterMap_append, hextra, List.append_nil, h.filterMap_fields]

end HttpRequest

/-! ### The first read -/

/-- The first read holds the request, or, where the request has no body, all of it but blanks and
line breaks at its end. -/
def HttpRequest.Arrived (r : HttpRequest) (data : List UInt8) : Prop :=
  data = r.wire ∨ r.body = [] ∧ 512 ≤ data.length ∧
    ∃ rest, r.wire = data ++ rest ∧ ∀ b ∈ rest, HttpRequest.isFiller b = true

theorem read_prefix (n : ℕ) (s : Segmentation bytes) :
    ∃ rest, bytes = read n s.segments ++ rest := by
  obtain ⟨segments, -, rfl⟩ := s
  obtain _ | ⟨segment, segments⟩ := segments
  · exact ⟨[], by simp [read]⟩
  · exact ⟨segment.drop n ++ segments.flatten, by
      rw [read, List.headD_cons, ← List.append_assoc, List.take_append_drop, List.flatten_cons]⟩

namespace HttpRequest

variable {L} {r : HttpRequest}

/-- A request whose header lines are found in what is read is representable. -/
theorem representable_of_parse {data : List UInt8}
    (h : parseHttpRequest L data = some (r.proxyRequest L)) : r.Representable L := by
  obtain ⟨first, lines, hlines, hheaders, -, -⟩ := parseHttpRequest_eq_some h
  have hheaders : r.headers L = Dict.ofList (lines.filterMap (headerEntry L)) := hheaders
  refine ⟨?_, fun f hf => ?_⟩
  · rw [hheaders]
    exact Dict.nodup_keys_update (d := []) List.nodup_nil _
  · have hmem : (L.lower (decodeLatin1 f.name), decodeLatin1 f.value) ∈ r.headers L :=
      List.mem_map_of_mem hf
    rw [hheaders] at hmem
    obtain ⟨line, hline, hentry⟩ := List.mem_filterMap.mp (Dict.mem_of_mem_ofList hmem)
    obtain ⟨parts, hcut, hparts⟩ := Option.map_eq_some_iff.mp hentry
    have hvalue : Text.strip parts.2 = decodeLatin1 f.value := (Prod.mk.inj hparts).2
    -- The value comes from one line of `splitlines`, and was stripped.
    have hone : OneLine line :=
      oneLine_of_mem_splitlines (hlines ▸ List.mem_cons_of_mem first hline)
    refine f.clean_iff.mpr ⟨fun c hc => hone c ?_, ?_⟩
    · rw [eq_of_cut hcut]
      rw [← hvalue] at hc
      exact List.mem_append_right _ (List.mem_append_right _ (Text.mem_of_mem_strip hc))
    · rw [← hvalue, Text.strip_strip]

theorem filler_of_mem_crlf {b : UInt8} (h : latin1 b ∈ crlf) : isFiller b = true := by
  have hmem : latin1 b = latin1 0x0D ∨ latin1 b = latin1 0x0A :=
    (List.mem_cons.mp h).imp id List.mem_singleton.mp
  obtain hcr | hlf := hmem
  · rw [latin1_injective hcr]
    decide
  · rw [latin1_injective hlf]
    decide

/-- **Where all header lines are found** in a part of a request without body, only filler is left
out. -/
theorem Representable.filler_of_headers (hr : r.Representable L) {data rest : List UInt8}
    (hwire : r.wire = data ++ rest) (hbody : r.body = []) (hrest : rest ≠ []) {first : Text}
    {lines : List Text} (hlines : splitlines (decodeLatin1 data) = first :: lines)
    (hheaders : r.headers L = Dict.ofList (lines.filterMap (headerEntry L))) :
    ∀ b ∈ rest, isFiller b = true := by
  have hblock : decodeLatin1 data ++ decodeLatin1 rest = block crlf r.texts := by
    rw [← decodeLatin1_wire hbody, hwire, decodeLatin1_append]
  obtain ⟨done, p, s, todo, htexts, hread, hleft, -⟩ | ⟨-, hleft⟩ :=
    splitlines_of_prefix hr.oneLine_texts r.texts_ne_nil hblock
      (mt List.map_eq_nil_iff.mp hrest)
  · rw [hlines] at hread
    rw [texts_eq] at htexts
    obtain _ | ⟨start, done⟩ := done
    -- only the first line was read, and no header line
    · obtain rfl : lines = [] := by
        obtain ⟨hnil, -⟩ | hone := hread
        · exact absurd hnil (List.cons_ne_nil _ _)
        · exact (List.cons.inj hone).2
      exact absurd (List.map_eq_nil_iff.mp hheaders) r.fields_ne_nil
    · obtain ⟨-, hfields⟩ := List.cons.inj htexts
      obtain ⟨fs, gs, hsplit, rfl, hgs⟩ := List.map_eq_append_iff.mp hfields
      obtain ⟨f, fs', rfl, hf, rfl⟩ := List.map_eq_cons_iff.mp hgs
      have hentries : lines.filterMap (headerEntry L) =
          fs.map (fun f => (L.lower (decodeLatin1 f.name), decodeLatin1 f.value)) ++
            (headerEntry L p).toList := by
        have hfs : ∀ f ∈ fs, f ∈ r.fields := fun f hf => hsplit ▸ List.mem_append_left _ hf
        obtain ⟨hread, rfl⟩ | hread := hread
        · rw [(List.cons.inj hread).2, hr.filterMap_headerEntry hfs]
          exact (List.append_nil _).symm
        · have happ : lines = (fs.map fun f => decodeLatin1 f.bytes) ++ [p] :=
            (List.cons.inj hread).2
          rw [happ, List.filterMap_append, hr.filterMap_headerEntry hfs, List.filterMap_cons]
          obtain hp | ⟨e, hp⟩ := Option.eq_none_or_eq_some (headerEntry L p) <;> rw [hp] <;> rfl
      have hkeys := hr.nodup
      rw [headers, List.map_map, hsplit, List.map_append, List.nodup_append,
        List.map_cons, List.nodup_cons] at hkeys
      obtain ⟨-, ⟨hfirst, -⟩, hdisjoint⟩ := hkeys
      -- Each later header line is found in the line that was cut.
      have hfound : ∀ g ∈ f :: fs', headerEntry L p =
          some (L.lower (decodeLatin1 g.name), decodeLatin1 g.value) := by
        intro g hg
        have hmem : (L.lower (decodeLatin1 g.name), decodeLatin1 g.value) ∈ r.headers L :=
          List.mem_map_of_mem (hsplit ▸ List.mem_append_right fs hg)
        rw [hheaders] at hmem
        have hmem := Dict.mem_of_mem_ofList hmem
        rw [hentries, List.mem_append] at hmem
        refine Option.mem_toList.mp (hmem.resolve_left fun hbefore => ?_)
        obtain ⟨f', hf', hsame⟩ := List.mem_map.mp hbefore
        exact hdisjoint _ (List.mem_map_of_mem hf') _ (List.mem_map_of_mem hg)
          (congrArg Prod.fst hsame)
      obtain rfl : fs' = [] := by
        refine List.eq_nil_iff_forall_not_mem.mpr fun g hg => hfirst ?_
        have hsame := (hfound f List.mem_cons_self).symm.trans
          (hfound g (List.mem_cons_of_mem f hg))
        refine List.mem_map.mpr ⟨g, hg, ?_⟩
        exact (congrArg Prod.fst (Option.some.inj hsame)).symm
      have hblank := f.blank_of_headerEntry hf (hfound f List.mem_cons_self)
      intro b hb
      obtain hs | htodo | hbreak := hleft (latin1 b) (List.mem_map_of_mem hb)
      · have hmem : b ∈ f.before ∨ b ∈ f.after :=
          (hblank _ hs).imp (List.mem_map_of_injective latin1_injective).mp
            (List.mem_map_of_injective latin1_injective).mp
        exact Bool.or_eq_true_iff.mpr (Or.inl (hmem.elim (f.before_blank b) (f.after_blank b)))
      · exact absurd htodo List.not_mem_nil
      · exact filler_of_mem_crlf hbreak
  · exact fun b hb => filler_of_mem_crlf (hleft _ (List.mem_map_of_mem hb))

/-- What is left out of a request whose parts are found is nothing, or filler after its head. -/
theorem Representable.arrived_of_parse (hr : r.Representable L) {data rest : List UInt8}
    (hwire : r.wire = data ++ rest)
    (h : parseHttpRequest L data = some (r.proxyRequest L)) : r.Arrived data := by
  obtain ⟨first, lines, hlines, hheaders, hbody, hhello⟩ := parseHttpRequest_eq_some h
  have hheaders : r.headers L = Dict.ofList (lines.filterMap (headerEntry L)) := hheaders
  have hbody : r.body = (partition (lineBreak ++ lineBreak) data).2 := hbody
  have hhello : r.wire.take 512 = data.take 512 := hhello
  obtain ⟨body, hpartition, hsplit⟩ | ⟨hpartition, hrest⟩ := hr.partition_prefix hwire
  · rw [hpartition] at hbody
    obtain rfl : rest = [] := List.append_right_eq_self.mp (hbody ▸ hsplit).symm
    exact Or.inl (by rw [hwire, List.append_nil])
  · rw [hpartition] at hbody hlines
    refine Or.inr ⟨hbody, ?_, rest, hwire, ?_⟩
    · have hlength := congrArg List.length hhello
      have hpos := List.length_pos_of_ne_nil hrest
      rw [hwire, List.length_take, List.length_take, List.length_append] at hlength
      omega
    · exact hr.filler_of_headers hwire hbody hrest hlines hheaders

end HttpRequest

/-- **The reads of a request.** Whatever the segments, the request that is handled has exactly the
header lines and the body of the request that was sent if and only if its header names differ, its
header values are clean, and the first read holds it, or all of it that matters. -/
theorem handleConnection_iff (r : HttpRequest) (s : Segmentation r.wire) :
    handleConnection L s.segments = some (r.proxyRequest L) ↔
      r.Representable L ∧ r.Arrived (read 65536 s.segments) := by
  obtain ⟨rest, hwire⟩ := read_prefix 65536 s
  constructor
  · intro h
    have hr := HttpRequest.representable_of_parse h
    exact ⟨hr, hr.arrived_of_parse hwire h⟩
  · rintro ⟨hr, hall | ⟨hbody, hhello, rest, hwire, hfiller⟩⟩
    · rw [handleConnection, hall]
      exact hr.parse_wire
    · by_cases hrest : rest = []
      · rw [hrest, List.append_nil] at hwire
        rw [handleConnection, ← hwire]
        exact hr.parse_wire
      · exact hr.parse_prefix hwire hbody hrest hfiller hhello

/-- A header line with one space after its colon. -/
def contentLengthTwo : HeaderLine where
  name := "content-length".toList.map fun c => UInt8.ofNat c.toNat
  before := [0x20]
  value := [0x32]
  after := []
  name_ne_nil := List.cons_ne_nil _ _
  name_token := List.all_eq_true.mp (by decide)
  before_blank := List.forall_mem_singleton.mpr (by decide)
  after_blank := List.forall_mem_nil _
  value_field := List.forall_mem_singleton.mpr (by decide)
  value_head := fun _ hb => Option.some.inj hb ▸ rfl
  value_last := fun _ hb => Option.some.inj hb ▸ rfl

/-- A request whose body is an empty object. -/
def emptyObject : HttpRequest where
  method := [0x50, 0x4F, 0x53, 0x54]
  target := [0x2F]
  fields := [contentLengthTwo]
  body := [0x7B, 0x7D]
  method_ne_nil := List.cons_ne_nil _ _
  method_token := List.all_eq_true.mp (by decide)
  target_ne_nil := List.cons_ne_nil _ _
  target_visible := List.forall_mem_singleton.mpr (by decide)
  content_length := ⟨contentLengthTwo, List.mem_singleton_self _, by decide,
    List.cons_ne_nil _ _, List.forall_mem_singleton.mpr (by decide), by decide⟩

/-- Its head and its body, one after the other. -/
def headThenBody : Segmentation emptyObject.wire where
  segments := [block lineBreak emptyObject.lines, emptyObject.body]
  ne_nil := List.forall_mem_cons.mpr
    ⟨List.cons_ne_nil _ _, List.forall_mem_singleton.mpr (List.cons_ne_nil _ _)⟩
  flatten_eq := by decide

/-- **A request that arrives in two segments** is handled without its body. -/
theorem not_handleConnection :
    ¬ ∀ (L : LowerCase) (r : HttpRequest) (s : Segmentation r.wire),
      handleConnection L s.segments = some (r.proxyRequest L) := by
  intro hall
  have hsame := hall ⟨id, fun _ => rfl⟩ emptyObject headThenBody
  have hbody : (handleConnection ⟨id, fun _ => rfl⟩ headThenBody.segments).map ProxyRequest.body =
      some [] := by decide +kernel
  rw [hsame] at hbody
  exact absurd (Option.some.inj hbody) (by decide)

end AnonReq.Proxy
