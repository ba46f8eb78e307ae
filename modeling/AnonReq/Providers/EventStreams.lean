import AnonReq.Foundation.JsonReader
import AnonReq.Foundation.Splitting
import AnonReq.Providers.StreamChunks

/-!
# Event streams

`stream_events` of `providers/openai.py`, `providers/anthropic.py` and `providers/ollama.py`: the
body of a response is split into lines as `str.splitlines` splits it, and each line with the data of
an event becomes a payload. What cannot be decoded is passed over.

* `exists_lost_piece`: the data line of a payload that has no space behind its colon, or a line
  break of `splitlines` in its text, begins with a line from which nothing is read.
* `streams_loseNothing_iff`: when no text is lost.
* `not_streams_loseNothing`: a line separator in a text, as JSON allows it, loses the text.
-/

namespace AnonReq.Providers

open Streaming Splitting

variable (shown : Text → Text)

/-! ### The adapters -/

section OpenAI

variable (toInt : Json → Option ℤ)

/-- The payload of a line, if it has one. -/
def OpenAIAdapter.readLine (line : Text) : Option Json :=
  let line := line.strip
  if line = [] ∨ ":".toList <+: line ∨ ¬ "data: ".toList <+: line then none
  else if line.drop 6 = "[DONE]".toList then none
  else Json.loads shown (line.drop 6)

/-- `OpenAIAdapter.stream_events` over the lines of a response: the events, and whether an exception
ends them. -/
def OpenAIAdapter.streamEvents (lines : List Text) : List ProviderEvent × Bool :=
  eventsOf (parseChunk toInt) (lines.filterMap (readLine shown))

end OpenAI

/-- The payloads of some lines, each with the type that was announced last. -/
def AnthropicAdapter.readLines : Text → List Text → List (Text × Json)
  | _, [] => []
  | eventType, line :: lines =>
    let line := line.strip
    if line = [] ∨ ":".toList <+: line then readLines eventType lines
    else if "event: ".toList <+: line then readLines (line.drop 7) lines
    else if "data: ".toList <+: line then
      match Json.loads shown (line.drop 6) with
      | none => readLines eventType lines
      | some data => (eventType, data) :: readLines eventType lines
    else readLines eventType lines

/-- `AnthropicAdapter.stream_events`. -/
def AnthropicAdapter.streamEvents (lines : List Text) : List ProviderEvent × Bool :=
  eventsOf (fun event => (parseAnthropicEvent event.1 event.2).map Option.toList)
    (readLines shown [] lines)

/-- The payload of a line, if it has one. -/
def OllamaAdapter.readLine (line : Text) : Option Json :=
  let line := line.strip
  if line = [] then none else Json.loads shown line

/-- `OllamaAdapter.stream_events`. -/
def OllamaAdapter.streamEvents (lines : List Text) : List ProviderEvent × Bool :=
  eventsOf parseOllamaChunk (lines.filterMap (readLine shown))

/-! ### Payloads -/

/-- The text of a chunk of OpenAI, that of its choices. -/
def OpenAIAdapter.Chunk.text {toInt : Json → Option ℤ} (c : Chunk toInt) : Text :=
  c.choices.flatMap ChoiceChunk.text

/-- A payload of Anthropic with a text delta. -/
structure AnthropicAdapter.TextDelta where
  data : Json
  delta : Json
  text : Text
  delta_eq : getD "delta" (.object []) data = some delta
  type_eq : getD "type" .null delta = some (.text "text_delta".toList)
  text_eq : getD "text" (.text []) delta = some (.text text)

/-- A payload of Ollama with a text, and perhaps with the end of the stream. -/
structure OllamaAdapter.TextChunk where
  data : Json
  message : Json
  role : Option Text
  text : Text
  done : Json
  message_eq : getD "message" (.object []) data = some message
  role_eq : messageField "role" "assistant" message = OpenAIAdapter.textOrNull role
  text_eq : messageField "content" "" message = .text text
  done_eq : getD "done" (.bool false) data = some done
  reason_eq : done.truthy = true → ∃ doneReason finishReason,
    getD "done_reason" (.text "stop".toList) data = some doneReason ∧
      mapFinishReason doneReason = some finishReason

/-! ### Framings -/

/-- A line with a field of an event; the space behind the colon may be left out. -/
def fieldLine (name : String) (space : Bool) (value : Text) : Text :=
  name.toList ++ ':' :: ((if space then [' '] else []) ++ value)

/-- What may stand between events: an empty line or a comment. -/
def IsGap (line : Text) : Prop := line = [] ∨ ":".toList <+: line ∧ OneLine line

/-- The end of a stream of OpenAI. -/
def IsTerminator (line : Text) : Prop := ∃ space, line = fieldLine "data" space "[DONE]".toList

variable {shown}

/-- A payload as it is sent: a text of it on one line, what stands before it, and where a space
stands behind the colon of a field. -/
structure Framing (shown : Text → Text) {P : Type} (data : P → Json) where
  between : List Text
  eventSpace : Bool
  dataSpace : Bool
  payload : P
  text : Text
  isGap : ∀ line ∈ between, IsGap line
  noBreak : ∀ c ∈ text, c ≠ '\r' ∧ c ≠ '\n'
  loads_eq : Json.loads shown text = some (data payload)

namespace Framing

variable {P : Type} {data : P → Json}

/-- The line with the payload. -/
def dataLine (f : Framing shown data) : Text := fieldLine "data" f.dataSpace f.text

/-- The line with the type of a text delta of Anthropic. -/
def eventLine (f : Framing shown data) : Text :=
  fieldLine "event" f.eventSpace "content_block_delta".toList

/-- A space is the first character behind the colon, and no character of the text ends a line of
`splitlines`. -/
def Readable (f : Framing shown data) : Prop := "data: ".toList <+: f.dataLine ∧ OneLine f.text

instance (f : Framing shown data) : Decidable f.Readable := inferInstanceAs (Decidable (_ ∧ _))

end Framing

/-- No text is lost: the deltas have the texts of the payloads, and every line that carries data is
decoded. -/
structure LosesNothing (events : List ProviderEvent) (texts lines : List Text)
    (Carries Decodes : Text → Prop) : Prop where
  text : deltaText events = texts.flatten
  decoded : ∀ line ∈ lines, Carries line → Decodes line

/-- A line of an event stream with data other than the end of the stream. -/
def CarriesData (line : Text) : Prop := "data:".toList <+: line ∧ ¬ IsTerminator line

/-! ### Lines -/

theorem isSpace_of_isLineBreak {c : Char} (h : isLineBreak c = true) : Text.isSpace c = true := by
  simp only [isLineBreak, List.contains_iff_mem, List.mem_cons, List.not_mem_nil, or_false] at h
  simp only [Text.isSpace, Bool.or_eq_true, Bool.and_eq_true, decide_eq_true_eq,
    List.contains_iff_mem, List.mem_cons, List.not_mem_nil, or_false]
  omega

/-- A break other than those that end a line everywhere is no blank of JSON. -/
theorem isBlank_of_isLineBreak {c : Char} (h : isLineBreak c = true) (hcr : c ≠ '\r')
    (hlf : c ≠ '\n') : JsonText.isBlank c = false := by
  by_contra hblank
  simp only [JsonText.isBlank, Bool.not_eq_false, Bool.or_eq_true, beq_iff_eq] at hblank
  obtain ((rfl | rfl) | rfl) | rfl := hblank
  · exact absurd h (by decide)
  · exact absurd h (by decide)
  · exact hlf rfl
  · exact hcr rfl

theorem rdropWhile_append {p : Char → Bool} (a : Text) {b : Text} (h : b.rdropWhile p ≠ []) :
    (a ++ b).rdropWhile p = a ++ b.rdropWhile p := by
  have hne : (b.reverse.dropWhile p).isEmpty = false := by
    simpa [List.rdropWhile] using h
  rw [List.rdropWhile, List.reverse_append, List.dropWhile_append, hne, if_neg Bool.false_ne_true,
    List.reverse_append, List.reverse_reverse, List.rdropWhile]

theorem strip_cons {c : Char} (h : Text.isSpace c = false) (rest : Text) :
    Text.strip (c :: rest) = (c :: rest).rdropWhile Text.isSpace := by
  rw [Text.strip, List.dropWhile_cons_of_neg (by simp [h])]

theorem strip_prefix {c : Char} (h : Text.isSpace c = false) (rest : Text) :
    Text.strip (c :: rest) <+: c :: rest := by
  rw [strip_cons h]
  exact List.rdropWhile_prefix _ _

/-- The first line of a text that begins in a known way. -/
theorem exists_first_piece {a text : Text} (ha : OneLine a) (hne : a ≠ []) :
    ∃ p q, text = p ++ q ∧ a ++ p ∈ fullLines (a ++ text) ∧ OneLine p ∧
      (q = [] ∨ ∃ c more, q = c :: more ∧ isLineBreak c = true) := by
  by_cases htext : OneLine text
  · have hline : OneLine (a ++ text) := fun c hc => (List.mem_append.mp hc).elim (ha c) (htext c)
    refine ⟨text, [], (List.append_nil _).symm, ?_, htext, Or.inl rfl⟩
    rw [fullLines_of_oneLine hline fun h => hne (List.append_eq_nil_iff.mp h).1]
    exact List.mem_singleton_self _
  · obtain ⟨p, c, more, rfl, hp, hc⟩ := exists_first_break htext
    have hline : OneLine (a ++ p) := fun c hc => (List.mem_append.mp hc).elim (ha c) (hp c)
    refine ⟨p, c :: more, rfl, ?_, hp, Or.inr ⟨c, more, rfl, hc⟩⟩
    rw [← List.append_assoc, fullLines_append _ hc,
      fullLines_of_oneLine hline fun h => hne (List.append_eq_nil_iff.mp h).1]
    exact List.mem_cons_self

namespace Framing

variable {P : Type} {data : P → Json} (f : Framing shown data)

/-- What stands behind the colon. -/
theorem loads_behind_colon {fields : List (Text × Json)} (h : data f.payload = .object fields) :
    Json.loads shown ((if f.dataSpace then [' '] else []) ++ f.text) = some (.object fields) := by
  refine (Json.loads_blanks_iff ?_).mpr (h ▸ f.loads_eq)
  intro c hc
  split_ifs at hc
  · obtain rfl := List.mem_singleton.mp hc
    decide
  · exact absurd hc List.not_mem_nil

/-- **A readable line** is decoded. -/
theorem loads_of_readable (hobject : ∃ fields, data f.payload = .object fields)
    (h : f.Readable) :
    ∃ t, f.dataLine.strip = "data: ".toList ++ t ∧ Json.loads shown t = some (data f.payload) := by
  obtain ⟨fields, hfields⟩ := hobject
  obtain ⟨⟨body, hbody⟩, -⟩ := h
  have hcolon : ' ' :: body = (if f.dataSpace then [' '] else []) ++ f.text :=
    (List.cons.inj (@List.append_cancel_left _ "data".toList (':' :: ' ' :: body) _ hbody)).2
  have hloads : Json.loads shown body = some (.object fields) := by
    have hspace : Json.Blank [' '] := List.forall_mem_singleton.mpr (by decide)
    refine (Json.loads_blanks_iff hspace).mp ?_
    rw [List.singleton_append, hcolon]
    exact f.loads_behind_colon hfields
  obtain ⟨-, hstripped, -⟩ := Json.loads_strip hloads
  have hne : body.rdropWhile Text.isSpace ≠ [] := by
    intro hnil
    rw [hnil] at hstripped
    exact absurd hstripped (Option.some_ne_none _).symm
  refine ⟨body.rdropWhile Text.isSpace, ?_, hfields ▸ hstripped⟩
  rw [← hbody, show "data: ".toList ++ body = 'd' :: ("ata: ".toList ++ body) from rfl,
    strip_cons (by decide)]
  exact rdropWhile_append "data: ".toList hne

/-- A text with an object does not begin like the end of a stream. -/
theorem not_isTerminator {p q : Text} {fields : List (Text × Json)}
    (h : Json.loads shown (p ++ q) = some (.object fields)) :
    ¬ IsTerminator ("data:".toList ++ p) := by
  rintro ⟨space, hspace⟩
  have hp : p = (if space then [' '] else []) ++ "[DONE]".toList :=
    @List.append_cancel_left _ "data:".toList _ _ hspace
  have hnone : Json.loads shown (p ++ q) = none := by
    rw [hp]
    cases space <;> rfl
  rw [hnone] at h
  exact absurd h (Option.some_ne_none _).symm

/-- **What is lost**: the line of a payload that is not readable begins with a line that carries
data and from which nothing is read. -/
theorem exists_lost_piece (hobject : ∃ fields, data f.payload = .object fields)
    (h : ¬ f.Readable) :
    ∃ piece ∈ fullLines f.dataLine, CarriesData piece ∧
      ∀ t, Text.strip piece = "data: ".toList ++ t → Json.loads shown t = none := by
  obtain ⟨fields, hfields⟩ := hobject
  have hrest := f.loads_behind_colon hfields
  obtain ⟨p, q, hsplit, hpiece, hp, hq⟩ := @exists_first_piece "data:".toList
    ((if f.dataSpace then [' '] else []) ++ f.text) (by decide) (by decide)
  have hline : f.dataLine = "data:".toList ++ (p ++ q) := by
    rw [← hsplit]
    rfl
  rw [hsplit] at hrest hpiece
  refine ⟨"data:".toList ++ p, hline ▸ hpiece, ⟨⟨p, rfl⟩, not_isTerminator hrest⟩, ?_⟩
  intro t ht
  by_contra hdecoded
  obtain ⟨d, hd⟩ := Option.ne_none_iff_exists'.mp hdecoded
  -- what `strip` takes away stands at the end
  obtain ⟨trail, htrail, hspaces⟩ : ∃ trail, "data:".toList ++ p = "data: ".toList ++ (t ++ trail) ∧
      ∀ c ∈ trail, Text.isSpace c = true := by
    refine ⟨List.rtakeWhile Text.isSpace ("data:".toList ++ p), ?_, fun c hc =>
      List.mem_rtakeWhile_imp hc⟩
    rw [← List.append_assoc, ← ht, show "data:".toList ++ p = 'd' :: ("ata:".toList ++ p) from rfl,
      strip_cons (by decide), List.rdropWhile_append_rtakeWhile]
  obtain rfl : p = ' ' :: (t ++ trail) := @List.append_cancel_left _ "data:".toList _ _ htrail
  obtain rfl | ⟨c, more, rfl, hc⟩ := hq
  · -- nothing is cut off, so the line is readable
    refine h ⟨⟨t ++ trail, ?_⟩, fun c hmem => hp c ?_⟩
    · rw [hline, List.append_nil]
      rfl
    · rw [List.append_nil] at hsplit
      rw [← hsplit]
      exact List.mem_append_right _ hmem
  · have hmem : c ∈ f.text := by
      have hcut : c ∈ (if f.dataSpace then [' '] else []) ++ f.text := by
        rw [hsplit]
        exact List.mem_append_right _ List.mem_cons_self
      obtain hspace | hmem := List.mem_append.mp hcut
      · split_ifs at hspace
        · obtain rfl := List.mem_singleton.mp hspace
          exact absurd hc (by decide)
        · exact absurd hspace List.not_mem_nil
      · exact hmem
    obtain ⟨hcr, hlf⟩ := f.noBreak c hmem
    have hnone : Json.loads shown (t ++ (trail ++ c :: more)) = none :=
      Json.loads_cut hd hspaces (isSpace_of_isLineBreak hc) (isBlank_of_isLineBreak hc hcr hlf)
    have hspace : Json.Blank [' '] := List.forall_mem_singleton.mpr (by decide)
    have hsome : Json.loads shown (t ++ (trail ++ c :: more)) = some (.object fields) :=
      (Json.loads_blanks_iff hspace).mp (by simpa using hrest)
    rw [hnone] at hsome
    exact absurd hsome (Option.some_ne_none _).symm

/-- A text on a line of its own. -/
theorem exists_lost_text (hobject : ∃ fields, data f.payload = .object fields)
    (h : ¬ OneLine f.text) :
    ∃ piece ∈ fullLines f.text,
      Text.strip piece ≠ [] ∧ Json.loads shown (Text.strip piece) = none := by
  obtain ⟨fields, hfields⟩ := hobject
  have hloads := hfields ▸ f.loads_eq
  obtain ⟨p, c, more, hsplit, hp, hc⟩ := exists_first_break h
  have hmem : c ∈ f.text := hsplit ▸ List.mem_append_right _ List.mem_cons_self
  obtain ⟨hcr, hlf⟩ := f.noBreak c hmem
  have hblank := isBlank_of_isLineBreak hc hcr hlf
  obtain ⟨before, inner, behind, hbefore, -, htext, -⟩ :=
    Json.exists_inner_of_loads hloads rfl
  -- the cut is behind the first bracket
  obtain ⟨bracketed, rfl⟩ : ∃ bracketed, p = before ++ '{' :: bracketed := by
    have hboth : p ++ c :: more = before ++ '{' :: (inner ++ ['}'] ++ behind) :=
      hsplit.symm.trans htext
    obtain ⟨as, rfl, has⟩ | ⟨bs, rfl, hbs⟩ := List.append_eq_append_iff.mp hboth
    · rcases as with _ | ⟨e, as⟩
      · exact absurd hc (by rw [(List.cons.inj has).1]; decide)
      · have he := hbefore e (List.mem_append_right _ List.mem_cons_self)
        rw [← (List.cons.inj has).1, hblank] at he
        exact absurd he Bool.false_ne_true
    · rcases bs with _ | ⟨e, bs⟩
      · exact absurd hc (by rw [← (List.cons.inj hbs).1]; decide)
      · exact ⟨bs, by rw [← (List.cons.inj hbs).1]⟩
  have hstrip : Text.strip (before ++ '{' :: bracketed) =
      ('{' :: bracketed).rdropWhile Text.isSpace := by
    rw [Text.strip_append_of_space fun c hc => Json.isSpace_of_isBlank (hbefore c hc),
      strip_cons (by decide)]
  refine ⟨before ++ '{' :: bracketed, ?_, ?_, ?_⟩
  · rw [hsplit, fullLines_append _ hc, fullLines_of_oneLine hp (by simp)]
    exact List.mem_cons_self
  · rw [hstrip, Ne, List.rdropWhile_eq_nil_iff]
    intro hall
    exact absurd (hall '{' List.mem_cons_self) (by decide)
  · rw [hstrip]
    by_contra hdecoded
    obtain ⟨d, hd⟩ := Option.ne_none_iff_exists'.mp hdecoded
    have hnone := @Json.loads_cut shown _ (List.rtakeWhile Text.isSpace ('{' :: bracketed)) more c d
      hd (fun c hc => List.mem_rtakeWhile_imp hc) (isSpace_of_isLineBreak hc) hblank
    rw [← List.append_assoc, List.rdropWhile_append_rtakeWhile] at hnone
    rw [hsplit, List.append_assoc] at hloads
    have hsome := (Json.loads_blanks_iff hbefore).mp hloads
    rw [hnone] at hsome
    exact absurd hsome (Option.some_ne_none _).symm

end Framing

/-! ### Lines without data -/

theorem oneLine_fieldLine {name : String} (hname : OneLine name.toList) (space : Bool)
    {value : Text} (hvalue : OneLine value) : OneLine (fieldLine name space value) := by
  refine oneLine_append hname (List.forall_mem_cons.mpr ⟨by decide, oneLine_append ?_ hvalue⟩)
  cases space <;> decide

/-- The lines that carry no data. -/
def IsOther (line : Text) : Prop :=
  IsGap line ∨ IsTerminator line ∨
    ∃ space, line = fieldLine "event" space "content_block_delta".toList

variable {line : Text}

theorem fullLines_gap (h : IsGap line) :
    fullLines line = [] ∨ fullLines line = [line] ∧ ":".toList <+: line := by
  obtain rfl | ⟨hcolon, hline⟩ := h
  · exact Or.inl rfl
  · refine Or.inr ⟨fullLines_of_oneLine hline ?_, hcolon⟩
    rintro rfl
    exact absurd hcolon (by decide)

theorem not_carriesData_of_isOther {line piece : Text} (h : IsOther line)
    (hpiece : piece ∈ fullLines line) : ¬ CarriesData piece := by
  rintro ⟨⟨rest, hrest⟩, hnot⟩
  obtain hgap | hterminator | ⟨space, rfl⟩ := h
  · obtain hnil | ⟨hfull, ⟨rest', hrest'⟩⟩ := fullLines_gap hgap
    · exact absurd (hnil ▸ hpiece) List.not_mem_nil
    · obtain rfl := List.mem_singleton.mp (hfull ▸ hpiece)
      exact absurd (List.cons.inj (hrest.trans hrest'.symm)).1 (by decide)
  · have hsingle : fullLines line = [line] := by
      obtain ⟨space, rfl⟩ := hterminator
      cases space <;> rfl
    exact hnot ((List.mem_singleton.mp (hsingle ▸ hpiece)).symm ▸ hterminator)
  · have hsingle : fullLines (fieldLine "event" space "content_block_delta".toList) =
        [fieldLine "event" space "content_block_delta".toList] := by
      cases space <;> rfl
    obtain rfl := List.mem_singleton.mp (hsingle ▸ hpiece)
    exact absurd (List.cons.inj hrest).1 (by decide)

theorem mem_fullLines {body line : Text} (hne : line ≠ []) :
    line ∈ fullLines body ↔ line ∈ splitlines body := by
  rw [fullLines, List.mem_filter]
  exact and_iff_left (by simp [hne])

theorem ne_nil_of_carriesData (h : CarriesData line) : line ≠ [] := by
  rintro rfl
  exact absurd h.1 (by decide)

theorem Framing.fullLines_dataLine {P : Type} {data : P → Json} {f : Framing shown data}
    (h : f.Readable) : fullLines f.dataLine = [f.dataLine] :=
  fullLines_of_oneLine (oneLine_fieldLine (by decide) _ h.2) (by simp [dataLine, fieldLine])

section

variable {P : Type} {data : P → Json} {framings : List (Framing shown data)}
  {linesOf : Framing shown data → List Text} {closing : List Text} {body : Text}

/-- **The lines that carry data**, of a body whose payloads are readable, are those of the
payloads. -/
theorem exists_dataLine_of_carriesData
    (hlines : ∀ f ∈ framings, ∀ line ∈ linesOf f, line = f.dataLine ∨ IsOther line)
    (hclosing : ∀ line ∈ closing, IsOther line)
    (hbody : Joined (framings.flatMap linesOf ++ closing) body)
    (hreadable : ∀ f ∈ framings, f.Readable) (hline : line ∈ splitlines body)
    (hcarries : CarriesData line) : ∃ f ∈ framings, line = f.dataLine := by
  have hmem := (mem_fullLines (ne_nil_of_carriesData hcarries)).mpr hline
  rw [fullLines_of_joined hbody] at hmem
  obtain ⟨whole, hwhole, hpiece⟩ := List.mem_flatMap.mp hmem
  obtain hframing | hafter := List.mem_append.mp hwhole
  · obtain ⟨f, hf, hwhole⟩ := List.mem_flatMap.mp hframing
    obtain rfl | hother := hlines f hf whole hwhole
    · rw [Framing.fullLines_dataLine (hreadable f hf)] at hpiece
      exact ⟨f, hf, List.mem_singleton.mp hpiece⟩
    · exact absurd hcarries (not_carriesData_of_isOther hother hpiece)
  · exact absurd hcarries (not_carriesData_of_isOther (hclosing whole hafter) hpiece)

/-- **A payload that is not readable** loses a line. -/
theorem exists_lost_line (hobject : ∀ payload, ∃ fields, data payload = .object fields)
    (hdata : ∀ f ∈ framings, f.dataLine ∈ linesOf f)
    (hbody : Joined (framings.flatMap linesOf ++ closing) body) {f : Framing shown data}
    (hf : f ∈ framings) (h : ¬ f.Readable) :
    ∃ line ∈ splitlines body, CarriesData line ∧
      ∀ t, Text.strip line = "data: ".toList ++ t → Json.loads shown t = none := by
  obtain ⟨piece, hpiece, hcarries, hlost⟩ := f.exists_lost_piece (hobject f.payload) h
  refine ⟨piece, (mem_fullLines (ne_nil_of_carriesData hcarries)).mp ?_, hcarries, hlost⟩
  rw [fullLines_of_joined hbody]
  exact List.mem_flatMap.mpr
    ⟨f.dataLine, List.mem_append_left _ (List.mem_flatMap.mpr ⟨f, hf, hdata f hf⟩), hpiece⟩

end

theorem colon_prefix_strip (h : ":".toList <+: line) : ":".toList <+: Text.strip line := by
  obtain ⟨rest, rfl⟩ := h
  have hprefix := strip_prefix (c := ':') (by decide) rest
  rcases hstrip : Text.strip (':' :: rest) with _ | ⟨c, t⟩
  · rw [strip_cons (by decide), List.rdropWhile_eq_nil_iff] at hstrip
    exact absurd (hstrip ':' List.mem_cons_self) (by decide)
  · rw [hstrip] at hprefix
    obtain rfl : c = ':' := (List.cons_prefix_cons.mp hprefix).1
    exact ⟨t, hstrip.symm⟩

/-! ### OpenAI -/

namespace OpenAIAdapter

variable {toInt : Json → Option ℤ}

/-- A chunk as it is sent. -/
abbrev ChunkFraming (shown : Text → Text) (toInt : Json → Option ℤ) :=
  Framing shown fun c : Chunk toInt => c.data

/-- The lines of a chunk. -/
def linesOf (f : ChunkFraming shown toInt) : List Text := f.between ++ [f.dataLine]

theorem readLine_of_colon (h : ":".toList <+: line) : readLine shown line = none :=
  if_pos (Or.inr (Or.inl (colon_prefix_strip h)))

theorem readLine_terminator (h : IsTerminator line) : readLine shown line = none := by
  obtain ⟨space, rfl⟩ := h
  cases space <;> rfl

theorem readLine_dataLine {f : ChunkFraming shown toInt} (h : f.Readable) :
    readLine shown f.dataLine = some f.payload.data := by
  obtain ⟨t, hstrip, hloads⟩ := f.loads_of_readable f.payload.exists_fields h
  have hdrop : List.drop 6 ("data: ".toList ++ t) = t := rfl
  have hterminator : t ≠ "[DONE]".toList := by
    rintro rfl
    have hnone : Json.loads shown "[DONE]".toList = none := rfl
    rw [hnone] at hloads
    exact absurd hloads (Option.some_ne_none _).symm
  have hskip : ¬ ("data: ".toList ++ t = [] ∨ ":".toList <+: "data: ".toList ++ t ∨
      ¬ "data: ".toList <+: "data: ".toList ++ t) := by
    rintro (hnil | hcolon | hdata)
    · exact absurd hnil (List.cons_ne_nil _ _)
    · exact absurd (List.cons_prefix_cons.mp hcolon).1 (by decide)
    · exact hdata ⟨t, rfl⟩
  unfold readLine
  dsimp only
  rw [hstrip, if_neg hskip, hdrop, if_neg hterminator, hloads]

theorem readLine_lost
    (h : ∀ t, Text.strip line = "data: ".toList ++ t → Json.loads shown t = none) :
    readLine shown line = none := by
  unfold readLine
  dsimp only
  split_ifs with hskip hterminator
  · rfl
  · rfl
  · obtain ⟨t, ht⟩ := not_not.mp (not_or.mp (not_or.mp hskip).2).2
    rw [← ht]
    exact h t ht.symm

theorem filterMap_readLine_gap (h : IsGap line) :
    (fullLines line).filterMap (readLine shown) = [] := by
  obtain hnil | ⟨hfull, hcolon⟩ := fullLines_gap h
  · rw [hnil, List.filterMap_nil]
  · rw [hfull, List.filterMap_cons_none (readLine_of_colon hcolon), List.filterMap_nil]

theorem filterMap_readLine_others {lines : List Text}
    (h : ∀ line ∈ lines, IsGap line ∨ IsTerminator line) :
    (lines.flatMap fullLines).filterMap (readLine shown) = [] := by
  rw [List.filterMap_eq_nil_iff]
  intro piece hpiece
  obtain ⟨line, hline, hpiece⟩ := List.mem_flatMap.mp hpiece
  obtain hgap | ⟨space, rfl⟩ := h line hline
  · exact List.filterMap_eq_nil_iff.mp (filterMap_readLine_gap hgap) piece hpiece
  · have hsingle : fullLines (fieldLine "data" space "[DONE]".toList) =
        [fieldLine "data" space "[DONE]".toList] := by
      cases space <;> rfl
    exact readLine_terminator ⟨space, List.mem_singleton.mp (hsingle ▸ hpiece)⟩

/-- **The payloads of a body** whose chunks are readable. -/
theorem filterMap_readLine {framings : List (ChunkFraming shown toInt)} {closing : List Text}
    {body : Text} (hclosing : ∀ line ∈ closing, IsGap line ∨ IsTerminator line)
    (hbody : Joined (framings.flatMap linesOf ++ closing) body)
    (hreadable : ∀ f ∈ framings, f.Readable) :
    (splitlines body).filterMap (readLine shown) =
      (framings.map Framing.payload).map Chunk.data := by
  rw [← filterMap_fullLines rfl, fullLines_of_joined hbody, List.flatMap_append,
    List.filterMap_append, filterMap_readLine_others hclosing, List.append_nil]
  clear hbody
  induction framings with
  | nil => rfl
  | cons f framings ih =>
    obtain ⟨hf, hframings⟩ := List.forall_mem_cons.mp hreadable
    have hbetween : (f.between.flatMap fullLines).filterMap (readLine shown) = [] :=
      filterMap_readLine_others fun line hline => Or.inl (f.isGap line hline)
    rw [List.flatMap_cons, List.flatMap_append, List.filterMap_append, ih hframings, linesOf,
      List.flatMap_append, List.filterMap_append, hbetween, List.flatMap_singleton,
      Framing.fullLines_dataLine hf, List.filterMap_cons_some (readLine_dataLine hf),
      List.filterMap_nil]
    rfl

/-- The stream of a body loses nothing of some chunks. -/
def KeepsChunks (framings : List (ChunkFraming shown toInt)) (body : Text) : Prop :=
  LosesNothing (streamEvents shown toInt (splitlines body)).1
    (framings.map fun f => f.payload.text) (splitlines body) CarriesData
    fun line => (readLine shown line).isSome = true

/-- **Streams of OpenAI** lose nothing exactly if every chunk is readable. -/
theorem keepsChunks_iff {framings : List (ChunkFraming shown toInt)} {closing : List Text}
    {body : Text} (hclosing : ∀ line ∈ closing, IsGap line ∨ IsTerminator line)
    (hbody : Joined (framings.flatMap linesOf ++ closing) body) :
    KeepsChunks framings body ↔ ∀ f ∈ framings, f.Readable := by
  constructor
  · intro h f hf
    by_contra hreadable
    obtain ⟨line, hline, hcarries, hlost⟩ := exists_lost_line
      (fun c : Chunk toInt => c.exists_fields)
      (fun f _ => List.mem_append_right _ List.mem_cons_self) hbody hf hreadable
    have hdecoded := h.decoded line hline hcarries
    rw [readLine_lost hlost] at hdecoded
    exact Bool.false_ne_true hdecoded
  · intro hreadable
    refine ⟨?_, fun line hline hcarries => ?_⟩
    · rw [streamEvents, filterMap_readLine hclosing hbody hreadable, eventsOf_parseChunk,
        deltaText_flatMap, List.flatMap_map, ← List.flatMap_def]
      refine List.flatMap_congr fun f _ => ?_
      rw [deltaText_flatMap]
      exact List.flatMap_congr fun c _ => c.deltaText_events _
    · have hothers : ∀ line ∈ closing, IsOther line := fun line hline =>
        (hclosing line hline).imp_right Or.inl
      have hlines : ∀ f ∈ framings, ∀ line ∈ linesOf f, line = f.dataLine ∨ IsOther line := by
        intro f _ line hline
        obtain hgap | hdata := List.mem_append.mp hline
        · exact Or.inr (Or.inl (f.isGap line hgap))
        · exact Or.inl (List.mem_singleton.mp hdata)
      obtain ⟨f, hf, rfl⟩ :=
        exists_dataLine_of_carriesData hlines hothers hbody hreadable hline hcarries
      rw [readLine_dataLine (hreadable f hf)]
      rfl

end OpenAIAdapter

/-! ### Anthropic -/

namespace AnthropicAdapter

/-- A text delta as it is sent. -/
abbrev DeltaFraming (shown : Text → Text) := Framing shown TextDelta.data

/-- The lines of a text delta. -/
def linesOf (f : DeltaFraming shown) : List Text := f.between ++ [f.eventLine, f.dataLine]

/-- The type of the text deltas is announced, with a space behind the colon, before the first text
that is not empty. -/
def Announced (framings : List (DeltaFraming shown)) : Prop :=
  ∀ f ∈ framings.takeWhile fun f => !f.eventSpace, f.payload.text = []

/-- The payloads, each with the type that was announced last. -/
def announced : Text → List (DeltaFraming shown) → List (Text × Json)
  | _, [] => []
  | eventType, f :: framings =>
    let eventType := if f.eventSpace then "content_block_delta".toList else eventType
    (eventType, f.payload.data) :: announced eventType framings

theorem TextDelta.exists_fields (d : TextDelta) : ∃ fields, d.data = .object fields :=
  exists_fields_of_getD d.delta_eq

/-- A delta that is announced. -/
theorem parseAnthropicEvent_eq (d : TextDelta) :
    parseAnthropicEvent "content_block_delta".toList d.data =
      some (some (assistantEvent { eventType := .textDelta, deltaText := some d.text } [])) := by
  have hbranch : parseAnthropicEvent "content_block_delta".toList d.data = parseDelta d.data := rfl
  rw [hbranch, parseDelta]
  simp only [d.delta_eq, d.type_eq, d.text_eq, Option.bind_eq_bind, Option.bind_some]
  rfl

theorem readLines_filter (eventType : Text) (lines : List Text) :
    readLines shown eventType (lines.filter (· ≠ [])) = readLines shown eventType lines := by
  induction lines generalizing eventType with
  | nil => rfl
  | cons line lines ih =>
    by_cases hline : line = []
    · subst hline
      rw [List.filter_cons_of_neg (by simp), ih]
      rfl
    · rw [List.filter_cons_of_pos (by simp [hline]), readLines, readLines]
      simp only [ih]

theorem readLines_gap (h : IsGap line) (eventType : Text) (rest : List Text) :
    readLines shown eventType (fullLines line ++ rest) = readLines shown eventType rest := by
  obtain hnil | ⟨hfull, hcolon⟩ := fullLines_gap h
  · rw [hnil, List.nil_append]
  · rw [hfull, List.singleton_append, readLines]
    exact if_pos (Or.inr (colon_prefix_strip hcolon))

theorem readLines_gaps {lines : List Text} (h : ∀ line ∈ lines, IsGap line) (eventType : Text)
    (rest : List Text) :
    readLines shown eventType (lines.flatMap fullLines ++ rest) =
      readLines shown eventType rest := by
  induction lines with
  | nil => rfl
  | cons line lines ih =>
    obtain ⟨hline, hlines⟩ := List.forall_mem_cons.mp h
    rw [List.flatMap_cons, List.append_assoc, readLines_gap hline, ih hlines]

theorem readLines_event (space : Bool) (eventType : Text) (rest : List Text) :
    readLines shown eventType
        (fullLines (fieldLine "event" space "content_block_delta".toList) ++ rest) =
      readLines shown (if space then "content_block_delta".toList else eventType) rest := by
  cases space <;> rfl

theorem readLines_data {f : DeltaFraming shown} (h : f.Readable) (eventType : Text)
    (rest : List Text) :
    readLines shown eventType (fullLines f.dataLine ++ rest) =
      (eventType, f.payload.data) :: readLines shown eventType rest := by
  obtain ⟨t, hstrip, hloads⟩ := f.loads_of_readable f.payload.exists_fields h
  have hdrop : List.drop 6 ("data: ".toList ++ t) = t := rfl
  have hskip : ¬ ("data: ".toList ++ t = [] ∨ ":".toList <+: "data: ".toList ++ t) := by
    rintro (hnil | hcolon)
    · exact absurd hnil (List.cons_ne_nil _ _)
    · exact absurd (List.cons_prefix_cons.mp hcolon).1 (by decide)
  have hevent : ¬ "event: ".toList <+: "data: ".toList ++ t := fun hevent =>
    absurd (List.cons_prefix_cons.mp hevent).1 (by decide)
  rw [Framing.fullLines_dataLine h, List.singleton_append, readLines, hstrip, if_neg hskip,
    if_neg hevent, if_pos ⟨t, rfl⟩, hdrop, hloads]

theorem readLines_lost
    (h : ∀ t, Text.strip line = "data: ".toList ++ t → Json.loads shown t = none) :
    readLines shown [] [line] = [] := by
  rw [readLines]
  split_ifs with hskip hevent hdata
  · rfl
  · rfl
  · obtain ⟨t, ht⟩ := hdata
    rw [← ht, show List.drop 6 ("data: ".toList ++ t) = t from rfl, h t ht.symm]
    rfl
  · rfl

/-- **The payloads of a body** whose deltas are readable. -/
theorem readLines_splitlines {framings : List (DeltaFraming shown)} {closing : List Text}
    {body : Text} (hclosing : ∀ line ∈ closing, IsGap line)
    (hbody : Joined (framings.flatMap linesOf ++ closing) body)
    (hreadable : ∀ f ∈ framings, f.Readable) (eventType : Text) :
    readLines shown eventType (splitlines body) = announced eventType framings := by
  rw [← readLines_filter, ← fullLines, fullLines_of_joined hbody, List.flatMap_append]
  clear hbody
  induction framings generalizing eventType with
  | nil =>
    have hgaps : readLines shown eventType (closing.flatMap fullLines ++ []) = [] :=
      readLines_gaps hclosing eventType []
    rwa [List.append_nil] at hgaps
  | cons f framings ih =>
    obtain ⟨hf, hframings⟩ := List.forall_mem_cons.mp hreadable
    rw [List.flatMap_cons, linesOf, List.flatMap_append, List.flatMap_append, List.append_assoc,
      List.append_assoc, readLines_gaps f.isGap, List.flatMap_cons, List.flatMap_singleton,
      List.append_assoc, Framing.eventLine, readLines_event, readLines_data hf,
      ih hframings]
    rfl

/-- The texts that arrive are those behind the first announcement. -/
theorem deltaText_announced (framings : List (DeltaFraming shown)) :
    deltaText (eventsOf (fun event => (parseAnthropicEvent event.1 event.2).map Option.toList)
        (announced [] framings)).1 =
      (framings.dropWhile fun f => !f.eventSpace).flatMap fun f => f.payload.text := by
  have hannounced : ∀ framings : List (DeltaFraming shown),
      deltaText (eventsOf (fun event => (parseAnthropicEvent event.1 event.2).map Option.toList)
          (announced "content_block_delta".toList framings)).1 =
        framings.flatMap fun f => f.payload.text := by
    intro framings
    have hmap : announced "content_block_delta".toList framings =
        framings.map fun f => ("content_block_delta".toList, f.payload.data) := by
      induction framings with
      | nil => rfl
      | cons f framings ih => rw [announced, ite_self, ih, List.map_cons]
    rw [hmap, eventsOf_map]
    refine deltaText_eventsOf fun f _ => ⟨_, congrArg _ (parseAnthropicEvent_eq f.payload), ?_⟩
    exact List.append_nil _
  induction framings with
  | nil => rfl
  | cons f framings ih =>
    cases hspace : f.eventSpace with
    | true =>
      have hfirst := hannounced (f :: framings)
      rw [announced, ite_self] at hfirst
      rw [announced, if_pos hspace, List.dropWhile_cons_of_neg (by simp [hspace]), hfirst]
    | false =>
      rw [announced, if_neg (by simp [hspace]), List.dropWhile_cons_of_pos (by simp [hspace]), ← ih]
      rfl

/-- The stream of a body loses nothing of some text deltas. -/
def KeepsDeltas (framings : List (DeltaFraming shown)) (body : Text) : Prop :=
  LosesNothing (streamEvents shown (splitlines body)).1 (framings.map fun f => f.payload.text)
    (splitlines body) CarriesData fun line => readLines shown [] [line] ≠ []

/-- **Streams of Anthropic** lose nothing exactly if every text delta is readable and announced. -/
theorem keepsDeltas_iff {framings : List (DeltaFraming shown)} {closing : List Text}
    {body : Text} (hclosing : ∀ line ∈ closing, IsGap line)
    (hbody : Joined (framings.flatMap linesOf ++ closing) body) :
    KeepsDeltas framings body ↔ (∀ f ∈ framings, f.Readable) ∧ Announced framings := by
  have htext : (∀ f ∈ framings, f.Readable) →
      (deltaText (streamEvents shown (splitlines body)).1 =
        (framings.map fun f => f.payload.text).flatten ↔ Announced framings) := by
    intro hreadable
    have hall : (framings.map fun f => f.payload.text).flatten =
        (framings.takeWhile fun f => !f.eventSpace).flatMap (fun f => f.payload.text) ++
          (framings.dropWhile fun f => !f.eventSpace).flatMap fun f => f.payload.text := by
      rw [← List.flatMap_append, List.takeWhile_append_dropWhile, List.flatMap_def]
    rw [streamEvents, readLines_splitlines hclosing hbody hreadable, deltaText_announced, hall,
      List.self_eq_append_left, List.flatMap_eq_nil_iff]
    rfl
  constructor
  · intro h
    have hreadable : ∀ f ∈ framings, f.Readable := by
      intro f hf
      by_contra hnot
      obtain ⟨line, hline, hcarries, hlost⟩ := exists_lost_line TextDelta.exists_fields
        (fun f _ => List.mem_append_right _ (by simp)) hbody hf hnot
      exact h.decoded line hline hcarries (readLines_lost hlost)
    exact ⟨hreadable, (htext hreadable).mp h.text⟩
  · rintro ⟨hreadable, hannounced⟩
    refine ⟨(htext hreadable).mpr hannounced, fun line hline hcarries => ?_⟩
    have hlines : ∀ f ∈ framings, ∀ line ∈ linesOf f, line = f.dataLine ∨ IsOther line := by
      intro f _ line hline
      obtain hgap | hframe := List.mem_append.mp hline
      · exact Or.inr (Or.inl (f.isGap line hgap))
      · obtain rfl | hdata := List.mem_cons.mp hframe
        · exact Or.inr (Or.inr (Or.inr ⟨f.eventSpace, rfl⟩))
        · exact Or.inl (List.mem_singleton.mp hdata)
    obtain ⟨f, hf, rfl⟩ := exists_dataLine_of_carriesData hlines
      (fun line hline => Or.inl (hclosing line hline)) hbody hreadable hline hcarries
    have hread := readLines_data (hreadable f hf) [] []
    rw [Framing.fullLines_dataLine (hreadable f hf), List.singleton_append] at hread
    rw [hread]
    exact List.cons_ne_nil _ _

end AnthropicAdapter

/-! ### Ollama -/

namespace OllamaAdapter

/-- A chunk as it is sent. -/
abbrev ChunkFraming (shown : Text → Text) := Framing shown TextChunk.data

theorem TextChunk.exists_fields (c : TextChunk) : ∃ fields, c.data = .object fields :=
  exists_fields_of_getD c.message_eq

/-- A chunk gives its text. -/
theorem exists_parseOllamaChunk (c : TextChunk) :
    ∃ events, parseOllamaChunk c.data = some events ∧ deltaText events = c.text := by
  obtain ⟨texts, htexts, htext⟩ : ∃ events,
      textEvents (OpenAIAdapter.textOrNull c.role) (.text c.text) = some events ∧
        deltaText events = c.text := by
    rw [textEvents, OpenAIAdapter.ChoiceChunk.eventRole_textOrNull]
    rcases c.text with _ | ⟨letter, letters⟩
    · exact ⟨[], rfl, rfl⟩
    · exact ⟨_, rfl, List.append_nil _⟩
  obtain ⟨finishes, hfinishes, hnone⟩ : ∃ events,
      finishEvents c.data (OpenAIAdapter.textOrNull c.role) = some events ∧
        deltaText events = [] := by
    rw [finishEvents, c.done_eq, OpenAIAdapter.ChoiceChunk.eventRole_textOrNull]
    by_cases hdone : c.done.truthy = true
    · obtain ⟨doneReason, finishReason, hreason, hmap⟩ := c.reason_eq hdone
      simp only [Option.bind_eq_bind, Option.bind_some, hdone, if_true, hreason, hmap]
      exact ⟨_, rfl, rfl⟩
    · simp only [Option.bind_eq_bind, Option.bind_some, hdone]
      exact ⟨[], rfl, rfl⟩
  refine ⟨texts ++ finishes, ?_, by rw [deltaText_append, htext, hnone, List.append_nil]⟩
  rw [parseOllamaChunk]
  simp only [c.message_eq, c.role_eq, c.text_eq, htexts, hfinishes, Option.bind_eq_bind,
    Option.bind_some]
  rfl

theorem readLine_text {f : ChunkFraming shown} (h : OneLine f.text) :
    fullLines f.text = [f.text] ∧ readLine shown f.text = some f.payload.data := by
  obtain ⟨fields, hfields⟩ := f.payload.exists_fields
  have hloads := hfields ▸ f.loads_eq
  obtain ⟨-, -, hstrip⟩ := Json.loads_strip hloads
  have hnil : Json.loads shown [] = none := rfl
  have hne : Text.strip f.text ≠ [] := by
    intro hempty
    rw [hempty, hnil] at hstrip
    exact absurd hstrip (Option.some_ne_none _).symm
  refine ⟨fullLines_of_oneLine h ?_, ?_⟩
  · rintro hempty
    exact hne (by rw [hempty]; rfl)
  · rw [readLine, if_neg hne, hstrip, hfields]

/-- The stream of a body loses nothing of some chunks. -/
def KeepsChunks (framings : List (ChunkFraming shown)) (body : Text) : Prop :=
  LosesNothing (streamEvents shown (splitlines body)).1 (framings.map fun f => f.payload.text)
    (splitlines body) (fun line => Text.strip line ≠ [])
    fun line => (readLine shown line).isSome = true

/-- **Streams of Ollama** lose nothing exactly if every text is one line. -/
theorem keepsChunks_iff {framings : List (ChunkFraming shown)} {body : Text}
    (hbody : Joined (framings.map Framing.text) body) :
    KeepsChunks framings body ↔ ∀ f ∈ framings, OneLine f.text := by
  have hlines := fullLines_of_joined hbody
  rw [List.flatMap_map] at hlines
  constructor
  · intro h f hf
    by_contra hnot
    obtain ⟨piece, hpiece, hne, hlost⟩ := f.exists_lost_text f.payload.exists_fields hnot
    have hfull : piece ≠ [] := by
      rintro rfl
      exact hne rfl
    have hmem : piece ∈ splitlines body := (mem_fullLines hfull).mp <| by
      rw [hlines]
      exact List.mem_flatMap.mpr ⟨f, hf, hpiece⟩
    have hdecoded := h.decoded piece hmem hne
    rw [readLine, if_neg hne, hlost] at hdecoded
    exact Bool.false_ne_true hdecoded
  · intro honeLine
    have hpieces : fullLines body = framings.map Framing.text := by
      rw [hlines, List.flatMap_congr fun f hf => (readLine_text (honeLine f hf)).1]
      exact List.flatMap_pure_eq_map ..
    refine ⟨?_, fun line hline hne => ?_⟩
    · have hread : (framings.map Framing.text).filterMap (readLine shown) =
          framings.map fun f => f.payload.data := by
        rw [List.filterMap_map]
        exact List.filterMap_eq_map_iff_forall_eq_some.mpr fun f hf =>
          (readLine_text (honeLine f hf)).2
      rw [streamEvents, ← filterMap_fullLines rfl, hpieces, hread, eventsOf_map,
        deltaText_eventsOf fun f _ => exists_parseOllamaChunk f.payload, List.flatMap_def]
    · have hfull : line ≠ [] := by
        rintro rfl
        exact hne rfl
      have hmem := (mem_fullLines hfull).mpr hline
      rw [hpieces] at hmem
      obtain ⟨f, hf, rfl⟩ := List.mem_map.mp hmem
      rw [(readLine_text (honeLine f hf)).2]
      rfl

end OllamaAdapter

/-! ### All three -/

/-- **No text is lost** by the streams of OpenAI, of Anthropic and of Ollama exactly if every line
with data has a space behind its colon and no break of `splitlines` in its text, and the type of
the text deltas of Anthropic is announced. -/
theorem streams_loseNothing_iff (shown : Text → Text) (toInt : Json → Option ℤ)
    {chunks : List (OpenAIAdapter.ChunkFraming shown toInt)}
    {deltas : List (AnthropicAdapter.DeltaFraming shown)}
    {texts : List (OllamaAdapter.ChunkFraming shown)}
    {closing closing' : List Text} {body body' body'' : Text}
    (hclosing : ∀ line ∈ closing, IsGap line ∨ IsTerminator line)
    (hclosing' : ∀ line ∈ closing', IsGap line)
    (hbody : Joined (chunks.flatMap OpenAIAdapter.linesOf ++ closing) body)
    (hbody' : Joined (deltas.flatMap AnthropicAdapter.linesOf ++ closing') body')
    (hbody'' : Joined (texts.map Framing.text) body'') :
    (OpenAIAdapter.KeepsChunks chunks body ↔ ∀ f ∈ chunks, f.Readable) ∧
      (AnthropicAdapter.KeepsDeltas deltas body' ↔
        (∀ f ∈ deltas, f.Readable) ∧ AnthropicAdapter.Announced deltas) ∧
      (OllamaAdapter.KeepsChunks texts body'' ↔ ∀ f ∈ texts, OneLine f.text) :=
  ⟨OpenAIAdapter.keepsChunks_iff hclosing hbody, AnthropicAdapter.keepsDeltas_iff hclosing' hbody',
    OllamaAdapter.keepsChunks_iff hbody''⟩

/-- `repr` of the numbers of the samples, none of which has a fraction. -/
def noFloat : Text → Text := fun token => token

/-- No index of a tool call is coerced. -/
def noCoercion : Json → Option ℤ := fun _ => none

/-- A chunk of OpenAI with a text. -/
def openAIText (content : String) : Text :=
  "\x7b\"choices\":[\x7b\"index\":0,\"delta\":\x7b\"content\":\"".toList ++ content.toList ++
    "\"\x7d,\"finish_reason\":null\x7d]\x7d".toList

/-- The chunk with the text `Hi`, with or without the space. -/
def hiChunk (space : Bool) : OpenAIAdapter.ChunkFraming noFloat noCoercion where
  between := [": open".toList, []]
  eventSpace := true
  dataSpace := space
  payload := OpenAIAdapter.oneChoice (OpenAIAdapter.deltaChoice 0 "Hi".toList none)
  text := openAIText "Hi"
  isGap := by
    refine List.forall_mem_cons.mpr ⟨Or.inr ⟨by decide, by decide⟩, ?_⟩
    exact List.forall_mem_singleton.mpr (Or.inl rfl)
  noBreak := by decide
  loads_eq := rfl

/-- The text delta `Hi`. -/
def hiDelta : AnthropicAdapter.DeltaFraming noFloat where
  between := []
  eventSpace := true
  dataSpace := true
  payload := {
    data := .object [("delta".toList, .object
      [("type".toList, .text "text_delta".toList), ("text".toList, .text "Hi".toList)])]
    delta := .object
      [("type".toList, .text "text_delta".toList), ("text".toList, .text "Hi".toList)]
    text := "Hi".toList
    delta_eq := rfl
    type_eq := rfl
    text_eq := rfl }
  text := "\x7b\"delta\":\x7b\"type\":\"text_delta\",\"text\":\"Hi\"\x7d\x7d".toList
  isGap := fun _ hline => absurd hline List.not_mem_nil
  noBreak := by decide
  loads_eq := rfl

/-- The chunk of Ollama with the text `Hi`. -/
def hiText : OllamaAdapter.ChunkFraming noFloat where
  between := []
  eventSpace := false
  dataSpace := false
  payload := {
    data := .object [("message".toList, .object [("content".toList, .text "Hi".toList)])]
    message := .object [("content".toList, .text "Hi".toList)]
    role := some "assistant".toList
    text := "Hi".toList
    done := .bool false
    message_eq := rfl
    role_eq := rfl
    text_eq := rfl
    done_eq := rfl
    reason_eq := fun hdone => absurd hdone Bool.false_ne_true }
  text := "\x7b\"message\":\x7b\"content\":\"Hi\"\x7d\x7d".toList
  isGap := fun _ hline => absurd hline List.not_mem_nil
  noBreak := by decide
  loads_eq := rfl

/-- A body whose lines all end with a line feed. -/
def lfBody (lines : List Text) : Text := lines.flatMap fun line => line ++ ['\n']

/-- The line with the end of a stream. -/
def terminator : Text := fieldLine "data" true "[DONE]".toList

theorem streams_loseNothing_hi :
    OpenAIAdapter.KeepsChunks [hiChunk true]
        (lfBody ([hiChunk true].flatMap OpenAIAdapter.linesOf ++ [terminator])) ∧
      AnthropicAdapter.KeepsDeltas [hiDelta]
        (lfBody ([hiDelta].flatMap AnthropicAdapter.linesOf ++ [])) ∧
      OllamaAdapter.KeepsChunks [hiText] (lfBody ([hiText].map Framing.text)) := by
  obtain ⟨hchunks, hdeltas, htexts⟩ := @streams_loseNothing_iff noFloat noCoercion [hiChunk true]
    [hiDelta] [hiText] [terminator] [] _ _ _
    (List.forall_mem_singleton.mpr (Or.inr ⟨true, rfl⟩))
    (fun _ hline => absurd hline List.not_mem_nil) (joined_lf _) (joined_lf _) (joined_lf _)
  refine ⟨hchunks.mpr ?_, hdeltas.mpr ⟨?_, ?_⟩, htexts.mpr ?_⟩
  · exact List.forall_mem_singleton.mpr (by decide)
  · exact List.forall_mem_singleton.mpr (by decide)
  · exact fun f hf => absurd hf List.not_mem_nil
  · exact List.forall_mem_singleton.mpr (by decide)

/-- A chunk whose text has a line separator, which a JSON text may contain as it is. -/
def separatorChunk : OpenAIAdapter.ChunkFraming noFloat noCoercion where
  between := []
  eventSpace := true
  dataSpace := true
  payload := OpenAIAdapter.oneChoice (OpenAIAdapter.deltaChoice 0 "a\u2028b".toList none)
  text := openAIText "a\u2028b"
  isGap := fun _ hline => absurd hline List.not_mem_nil
  noBreak := by decide
  loads_eq := rfl

/-- **A line separator in a text**, and a colon without a space, lose the text. -/
theorem not_streams_loseNothing :
    (OpenAIAdapter.streamEvents noFloat noCoercion
        (splitlines (lfBody (OpenAIAdapter.linesOf separatorChunk)))).1.length = 0 ∧
      (OpenAIAdapter.streamEvents noFloat noCoercion
        (splitlines (lfBody (OpenAIAdapter.linesOf (hiChunk false))))).1.length = 0 ∧
      ¬ ∀ (shown : Text → Text) (toInt : Json → Option ℤ)
        (chunks : List (OpenAIAdapter.ChunkFraming shown toInt)) (body : Text),
        Joined (chunks.flatMap OpenAIAdapter.linesOf) body →
        OpenAIAdapter.KeepsChunks chunks body := by
  refine ⟨by decide +kernel, by decide +kernel, fun h => ?_⟩
  have hkept := h noFloat noCoercion [hiChunk false]
    (lfBody ([hiChunk false].flatMap OpenAIAdapter.linesOf)) (joined_lf _)
  exact absurd hkept.text (by decide +kernel)

end AnonReq.Providers
