import AnonReq.Foundation.Runs
import AnonReq.Pipeline.Chat
import Mathlib.Data.List.Sigma

/-!
# Text extraction and the way back

`TextExtractor.extract` of `pipeline/extraction.py` collects the texts of a request that detection
looks at, each with a path; `_parse_path` and `_write_path` of `pipeline/tokenization.py` write
the anonymized texts back to these paths.

* `parsePath_pathText`: a path that is written out of names and indices is parsed to these.
* `mem_extract_iff`: the nodes are the contents that are texts and the texts among the arguments
  of tool calls, unless they are blank.
* `offered_iff`: these are the texts that are offered to detection, each under a path that leads
  back to it.
* `exists_writeBack`: the nodes can all be written back, and the transformed request has the new
  text of each at its place.
* `inspected`: every text at these places of the transformed request is the new text of a node.
* `not_offered_parts`: the text parts of a content in several parts are no nodes.
-/

namespace AnonReq.Pipeline

/-! ### `_parse_path` -/

/-- The decimal numeral of an index. -/
def numeral (i : ℕ) : Text := Nat.toDigits 10 i

/-- A character of a name in a path. -/
def isNameChar (c : Char) : Bool := !(['.', '[', ']'].contains c)

/-- The indices behind a name, each in brackets. The first argument is what has been read of an
index, if a bracket is open. -/
def parseIndices : Option Text → Text → Option (List Key)
  | none, [] => some []
  | none, c :: rest => if c = '[' then parseIndices (some []) rest else none
  | some _, [] => none
  | some digits, c :: rest =>
    if c.isDigit then parseIndices (some (digits ++ [c])) rest
    else if c = ']' ∧ digits ≠ [] then
      (parseIndices none rest).map fun keys => .index (Nat.ofDigitChars 10 digits 0) :: keys
    else none

/-- A part of a path: a name, and indices. -/
def parsePart (part : Text) : Option (List Key) :=
  if part.takeWhile isNameChar = [] then none
  else
    (parseIndices none (part.dropWhile isNameChar)).map fun keys =>
      .name (part.takeWhile isNameChar) :: keys

/-- `_parse_path`. -/
def parsePath (path : Text) : Option (List Key) :=
  ((path.splitOn '.').mapM parsePart).map List.flatten

/-- `_write_path`: the document after the write, `none` for `False`. -/
def writeText (document : Json) (path value : Text) : Option Json :=
  (parsePath path).bind fun keys => document.writePath keys (.text value)

/-! ### Paths of names and indices -/

/-- A name that can stand in a path. -/
structure PathPart where
  name : Text
  indices : List ℕ
  name_ne_nil : name ≠ []
  nameChars : ∀ c ∈ name, isNameChar c = true

namespace PathPart

/-- The part as it is written in a path. -/
def text (part : PathPart) : Text :=
  part.name ++ part.indices.flatMap fun i => '[' :: (numeral i ++ [']'])

/-- The keys of a part. -/
def keys (part : PathPart) : List Key := .name part.name :: part.indices.map .index

end PathPart

/-- The parts of a path, with dots between them. -/
def pathText (parts : List PathPart) : Text := ['.'].intercalate (parts.map PathPart.text)

theorem isDigit_of_mem_numeral {i : ℕ} {c : Char} (h : c ∈ numeral i) : c.isDigit = true :=
  Nat.isDigit_of_mem_toDigits (by decide) (by decide) h

/-- Digits are read up to the bracket that closes them. -/
theorem parseIndices_digits {digits : Text} (hdigits : ∀ c ∈ digits, c.isDigit = true)
    (front rest : Text) (hne : front ++ digits ≠ []) :
    parseIndices (some front) (digits ++ ']' :: rest) =
      (parseIndices none rest).map fun keys =>
        .index (Nat.ofDigitChars 10 (front ++ digits) 0) :: keys := by
  induction digits generalizing front with
  | nil =>
    rw [List.append_nil] at hne ⊢
    rw [List.nil_append, parseIndices, if_neg (by decide), if_pos ⟨rfl, hne⟩]
  | cons c digits ih =>
    have hc : c.isDigit = true := hdigits c List.mem_cons_self
    have hmove : front ++ c :: digits = (front ++ [c]) ++ digits := List.append_cons front c digits
    rw [List.cons_append, parseIndices, if_pos hc, hmove]
    exact ih (fun d hd => hdigits d (List.mem_cons_of_mem c hd)) (front ++ [c])
      (by simp)

/-- Indices that are written out are read back. -/
theorem parseIndices_indices (indices : List ℕ) :
    parseIndices none (indices.flatMap fun i => '[' :: (numeral i ++ [']'])) =
      some (indices.map .index) := by
  induction indices with
  | nil => rfl
  | cons i indices ih =>
    rw [List.flatMap_cons, List.cons_append, List.append_assoc, parseIndices, if_pos rfl]
    have hread := parseIndices_digits (fun c => isDigit_of_mem_numeral (i := i)) []
      (indices.flatMap fun i => '[' :: (numeral i ++ [']'])) Nat.toDigits_ne_nil
    rw [List.singleton_append, hread, ih, List.nil_append, numeral,
      Nat.ofDigitChars_ten_toDigits]
    rfl

/-- A part that is written out is read back. -/
theorem parsePart_text (part : PathPart) : parsePart part.text = some part.keys := by
  have hstop : ∀ rest : List ℕ,
      (rest.flatMap fun i => '[' :: (numeral i ++ [']'])).takeWhile isNameChar = [] := by
    intro rest
    cases rest with
    | nil => rfl
    | cons i rest => rfl
  have htake : part.text.takeWhile isNameChar = part.name := by
    rw [PathPart.text, List.takeWhile_append_of_pos part.nameChars, hstop, List.append_nil]
  have hdrop : part.text.dropWhile isNameChar =
      part.indices.flatMap fun i => '[' :: (numeral i ++ [']']) := by
    have hsplit := List.takeWhile_append_dropWhile (p := isNameChar) (l := part.text)
    rw [htake] at hsplit
    exact List.append_cancel_left (hsplit.trans rfl)
  rw [parsePart, htake, if_neg part.name_ne_nil, hdrop, parseIndices_indices]
  rfl

/-- No part has a dot. -/
theorem dot_not_mem_text (part : PathPart) : '.' ∉ part.text := by
  intro hmem
  obtain hname | hindex := List.mem_append.mp hmem
  · exact absurd (part.nameChars '.' hname) (by decide)
  · obtain ⟨i, -, hi⟩ := List.mem_flatMap.mp hindex
    obtain hi | hi := List.mem_cons.mp hi
    · exact absurd hi (by decide)
    · obtain hi | hi := List.mem_append.mp hi
      · exact absurd (isDigit_of_mem_numeral hi) (by decide)
      · exact absurd (List.mem_singleton.mp hi) (by decide)

/-- **Paths.** A path that is written out of names and indices is parsed to these. -/
theorem parsePath_pathText {parts : List PathPart} (h : parts ≠ []) :
    parsePath (pathText parts) = some (parts.flatMap PathPart.keys) := by
  have hdots : ∀ text ∈ parts.map PathPart.text, '.' ∉ text := by
    intro text htext
    obtain ⟨part, -, rfl⟩ := List.mem_map.mp htext
    exact dot_not_mem_text part
  have hparts : ∀ parts : List PathPart,
      (parts.map PathPart.text).mapM parsePart = some (parts.map PathPart.keys) := by
    intro parts
    rw [List.mapM_map]
    exact Runs.mapM_eq_some_map fun part _ => parsePart_text part
  rw [parsePath, pathText, List.splitOn_intercalate '.' hdots (by simpa using h), hparts]
  rfl

/-! ### `TextExtractor.extract` -/

/-- A node: a text of the request, and where it is. -/
structure TextNode where
  path : Text
  role : Json
  value : Text

/-- `messages[{i}].content`. -/
def contentPath (i : ℕ) : Text :=
  name "messages[" ++ numeral i ++ name "].content"

/-- `messages[{i}].tool_calls[{j}].function.arguments`. -/
def argumentsPath (i j : ℕ) : Text :=
  name "messages[" ++ numeral i ++ name "].tool_calls[" ++ numeral j ++
    name "].function.arguments"

/-- The node of a value, if that is a text and not blank. -/
def textNode (path : Text) (role : Json) : Option Json → Option TextNode
  | some (.text value) => if Text.strip value = [] then none else some ⟨path, role, value⟩
  | _ => none

/-- `function.get("arguments")` of a tool call, where both are dictionaries. -/
def argumentsOf (call : Json) : Option Json :=
  (call.get (name "function")).bind fun function => function.get (name "arguments")

/-- The nodes of a message: its content, and the arguments of its tool calls. -/
def extractMessage (i : ℕ) (message : Json) : List TextNode :=
  let role := (message.get (name "role")).getD (.text (name "unknown"))
  (textNode (contentPath i) role (message.get (name "content"))).toList ++
    match message.get (name "tool_calls") with
    | some (.list calls) =>
      calls.zipIdx.filterMap fun call =>
        textNode (argumentsPath i call.2) role (argumentsOf call.1)
    | _ => []

/-- `TextExtractor.extract`. A message that is no dictionary has no fields, and no nodes. -/
def extract (body : Json) : List TextNode :=
  match body.get (name "messages") with
  | some (.list messages) => messages.zipIdx.flatMap fun message =>
      extractMessage message.2 message.1
  | _ => []

/-! ### Places -/

/-- The places of a request that the extraction looks at. -/
inductive Place where
  | content (i : ℕ)
  | arguments (i j : ℕ)
deriving DecidableEq

namespace Place

/-- The path of a place, as it stands in a node. -/
def path : Place → Text
  | content i => contentPath i
  | arguments i j => argumentsPath i j

/-- The path of a place, key by key. -/
def keys : Place → List Key
  | content i => [.name (name "messages"), .index i, .name (name "content")]
  | arguments i j =>
    [.name (name "messages"), .index i, .name (name "tool_calls"), .index j,
      .name (name "function"), .name (name "arguments")]

/-- A part of the paths of places. -/
def part (s : String) (indices : List ℕ) (hne : name s ≠ [])
    (hchars : (name s).all isNameChar = true) : PathPart :=
  ⟨name s, indices, hne, List.all_eq_true.mp hchars⟩

/-- **The path of a place leads to it.** -/
theorem parsePath_path (place : Place) : parsePath place.path = some place.keys := by
  cases place with
  | content i =>
    have hpath : contentPath i = pathText
        [part "messages" [i] (by decide) (by decide),
          part "content" [] (by decide) (by decide)] := by
      simp [contentPath, pathText, PathPart.text, part, name, List.intercalate]
    rw [path, hpath, parsePath_pathText (List.cons_ne_nil _ _)]
    rfl
  | arguments i j =>
    have hpath : argumentsPath i j = pathText
        [part "messages" [i] (by decide) (by decide),
          part "tool_calls" [j] (by decide) (by decide),
          part "function" [] (by decide) (by decide),
          part "arguments" [] (by decide) (by decide)] := by
      simp [argumentsPath, pathText, PathPart.text, part, name, List.intercalate]
    rw [path, hpath, parsePath_pathText (List.cons_ne_nil _ _)]
    rfl

/-- Different places are apart in a document. -/
theorem forks_keys {place place' : Place} (h : place ≠ place') :
    Json.Forks place.keys place'.keys := by
  have hnames : Key.name (name "content") ≠ Key.name (name "tool_calls") := by decide
  cases place <;> cases place' <;> simp [keys, Json.Forks, hnames, hnames.symm] at h ⊢ <;> omega

/-- The message a place is in. -/
def message : Place → ℕ
  | content i => i
  | arguments i _ => i

/-- The role that the extraction reads next to a place. -/
def role (body : Json) (place : Place) : Json :=
  (body.readPath [.name (name "messages"), .index place.message, .name (name "role")]).getD
    (.text (name "unknown"))

end Place

/-! ### The nodes -/

theorem textNode_eq_some_iff {path : Text} {role : Json} {value : Option Json} {node : TextNode} :
    textNode path role value = some node ↔
      node.path = path ∧ node.role = role ∧ value = some (.text node.value) ∧
        Text.strip node.value ≠ [] := by
  constructor
  · intro h
    unfold textNode at h
    split at h
    · split_ifs at h with hblank
      obtain rfl := Option.some.inj h
      exact ⟨rfl, rfl, rfl, hblank⟩
    · cases h
  · rintro ⟨rfl, rfl, rfl, hblank⟩
    simp [textNode, hblank]

theorem mem_extractMessage_iff {i : ℕ} {message : Json} {node : TextNode} :
    node ∈ extractMessage i message ↔
      textNode (contentPath i) ((message.get (name "role")).getD (.text (name "unknown")))
          (message.get (name "content")) = some node ∨
        ∃ calls j call, message.get (name "tool_calls") = some (.list calls) ∧
          calls[j]? = some call ∧
          textNode (argumentsPath i j) ((message.get (name "role")).getD (.text (name "unknown")))
            (argumentsOf call) = some node := by
  rw [extractMessage, List.mem_append, Option.mem_toList]
  refine or_congr_right ?_
  split
  · rename_i calls hcalls
    simp only [List.mem_filterMap, Prod.exists, List.mem_zipIdx_iff_getElem?, hcalls,
      Option.some.injEq, Json.list.injEq]
    constructor
    · rintro ⟨call, j, hcall, hnode⟩
      exact ⟨calls, j, call, rfl, hcall, hnode⟩
    · rintro ⟨_, j, call, rfl, hcall, hnode⟩
      exact ⟨call, j, hcall, hnode⟩
  · rename_i hcalls
    refine iff_of_false List.not_mem_nil ?_
    rintro ⟨calls, -, -, h, -⟩
    exact hcalls calls h

theorem mem_extract_iff_exists_message {body : Json} {node : TextNode} :
    node ∈ extract body ↔ ∃ messages i message,
      body.get (name "messages") = some (.list messages) ∧ messages[i]? = some message ∧
        node ∈ extractMessage i message := by
  rw [extract]
  split
  · rename_i messages hmessages
    simp only [List.mem_flatMap, Prod.exists, List.mem_zipIdx_iff_getElem?, hmessages,
      Option.some.injEq, Json.list.injEq]
    constructor
    · rintro ⟨message, i, hmessage, hnode⟩
      exact ⟨messages, i, message, rfl, hmessage, hnode⟩
    · rintro ⟨_, i, message, rfl, hmessage, hnode⟩
      exact ⟨message, i, hmessage, hnode⟩
  · rename_i hmessages
    refine iff_of_false List.not_mem_nil ?_
    rintro ⟨messages, -, -, h, -⟩
    exact hmessages messages h

/-- The role next to a place is a field of its message. -/
theorem Place.role_eq {body message : Json} {messages : List Json} (place : Place) {i : ℕ}
    (hi : place.message = i) (hmessages : body.get (name "messages") = some (.list messages))
    (hmessage : messages[i]? = some message) :
    place.role body = (message.get (name "role")).getD (.text (name "unknown")) := by
  subst hi
  have hread : body.readPath
      [.name (name "messages"), .index place.message, .name (name "role")] =
        message.get (name "role") := by
    rw [Json.readPath, Json.child, hmessages, Option.bind_some, Json.readPath, Json.child,
      hmessage, Option.bind_some, Json.readPath_name]
  rw [role, hread]

/-- **The nodes of a request.** They are the texts at the places, unless they are blank. -/
theorem mem_extract_iff {body : Json} {node : TextNode} :
    node ∈ extract body ↔ ∃ place : Place, node.path = place.path ∧ node.role = place.role body ∧
      body.readPath place.keys = some (.text node.value) ∧ Text.strip node.value ≠ [] := by
  rw [mem_extract_iff_exists_message]
  constructor
  · rintro ⟨messages, i, message, hmessages, hmessage, hnode⟩
    obtain h | ⟨calls, j, call, hcalls, hcall, h⟩ := mem_extractMessage_iff.mp hnode
    · obtain ⟨hpath, hrole, hvalue, hblank⟩ := textNode_eq_some_iff.mp h
      refine ⟨.content i, hpath, ?_, ?_, hblank⟩
      · rw [hrole, Place.role_eq (.content i) rfl hmessages hmessage]
      · refine Json.readPath_name_index_iff.mpr ⟨messages, message, hmessages, hmessage, ?_⟩
        rw [Json.readPath_name, hvalue]
    · obtain ⟨hpath, hrole, hvalue, hblank⟩ := textNode_eq_some_iff.mp h
      refine ⟨.arguments i j, hpath, ?_, ?_, hblank⟩
      · rw [hrole, Place.role_eq (.arguments i j) rfl hmessages hmessage]
      · refine Json.readPath_name_index_iff.mpr ⟨messages, message, hmessages, hmessage, ?_⟩
        refine Json.readPath_name_index_iff.mpr ⟨calls, call, hcalls, hcall, ?_⟩
        obtain ⟨function, hfunction, hvalue⟩ := Option.bind_eq_some_iff.mp hvalue
        exact Option.bind_eq_some_iff.mpr
          ⟨function, hfunction, (Json.readPath_name function _).trans hvalue⟩
  · rintro ⟨place, hpath, hrole, hvalue, hblank⟩
    cases place with
    | content i =>
      obtain ⟨messages, message, hmessages, hmessage, hvalue⟩ :=
        Json.readPath_name_index_iff.mp hvalue
      rw [Place.role_eq (.content i) rfl hmessages hmessage] at hrole
      rw [Json.readPath_name] at hvalue
      exact ⟨messages, i, message, hmessages, hmessage, mem_extractMessage_iff.mpr
        (Or.inl (textNode_eq_some_iff.mpr ⟨hpath, hrole, hvalue, hblank⟩))⟩
    | arguments i j =>
      obtain ⟨messages, message, hmessages, hmessage, hvalue⟩ :=
        Json.readPath_name_index_iff.mp hvalue
      obtain ⟨calls, call, hcalls, hcall, hvalue⟩ := Json.readPath_name_index_iff.mp hvalue
      obtain ⟨function, hfunction, hvalue⟩ := Option.bind_eq_some_iff.mp hvalue
      rw [Place.role_eq (.arguments i j) rfl hmessages hmessage] at hrole
      rw [Json.readPath_name] at hvalue
      have hvalue : argumentsOf call = some (.text node.value) :=
        Option.bind_eq_some_iff.mpr ⟨function, hfunction, hvalue⟩
      exact ⟨messages, i, message, hmessages, hmessage, mem_extractMessage_iff.mpr
        (Or.inr ⟨calls, j, call, hcalls, hcall,
          textNode_eq_some_iff.mpr ⟨hpath, hrole, hvalue, hblank⟩⟩)⟩

/-! ### What the client sends -/

/-- The client sends a text at a place: as the content of a message, or as the arguments of a tool
call. -/
inductive Sent (request : ChatRequest) : Place → Text → Prop where
  | content {i : ℕ} {message : ChatMessage} {s : Text}
      (hmessage : request.messages[i]? = some message)
      (hcontent : message.content = some (.text s)) : Sent request (.content i) s
  | arguments {i j : ℕ} {message : ChatMessage} {calls : List Fields} {call function : Fields}
      {s : Text} (hmessage : request.messages[i]? = some message)
      (hcalls : message.toolCalls = some calls) (hcall : calls[j]? = some call)
      (hfunction : call.lookup (name "function") = some (.object function))
      (harguments : function.lookup (name "arguments") = some (.text s)) :
      Sent request (.arguments i j) s

/-- The client sends a text as one part of a content in several parts. -/
inductive SentPart (request : ChatRequest) : List Key → Text → Prop where
  | part {i k : ℕ} {message : ChatMessage} {parts : List Fields} {part : Fields} {s : Text}
      (hmessage : request.messages[i]? = some message)
      (hparts : message.content = some (.other parts)) (hpart : parts[k]? = some part)
      (htype : part.lookup (name "type") = some (.text (name "text")))
      (htext : part.lookup (name "text") = some (.text s)) :
      SentPart request
        [.name (name "messages"), .index i, .name (name "content"), .index k, .name (name "text")] s

/-- A message of the dump is the dump of a message. -/
theorem getElem?_map_modelDump {messages : List ChatMessage} {i : ℕ} {item : Json} :
    (messages.map ChatMessage.modelDump)[i]? = some item ↔
      ∃ message, messages[i]? = some message ∧ message.modelDump = item := by
  rw [List.getElem?_map, Option.map_eq_some_iff]

/-- What the client sends at a place is what stands there in the dump of the request. -/
theorem sent_iff {request : ChatRequest} {place : Place} {s : Text} :
    Sent request place s ↔ request.modelDump.readPath place.keys = some (.text s) := by
  constructor
  · intro h
    cases h with
    | content hmessage hcontent =>
      refine Json.readPath_name_index_iff.mpr ⟨_, _, request.get_messages_modelDump,
        getElem?_map_modelDump.mpr ⟨_, hmessage, rfl⟩, ?_⟩
      rw [Json.readPath_name, (ChatMessage.get_modelDump _).2.1, hcontent]
      rfl
    | arguments hmessage hcalls hcall hfunction harguments =>
      refine Json.readPath_name_index_iff.mpr ⟨_, _, request.get_messages_modelDump,
        getElem?_map_modelDump.mpr ⟨_, hmessage, rfl⟩, ?_⟩
      refine Json.readPath_name_index_iff.mpr ⟨_, _, (ChatMessage.get_modelDump _).2.2.trans
        (by rw [hcalls]; rfl), by rw [List.getElem?_map, hcall]; rfl, ?_⟩
      exact Option.bind_eq_some_iff.mpr
        ⟨_, hfunction, (Json.readPath_name _ _).trans harguments⟩
  · intro h
    cases place with
    | content i =>
      obtain ⟨items, item, hitems, hitem, h⟩ := Json.readPath_name_index_iff.mp h
      obtain rfl := Json.list.inj
        (Option.some.inj (request.get_messages_modelDump.symm.trans hitems))
      obtain ⟨message, hmessage, rfl⟩ := getElem?_map_modelDump.mp hitem
      rw [Json.readPath_name, message.get_modelDump.2.1] at h
      refine .content hmessage ?_
      rcases hcontent : message.content with _ | _ | _ <;> rw [hcontent] at h
      · simp [dumpOption] at h
      · simpa [dumpOption, TextOr.dump] using h
      · simp [dumpOption, TextOr.dump, dumpDicts] at h
    | arguments i j =>
      obtain ⟨items, item, hitems, hitem, h⟩ := Json.readPath_name_index_iff.mp h
      obtain rfl := Json.list.inj
        (Option.some.inj (request.get_messages_modelDump.symm.trans hitems))
      obtain ⟨message, hmessage, rfl⟩ := getElem?_map_modelDump.mp hitem
      obtain ⟨calls, call, hcalls, hcall, h⟩ := Json.readPath_name_index_iff.mp h
      rw [message.get_modelDump.2.2] at hcalls
      rcases htoolCalls : message.toolCalls with _ | toolCalls <;> rw [htoolCalls] at hcalls
      · simp [dumpOption] at hcalls
      · obtain rfl : toolCalls.map Json.object = calls := by
          simpa [dumpOption, dumpDicts] using hcalls
        rw [List.getElem?_map] at hcall
        obtain ⟨toolCall, htoolCall, rfl⟩ := Option.map_eq_some_iff.mp hcall
        obtain ⟨function, hfunction, h⟩ := Option.bind_eq_some_iff.mp h
        rw [Json.readPath_name] at h
        cases function with
        | object fields => exact .arguments hmessage htoolCalls htoolCall hfunction h
        | _ => simp [Json.get] at h

/-! ### What detection is offered -/

/-- A text is offered to detection at a place of the body: a node has it, under a path that leads
to that place, and to which a new text can be written without touching any other place. -/
def Offered (body : Json) (keys : List Key) (s : Text) : Prop :=
  ∃ node ∈ extract body, node.value = s ∧ parsePath node.path = some keys ∧
    body.readPath keys = some (.text s) ∧
    ∀ value, ∃ written, writeText body node.path value = some written ∧
      written.readPath keys = some (.text value) ∧
      ∀ keys', Json.Forks keys keys' → written.readPath keys' = body.readPath keys'

theorem Place.keys_ne_nil (place : Place) : place.keys ≠ [] := by
  cases place <;> exact List.cons_ne_nil _ _

/-- **Every text at a place is inspected.** A text is offered to detection if and only if it is
not blank and the client sends it as the content of a message or as the arguments of a tool
call. -/
theorem offered_iff (request : ChatRequest) (keys : List Key) (s : Text) :
    Offered request.modelDump keys s ↔
      Text.strip s ≠ [] ∧ ∃ place : Place, place.keys = keys ∧ Sent request place s := by
  constructor
  · rintro ⟨node, hnode, rfl, hpath, -, -⟩
    obtain ⟨place, hplace, -, hvalue, hblank⟩ := mem_extract_iff.mp hnode
    rw [hplace, place.parsePath_path] at hpath
    exact ⟨hblank, place, Option.some.inj hpath, sent_iff.mpr hvalue⟩
  · rintro ⟨hblank, place, rfl, hsent⟩
    have hread := sent_iff.mp hsent
    have hnode : (⟨place.path, place.role request.modelDump, s⟩ : TextNode) ∈
        extract request.modelDump := mem_extract_iff.mpr ⟨place, rfl, rfl, hread, hblank⟩
    refine ⟨_, hnode, rfl, place.parsePath_path, hread, fun value => ?_⟩
    obtain ⟨written, hwritten⟩ := Option.isSome_iff_exists.mp
      (Json.writePath_isSome place.keys_ne_nil (Option.isSome_of_eq_some hread) (.text value))
    refine ⟨written, ?_, Json.readPath_writePath hwritten,
      fun keys' hforks => Json.readPath_writePath_of_forks hforks hwritten⟩
    rw [writeText, place.parsePath_path, Option.bind_some, hwritten]

/-! ### Writing the nodes back -/

/-- Write the new text of a node. A node that cannot be written to is an error if something was
detected in it, and left out otherwise. -/
def writeNode (transformed : Json) (node : TextNode) (text : Text) (detected : Bool) :
    Option Json :=
  match writeText transformed node.path text with
  | some written => some written
  | none => if detected then none else some transformed

/-- The loop of `TokenizationStage.execute` over the nodes, their new texts and whether something
was detected in them: the transformed request, `none` for the `ValueError`. -/
def writeBack (body : Json) (nodes : List (TextNode × Text × Bool)) : Option Json :=
  nodes.foldlM (fun transformed node => writeNode transformed node.1 node.2.1 node.2.2) body

/-- Every place is in a message. -/
theorem Place.keys_eq_cons (place : Place) :
    ∃ rest, place.keys = .name (name "messages") :: rest := by
  cases place with
  | content i => exact ⟨_, rfl⟩
  | arguments i j => exact ⟨_, rfl⟩

variable {nodes : List (TextNode × Text × Bool)}

/-- Writing back and assigning to a field other than the messages commute. -/
theorem writeBack_setField {k : Text} (hne : k ≠ name "messages") (value : Json)
    (hplace : ∀ node ∈ nodes, ∃ place : Place, node.1.path = place.path) (body : Json) :
    writeBack (body.setField k value) nodes =
      (writeBack body nodes).map fun written => written.setField k value := by
  induction nodes generalizing body with
  | nil => rfl
  | cons node nodes ih =>
    obtain ⟨place, hpath⟩ := hplace node List.mem_cons_self
    obtain ⟨rest, hkeys⟩ := place.keys_eq_cons
    have hwrite : writeText (body.setField k value) node.1.path node.2.1 =
        (writeText body node.1.path node.2.1).map fun written => written.setField k value := by
      simp only [writeText, hpath, place.parsePath_path, hkeys, Option.bind_some,
        Json.writePath_setField hne]
    have hnode : writeNode (body.setField k value) node.1 node.2.1 node.2.2 =
        (writeNode body node.1 node.2.1 node.2.2).map fun written =>
          written.setField k value := by
      rw [writeNode, writeNode, hwrite]
      rcases writeText body node.1.path node.2.1 with _ | written
      · rw [Option.map_none]
        split_ifs <;> rfl
      · rfl
    rw [writeBack, writeBack, List.foldlM_cons, List.foldlM_cons, hnode]
    rcases writeNode body node.1 node.2.1 node.2.2 with _ | written
    · rfl
    · exact ih (fun other hother => hplace other (List.mem_cons_of_mem node hother)) written

/-- Writing back leaves the fields other than the messages as they are. -/
theorem get_writeBack {k : Text} (hne : k ≠ name "messages")
    (hplace : ∀ node ∈ nodes, ∃ place : Place, node.1.path = place.path) {body written : Json}
    (h : writeBack body nodes = some written) : written.get k = body.get k := by
  induction nodes generalizing body with
  | nil => rw [Option.some.inj h]
  | cons node nodes ih =>
    obtain ⟨place, hpath⟩ := hplace node List.mem_cons_self
    obtain ⟨rest, hkeys⟩ := place.keys_eq_cons
    rw [writeBack, List.foldlM_cons] at h
    obtain ⟨next, hnext, h⟩ := Option.bind_eq_some_iff.mp h
    refine (ih (fun other hother => hplace other (List.mem_cons_of_mem node hother)) h).trans ?_
    rw [writeNode] at hnext
    split at hnext
    · rename_i hwritten
      obtain rfl := Option.some.inj hnext
      rw [writeText, hpath, place.parsePath_path, hkeys, Option.bind_some] at hwritten
      have hforks : Json.Forks (.name (name "messages") :: rest) [.name k] :=
        Or.inl fun heq => hne (Key.name.inj heq).symm
      simpa only [Json.readPath_name] using Json.readPath_writePath_of_forks hforks hwritten
    · split_ifs at hnext
      rw [Option.some.inj hnext]

/-- Nodes at different places. -/
def Apart (a b : TextNode) : Prop :=
  ∃ place place' : Place, place ≠ place' ∧ a.path = place.path ∧ b.path = place'.path

theorem apart_extractMessage (i : ℕ) (message : Json) :
    (extractMessage i message).Pairwise Apart := by
  rw [extractMessage]
  refine List.pairwise_append.mpr ⟨?_, ?_, fun a ha b hb => ?_⟩
  · cases textNode (contentPath i) _ (message.get (name "content")) <;> simp
  · split
    · rename_i calls _
      refine List.pairwise_filterMap.mpr ?_
      have hindices : calls.zipIdx.Pairwise fun a b => a.2 ≠ b.2 :=
        List.pairwise_map.mp (List.nodup_zipIdx_map_snd calls)
      refine hindices.imp fun {a b} hne x hx y hy => ?_
      refine ⟨.arguments i a.2, .arguments i b.2, by simpa using hne, ?_, ?_⟩
      · exact (textNode_eq_some_iff.mp hx).1
      · exact (textNode_eq_some_iff.mp hy).1
    · exact List.Pairwise.nil
  · obtain ha := textNode_eq_some_iff.mp (Option.mem_toList.mp ha)
    split at hb
    · obtain ⟨call, -, hb⟩ := List.mem_filterMap.mp hb
      exact ⟨.content i, .arguments i call.2, by simp, ha.1, (textNode_eq_some_iff.mp hb).1⟩
    · exact absurd hb List.not_mem_nil

/-- A node of a message is at a place in it. -/
theorem exists_place_of_mem_extractMessage {i : ℕ} {message : Json} {node : TextNode}
    (h : node ∈ extractMessage i message) :
    ∃ place : Place, place.message = i ∧ node.path = place.path := by
  obtain h | ⟨calls, j, call, -, -, h⟩ := mem_extractMessage_iff.mp h
  · exact ⟨.content i, rfl, (textNode_eq_some_iff.mp h).1⟩
  · exact ⟨.arguments i j, rfl, (textNode_eq_some_iff.mp h).1⟩

/-- The nodes of a request are at different places. -/
theorem apart_extract (body : Json) : (extract body).Pairwise Apart := by
  rw [extract]
  split
  · rename_i messages _
    refine List.pairwise_flatMap.mpr ⟨fun message _ => apart_extractMessage _ _, ?_⟩
    have hindices : messages.zipIdx.Pairwise fun a b => a.2 ≠ b.2 :=
      List.pairwise_map.mp (List.nodup_zipIdx_map_snd messages)
    refine hindices.imp fun {a b} hne x hx y hy => ?_
    obtain ⟨place, hplace, hx⟩ := exists_place_of_mem_extractMessage hx
    obtain ⟨place', hplace', hy⟩ := exists_place_of_mem_extractMessage hy
    exact ⟨place, place', fun heq => hne (by rw [← hplace, ← hplace', heq]), hx, hy⟩
  · exact List.Pairwise.nil

/-- Nodes whose paths are parsed are written back as their keys say. -/
theorem writeBack_of_writePaths (keysOf : TextNode → List Key)
    (hkeys : ∀ node ∈ nodes, parsePath node.1.path = some (keysOf node.1)) {body transformed : Json}
    (h : body.writePaths (nodes.map fun node => (keysOf node.1, Json.text node.2.1)) =
      some transformed) : writeBack body nodes = some transformed := by
  induction nodes generalizing body with
  | nil => exact h
  | cons node nodes ih =>
    rw [List.map_cons, Json.writePaths, List.foldlM_cons] at h
    obtain ⟨next, hnext, h⟩ := Option.bind_eq_some_iff.mp h
    have hwrite : writeText body node.1.path node.2.1 = some next := by
      rw [writeText, hkeys node List.mem_cons_self, Option.bind_some]
      exact hnext
    rw [writeBack, List.foldlM_cons, writeNode, hwrite]
    exact ih (fun other hother => hkeys other (List.mem_cons_of_mem node hother)) h

/-- **Writing back.** The nodes of a request can all be written back, whatever their new texts
are. In the transformed request each place of a node has the new text, and everything that
branches off from these places is as it was. -/
theorem exists_writeBack {body : Json} (hnodes : nodes.map Prod.fst = extract body) :
    ∃ transformed, writeBack body nodes = some transformed ∧
      (∀ node ∈ nodes, ∀ place : Place, node.1.path = place.path →
        transformed.readPath place.keys = some (.text node.2.1)) ∧
      ∀ keys, (∀ node ∈ nodes, ∀ place : Place, node.1.path = place.path →
          Json.Forks place.keys keys) →
        transformed.readPath keys = body.readPath keys := by
  let keysOf : TextNode → List Key := fun node => (parsePath node.path).getD []
  have hkeysOf : ∀ (node : TextNode) (place : Place), node.path = place.path →
      keysOf node = place.keys := fun node place hpath => by
    simp only [keysOf, hpath, place.parsePath_path, Option.getD_some]
  have hplace : ∀ node ∈ nodes, ∃ place : Place, node.1.path = place.path ∧
      body.readPath place.keys = some (.text node.1.value) := fun node hnode => by
    obtain ⟨place, hpath, -, hread, -⟩ :=
      mem_extract_iff.mp (hnodes ▸ List.mem_map_of_mem hnode)
    exact ⟨place, hpath, hread⟩
  have hforks : (nodes.map fun node => (keysOf node.1, Json.text node.2.1)).Pairwise
      fun a b => Json.Forks a.1 b.1 := by
    have hapart := apart_extract body
    rw [← hnodes, List.pairwise_map] at hapart
    refine List.pairwise_map.mpr (hapart.imp fun {a b} h => ?_)
    obtain ⟨place, place', hne, ha, hb⟩ := h
    rw [hkeysOf a.1 place ha, hkeysOf b.1 place' hb]
    exact Place.forks_keys hne
  obtain ⟨transformed, hwritten, hvalues, hframe⟩ := Json.exists_writePaths hforks
    fun write hwrite => by
      obtain ⟨node, hnode, rfl⟩ := List.mem_map.mp hwrite
      obtain ⟨place, hpath, hread⟩ := hplace node hnode
      rw [hkeysOf node.1 place hpath]
      exact ⟨place.keys_ne_nil, Option.isSome_of_eq_some hread⟩
  refine ⟨transformed, writeBack_of_writePaths keysOf (fun node hnode => ?_) hwritten,
    fun node hnode place hpath => ?_, fun keys hkeys => hframe keys fun write hwrite => ?_⟩
  · obtain ⟨place, hpath, -⟩ := hplace node hnode
    rw [hkeysOf node.1 place hpath, hpath, place.parsePath_path]
  · rw [← hkeysOf node.1 place hpath]
    exact hvalues _ (List.mem_map_of_mem hnode)
  · obtain ⟨node, hnode, rfl⟩ := List.mem_map.mp hwrite
    obtain ⟨place, hpath, -⟩ := hplace node hnode
    rw [hkeysOf node.1 place hpath]
    exact hkeys node hnode place hpath

/-- **Nothing passes by detection.** A text is offered to detection if and only if it is not blank
and the client sends it as the content of a message or as the arguments of a tool call; and after
the nodes are written back, every text of the transformed request at one of these places, unless
it is blank, is the new text of a node. -/
theorem inspected (request : ChatRequest) :
    (∀ keys s, Offered request.modelDump keys s ↔
      Text.strip s ≠ [] ∧ ∃ place : Place, place.keys = keys ∧ Sent request place s) ∧
    ∀ nodes, nodes.map Prod.fst = extract request.modelDump →
      ∃ transformed, writeBack request.modelDump nodes = some transformed ∧
        ∀ (place : Place) (s : Text), transformed.readPath place.keys = some (.text s) →
          Text.strip s ≠ [] → ∃ node ∈ nodes, node.1.path = place.path ∧ node.2.1 = s := by
  refine ⟨offered_iff request, fun nodes hnodes => ?_⟩
  obtain ⟨transformed, hwritten, hvalues, hframe⟩ := exists_writeBack hnodes
  refine ⟨transformed, hwritten, fun place s hread hblank => ?_⟩
  by_cases hplace : ∃ node ∈ nodes, node.1.path = place.path
  · obtain ⟨node, hnode, hpath⟩ := hplace
    rw [hvalues node hnode place hpath] at hread
    exact ⟨node, hnode, hpath, Json.text.inj (Option.some.inj hread)⟩
  · -- nothing was written at the place, so its text was there before, and made a node
    refine absurd ?_ hplace
    rw [hframe place.keys fun node hnode place' hpath => Place.forks_keys fun heq =>
      hplace ⟨node, hnode, heq ▸ hpath⟩] at hread
    have hnode : (⟨place.path, place.role request.modelDump, s⟩ : TextNode) ∈
        extract request.modelDump := mem_extract_iff.mpr ⟨place, rfl, rfl, hread, hblank⟩
    rw [← hnodes] at hnode
    obtain ⟨node, hmem, hfst⟩ := List.mem_map.mp hnode
    exact ⟨node, hmem, congrArg TextNode.path hfst⟩

/-- A message with a content that is a text. -/
def sampleTextRequest : ChatRequest where
  model := name "m"
  messages := [{ role := .user, content := some (.text (name "Call 555-0100")) }]

theorem inspected_sampleTextRequest :
    Offered sampleTextRequest.modelDump (Place.content 0).keys (name "Call 555-0100") ∧
      ∃ transformed, writeBack sampleTextRequest.modelDump
        [(⟨contentPath 0, .text (name "user"), name "Call 555-0100"⟩,
          name "Call [PHONE_0]", true)] =
          some transformed := by
  obtain ⟨hoffered, hwritten⟩ := inspected sampleTextRequest
  obtain ⟨transformed, h, -⟩ := hwritten
    [(⟨contentPath 0, .text (name "user"), name "Call 555-0100"⟩, name "Call [PHONE_0]", true)] rfl
  exact ⟨(hoffered _ _).mpr ⟨by decide, .content 0, rfl, .content rfl rfl⟩, transformed, h⟩

/-! ### A content in parts -/

/-- A message with a content in parts: one text. -/
def sampleRequest : ChatRequest where
  model := name "m"
  messages :=
    [{ role := .user
       content := some (.other
        [[(name "type", .text (name "text")),
          (name "text", .text (name "My SSN is 078-05-1120"))]]) }]

/-- The text of a content in parts is not offered to detection. -/
theorem not_offered_parts :
    ¬ ∀ (request : ChatRequest) (keys : List Key) (s : Text),
      (∃ place : Place, place.keys = keys ∧ Sent request place s) ∨ SentPart request keys s →
        Text.strip s ≠ [] → Offered request.modelDump keys s := by
  intro h
  have hpart : SentPart sampleRequest
      [.name (name "messages"), .index 0, .name (name "content"), .index 0, .name (name "text")]
      (name "My SSN is 078-05-1120") := .part rfl rfl rfl rfl rfl
  obtain ⟨node, hnode, -⟩ := h sampleRequest _ _ (Or.inr hpart) (by decide)
  have hnone : extract sampleRequest.modelDump = [] := rfl
  rw [hnone] at hnode
  exact List.not_mem_nil hnode

end AnonReq.Pipeline
