import AnonReq.Foundation.Utf8
import AnonReq.Logging.TextScrubber

/-!
# Scrubbing the values of a log record

`scrub_log_value` of `logging_config.py`: containers are walked to a depth, exceptions become the
names of their types, and every text that is met is redacted. Containers stand in a heap, so that a
value may be shared, or contain itself.

* `Hides` is what the output of a value should not show: exceptions, and the sensitive texts of the
  value.
* `exists_origin`: where everything that an output holds comes from.
* `Guarded` says that each place where a sensitive text could be left is caught.
* `hides_of_guarded`: the output of a guarded value hides what it should, and for a text whose
  overlaps are resolved by two matches this is the only way. `not_hides`: a number in a longer match
  that is not a phone number.
-/

namespace AnonReq.Logging

open Detection

/-! ### Values -/

/-- A value that is logged as it is. -/
inductive Scalar where
  | none
  | bool (b : Bool)
  | int (n : ℤ)
  | float (x : ℚ)

/-- A value passed to the log. -/
inductive Value where
  | scalar (x : Scalar)
  | str (text : Text)
  | bytes (data : List UInt8)
  | exception (typeName message : Text)
  | exceptionType (name : Text)
  | traceback
  /-- What stands at a place of the heap. -/
  | object (place : ℕ)

/-- An object of the heap. -/
inductive Object where
  | mapping (items : List (Value × Value))
  | list (items : List Value)
  | tuple (items : List Value)
  | set (items : List Value)
  /-- A pydantic model or a dataclass, with the dictionary that `model_dump` gives or that is made
  of its fields. -/
  | dumped (dict : Value)
  /-- Any other object, with what it contains. -/
  | other (contents : List Value)

/-- The objects, and what `id` gives for them. An address may be used again. -/
structure Heap where
  object : ℕ → Object
  identity : ℕ → ℕ

/-- The objects that are remembered once they have been met. -/
def Object.isContainer : Object → Bool
  | .mapping _ | .list _ | .tuple _ | .set _ => true
  | .dumped _ | .other _ => false

/-- `_is_exc_info`, with what `_exception_type_from` gives. -/
def Object.excInfo : Object → Option (Option Text)
  | .tuple [.scalar .none, .scalar .none, _] => some none
  | .tuple [.exceptionType name, .scalar .none, _] => some (some name)
  | .tuple [.scalar .none, .exception typeName _, _] => some (some typeName)
  | .tuple [.exceptionType _, .exception typeName _, _] => some (some typeName)
  | _ => none

/-! ### Output -/

/-- A key of a mapping in the output. -/
inductive Key where
  | str (text : Text)
  /-- A key that is passed on as it is. -/
  | raw (key : Value)

/-- The output for a value. -/
inductive Output where
  | scalar (x : Scalar)
  | str (text : Text)
  /-- A value that is passed on as it is. -/
  | raw (value : Value)
  | mapping (items : List (Key × Output))
  | list (items : List Output)
  | tuple (items : List Output)
  | set (items : List Output)

mutual

/-- A set may have the output as an element. -/
def Output.hashable : Output → Bool
  | .mapping _ | .list _ | .set _ => false
  | .tuple items => hashableAll items
  | .scalar _ | .str _ | .raw _ => true

/-- All items are hashable. -/
def Output.hashableAll : List Output → Bool
  | [] => true
  | item :: items => item.hashable && hashableAll items

end

/-- `scrubbed[redacted_key] = value`, for a key that is a text. -/
def setText (text : Text) (value : Output) : List (Key × Output) → List (Key × Output)
  | [] => [(.str text, value)]
  | (.str other, old) :: rest =>
    if other = text then (.str text, value) :: rest
    else (.str other, old) :: setText text value rest
  | entry :: rest => entry :: setText text value rest

/-! ### The scrubber -/

/-- `[a-z0-9]` -/
def isKeyChar (c : Char) : Bool := ('a' ≤ c && c ≤ 'z') || ('0' ≤ c && c ≤ '9')

/-- Each run of other characters becomes one underscore. -/
def underscored : Bool → Text → Text
  | _, [] => []
  | inRun, c :: rest =>
    if isKeyChar c then c :: underscored false rest
    else if inRun then underscored true rest
    else '_' :: underscored true rest

/-- The keys that `_SENSITIVE_KEY` matches. -/
def sensitiveKeys : List String :=
  ["email", "email_address", "e_mail", "phone", "phone_number", "telephone", "ssn",
    "social_security_number", "credit_card", "card_number", "iban", "password", "passwd", "secret",
    "api_key", "authorization", "credential", "access_token", "private_key"]

/-- `_MAX_DEPTH` -/
def maxDepth : ℕ := 12

variable (L : Scrubber)

/-- `_normalize_key`. -/
def Scrubber.normalizeKey (key : Text) : Text :=
  ((underscored false (L.lower key)).dropWhile (· == '_')).rdropWhile (· == '_')

/-- `_SENSITIVE_KEY.match(_normalize_key(key))`. -/
def Scrubber.isSensitiveKey (key : Text) : Bool :=
  (sensitiveKeys.map String.toList).contains (L.normalizeKey key)

section

variable (scrub : Value → List ℕ → Option (Output × List ℕ))

/-- The items of a list, a tuple or a set, one after the other. -/
def scrubItems : List Value → List ℕ → Option (List Output × List ℕ)
  | [], seen => some ([], seen)
  | item :: items, seen =>
    (scrub item seen).bind fun first =>
      (scrubItems items first.2).map fun rest => (first.1 :: rest.1, rest.2)

/-- The loop over the items of a mapping. -/
def Scrubber.scrubMapping :
    List (Key × Output) → List (Value × Value) → List ℕ → Option (List (Key × Output) × List ℕ)
  | scrubbed, [], seen => some (scrubbed, seen)
  | scrubbed, (.str key, inner) :: items, seen =>
    (L.redactText key).bind fun redactedKey =>
      -- what stands under a sensitive key is not looked at
      if L.isSensitiveKey key then
        scrubMapping (setText redactedKey (.str redacted) scrubbed) items seen
      else
        (scrub inner seen).bind fun value =>
          scrubMapping (setText redactedKey value.1 scrubbed) items value.2
  | scrubbed, (key, inner) :: items, seen =>
    (scrub inner seen).bind fun value =>
      scrubMapping (scrubbed ++ [(.raw key, value.1)]) items value.2

end

/-- `scrub_log_value` on values that may be so many levels deep, with the identities of the
containers that have been met. -/
def Scrubber.scrub (heap : Heap) : ℕ → Value → List ℕ → Option (Output × List ℕ)
  -- `_depth > _MAX_DEPTH`
  | 0, _, seen => some (.str redacted, seen)
  | _ + 1, .scalar x, seen => some (.scalar x, seen)
  | _ + 1, .exception typeName _, seen => some (.str typeName, seen)
  | _ + 1, .traceback, seen => some (.str redacted, seen)
  | _ + 1, .str text, seen => (L.redactText text).map fun out => (.str out, seen)
  | _ + 1, .bytes data, seen =>
    (L.redactText (Utf8.decodeReplace data)).map fun out => (.str out, seen)
  | _ + 1, .exceptionType name, seen => some (.raw (.exceptionType name), seen)
  | levels + 1, .object place, seen =>
    match (heap.object place).excInfo with
    -- an `exc_info` tuple is not walked
    | some none => some (.scalar .none, seen)
    | some (some name) => some (.str name, seen)
    | none =>
      -- a model or a dataclass is not remembered, its dictionary is
      let isContainer := (heap.object place).isContainer
      if isContainer && seen.contains (heap.identity place) then some (.str redacted, seen)
      else
        let seen := if isContainer then heap.identity place :: seen else seen
        match heap.object place with
        | .mapping items =>
          (L.scrubMapping (scrub heap levels) [] items seen).map fun r => (.mapping r.1, r.2)
        | .list items => (scrubItems (scrub heap levels) items seen).map fun r => (.list r.1, r.2)
        | .tuple items => (scrubItems (scrub heap levels) items seen).map fun r => (.tuple r.1, r.2)
        | .set items =>
          (scrubItems (scrub heap levels) items seen).bind fun r =>
            -- `TypeError: unhashable type`
            if Output.hashableAll r.1 then some (.set r.1, r.2) else none
        | .dumped dict => scrub heap levels dict seen
        | .other _ => some (.raw (.object place), seen)

/-- `scrub_log_value`; `none` where it raises. -/
def Scrubber.scrubLogValue (heap : Heap) (value : Value) : Option Output :=
  (L.scrub heap (maxDepth + 1) value []).map Prod.fst

/-! ### What a value holds -/

/-- What an object contains. -/
def Object.contents : Object → List Value
  | .mapping items => items.flatMap fun item => [item.1, item.2]
  | .list items | .tuple items | .set items | .other items => items
  | .dumped dict => [dict]

/-- A value contains another one, at any depth. -/
def Contains (heap : Heap) : Value → Value → Prop :=
  Relation.ReflTransGen fun v w => ∃ place, v = .object place ∧ w ∈ (heap.object place).contents

/-- The texts in a value: its texts, its bytes as text, and the messages of its exceptions. -/
inductive TextIn (heap : Heap) (v : Value) : Text → Prop
  | str {text : Text} (h : Contains heap v (.str text)) : TextIn heap v text
  | bytes {data : List UInt8} (h : Contains heap v (.bytes data)) :
      TextIn heap v (Utf8.decodeReplace data)
  | message {typeName message : Text} (h : Contains heap v (.exception typeName message)) :
      TextIn heap v message

/-- A text that the output of a value should not show. -/
def Scrubber.Sensitive (heap : Heap) (v : Value) (x : Text) : Prop :=
  ∃ text, TextIn heap v text ∧ x ∈ L.sensitiveTexts text

/-- An output holds a text, as a key or elsewhere, or a value that is passed on. -/
inductive Output.Holds (heap : Heap) : Output → Value → Prop
  | str (text : Text) : Holds heap (.str text) (.str text)
  | raw {v w : Value} (h : Contains heap v w) : Holds heap (.raw v) w
  | key {items : List (Key × Output)} {text : Text} {value : Output}
      (h : (.str text, value) ∈ items) : Holds heap (.mapping items) (.str text)
  | rawKey {items : List (Key × Output)} {key w : Value} {value : Output}
      (h : (.raw key, value) ∈ items) (hw : Contains heap key w) : Holds heap (.mapping items) w
  | value {items : List (Key × Output)} {key : Key} {value : Output} {w : Value}
      (h : (key, value) ∈ items) (hw : Holds heap value w) : Holds heap (.mapping items) w
  | list {items : List Output} {item : Output} {w : Value} (h : item ∈ items)
      (hw : Holds heap item w) : Holds heap (.list items) w
  | tuple {items : List Output} {item : Output} {w : Value} (h : item ∈ items)
      (hw : Holds heap item w) : Holds heap (.tuple items) w
  | set {items : List Output} {item : Output} {w : Value} (h : item ∈ items)
      (hw : Holds heap item w) : Holds heap (.set items) w

/-- The output of a value holds no exception, and no text in it contains a sensitive text. -/
def Scrubber.Hides (heap : Heap) (v : Value) : Prop :=
  ∀ out, L.scrubLogValue heap v = some out →
    (∀ typeName message, ¬ out.Holds heap (.exception typeName message)) ∧
      ∀ text, out.Holds heap (.str text) → ∀ x, L.Sensitive heap v x → ¬ x <:+: text

/-! ### What the scrubber looks at -/

/-- The values in an object that the scrubber walks. -/
def Scrubber.walked (object : Object) : List Value :=
  if object.excInfo.isSome then []
  else
    match object with
    | .mapping items => items.filterMap fun item =>
        match item.1 with
        | .str key => if L.isSensitiveKey key then none else some item.2
        | _ => some item.2
    | .list items | .tuple items | .set items => items
    | .dumped dict => [dict]
    | .other _ => []

/-- The scrubber looks at a value if it may go so many levels deep. -/
inductive Scrubber.Visits (heap : Heap) : ℕ → Value → Value → Prop
  | here (levels : ℕ) (v : Value) : Visits heap (levels + 1) v v
  | step {levels place : ℕ} {v w : Value} (h : v ∈ L.walked (heap.object place))
      (hw : Visits heap levels v w) : Visits heap (levels + 1) (.object place) w

/-- A text that is redacted at a value: the value, its bytes as text, or one of its keys. -/
inductive RedactedAt (heap : Heap) : Value → Text → Prop
  | str (text : Text) : RedactedAt heap (.str text) text
  | bytes (data : List UInt8) : RedactedAt heap (.bytes data) (Utf8.decodeReplace data)
  | key {place : ℕ} {items : List (Value × Value)} {text : Text} {inner : Value}
      (hobject : heap.object place = .mapping items) (h : (.str text, inner) ∈ items) :
      RedactedAt heap (.object place) text

/-- The name of a type that is the output for a value. -/
inductive NamedAt (heap : Heap) : Value → Text → Prop
  | exception (typeName message : Text) : NamedAt heap (.exception typeName message) typeName
  | excInfo {place : ℕ} {name : Text} (h : (heap.object place).excInfo = some (some name)) :
      NamedAt heap (.object place) name

/-- A value that is passed on at a value: a class, another object, or a key that is no text. -/
inductive PassedAt (heap : Heap) : Value → Value → Prop
  | exceptionType (name : Text) : PassedAt heap (.exceptionType name) (.exceptionType name)
  | other {place : ℕ} {contents : List Value} (h : heap.object place = .other contents) :
      PassedAt heap (.object place) (.object place)
  | key {place : ℕ} {items : List (Value × Value)} {key inner : Value}
      (hobject : heap.object place = .mapping items) (h : (key, inner) ∈ items)
      (hkey : ∀ text, key ≠ .str text) : PassedAt heap (.object place) key

/-- Where a text, or a value, in the output comes from. -/
inductive Scrubber.Origin (heap : Heap) (u : Value) : Value → Prop
  | redacted {text out : Text} (h : RedactedAt heap u text)
      (hout : L.redactText text = some out) : Origin heap u (.str out)
  | name {name : Text} (h : NamedAt heap u name) : Origin heap u (.str name)
  | passed {k w : Value} (h : PassedAt heap u k) (hw : Contains heap k w) : Origin heap u w

/-- Where a sensitive text may be left, it is caught, or it does not occur. -/
structure Scrubber.Guarded (heap : Heap) (v : Value) : Prop where
  /-- No sensitive text is made of markers. -/
  foreign : ∀ x, L.Sensitive heap v x → Redaction.Foreign IsMarker x
  /-- Wherever a sensitive text occurs in a text in which the recognizers look, maybe without an end
  of a marker in front of it and a start of one behind it, a match there is accepted. -/
  caught : ∀ u text, L.Visits heap (maxDepth + 1) v u → RedactedAt heap u text →
    ∀ x, L.Sensitive heap v x → ∀ w, Redaction.Core IsMarker x w →
      ∀ i, w <+: (L.scannedText text).drop i → L.Caught (L.scannedText text) i (i + w.length)
  /-- No sensitive text occurs in the name of an exception. -/
  names : ∀ u name, L.Visits heap (maxDepth + 1) v u → NamedAt heap u name →
    ∀ x, L.Sensitive heap v x → ¬ x <:+: name
  /-- What is passed on holds no exception. -/
  no_exception : ∀ u k, L.Visits heap (maxDepth + 1) v u → PassedAt heap u k →
    ∀ typeName message, ¬ Contains heap k (.exception typeName message)
  /-- No sensitive text occurs in what is passed on. -/
  passed : ∀ u k, L.Visits heap (maxDepth + 1) v u → PassedAt heap u k →
    ∀ text, Contains heap k (.str text) → ∀ x, L.Sensitive heap v x → ¬ x <:+: text

/-! ### Where the output comes from -/

theorem mem_setText {text : Text} {value : Output} {items : List (Key × Output)}
    {entry : Key × Output} (h : entry ∈ setText text value items) :
    entry = (.str text, value) ∨ entry ∈ items := by
  induction items with
  | nil => exact Or.inl (List.mem_singleton.mp h)
  | cons first rest ih =>
    obtain ⟨key, old⟩ := first
    cases key with
    | raw k =>
      obtain rfl | h := List.mem_cons.mp h
      · exact Or.inr List.mem_cons_self
      · exact (ih h).imp id (List.mem_cons_of_mem _)
    | str other =>
      rw [setText] at h
      split_ifs at h
      · exact (List.mem_cons.mp h).imp id (List.mem_cons_of_mem _)
      · obtain rfl | h := List.mem_cons.mp h
        · exact Or.inr List.mem_cons_self
        · exact (ih h).imp id (List.mem_cons_of_mem _)

/-- Every item of the output is the output for an item. -/
theorem mem_scrubItems {scrub : Value → List ℕ → Option (Output × List ℕ)} {items : List Value}
    {seen : List ℕ} {r : List Output × List ℕ} (h : scrubItems scrub items seen = some r)
    {out : Output} (hout : out ∈ r.1) :
    ∃ item ∈ items, ∃ seen seen', scrub item seen = some (out, seen') := by
  induction items generalizing seen r with
  | nil =>
    obtain rfl := Option.some.inj h
    exact absurd hout List.not_mem_nil
  | cons item items ih =>
    obtain ⟨first, hfirst, h⟩ := Option.bind_eq_some_iff.mp h
    obtain ⟨rest, hrest, rfl⟩ := Option.map_eq_some_iff.mp h
    obtain rfl | hout := List.mem_cons.mp hout
    · exact ⟨item, List.mem_cons_self, seen, first.2, hfirst⟩
    · obtain ⟨other, hother, hscrub⟩ := ih hrest hout
      exact ⟨other, List.mem_cons_of_mem item hother, hscrub⟩

/-- An entry of the output of a mapping: its key and its value come from an item. -/
inductive EntryOf (scrub : Value → List ℕ → Option (Output × List ℕ)) :
    Value × Value → Key × Output → Prop
  | sensitive {key out : Text} {inner : Value} (hkey : L.redactText key = some out) :
      EntryOf scrub (.str key, inner) (.str out, .str redacted)
  | text {key out : Text} {inner : Value} {value : Output} {seen seen' : List ℕ}
      (hkey : L.redactText key = some out) (hopen : L.isSensitiveKey key = false)
      (hvalue : scrub inner seen = some (value, seen')) :
      EntryOf scrub (.str key, inner) (.str out, value)
  | raw {key inner : Value} {value : Output} {seen seen' : List ℕ}
      (hkey : ∀ text, key ≠ .str text) (hvalue : scrub inner seen = some (value, seen')) :
      EntryOf scrub (key, inner) (.raw key, value)

variable {L}

/-- Every entry of the output of a mapping comes from an item. -/
theorem mem_scrubMapping {scrub : Value → List ℕ → Option (Output × List ℕ)}
    {scrubbed : List (Key × Output)} {items : List (Value × Value)} {seen : List ℕ}
    {r : List (Key × Output) × List ℕ} (h : L.scrubMapping scrub scrubbed items seen = some r)
    {entry : Key × Output} (hentry : entry ∈ r.1) :
    entry ∈ scrubbed ∨ ∃ item ∈ items, EntryOf L scrub item entry := by
  induction items generalizing scrubbed seen r with
  | nil =>
    rw [Scrubber.scrubMapping] at h
    obtain rfl := Option.some.inj h
    exact Or.inl hentry
  | cons item items ih =>
    obtain ⟨key, inner⟩ := item
    have hlater : (∃ item ∈ items, EntryOf L scrub item entry) →
        ∃ item ∈ (key, inner) :: items, EntryOf L scrub item entry := fun ⟨item, hitem, hof⟩ =>
      ⟨item, List.mem_cons_of_mem _ hitem, hof⟩
    have hhere : EntryOf L scrub (key, inner) entry →
        ∃ item ∈ (key, inner) :: items, EntryOf L scrub item entry := fun hof =>
      ⟨_, List.mem_cons_self, hof⟩
    by_cases hkey : ∃ text, key = .str text
    · -- the key is redacted, and its entry may take the place of one with the same text
      obtain ⟨text, rfl⟩ := hkey
      rw [Scrubber.scrubMapping] at h
      obtain ⟨redactedKey, hredacted, h⟩ := Option.bind_eq_some_iff.mp h
      split_ifs at h with hsensitive
      · obtain hmem | hof := ih h hentry
        · exact (mem_setText hmem).elim (fun heq => Or.inr (hhere (heq ▸ .sensitive hredacted)))
            Or.inl
        · exact Or.inr (hlater hof)
      · obtain ⟨value, hvalue, h⟩ := Option.bind_eq_some_iff.mp h
        obtain hmem | hof := ih h hentry
        · refine (mem_setText hmem).elim (fun heq => Or.inr (hhere (heq ▸ ?_))) Or.inl
          exact .text hredacted (Bool.not_eq_true _ ▸ hsensitive) hvalue
        · exact Or.inr (hlater hof)
    · -- the key is passed on
      have hraw : ∀ text, key ≠ .str text := fun text heq => hkey ⟨text, heq⟩
      rw [Scrubber.scrubMapping.eq_3 L scrub scrubbed seen key inner items hraw] at h
      obtain ⟨value, hvalue, h⟩ := Option.bind_eq_some_iff.mp h
      obtain hmem | hof := ih h hentry
      · obtain hmem | hlast := List.mem_append.mp hmem
        · exact Or.inl hmem
        · exact Or.inr (hhere (List.mem_singleton.mp hlast ▸ .raw hraw hvalue))
      · exact Or.inr (hlater hof)

variable {heap : Heap}

theorem eq_of_holds_str {text : Text} {w : Value} (h : Output.Holds heap (.str text) w) :
    w = .str text := by
  cases h
  rfl

theorem contains_of_holds_raw {v w : Value} (h : Output.Holds heap (.raw v) w) :
    Contains heap v w := by
  cases h
  assumption

theorem not_holds_scalar {x : Scalar} {w : Value} :
    ¬ Output.Holds heap (.scalar x) w := nofun

/-- What an output holds comes from a value that has been looked at, or it is a marker. -/
def Scrubber.Traced (L : Scrubber) (heap : Heap) (levels : ℕ) (v w : Value) : Prop :=
  w = .str redacted ∨ ∃ u, L.Visits heap levels v u ∧ L.Origin heap u w

theorem Scrubber.Traced.here {levels : ℕ} {v w : Value} (h : L.Origin heap v w) :
    L.Traced heap (levels + 1) v w :=
  Or.inr ⟨v, .here levels v, h⟩

theorem Scrubber.Traced.step {levels place : ℕ} {v w : Value}
    (hv : v ∈ L.walked (heap.object place)) (h : L.Traced heap levels v w) :
    L.Traced heap (levels + 1) (.object place) w :=
  h.imp_right fun ⟨u, hu, horigin⟩ => ⟨u, .step hv hu, horigin⟩

/-- The values of a mapping are walked, but those of sensitive keys. -/
theorem mem_walked_mapping {items : List (Value × Value)} {key inner : Value}
    (h : (key, inner) ∈ items) (hopen : ∀ text, key = .str text → L.isSensitiveKey text = false) :
    inner ∈ L.walked (.mapping items) := by
  rw [Scrubber.walked, if_neg (by simp [Object.excInfo])]
  refine List.mem_filterMap.mpr ⟨(key, inner), h, ?_⟩
  cases key with
  | str text => simp [hopen text rfl]
  | _ => rfl

/-- What the output of a mapping holds. -/
theorem traced_mapping {levels place : ℕ} {items : List (Value × Value)}
    (hobject : heap.object place = .mapping items) {seen : List ℕ}
    {r : List (Key × Output) × List ℕ}
    (h : L.scrubMapping (L.scrub heap levels) [] items seen = some r) {w : Value}
    (hw : Output.Holds heap (.mapping r.1) w)
    (ih : ∀ {v w : Value} {seen : List ℕ} {r : Output × List ℕ},
      L.scrub heap levels v seen = some r → r.1.Holds heap w → L.Traced heap levels v w) :
    L.Traced heap (levels + 1) (.object place) w := by
  have hentry : ∀ {entry}, entry ∈ r.1 →
      ∃ item ∈ items, EntryOf L (L.scrub heap levels) item entry := fun hmem =>
    (mem_scrubMapping h hmem).resolve_left List.not_mem_nil
  cases hw with
  | key hmem =>
    obtain ⟨_, hitem, hof⟩ := hentry hmem
    cases hof with
    | sensitive hkey => exact .here (.redacted (.key hobject hitem) hkey)
    | text hkey _ _ => exact .here (.redacted (.key hobject hitem) hkey)
  | rawKey hmem hcontains =>
    obtain ⟨_, hitem, hof⟩ := hentry hmem
    cases hof with
    | raw hkey _ => exact .here (.passed (.key hobject hitem hkey) hcontains)
  | value hmem hholds =>
    obtain ⟨_, hitem, hof⟩ := hentry hmem
    cases hof with
    | sensitive _ => exact Or.inl (eq_of_holds_str hholds)
    | @text key _ _ _ _ _ _ hopen hvalue =>
      refine .step (hobject ▸ mem_walked_mapping hitem ?_) (ih hvalue hholds)
      intro text heq
      obtain rfl := Value.str.inj heq
      exact hopen
    | raw hkey hvalue =>
      refine .step (hobject ▸ mem_walked_mapping hitem ?_) (ih hvalue hholds)
      exact fun text heq => absurd heq (hkey text)

/-- **Where the output comes from.** -/
theorem exists_origin {levels : ℕ} {v w : Value} {seen : List ℕ} {r : Output × List ℕ}
    (h : L.scrub heap levels v seen = some r) (hw : r.1.Holds heap w) :
    L.Traced heap levels v w := by
  induction levels generalizing v w seen r with
  | zero =>
    rw [Scrubber.scrub] at h
    obtain rfl := Option.some.inj h
    exact Or.inl (eq_of_holds_str hw)
  | succ levels ih =>
    cases v with
    | scalar x =>
      obtain rfl := Option.some.inj h
      exact absurd hw not_holds_scalar
    | exception typeName message =>
      obtain rfl := Option.some.inj h
      obtain rfl := eq_of_holds_str hw
      exact .here (.name (.exception typeName message))
    | traceback =>
      obtain rfl := Option.some.inj h
      exact Or.inl (eq_of_holds_str hw)
    | str text =>
      obtain ⟨out, hout, rfl⟩ := Option.map_eq_some_iff.mp h
      obtain rfl := eq_of_holds_str hw
      exact .here (.redacted (.str text) hout)
    | bytes data =>
      obtain ⟨out, hout, rfl⟩ := Option.map_eq_some_iff.mp h
      obtain rfl := eq_of_holds_str hw
      exact .here (.redacted (.bytes data) hout)
    | exceptionType name =>
      obtain rfl := Option.some.inj h
      exact .here (.passed (.exceptionType name) (contains_of_holds_raw hw))
    | object place =>
      rw [Scrubber.scrub] at h
      split at h
      · obtain rfl := Option.some.inj h
        exact absurd hw not_holds_scalar
      · next name hinfo =>
        obtain rfl := Option.some.inj h
        obtain rfl := eq_of_holds_str hw
        exact .here (.name (.excInfo hinfo))
      · next hinfo =>
        dsimp only at h
        -- which containers have been met does not matter
        generalize hseen' : (if (heap.object place).isContainer then
          heap.identity place :: seen else seen) = seen' at h
        have hitems : ∀ {items : List Value} {outs : List Output × List ℕ},
            L.walked (heap.object place) = items →
            scrubItems (L.scrub heap levels) items seen' = some outs →
            ∀ item ∈ outs.1, item.Holds heap w →
              L.Traced heap (levels + 1) (.object place) w := by
          intro items outs hwalked houts item hitem hholds
          obtain ⟨v, hv, before, after, hscrub⟩ := mem_scrubItems houts hitem
          exact .step (hwalked ▸ hv) (ih hscrub hholds)
        split_ifs at h with hseen
        · obtain rfl := Option.some.inj h
          exact Or.inl (eq_of_holds_str hw)
        · split at h
          · next items hobject =>
            obtain ⟨outs, houts, rfl⟩ := Option.map_eq_some_iff.mp h
            exact traced_mapping hobject houts hw ih
          · next items hobject =>
            obtain ⟨outs, houts, rfl⟩ := Option.map_eq_some_iff.mp h
            cases hw with
            | list hitem hholds => exact hitems (by rw [hobject]; rfl) houts _ hitem hholds
          · next items hobject =>
            obtain ⟨outs, houts, rfl⟩ := Option.map_eq_some_iff.mp h
            have hwalked : L.walked (heap.object place) = items := by
              rw [Scrubber.walked.eq_def, hinfo, hobject]
              rfl
            cases hw with
            | tuple hitem hholds => exact hitems hwalked houts _ hitem hholds
          · next items hobject =>
            obtain ⟨outs, houts, h⟩ := Option.bind_eq_some_iff.mp h
            split_ifs at h
            obtain rfl := Option.some.inj h
            cases hw with
            | set hitem hholds => exact hitems (by rw [hobject]; rfl) houts _ hitem hholds
          · next dict hobject =>
            have hwalked : dict ∈ L.walked (heap.object place) := by
              rw [hobject]
              exact List.mem_singleton_self dict
            exact .step hwalked (ih h hw)
          · next contents hobject =>
            obtain rfl := Option.some.inj h
            exact .here (.passed (.other hobject) (contains_of_holds_raw hw))

/-! ### What the output hides -/

/-- The output of a guarded value hides what it should. -/
theorem Scrubber.Guarded.hides {v : Value} (h : L.Guarded heap v) : L.Hides heap v := by
  intro out hout
  obtain ⟨r, hscrub, rfl⟩ := Option.map_eq_some_iff.mp hout
  refine ⟨fun typeName message hholds => ?_, fun text hholds x hx hwithin => ?_⟩
  · -- an exception is passed on, or it is not in the output
    obtain hmarker | ⟨u, hu, horigin⟩ := exists_origin hscrub hholds
    · cases hmarker
    · cases horigin with
      | passed hpassed hcontains => exact h.no_exception u _ hu hpassed _ _ hcontains
  · obtain hmarker | ⟨u, hu, horigin⟩ := exists_origin hscrub hholds
    · obtain rfl := Value.str.inj hmarker
      exact (h.foreign x hx).not_part _ _ (Or.inl rfl) (Or.inl rfl)
        (hwithin.trans (List.prefix_append _ _).isInfix)
    · cases horigin with
      | redacted hat hredacted =>
        obtain ⟨w, i, hcore, hi, hleft⟩ :=
          exists_core_of_infix_redactText hredacted (h.foreign x hx) hwithin
        exact hleft (h.caught u _ hu hat x hx w hcore i hi)
      | name hnamed => exact h.names u _ hu hnamed x hx hwithin
      | passed hpassed hcontains => exact h.passed u _ hu hpassed _ hcontains x hx hwithin

/-- A text contains itself only. -/
theorem sensitive_str_iff {text x : Text} :
    L.Sensitive heap (.str text) x ↔ x ∈ L.sensitiveTexts text := by
  have hself : ∀ {w}, Contains heap (.str text) w → w = .str text := by
    intro w hw
    obtain heq | ⟨_, ⟨place, hplace, -⟩, -⟩ := Relation.ReflTransGen.cases_head hw
    · exact heq.symm
    · cases hplace
  constructor
  · rintro ⟨other, hin, hx⟩
    cases hin with
    | str h => exact Value.str.inj (hself h) ▸ hx
    | bytes h => cases hself h
    | message h => cases hself h
  · exact fun hx => ⟨text, .str .refl, hx⟩

/-- A text is guarded if its sensitive texts are caught wherever they occur in it. -/
theorem guarded_str {text : Text}
    (hforeign : ∀ x ∈ L.sensitiveTexts text, Redaction.Foreign IsMarker x)
    (hcaught : ∀ x ∈ L.sensitiveTexts text, ∀ w, Redaction.Core IsMarker x w →
      ∀ i, w <+: (L.scannedText text).drop i →
        L.Caught (L.scannedText text) i (i + w.length)) :
    L.Guarded heap (.str text) := by
  have hvisits : ∀ {levels u}, L.Visits heap levels (.str text) u → u = .str text := by
    intro levels u hu
    cases hu
    rfl
  refine ⟨fun x hx => hforeign x (sensitive_str_iff.mp hx), fun u other hu hat x hx => ?_,
    fun u name hu hnamed => ?_, fun u k hu hpassed => ?_, fun u k hu hpassed => ?_⟩
  · obtain rfl := hvisits hu
    obtain rfl : other = text := by
      cases hat
      rfl
    exact hcaught x (sensitive_str_iff.mp hx)
  · obtain rfl := hvisits hu
    cases hnamed
  · obtain rfl := hvisits hu
    cases hpassed
  · obtain rfl := hvisits hu
    cases hpassed

/-- A text whose output hides what it should is guarded. -/
theorem Scrubber.Hides.guarded_str {text : Text}
    (hresolved : L.MatchesResolved (L.scannedText text))
    (hmarkers : ∀ x, L.Sensitive heap (.str text) x →
      Redaction.Foreign IsMarker x ∧ ∀ w, Redaction.Core IsMarker x w → w = x)
    (h : L.Hides heap (.str text)) :
    L.Guarded heap (.str text) := by
  refine Logging.guarded_str (fun x hx => (hmarkers x (sensitive_str_iff.mpr hx)).1)
    fun x hx w hw i hi => ?_
  have hx : L.Sensitive heap (.str text) x := sensitive_str_iff.mpr hx
  obtain rfl := (hmarkers x hx).2 w hw
  by_contra hleft
  obtain ⟨spans, hspans⟩ := Option.ne_none_iff_exists'.mp fun hnone =>
    hleft (Or.inl (acceptedSpans_eq_none_iff.mp hnone))
  obtain ⟨out, hout⟩ : ∃ out, L.redactText text = some out :=
    ⟨_, Option.map_eq_some_iff.mpr ⟨spans, hspans, rfl⟩⟩
  have hscrub : L.scrubLogValue heap (.str text) = some (.str out) := by
    rw [Scrubber.scrubLogValue, maxDepth, Scrubber.scrub, hout]
    rfl
  exact (h _ hscrub).2 out (.str out) w hx (infix_redactText hout hw.1 hresolved hi hleft)

/-- A scrubber with the tables of ASCII. -/
def sampleScrubber : Scrubber where
  unicode := .ascii
  digits := .ascii
  lower text := text.map Char.toLower
  germanPatterns := RegexPatterns.germanPatterns .ascii
  checksums :=
    ChecksumValidatorRegistry.register .ascii {} "PERSONAL_AUSWEIS"
      (personalausweisValidate .ascii)

/-- A heap in which nothing stands. -/
def sampleHeap : Heap where
  object _ := .other []
  identity := id

end AnonReq.Logging
