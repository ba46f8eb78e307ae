import AnonReq.Foundation.JsonFrame
import AnonReq.Foundation.LiteralPieces
import AnonReq.Foundation.Redaction
import AnonReq.Rag.Restoration

/-!
# Restoring a response

`rag/restoration.py`: the tokens in the texts of a response are put back, in the values of its
dictionaries at every depth and in the items of the lists that are such values.

* `readPath_restoreValue`: reading at names and restoring commute.
* `restoreText_flatten`: a text that is cut into tokens, in brackets or bare, and plain texts has
  its tokens replaced at once.
* `restoreText_perm`: without two tokens of one length the order of the mapping makes no difference.
* `restoreResponse_spec`: what becomes of a response.
-/

namespace AnonReq.Rag

open Substitution Streaming Tokenization

/-! ### The model -/

/-- An item of a list, in `_restore_dict`. -/
def restoreItem (mappings : TokenMapping) : Json → Json
  | .text item => .text (restoreText item mappings)
  | item => item

mutual

/-- `_restore_dict`. -/
def restoreDict (mappings : TokenMapping) : List (Text × Json) → List (Text × Json)
  | [] => []
  | (key, value) :: d => (key, restoreValue mappings value) :: restoreDict mappings d

/-- The branches of `_restore_dict` for a value. -/
def restoreValue (mappings : TokenMapping) : Json → Json
  | .text value => .text (restoreText value mappings)
  | .object value => .object (restoreDict mappings value)
  | .list value => .list (value.map (restoreItem mappings))
  | .null => .null
  | .bool value => .bool value
  | .int value => .int value
  | .float value => .float value

end

/-- `restore_response`. -/
def restoreResponse (cacheManager : Option (Text → Option TokenMapping))
    (response : List (Text × Json)) (sessionId : Text) : List (Text × Json) :=
  let mappings := loadMappings cacheManager sessionId
  if mappings.entries.isEmpty then response else restoreDict mappings response

/-! ### Reading what has been restored -/

variable {mappings : TokenMapping}

theorem lookup_restoreDict (fields : List (Text × Json)) (k : Text) :
    (restoreDict mappings fields).lookup k = (fields.lookup k).map (restoreValue mappings) := by
  induction fields with
  | nil => rfl
  | cons e fields ih =>
    rw [restoreDict, List.lookup_cons, List.lookup_cons, ih]
    split <;> rfl

theorem child_restoreValue (value : Json) (k : Text) :
    (restoreValue mappings value).child (.name k) =
      (value.child (.name k)).map (restoreValue mappings) := by
  cases value with
  | object fields => exact lookup_restoreDict fields k
  | _ => rfl

/-- **Reading at names** and restoring commute. -/
theorem readPath_restoreValue (value : Json) (keys : List Text) :
    (restoreValue mappings value).readPath (keys.map .name) =
      (value.readPath (keys.map .name)).map (restoreValue mappings) := by
  induction keys generalizing value with
  | nil => rfl
  | cons k keys ih =>
    rw [List.map_cons, Json.readPath, Json.readPath, child_restoreValue, Option.bind_map,
      Option.map_bind]
    exact congrArg (Option.bind _) (funext fun inner => ih inner)

theorem readPath_append (value : Json) (keys more : List Key) :
    value.readPath (keys ++ more) =
      (value.readPath keys).bind fun inner => inner.readPath more := by
  induction keys generalizing value with
  | nil => rfl
  | cons key keys ih =>
    rw [List.cons_append, Json.readPath, Json.readPath, Option.bind_assoc]
    exact congrArg (Option.bind _) (funext fun inner => ih inner)

/-- Without tokens a text stays as it is. -/
theorem restoreText_of_isEmpty (h : mappings.entries.isEmpty = true) (text : Text) :
    restoreText text mappings = text := by
  rw [restoreText, h, Bool.or_true, if_pos rfl]

theorem restoreItem_of_isEmpty (h : mappings.entries.isEmpty = true) (item : Json) :
    restoreItem mappings item = item := by
  cases item with
  | text s => exact congrArg Json.text (restoreText_of_isEmpty h s)
  | _ => rfl

mutual

theorem restoreDict_of_isEmpty (h : mappings.entries.isEmpty = true) :
    ∀ fields, restoreDict mappings fields = fields
  | [] => rfl
  | (key, value) :: fields => by
    rw [restoreDict, restoreValue_of_isEmpty h value, restoreDict_of_isEmpty h fields]

theorem restoreValue_of_isEmpty (h : mappings.entries.isEmpty = true) :
    ∀ value, restoreValue mappings value = value
  | .text s => congrArg Json.text (restoreText_of_isEmpty h s)
  | .object fields => congrArg Json.object (restoreDict_of_isEmpty h fields)
  | .list items => by
    rw [restoreValue, funext (restoreItem_of_isEmpty h), List.map_id']
  | .null => rfl
  | .bool _ => rfl
  | .int _ => rfl
  | .float _ => rfl

end

/-- **Reading a response** that has been restored. -/
theorem readPath_restoreResponse (cacheManager : Option (Text → Option TokenMapping))
    (response : List (Text × Json)) (sessionId : Text) (keys : List Text) :
    (Json.object (restoreResponse cacheManager response sessionId)).readPath (keys.map .name) =
      ((Json.object response).readPath (keys.map .name)).map
        (restoreValue (loadMappings cacheManager sessionId)) := by
  have hrestored : Json.object (restoreResponse cacheManager response sessionId) =
      restoreValue (loadMappings cacheManager sessionId) (.object response) := by
    unfold restoreResponse
    dsimp only
    split_ifs with hempty
    · exact (restoreValue_of_isEmpty hempty _).symm
    · rfl
  rw [hrestored, readPath_restoreValue]

/-! ### Tokens in a text -/

/-- The tokens of a mapping are names in brackets. -/
def BracketedTokens (mappings : TokenMapping) : Prop :=
  ∀ e ∈ mappings.entries, ∃ core, core ≠ [] ∧ BracketFree core ∧ e.1 = bracketed core

/-- The value of a token, which is given in brackets or bare. -/
def tokenValue (mappings : TokenMapping) (piece : Text) : Option Text :=
  (Dict.get mappings.entries piece).or (Dict.get mappings.entries (bracketed piece))

/-- A piece of a text with its token replaced, if it is one. -/
def restorePiece (mappings : TokenMapping) (piece : Text) : Text :=
  (tokenValue mappings piece).getD piece

/-- **A text cut into tokens and plain texts.** No name of a token is in a plain piece or in a
value, and none, bare or in brackets, is found over a cut, whichever pieces have been replaced. -/
structure Cut (mappings : TokenMapping) (pieces : List Text) : Prop where
  piece : ∀ piece ∈ pieces, (tokenValue mappings piece).isSome = true ∨
    ∀ e ∈ mappings.entries, ¬ stripBrackets e.1 <:+: piece
  value : ∀ e ∈ mappings.entries, ∀ e' ∈ mappings.entries, ¬ stripBrackets e.1 <:+: e'.2
  unsplit : ∀ texts ∈ (pieces.map fun piece => [piece, restorePiece mappings piece]).sections,
    ∀ e ∈ mappings.entries, Unsplit e.1 e.2 texts ∧ Unsplit (stripBrackets e.1) e.2 texts

/-- A token has its name within. -/
theorem BracketedTokens.strip_infix (h : BracketedTokens mappings) {e : Text × Text}
    (he : e ∈ mappings.entries) : stripBrackets e.1 <:+: e.1 := by
  obtain ⟨core, hne, hfree, htoken⟩ := h e he
  rw [htoken, stripBrackets_bracketed hfree hne]
  exact ⟨['['], [']'], rfl⟩

theorem mem_passes {pass : Text × Text} : pass ∈ passes mappings ↔
    ∃ e ∈ mappings.entries, pass = e ∨ pass = (stripBrackets e.1, e.2) := by
  have horiginal : ∀ e ∈ mappings.entries, mappings.original e.1 = e.2 := fun e he => by
    rw [TokenMapping.original, (Dict.get_eq_some_iff mappings.keys_nodup).mpr he, Option.getD_some]
  rw [passes, List.mem_flatMap]
  constructor
  · rintro ⟨token, htoken, hpass⟩
    obtain ⟨e, he, rfl⟩ := List.mem_map.mp (mem_longestFirst.mp htoken)
    rw [horiginal e he] at hpass
    exact ⟨e, he, by simpa using hpass⟩
  · rintro ⟨e, he, hpass⟩
    refine ⟨e.1, mem_longestFirst.mpr (List.mem_map_of_mem he), ?_⟩
    rw [horiginal e he]
    simpa using hpass

/-- A name within a name in brackets is within the name. -/
theorem infix_of_infix_bracketed {core core' : Text} (hne : core ≠ []) (hcore : BracketFree core)
    (h : core <:+: bracketed core') : core <:+: core' := by
  obtain hnil | h := Redaction.infix_append_cons (a := []) hcore.1 h
  · exact absurd (List.infix_nil.mp hnil) hne
  · obtain h | hnil := Redaction.infix_append_cons (b := []) hcore.2 h
    · exact h
    · exact absurd (List.infix_nil.mp hnil) hne

/-- **Longest first**: of two tokens the earlier one is found in the later one neither in brackets
nor bare. -/
theorem pairwise_passes (h : BracketedTokens mappings) :
    (passes mappings).Pairwise fun pass later => ¬ pass.1 <:+: later.1 := by
  have hcore : ∀ token ∈ mappings.sortedTokens, ∃ core, core ≠ [] ∧ BracketFree core ∧
      token = bracketed core ∧ stripBrackets token = core := by
    intro token htoken
    obtain ⟨e, he, rfl⟩ := List.mem_map.mp (mem_longestFirst.mp htoken)
    obtain ⟨core, hne, hfree, htoken⟩ := h e he
    exact ⟨core, hne, hfree, htoken, htoken ▸ stripBrackets_bracketed hfree hne⟩
  have hsorted : mappings.sortedTokens.Nodup :=
    (List.perm_insertionSort _ _).nodup_iff.mpr mappings.keys_nodup
  rw [passes, List.pairwise_flatMap]
  constructor
  · intro token htoken
    obtain ⟨core, hne, hfree, rfl, hstrip⟩ := hcore token htoken
    rw [hstrip, List.pairwise_pair]
    -- a token in brackets is too long to be found in its name
    intro hwithin
    have hlength : (bracketed core).length ≤ core.length := hwithin.length_le
    rw [length_bracketed] at hlength
    omega
  · refine ((pairwise_sortedTokens mappings).and hsorted).imp_of_mem ?_
    rintro token later htoken hlater ⟨hle, hdistinct⟩
    obtain ⟨core, hne, hfree, rfl, hstrip⟩ := hcore token htoken
    obtain ⟨core', -, -, rfl, hstrip'⟩ := hcore later hlater
    rw [hstrip, hstrip']
    rw [length_bracketed, length_bracketed] at hle
    -- the later token is no longer, so that it could only be the same one
    have hcores : ¬ core <:+: core' := fun hwithin =>
      hdistinct (congrArg bracketed (hwithin.eq_of_length_le (by omega)))
    simp only [List.mem_cons, List.not_mem_nil, or_false, forall_eq_or_imp, forall_eq]
    refine ⟨⟨fun hwithin => ?_, fun hwithin => ?_⟩, fun hwithin => ?_, hcores⟩
    · exact hdistinct (hwithin.eq_of_length_le (by rw [length_bracketed, length_bracketed]; omega))
    · have hlength : (bracketed core).length ≤ core'.length := hwithin.length_le
      rw [length_bracketed] at hlength
      omega
    · exact hcores (infix_of_infix_bracketed hne hfree hwithin)

/-- The replacements of a mapping do not meet, if no value has a name in it. -/
theorem independent_passes (h : BracketedTokens mappings)
    (hvalue : ∀ e ∈ mappings.entries, ∀ e' ∈ mappings.entries, ¬ stripBrackets e.1 <:+: e'.2) :
    Independent (passes mappings) where
  ne_nil pass hpass := by
    obtain ⟨e, he, hpass⟩ := mem_passes.mp hpass
    obtain ⟨core, hne, hfree, htoken⟩ := h e he
    obtain rfl | rfl := hpass
    · rw [htoken]
      exact bracketed_ne_nil core
    · rw [htoken, stripBrackets_bracketed hfree hne]
      exact hne
  order := pairwise_passes h
  new pass hpass other hother hwithin := by
    obtain ⟨e, he, hpass⟩ := mem_passes.mp hpass
    obtain ⟨e', he', hother⟩ := mem_passes.mp hother
    have hsame : other.2 = e'.2 := by
      obtain rfl | rfl := hother
      · rfl
      · rfl
    rw [hsame] at hwithin
    obtain rfl | rfl := hpass
    · -- where a token is found, its name is
      exact hvalue pass he e' he' ((h.strip_infix he).trans hwithin)
    · exact hvalue e he e' he' hwithin

/-- **The replacements of a mapping** replace the tokens by their values. -/
theorem tokenValue_eq_some_iff (h : BracketedTokens mappings) {piece value : Text} :
    tokenValue mappings piece = some value ↔ (piece, value) ∈ passes mappings := by
  have hget : ∀ token value, Dict.get mappings.entries token = some value ↔
      (token, value) ∈ mappings.entries := fun _ _ => Dict.get_eq_some_iff mappings.keys_nodup
  rw [tokenValue, Option.or_eq_some_iff, hget, hget, mem_passes]
  constructor
  · rintro (hentry | ⟨-, hentry⟩)
    · exact ⟨_, hentry, Or.inl rfl⟩
    · refine ⟨_, hentry, Or.inr (Prod.ext ?_ rfl)⟩
      obtain ⟨core, hne, hfree, htoken⟩ := h _ hentry
      obtain rfl := bracketed_injective htoken
      exact (stripBrackets_bracketed hfree hne).symm
  · rintro ⟨e, he, rfl | hbare⟩
    · exact Or.inl he
    · obtain ⟨core, hne, hfree, htoken⟩ := h e he
      obtain ⟨hpiece, rfl⟩ := Prod.mk.inj hbare
      rw [htoken, stripBrackets_bracketed hfree hne] at hpiece
      subst hpiece
      refine Or.inr ⟨Dict.get_eq_none_iff.mpr fun hkey => ?_, htoken ▸ he⟩
      -- a name is no key: it has no bracket
      obtain ⟨e', he', rfl⟩ := List.mem_map.mp hkey
      obtain ⟨core', -, -, htoken'⟩ := h e' he'
      exact hfree.1 (htoken' ▸ List.mem_cons_self)

/-- What a piece is replaced by does not depend on the order of the mapping. -/
theorem restored_passes (h : BracketedTokens mappings) (hpasses : Independent (passes mappings)) :
    restored (passes mappings) = restorePiece mappings := by
  refine funext fun piece => congrArg (Option.getD · piece) (Option.ext fun value => ?_)
  rw [Dict.get_eq_some_iff hpasses.nodup, tokenValue_eq_some_iff h]

theorem restoreText_eq_replaceAll (h : BracketedTokens mappings) (text : Text) :
    restoreText text mappings = replaceAll (passes mappings) text := by
  by_cases htext : text = []
  · have hne : ∀ pass ∈ passes mappings, pass.1 ≠ [] := fun pass hpass => by
      obtain ⟨e, he, hpass⟩ := mem_passes.mp hpass
      obtain ⟨core, hne, hfree, htoken⟩ := h e he
      obtain rfl | rfl := hpass
      · exact htoken ▸ bracketed_ne_nil core
      · exact htoken ▸ (stripBrackets_bracketed hfree hne).symm ▸ hne
    rw [htext, restoreText_nil]
    exact (replaceAll_of_not_isInfix hne fun pass hpass hwithin =>
      hne pass hpass (List.infix_nil.mp hwithin)).symm
  · exact restoreText_of_ne_nil htext

/-- **The tokens of a text are replaced at once.** -/
theorem restoreText_flatten (h : BracketedTokens mappings) {pieces : List Text}
    (hcut : Cut mappings pieces) :
    restoreText pieces.flatten mappings = (pieces.map (restorePiece mappings)).flatten := by
  have hpasses := independent_passes h hcut.value
  have hrestored := restored_passes h hpasses
  have hseparated : Separated (passes mappings) pieces := by
    refine ⟨fun piece hpiece => ?_, fun texts htexts pass hpass => ?_⟩
    · obtain hsome | hnot := hcut.piece piece hpiece
      · obtain ⟨value, hvalue⟩ := Option.isSome_iff_exists.mp hsome
        exact Or.inl (List.mem_map.mpr ⟨_, (tokenValue_eq_some_iff h).mp hvalue, rfl⟩)
      · refine Or.inr fun pass hpass hwithin => ?_
        obtain ⟨e, he, rfl | rfl⟩ := mem_passes.mp hpass
        · exact hnot pass he ((h.strip_infix he).trans hwithin)
        · exact hnot e he hwithin
    · rw [mixtures, hrestored] at htexts
      obtain ⟨e, he, rfl | rfl⟩ := mem_passes.mp hpass
      · exact (hcut.unsplit texts htexts pass he).1
      · exact (hcut.unsplit texts htexts e he).2
  rw [restoreText_eq_replaceAll h, hpasses.replaceAll_flatten hseparated, hrestored]

/-! ### The order of a mapping -/

variable {mappings' : TokenMapping}

theorem restorePiece_eq_of_perm (hperm : mappings.entries.Perm mappings'.entries) :
    restorePiece mappings = restorePiece mappings' := by
  funext piece
  rw [restorePiece, restorePiece, tokenValue, tokenValue]
  rw [Dict.get_eq_of_perm mappings.keys_nodup hperm, Dict.get_eq_of_perm mappings.keys_nodup hperm]

/-- A text that is cut for a mapping is cut for the mapping in another order. -/
theorem Cut.of_perm {pieces : List Text} (h : Cut mappings pieces)
    (hperm : mappings.entries.Perm mappings'.entries) : Cut mappings' pieces := by
  have hmem : ∀ e, e ∈ mappings'.entries → e ∈ mappings.entries := fun e => hperm.mem_iff.mpr
  have hvalue : tokenValue mappings' = tokenValue mappings := funext fun piece => by
    rw [tokenValue, tokenValue, Dict.get_eq_of_perm mappings.keys_nodup hperm,
      Dict.get_eq_of_perm mappings.keys_nodup hperm]
  refine ⟨fun piece hpiece => ?_, fun e he e' he' => h.value e (hmem e he) e' (hmem e' he'), ?_⟩
  · rw [hvalue]
    exact (h.piece piece hpiece).imp_right fun hnot e he => hnot e (hmem e he)
  · rw [← restorePiece_eq_of_perm hperm]
    exact fun texts htexts e he => h.unsplit texts htexts e (hmem e he)

/-- **Without two tokens of one length** the order of the mapping makes no difference. -/
theorem restoreText_perm (hperm : mappings.entries.Perm mappings'.entries)
    (hlengths : (mappings.entries.map fun e => e.1.length).Nodup) (text : Text) :
    restoreText text mappings' = restoreText text mappings := by
  have hsorted : mappings'.sortedTokens = mappings.sortedTokens := by
    have hkeys : mappings'.sortedTokens.Perm mappings.sortedTokens :=
      ((List.perm_insertionSort _ _).trans (hperm.map Prod.fst).symm).trans
        (List.perm_insertionSort _ _).symm
    refine List.Perm.eq_of_pairwise (fun a b ha hb hab hba => ?_) (pairwise_sortedTokens _)
      (pairwise_sortedTokens _) hkeys
    -- two tokens of one length are the same
    obtain ⟨e, he, rfl⟩ := List.mem_map.mp (mem_longestFirst.mp (hkeys.mem_iff.mp ha))
    obtain ⟨e', he', rfl⟩ := List.mem_map.mp (mem_longestFirst.mp hb)
    exact congrArg Prod.fst (List.inj_on_of_nodup_map hlengths he he' (Nat.le_antisymm hba hab))
  have horiginal : mappings'.original = mappings.original := funext fun token => by
    rw [TokenMapping.original, TokenMapping.original,
      Dict.get_eq_of_perm mappings.keys_nodup hperm]
  rw [restoreText, restoreText, hsorted, horiginal, hperm.isEmpty_eq]

/-! ### A response -/

mutual

/-- A document with every text in it replaced. -/
def mapTexts (f : Text → Text) : Json → Json
  | .text s => .text (f s)
  | .object fields => .object (mapFieldTexts f fields)
  | .list items => .list (mapItemTexts f items)
  | .null => .null
  | .bool b => .bool b
  | .int n => .int n
  | .float shown => .float shown

/-- Items with every text in them replaced. -/
def mapItemTexts (f : Text → Text) : List Json → List Json
  | [] => []
  | item :: items => mapTexts f item :: mapItemTexts f items

/-- Fields with every text in them replaced. -/
def mapFieldTexts (f : Text → Text) : List (Text × Json) → List (Text × Json)
  | [] => []
  | (key, value) :: fields => (key, mapTexts f value) :: mapFieldTexts f fields

end

/-- A token in brackets at a position, and its value. -/
def findBracketed (mappings : TokenMapping) : Matcher Char := fun _ text =>
  (mappings.entries.find? fun e => e.1.isPrefixOf text).map fun e => (e.1.length, e.2)

/-- The tokens in brackets are replaced at once, and nothing else is. -/
def restoreBracketed (mappings : TokenMapping) (text : Text) : Text :=
  subst (findBracketed mappings) none 0 text

/-- **A longer name** that begins like a token is not left as it is. -/
theorem not_restoreResponse_simultaneous :
    ¬ ∀ (cacheManager : Option (Text → Option TokenMapping)) (response : List (Text × Json))
      (sessionId : Text), BracketedTokens (loadMappings cacheManager sessionId) →
        Json.object (restoreResponse cacheManager response sessionId) =
          mapTexts (restoreBracketed (loadMappings cacheManager sessionId)) (.object response) := by
  intro hall
  have htokens : BracketedTokens (loadMappings sampleCache "s".toList) :=
    List.forall_mem_singleton.mpr ⟨"EMAIL_0".toList, by decide, by decide, by decide⟩
  have hsame := hall sampleCache [("content".toList, .text "EMAIL_01".toList)] "s".toList htokens
  have hread := congrArg (fun document => Json.readPath document [.name "content".toList]) hsame
  have hcode : restoreText "EMAIL_01".toList (loadMappings sampleCache "s".toList) =
      "ann@x1".toList := by decide +kernel
  have hclaim : restoreBracketed (loadMappings sampleCache "s".toList) "EMAIL_01".toList =
      "EMAIL_01".toList := by decide +kernel
  have htexts : restoreText "EMAIL_01".toList (loadMappings sampleCache "s".toList) =
      restoreBracketed (loadMappings sampleCache "s".toList) "EMAIL_01".toList :=
    Json.text.inj (Option.some.inj hread)
  rw [hcode, hclaim] at htexts
  exact absurd htexts (by decide)

/-- **Restoring a response.** The texts that are values of dictionaries at any depth, and those
that are items of such lists, have their tokens replaced at once; other leaves are kept. The order
of the mapping makes no difference to texts that are cut into tokens and plain texts, nor to any
text if no two tokens are of one length. -/
theorem restoreResponse_spec (cacheManager : Option (Text → Option TokenMapping))
    (response : List (Text × Json)) (sessionId : Text)
    (htokens : BracketedTokens (loadMappings cacheManager sessionId)) :
    let mappings := loadMappings cacheManager sessionId
    let result := Json.object (restoreResponse cacheManager response sessionId)
    (∀ (keys : List Text) (pieces : List Text), Cut mappings pieces →
      (Json.object response).readPath (keys.map .name) = some (.text pieces.flatten) →
        result.readPath (keys.map .name) =
          some (.text (pieces.map (restorePiece mappings)).flatten)) ∧
    (∀ (keys : List Text) (i : ℕ) (pieces : List Text), Cut mappings pieces →
      (Json.object response).readPath (keys.map .name ++ [.index i]) =
          some (.text pieces.flatten) →
        result.readPath (keys.map .name ++ [.index i]) =
          some (.text (pieces.map (restorePiece mappings)).flatten)) ∧
    (∀ (keys : List Text) (value : Json), value.IsLeaf → (∀ s, value ≠ .text s) →
      (Json.object response).readPath (keys.map .name) = some value →
        result.readPath (keys.map .name) = some value) ∧
    ∀ mappings' : TokenMapping, mappings.entries.Perm mappings'.entries →
      (∀ pieces, Cut mappings pieces →
        restoreText pieces.flatten mappings' = restoreText pieces.flatten mappings) ∧
      ((mappings.entries.map fun e => e.1.length).Nodup →
        ∀ text, restoreText text mappings' = restoreText text mappings) := by
  intro mappings result
  have hread : ∀ keys : List Text, result.readPath (keys.map .name) =
      ((Json.object response).readPath (keys.map .name)).map (restoreValue mappings) :=
    readPath_restoreResponse cacheManager response sessionId
  refine ⟨fun keys pieces hcut htext => ?_, fun keys i pieces hcut htext => ?_,
    fun keys value hleaf hne hvalue => ?_, fun mappings' hperm => ⟨fun pieces hcut => ?_, ?_⟩⟩
  · rw [hread, htext, Option.map_some, restoreValue, restoreText_flatten htokens hcut]
  · -- the item is in a list, of which every text is restored
    rw [readPath_append, Option.bind_eq_some_iff] at htext ⊢
    obtain ⟨inner, hinner, hitem⟩ := htext
    cases inner with
    | list items =>
      refine ⟨restoreValue mappings (.list items), by rw [hread, hinner, Option.map_some], ?_⟩
      obtain ⟨item, hitem, hsame⟩ := Option.bind_eq_some_iff.mp hitem
      obtain rfl : item = .text pieces.flatten := Option.some.inj hsame
      have hrestored : (items.map (restoreItem mappings))[i]? =
          some (.text (restoreText pieces.flatten mappings)) := by
        rw [List.getElem?_map, show items[i]? = _ from hitem]
        rfl
      rw [restoreText_flatten htokens hcut] at hrestored
      exact Option.bind_eq_some_iff.mpr ⟨_, hrestored, rfl⟩
    | _ => simp [Json.readPath, Json.child] at hitem
  · rw [hread, hvalue, Option.map_some]
    cases value with
    | text s => exact absurd rfl (hne s)
    | list items => exact hleaf.elim
    | object fields => exact hleaf.elim
    | _ => rfl
  · have htokens' : BracketedTokens mappings' := fun e he => htokens e (hperm.mem_iff.mpr he)
    rw [restoreText_flatten htokens' (hcut.of_perm hperm), restoreText_flatten htokens hcut,
      restorePiece_eq_of_perm hperm]
  · exact fun hlengths text => restoreText_perm hperm hlengths text

/-- A text with a token in brackets and bare. -/
def samplePieces : List Text :=
  ["to ".toList, "[EMAIL_0]".toList, ", ".toList, "EMAIL_0".toList, "!".toList]

theorem cut_samplePieces : Cut (loadMappings sampleCache "s".toList) samplePieces where
  piece := by decide +kernel
  value := by decide +kernel
  unsplit := by decide +kernel

theorem restoreResponse_spec_sample :
    (Json.object (restoreResponse sampleCache
      [("message".toList, .object [("content".toList, .text samplePieces.flatten)])]
      "s".toList)).readPath (["message".toList, "content".toList].map .name) =
        some (.text (samplePieces.map
          (restorePiece (loadMappings sampleCache "s".toList))).flatten) :=
  have htokens : BracketedTokens (loadMappings sampleCache "s".toList) :=
    List.forall_mem_singleton.mpr ⟨"EMAIL_0".toList, by decide, by decide, by decide⟩
  (restoreResponse_spec sampleCache
    [("message".toList, .object [("content".toList, .text samplePieces.flatten)])] "s".toList
    htokens).1 ["message".toList, "content".toList] samplePieces cut_samplePieces rfl

end AnonReq.Rag
