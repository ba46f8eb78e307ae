import AnonReq.Gateway.AIDetector

/-!
# Detection of AI traffic by host and path

`AITrafficDetector` of `proxy/detection.py`, against the URLs that the adapters build.

* `search_aiApiPatterns_iff`: the paths that the patterns take.
* `answer_query_iff`: when a query string changes no answer.
* `isAi_url_iff`: which URLs of the adapters are taken for AI traffic.
* `detectors_agree_iff`: these, and what `detect_hostname` takes.
-/

namespace AnonReq.Proxy

open Gateway Regex Substitution

variable (R : HostRuntime)

/-! ### The detector -/

/-- `AI_API_DOMAINS`. -/
def aiApiDomains : List Text :=
  ["api.openai.com".toList, "api.anthropic.com".toList,
    "generativelanguage.googleapis.com".toList, "gemini.google.com".toList,
    "api.mistral.ai".toList, "api.deepseek.com".toList, "api.cohere.ai".toList,
    "api.together.xyz".toList, "api.perplexity.ai".toList, "localhost".toList,
    "127.0.0.1".toList]

/-- `text.strip(".")`. -/
def stripDots (text : Text) : Text := (text.dropWhile (· == '.')).rdropWhile (· == '.')

/-- `detector.domains`. -/
def detectorDomains : List Text := aiApiDomains.map fun d => stripDots (R.lowerCase.lower d)

/-- `^front(name|...|last)`. -/
def namesBelow (front : Text) (names : List Text) (last : Text) : List (Regex Char) :=
  [start, word R.unicode.sameCase front,
    alts (names.map (word R.unicode.sameCase)) (word R.unicode.sameCase last)]

/-- `AI_API_PATTERNS`. -/
def aiApiPatterns : List (Regex Char) :=
  [seqs (namesBelow R "/v1/".toList ["chat/completions".toList, "completions".toList,
      "embeddings".toList, "messages".toList] "models".toList ++ [finish]),
    seqs (namesBelow R "/v1/".toList ["responses".toList, "assistants".toList, "threads".toList]
      "runs".toList),
    seqs [start, word R.unicode.sameCase "/v1beta/models/".toList, atLeast 1 (.one (· != '\n')),
      word R.unicode.sameCase ":".toList,
      alts [word R.unicode.sameCase "generateContent".toList]
        (word R.unicode.sameCase "streamGenerateContent".toList), finish],
    seqs (namesBelow R "/api/".toList ["chat".toList, "generate".toList] "embeddings".toList ++
      [finish])]

/-- `_normalize_host(host)`. -/
def normalizeHost (host : Text) : Text :=
  R.lowerCase.lower (stripDots (Text.strip (host.takeWhile (· != ':'))))

/-- `_host_matches(host)`. -/
def hostMatches (host : Text) : Bool :=
  (detectorDomains R).any fun domain =>
    normalizeHost R host == domain || ('.' :: domain).isSuffixOf (normalizeHost R host)

/-- Some pattern is found in `path or "/"`. -/
def pathMatches (path : Text) : Bool :=
  (aiApiPatterns R).any fun pattern =>
    pattern.search none (if path.isEmpty then "/".toList else path)

/-- `is_ai_traffic(host, path)`. -/
def isAiTraffic (host path : Text) : Bool := hostMatches R host && pathMatches R path

/-- `TrafficDecision`. -/
structure TrafficDecision where
  classification : Text
  host : Text
  path : Text
  method : Text
  reason : Text
deriving DecidableEq

/-- `decision.is_ai`. -/
def TrafficDecision.isAi (decision : TrafficDecision) : Bool :=
  decision.classification == "ai".toList

/-- `classify_request(host, path, method)`. -/
def classifyRequest (host path method : Text) : TrafficDecision :=
  if isAiTraffic R (normalizeHost R host) path then
    ⟨"ai".toList, normalizeHost R host, path, method, "known_ai_host_and_path".toList⟩
  else if hostMatches R (normalizeHost R host) then
    ⟨"unknown".toList, normalizeHost R host, path, method, "known_ai_host_unknown_path".toList⟩
  else ⟨"non_ai".toList, normalizeHost R host, path, method, "host_not_in_ai_registry".toList⟩

/-! ### Paths -/

/-- The paths that have to be the whole text. -/
def endpoints : List Text :=
  ["/v1/chat/completions".toList, "/v1/completions".toList, "/v1/embeddings".toList,
    "/v1/messages".toList, "/v1/models".toList, "/api/chat".toList, "/api/generate".toList,
    "/api/embeddings".toList]

/-- The paths that may go on. -/
def resources : List Text :=
  ["/v1/responses".toList, "/v1/assistants".toList, "/v1/threads".toList, "/v1/runs".toList]

/-- What is asked of a model. -/
def methods : List Text := [":generateContent".toList, ":streamGenerateContent".toList]

/-- A text ends here, but for a line feed. -/
def AtEnd (back : Text) : Prop := back = [] ∨ back = ['\n']

/-- One of the endpoints, letter case aside. -/
def EndpointPath (path : Text) : Prop :=
  ∃ name ∈ endpoints, ∃ text back, path = text ++ back ∧ Spells R.toRuntime name text ∧ AtEnd back

/-- One of the resources, or what is below it. -/
def ResourcePath (path : Text) : Prop :=
  ∃ name ∈ resources, ∃ text back, path = text ++ back ∧ Spells R.toRuntime name text

/-- A name on one line, and a method. -/
def ModelCall (text : Text) : Prop :=
  ∃ name method back, text = name ++ (method ++ back) ∧ '\n' ∉ name ∧
    (∃ call ∈ methods, Spells R.toRuntime call method) ∧ AtEnd back

/-- The part of a path that is below `/v1beta/models/`. -/
def BelowModels (path rest : Text) : Prop :=
  ∃ front, path = front ++ rest ∧ Spells R.toRuntime "/v1beta/models/".toList front

/-- A call of a model. -/
def ModelPath (path : Text) : Prop :=
  ∃ c rest, BelowModels R path (c :: rest) ∧ c ≠ '\n' ∧ ModelCall R rest

variable {R}

/-- A name below another one is spelled part by part. -/
theorem spells_append_iff {name name' text : Text} :
    Spells R.toRuntime (name ++ name') text ↔
      ∃ a b, text = a ++ b ∧ Spells R.toRuntime name a ∧ Spells R.toRuntime name' b := by
  constructor
  · intro h
    refine ⟨text.take name.length, text.drop name.length, (List.take_append_drop _ _).symm, ?_, ?_⟩
    · exact List.Forall₂.flip (List.forall₂_take_append _ _ _ (List.Forall₂.flip h))
    · exact List.Forall₂.flip (List.forall₂_drop_append _ _ _ (List.Forall₂.flip h))
  · rintro ⟨a, b, rfl, ha, hb⟩
    exact List.rel_append ha hb

theorem matches_names_iff {names : List Text} {last : Text} {prev : Option Char}
    {part back : Text} :
    Matches (alts (names.map (word R.unicode.sameCase)) (word R.unicode.sameCase last)) prev part
      back ↔ ∃ name ∈ names ++ [last], Spells R.toRuntime name part := by
  rw [matches_alts_iff]
  simp only [List.mem_map, exists_exists_and_eq_and, matches_word_iff, List.mem_append,
    or_and_right, exists_or, List.mem_singleton, exists_eq_left, Spells]

/-- The names below `front` that end a path. -/
theorem search_names_iff {front last path : Text} {names : List Text} :
    (seqs (namesBelow R front names last ++ [finish])).search none path = true ↔
      ∃ name ∈ (names ++ [last]).map (front ++ ·), ∃ text back, path = text ++ back ∧
        Spells R.toRuntime name text ∧ AtEnd back := by
  rw [namesBelow, List.cons_append, search_start_iff]
  simp only [List.cons_append, List.nil_append, matches_seqs_cons_iff, matches_seqs_nil_iff,
    matches_word_iff, matches_names_iff, matches_finish_iff, List.mem_map,
    exists_exists_and_eq_and, spells_append_iff]
  constructor
  · rintro ⟨_, back, rfl, a, _, rfl, ha, b, _, rfl, ⟨name, hname, hb⟩, _, _, rfl, ⟨rfl, hback⟩, rfl⟩
    exact ⟨name, hname, a ++ b, back, by simp, ⟨a, b, rfl, ha, hb⟩, hback⟩
  · rintro ⟨name, hname, _, back, rfl, ⟨a, b, rfl, ha, hb⟩, hback⟩
    exact ⟨a ++ b, back, rfl, a, b, rfl, ha, b, [], by simp, ⟨name, hname, hb⟩, [], [], rfl,
      ⟨rfl, hback⟩, rfl⟩

/-- The names below `front` that begin a path. -/
theorem search_prefix_iff {front last path : Text} {names : List Text} :
    (seqs (namesBelow R front names last)).search none path = true ↔
      ∃ name ∈ (names ++ [last]).map (front ++ ·), ∃ text back, path = text ++ back ∧
        Spells R.toRuntime name text := by
  rw [namesBelow, search_start_iff]
  simp only [matches_seqs_cons_iff, matches_seqs_nil_iff, matches_word_iff, matches_names_iff,
    List.mem_map, exists_exists_and_eq_and, spells_append_iff]
  constructor
  · rintro ⟨_, back, rfl, a, _, rfl, ha, b, _, rfl, ⟨name, hname, hb⟩, rfl⟩
    exact ⟨name, hname, a ++ b, back, by simp, a, b, rfl, ha, hb⟩
  · rintro ⟨name, hname, _, back, rfl, a, b, rfl, ha, hb⟩
    exact ⟨a ++ b, back, rfl, a, b, rfl, ha, b, [], by simp, ⟨name, hname, hb⟩, rfl⟩

/-- What is asked of a model follows a colon. -/
theorem spells_method_iff {method : Text} :
    (∃ call ∈ methods, Spells R.toRuntime call method) ↔
      ∃ a b, method = a ++ b ∧ Spells R.toRuntime ":".toList a ∧
        ∃ call ∈ ["generateContent".toList, "streamGenerateContent".toList],
          Spells R.toRuntime call b := by
  have hcalls : methods = ["generateContent".toList, "streamGenerateContent".toList].map
      (":".toList ++ ·) := by decide
  rw [hcalls]
  simp only [List.mem_map, exists_exists_and_eq_and, spells_append_iff]
  constructor
  · rintro ⟨call, hcall, a, b, rfl, ha, hb⟩
    exact ⟨a, b, rfl, ha, call, hcall, hb⟩
  · rintro ⟨a, b, rfl, ha, call, hcall, hb⟩
    exact ⟨call, hcall, a, b, rfl, ha, hb⟩

/-- **The pattern for models** is found in the calls of models. -/
theorem search_models_iff {path : Text} :
    (seqs [start, word R.unicode.sameCase "/v1beta/models/".toList,
      atLeast 1 (.one (· != '\n')), word R.unicode.sameCase ":".toList,
      alts [word R.unicode.sameCase "generateContent".toList]
        (word R.unicode.sameCase "streamGenerateContent".toList), finish]).search none path = true ↔
      ModelPath R path := by
  have halts : ∀ {prev : Option Char} {part back : Text},
      Matches (alts [word R.unicode.sameCase "generateContent".toList]
        (word R.unicode.sameCase "streamGenerateContent".toList)) prev part back ↔
          ∃ call ∈ ["generateContent".toList, "streamGenerateContent".toList],
            Spells R.toRuntime call part :=
      @matches_names_iff R ["generateContent".toList] "streamGenerateContent".toList
  rw [search_start_iff]
  simp only [matches_seqs_cons_iff, matches_seqs_nil_iff, matches_word_iff, halts,
    matches_finish_iff, atLeast, matches_cls_iff, bne_iff_ne]
  constructor
  · rintro ⟨_, back, rfl, front, _, rfl, hfront, name, _, rfl, ⟨hname, hone, -⟩, a, _, rfl, ha, b,
      _, rfl, hb, _, _, rfl, ⟨rfl, hback⟩, rfl⟩
    cases name with
    | nil => exact absurd hone (by decide)
    | cons c name =>
      rw [List.forall_mem_cons] at hname
      refine ⟨c, name ++ ((a ++ b) ++ back), ⟨front, by simp, hfront⟩, hname.1, name, a ++ b, back,
        rfl, fun hmem => hname.2 _ hmem rfl, spells_method_iff.mpr ⟨a, b, rfl, ha, hb⟩, hback⟩
  · rintro ⟨c, _, ⟨front, rfl, hfront⟩, hc, name, method, back, rfl, hname, hmethod, hback⟩
    obtain ⟨a, b, rfl, ha, hb⟩ := spells_method_iff.mp hmethod
    refine ⟨front ++ (c :: name ++ (a ++ b)), back, by simp, front, _, rfl, hfront, c :: name,
      a ++ b, rfl, ⟨?_, by simp, fun m hm => absurd hm (by simp)⟩, a, b, rfl, ha, b, [], by simp,
      hb, [], [], rfl, ⟨rfl, hback⟩, rfl⟩
    rw [List.forall_mem_cons]
    exact ⟨hc, fun d hd heq => hname (heq ▸ hd)⟩

/-- **The paths** that some pattern is found in. -/
theorem search_aiApiPatterns_iff {path : Text} :
    ((aiApiPatterns R).any fun pattern => pattern.search none path) = true ↔
      EndpointPath R path ∨ ResourcePath R path ∨ ModelPath R path := by
  have hendpoints : endpoints =
      (["chat/completions".toList, "completions".toList, "embeddings".toList,
        "messages".toList] ++ ["models".toList]).map ("/v1/".toList ++ ·) ++
          (["chat".toList, "generate".toList] ++ ["embeddings".toList]).map
            ("/api/".toList ++ ·) := by decide
  have hresources : resources = (["responses".toList, "assistants".toList, "threads".toList] ++
      ["runs".toList]).map ("/v1/".toList ++ ·) := by decide
  simp only [aiApiPatterns, List.any_cons, List.any_nil, Bool.or_false, Bool.or_eq_true,
    search_names_iff, search_prefix_iff, search_models_iff]
  rw [EndpointPath, ResourcePath, hendpoints, hresources]
  constructor
  · rintro (⟨name, hname, h⟩ | h | h | ⟨name, hname, h⟩)
    · exact Or.inl ⟨name, List.mem_append_left _ hname, h⟩
    · exact Or.inr (Or.inl h)
    · exact Or.inr (Or.inr h)
    · exact Or.inl ⟨name, List.mem_append_right _ hname, h⟩
  · rintro (⟨name, hname, h⟩ | h | h)
    · obtain hname | hname := List.mem_append.mp hname
      · exact Or.inl ⟨name, hname, h⟩
      · exact Or.inr (Or.inr (Or.inr ⟨name, hname, h⟩))
    · exact Or.inr (Or.inl h)
    · exact Or.inr (Or.inr (Or.inl h))

/-! ### Query strings -/

/-- A mark in a text that spells a name is in the name. -/
theorem mem_of_mem_spells {name text : Text} {c : Char} (h : Spells R.toRuntime name text)
    (hname : ∀ d ∈ name, d.toNat < 128) (hc : c.toNat < 128) (hmark : c.isAlpha = false)
    (hmem : c ∈ text) : c ∈ name := by
  induction h with
  | nil => exact absurd hmem List.not_mem_nil
  | @cons d x name text hsame _ ih =>
    rw [List.forall_mem_cons] at hname
    obtain rfl | hmem := List.mem_cons.mp hmem
    · have hlower := R.toLower_eq_of_same d c c hname.1 hc hsame (R.unicode.sameCase_refl c)
      exact eq_of_toLower_eq hmark hlower ▸ List.mem_cons_self
    · exact List.mem_cons_of_mem _ (ih hname.2 hmem)

/-- What ends with a word that has no question mark ends with it behind the question mark. -/
theorem append_cons_eq_append_iff {α : Type*} {c : α} {a b x y : List α} (hy : c ∉ y) :
    a ++ c :: b = x ++ y ↔ ∃ z, x = a ++ c :: z ∧ b = z ++ y := by
  constructor
  · intro h
    obtain ⟨z, hx, hb⟩ | ⟨z, ha, hb⟩ := List.append_eq_append_iff.mp h
    · cases z with
      | nil =>
        rw [List.nil_append] at hb
        exact absurd (hb ▸ List.mem_cons_self) hy
      | cons d z =>
        obtain ⟨rfl, rfl⟩ := List.cons.inj hb
        exact ⟨z, hx, rfl⟩
    · exact absurd (hb ▸ List.mem_append_right _ List.mem_cons_self) hy
  · rintro ⟨z, rfl, rfl⟩
    simp

/-- What begins with a word that has no question mark begins with it before the question mark. -/
theorem append_cons_eq_append_iff_of_front {α : Type*} {c : α} {a b x y : List α} (hx : c ∉ x) :
    a ++ c :: b = x ++ y ↔ ∃ z, a = x ++ z ∧ y = z ++ c :: b := by
  constructor
  · intro h
    obtain ⟨z, hxa, hb⟩ | ⟨z, ha, hb⟩ := List.append_eq_append_iff.mp h
    · cases z with
      | nil => exact ⟨[], by simpa using hxa.symm, by simpa using hb.symm⟩
      | cons d z =>
        obtain ⟨rfl, rfl⟩ := List.cons.inj hb
        exact absurd (hxa ▸ List.mem_append_right _ List.mem_cons_self) hx
    · exact ⟨z, ha, hb⟩
  · rintro ⟨z, rfl, rfl⟩
    simp

theorem marks_endpoints : ∀ name ∈ endpoints, (∀ c ∈ name, c.toNat < 128) ∧ '?' ∉ name := by
  decide

theorem marks_resources : ∀ name ∈ resources, (∀ c ∈ name, c.toNat < 128) ∧ '?' ∉ name := by
  decide

theorem marks_methods : ∀ call ∈ methods,
    (∀ c ∈ call, c.toNat < 128) ∧ '?' ∉ call ∧ '\n' ∉ call := by
  decide

theorem AtEnd.not_mem {back : Text} (h : AtEnd back) {c : Char} (hc : c ≠ '\n') : c ∉ back := by
  obtain rfl | rfl := h
  · exact List.not_mem_nil
  · exact fun hmem => hc (List.mem_singleton.mp hmem)

variable {path query : Text}

/-- No endpoint has a query string. -/
theorem not_endpointPath_query : ¬ EndpointPath R (path ++ '?' :: query) := by
  rintro ⟨name, hname, text, back, htext, hspells, hback⟩
  obtain ⟨hascii, hmark⟩ := marks_endpoints name hname
  have hmem : '?' ∈ text ++ back := htext ▸ List.mem_append_right _ List.mem_cons_self
  obtain hmem | hmem := List.mem_append.mp hmem
  · exact hmark (mem_of_mem_spells hspells hascii (by decide) (by decide) hmem)
  · exact hback.not_mem (by decide) hmem

/-- A query string makes no resource of a path, and of no resource another path. -/
theorem resourcePath_query_iff : ResourcePath R (path ++ '?' :: query) ↔ ResourcePath R path := by
  have hfront : ∀ name ∈ resources, ∀ text, Spells R.toRuntime name text → '?' ∉ text :=
    fun name hname text hspells hmem => (marks_resources name hname).2
      (mem_of_mem_spells hspells (marks_resources name hname).1 (by decide) (by decide) hmem)
  constructor
  · rintro ⟨name, hname, text, back, htext, hspells⟩
    obtain ⟨z, rfl, -⟩ := (append_cons_eq_append_iff_of_front (hfront name hname text hspells)).mp
      htext
    exact ⟨name, hname, text, z, rfl, hspells⟩
  · rintro ⟨name, hname, text, back, rfl, hspells⟩
    exact ⟨name, hname, text, back ++ '?' :: query, List.append_assoc _ _ _, hspells⟩

/-- A path below the models, with a query string that ends with a method: the patterns do not tell
it from a call of a model. -/
def QueryCall (R : HostRuntime) (path query : Text) : Prop :=
  ∃ rest, BelowModels R path rest ∧ '\n' ∉ rest ∧ ModelCall R query

theorem modelPath_query_iff : ModelPath R (path ++ '?' :: query) ↔ QueryCall R path query := by
  have hmodels : ∀ text, Spells R.toRuntime "/v1beta/models/".toList text → '?' ∉ text :=
    fun text hspells hmem => absurd
      (mem_of_mem_spells hspells (by decide) (by decide) (by decide) hmem) (by decide)
  constructor
  · rintro ⟨c, _, ⟨front, htext, hfront⟩, hc, name, method, back, rfl, hname, hmethod, hback⟩
    obtain ⟨z, rfl, hrest⟩ := (append_cons_eq_append_iff_of_front (hmodels front hfront)).mp htext
    have hend : '?' ∉ method ++ back := by
      obtain ⟨call, hcall, hspells⟩ := hmethod
      obtain ⟨hascii, hmark, -⟩ := marks_methods call hcall
      rw [List.mem_append, not_or]
      exact ⟨fun hmem => hmark (mem_of_mem_spells hspells hascii (by decide) (by decide) hmem),
        hback.not_mem (by decide)⟩
    rw [← List.cons_append] at hrest
    obtain ⟨name', hname', rfl⟩ := (append_cons_eq_append_iff hend).mp hrest.symm
    have hline : '\n' ∉ z ++ '?' :: name' := by
      rw [← hname', List.mem_cons, not_or]
      exact ⟨hc.symm, hname⟩
    rw [List.mem_append, List.mem_cons, not_or, not_or] at hline
    exact ⟨z, ⟨front, rfl, hfront⟩, hline.1, name', method, back, rfl, hline.2.2, hmethod, hback⟩
  · rintro ⟨rest, ⟨front, rfl, hfront⟩, hline, name, method, back, rfl, hname, hmethod, hback⟩
    have hall : '\n' ∉ rest ++ '?' :: name := by
      rw [List.mem_append, List.mem_cons, not_or, not_or]
      exact ⟨hline, by decide, hname⟩
    obtain ⟨c, name', hname'⟩ : ∃ c name', rest ++ '?' :: name = c :: name' :=
      List.exists_cons_of_ne_nil (by simp)
    rw [hname', List.mem_cons, not_or] at hall
    refine ⟨c, name' ++ (method ++ back), ⟨front, ?_, hfront⟩, Ne.symm hall.1, name', method, back,
      rfl, hall.2, hmethod, hback⟩
    rw [← List.cons_append (a := c), ← hname']
    simp

/-! ### Answers -/

/-- A path that some pattern takes. -/
def AiPath (R : HostRuntime) (path : Text) : Prop :=
  EndpointPath R path ∨ ResourcePath R path ∨ ModelPath R path

/-- No pattern takes the empty path or `/`. -/
theorem one_lt_of_aiPath (h : AiPath R path) : 1 < path.length := by
  have hlength : ∀ {name text back : Text}, 1 < name.length → Spells R.toRuntime name text →
      1 < (text ++ back).length := by
    intro name text back hname hspells
    rw [List.length_append, ← hspells.length_eq]
    omega
  obtain ⟨name, hname, text, back, rfl, hspells, -⟩ | ⟨name, hname, text, back, rfl, hspells⟩ |
    ⟨c, rest, ⟨front, rfl, hspells⟩, -⟩ := h
  · exact hlength ((by decide : ∀ name ∈ endpoints, 1 < name.length) name hname) hspells
  · exact hlength ((by decide : ∀ name ∈ resources, 1 < name.length) name hname) hspells
  · exact hlength (by decide) hspells

theorem pathMatches_iff : pathMatches R path = true ↔ AiPath R path := by
  rw [pathMatches, search_aiApiPatterns_iff]
  change AiPath R _ ↔ _
  split_ifs with hempty
  · rw [List.isEmpty_iff.mp hempty]
    exact ⟨fun h => absurd (one_lt_of_aiPath h) (by decide),
      fun h => absurd (one_lt_of_aiPath h) (by decide)⟩
  · rfl

/-- A host of the registry. -/
def Registered (R : HostRuntime) (host : Text) : Prop := hostMatches R (normalizeHost R host) = true

theorem isAi_iff {host method : Text} :
    (classifyRequest R host path method).isAi = true ↔ Registered R host ∧ AiPath R path := by
  rw [← pathMatches_iff, Registered, ← Bool.and_eq_true, ← isAiTraffic, classifyRequest]
  split_ifs with hai hhost
  · exact iff_of_true rfl hai
  · exact iff_of_false (by decide : ¬ ("unknown".toList == "ai".toList) = true) hai
  · exact iff_of_false (by decide : ¬ ("non_ai".toList == "ai".toList) = true) hai

/-- What is answered about a request, without the request. -/
def TrafficDecision.answer (decision : TrafficDecision) : Text × Text :=
  (decision.classification, decision.reason)

theorem answer_eq_of_registered {host method : Text} (hhost : Registered R host) :
    (classifyRequest R host path method).answer =
      if pathMatches R path then ("ai".toList, "known_ai_host_and_path".toList)
      else ("unknown".toList, "known_ai_host_unknown_path".toList) := by
  rw [Registered] at hhost
  rw [classifyRequest, isAiTraffic, hhost, Bool.true_and, if_pos rfl]
  split_ifs <;> rfl

theorem answer_eq_of_not_registered {host method : Text} (hhost : ¬ Registered R host) :
    (classifyRequest R host path method).answer =
      ("non_ai".toList, "host_not_in_ai_registry".toList) := by
  rw [Registered, Bool.not_eq_true] at hhost
  rw [classifyRequest, isAiTraffic, hhost, Bool.false_and, if_neg Bool.false_ne_true,
    if_neg Bool.false_ne_true]
  rfl

/-- **Query strings**: the answer is the same with one and without it where the host is not in the
registry, for a resource, and where the pattern for models takes the path with the query string
exactly if some pattern takes the path. -/
theorem answer_query_iff {host method : Text} :
    (classifyRequest R host (path ++ '?' :: query) method).answer =
        (classifyRequest R host path method).answer ↔
      Registered R host →
        ResourcePath R path ∨
          (EndpointPath R path ∨ ModelPath R path ↔ QueryCall R path query) := by
  by_cases hhost : Registered R host
  · rw [answer_eq_of_registered hhost, answer_eq_of_registered hhost]
    have hpaths : AiPath R (path ++ '?' :: query) ↔
        ResourcePath R path ∨ QueryCall R path query := by
      rw [AiPath, resourcePath_query_iff, modelPath_query_iff,
        or_iff_right_of_imp fun h => absurd h not_endpointPath_query]
    have hanswers : (if pathMatches R (path ++ '?' :: query) then
          ("ai".toList, "known_ai_host_and_path".toList)
        else ("unknown".toList, "known_ai_host_unknown_path".toList)) =
        (if pathMatches R path then ("ai".toList, "known_ai_host_and_path".toList)
        else ("unknown".toList, "known_ai_host_unknown_path".toList)) ↔
          (AiPath R (path ++ '?' :: query) ↔ AiPath R path) := by
      rw [← pathMatches_iff, ← pathMatches_iff]
      split_ifs with hquery hpath hpath
      · exact iff_of_true rfl (iff_of_true hquery hpath)
      · exact iff_of_false (by decide) fun h => hpath (h.mp hquery)
      · exact iff_of_false (by decide) fun h => hquery (h.mpr hpath)
      · exact iff_of_true rfl (iff_of_false hquery hpath)
    rw [hanswers, hpaths, AiPath, imp_iff_right hhost]
    by_cases hresource : ResourcePath R path
    · simp only [hresource, true_or, or_true]
    · simp only [hresource, false_or]
      exact Iff.comm
  · rw [answer_eq_of_not_registered hhost, answer_eq_of_not_registered hhost]
    exact iff_of_true rfl fun h => absurd h hhost

/-! ### The URLs of the adapters -/

/-- The adapters, with what their URLs are built from: the model and the streaming flag of the
request, and `OLLAMA_HOST`. -/
inductive Adapter where
  | openai
  | anthropic
  | gemini (modelName : Text) (isStreaming : Bool)
  | ollama (host : Option Text)

/-- `_GEMINI_BASE`. -/
def geminiBase : Text := "https://generativelanguage.googleapis.com/v1beta/models".toList

/-- `_ollama_base_url()`. -/
def ollamaBaseUrl (host : Option Text) : Text :=
  (host.getD "http://localhost:11434".toList).rdropWhile (· == '/')

/-- The URL of the request that `translate_request` builds. -/
def Adapter.url : Adapter → Text
  | openai => "https://api.openai.com/v1".toList ++ "/chat/completions".toList
  | anthropic => "https://api.anthropic.com/v1/messages".toList
  | gemini modelName true =>
    geminiBase ++ '/' :: (modelName ++ ":streamGenerateContent?alt=sse".toList)
  | gemini modelName false => geminiBase ++ '/' :: (modelName ++ ":generateContent".toList)
  | ollama host => ollamaBaseUrl host ++ "/api/chat".toList

/-- A character of a scheme. -/
def isSchemeChar (c : Char) : Bool := c.isAlphanum || "+-.".toList.contains c

/-- A character before the path of a URL. -/
def isAuthorityChar (c : Char) : Bool := !"/?#".toList.contains c

/-- The host with its port and the path with its query, where a URL has them; user information and
a fragment are left out. -/
def splitUrl (url : Text) : Option (Text × Text) :=
  match Splitting.cut "://".toList url with
  | some (scheme, rest) =>
    if scheme.all isSchemeChar then
      some (((Splitting.rcut '@' (rest.takeWhile isAuthorityChar)).map Prod.snd).getD
        (rest.takeWhile isAuthorityChar), (rest.dropWhile isAuthorityChar).takeWhile (· != '#'))
    else none
  | none => none

/-- The URLs that are taken for AI traffic: all of OpenAI and Anthropic. A model of Gemini has a
name on one line, and the request is no stream; or the name has a number sign, with a call of a
model before it. The base URL of Ollama has a host of the registry and no path, or the path of a
resource, or it has a number sign, with a path that is taken before it. -/
def Adapter.Recognised (R : HostRuntime) : Adapter → Prop
  | openai => True
  | anthropic => True
  | gemini modelName isStreaming =>
    (isStreaming = false ∧ modelName ≠ [] ∧ '\n' ∉ modelName ∧ '#' ∉ modelName) ∨
      ∃ c name fragment, modelName = c :: (name ++ '#' :: fragment) ∧ '#' ∉ c :: name ∧
        c ≠ '\n' ∧ ModelCall R name
  | ollama host => ∃ name base, splitUrl (ollamaBaseUrl host) = some (name, base) ∧
      Registered R name ∧ if '#' ∈ ollamaBaseUrl host then AiPath R base
        else base = [] ∨ ResourcePath R base

/-- Nothing in the registry has to be normalized. -/
theorem registered_of_mem {host : Text} (hhost : host ∈ aiApiDomains) : Registered R host := by
  have hstrip : ∀ d ∈ aiApiDomains, stripDots (Text.strip (d.takeWhile (· != ':'))) = d ∧
      stripDots d = d ∧ d.map Char.toLower = d ∧ ∀ c ∈ d, c.toNat < 128 := by decide
  have hlower : ∀ d ∈ aiApiDomains, R.lowerCase.lower d = d := by
    intro d hd
    rw [R.lower_ascii d (hstrip d hd).2.2.2, (hstrip d hd).2.2.1]
  have hnormal : normalizeHost R host = host := by
    rw [normalizeHost, (hstrip host hhost).1, hlower host hhost]
  rw [Registered, hnormal, hostMatches, List.any_eq_true]
  refine ⟨host, List.mem_map.mpr ⟨host, hhost, ?_⟩, ?_⟩
  · rw [hlower host hhost, (hstrip host hhost).2.1]
  · rw [hnormal, beq_self_eq_true, Bool.true_or]

theorem splitUrl_gemini (text : Text) :
    splitUrl (geminiBase ++ '/' :: text) = some ("generativelanguage.googleapis.com".toList,
      "/v1beta/models/".toList ++ text.takeWhile (· != '#')) := rfl

/-- A path that begins with a name begins as the name does. -/
theorem map_toLower_take_eq {name text back front rest : Text} (h : Spells R.toRuntime name text)
    (htext : text ++ back = front ++ rest) (hlength : front.length ≤ name.length)
    (hname : ∀ c ∈ name, c.toNat < 128) (hfront : ∀ c ∈ front, c.toNat < 128) :
    (name.take front.length).map Char.toLower = front.map Char.toLower := by
  have hprefix : front <+: text := List.prefix_of_prefix_length_le ⟨rest, htext.symm⟩
    (List.prefix_append text back) (hlength.trans_eq h.length_eq)
  obtain ⟨behind, rfl⟩ := hprefix
  obtain ⟨name', name'', rfl, hname', -⟩ := h.append_inv
  rw [← hname'.length_eq, List.take_left]
  exact map_toLower_eq hname' (List.forall₂_same.mpr fun c _ => R.unicode.sameCase_refl c)
    (fun c hc => hname c (List.mem_append_left _ hc)) hfront

/-- Nothing at `/v1beta` begins as an endpoint or a resource. -/
theorem not_spells_beta {name text back : Text} (rest : Text) (hmem : name ∈ endpoints ++ resources)
    (h : Spells R.toRuntime name text) : text ++ back ≠ "/v1b".toList ++ rest := by
  intro htext
  have hnames : ∀ name ∈ endpoints ++ resources, 4 ≤ name.length ∧ (∀ c ∈ name, c.toNat < 128) ∧
      (name.take 4).map Char.toLower ≠ "/v1b".toList.map Char.toLower := by decide
  obtain ⟨hlength, hascii, hne⟩ := hnames name hmem
  exact hne (map_toLower_take_eq h htext hlength hascii (by decide))

theorem not_resourcePath_models (text : Text) :
    ¬ ResourcePath R ("/v1beta/models/".toList ++ text) := by
  rintro ⟨name, hname, part, back, htext, hspells⟩
  exact not_spells_beta ("eta/models/".toList ++ text)
    (List.mem_append_right _ hname) hspells htext.symm

theorem belowModels_iff {text rest : Text} :
    BelowModels R ("/v1beta/models/".toList ++ text) rest ↔ rest = text := by
  constructor
  · rintro ⟨front, htext, hfront⟩
    exact (List.append_inj htext hfront.length_eq).2.symm
  · rintro rfl
    exact ⟨_, rfl, List.forall₂_same.mpr fun c _ => R.unicode.sameCase_refl c⟩

/-- **A path below the models** is taken if it is a name on one line and a method. -/
theorem aiPath_models_iff {text : Text} :
    AiPath R ("/v1beta/models/".toList ++ text) ↔
      ∃ c name, text = c :: name ∧ c ≠ '\n' ∧ ModelCall R name := by
  constructor
  · rintro (⟨name, hname, part, back, htext, hspells, -⟩ | hresource | ⟨c, rest, hrest, hc, hcall⟩)
    · exact absurd htext.symm (not_spells_beta ("eta/models/".toList ++ text)
        (List.mem_append_left _ hname) hspells)
    · exact absurd hresource (not_resourcePath_models text)
    · exact ⟨c, rest, (belowModels_iff.mp hrest).symm, hc, hcall⟩
  · rintro ⟨c, name, rfl, hc, hcall⟩
    exact Or.inr (Or.inr ⟨c, name, belowModels_iff.mpr rfl, hc, hcall⟩)

/-- A call of a model has the length of a method. -/
theorem ModelCall.le_length {text : Text} (h : ModelCall R text) : 16 ≤ text.length := by
  obtain ⟨name, method, back, rfl, -, ⟨call, hcall, hspells⟩, -⟩ := h
  have hlength : 16 ≤ call.length := (by decide : ∀ call ∈ methods, 16 ≤ call.length) call hcall
  rw [List.length_append, List.length_append, ← hspells.length_eq]
  omega

/-- A line feed is the last character only. -/
theorem AtEnd.eq_nil {x y back : Text} {d : Char} (h : AtEnd back) (hd : d ≠ '\n')
    (htext : x ++ [d] = y ++ back) : back = [] := by
  obtain rfl | rfl := h
  · rfl
  · exact absurd (List.cons.inj (List.append_inj' htext rfl).2).1 hd

/-- A call of a model that does not end with a line feed has none. -/
theorem ModelCall.not_mem {text : Text} {d : Char} (h : ModelCall R (text ++ [d])) (hd : d ≠ '\n') :
    '\n' ∉ text := by
  obtain ⟨name, method, back, htext, hname, ⟨call, hcall, hspells⟩, hback⟩ := h
  rw [← List.append_assoc] at htext
  obtain rfl := hback.eq_nil hd htext
  obtain ⟨hascii, -, hline⟩ := marks_methods call hcall
  intro hmem
  have hall : '\n' ∈ name ++ method := by
    rw [List.append_nil] at htext
    exact htext ▸ List.mem_append_left _ hmem
  obtain hmem | hmem := List.mem_append.mp hall
  · exact hname hmem
  · exact hline (mem_of_mem_spells hspells hascii (by decide) (by decide) hmem)

/-- The URL of a request to Gemini that is no stream, where the name of the model is whole. -/
theorem aiPath_gemini_iff {modelName : Text} :
    AiPath R ("/v1beta/models/".toList ++ (modelName ++ ":generateContent".toList)) ↔
      modelName ≠ [] ∧ '\n' ∉ modelName := by
  rw [aiPath_models_iff]
  cases modelName with
  | nil =>
    refine iff_of_false ?_ fun h => h.1 rfl
    rintro ⟨c, name, htext, -, hcall⟩
    obtain ⟨-, rfl⟩ := List.cons.inj htext
    exact absurd hcall.le_length (by decide)
  | cons c name =>
    rw [List.mem_cons, not_or]
    constructor
    · rintro ⟨_, _, htext, hc, hcall⟩
      obtain ⟨rfl, rfl⟩ := List.cons.inj htext
      have hsplit : name ++ ":generateContent".toList =
          (name ++ ":generateConten".toList) ++ ['t'] := by
        rw [List.append_assoc]
        rfl
      rw [List.append_eq, hsplit] at hcall
      have hline := hcall.not_mem (by decide)
      rw [List.mem_append, not_or] at hline
      exact ⟨List.cons_ne_nil _ _, Ne.symm hc, hline.1⟩
    · rintro ⟨-, hc, hname⟩
      exact ⟨c, name ++ ":generateContent".toList, rfl, Ne.symm hc, name, ":generateContent".toList,
        [], by simp, hname, ⟨_, List.mem_cons_self, List.forall₂_same.mpr fun c _ =>
          R.unicode.sameCase_refl c⟩, Or.inl rfl⟩

/-- The URL of a stream of Gemini is not taken. -/
theorem not_aiPath_stream {modelName : Text} :
    ¬ AiPath R ("/v1beta/models/".toList ++
      (modelName ++ ":streamGenerateContent?alt=sse".toList)) := by
  have hquery : "/v1beta/models/".toList ++
        (modelName ++ ":streamGenerateContent?alt=sse".toList) =
      ("/v1beta/models/".toList ++ (modelName ++ ":streamGenerateContent".toList)) ++
        '?' :: "alt=sse".toList := by
    simp only [List.append_assoc]
    rfl
  rw [hquery, AiPath, resourcePath_query_iff, modelPath_query_iff]
  rintro (h | h | ⟨rest, -, -, hcall⟩)
  · exact not_endpointPath_query h
  · exact not_resourcePath_models _ h
  · exact absurd hcall.le_length (by decide)

theorem takeWhile_of_not_hash {a : Text} (h : '#' ∉ a) : a.takeWhile (· != '#') = a :=
  List.takeWhile_eq_self_iff.mpr fun _ hc => bne_iff_ne.mpr (ne_of_mem_of_not_mem hc h)

/-- What stands before the first number sign. -/
theorem takeWhile_hash {a b : Text} (h : '#' ∉ a) :
    (a ++ '#' :: b).takeWhile (· != '#') = a := by
  rw [List.takeWhile_append_of_pos fun _ hc => bne_iff_ne.mpr (ne_of_mem_of_not_mem hc h)]
  simp

theorem isAi_gemini_iff {modelName : Text} {isStreaming : Bool} {host method : Text}
    (h : splitUrl (Adapter.gemini modelName isStreaming).url = some (host, path)) :
    (classifyRequest R host path method).isAi = true ↔
      (Adapter.gemini modelName isStreaming).Recognised R := by
  obtain ⟨tail, htail, hurl⟩ : ∃ tail : Text, '#' ∉ tail ∧
      (Adapter.gemini modelName isStreaming).url = geminiBase ++ '/' :: (modelName ++ tail) := by
    cases isStreaming
    · exact ⟨_, by decide, rfl⟩
    · exact ⟨_, by decide, rfl⟩
  rw [hurl, splitUrl_gemini, Option.some_inj, Prod.mk.injEq] at h
  obtain ⟨rfl, rfl⟩ := h
  rw [isAi_iff, and_iff_right (registered_of_mem (by decide))]
  rw [Adapter.Recognised]
  by_cases hhash : '#' ∈ modelName
  · obtain ⟨a, b, rfl, ha⟩ := List.eq_append_cons_of_mem hhash
    rw [List.append_assoc, List.cons_append, takeWhile_hash ha, aiPath_models_iff,
      or_iff_right fun h => h.2.2.2 hhash]
    constructor
    · rintro ⟨c, name, rfl, hc, hcall⟩
      exact ⟨c, name, b, rfl, ha, hc, hcall⟩
    · rintro ⟨c, name, fragment, htext, hname, hc, hcall⟩
      obtain ⟨rfl, -⟩ := Splitting.append_cons_inj_of_front ha hname htext
      exact ⟨c, name, rfl, hc, hcall⟩
  · have hfragment : ¬ ∃ c name fragment, modelName = c :: (name ++ '#' :: fragment) ∧
        '#' ∉ c :: name ∧ c ≠ '\n' ∧ ModelCall R name := by
      rintro ⟨c, name, fragment, rfl, -⟩
      exact hhash (by simp)
    have hall : '#' ∉ modelName ++ tail := by
      rw [List.mem_append, not_or]
      exact ⟨hhash, htail⟩
    rw [takeWhile_of_not_hash hall, or_iff_left hfragment]
    cases isStreaming with
    | true =>
      obtain rfl : ":streamGenerateContent?alt=sse".toList = tail :=
        List.append_cancel_left (List.cons.inj (List.append_cancel_left hurl)).2
      exact iff_of_false not_aiPath_stream fun h => Bool.noConfusion h.1
    | false =>
      obtain rfl : ":generateContent".toList = tail :=
        List.append_cancel_left (List.cons.inj (List.append_cancel_left hurl)).2
      rw [aiPath_gemini_iff, and_iff_right rfl, and_iff_left hhash]

/-- A path that goes on with a slash has the same authority. -/
theorem authority_append (rest back : Text) :
    (rest ++ '/' :: back).takeWhile isAuthorityChar = rest.takeWhile isAuthorityChar ∧
      (rest ++ '/' :: back).dropWhile isAuthorityChar =
        rest.dropWhile isAuthorityChar ++ '/' :: back := by
  induction rest with
  | nil => exact ⟨rfl, rfl⟩
  | cons c rest ih =>
    rw [List.cons_append, List.takeWhile_cons, List.takeWhile_cons, List.dropWhile_cons,
      List.dropWhile_cons]
    split_ifs
    · exact ⟨congrArg (c :: ·) ih.1, ih.2⟩
    · exact ⟨rfl, rfl⟩

/-- The separator of the scheme does not end in what is appended to a base URL. -/
theorem cut_base {base scheme rest : Text} (hslash : ∀ front, base ≠ front ++ ['/'])
    (h : Splitting.cut "://".toList (base ++ "/api/chat".toList) = some (scheme, rest)) :
    ∃ rest', Splitting.cut "://".toList base = some (scheme, rest') ∧
      rest = rest' ++ "/api/chat".toList := by
  obtain hfound | ⟨-, hlength⟩ := Splitting.cut_prefix (by decide) h
  · exact hfound
  · exfalso
    have hmark : ':' ∉ "/api/chat".toList := by decide
    obtain ⟨z, hscheme, hback⟩ | ⟨z, rfl, hback⟩ :=
      List.append_eq_append_iff.mp (Splitting.eq_of_cut h)
    · exact hmark (hback ▸ List.mem_append_right _ (by simp))
    · have hshort : z.length < 3 := by
        rw [List.length_append] at hlength
        exact Nat.lt_of_add_lt_add_left hlength
      replace hback : ':' :: '/' :: '/' :: rest = z ++ '/' :: 'a' :: "pi/chat".toList := hback
      match z, hshort with
      | [], _ => simp at hback
      | [c], _ => simp at hback
      | [c, d], _ =>
        simp only [List.cons_append, List.nil_append, List.cons.injEq] at hback
        obtain ⟨rfl, rfl, -⟩ := hback
        exact hslash (scheme ++ [':']) (by simp)

theorem splitUrl_append_eq {base host path : Text} (hslash : ∀ front, base ≠ front ++ ['/'])
    (h : splitUrl (base ++ "/api/chat".toList) = some (host, path)) :
    ∃ front, splitUrl base = some (host, front) ∧
      path = if '#' ∈ base then front else front ++ "/api/chat".toList := by
  rw [splitUrl] at h
  split at h
  · next scheme rest hcut =>
    obtain ⟨rest, hbase, rfl⟩ := cut_base hslash hcut
    obtain ⟨htake, hdrop⟩ := authority_append rest "api/chat".toList
    split_ifs at h with hscheme
    rw [show "/api/chat".toList = '/' :: "api/chat".toList from rfl, htake, hdrop,
      Option.some_inj, Prod.mk.injEq] at h
    obtain ⟨rfl, rfl⟩ := h
    refine ⟨(rest.dropWhile isAuthorityChar).takeWhile (· != '#'), ?_, ?_⟩
    · rw [splitUrl, hbase]
      exact if_pos hscheme
    · -- a number sign of the base URL is in its path
      have hmem : '#' ∈ base ↔ '#' ∈ rest.dropWhile isAuthorityChar := by
        have hfront : '#' ∉ scheme ++ "://".toList ++ rest.takeWhile isAuthorityChar := by
          simp only [List.mem_append, not_or]
          refine ⟨⟨fun hmem => ?_, by decide⟩, fun hmem => ?_⟩
          · exact absurd (List.all_eq_true.mp hscheme _ hmem) (by decide)
          · exact absurd (List.mem_takeWhile_imp hmem) (by decide)
        have hparts : base = (scheme ++ "://".toList ++ rest.takeWhile isAuthorityChar) ++
            rest.dropWhile isAuthorityChar := by
          rw [List.append_assoc, List.takeWhile_append_dropWhile, List.append_assoc]
          exact Splitting.eq_of_cut hbase
        rw [hparts, List.mem_append, or_iff_right hfront]
      split_ifs with hhash
      · obtain ⟨a, b, hrest, ha⟩ := List.eq_append_cons_of_mem (hmem.mp hhash)
        rw [hrest, List.append_assoc, List.cons_append, takeWhile_hash ha, takeWhile_hash ha]
      · have hnone := mt hmem.mpr hhash
        rw [takeWhile_of_not_hash hnone, takeWhile_of_not_hash]
        · rfl
        · rw [List.mem_append, not_or]
          exact ⟨hnone, by decide⟩
  · exact absurd h (by simp)

/-- **A base URL** with `/api/chat` appended is taken if it has no path, or that of a resource. -/
theorem aiPath_ollama_iff {base : Text} :
    AiPath R (base ++ "/api/chat".toList) ↔ base = [] ∨ ResourcePath R base := by
  have hends : ∀ {word : Text} (front : Text), (∀ c ∈ word, c.toNat < 128) → 9 ≤ word.length →
      ∀ {text : Text}, Spells R.toRuntime word text → base ++ "/api/chat".toList = front ++ text →
        "/api/chat".toList.map Char.toLower = (word.drop (word.length - 9)).map Char.toLower := by
    intro word front hascii hlength text hspells htext
    exact map_toLower_eq_of_spells (List.forall₂_same.mpr fun c _ => R.unicode.sameCase_refl c)
      hspells rfl htext hlength (by decide) hascii
  have hlast : base ++ "/api/chat".toList = (base ++ "/api/cha".toList) ++ ['t'] := by
    rw [List.append_assoc]
    rfl
  constructor
  · rintro (⟨name, hname, text, back, htext, hspells, hback⟩ |
      ⟨name, hname, text, back, htext, hspells⟩ | ⟨c, _, ⟨front, htext, -⟩, -, name, method, back,
        rfl, -, ⟨call, hcall, hspells⟩, hback⟩)
    · -- the endpoint that ends so is this one
      obtain rfl := hback.eq_nil (by decide) (hlast.symm.trans htext)
      rw [List.append_nil] at htext
      have hnames : ∀ name ∈ endpoints, (∀ c ∈ name, c.toNat < 128) ∧ 9 ≤ name.length ∧
          ("/api/chat".toList.map Char.toLower =
            (name.drop (name.length - 9)).map Char.toLower → name.length ≤ 9) := by decide
      obtain ⟨hascii, hlength, honly⟩ := hnames name hname
      have hshort := honly (hends [] hascii hlength hspells htext)
      rw [hspells.length_eq, ← htext, List.length_append] at hshort
      exact Or.inl (List.length_eq_zero_iff.mp (Nat.le_zero.mp (Nat.le_of_add_le_add_right
        (hshort.trans_eq (Nat.zero_add 9).symm))))
    · obtain ⟨z, rfl, hchat⟩ | ⟨z, rfl, -⟩ := List.append_eq_append_iff.mp htext
      · -- every resource ends with a letter that is not in `/api/chat`
        obtain rfl | ⟨z, x, rfl⟩ := z.eq_nil_or_concat
        · exact Or.inr ⟨name, hname, base, [], (List.append_nil _).symm, by simpa using hspells⟩
        · have hx : x ∈ "/api/chat".toList := hchat ▸ by simp
          obtain ⟨stem, rfl⟩ : ∃ stem, name = stem ++ ['s'] :=
            (by decide : ∀ name ∈ resources, ['s'] <:+ name) name hname |>.imp fun _ h => h.symm
          obtain ⟨a, b, hsplit, -, hlast⟩ := spells_append_iff.mp hspells
          obtain ⟨y, _, hsame, hrest, rfl⟩ := List.forall₂_cons_left_iff.mp hlast
          rw [List.forall₂_nil_left_iff.mp hrest, List.concat_eq_append,
            ← List.append_assoc] at hsplit
          obtain ⟨rfl, -⟩ := List.cons.inj (List.append_inj' hsplit rfl).2
          have hletters : ∀ x ∈ "/api/chat".toList,
              x.toNat < 128 ∧ Char.toLower 's' ≠ x.toLower := by decide
          exact absurd (R.toLower_eq_of_same _ _ _ (by decide) (hletters x hx).1 hsame
            (R.unicode.sameCase_refl x)) (hletters x hx).2
      · exact Or.inr ⟨name, hname, text, z, rfl, hspells⟩
    · have hpath : base ++ "/api/chat".toList = (front ++ c :: (name ++ method)) ++ back := by
        rw [htext]
        simp
      obtain rfl := hback.eq_nil (by decide) (hlast.symm.trans hpath)
      have hcalls : ∀ call ∈ methods, (∀ c ∈ call, c.toNat < 128) ∧ 9 ≤ call.length ∧
          "/api/chat".toList.map Char.toLower ≠
            (call.drop (call.length - 9)).map Char.toLower := by decide
      obtain ⟨hascii, hlength, hne⟩ := hcalls call hcall
      exact absurd (hends (front ++ c :: name) hascii hlength hspells
        (by rw [htext]; simp)) hne
  · rintro (rfl | ⟨name, hname, text, back, rfl, hspells⟩)
    · exact Or.inl ⟨"/api/chat".toList, by decide, _, [], (List.append_nil _).symm,
        List.forall₂_same.mpr fun c _ => R.unicode.sameCase_refl c, Or.inl rfl⟩
    · exact Or.inr (Or.inl ⟨name, hname, text, back ++ "/api/chat".toList,
        List.append_assoc _ _ _, hspells⟩)

/-- Nothing ends with a slash after its slashes are stripped. -/
theorem ollamaBaseUrl_ne (host : Option Text) (front : Text) :
    ollamaBaseUrl host ≠ front ++ ['/'] := by
  intro h
  have hlast := List.rdropWhile_last_not (· == '/') (host.getD "http://localhost:11434".toList)
  rw [← ollamaBaseUrl] at hlast
  exact hlast (h ▸ by simp) (by simp [h])

/-- **The URLs of the adapters**: those that are taken for AI traffic. -/
theorem isAi_url_iff {adapter : Adapter} {host method : Text}
    (h : splitUrl adapter.url = some (host, path)) :
    (classifyRequest R host path method).isAi = true ↔ adapter.Recognised R := by
  have hendpoint : ∀ {host path : Text}, host ∈ aiApiDomains → path ∈ endpoints →
      (classifyRequest R host path method).isAi = true := fun hhost hpath =>
    isAi_iff.mpr ⟨registered_of_mem hhost, Or.inl ⟨_, hpath, _, [], (List.append_nil _).symm,
      List.forall₂_same.mpr fun c _ => R.unicode.sameCase_refl c, Or.inl rfl⟩⟩
  cases adapter with
  | openai =>
    have hurl : splitUrl Adapter.openai.url =
      some ("api.openai.com".toList, "/v1/chat/completions".toList) := rfl
    obtain ⟨rfl, rfl⟩ := Prod.mk.inj (Option.some.inj (h.symm.trans hurl))
    exact iff_of_true (hendpoint (by decide) (by decide)) trivial
  | anthropic =>
    have hurl : splitUrl Adapter.anthropic.url =
      some ("api.anthropic.com".toList, "/v1/messages".toList) := rfl
    obtain ⟨rfl, rfl⟩ := Prod.mk.inj (Option.some.inj (h.symm.trans hurl))
    exact iff_of_true (hendpoint (by decide) (by decide)) trivial
  | gemini modelName isStreaming => exact isAi_gemini_iff h
  | ollama env =>
    obtain ⟨front, hbase, rfl⟩ := splitUrl_append_eq (ollamaBaseUrl_ne env) h
    rw [isAi_iff, Adapter.Recognised]
    have hpath : AiPath R (if '#' ∈ ollamaBaseUrl env then front
          else front ++ "/api/chat".toList) ↔
        if '#' ∈ ollamaBaseUrl env then AiPath R front else front = [] ∨ ResourcePath R front := by
      split_ifs
      · rfl
      · exact aiPath_ollama_iff
    rw [hpath]
    constructor
    · rintro ⟨hhost, htaken⟩
      exact ⟨host, front, hbase, hhost, htaken⟩
    · rintro ⟨host', front', hbase', hhost, htaken⟩
      obtain ⟨rfl, rfl⟩ := Prod.mk.inj (Option.some.inj (hbase.symm.trans hbase'))
      exact ⟨hhost, htaken⟩

/-- The detectors take what is routed: the hosts that the default routes find by name, the URLs of
the adapters, and these with and without a query string. -/
structure DetectorsAgree (R : HostRuntime) : Prop where
  hosts : ∀ (hostname host : Text) (port : Option Text), HostPort hostname host port →
    ((RouteTable.loadDefaults R.toRuntime).lookupName R.toRuntime host).isSome = true →
      (detectHostname R hostname).isSome = true
  urls : ∀ (adapter : Adapter) (host path method : Text),
    splitUrl adapter.url = some (host, path) → (classifyRequest R host path method).isAi = true
  queries : ∀ host path query method : Text,
    (classifyRequest R host (path ++ '?' :: query) method).answer =
      (classifyRequest R host path method).answer

/-- **The detectors and the routes**: which resolved hosts, which URLs and which query strings they
agree about. -/
theorem detectors_agree_iff (R : HostRuntime) :
    (∀ (hostname host : Text) (port : Option Text), HostPort hostname host port →
      ((RouteTable.loadDefaults R.toRuntime).lookupName R.toRuntime host).isSome = true →
        ((detectHostname R hostname).isSome = true ↔ Detectable R host port)) ∧
    (∀ (adapter : Adapter) (host path method : Text), splitUrl adapter.url = some (host, path) →
      ((classifyRequest R host path method).isAi = true ↔ adapter.Recognised R)) ∧
    ∀ host path query method : Text,
      (classifyRequest R host (path ++ '?' :: query) method).answer =
          (classifyRequest R host path method).answer ↔
        (Registered R host → ResourcePath R path ∨
          (EndpointPath R path ∨ ModelPath R path ↔ QueryCall R path query)) :=
  ⟨fun _ _ _ => isSome_detectHostname_iff_detectable, fun _ _ _ _ => isAi_url_iff,
    fun _ _ _ _ => answer_query_iff⟩

/-- A host that `*.openai.com` takes is not detected, the URL of a stream of Gemini is not taken,
and a query string makes a call of a chat model unknown. -/
theorem not_detectorsAgree :
    (((RouteTable.loadDefaults asciiRuntime).lookupName asciiRuntime
        "chat.openai.com".toList).isSome = true ∧
      (detectHostname asciiHostRuntime "chat.openai.com".toList).isSome = false) ∧
    (splitUrl (Adapter.gemini "gemini-pro".toList true).url =
        some ("generativelanguage.googleapis.com".toList,
          "/v1beta/models/gemini-pro:streamGenerateContent?alt=sse".toList) ∧
      (classifyRequest asciiHostRuntime "generativelanguage.googleapis.com".toList
        "/v1beta/models/gemini-pro:streamGenerateContent?alt=sse".toList "POST".toList).isAi =
          false) ∧
    ¬ DetectorsAgree asciiHostRuntime := by
  have hhost : ((RouteTable.loadDefaults asciiRuntime).lookupName asciiRuntime
      "chat.openai.com".toList).isSome = true := by decide
  have hnone : (detectHostname asciiHostRuntime "chat.openai.com".toList).isSome = false := by
    decide
  refine ⟨⟨hhost, hnone⟩, ⟨rfl, ?_⟩, fun h => ?_⟩
  · rw [← Bool.not_eq_true, isAi_iff]
    exact fun h => @not_aiPath_stream asciiHostRuntime "gemini-pro".toList h.2
  have hsome := h.hosts "chat.openai.com".toList "chat.openai.com".toList none
    ⟨⟨by decide, by decide⟩, fun digits hdigits => absurd hdigits (by simp)⟩ hhost
  exact Bool.false_ne_true (hnone.symm.trans hsome)

end AnonReq.Proxy
