import AnonReq.Foundation.Replace
import AnonReq.Streaming.Agreement

/-!
# Restoring retrieved text

`rag/restoration.py`: the tokens of a session are put back by one replacement after the other, the
longest token first, each with and then without its brackets. A stream is restored chunk by chunk;
its tail buffer joins what it holds with the next chunk and holds nothing back.

* `streamText_eq_flatMap`: every chunk of a stream is restored by itself.
* `restore_streaming`: a stream is restored like its whole text, if no replacement finds its token
  over a cut; a token in brackets that is cut anywhere keeps a bracket.
-/

namespace AnonReq.Rag

open Substitution Streaming Tokenization

/-! ### The model -/

/-- The token mapping of a session: a dictionary from tokens to original values. -/
structure TokenMapping where
  entries : List (Text × Text)
  keys_nodup : (entries.map Prod.fst).Nodup

namespace TokenMapping

/-- `{}`. -/
def empty : TokenMapping := ⟨[], List.nodup_nil⟩

/-- `mappings[token]`. -/
def original (mappings : TokenMapping) (token : Text) : Text :=
  (Dict.get mappings.entries token).getD []

/-- `sorted(mappings.keys(), key=len, reverse=True)`. -/
def sortedTokens (mappings : TokenMapping) : List Text :=
  longestFirst (mappings.entries.map Prod.fst)

end TokenMapping

/-- `TailBuffer`. -/
structure TailBuffer where
  buffer : Text
deriving DecidableEq

namespace TailBuffer

/-- `TailBuffer.__init__`. -/
def create : TailBuffer := ⟨[]⟩

/-- `TailBuffer.process`. -/
def process (tail : TailBuffer) (chunk : Text) : Text × TailBuffer :=
  let combined := tail.buffer ++ chunk
  (combined, ⟨[]⟩)

/-- `TailBuffer.flush`. -/
def flush (tail : TailBuffer) : Text × TailBuffer := (tail.buffer, ⟨[]⟩)

end TailBuffer

/-- `_load_mappings`: without a cache, and where the cache fails or holds no dictionary for the
session, there is no mapping. -/
def loadMappings (cacheManager : Option (Text → Option TokenMapping)) (sessionId : Text) :
    TokenMapping :=
  match cacheManager with
  | none => .empty
  | some get => (get ("anonreq:rag:tokens:".toList ++ sessionId)).getD .empty

/-- `_restore_text`. -/
def restoreText (text : Text) (mappings : TokenMapping) : Text :=
  if text.isEmpty || mappings.entries.isEmpty then text
  else mappings.sortedTokens.foldl (fun text token =>
    let original := mappings.original token
    let text := replace token original text
    let bareToken := stripBrackets token
    replace bareToken original text) text

/-- `restore_streaming`. -/
def restoreStreaming (cacheManager : Option (Text → Option TokenMapping)) (chunk sessionId : Text)
    (tailBuffer : TailBuffer) : Text × TailBuffer :=
  let mappings := loadMappings cacheManager sessionId
  if mappings.entries.isEmpty then (chunk, tailBuffer)
  else
    let (content, tailBuffer) := tailBuffer.process chunk
    (restoreText content mappings, tailBuffer)

/-- What a stream of chunks becomes, with one tail buffer that is flushed at the end. -/
def streamText (cacheManager : Option (Text → Option TokenMapping)) (sessionId : Text) :
    TailBuffer → List Text → Text
  | tailBuffer, [] => restoreText tailBuffer.flush.1 (loadMappings cacheManager sessionId)
  | tailBuffer, chunk :: chunks =>
    let (content, tailBuffer) := restoreStreaming cacheManager chunk sessionId tailBuffer
    content ++ streamText cacheManager sessionId tailBuffer chunks

/-! ### Chunk by chunk -/

/-- The replacements in their order: each token, and then the token without its brackets. -/
def passes (mappings : TokenMapping) : List (Text × Text) :=
  mappings.sortedTokens.flatMap fun token =>
    [(token, mappings.original token), (stripBrackets token, mappings.original token)]

/-- No replacement finds its token over a cut between two chunks. -/
def NeverSplit (mappings : TokenMapping) (chunks : List Text) : Prop :=
  UnsplitAll (passes mappings) (chunks.filter fun chunk => !chunk.isEmpty)

instance (mappings : TokenMapping) (chunks : List Text) : Decidable (NeverSplit mappings chunks) :=
  inferInstanceAs (Decidable (UnsplitAll _ _))

variable {mappings : TokenMapping}

theorem restoreText_nil (mappings : TokenMapping) : restoreText [] mappings = [] := rfl

theorem restoreText_of_ne_nil {text : Text} (htext : text ≠ []) :
    restoreText text mappings = replaceAll (passes mappings) text := by
  have hfold : ∀ (tokens : List Text) (text : Text),
      tokens.foldl (fun text token => replace (stripBrackets token) (mappings.original token)
        (replace token (mappings.original token) text)) text =
      replaceAll (tokens.flatMap fun token => [(token, mappings.original token),
        (stripBrackets token, mappings.original token)]) text := by
    intro tokens
    induction tokens with
    | nil => exact fun _ => rfl
    | cons token tokens ih => exact fun text => ih _
  unfold restoreText
  split_ifs with hempty
  · obtain htext' | hmappings := Bool.or_eq_true_iff.mp hempty
    · exact absurd (List.isEmpty_iff.mp htext') htext
    · rw [passes, TokenMapping.sortedTokens, List.isEmpty_iff.mp hmappings]
      rfl
  · exact hfold mappings.sortedTokens text

/-- **The tail buffer holds nothing back**: every chunk of a stream is restored by itself. -/
theorem streamText_eq_flatMap (cacheManager : Option (Text → Option TokenMapping))
    (sessionId : Text) (chunks : List Text) :
    streamText cacheManager sessionId .create chunks =
      chunks.flatMap fun chunk => restoreText chunk (loadMappings cacheManager sessionId) := by
  induction chunks with
  | nil => rfl
  | cons chunk chunks ih =>
    have hstep : restoreStreaming cacheManager chunk sessionId .create =
        (restoreText chunk (loadMappings cacheManager sessionId), .create) := by
      unfold restoreStreaming
      dsimp only
      split_ifs with hempty
      · rw [restoreText, hempty, Bool.or_true, if_pos rfl]
      · rfl
    rw [streamText, hstep, List.flatMap_cons, ← ih]

/-- Empty chunks do not matter. -/
theorem flatMap_restoreText (mappings : TokenMapping) (chunks : List Text) :
    (chunks.flatMap fun chunk => restoreText chunk mappings) =
      ((chunks.filter fun chunk => !chunk.isEmpty).map (replaceAll (passes mappings))).flatten := by
  induction chunks with
  | nil => rfl
  | cons chunk chunks ih =>
    rw [List.flatMap_cons, ih]
    by_cases hchunk : chunk = []
    · subst hchunk
      rw [restoreText_nil, List.nil_append]
      rfl
    · have hkept : (!chunk.isEmpty) = true := by simpa using hchunk
      rw [restoreText_of_ne_nil hchunk, List.filter_cons, if_pos hkept, List.map_cons,
        List.flatten_cons]

/-- **A stream without split tokens** is restored like its whole text. -/
theorem flatMap_restoreText_of_neverSplit {chunks : List Text} (h : NeverSplit mappings chunks) :
    (chunks.flatMap fun chunk => restoreText chunk mappings) =
      restoreText chunks.flatten mappings := by
  have hflatten : (chunks.filter fun chunk => !chunk.isEmpty).flatten = chunks.flatten :=
    List.flatten_filter_not_isEmpty
  by_cases htext : chunks.flatten = []
  · rw [htext, restoreText_nil]
    refine List.flatMap_eq_nil_iff.mpr fun chunk hchunk => ?_
    rw [List.flatten_eq_nil_iff.mp htext chunk hchunk, restoreText_nil]
  · rw [flatMap_restoreText, restoreText_of_ne_nil htext, ← hflatten]
    exact (replaceAll_flatten h).symm

/-! ### Split tokens -/

/-- A mapping as the tokenizer makes it: the tokens are texts in brackets, and the originals have
no brackets. -/
structure Plain (mappings : TokenMapping) : Prop where
  token : ∀ e ∈ mappings.entries, ∃ core, core ≠ [] ∧ BracketFree core ∧ e.1 = bracketed core
  original : ∀ e ∈ mappings.entries, BracketFree e.2

/-- One token: the two replacements for it. -/
def replaceToken (mappings : TokenMapping) (text token : Text) : Text :=
  replace (stripBrackets token) (mappings.original token)
    (replace token (mappings.original token) text)

theorem restoreText_eq_foldl (text : Text) (htext : text ≠ []) (mappings : TokenMapping) :
    restoreText text mappings = mappings.sortedTokens.foldl (replaceToken mappings) text := by
  unfold restoreText
  split_ifs with hempty
  · obtain htext' | hmappings := Bool.or_eq_true_iff.mp hempty
    · exact absurd (List.isEmpty_iff.mp htext') htext
    · rw [TokenMapping.sortedTokens, List.isEmpty_iff.mp hmappings]
      rfl
  · rfl

/-- Longer tokens come first. -/
theorem pairwise_sortedTokens (mappings : TokenMapping) :
    mappings.sortedTokens.Pairwise fun a b => b.length ≤ a.length :=
  pairwise_longestFirst _

namespace Plain

theorem exists_core (h : Plain mappings) {token : Text} (htoken : token ∈ mappings.sortedTokens) :
    ∃ core, core ≠ [] ∧ BracketFree core ∧ token = bracketed core := by
  obtain ⟨e, he, rfl⟩ := List.mem_map.mp (mem_longestFirst.mp htoken)
  exact h.token e he

theorem bracketFree_original (h : Plain mappings) {token : Text}
    (htoken : token ∈ mappings.sortedTokens) : BracketFree (mappings.original token) := by
  obtain ⟨e, he, rfl⟩ := List.mem_map.mp (mem_longestFirst.mp htoken)
  rw [TokenMapping.original, (Dict.get_eq_some_iff mappings.keys_nodup).mpr he, Option.getD_some]
  exact h.original e he

/-- An opening bracket that is never closed is kept. -/
theorem open_mem_foldl (h : Plain mappings) {tokens : List Text}
    (htokens : ∀ token ∈ tokens, token ∈ mappings.sortedTokens) {text : Text} (hopen : '[' ∈ text)
    (hclose : ']' ∉ text) : '[' ∈ tokens.foldl (replaceToken mappings) text := by
  induction tokens generalizing text with
  | nil => exact hopen
  | cons token tokens ih =>
    have htoken := htokens token List.mem_cons_self
    obtain ⟨core, hne, hcore, rfl⟩ := h.exists_core htoken
    have horiginal := h.bracketFree_original htoken
    have hsame : replace (bracketed core) (mappings.original (bracketed core)) text = text :=
      replace_of_not_isInfix (bracketed_ne_nil core) fun hwithin =>
        hclose (hwithin.subset (List.mem_append_right _ (List.mem_singleton_self ']')))
    rw [List.foldl_cons, replaceToken, hsame, stripBrackets_bracketed hcore hne]
    exact ih (fun token ht => htokens token (List.mem_cons_of_mem _ ht))
      (mem_replace hne hcore.1 hopen) (not_mem_replace horiginal.2 hclose)

/-- Without an opening bracket in the text, none is brought in. -/
theorem open_not_mem_foldl (h : Plain mappings) {tokens : List Text}
    (htokens : ∀ token ∈ tokens, token ∈ mappings.sortedTokens) {text : Text}
    (hopen : '[' ∉ text) : '[' ∉ tokens.foldl (replaceToken mappings) text := by
  induction tokens generalizing text with
  | nil => exact hopen
  | cons token tokens ih =>
    have horiginal := h.bracketFree_original (htokens token List.mem_cons_self)
    exact ih (fun token ht => htokens token (List.mem_cons_of_mem _ ht))
      (not_mem_replace horiginal.1 (not_mem_replace horiginal.1 hopen))

/-- Between texts without brackets, a token in brackets is the only one. -/
theorem eq_of_isInfix {core core' x y : Text} (hcore : BracketFree core) (hx : BracketFree x)
    (hy : BracketFree y) (h : bracketed core' <:+: x ++ bracketed core ++ y) : core' = core := by
  obtain ⟨s, t, hst⟩ := h
  have hopen : x ++ '[' :: (core ++ ']' :: y) = s ++ '[' :: (core' ++ ']' :: t) := by
    simpa [bracketed] using hst.symm
  have hrest : '[' ∉ core ++ ']' :: y := by simp [hcore.1, hy.1]
  obtain ⟨-, -, hclose⟩ := (List.append_cons_inj_of_notMem hx.1 hrest).mp hopen
  exact ((List.append_cons_inj_of_notMem hcore.2 hy.2).mp hclose).1.symm

/-- Another token, which is no shorter, leaves a token where it stands. -/
theorem replaceToken_of_ne (h : Plain mappings) {core token x y : Text} (hcore : BracketFree core)
    (htoken : token ∈ mappings.sortedTokens) (hne : token ≠ bracketed core)
    (hlength : (bracketed core).length ≤ token.length) (hx : BracketFree x) (hy : BracketFree y) :
    ∃ x' y', BracketFree x' ∧ BracketFree y' ∧
      replaceToken mappings (x ++ bracketed core ++ y) token = x' ++ bracketed core ++ y' := by
  obtain ⟨core', hne', hcore', rfl⟩ := h.exists_core htoken
  have horiginal := h.bracketFree_original htoken
  have hcores : core' ≠ core := fun heq => hne (congrArg bracketed heq)
  rw [length_bracketed, length_bracketed] at hlength
  have hbracketed : replace (bracketed core') (mappings.original (bracketed core'))
      (x ++ bracketed core ++ y) = x ++ bracketed core ++ y :=
    replace_of_not_isInfix (bracketed_ne_nil core') fun hwithin =>
      hcores (eq_of_isInfix hcore hx hy hwithin)
  have hbare : replace core' (mappings.original (bracketed core')) core = core :=
    replace_of_not_isInfix hne' fun hwithin => hcores (hwithin.eq_of_length_le (by omega))
  have hsplit : x ++ bracketed core ++ y = x ++ '[' :: (core ++ ']' :: y) := by simp [bracketed]
  refine ⟨replace core' (mappings.original (bracketed core')) x,
    replace core' (mappings.original (bracketed core')) y,
    ⟨not_mem_replace horiginal.1 hx.1, not_mem_replace horiginal.2 hx.2⟩,
    ⟨not_mem_replace horiginal.1 hy.1, not_mem_replace horiginal.2 hy.2⟩, ?_⟩
  rw [replaceToken, hbracketed, stripBrackets_bracketed hcore' hne', hsplit,
    replace_append_cons hne' hcore'.1, replace_append_cons hne' hcore'.2, hbare]
  simp [bracketed]

/-- **A whole token leaves no bracket.** -/
theorem open_not_mem_of_token (h : Plain mappings) {core : Text} (hcore : BracketFree core)
    {tokens : List Text} (htokens : ∀ token ∈ tokens, token ∈ mappings.sortedTokens)
    (hsorted : tokens.Pairwise fun a b => b.length ≤ a.length) (hmem : bracketed core ∈ tokens)
    {x y : Text} (hx : BracketFree x) (hy : BracketFree y) :
    '[' ∉ tokens.foldl (replaceToken mappings) (x ++ bracketed core ++ y) := by
  induction tokens generalizing x y with
  | nil => exact absurd hmem List.not_mem_nil
  | cons token tokens ih =>
    have htoken := htokens token List.mem_cons_self
    have hrest : ∀ token ∈ tokens, token ∈ mappings.sortedTokens := fun token ht =>
      htokens token (List.mem_cons_of_mem _ ht)
    obtain ⟨hfirst, hsorted⟩ := List.pairwise_cons.mp hsorted
    rw [List.foldl_cons]
    by_cases heq : token = bracketed core
    · subst heq
      have horiginal := h.bracketFree_original htoken
      have hfront : replace (bracketed core) (mappings.original (bracketed core))
          (x ++ bracketed core ++ y) = x ++ (mappings.original (bracketed core) ++
            replace (bracketed core) (mappings.original (bracketed core)) y) := by
        rw [List.append_assoc]
        exact (replace_append_of_not_mem hx.1 _).trans
          (congrArg (x ++ ·) (replace_append_self (bracketed_ne_nil core) y))
      refine h.open_not_mem_foldl hrest (not_mem_replace horiginal.1 ?_)
      rw [hfront, List.mem_append, List.mem_append, not_or, not_or]
      exact ⟨hx.1, horiginal.1, not_mem_replace horiginal.1 hy.1⟩
    · have hlater : bracketed core ∈ tokens :=
        (List.mem_cons.mp hmem).resolve_left fun heq' => heq heq'.symm
      obtain ⟨x', y', hx', hy', hsame⟩ :=
        h.replaceToken_of_ne hcore htoken heq (hfirst _ hlater) hx hy
      rw [hsame]
      exact ih hrest hsorted hlater hx' hy'

/-- **A token that is cut keeps a bracket**, wherever it is cut. -/
theorem flatMap_restoreText_ne (h : Plain mappings) {core : Text}
    (htoken : bracketed core ∈ mappings.entries.map Prod.fst) {a b x y : Text} (ha : a ≠ [])
    (hb : b ≠ []) (hcut : a ++ b = bracketed core) (hx : BracketFree x) (hy : BracketFree y) :
    ([x ++ a, b ++ y].flatMap fun chunk => restoreText chunk mappings) ≠
      restoreText (x ++ bracketed core ++ y) mappings := by
  have hmem : bracketed core ∈ mappings.sortedTokens := mem_longestFirst.mpr htoken
  obtain ⟨core', -, hcore, hsame⟩ := h.exists_core hmem
  obtain rfl := bracketed_injective hsame
  obtain ⟨c, a, rfl⟩ := List.exists_cons_of_ne_nil ha
  obtain ⟨rfl, htail⟩ := List.cons.inj hcut
  have hclose : ']' ∉ a := by
    -- The closing bracket is the last character of the token, which is in the second part.
    obtain ⟨b, d, rfl⟩ := (List.eq_nil_or_concat b).resolve_left hb
    rw [List.concat_eq_append] at htail
    have htail : a ++ (b ++ [d]) = core ++ [']'] := htail
    rw [← List.append_assoc] at htail
    have hab : a ++ b = core := (List.append_inj' htail rfl).1
    exact fun hmem => hcore.2 (hab ▸ List.mem_append_left b hmem)
  have hkept : '[' ∈ restoreText (x ++ '[' :: a) mappings := by
    rw [restoreText_eq_foldl _ (by simp)]
    exact h.open_mem_foldl (fun _ ht => ht) (by simp) (by simp [hx.2, hclose])
  have hgone : '[' ∉ restoreText (x ++ bracketed core ++ y) mappings := by
    rw [restoreText_eq_foldl _ (by simp [bracketed])]
    exact h.open_not_mem_of_token hcore (fun _ ht => ht) (pairwise_sortedTokens _) hmem hx hy
  intro hall
  refine hgone (hall ▸ ?_)
  rw [List.flatMap_cons]
  exact List.mem_append_left _ hkept

end Plain

/-! ### The stream and the whole text -/

/-- **A stream is restored like its whole text**, if no replacement finds its token over a cut. A
token in brackets that is cut, at any place, is not restored. -/
theorem restore_streaming (cacheManager : Option (Text → Option TokenMapping)) (sessionId : Text) :
    (∀ chunks, NeverSplit (loadMappings cacheManager sessionId) chunks →
      streamText cacheManager sessionId .create chunks =
        restoreText chunks.flatten (loadMappings cacheManager sessionId)) ∧
    (Plain (loadMappings cacheManager sessionId) →
      ∀ core, bracketed core ∈ (loadMappings cacheManager sessionId).entries.map Prod.fst →
      ∀ x y a b, BracketFree x → BracketFree y → a ≠ [] → b ≠ [] → a ++ b = bracketed core →
        streamText cacheManager sessionId .create [x ++ a, b ++ y] ≠
          restoreText (x ++ bracketed core ++ y) (loadMappings cacheManager sessionId)) := by
  refine ⟨fun chunks h => ?_, fun h core htoken x y a b hx hy ha hb hcut => ?_⟩
  · rw [streamText_eq_flatMap, flatMap_restoreText_of_neverSplit h]
  · rw [streamText_eq_flatMap]
    exact h.flatMap_restoreText_ne htoken ha hb hcut hx hy

/-- A cache that holds one token for every session. -/
def sampleCache : Option (Text → Option TokenMapping) :=
  some fun _ => some ⟨[("[EMAIL_0]".toList, "ann@x".toList)], List.nodup_singleton _⟩

theorem plain_sampleCache : Plain (loadMappings sampleCache "s".toList) where
  token := List.forall_mem_singleton.mpr ⟨"EMAIL_0".toList, by decide, by decide, by decide⟩
  original := List.forall_mem_singleton.mpr (by decide)

theorem restore_streaming_sample :
    streamText sampleCache "s".toList .create ["to [EMAIL_0]".toList, ", EMAIL_0".toList] =
        restoreText "to [EMAIL_0], EMAIL_0".toList (loadMappings sampleCache "s".toList) ∧
      streamText sampleCache "s".toList .create ["to [EMA".toList, "IL_0]!".toList] ≠
        restoreText "to [EMAIL_0]!".toList (loadMappings sampleCache "s".toList) :=
  ⟨(restore_streaming sampleCache "s".toList).1 ["to [EMAIL_0]".toList, ", EMAIL_0".toList]
      (by decide +kernel),
    (restore_streaming sampleCache "s".toList).2 plain_sampleCache "EMAIL_0".toList (by decide)
      "to ".toList "!".toList "[EMA".toList "IL_0]".toList (by decide) (by decide) (by decide)
      (by decide) (by decide)⟩

/-- **A token over two chunks** is not restored. -/
theorem not_restore_streaming :
    ¬ ∀ (cacheManager : Option (Text → Option TokenMapping)) (sessionId : Text)
      (chunks : List Text), streamText cacheManager sessionId .create chunks =
        restoreText chunks.flatten (loadMappings cacheManager sessionId) := by
  intro hall
  have hsame := hall sampleCache "s".toList ["[EMA".toList, "IL_0]".toList]
  have hstreamed : streamText sampleCache "s".toList .create ["[EMA".toList, "IL_0]".toList] =
      "[EMAIL_0]".toList := by decide +kernel
  have hwhole : restoreText (["[EMA".toList, "IL_0]".toList] : List Text).flatten
      (loadMappings sampleCache "s".toList) = "ann@x".toList := by decide +kernel
  rw [hstreamed, hwhole] at hsame
  exact absurd hsame (by decide)

end AnonReq.Rag
