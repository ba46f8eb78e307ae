import Mathlib
import AnonReq.Gateway.RouteTable

/-!
# Detection of providers by hostname

`detect_hostname` of `gateway/detector.py`, beside the route table.

* `search_localPattern_iff`: the texts that the pattern of a local name takes.
* `map_toLower_eq_of_spells`: no text spells two words.
* `resolved_iff`: the hosts that the default routes find by name.
* `isSome_detectHostname_iff_detectable`: which of them are detected.
-/

namespace AnonReq.Gateway

open Regex Substitution

/-- A runtime, with what the code relies on for words of ASCII characters: their lower case, that
what has the same lower case is the same for a pattern, where only letters have another case, that
no character is the same as two of them, and that their decimals are the ten digits. -/
structure HostRuntime extends Runtime where
  lower_ascii : ∀ text : Text, (∀ c ∈ text, c.toNat < 128) →
    lowerCase.lower text = text.map Char.toLower
  same_of_lower : ∀ word text : Text, (∀ c ∈ word, c.toNat < 128) →
    lowerCase.lower text = lowerCase.lower word →
      List.Forall₂ (fun c d => unicode.sameCase c d = true ∧ (c.isAlpha = false → c = d)) word text
  toLower_eq_of_same : ∀ c d x : Char, c.toNat < 128 → d.toNat < 128 →
    unicode.sameCase c x = true → unicode.sameCase d x = true → c.toLower = d.toLower
  isDecimal_eq : ∀ c : Char, c.toNat < 128 → unicode.isDecimal c = c.isDigit

variable (R : HostRuntime)

/-! ### The detector -/

/-- `ProviderMatch`. -/
structure ProviderMatch where
  provider : Text
  confidence : ℚ
  matchedOn : Text

/-- `^name(:\d+)?$`, where a test says which characters are the same. -/
def localPattern (same : Char → Char → Bool) (name : Text) : Regex Char :=
  seqs [start, word same name,
    opt (seqs [.one (· == ':'), atLeast 1 (.one R.unicode.isDecimal)]), finish]

/-- `KNOWN_PROVIDERS`. -/
def knownProviders : List (Text × List (Regex Char)) :=
  [("openai".toList, [hostPattern R.toRuntime "api.openai.com".toList,
      hostPattern R.toRuntime "api.openai.com".toList,
      hostPattern R.toRuntime "oai.azure.com".toList]),
    ("anthropic".toList, [hostPattern R.toRuntime "api.anthropic.com".toList]),
    ("gemini".toList, [hostPattern R.toRuntime "generativelanguage.googleapis.com".toList]),
    ("ollama".toList, [localPattern R R.unicode.sameCase "localhost".toList,
      localPattern R (· == ·) "127.0.0.1".toList]),
    ("deepseek".toList, [hostPattern R.toRuntime "api.deepseek.com".toList]),
    ("mistral".toList, [hostPattern R.toRuntime "api.mistral.ai".toList]),
    ("cohere".toList, [hostPattern R.toRuntime "api.cohere.ai".toList]),
    ("together".toList, [hostPattern R.toRuntime "api.together.xyz".toList]),
    ("perplexity".toList, [hostPattern R.toRuntime "api.perplexity.ai".toList])]

/-- `detect_hostname(hostname)`, without custom patterns. -/
def detectHostname (hostname : Text) : Option ProviderMatch :=
  ((knownProviders R).find? fun known =>
    known.2.any fun pattern => pattern.search none hostname.strip).map fun known =>
      ⟨known.1, 95 / 100, "hostname".toList⟩

/-! ### Words -/

/-- A text is a word, letter case aside. -/
def Spells (R : Runtime) (word text : Text) : Prop :=
  List.Forall₂ (fun c d => R.unicode.sameCase c d = true) word text

variable {R}

theorem Spells.append_inv {R : Runtime} {word front back : Text}
    (h : Spells R word (front ++ back)) :
    ∃ word' word'', word = word' ++ word'' ∧ Spells R word' front ∧ Spells R word'' back := by
  refine ⟨word.take front.length, word.drop front.length, (List.take_append_drop _ _).symm,
    ?_, ?_⟩
  · exact List.forall₂_take_append _ _ _ h
  · exact List.forall₂_drop_append _ _ _ h

/-- A text that spells two words of ASCII characters. -/
theorem map_toLower_eq {word word' text : Text} (h : Spells R.toRuntime word text)
    (h' : Spells R.toRuntime word' text) (hword : ∀ c ∈ word, c.toNat < 128)
    (hword' : ∀ c ∈ word', c.toNat < 128) : word.map Char.toLower = word'.map Char.toLower := by
  induction h generalizing word' with
  | nil => rw [List.forall₂_nil_right_iff.mp h']
  | cons hc _ ih =>
    obtain ⟨d, rest, hd, hrest, rfl⟩ := List.forall₂_cons_right_iff.mp h'
    rw [List.forall_mem_cons] at hword hword'
    rw [List.map_cons, List.map_cons, R.toLower_eq_of_same _ _ _ hword.1 hword'.1 hc hd,
      ih hrest hword.2 hword'.2]

/-- **No text ends with two words**, unless the end of one is the other. -/
theorem map_toLower_eq_of_spells {word word' text front front' part part' : Text}
    (h : Spells R.toRuntime word part) (h' : Spells R.toRuntime word' part')
    (htext : text = front ++ part) (htext' : text = front' ++ part')
    (hlength : word.length ≤ word'.length) (hword : ∀ c ∈ word, c.toNat < 128)
    (hword' : ∀ c ∈ word', c.toNat < 128) :
    word.map Char.toLower = (word'.drop (word'.length - word.length)).map Char.toLower := by
  have hparts : part.length ≤ part'.length := by
    rwa [← h.length_eq, ← h'.length_eq]
  obtain ⟨between, hbetween⟩ : part <:+ part' :=
    List.suffix_of_suffix_length_le ⟨front, htext.symm⟩ ⟨front', htext'.symm⟩ hparts
  rw [← hbetween] at h'
  obtain ⟨before, behind, rfl, -, hbehind⟩ := h'.append_inv
  have hdrop : (before ++ behind).length - word.length = before.length := by
    rw [h.length_eq, ← hbehind.length_eq, List.length_append]
    omega
  rw [hdrop, List.drop_left]
  exact map_toLower_eq h hbehind hword fun c hc => hword' c (List.mem_append_right _ hc)

/-- What has the lower case of a word spells it. -/
theorem spells_of_lower {word text : Text} (hword : ∀ c ∈ word, c.toNat < 128)
    (h : R.lowerCase.lower text = R.lowerCase.lower word) : Spells R.toRuntime word text :=
  (R.same_of_lower word text hword h).imp fun _ _ hc => hc.1

theorem le_of_isDigit {c : Char} (h : c.isDigit = true) : c.toNat ≤ 57 := by
  simp only [Char.isDigit, Bool.and_eq_true, decide_eq_true_eq, UInt32.le_iff_toNat_le] at h
  exact h.2

/-- What is the same as a digit is in lower case the digit. -/
theorem isDigit_toLower_of_same {c d : Char} (hc : c.toNat < 128)
    (h : R.unicode.sameCase c d = true) (hd : d.isDigit = true) : c.toLower.isDigit = true := by
  have hlow : d.toNat < 65 := Nat.lt_of_le_of_lt (le_of_isDigit hd) (by decide)
  have hself : d.toLower = d := by
    unfold Char.toLower
    split_ifs with hupper
    · have hhigh : 65 ≤ d.val.toNat := hupper.1
      exact absurd hlow (by exact Nat.not_lt.mpr hhigh)
    · rfl
  rw [R.toLower_eq_of_same c d d hc (Nat.lt_trans hlow (by decide)) h (R.unicode.sameCase_refl d),
    hself]
  exact hd

/-- A text that ends with a digit spells no word that ends with another character. -/
theorem not_spells_of_digit {word text : Text} {c d : Char} (hc : c.toNat < 128)
    (hletter : c.toLower.isDigit = false) (hd : d.isDigit = true) :
    ¬ Spells R.toRuntime (word ++ [c]) (text ++ [d]) := by
  intro h
  obtain ⟨word', word'', hsplit, -, hback⟩ := h.append_inv
  obtain ⟨c', rest, hsame, hrest, rfl⟩ := List.forall₂_cons_right_iff.mp hback
  rw [List.forall₂_nil_right_iff.mp hrest] at hsplit
  obtain ⟨-, hcc⟩ := List.append_inj' hsplit rfl
  obtain ⟨rfl, -⟩ := List.cons.inj hcc
  exact Bool.false_ne_true (hletter.symm.trans (isDigit_toLower_of_same hc hsame hd))

/-! ### Stripped texts -/

/-- A stripped text ends with no line feed. -/
theorem eq_nil_of_strip {hostname front back : Text} (h : hostname.strip = front ++ back)
    (hback : back = [] ∨ back = ['\n']) : back = [] := by
  refine hback.resolve_right fun hline => ?_
  have hself := Text.strip_eq_self_iff.mp (Text.strip_strip hostname)
  have hspace := hself.2 '\n' (by rw [h, hline, List.getLast?_concat]; rfl)
  exact absurd hspace (by decide)

/-- A stripped text at or below a name. -/
theorem below_iff_of_strip {suffix hostname : Text} :
    Below R.toRuntime suffix hostname.strip ↔ ∃ front part, hostname.strip = front ++ part ∧
      (front = [] ∨ front.getLast? = some '.') ∧ Spells R.toRuntime suffix part := by
  constructor
  · rintro ⟨front, part, back, htext, hfront, hpart, hback⟩
    rw [← List.append_assoc] at htext
    obtain rfl := eq_nil_of_strip htext hback
    exact ⟨front, part, by rwa [List.append_nil] at htext, hfront, hpart⟩
  · rintro ⟨front, part, htext, hfront, hpart⟩
    exact ⟨front, part, [], by rwa [List.append_nil], hfront, hpart, Or.inl rfl⟩

/-- **The pattern** for a local name is found in the name, and in it with a port. -/
theorem search_localPattern_iff {same : Char → Char → Bool} {name hostname : Text} :
    (localPattern R same name).search none hostname.strip = true ↔
      ∃ part port, hostname.strip = part ++ port ∧
        List.Forall₂ (fun c d => same c d = true) name part ∧
          (port = [] ∨ ∃ digits, port = ':' :: digits ∧ digits ≠ [] ∧
            ∀ c ∈ digits, R.unicode.isDecimal c = true) := by
  rw [localPattern, search_start_iff]
  simp only [matches_seqs_cons_iff, matches_seqs_nil_iff, matches_one_iff, matches_word_iff,
    matches_finish_iff, matches_opt_iff, atLeast, matches_cls_iff, beq_iff_eq]
  constructor
  · rintro ⟨_, back, htext, part, _, rfl, hpart, port, _, rfl, hport, _, _, rfl, ⟨rfl, hback⟩, rfl⟩
    have hsplit : hostname.strip = (part ++ port) ++ back := by rw [htext]; simp
    obtain rfl := eq_nil_of_strip hsplit hback
    refine ⟨part, port, by rwa [List.append_nil] at hsplit, hpart, hport.imp_right ?_⟩
    rintro ⟨_, _, rfl, ⟨c, rfl, rfl⟩, digits, _, rfl, ⟨hdigits, hone, -⟩, rfl⟩
    exact ⟨digits, by simp, List.ne_nil_of_length_pos hone, hdigits⟩
  · rintro ⟨part, port, htext, hpart, hport⟩
    refine ⟨part ++ port, [], by simpa using htext, part, port, rfl, hpart, port, [], by simp, ?_,
      [], [], rfl, ⟨rfl, Or.inl rfl⟩, rfl⟩
    refine hport.imp_right ?_
    rintro ⟨digits, rfl, hne, hdigits⟩
    exact ⟨[':'], digits, rfl, ⟨':', rfl, rfl⟩, digits, [], by simp,
      ⟨hdigits, List.length_pos_of_ne_nil hne, fun m hm => absurd hm (by simp)⟩, rfl⟩

/-! ### What is resolved and what is detected -/

/-- The names of the patterns that take a name and what is below it. -/
def suffixes : List Text :=
  ["api.openai.com".toList, "oai.azure.com".toList, "api.anthropic.com".toList,
    "generativelanguage.googleapis.com".toList, "api.deepseek.com".toList,
    "api.mistral.ai".toList, "api.cohere.ai".toList, "api.together.xyz".toList,
    "api.perplexity.ai".toList]

/-- What is detected. -/
theorem isSome_detectHostname_iff (hostname : Text) :
    (detectHostname R hostname).isSome = true ↔
      (∃ suffix ∈ suffixes, Below R.toRuntime suffix hostname.strip) ∨
        (localPattern R R.unicode.sameCase "localhost".toList).search none hostname.strip = true ∨
          (localPattern R (· == ·) "127.0.0.1".toList).search none hostname.strip = true := by
  simp only [detectHostname, Option.isSome_map, List.find?_isSome, knownProviders, suffixes,
    List.exists_mem_cons_iff, List.not_mem_nil, false_and, exists_false, or_false, List.any_cons,
    List.any_nil, Bool.or_false, Bool.or_eq_true, search_hostPattern_iff]
  grind

/-- **The hosts** that the default routes find by name: those of an exact route, and those at or
below the one name with a wildcard. -/
theorem resolved_iff (host : Text) :
    ((RouteTable.loadDefaults R.toRuntime).lookupName R.toRuntime host).isSome = true ↔
      (∃ entry ∈ defaultRoutes, entry.isExact R.toRuntime host = true) ∨
        Below R.toRuntime "openai.com".toList host := by
  have hwild : ∀ entry ∈ defaultRoutes, entry.isWildcard = true →
      entry.hostname.drop 2 = "openai.com".toList := by decide
  rw [lookupName_eq represents_loadDefaults.wildcards, entries_loadDefaults, Option.isSome_or,
    Bool.or_eq_true, List.find?_isSome, List.find?_isSome]
  refine or_congr_right ⟨?_, fun h => ?_⟩
  · rintro ⟨entry, hentry, hfound⟩
    rw [Bool.and_eq_true, search_wildcardPattern_iff, RouteEntry.Takes] at hfound
    rw [← hwild entry hentry hfound.1]
    exact hfound.2
  · refine ⟨⟨"*.openai.com".toList, "openai".toList, "https://api.openai.com".toList, none⟩,
      by decide, ?_⟩
    rw [Bool.and_eq_true, search_wildcardPattern_iff]
    exact ⟨by decide, h⟩

/-- A host in any letter case, with the digits of a port or none. -/
def HostPort (hostname host : Text) (port : Option Text) : Prop :=
  SplitsAs hostname host port ∧ ∀ digits ∈ port, digits ≠ [] ∧ ∀ c ∈ digits, c.isDigit = true

/-- A host that is resolved is detected: without a port, where it has an exact route or is at or
below `api.openai.com`; with a port, where it is one of the two local names. -/
def Detectable (R : HostRuntime) (host : Text) : Option Text → Prop
  | none => (∃ entry ∈ defaultRoutes, entry.isExact R.toRuntime host = true) ∨
      Below R.toRuntime "api.openai.com".toList host
  | some _ => R.lowerCase.lower host = R.lowerCase.lower "localhost".toList ∨
      R.lowerCase.lower host = R.lowerCase.lower "127.0.0.1".toList

/-- The name of an exact route has a pattern. -/
theorem mem_suffixes_of_exact : ∀ entry ∈ defaultRoutes, entry.isWildcard = false →
    entry.hostname ∈ suffixes ∨ entry.hostname = "localhost".toList ∨
      entry.hostname = "127.0.0.1".toList := by decide

/-- A text with the lower case of a word without letters is this word. -/
theorem eq_of_lower {word text : Text} (hword : ∀ c ∈ word, c.toNat < 128 ∧ c.isAlpha = false)
    (h : R.lowerCase.lower text = R.lowerCase.lower word) : word = text := by
  have hsame := R.same_of_lower word text (fun c hc => (hword c hc).1) h
  clear h
  induction hsame with
  | nil => rfl
  | cons hc _ ih =>
    rw [List.forall_mem_cons] at hword
    rw [hc.2 hword.1.2, ih hword.2]

/-- A local name is detected, with a port and without one. -/
theorem isSome_detectHostname_local {hostname host port : Text}
    (htext : hostname.strip = host ++ port)
    (hport : port = [] ∨ ∃ digits, port = ':' :: digits ∧ digits ≠ [] ∧
      ∀ c ∈ digits, c.isDigit = true)
    (hhost : R.lowerCase.lower host = R.lowerCase.lower "localhost".toList ∨
      R.lowerCase.lower host = R.lowerCase.lower "127.0.0.1".toList) :
    (detectHostname R hostname).isSome = true := by
  have hdecimal : port = [] ∨ ∃ digits, port = ':' :: digits ∧ digits ≠ [] ∧
      ∀ c ∈ digits, R.unicode.isDecimal c = true := by
    refine hport.imp_right fun ⟨digits, hdigits, hne, hall⟩ => ⟨digits, hdigits, hne, ?_⟩
    intro c hc
    rw [R.isDecimal_eq c (Nat.lt_of_le_of_lt (le_of_isDigit (hall c hc)) (by decide))]
    exact hall c hc
  rw [isSome_detectHostname_iff, search_localPattern_iff, search_localPattern_iff]
  obtain hlocal | hloopback := hhost
  · exact Or.inr (Or.inl ⟨host, port, htext, spells_of_lower (by decide) hlocal, hdecimal⟩)
  · obtain rfl := eq_of_lower (by decide) hloopback
    exact Or.inr (Or.inr ⟨_, port, htext, List.forall₂_same.mpr fun c _ => beq_self_eq_true c,
      hdecimal⟩)

theorem ascii_suffixes : ∀ suffix ∈ suffixes, ∀ c ∈ suffix, c.toNat < 128 := by decide

theorem ascii_defaultRoutes : ∀ entry ∈ defaultRoutes, ∀ c ∈ entry.hostname, c.toNat < 128 := by
  decide

theorem isExact_iff {entry : RouteEntry} {host : Text} :
    entry.isExact R.toRuntime host = true ↔ entry.isWildcard = false ∧
      R.lowerCase.lower host = R.lowerCase.lower entry.hostname := by
  rw [RouteEntry.isExact, Bool.and_eq_true, Bool.not_eq_true', beq_iff_eq]

/-- The host of an exact route spells its name. -/
theorem spells_of_isExact {entry : RouteEntry} (hentry : entry ∈ defaultRoutes) {host : Text}
    (h : entry.isExact R.toRuntime host = true) : Spells R.toRuntime entry.hostname host :=
  spells_of_lower (ascii_defaultRoutes entry hentry) (isExact_iff.mp h).2

/-- A host below `openai.com` has at least as many characters. -/
theorem le_length_of_below {suffix host : Text} (h : Below R.toRuntime suffix host) :
    suffix.length ≤ host.length := by
  obtain ⟨front, part, back, rfl, -, hpart, -⟩ := h
  rw [hpart.length_eq, List.length_append, List.length_append]
  omega

/-- A host that is resolved and spells a local name has its exact route. -/
theorem exists_exact_of_local {host : Text}
    (hresolved : ((RouteTable.loadDefaults R.toRuntime).lookupName R.toRuntime host).isSome = true)
    (hlength : host.length = 9) :
    ∃ entry ∈ defaultRoutes, entry.isExact R.toRuntime host = true := by
  refine ((resolved_iff host).mp hresolved).resolve_right fun hbelow => ?_
  have hle := le_length_of_below hbelow
  rw [hlength] at hle
  exact absurd hle (by decide)

/-- **A host without a port** that is resolved is detected exactly if it has an exact route or is at
or below `api.openai.com`. -/
theorem isSome_detectHostname_of_none {hostname host : Text} (hsplit : SplitsAs hostname host none)
    (hresolved : ((RouteTable.loadDefaults R.toRuntime).lookupName R.toRuntime host).isSome =
      true) :
    (detectHostname R hostname).isSome = true ↔ Detectable R host none := by
  obtain ⟨htext, hcolon⟩ := hsplit
  constructor
  · intro h
    have hlocal {same : Char → Char → Bool} {name : Text} (hname : name.length = 9)
        (h : (localPattern R same name).search none hostname.strip = true) :
        Detectable R host none := by
      obtain ⟨part, port, hparts, hpart, hport⟩ := search_localPattern_iff.mp h
      obtain rfl | ⟨digits, rfl, -⟩ := hport
      · refine Or.inl (exists_exact_of_local hresolved ?_)
        rw [← htext, hparts, List.append_nil, ← hpart.length_eq, hname]
      · refine absurd ?_ hcolon
        rw [← htext, hparts]
        exact List.mem_append_right _ List.mem_cons_self
    obtain ⟨suffix, hsuffix, hbelow⟩ | h | h := (isSome_detectHostname_iff hostname).mp h
    · refine ((resolved_iff host).mp hresolved).imp_right fun hopenai => ?_
      rw [← htext] at hopenai ⊢
      obtain ⟨front, part, hpart, -, hspells⟩ := below_iff_of_strip.mp hopenai
      obtain ⟨front', part', hpart', -, hspells'⟩ := below_iff_of_strip.mp hbelow
      -- of the names only one ends like the name with the wildcard
      have honly : ∀ suffix ∈ suffixes, "openai.com".toList.length ≤ suffix.length ∧
          ("openai.com".toList.map Char.toLower =
              (suffix.drop (suffix.length - "openai.com".toList.length)).map Char.toLower →
            suffix = "api.openai.com".toList) := by decide
      rw [← (honly suffix hsuffix).2 (map_toLower_eq_of_spells hspells hspells' hpart hpart'
        (honly suffix hsuffix).1 (by decide) (ascii_suffixes suffix hsuffix))]
      exact hbelow
    · exact hlocal rfl h
    · exact hlocal rfl h
  · rintro (⟨entry, hentry, hexact⟩ | hbelow)
    · obtain ⟨hwild, hlower⟩ := isExact_iff.mp hexact
      obtain hsuffix | hlocal := mem_suffixes_of_exact entry hentry hwild
      · refine (isSome_detectHostname_iff hostname).mpr (Or.inl ⟨_, hsuffix, ?_⟩)
        exact below_iff_of_strip.mpr
          ⟨[], host, htext, Or.inl rfl, spells_of_isExact hentry hexact⟩
      · have hparts : hostname.strip = host ++ [] := by rw [List.append_nil, htext]
        refine isSome_detectHostname_local hparts (Or.inl rfl) ?_
        obtain hname | hname := hlocal
        · exact Or.inl (hname ▸ hlower)
        · exact Or.inr (hname ▸ hlower)
    · exact (isSome_detectHostname_iff hostname).mpr
        (Or.inl ⟨"api.openai.com".toList, by decide, htext ▸ hbelow⟩)

/-- **A host with a port** that is resolved is detected exactly if it is one of the two local
names. -/
theorem isSome_detectHostname_of_some {hostname host digits : Text}
    (hsplit : SplitsAs hostname host (some digits)) (hne : digits ≠ [])
    (hdigits : ∀ c ∈ digits, c.isDigit = true)
    (hresolved : ((RouteTable.loadDefaults R.toRuntime).lookupName R.toRuntime host).isSome =
      true) :
    (detectHostname R hostname).isSome = true ↔ Detectable R host (some digits) := by
  obtain ⟨htext, hcolon⟩ := hsplit
  constructor
  · intro h
    obtain ⟨ds, d, rfl⟩ := List.eq_nil_or_concat digits |>.resolve_left hne
    have hd : d.isDigit = true := hdigits d (by simp)
    -- no name that ends with a letter is at the end of the text
    have hend (word : Text) (c : Char) {part front : Text} (hc : c.toNat < 128)
        (hletter : c.toLower.isDigit = false) (hparts : hostname.strip = front ++ part)
        (hpart : Spells R.toRuntime (word ++ [c]) part) : False := by
      have hpartNe : part ≠ [] := by
        rintro rfl
        exact absurd (List.forall₂_nil_right_iff.mp hpart) (by simp)
      obtain ⟨rest, e, rfl⟩ := List.eq_nil_or_concat part |>.resolve_left hpartNe
      rw [htext, List.concat_eq_append, List.concat_eq_append, ← List.append_assoc,
        ← List.cons_append, ← List.append_assoc] at hparts
      obtain ⟨-, hlast⟩ := List.append_inj' hparts rfl
      obtain ⟨rfl, -⟩ := List.cons.inj hlast
      rw [List.concat_eq_append] at hpart
      exact not_spells_of_digit hc hletter hd hpart
    -- what stands behind the colon is the port, so that a local name is the host
    have hhost {part more : Text} (hparts : hostname.strip = part ++ ':' :: more)
        (hmore : ∀ c ∈ more, R.unicode.isDecimal c = true) : part = host := by
      have hnot : ':' ∉ more := fun hmem => by
        have hdecimal := hmore ':' hmem
        rw [R.isDecimal_eq ':' (by decide)] at hdecimal
        exact absurd hdecimal (by decide)
      exact (Splitting.append_cons_inj_of_back hnot hcolon (hparts.symm.trans htext)).1
    obtain ⟨suffix, hsuffix, hbelow⟩ | h | h := (isSome_detectHostname_iff hostname).mp h
    · have hletters : ∀ suffix ∈ suffixes, (suffix.getLast?.any fun c =>
          decide (c.toNat < 128) && !c.toLower.isDigit) = true := by decide
      obtain ⟨front, part, hparts, -, hpart⟩ := below_iff_of_strip.mp hbelow
      obtain ⟨c, hlast, hascii⟩ := (Option.any_eq_true _ _).mp (hletters suffix hsuffix)
      obtain ⟨hc, hletter⟩ : c.toNat < 128 ∧ c.toLower.isDigit = false := by simpa using hascii
      obtain ⟨word, rfl⟩ := List.getLast?_eq_some_iff.mp hlast
      exact (hend word c hc hletter hparts hpart).elim
    · obtain ⟨part, port, hparts, hpart, hport⟩ := search_localPattern_iff.mp h
      obtain rfl | ⟨more, rfl, -, hmore⟩ := hport
      · rw [List.append_nil] at hparts
        exact (hend "localhos".toList 't' (by decide) (by decide)
          (hparts.trans (List.nil_append part).symm) hpart).elim
      · obtain rfl := hhost hparts hmore
        obtain ⟨entry, hentry, hexact⟩ := exists_exact_of_local hresolved hpart.length_eq.symm
        have hsame := map_toLower_eq (spells_of_isExact hentry hexact) hpart
          (ascii_defaultRoutes entry hentry) (by decide)
        have honly : ∀ entry ∈ defaultRoutes,
            entry.hostname.map Char.toLower = "localhost".toList.map Char.toLower →
              entry.hostname = "localhost".toList := by decide
        refine Or.inl ?_
        rw [(isExact_iff.mp hexact).2, honly entry hentry hsame]
    · obtain ⟨part, port, hparts, hpart, hport⟩ := search_localPattern_iff.mp h
      have hname : "127.0.0.1".toList = part := by
        rw [← List.forall₂_eq_eq_eq]
        exact hpart.imp fun _ _ hc => eq_of_beq hc
      obtain rfl | ⟨more, rfl, -, hmore⟩ := hport
      · have hmem : ':' ∈ hostname.strip := by
          rw [htext]
          exact List.mem_append_right _ List.mem_cons_self
        rw [hparts, List.append_nil, ← hname] at hmem
        exact absurd hmem (by decide)
      · obtain rfl := hhost hparts hmore
        exact Or.inr (by rw [hname])
  · rintro hhost
    exact isSome_detectHostname_local htext (Or.inr ⟨digits, rfl, hne, hdigits⟩) hhost

/-- **Hosts that are resolved** by the default routes, with and without a port. -/
theorem isSome_detectHostname_iff_detectable {hostname host : Text} {port : Option Text}
    (h : HostPort hostname host port)
    (hresolved : ((RouteTable.loadDefaults R.toRuntime).lookupName R.toRuntime host).isSome =
      true) :
    (detectHostname R hostname).isSome = true ↔ Detectable R host port := by
  cases port with
  | none => exact isSome_detectHostname_of_none h.1 hresolved
  | some digits =>
    obtain ⟨hne, hdigits⟩ := h.2 digits rfl
    exact isSome_detectHostname_of_some h.1 hne hdigits hresolved

/-- What is not a letter in lower case is in lower case already. -/
theorem toLower_eq_self_of_not_isAlpha {c : Char} (h : c.toLower.isAlpha = false) :
    c.toLower = c := by
  unfold Char.toLower at h ⊢
  split_ifs at h ⊢ with hupper
  · have hshift : ('a'.val - 'A'.val).toNat = 32 := rfl
    have hlow : 65 ≤ c.val.toNat := hupper.1
    have hhigh : c.val.toNat ≤ 90 := hupper.2
    simp only [Char.isAlpha, Char.isLower, Bool.or_eq_false_iff, Bool.and_eq_false_iff,
      decide_eq_false_iff_not, UInt32.not_le, UInt32.lt_iff_toNat_lt, UInt32.toNat_add, hshift]
      at h
    obtain ⟨-, hsmall | hlarge⟩ := h
    · exact absurd hsmall (by simp only [show ('a' : Char).val.toNat = 97 from rfl]; omega)
    · exact absurd hlarge (by simp only [show ('z' : Char).val.toNat = 122 from rfl]; omega)
  · rfl

/-- Two characters with the same lower-case form are the same when one of them is not a letter. -/
theorem eq_of_toLower_eq {c d : Char} (hletter : c.isAlpha = false)
    (h : d.toLower = c.toLower) : c = d := by
  have hself : c.toLower = c := by
    have hupper : c.isUpper = false := (Bool.or_eq_false_iff.mp hletter).1
    unfold Char.toLower
    split_ifs with hc
    · exact absurd hc (of_decide_eq_false hupper)
    · rfl
  rw [hself] at h
  exact h.symm.trans (toLower_eq_self_of_not_isAlpha (h ▸ hletter))

/-- A runtime with the tables of ASCII. -/
def asciiHostRuntime : HostRuntime where
  toRuntime := asciiRuntime
  lower_ascii _ _ := rfl
  same_of_lower word text hword h := by
    have hlower : text.map Char.toLower = word.map Char.toLower := h
    clear h
    induction word generalizing text with
    | nil => rw [List.map_eq_nil_iff.mp hlower]; exact List.Forall₂.nil
    | cons c word ih =>
      rw [List.forall_mem_cons] at hword
      rw [List.map_cons, List.map_eq_cons_iff] at hlower
      obtain ⟨d, text, rfl, hd, htext⟩ := hlower
      refine List.Forall₂.cons ⟨beq_iff_eq.mpr hd.symm, fun hletter => ?_⟩ (ih text hword.2 htext)
      exact eq_of_toLower_eq hletter hd
  toLower_eq_of_same c d x _ _ hc hd := (beq_iff_eq.mp hc).trans (beq_iff_eq.mp hd).symm
  isDecimal_eq _ _ := rfl

end AnonReq.Gateway
