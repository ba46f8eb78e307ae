import AnonReq.Foundation.JsonWriter
import AnonReq.Foundation.RegexMatch
import AnonReq.Foundation.Splitting

/-!
# The route table

`gateway/router.py`: hostnames with wildcards are mapped to providers, routes are added and removed
while the gateway runs, and a host is looked up by its name, by the wildcards, and by its port.

* `Table` is what a run leaves, in its own terms: the route that was added last for each name.
  `represents_run` says that the entries and the wildcard list are kept in step with it.
* `search_hostPattern_iff`: which hosts the pattern of a wildcard takes.
* `lookup_spec`: what a lookup returns.
* `routed`: every run from the defaults.
-/

namespace AnonReq.Gateway

open Regex Substitution

/-- What the table takes from its runtime. -/
structure Runtime where
  lowerCase : LowerCase
  unicode : Unicode
  /-- `str.isdigit` of one character. -/
  isDigit : Char → Bool

/-! ### Routes -/

/-- `RouteEntry`, without metadata, which nobody sets. -/
structure RouteEntry where
  hostname : Text
  provider : Text
  targetUrl : Text
  port : Option ℤ
deriving DecidableEq

/-- `RouteMatch`. -/
structure RouteMatch where
  provider : Text
  entry : RouteEntry
  matchedPattern : Text
deriving DecidableEq

/-- The match that an entry makes. -/
def RouteEntry.toMatch (entry : RouteEntry) : RouteMatch := ⟨entry.provider, entry, entry.hostname⟩

/-- A route for the hosts below a name. -/
def RouteEntry.isWildcard (entry : RouteEntry) : Bool := "*.".toList.isPrefixOf entry.hostname

/-- `DEFAULT_ROUTES`. -/
def defaultRoutes : List RouteEntry :=
  [⟨"api.openai.com".toList, "openai".toList, "https://api.openai.com".toList, none⟩,
    ⟨"*.openai.com".toList, "openai".toList, "https://api.openai.com".toList, none⟩,
    ⟨"api.anthropic.com".toList, "anthropic".toList, "https://api.anthropic.com".toList, none⟩,
    ⟨"generativelanguage.googleapis.com".toList, "gemini".toList,
      "https://generativelanguage.googleapis.com".toList, none⟩,
    ⟨"localhost".toList, "ollama".toList, "http://localhost:11434".toList, some 11434⟩,
    ⟨"127.0.0.1".toList, "ollama".toList, "http://127.0.0.1:11434".toList, some 11434⟩,
    ⟨"api.deepseek.com".toList, "deepseek".toList, "https://api.deepseek.com".toList, none⟩,
    ⟨"api.mistral.ai".toList, "mistral".toList, "https://api.mistral.ai".toList, none⟩,
    ⟨"api.cohere.ai".toList, "cohere".toList, "https://api.cohere.ai".toList, none⟩,
    ⟨"api.together.xyz".toList, "together".toList, "https://api.together.xyz".toList, none⟩,
    ⟨"api.perplexity.ai".toList, "perplexity".toList, "https://api.perplexity.ai".toList, none⟩]

variable (R : Runtime)

/-- `re.compile(r"(^|\.)suffix$", re.IGNORECASE)`. -/
def hostPattern (suffix : Text) : Regex Char :=
  seqs [.alt start (.one (· == '.')), word R.unicode.sameCase suffix, finish]

/-- The pattern of a name with a wildcard. -/
def wildcardPattern (hostname : Text) : Regex Char := hostPattern R (hostname.drop 2)

/-! ### The table -/

/-- `RouteTable`. -/
structure RouteTable where
  entries : List RouteEntry
  wildcardPatterns : List (Regex Char × RouteEntry)

/-- One more entry at the end, with its pattern if it is a wildcard. -/
def RouteTable.append (table : RouteTable) (entry : RouteEntry) : RouteTable where
  entries := table.entries ++ [entry]
  wildcardPatterns :=
    if entry.isWildcard then table.wildcardPatterns ++ [(wildcardPattern R entry.hostname, entry)]
    else table.wildcardPatterns

/-- `_load_defaults`. -/
def RouteTable.loadDefaults : RouteTable := defaultRoutes.foldl (RouteTable.append R) ⟨[], []⟩

/-- `remove_route(hostname)`. -/
def RouteTable.removeRoute (table : RouteTable) (hostname : Text) : RouteTable where
  entries := table.entries.filter fun entry => entry.hostname ≠ hostname
  wildcardPatterns := table.wildcardPatterns.filter fun pair => pair.2.hostname ≠ hostname

/-- `add_route(hostname, provider, target_url, port)`, by the entry that is made of them. -/
def RouteTable.addRoute (table : RouteTable) (entry : RouteEntry) : RouteTable :=
  (table.removeRoute entry.hostname).append R entry

/-- The host that is looked up, and what stands behind the last colon. -/
def splitPort (hostname : Text) : Text × Option Text :=
  match Splitting.rcut ':' hostname.strip with
  | some (host, port) => (host, some port)
  | none => (hostname.strip, none)

/-- `parts[1].isdigit()`, where there is a second part. -/
def hasPort (port : Option Text) : Bool :=
  port.any fun digits => !digits.isEmpty && digits.all R.isDigit

/-- An entry is for this host, letter case aside. -/
def RouteEntry.isExact (entry : RouteEntry) (host : Text) : Bool :=
  !entry.isWildcard && R.lowerCase.lower host == R.lowerCase.lower entry.hostname

/-- An entry has the port with these digits. -/
def RouteEntry.isAtPort (entry : RouteEntry) (port : Option Text) : Bool :=
  entry.port.any fun n => port == some (Json.decimal n)

/-- The entry that is found by its name, or by its wildcard. -/
def RouteTable.lookupName (table : RouteTable) (host : Text) : Option RouteEntry :=
  match table.entries.find? (RouteEntry.isExact R · host) with
  | some entry => some entry
  | none => (table.wildcardPatterns.find? fun pair => pair.1.search none host).map Prod.snd

/-- `lookup(hostname)`. -/
def RouteTable.lookup (table : RouteTable) (hostname : Text) : Option RouteMatch :=
  let (host, port) := splitPort hostname
  match table.lookupName R host with
  | some entry => some entry.toMatch
  | none =>
    if hasPort R port then
      (table.entries.find? (RouteEntry.isAtPort · port)).map RouteEntry.toMatch
    else none

/-! ### What a run leaves -/

/-- A change of the table. -/
inductive Action where
  | addRoute (entry : RouteEntry)
  | removeRoute (hostname : Text)

/-- A change is made to the table. -/
def RouteTable.step (table : RouteTable) : Action → RouteTable
  | .addRoute entry => table.addRoute R entry
  | .removeRoute hostname => table.removeRoute hostname

/-- The route of each name. -/
abbrev Table := Text → Option RouteEntry

/-- The routes of the defaults. -/
def Table.defaults : Table := fun hostname =>
  defaultRoutes.find? fun entry => entry.hostname = hostname

/-- A name has the route that was added last, unless it was removed since. -/
def Table.step (known : Table) : Action → Table
  | .addRoute entry => fun name => if name = entry.hostname then some entry else known name
  | .removeRoute hostname => fun name => if name = hostname then none else known name

/-- The wildcard list has the entries that are wildcards, with their patterns. -/
def KeepsWildcards (table : RouteTable) : Prop :=
  table.wildcardPatterns = (table.entries.filter RouteEntry.isWildcard).map fun entry =>
    (wildcardPattern R entry.hostname, entry)

/-- The entries are the routes of the table, one for each name, and the wildcard list is in step
with them. -/
structure Represents (table : RouteTable) (known : Table) : Prop where
  nodup : (table.entries.map RouteEntry.hostname).Nodup
  mem_iff : ∀ entry, entry ∈ table.entries ↔ known entry.hostname = some entry
  wildcards : KeepsWildcards R table

variable {R}

theorem KeepsWildcards.append {table : RouteTable} (h : KeepsWildcards R table)
    (entry : RouteEntry) : KeepsWildcards R (table.append R entry) := by
  rw [KeepsWildcards] at h ⊢
  rw [RouteTable.append, List.filter_append, List.map_append, ← h]
  cases hwild : entry.isWildcard <;> simp [hwild]

theorem KeepsWildcards.removeRoute {table : RouteTable} (h : KeepsWildcards R table)
    (hostname : Text) : KeepsWildcards R (table.removeRoute hostname) := by
  rw [KeepsWildcards] at h ⊢
  rw [RouteTable.removeRoute, h, List.filter_map, List.filter_filter, List.filter_filter]
  simp only [Function.comp_def, Bool.and_comm]

/-- A removal leaves the routes with other names. -/
theorem Represents.removeRoute {table : RouteTable} {known : Table} (h : Represents R table known)
    (hostname : Text) :
    Represents R (table.removeRoute hostname) (known.step (.removeRoute hostname)) where
  nodup := h.nodup.sublist (List.filter_sublist.map _)
  mem_iff entry := by
    rw [RouteTable.removeRoute, List.mem_filter, h.mem_iff, Table.step]
    by_cases heq : entry.hostname = hostname <;> simp [heq]
  wildcards := h.wildcards.removeRoute hostname

/-- An addition replaces the route with the same name. -/
theorem Represents.addRoute {table : RouteTable} {known : Table} (h : Represents R table known)
    (entry : RouteEntry) :
    Represents R (table.addRoute R entry) (known.step (.addRoute entry)) where
  nodup := by
    have hremoved := h.removeRoute entry.hostname
    rw [RouteTable.addRoute, RouteTable.append, List.map_append, List.map_singleton,
      List.nodup_append]
    refine ⟨hremoved.nodup, List.nodup_singleton _, fun name hname other hother heq => ?_⟩
    obtain ⟨old, hold, rfl⟩ := List.mem_map.mp hname
    rw [List.mem_singleton.mp hother] at heq
    exact of_decide_eq_true (List.mem_filter.mp hold).2 heq
  mem_iff other := by
    have hremoved := (h.removeRoute entry.hostname).mem_iff other
    rw [RouteTable.addRoute, RouteTable.append, List.mem_append, hremoved, List.mem_singleton,
      Table.step, Table.step]
    by_cases heq : other.hostname = entry.hostname
    · simp [heq, eq_comm]
    · simp only [if_neg heq]
      exact or_iff_left fun h => heq (h ▸ rfl)
  wildcards := (h.wildcards.removeRoute entry.hostname).append entry

/-- Entries that are appended one after the other. -/
theorem foldl_append (table : RouteTable) (h : KeepsWildcards R table) (more : List RouteEntry) :
    (more.foldl (RouteTable.append R) table).entries = table.entries ++ more ∧
      KeepsWildcards R (more.foldl (RouteTable.append R) table) := by
  induction more generalizing table with
  | nil => exact ⟨(List.append_nil _).symm, h⟩
  | cons entry more ih =>
    obtain ⟨hentries, hwildcards⟩ := ih _ (h.append entry)
    refine ⟨?_, hwildcards⟩
    rw [List.foldl_cons, hentries, RouteTable.append, List.append_assoc, List.singleton_append]

theorem entries_loadDefaults : (RouteTable.loadDefaults R).entries = defaultRoutes :=
  (foldl_append ⟨[], []⟩ rfl defaultRoutes).1

/-- Of entries with distinct names each is the first one with its name. -/
theorem mem_iff_find? {entries : List RouteEntry}
    (h : (entries.map RouteEntry.hostname).Nodup) (entry : RouteEntry) :
    entry ∈ entries ↔
      (entries.find? fun other => other.hostname = entry.hostname) = some entry := by
  constructor
  · intro hentry
    obtain ⟨front, back, rfl⟩ := List.append_of_mem hentry
    rw [List.map_append, List.nodup_append, List.map_cons] at h
    rw [List.find?_eq_some_iff_append]
    refine ⟨decide_eq_true rfl, front, back, rfl, fun other hother => ?_⟩
    have hne := h.2.2 _ (List.mem_map_of_mem hother) _ List.mem_cons_self
    simpa using hne
  · exact List.mem_of_find?_eq_some

/-- The defaults are the routes of the defaults. -/
theorem represents_loadDefaults : Represents R (.loadDefaults R) .defaults := by
  have hnodup : (defaultRoutes.map RouteEntry.hostname).Nodup := by decide
  refine ⟨?_, fun entry => ?_, (foldl_append ⟨[], []⟩ rfl defaultRoutes).2⟩
  · rwa [entries_loadDefaults]
  · rw [entries_loadDefaults]
    exact mem_iff_find? hnodup entry

/-- **A step** keeps the entries and the wildcard list in step with the routes. -/
theorem Represents.step {table : RouteTable} {known : Table} (h : Represents R table known)
    (action : Action) : Represents R (table.step R action) (known.step action) := by
  cases action with
  | addRoute entry => exact h.addRoute entry
  | removeRoute hostname => exact h.removeRoute hostname

variable (R)

/-- The table behind a run. -/
def run (actions : List Action) : RouteTable := actions.foldl (RouteTable.step R) (.loadDefaults R)

/-- The routes behind a run. -/
def routes (actions : List Action) : Table := actions.foldl Table.step .defaults

variable {R}

/-- **A run** keeps the entries and the wildcard list in step with the routes. -/
theorem represents_run (actions : List Action) : Represents R (run R actions) (routes actions) := by
  have hrun (table : RouteTable) (known : Table) (h : Represents R table known) :
      Represents R (actions.foldl (RouteTable.step R) table) (actions.foldl Table.step known) := by
    induction actions generalizing table known with
    | nil => exact h
    | cons action actions ih => exact ih _ _ (h.step action)
  exact hrun _ _ represents_loadDefaults

/-! ### Lookups -/

/-- What stands before the last colon of a name that is stripped, and what stands behind it. -/
def SplitsAs (hostname host : Text) : Option Text → Prop
  | none => hostname.strip = host ∧ ':' ∉ host
  | some port => hostname.strip = host ++ ':' :: port ∧ ':' ∉ port

theorem splitPort_eq_iff {hostname host : Text} {port : Option Text} :
    splitPort hostname = (host, port) ↔ SplitsAs hostname host port := by
  rw [splitPort]
  cases hcut : Splitting.rcut ':' hostname.strip with
  | none =>
    have hmem := Splitting.rcut_eq_none_iff.mp hcut
    cases port with
    | none =>
      refine ⟨fun h => ?_, fun h => by rw [h.1]⟩
      obtain ⟨rfl, -⟩ := Prod.mk.inj h
      exact ⟨rfl, hmem⟩
    | some port =>
      refine iff_of_false (fun h => by simp at h) fun h => hmem ?_
      rw [h.1]
      exact List.mem_append_right _ List.mem_cons_self
  | some parts =>
    obtain ⟨hsplit, hmem⟩ := Splitting.rcut_eq_some_iff.mp hcut
    cases port with
    | none =>
      refine iff_of_false (fun h => by simp at h) fun h => h.2 ?_
      rw [← h.1, hsplit]
      exact List.mem_append_right _ List.mem_cons_self
    | some port =>
      constructor
      · intro h
        obtain ⟨rfl, hport⟩ := Prod.mk.inj h
        obtain rfl := Option.some.inj hport
        exact ⟨hsplit, hmem⟩
      · rintro ⟨hsplit', hmem'⟩
        obtain ⟨rfl, rfl⟩ :=
          Splitting.append_cons_inj_of_back hmem hmem' (hsplit.symm.trans hsplit')
        rfl

/-- A host is a name, up to a line feed at the end, or it ends with a dot and this name; letter case
aside. -/
def Below (R : Runtime) (suffix host : Text) : Prop :=
  ∃ front part back, host = front ++ (part ++ back) ∧ (front = [] ∨ front.getLast? = some '.') ∧
    List.Forall₂ (fun c d => R.unicode.sameCase c d = true) suffix part ∧
      (back = [] ∨ back = ['\n'])

/-- **The pattern** for a name is found exactly in the hosts at or below it. -/
theorem search_hostPattern_iff (suffix host : Text) :
    (hostPattern R suffix).search none host = true ↔ Below R suffix host := by
  rw [search_iff, hostPattern]
  simp only [matches_seqs_cons_iff, matches_seqs_nil_iff, matches_alt_iff, matches_start_iff,
    matches_one_iff, matches_word_iff, matches_finish_iff]
  constructor
  · rintro ⟨front, _, back, rfl, boundary, _, rfl, hboundary, part, _, rfl, hpart, _, _, rfl,
      ⟨rfl, hback⟩, rfl⟩
    refine ⟨front ++ boundary, part, back, by simp, ?_, hpart, hback⟩
    obtain ⟨rfl, hfront⟩ | ⟨c, hc, rfl⟩ := hboundary
    · refine Or.inl ?_
      cases front with
      | nil => rfl
      | cons d front => simp [lastOf, List.getLast?_cons] at hfront
    · exact Or.inr (by rw [List.getLast?_append]; simpa using hc)
  · rintro ⟨front, part, back, rfl, hfront, hpart, hback⟩
    obtain rfl | hlast := hfront
    · exact ⟨[], part, back, rfl, [], part, rfl, Or.inl ⟨rfl, rfl⟩, part, [], by simp, hpart, [],
        [], rfl, ⟨rfl, hback⟩, rfl⟩
    · obtain ⟨before, rfl⟩ := List.getLast?_eq_some_iff.mp hlast
      exact ⟨before, '.' :: part, back, by simp, ['.'], part, rfl, Or.inr ⟨'.', rfl, rfl⟩, part, [],
        by simp, hpart, [], [], rfl, ⟨rfl, hback⟩, rfl⟩

/-- A wildcard takes the hosts at or below the name behind `*.`. -/
def RouteEntry.Takes (R : Runtime) (entry : RouteEntry) (host : Text) : Prop :=
  Below R (entry.hostname.drop 2) host

theorem search_wildcardPattern_iff (entry : RouteEntry) (host : Text) :
    (wildcardPattern R entry.hostname).search none host = true ↔ entry.Takes R host :=
  search_hostPattern_iff _ host

/-- The first entry with a property. -/
def First (P : RouteEntry → Prop) (entries : List RouteEntry) (entry : RouteEntry) : Prop :=
  P entry ∧ ∃ front back, entries = front ++ entry :: back ∧ ∀ other ∈ front, ¬ P other

theorem find?_eq_some_iff_first {p : RouteEntry → Bool} {entries : List RouteEntry}
    {entry : RouteEntry} :
    entries.find? p = some entry ↔ First (fun entry => p entry = true) entries entry := by
  rw [List.find?_eq_some_iff_append, First]
  simp only [Bool.not_eq_true, Bool.not_eq_true']

/-- What a lookup of a host and a port has to return, by the entries: the only exact route, letter
case aside; else the first wildcard that takes the host; else the first route with the port; else
nothing. -/
structure LookupSpec (R : Runtime) (entries : List RouteEntry) (host : Text) (port : Option Text)
    (result : Option RouteMatch) : Prop where
  byName : ∀ entry ∈ entries, entry.isExact R host = true →
    (∀ other ∈ entries, other.isExact R host = true → other = entry) →
      result = some entry.toMatch
  byWildcard : (∀ entry ∈ entries, entry.isExact R host = false) → ∀ entry,
    First (fun entry => entry.isWildcard = true ∧ entry.Takes R host) entries entry →
      result = some entry.toMatch
  byPort : (∀ entry ∈ entries, entry.isExact R host = false) →
    (∀ entry ∈ entries, entry.isWildcard = true → ¬ entry.Takes R host) →
      hasPort R port = true → ∀ entry,
        First (fun entry => entry.isAtPort port = true) entries entry →
          result = some entry.toMatch
  missing : (∀ entry ∈ entries, entry.isExact R host = false) →
    (∀ entry ∈ entries, entry.isWildcard = true → ¬ entry.Takes R host) →
      (hasPort R port = true → ∀ entry ∈ entries, entry.isAtPort port = false) → result = none

/-- A lookup by name, by the entries. -/
theorem lookupName_eq {table : RouteTable} (h : KeepsWildcards R table) (host : Text) :
    table.lookupName R host =
      (table.entries.find? (RouteEntry.isExact R · host)).or
        (table.entries.find? fun entry =>
          entry.isWildcard && (wildcardPattern R entry.hostname).search none host) := by
  have hwildcards : ((table.wildcardPatterns.find? fun pair => pair.1.search none host).map
        Prod.snd) = table.entries.find? fun entry =>
          entry.isWildcard && (wildcardPattern R entry.hostname).search none host := by
    rw [h, List.find?_map, List.find?_filter, Option.map_map]
    simp only [Bool.decide_and, Bool.decide_eq_true, Function.comp_def]
    exact congrFun Option.map_id _
  rw [RouteTable.lookupName, hwildcards]
  cases table.entries.find? (RouteEntry.isExact R · host) <;> rfl

/-- **A lookup** by the entries of a table. -/
theorem lookup_spec {table : RouteTable} (h : KeepsWildcards R table) {hostname host : Text}
    {port : Option Text} (hsplit : SplitsAs hostname host port) :
    LookupSpec R table.entries host port (table.lookup R hostname) := by
  have hnoExact (hall : ∀ entry ∈ table.entries, entry.isExact R host = false) :
      table.entries.find? (RouteEntry.isExact R · host) = none :=
    List.find?_eq_none.mpr fun entry hentry =>
      Bool.eq_false_iff.mp (hall entry hentry)
  have hnoWildcard (hall : ∀ entry ∈ table.entries, entry.isWildcard = true →
      ¬ entry.Takes R host) :
      (table.entries.find? fun entry =>
        entry.isWildcard && (wildcardPattern R entry.hostname).search none host) = none := by
    refine List.find?_eq_none.mpr fun entry hentry hfound => ?_
    rw [Bool.and_eq_true, search_wildcardPattern_iff] at hfound
    exact hall entry hentry hfound.1 hfound.2
  rw [RouteTable.lookup, splitPort_eq_iff.mpr hsplit]
  dsimp only
  rw [lookupName_eq h]
  constructor
  · intro entry hentry hexact hunique
    obtain ⟨found, hfound⟩ := Option.isSome_iff_exists.mp
      (List.find?_isSome.mpr ⟨entry, hentry, hexact⟩ :
        (table.entries.find? (RouteEntry.isExact R · host)).isSome)
    have hfoundExact : found.isExact R host = true :=
      (find?_eq_some_iff_first.mp hfound).1
    rw [hfound, hunique found (List.mem_of_find?_eq_some hfound) hfoundExact]
    rfl
  · intro hall entry hfirst
    have hfound : (table.entries.find? fun entry =>
        entry.isWildcard && (wildcardPattern R entry.hostname).search none host) = some entry := by
      rw [find?_eq_some_iff_first]
      simpa only [First, Bool.and_eq_true, search_wildcardPattern_iff] using hfirst
    rw [hnoExact hall, hfound]
    rfl
  · intro hall hwild hport entry hfirst
    rw [hnoExact hall, hnoWildcard hwild, Option.none_or]
    dsimp only
    rw [if_pos hport, find?_eq_some_iff_first.mpr hfirst]
    rfl
  · intro hall hwild hport
    rw [hnoExact hall, hnoWildcard hwild, Option.none_or]
    dsimp only
    split_ifs with hdigits
    · rw [List.find?_eq_none.mpr fun entry hentry =>
        Bool.eq_false_iff.mp (hport hdigits entry hentry)]
      rfl
    · rfl

/-! ### Runs -/

/-- What holds behind a run: the entries and the wildcard list are those of the routes that were
added last, and every lookup is answered by them. -/
structure Routed (R : Runtime) (actions : List Action) : Prop where
  represents : Represents R (run R actions) (routes actions)
  lookup : ∀ hostname host port, SplitsAs hostname host port →
    LookupSpec R (run R actions).entries host port ((run R actions).lookup R hostname)

/-- **Every run** from the defaults keeps the table and answers its lookups. -/
theorem routed (R : Runtime) (actions : List Action) : Routed R actions :=
  ⟨represents_run actions, fun _ _ _ hsplit =>
    lookup_spec (represents_run actions).wildcards hsplit⟩

/-- A runtime with the tables of ASCII. -/
def asciiRuntime : Runtime := ⟨asciiLower, .ascii, Char.isDigit⟩

/-- A table in which letter case makes no difference, and nothing is found but by name. -/
structure FoundByName (R : Runtime) (table : RouteTable) : Prop where
  unique : ∀ entry ∈ table.entries, ∀ other ∈ table.entries,
    R.lowerCase.lower entry.hostname = R.lowerCase.lower other.hostname → entry = other
  wildcards : KeepsWildcards R table
  byName : ∀ hostname host port, SplitsAs hostname host port → ∀ entry front back,
    table.entries = front ++ entry :: back → entry.isExact R host = true →
      (∀ other ∈ back, other.isExact R host = false) →
        table.lookup R hostname = some entry.toMatch
  byWildcard : ∀ hostname host port, SplitsAs hostname host port →
    (∀ entry ∈ table.entries, entry.isExact R host = false) →
      (∃ entry ∈ table.entries, entry.isWildcard = true ∧ entry.Takes R host) →
        ∃ entry ∈ table.entries, entry.isWildcard = true ∧ entry.Takes R host ∧
          table.lookup R hostname = some entry.toMatch
  missing : ∀ hostname host port, SplitsAs hostname host port →
    (∀ entry ∈ table.entries, entry.isExact R host = false) →
      (∀ entry ∈ table.entries, entry.isWildcard = true → ¬ entry.Takes R host) →
        table.lookup R hostname = none

/-- A host that no route names is found by its port, already in the table of the defaults. -/
theorem not_foundByName :
    ¬ ∀ actions : List Action, FoundByName asciiRuntime (run asciiRuntime actions) := by
  intro h
  have hsplit : SplitsAs "example.com:11434".toList "example.com".toList (some "11434".toList) :=
    splitPort_eq_iff.mp (by decide)
  have hwildcard : ∀ entry ∈ (run asciiRuntime []).entries, entry.isWildcard = true →
      (wildcardPattern asciiRuntime entry.hostname).search none "example.com".toList = false := by
    decide
  have hnone := (h []).missing _ _ _ hsplit (by decide) fun entry hentry hwild htakes =>
    Bool.eq_false_iff.mp (hwildcard entry hentry hwild)
      ((search_wildcardPattern_iff entry _).mpr htakes)
  exact absurd hnone (by decide)

end AnonReq.Gateway
