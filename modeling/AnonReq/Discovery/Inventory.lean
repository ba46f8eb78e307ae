import Mathlib
import AnonReq.Foundation.Characters
import AnonReq.Foundation.Grouping
import AnonReq.Foundation.Splitting

/-!
# The asset inventory

`AssetInventory.add_record` and `merge_from_discovery` of `discovery/inventory.py`: the entries of a
DNS log and of a proxy log become records of services, which are merged into the inventory.

* `get_mergeFromDiscovery`: a service's record after a merge, from its own entries.
* `gathersAll_mergeAll`: what every split of the entries into merges gives.
* `aggregated_iff`: when the aggregation is exact and does not depend on orders and splits.
-/

namespace AnonReq.Discovery.Inventory

variable {T : Type} [LinearOrder T]

/-- `DNSEntry`, what the inventory reads of it. -/
structure DNSEntry (T : Type) where
  hostname : Text
  timestamp : T

/-- `ProxyEntry`, what the inventory reads of it. -/
structure ProxyEntry (T : Type) where
  url : Text
  timestamp : T
  bytes : ℤ
  userId : Option Text

/-- `InventoryRecord`. -/
structure InventoryRecord (T : Type) where
  serviceName : Text
  provider : Option Text
  model : Option Text := none
  models : List Text := []
  userCount : ℕ := 0
  appCount : ℕ := 0
  tokenVolume : ℤ := 0
  estimatedCost : ℚ := 0
  dataClassification : Option Text := none
  approvalStatus : Text := "not_reviewed".toList
  riskScore : ℚ := 0
  riskBand : Text := "low".toList
  lastSeen : T
  firstSeen : T
  owner : Option Text := none
  businessUnit : Option Text := none
  sources : List Text := []
  hostnames : List Text := []
  ipAddresses : List Text := []

/-- The records by service. -/
abbrev Records (T : Type) := List (Text × InventoryRecord T)

/-- `a or b` of optional texts. -/
def orText (a b : Option Text) : Option Text :=
  match a with
  | some (c :: text) => some (c :: text)
  | _ => b

/-- `list(set(a + b))`, in some order. -/
def union (a b : List Text) : List Text := (a ++ b).dedup

/-- One more text, if it is not there. -/
def addOnce (texts : List Text) (text : Text) : List Text :=
  if text ∈ texts then texts else texts ++ [text]

/-- What `add_record` makes of a record that exists. -/
def combine (existing record : InventoryRecord T) : InventoryRecord T :=
  let later := existing.lastSeen < record.lastSeen
  { existing with
    userCount := existing.userCount + record.userCount
    appCount := existing.appCount + record.appCount
    tokenVolume := existing.tokenVolume + record.tokenVolume
    estimatedCost := existing.estimatedCost + record.estimatedCost
    lastSeen := if later then record.lastSeen else existing.lastSeen
    provider := if later then orText record.provider existing.provider else existing.provider
    dataClassification :=
      if later then orText record.dataClassification existing.dataClassification
      else existing.dataClassification
    hostnames := union existing.hostnames record.hostnames
    ipAddresses := union existing.ipAddresses record.ipAddresses
    sources := union existing.sources record.sources
    models := union existing.models record.models
    owner := orText record.owner existing.owner
    businessUnit := orText record.businessUnit existing.businessUnit
    model := orText record.model existing.model
    riskScore :=
      if existing.riskScore < record.riskScore then record.riskScore else existing.riskScore
    riskBand :=
      if existing.riskScore < record.riskScore then record.riskBand else existing.riskBand }

/-- The record of a service after `add_record`. -/
def addTo (existing : Option (InventoryRecord T)) (record : InventoryRecord T) :
    InventoryRecord T :=
  match existing with
  | some existing => combine existing record
  | none => record

/-- `add_record`. -/
def addRecord : Records T → InventoryRecord T → Records T :=
  Grouping.upsert (fun record => some record.serviceName) addTo

/-- `_extract_hostname`. -/
def extractHostname (url : Text) : Text :=
  let url :=
    if "://".toList <:+: url then
      (Splitting.partition "://".toList (Splitting.partition "://".toList url).2).1
    else url
  (Splitting.partition ":".toList (Splitting.partition "/".toList url).1).1

/-- The service of a DNS entry; the hash of the empty text is `0`. -/
def dnsService (entry : DNSEntry T) : Text :=
  if entry.hostname = [] then "unknown-0".toList else entry.hostname

/-- The service of a proxy entry; an entry without a hostname is passed over. -/
def proxyService (entry : ProxyEntry T) : Option Text :=
  if extractHostname entry.url = [] then none else some (extractHostname entry.url)

/-- The user of a proxy entry, if it has one. -/
def userOf (entry : ProxyEntry T) : Option Text :=
  match entry.userId with
  | some (c :: user) => some (c :: user)
  | _ => none

section Merge

-- `_extract_provider`
variable (extractProvider : Text → Option Text)

/-- The record of a service after a DNS entry. -/
def seeDns (record : Option (InventoryRecord T)) (entry : DNSEntry T) : InventoryRecord T :=
  match record with
  | none =>
    { serviceName := dnsService entry
      provider := extractProvider entry.hostname
      hostnames := [entry.hostname]
      lastSeen := entry.timestamp
      firstSeen := entry.timestamp
      sources := ["dns".toList] }
  | some record =>
    { record with
      hostnames := addOnce record.hostnames entry.hostname
      lastSeen := if record.lastSeen < entry.timestamp then entry.timestamp else record.lastSeen
      sources := addOnce record.sources "dns".toList }

/-- The record of a service after a proxy entry. -/
def seeProxy (record : Option (InventoryRecord T)) (entry : ProxyEntry T) : InventoryRecord T :=
  let users := if (userOf entry).isSome then 1 else 0
  match record with
  | none =>
    let hostname := extractHostname entry.url
    { serviceName := hostname
      provider := extractProvider hostname
      hostnames := [hostname]
      userCount := users
      tokenVolume := entry.bytes
      lastSeen := entry.timestamp
      firstSeen := entry.timestamp
      sources := ["proxy".toList] }
  | some record =>
    { record with
      tokenVolume := record.tokenVolume + entry.bytes
      userCount := record.userCount + users
      sources := addOnce record.sources "proxy".toList }

/-- The records of the services that are seen in some entries. -/
def seenServices (dnsEntries : List (DNSEntry T)) (proxyEntries : List (ProxyEntry T)) :
    Records T :=
  proxyEntries.foldl (Grouping.upsert proxyService (seeProxy extractProvider))
    (dnsEntries.foldl
      (Grouping.upsert (fun entry => some (dnsService entry)) (seeDns extractProvider)) [])

/-- The classification of an application, for the first service it fits. -/
def applyCasb (appId : Text) : Records T → Records T
  | [] => []
  | (serviceName, record) :: seen =>
    if appId <:+: serviceName ∨ ∃ p ∈ record.provider, p ≠ [] ∧ appId <:+: p then
      (serviceName, { record with sources := addOnce record.sources "casb".toList }) :: seen
    else (serviceName, record) :: applyCasb appId seen

/-- `merge_from_discovery`. -/
def mergeFromDiscovery (records : Records T) (dnsEntries : List (DNSEntry T))
    (proxyEntries : List (ProxyEntry T)) (casbClassifications : List Text) : Records T :=
  let seen := seenServices extractProvider dnsEntries proxyEntries
  let seen := casbClassifications.foldl (fun seen appId => applyCasb appId seen) seen
  (seen.map Prod.snd).foldl addRecord records

end Merge

/-! ### What is to be merged -/

/-- The entries of one merge. -/
structure Batch (T : Type) where
  dns : List (DNSEntry T)
  proxy : List (ProxyEntry T)

/-- The DNS entries of a service. -/
def dnsOf (service : Text) (entries : List (DNSEntry T)) : List (DNSEntry T) :=
  entries.filter fun entry => some (dnsService entry) = some service

/-- The proxy entries of a service. -/
def proxyOf (service : Text) (entries : List (ProxyEntry T)) : List (ProxyEntry T) :=
  entries.filter fun entry => proxyService entry = some service

/-- The times of some entries. -/
def timesOf (dns : List (DNSEntry T)) (proxy : List (ProxyEntry T)) : List T :=
  dns.map DNSEntry.timestamp ++ proxy.map ProxyEntry.timestamp

/-- The record of a service is exact for its entries. -/
structure ExactRecord (dns : List (DNSEntry T)) (proxy : List (ProxyEntry T))
    (record : InventoryRecord T) : Prop where
  firstSeen : IsLeast {t | t ∈ timesOf dns proxy} record.firstSeen
  lastSeen : IsGreatest {t | t ∈ timesOf dns proxy} record.lastSeen
  userCount : record.userCount = (proxy.filterMap userOf).dedup.length
  tokenVolume : record.tokenVolume = (proxy.map ProxyEntry.bytes).sum
  sources : ∀ source, source ∈ record.sources ↔
    source = "dns".toList ∧ dns ≠ [] ∨ source = "proxy".toList ∧ proxy ≠ []

/-- A service has an exact record, or no entries and no record. -/
def Exact (dns : List (DNSEntry T)) (proxy : List (ProxyEntry T)) :
    Option (InventoryRecord T) → Prop
  | none => dns = [] ∧ proxy = []
  | some record => ExactRecord dns proxy record

/-- What is aggregated in a record. -/
def aggregate (record : InventoryRecord T) : T × T × ℕ × ℤ × Finset Text :=
  (record.firstSeen, record.lastSeen, record.userCount, record.tokenVolume,
    record.sources.toFinset)

/-- Two inventories have the same aggregates for each service. -/
def SameResult (a b : Records T) : Prop :=
  ∀ service, (Dict.get a service).map aggregate = (Dict.get b service).map aggregate

section Aggregation

variable (extractProvider : Text → Option Text)

/-- The inventory after one merge into an empty one. -/
def merged (dns : List (DNSEntry T)) (proxy : List (ProxyEntry T)) : Records T :=
  mergeFromDiscovery extractProvider [] dns proxy []

/-- The inventory after several merges into an empty one. -/
def mergeAll (batches : List (Batch T)) : Records T :=
  batches.foldl (fun records batch =>
    mergeFromDiscovery extractProvider records batch.dns batch.proxy []) []

/-- Aggregation is exact, and does not depend on the order of the entries and on how they are split
into merges. -/
structure Aggregated (dns : List (DNSEntry T)) (proxy : List (ProxyEntry T)) : Prop where
  exact : ∀ service, Exact (dnsOf service dns) (proxyOf service proxy)
    (Dict.get (merged extractProvider dns proxy) service)
  perm : ∀ dns' proxy', dns'.Perm dns → proxy'.Perm proxy →
    SameResult (merged extractProvider dns' proxy') (merged extractProvider dns proxy)
  split : ∀ batches : List (Batch T), batches.flatMap Batch.dns = dns →
    batches.flatMap Batch.proxy = proxy →
    SameResult (mergeAll extractProvider batches) (merged extractProvider dns proxy)

end Aggregation

/-- All entries of a service have the same time, and no user has two of its proxy entries. -/
def Steady (dns : List (DNSEntry T)) (proxy : List (ProxyEntry T)) : Prop :=
  ∀ service,
    (∀ t ∈ timesOf (dnsOf service dns) (proxyOf service proxy),
      ∀ t' ∈ timesOf (dnsOf service dns) (proxyOf service proxy), t = t') ∧
    ((proxyOf service proxy).filterMap userOf).Nodup

/-! ### One merge -/

section

variable {extractProvider : Text → Option Text}

/-- The record that the entries of a service make in one merge. -/
def seenRecord (extractProvider : Text → Option Text) (dns : List (DNSEntry T))
    (proxy : List (ProxyEntry T)) : Option (InventoryRecord T) :=
  proxy.foldl (fun record entry => some (seeProxy extractProvider record entry))
    (dns.foldl (fun record entry => some (seeDns extractProvider record entry)) none)

theorem get_seenServices (dns : List (DNSEntry T)) (proxy : List (ProxyEntry T)) (service : Text) :
    Dict.get (seenServices extractProvider dns proxy) service =
      seenRecord extractProvider (dnsOf service dns) (proxyOf service proxy) := by
  rw [seenServices, Grouping.get_foldl_upsert, Grouping.get_foldl_upsert]
  rfl

/-- Each record that is seen has the name of its service. -/
theorem serviceName_seenServices (dns : List (DNSEntry T)) (proxy : List (ProxyEntry T)) :
    (∀ e ∈ seenServices extractProvider dns proxy, e.2.serviceName = e.1) ∧
      ((seenServices extractProvider dns proxy).map Prod.fst).Nodup := by
  have hdns := @Grouping.foldl_upsert_induction _ _ _ _ (fun entry => some (dnsService entry))
    (seeDns extractProvider) (fun service (record : InventoryRecord T) =>
      record.serviceName = service)
    (fun _ _ hkey => Option.some.inj hkey) (fun _ _ _ _ hrecord => hrecord) dns []
    (fun _ he => absurd he List.not_mem_nil) List.nodup_nil
  refine @Grouping.foldl_upsert_induction _ _ _ _ proxyService (seeProxy extractProvider)
    (fun service (record : InventoryRecord T) => record.serviceName = service)
    (fun entry service hkey => ?_) (fun _ _ _ _ hrecord => hrecord) proxy _ hdns.1 hdns.2
  rw [proxyService] at hkey
  split_ifs at hkey
  exact Option.some.inj hkey

/-- **The record of a service after a merge.** -/
theorem get_mergeFromDiscovery (records : Records T) (dns : List (DNSEntry T))
    (proxy : List (ProxyEntry T)) (service : Text) :
    Dict.get (mergeFromDiscovery extractProvider records dns proxy []) service =
      match seenRecord extractProvider (dnsOf service dns) (proxyOf service proxy) with
      | some record => some (addTo (Dict.get records service) record)
      | none => Dict.get records service := by
  obtain ⟨hname, hnodup⟩ := @serviceName_seenServices T _ extractProvider dns proxy
  have hvalues := Grouping.filter_values hname hnodup service
  rw [get_seenServices] at hvalues
  rw [mergeFromDiscovery, List.foldl_nil]
  simp only [addRecord, Grouping.get_foldl_upsert, Option.some.injEq, hvalues]
  cases seenRecord extractProvider (dnsOf service dns) (proxyOf service proxy) with
  | none => rfl
  | some record => rfl

/-! ### What a record gathers -/

/-- What a record holds of some entries of its service, whatever their order was. -/
structure Gathers (dns : List (DNSEntry T)) (proxy : List (ProxyEntry T))
    (record : InventoryRecord T) : Prop where
  first_mem : record.firstSeen ∈ timesOf dns proxy
  last_mem : record.lastSeen ∈ timesOf dns proxy
  userCount : record.userCount = (proxy.filterMap userOf).length
  tokenVolume : record.tokenVolume = (proxy.map ProxyEntry.bytes).sum
  sources : ∀ source, source ∈ record.sources ↔
    source = "dns".toList ∧ dns ≠ [] ∨ source = "proxy".toList ∧ proxy ≠ []

/-- A service gathers nothing without entries. -/
def GathersAll (dns : List (DNSEntry T)) (proxy : List (ProxyEntry T)) :
    Option (InventoryRecord T) → Prop
  | none => dns = [] ∧ proxy = []
  | some record => Gathers dns proxy record

theorem mem_addOnce {texts : List Text} {item text : Text} :
    text ∈ addOnce texts item ↔ text ∈ texts ∨ text = item := by
  rw [addOnce]
  split_ifs with h
  · exact (or_iff_left_of_imp fun heq => heq ▸ h).symm
  · rw [List.mem_append, List.mem_singleton]

variable {proxy proxy' : List (ProxyEntry T)} {dns dns' : List (DNSEntry T)}

omit [LinearOrder T] in
theorem mem_timesOf_append {t : T} :
    t ∈ timesOf (dns ++ dns') (proxy ++ proxy') ↔
      t ∈ timesOf dns proxy ∨ t ∈ timesOf dns' proxy' := by
  simp only [timesOf, List.map_append, List.mem_append]
  constructor
  · rintro ((h | h) | h | h)
    · exact Or.inl (Or.inl h)
    · exact Or.inr (Or.inl h)
    · exact Or.inl (Or.inr h)
    · exact Or.inr (Or.inr h)
  · rintro ((h | h) | h | h)
    · exact Or.inl (Or.inl h)
    · exact Or.inr (Or.inl h)
    · exact Or.inl (Or.inr h)
    · exact Or.inr (Or.inr h)

/-- The later of two times that are there is there. -/
theorem later_mem {t t' : T} {times : List T} (h : t ∈ times) (h' : t' ∈ times) :
    (if t < t' then t' else t) ∈ times := by
  split_ifs
  · exact h'
  · exact h

variable {dns : List (DNSEntry T)} {record : Option (InventoryRecord T)}

theorem gathersAll_seeDns (h : GathersAll dns [] record) (entry : DNSEntry T) :
    Gathers (dns ++ [entry]) [] (seeDns extractProvider record entry) := by
  have hnew : entry.timestamp ∈ timesOf (dns ++ [entry]) [] :=
    List.mem_append_left [] (List.mem_map_of_mem (List.mem_append_right dns List.mem_cons_self))
  cases record with
  | none => exact ⟨hnew, hnew, rfl, rfl, fun source => by simp [seeDns]⟩
  | some record =>
    have hold : ∀ t ∈ timesOf dns [], t ∈ timesOf (dns ++ [entry]) [] := fun t ht =>
      mem_timesOf_append.mpr (Or.inl ht)
    refine ⟨hold _ h.first_mem, later_mem (hold _ h.last_mem) hnew, h.userCount, h.tokenVolume,
      fun source => ?_⟩
    have hne : dns ++ [entry] ≠ [] := List.append_ne_nil_of_right_ne_nil dns (List.cons_ne_nil _ _)
    rw [seeDns, mem_addOnce, h.sources, and_iff_left hne, or_right_comm,
      or_iff_right_of_imp And.left]

variable {proxy : List (ProxyEntry T)}

omit [LinearOrder T] in
theorem gathersAll_seeProxy (h : GathersAll dns proxy record) (entry : ProxyEntry T) :
    Gathers dns (proxy ++ [entry]) (seeProxy extractProvider record entry) := by
  have husers : ((proxy ++ [entry]).filterMap userOf).length =
      (proxy.filterMap userOf).length + if (userOf entry).isSome then 1 else 0 := by
    rw [List.filterMap_append, List.length_append]
    cases huser : userOf entry <;> simp [huser]
  cases record with
  | none =>
    obtain ⟨rfl, rfl⟩ := h
    refine ⟨List.mem_singleton_self _, List.mem_singleton_self _, ?_, ?_, fun source => ?_⟩
    · rw [husers]
      exact (Nat.zero_add _).symm
    · exact (List.sum_singleton).symm
    · simp [seeProxy]
  | some record =>
    have hold : ∀ t ∈ timesOf dns proxy, t ∈ timesOf dns (proxy ++ [entry]) := fun t ht =>
      List.append_nil dns ▸ mem_timesOf_append.mpr (Or.inl ht)
    refine ⟨hold _ h.first_mem, hold _ h.last_mem, ?_, ?_, fun source => ?_⟩
    · rw [husers, ← h.userCount]
      rfl
    · rw [List.map_append, List.sum_append, ← h.tokenVolume]
      exact congrArg (record.tokenVolume + ·) (Int.add_zero entry.bytes).symm
    · have hne : proxy ++ [entry] ≠ [] :=
        List.append_ne_nil_of_right_ne_nil proxy (List.cons_ne_nil _ _)
      rw [seeProxy, mem_addOnce, h.sources, and_iff_left hne, or_assoc,
        or_iff_right_of_imp And.left]

theorem gathers_combine {record record' : InventoryRecord T} (h : Gathers dns proxy record)
    (h' : Gathers dns' proxy' record') :
    Gathers (dns ++ dns') (proxy ++ proxy') (combine record record') := by
  have hold : ∀ t ∈ timesOf dns proxy, t ∈ timesOf (dns ++ dns') (proxy ++ proxy') :=
    fun t ht => mem_timesOf_append.mpr (Or.inl ht)
  have hnew : ∀ t ∈ timesOf dns' proxy', t ∈ timesOf (dns ++ dns') (proxy ++ proxy') :=
    fun t ht => mem_timesOf_append.mpr (Or.inr ht)
  refine ⟨hold _ h.first_mem, later_mem (hold _ h.last_mem) (hnew _ h'.last_mem), ?_, ?_,
    fun source => ?_⟩
  · rw [List.filterMap_append, List.length_append, ← h.userCount, ← h'.userCount]
    rfl
  · rw [List.map_append, List.sum_append, ← h.tokenVolume, ← h'.tokenVolume]
    rfl
  · have hunion : source ∈ (combine record record').sources ↔
        source ∈ record.sources ∨ source ∈ record'.sources :=
      List.mem_dedup.trans List.mem_append
    have hnil : ∀ {α : Type} (a b : List α), a ++ b ≠ [] ↔ a ≠ [] ∨ b ≠ [] := fun a b => by
      rw [ne_eq, List.append_eq_nil_iff, not_and_or]
    rw [hunion, h.sources, h'.sources, hnil, hnil, and_or_left, and_or_left]
    exact or_or_or_comm

/-- **The record of a service in one merge** gathers its entries. -/
theorem gathersAll_seenRecord (dns : List (DNSEntry T)) (proxy : List (ProxyEntry T)) :
    GathersAll dns proxy (seenRecord extractProvider dns proxy) := by
  have hdns : GathersAll dns []
      (dns.foldl (fun record entry => some (seeDns extractProvider record entry)) none) := by
    induction dns using List.reverseRecOn with
    | nil => exact ⟨rfl, rfl⟩
    | append_singleton dns entry ih =>
      rw [List.foldl_append]
      exact gathersAll_seeDns ih entry
  rw [seenRecord]
  induction proxy using List.reverseRecOn with
  | nil => exact hdns
  | append_singleton proxy entry ih =>
    rw [List.foldl_append]
    exact gathersAll_seeProxy ih entry

/-- One more merge gathers its entries. -/
theorem gathersAll_merge {records : Records T} {dns dns' : List (DNSEntry T)}
    {proxy proxy' : List (ProxyEntry T)} {service : Text}
    (h : GathersAll (dnsOf service dns) (proxyOf service proxy) (Dict.get records service)) :
    GathersAll (dnsOf service (dns ++ dns')) (proxyOf service (proxy ++ proxy'))
      (Dict.get (mergeFromDiscovery extractProvider records dns' proxy' []) service) := by
  have hseen := @gathersAll_seenRecord T _ extractProvider (dnsOf service dns')
    (proxyOf service proxy')
  rw [get_mergeFromDiscovery, dnsOf, proxyOf, List.filter_append, List.filter_append]
  revert hseen
  cases seenRecord extractProvider (dnsOf service dns') (proxyOf service proxy') with
  | none =>
    rintro ⟨hdns, hproxy⟩
    rw [dnsOf] at hdns
    rw [proxyOf] at hproxy
    rw [hdns, hproxy, List.append_nil, List.append_nil]
    exact h
  | some record =>
    intro hseen
    cases hget : Dict.get records service with
    | none =>
      rw [hget] at h
      obtain ⟨hdns, hproxy⟩ := h
      rw [dnsOf] at hdns
      rw [proxyOf] at hproxy
      rw [hdns, hproxy]
      exact hseen
    | some existing =>
      rw [hget] at h
      exact gathers_combine h hseen

/-- **Every split** of some entries into merges gathers them. -/
theorem gathersAll_mergeAll (batches : List (Batch T)) (service : Text) :
    GathersAll (dnsOf service (batches.flatMap Batch.dns))
      (proxyOf service (batches.flatMap Batch.proxy))
      (Dict.get (mergeAll extractProvider batches) service) := by
  induction batches using List.reverseRecOn with
  | nil => exact ⟨rfl, rfl⟩
  | append_singleton batches batch ih =>
    rw [mergeAll, List.foldl_append, List.flatMap_append, List.flatMap_append,
      List.flatMap_singleton, List.flatMap_singleton]
    exact gathersAll_merge ih

theorem gathersAll_merged (dns : List (DNSEntry T)) (proxy : List (ProxyEntry T))
    (service : Text) :
    GathersAll (dnsOf service dns) (proxyOf service proxy)
      (Dict.get (merged extractProvider dns proxy) service) :=
  @gathersAll_merge T _ extractProvider [] [] dns [] proxy service ⟨rfl, rfl⟩

omit [LinearOrder T] in
theorem mem_timesOf_of_perm (hdns : dns'.Perm dns) (hproxy : proxy'.Perm proxy) {t : T} :
    t ∈ timesOf dns' proxy' ↔ t ∈ timesOf dns proxy :=
  ((hdns.map _).append (hproxy.map _)).mem_iff

omit [LinearOrder T] in
/-- The order of the entries makes no difference to what is gathered. -/
theorem GathersAll.of_perm (hdns : dns'.Perm dns) (hproxy : proxy'.Perm proxy)
    (h : GathersAll dns' proxy' record) :
    GathersAll dns proxy record := by
  cases record with
  | none =>
    obtain ⟨rfl, rfl⟩ := h
    exact ⟨List.nil_perm.mp hdns, List.nil_perm.mp hproxy⟩
  | some record =>
    refine ⟨(mem_timesOf_of_perm hdns hproxy).mp h.first_mem,
      (mem_timesOf_of_perm hdns hproxy).mp h.last_mem,
      h.userCount.trans (hproxy.filterMap userOf).length_eq,
      h.tokenVolume.trans (hproxy.map ProxyEntry.bytes).sum_eq, fun source => ?_⟩
    rw [h.sources, ne_eq, ne_eq, ← List.length_eq_zero_iff, ← List.length_eq_zero_iff,
      hdns.length_eq, hproxy.length_eq, List.length_eq_zero_iff, List.length_eq_zero_iff]

/-! ### Exact records -/

/-- Where all times are the same and no user comes twice, what is gathered is exact. -/
theorem GathersAll.exact (h : GathersAll dns proxy record)
    (htimes : ∀ t ∈ timesOf dns proxy, ∀ t' ∈ timesOf dns proxy, t = t')
    (husers : (proxy.filterMap userOf).Nodup) : Exact dns proxy record := by
  cases record with
  | none => exact h
  | some record =>
    refine ⟨⟨h.first_mem, fun t ht => (htimes _ h.first_mem t ht).le⟩,
      ⟨h.last_mem, fun t ht => (htimes t ht _ h.last_mem).le⟩, ?_, h.tokenVolume, h.sources⟩
    rw [husers.dedup, h.userCount]

/-- Two exact records of the same entries have the same aggregates. -/
theorem map_aggregate_of_exact {a b : Option (InventoryRecord T)} (ha : Exact dns proxy a)
    (hb : Exact dns proxy b) :
    a.map aggregate = b.map aggregate := by
  have hempty : ∀ record, ExactRecord dns proxy record → ¬ (dns = [] ∧ proxy = []) := by
    rintro record hrecord ⟨rfl, rfl⟩
    exact absurd hrecord.firstSeen.1 List.not_mem_nil
  cases a with
  | none =>
    cases b with
    | none => rfl
    | some b => exact absurd ha (hempty b hb)
  | some a =>
    cases b with
    | none => exact absurd hb (hempty a ha)
    | some b =>
      have hsources : a.sources.toFinset = b.sources.toFinset := by
        ext source
        rw [List.mem_toFinset, List.mem_toFinset, ha.sources, hb.sources]
      rw [Option.map_some, Option.map_some, aggregate, aggregate,
        ha.firstSeen.unique hb.firstSeen, ha.lastSeen.unique hb.lastSeen, ha.userCount,
        hb.userCount, ha.tokenVolume, hb.tokenVolume, hsources]

/-! ### The first entry -/

omit [LinearOrder T] in
/-- Proxy entries change no time of a record. -/
theorem exists_foldl_seeProxy (record : InventoryRecord T) (proxy : List (ProxyEntry T)) :
    ∃ record', proxy.foldl (fun record entry => some (seeProxy extractProvider record entry))
        (some record) = some record' ∧
      record'.firstSeen = record.firstSeen ∧ record'.lastSeen = record.lastSeen := by
  induction proxy generalizing record with
  | nil => exact ⟨record, rfl, rfl, rfl⟩
  | cons entry proxy ih => exact ih (seeProxy extractProvider (some record) entry)

/-- DNS entries do not change the first time of a record. -/
theorem exists_foldl_seeDns (record : InventoryRecord T) (dns : List (DNSEntry T)) :
    ∃ record', dns.foldl (fun record entry => some (seeDns extractProvider record entry))
        (some record) = some record' ∧ record'.firstSeen = record.firstSeen := by
  induction dns generalizing record with
  | nil => exact ⟨record, rfl, rfl⟩
  | cons entry dns ih => exact ih (seeDns extractProvider (some record) entry)

/-- **The first time** of a record is that of its first entry, where DNS entries come first. -/
theorem head?_timesOf {record : InventoryRecord T}
    (h : seenRecord extractProvider dns proxy = some record) :
    (timesOf dns proxy).head? = some record.firstSeen := by
  rw [seenRecord] at h
  cases dns with
  | cons entry dns =>
    obtain ⟨record', hdns, hfirst⟩ :=
      @exists_foldl_seeDns T _ extractProvider (seeDns extractProvider none entry) dns
    rw [List.foldl_cons, hdns] at h
    obtain ⟨record'', hproxy, hfirst', -⟩ :=
      @exists_foldl_seeProxy T extractProvider record' proxy
    obtain rfl := Option.some.inj (hproxy.symm.trans h)
    rw [hfirst', hfirst]
    rfl
  | nil =>
    cases proxy with
    | nil => exact absurd h (Option.some_ne_none _).symm
    | cons entry proxy =>
      obtain ⟨record', hproxy, hfirst, -⟩ :=
        @exists_foldl_seeProxy T extractProvider (seeProxy extractProvider none entry) proxy
      obtain rfl := Option.some.inj (hproxy.symm.trans h)
      rw [hfirst]
      rfl

/-- The last time of a record is that of a DNS entry, if there is one. -/
theorem lastSeen_mem {record : InventoryRecord T} (hdns : dns ≠ [])
    (h : seenRecord extractProvider dns proxy = some record) :
    record.lastSeen ∈ dns.map DNSEntry.timestamp := by
  have hgathers := @gathersAll_seenRecord T _ extractProvider dns []
  have hrecord : seenRecord extractProvider dns proxy =
      proxy.foldl (fun record entry => some (seeProxy extractProvider record entry))
        (seenRecord extractProvider dns []) := rfl
  rw [h] at hrecord
  cases hseen : seenRecord extractProvider dns [] with
  | none =>
    rw [hseen] at hgathers
    exact absurd hgathers.1 hdns
  | some record' =>
    rw [hseen] at hgathers hrecord
    obtain ⟨record'', hproxy, -, hlast⟩ := @exists_foldl_seeProxy T extractProvider record' proxy
    obtain rfl := Option.some.inj (hrecord.trans hproxy)
    rw [hlast]
    exact List.append_nil (dns.map DNSEntry.timestamp) ▸ hgathers.last_mem

theorem get_merged (dns : List (DNSEntry T)) (proxy : List (ProxyEntry T)) (service : Text) :
    Dict.get (merged extractProvider dns proxy) service =
      seenRecord extractProvider (dnsOf service dns) (proxyOf service proxy) := by
  rw [merged, get_mergeFromDiscovery]
  cases seenRecord extractProvider (dnsOf service dns) (proxyOf service proxy) with
  | none => rfl
  | some record => rfl

/-- The first times of a service in two inventories with the same aggregates. -/
theorem SameResult.head?_timesOf
    (h : SameResult (merged extractProvider dns' proxy') (merged extractProvider dns proxy))
    (service : Text) :
    (timesOf (dnsOf service dns') (proxyOf service proxy')).head? =
      (timesOf (dnsOf service dns) (proxyOf service proxy)).head? := by
  have hfirst : ∀ (dns : List (DNSEntry T)) (proxy : List (ProxyEntry T)),
      (timesOf (dnsOf service dns) (proxyOf service proxy)).head? =
        ((Dict.get (merged extractProvider dns proxy) service).map aggregate).map Prod.fst := by
    intro dns proxy
    rw [get_merged]
    have hgathers := @gathersAll_seenRecord T _ extractProvider (dnsOf service dns)
      (proxyOf service proxy)
    cases hseen : seenRecord extractProvider (dnsOf service dns) (proxyOf service proxy) with
    | none =>
      rw [hseen] at hgathers
      rw [hgathers.1, hgathers.2]
      rfl
    | some record => exact Inventory.head?_timesOf hseen
  rw [hfirst, hfirst, h service]

/-- **Aggregation** is exact and does not depend on orders and splits if and only if all entries of
a service have the same time and no user comes twice. -/
theorem aggregated_iff (extractProvider : Text → Option Text) (dns : List (DNSEntry T))
    (proxy : List (ProxyEntry T)) :
    Aggregated extractProvider dns proxy ↔ Steady dns proxy := by
  constructor
  · intro h service
    have hexact := h.exact service
    have hgathers := @gathersAll_merged T _ extractProvider dns proxy service
    rw [get_merged] at hexact hgathers
    cases hseen : seenRecord extractProvider (dnsOf service dns) (proxyOf service proxy) with
    | none =>
      rw [hseen] at hexact
      obtain ⟨hdns, hproxy⟩ : dnsOf service dns = [] ∧ proxyOf service proxy = [] := hexact
      rw [hdns, hproxy]
      exact ⟨fun _ ht => absurd ht List.not_mem_nil, List.nodup_nil⟩
    | some record =>
      rw [hseen] at hexact hgathers
      have hhead := head?_timesOf hseen
      have hdns : ∀ entry ∈ dnsOf service dns, entry.timestamp = record.firstSeen := by
        intro entry hentry
        obtain ⟨hmem, hkey⟩ := List.mem_filter.mp hentry
        -- this entry may come first
        obtain ⟨before, behind, rfl⟩ := List.append_of_mem hmem
        have hsame := (h.perm (entry :: (before ++ behind)) proxy List.perm_middle.symm
          (List.Perm.refl _)).head?_timesOf service
        have hfront : dnsOf service (entry :: (before ++ behind)) =
            entry :: dnsOf service (before ++ behind) := List.filter_cons_of_pos hkey
        rw [hhead, hfront] at hsame
        exact Option.some.inj hsame
      have hproxy : dnsOf service dns = [] → ∀ entry ∈ proxyOf service proxy,
          entry.timestamp = record.firstSeen := by
        intro hnone entry hentry
        obtain ⟨hmem, hkey⟩ := List.mem_filter.mp hentry
        obtain ⟨before, behind, rfl⟩ := List.append_of_mem hmem
        have hsame := (h.perm dns (entry :: (before ++ behind)) (List.Perm.refl _)
          List.perm_middle.symm).head?_timesOf service
        have hfront : proxyOf service (entry :: (before ++ behind)) =
            entry :: proxyOf service (before ++ behind) := List.filter_cons_of_pos hkey
        rw [hhead, hnone, hfront] at hsame
        exact Option.some.inj hsame
      have htimes : ∀ t ∈ timesOf (dnsOf service dns) (proxyOf service proxy),
          t = record.firstSeen := by
        intro t ht
        by_cases hnone : dnsOf service dns = []
        · rw [timesOf, hnone] at ht
          obtain ⟨entry, hentry, rfl⟩ := List.mem_map.mp ht
          exact hproxy hnone entry hentry
        · obtain ⟨entry, hentry, hlast⟩ := List.mem_map.mp (lastSeen_mem hnone hseen)
          have hle : t ≤ record.lastSeen := hexact.lastSeen.2 ht
          rw [← hlast, hdns entry hentry] at hle
          exact hle.antisymm (hexact.firstSeen.2 ht)
      refine ⟨fun t ht t' ht' => (htimes t ht).trans (htimes t' ht').symm, ?_⟩
      have hlength := hgathers.userCount.symm.trans hexact.userCount
      exact List.dedup_eq_self.mp ((List.dedup_sublist _).eq_of_length hlength.symm)
  · intro h
    have hexact : ∀ dns' proxy' service, dns'.Perm dns → proxy'.Perm proxy →
        ∀ record, GathersAll (dnsOf service dns') (proxyOf service proxy') record →
          Exact (dnsOf service dns) (proxyOf service proxy) record :=
      fun dns' proxy' service hdns hproxy record hrecord =>
        (hrecord.of_perm (hdns.filter _) (hproxy.filter _)).exact (h service).1 (h service).2
    have hmerged : ∀ service, Exact (dnsOf service dns) (proxyOf service proxy)
        (Dict.get (merged extractProvider dns proxy) service) := fun service =>
      hexact dns proxy service (List.Perm.refl _) (List.Perm.refl _) _ (gathersAll_merged _ _ _)
    refine ⟨hmerged, fun dns' proxy' hdns hproxy service => ?_,
      fun batches hdns hproxy service => ?_⟩
    · exact map_aggregate_of_exact
        (hexact dns' proxy' service hdns hproxy _ (gathersAll_merged _ _ _)) (hmerged service)
    · refine map_aggregate_of_exact (hexact dns proxy service (List.Perm.refl _)
        (List.Perm.refl _) _ ?_) (hmerged service)
      have hall := @gathersAll_mergeAll T _ extractProvider batches service
      rw [hdns, hproxy] at hall
      exact hall

end

/-! ### Some entries -/

/-- A proxy entry of the user `u`. -/
def proxyEntry (time : ℕ) : ProxyEntry ℕ := ⟨"http://a/".toList, time, 1, some "u".toList⟩

/-- **An earlier entry that comes later**, and a user with two entries: the first time is not the
least, a later proxy entry is not the last time and the user counts twice. -/
theorem not_aggregated :
    (Dict.get (merged (fun _ => none) [⟨"a".toList, 5⟩, ⟨"a".toList, 3⟩]
        [proxyEntry 7, proxyEntry 8]) "a".toList).map
      (fun record => (record.firstSeen, record.lastSeen, record.userCount)) = some (5, 5, 2) ∧
      ¬ ∀ (extractProvider : Text → Option Text) (dns : List (DNSEntry ℕ))
        (proxy : List (ProxyEntry ℕ)), Aggregated extractProvider dns proxy := by
  refine ⟨by decide +kernel, fun h => ?_⟩
  have hexact := (h (fun _ => none) [] [proxyEntry 7, proxyEntry 7]).exact "a".toList
  rw [get_merged] at hexact
  exact absurd hexact.userCount (by decide +kernel)

end AnonReq.Discovery.Inventory
