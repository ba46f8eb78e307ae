import AnonReq.Discovery.Allowlist
import AnonReq.Discovery.DnsParser
import AnonReq.Foundation.Grouping
import AnonReq.Foundation.Runs

/-!
# Merging DNS and proxy entries

`discovery/hostname_matcher.py` and `discovery/dedup_merge.py`: the entries whose hostname is known
are grouped by provider and hostname, and a record is made of each group. Comparing a time with a
zone to one without raises, and so does sorting addresses that are no texts, unless they can be
compared. `urlparse` is a parameter.

* `merge_eq`: entries whose times and addresses can be compared are merged without an exception.
* `perm_mergeRecords`: the records do not depend on the order of the entries.
-/

namespace AnonReq.Discovery

open Glob (fnmatch)

/-! ### The matcher -/

/-- `HostnameMatcher`. -/
structure HostnameMatcher where
  signatures : List Signature

namespace HostnameMatcher

/-- `MatchResult` of the matcher. -/
structure MatchResult where
  provider : Text
  confidence : ℚ
  matchType : Text
  signature : Signature

/-- `match`. -/
def matchName (matcher : HostnameMatcher) (L : LowerCase) (hostname : Text) : Option MatchResult :=
  let hostname := L.lower hostname
  match findPattern matcher.signatures fun pattern =>
      decide (hostname = cleanPattern L pattern) with
  | some sig => some ⟨sig.provider, 1, "exact".toList, sig⟩
  | none =>
    (findPattern matcher.signatures fun pattern => fnmatch hostname (L.lower pattern)).map
      fun sig => ⟨sig.provider, 95 / 100, "wildcard".toList, sig⟩

end HostnameMatcher

/-! ### Entries -/

/-- `ProxyEntry`, what the merge reads of it. -/
structure ProxyEntry (T : Type) where
  sourceIp : Text
  timestamp : Timestamp T
  url : Text
  bytes : ℤ

/-- What the merge takes from its runtime. -/
structure MergeRuntime (T : Type) extends LogRuntime T where
  /-- `urlparse(url).hostname`; `none` where it raises. -/
  urlHostname : Text → Option (Option Text)
  /-- `sorted` of the set of some documents that are not all texts; `none` where it raises, or one
  of them is not hashable. -/
  sortedOther : List Json → Option (List Json)

/-- What an entry says about its group. -/
structure Sighting (T : Type) where
  source : Text
  provider : Text
  hostname : Text
  sourceIp : Json
  timestamp : Timestamp T
  tokens : ℤ

/-- The key of the group. -/
def Sighting.key {T : Type} (s : Sighting T) : Text × Text := (s.provider, s.hostname)

/-- A group. A set is the list of what was added to it. -/
structure Info (T : Type) where
  serviceName : Text
  provider : Text
  sources : List Text
  hostnames : List Text
  ipAddresses : List Json
  firstSeen : Timestamp T
  lastSeen : Timestamp T
  totalRequests : ℕ
  users : List Json
  estimatedTokenVolume : ℤ

/-- `MergedRecord`. -/
structure MergedRecord (T : Type) where
  serviceName : Text
  provider : Text
  sources : List Text
  hostnames : List Text
  ipAddresses : List Json
  firstSeen : Timestamp T
  lastSeen : Timestamp T
  totalRequests : ℕ
  totalUsers : ℕ
  estimatedTokenVolume : ℤ

variable {T : Type}

/-- A new group. -/
def Info.start (s : Sighting T) : Info T where
  serviceName := s.hostname
  provider := s.provider
  sources := []
  hostnames := []
  ipAddresses := []
  firstSeen := s.timestamp
  lastSeen := s.timestamp
  totalRequests := 0
  users := []
  estimatedTokenVolume := 0

/-- `sorted` of a set of texts. -/
def sortedTexts (texts : List Text) : List Text := texts.dedup.insertionSort (· ≤ ·)

/-- The text that a document is. -/
def asText : Json → Option Text
  | .text s => some s
  | _ => none

namespace MergeRuntime

variable (R : MergeRuntime T)

/-- `sorted` of a set of addresses. -/
def sortedAddresses (addresses : List Json) : Option (List Json) :=
  match addresses.mapM asText with
  | some texts => some ((sortedTexts texts).map .text)
  | none => R.sortedOther addresses

/-- What a DNS entry adds, if its hostname is known. -/
def dnsSighting (matcher : HostnameMatcher) (entry : DnsEntry T) : Option (Sighting T) :=
  (matcher.matchName R.lower entry.hostname).map fun found =>
    { source := "dns".toList
      provider := found.provider
      hostname := entry.hostname
      sourceIp := entry.sourceIp
      timestamp := entry.timestamp
      tokens := 0 }

/-- What a proxy entry adds, if its hostname is known; `none` where its URL cannot be read. -/
def proxySighting (matcher : HostnameMatcher) (entry : ProxyEntry T) :
    Option (Option (Sighting T)) :=
  (R.urlHostname entry.url).map fun hostname =>
    let hostname := hostname.getD []
    (matcher.matchName R.lower hostname).map fun found =>
      { source := "proxy".toList
        provider := found.provider
        hostname := hostname
        sourceIp := .text entry.sourceIp
        timestamp := entry.timestamp
        tokens := entry.bytes / 4 }

/-- The record of a group. -/
def record (info : Info T) : Option (MergedRecord T) := do
  let ipAddresses ← R.sortedAddresses info.ipAddresses
  let users ← R.sortedAddresses info.users
  some
    { serviceName := info.serviceName
      provider := info.provider
      sources := sortedTexts info.sources
      hostnames := sortedTexts info.hostnames
      ipAddresses := ipAddresses
      firstSeen := info.firstSeen
      lastSeen := info.lastSeen
      totalRequests := info.totalRequests
      totalUsers := users.length
      estimatedTokenVolume := info.estimatedTokenVolume }

end MergeRuntime

/-! ### The merge -/

variable [LinearOrder T]

/-- `a < b`, which raises for a time with a zone and one without. -/
def Timestamp.lt? (a b : Timestamp T) : Option Bool :=
  if a.zoned = b.zoned then some (decide (a.time < b.time)) else none

/-- What an entry changes in its group. -/
def Info.see (info : Info T) (s : Sighting T) : Option (Info T) := do
  let earlier ← s.timestamp.lt? info.firstSeen
  let later ← info.lastSeen.lt? s.timestamp
  some
    { info with
      sources := info.sources ++ [s.source]
      hostnames := info.hostnames ++ [s.hostname]
      ipAddresses := info.ipAddresses ++ [s.sourceIp]
      firstSeen := if earlier then s.timestamp else info.firstSeen
      lastSeen := if later then s.timestamp else info.lastSeen
      totalRequests := info.totalRequests + 1
      users := info.users ++ [s.sourceIp]
      estimatedTokenVolume := info.estimatedTokenVolume + s.tokens }

/-- The groups by provider and hostname. -/
abbrev Groups (T : Type) := List ((Text × Text) × Info T)

/-- One sighting. -/
def observe : Groups T → Sighting T → Option (Groups T) :=
  Grouping.insertM Sighting.key Info.start Info.see

/-- `records.sort(key=lambda r: r.last_seen, reverse=True)`. -/
def sortByLastSeen (records : List (MergedRecord T)) : Option (List (MergedRecord T)) :=
  if ∀ a ∈ records, ∀ b ∈ records, a.lastSeen.zoned = b.lastSeen.zoned then
    some (records.insertionSort fun a b => b.lastSeen.time ≤ a.lastSeen.time)
  else none

namespace MergeRuntime

variable (R : MergeRuntime T)

/-- One turn of the loop over the DNS entries. -/
def mergeDns (matcher : HostnameMatcher) (groups : Groups T) (entry : DnsEntry T) :
    Option (Groups T) :=
  match R.dnsSighting matcher entry with
  | none => some groups
  | some s => observe groups s

/-- One turn of the loop over the proxy entries. -/
def mergeProxy (matcher : HostnameMatcher) (groups : Groups T) (entry : ProxyEntry T) :
    Option (Groups T) :=
  match R.proxySighting matcher entry with
  | none => none
  | some none => some groups
  | some (some s) => observe groups s

/-- `DedupMerge.merge`; `none` where it raises. -/
def merge (matcher : HostnameMatcher) (dnsEntries : List (DnsEntry T))
    (proxyEntries : List (ProxyEntry T)) : Option (List (MergedRecord T)) := do
  let groups ← dnsEntries.foldlM (R.mergeDns matcher) []
  let groups ← proxyEntries.foldlM (R.mergeProxy matcher) groups
  let records ← groups.mapM fun e => R.record e.2
  sortByLastSeen records

end MergeRuntime

/-! ### Entries that can be compared -/

/-- The address is a text, and the time has a zone or not, as expected. -/
def Sighting.Fits (zoned : Bool) (s : Sighting T) : Prop :=
  IsText s.sourceIp ∧ s.timestamp.zoned = zoned

/-- The same of a group. -/
structure Info.Fits (zoned : Bool) (info : Info T) : Prop where
  ipAddresses : ∀ a ∈ info.ipAddresses, IsText a
  users : ∀ a ∈ info.users, IsText a
  firstSeen : info.firstSeen.zoned = zoned
  lastSeen : info.lastSeen.zoned = zoned

/-- The earlier time. -/
def Timestamp.earlier (a b : Timestamp T) : Timestamp T := if b.time < a.time then b else a

/-- The later time. -/
def Timestamp.later (a b : Timestamp T) : Timestamp T := if a.time < b.time then b else a

/-- What an entry changes in its group, where nothing raises. -/
def Info.add (info : Info T) (s : Sighting T) : Info T :=
  { info with
    sources := info.sources ++ [s.source]
    hostnames := info.hostnames ++ [s.hostname]
    ipAddresses := info.ipAddresses ++ [s.sourceIp]
    firstSeen := info.firstSeen.earlier s.timestamp
    lastSeen := info.lastSeen.later s.timestamp
    totalRequests := info.totalRequests + 1
    users := info.users ++ [s.sourceIp]
    estimatedTokenVolume := info.estimatedTokenVolume + s.tokens }

theorem Timestamp.zoned_earlier {a b : Timestamp T} (h : a.zoned = b.zoned) :
    (a.earlier b).zoned = b.zoned := by
  rw [earlier]
  split_ifs
  · rfl
  · exact h

theorem Timestamp.zoned_later {a b : Timestamp T} (h : a.zoned = b.zoned) :
    (a.later b).zoned = b.zoned := by
  rw [later]
  split_ifs
  · rfl
  · exact h

variable {zoned : Bool}

omit [LinearOrder T] in
theorem Info.fits_start {s : Sighting T} (h : s.Fits zoned) :
    (Info.start s).Fits zoned where
  ipAddresses _ ha := absurd ha List.not_mem_nil
  users _ ha := absurd ha List.not_mem_nil
  firstSeen := h.2
  lastSeen := h.2

/-- An entry that fits a group is added to it. -/
theorem Info.see_eq {info : Info T} {s : Sighting T} (hs : s.Fits zoned) (hinfo : info.Fits zoned) :
    info.see s = some (info.add s) ∧ (info.add s).Fits zoned := by
  have hfirst : s.timestamp.zoned = info.firstSeen.zoned := hs.2.trans hinfo.firstSeen.symm
  have hlast : info.lastSeen.zoned = s.timestamp.zoned := hinfo.lastSeen.trans hs.2.symm
  refine ⟨?_, ?_, ?_, ?_, ?_⟩
  · simp [see, add, Timestamp.lt?, Timestamp.earlier, Timestamp.later, hfirst, hlast]
  · exact fun a ha => (List.mem_append.mp ha).elim (hinfo.ipAddresses a)
      fun ha => List.mem_singleton.mp ha ▸ hs.1
  · exact fun a ha => (List.mem_append.mp ha).elim (hinfo.users a)
      fun ha => List.mem_singleton.mp ha ▸ hs.1
  · exact (Timestamp.zoned_earlier hfirst.symm).trans hs.2
  · exact (Timestamp.zoned_later hlast).trans hs.2

/-- The groups of some sightings, where nothing raises. -/
def groupsOf (sightings : List (Sighting T)) : Groups T :=
  Grouping.groups Sighting.key Info.start Info.add sightings

/-- Sightings that fit are all taken in. -/
theorem foldlM_observe {sightings : List (Sighting T)} (h : ∀ s ∈ sightings, s.Fits zoned) :
    sightings.foldlM observe [] = some (groupsOf sightings) ∧
      ∀ e ∈ groupsOf sightings, e.2.Fits zoned :=
  Grouping.foldlM_insertM (fun s hs => Info.fits_start (h s hs)) fun s hs _ hinfo =>
    Info.see_eq (h s hs) hinfo

/-! ### What a group is -/

/-- A group after some sightings. -/
theorem Info.foldl_add (info : Info T) (items : List (Sighting T)) :
    items.foldl add info =
      { info with
        sources := info.sources ++ items.map Sighting.source
        hostnames := info.hostnames ++ items.map Sighting.hostname
        ipAddresses := info.ipAddresses ++ items.map Sighting.sourceIp
        firstSeen := (items.map Sighting.timestamp).foldl Timestamp.earlier info.firstSeen
        lastSeen := (items.map Sighting.timestamp).foldl Timestamp.later info.lastSeen
        totalRequests := info.totalRequests + items.length
        users := info.users ++ items.map Sighting.sourceIp
        estimatedTokenVolume := info.estimatedTokenVolume + (items.map Sighting.tokens).sum } := by
  induction items generalizing info with
  | nil => simp
  | cons s items ih =>
    rw [List.foldl_cons, ih]
    simp [add, Nat.add_comm, add_assoc]

omit [LinearOrder T] in
theorem Timestamp.eq_of_time_eq {times : List (Timestamp T)} (h : ∀ t ∈ times, t.zoned = zoned) :
    ∀ a ∈ times, ∀ b ∈ times, a.time = b.time → a = b :=
  fun a ha b hb htime => Timestamp.ext ((h a ha).trans (h b hb).symm) htime

/-- The earliest time does not depend on the order of the times. -/
theorem Timestamp.foldl_earlier_eq {times times' : List (Timestamp T)} (hperm : times.Perm times')
    (h : ∀ t ∈ times, t.zoned = zoned) {first first' : Timestamp T} (hfirst : first ∈ times)
    (hfirst' : first' ∈ times') :
    times.foldl earlier first = times'.foldl earlier first' :=
  Grouping.foldl_least_eq_of_perm hperm (Timestamp.eq_of_time_eq h) hfirst hfirst'

/-- The latest time is the earliest one of the reversed order. -/
theorem Timestamp.foldl_later_eq {times times' : List (Timestamp T)} (hperm : times.Perm times')
    (h : ∀ t ∈ times, t.zoned = zoned) {first first' : Timestamp T} (hfirst : first ∈ times)
    (hfirst' : first' ∈ times') :
    times.foldl later first = times'.foldl later first' :=
  @Grouping.foldl_least_eq_of_perm (Timestamp T) Tᵒᵈ _ (fun t => OrderDual.toDual t.time) _ _ hperm
    (Timestamp.eq_of_time_eq h) _ _ hfirst hfirst'

/-- A sorted set does not depend on the order in which it was filled. -/
theorem sortedTexts_eq_of_perm {texts texts' : List Text} (h : texts.Perm texts') :
    sortedTexts texts = sortedTexts texts' := by
  have hperm : (sortedTexts texts).Perm (sortedTexts texts') :=
    (List.perm_insertionSort _ _).trans (h.dedup.trans (List.perm_insertionSort _ _).symm)
  exact hperm.eq_of_sortedLE List.sortedLE_insertionSort List.sortedLE_insertionSort

/-- The record of a group whose addresses are texts. -/
def Info.toRecord (info : Info T) : MergedRecord T where
  serviceName := info.serviceName
  provider := info.provider
  sources := sortedTexts info.sources
  hostnames := sortedTexts info.hostnames
  ipAddresses := (sortedTexts (info.ipAddresses.filterMap asText)).map .text
  firstSeen := info.firstSeen
  lastSeen := info.lastSeen
  totalRequests := info.totalRequests
  totalUsers := (sortedTexts (info.users.filterMap asText)).length
  estimatedTokenVolume := info.estimatedTokenVolume

/-- **A record** does not depend on the order of the sightings of its group. -/
theorem map_toRecord_summary_eq {k : Text × Text} {items items' : List (Sighting T)}
    (hperm : items.Perm items') (hkey : ∀ s ∈ items, s.key = k)
    (hfits : ∀ s ∈ items, s.Fits zoned) :
    (Grouping.summary Info.start Info.add items).map Info.toRecord =
      (Grouping.summary Info.start Info.add items').map Info.toRecord := by
  cases items with
  | nil => rw [hperm.nil_eq]
  | cons s items =>
    cases items' with
    | nil => exact absurd hperm.eq_nil (List.cons_ne_nil s items)
    | cons s' items' =>
      have hs' : s' ∈ s :: items := hperm.mem_iff.mpr List.mem_cons_self
      have hsame : s.key = s'.key := (hkey s List.mem_cons_self).trans (hkey s' hs').symm
      have htimes : ∀ t ∈ (s :: items).map Sighting.timestamp, t.zoned = zoned := by
        intro t ht
        obtain ⟨seen, hseen, rfl⟩ := List.mem_map.mp ht
        exact (hfits seen hseen).2
      have hfirst := Timestamp.foldl_earlier_eq (hperm.map Sighting.timestamp) htimes
        (List.mem_map_of_mem List.mem_cons_self) (List.mem_map_of_mem List.mem_cons_self)
      have hlast := Timestamp.foldl_later_eq (hperm.map Sighting.timestamp) htimes
        (List.mem_map_of_mem List.mem_cons_self) (List.mem_map_of_mem List.mem_cons_self)
      have haddresses := (hperm.map Sighting.sourceIp).filterMap asText
      -- the first sighting names the group, and all have the name in their key
      have hkeys : s.provider = s'.provider ∧ s.hostname = s'.hostname := Prod.mk.inj hsame
      simp only [Grouping.summary, List.head?_cons, Option.map_some, Info.foldl_add, Info.start,
        Info.toRecord, List.nil_append, zero_add]
      rw [hfirst, hlast, sortedTexts_eq_of_perm (hperm.map Sighting.source),
        sortedTexts_eq_of_perm (hperm.map Sighting.hostname), sortedTexts_eq_of_perm haddresses,
        hperm.length_eq, (hperm.map Sighting.tokens).sum_eq, hkeys.1, hkeys.2]

/-! ### What is merged -/

namespace MergeRuntime

variable {R : MergeRuntime T} {matcher : HostnameMatcher}

/-- What the entries add, one after the other. -/
def sightings (R : MergeRuntime T) (matcher : HostnameMatcher) (dnsEntries : List (DnsEntry T))
    (proxyEntries : List (ProxyEntry T)) : List (Sighting T) :=
  dnsEntries.filterMap (R.dnsSighting matcher) ++
    proxyEntries.filterMap fun entry => (R.proxySighting matcher entry).join

/-- The URLs can be read, the addresses of the entries with a known hostname are texts, and their
times have all a zone or all none. -/
structure Mergeable (R : MergeRuntime T) (matcher : HostnameMatcher)
    (dnsEntries : List (DnsEntry T)) (proxyEntries : List (ProxyEntry T)) : Prop where
  readable : ∀ entry ∈ proxyEntries, (R.urlHostname entry.url).isSome
  fits : ∃ zoned, ∀ s ∈ R.sightings matcher dnsEntries proxyEntries, s.Fits zoned

/-- The records of the groups. -/
def mergeRecords (R : MergeRuntime T) (matcher : HostnameMatcher) (dnsEntries : List (DnsEntry T))
    (proxyEntries : List (ProxyEntry T)) : List (MergedRecord T) :=
  ((groupsOf (R.sightings matcher dnsEntries proxyEntries)).map fun e =>
    e.2.toRecord).insertionSort fun a b => b.lastSeen.time ≤ a.lastSeen.time

theorem foldlM_mergeDns (dnsEntries : List (DnsEntry T)) (groups : Groups T) :
    dnsEntries.foldlM (R.mergeDns matcher) groups =
      (dnsEntries.filterMap (R.dnsSighting matcher)).foldlM observe groups := by
  induction dnsEntries generalizing groups with
  | nil => rfl
  | cons entry dnsEntries ih =>
    rw [List.foldlM_cons, mergeDns]
    rcases hs : R.dnsSighting matcher entry with _ | s
    · rw [List.filterMap_cons_none hs]
      exact ih groups
    · rw [List.filterMap_cons_some hs, List.foldlM_cons]
      exact congrArg _ (funext ih)

theorem foldlM_mergeProxy {proxyEntries : List (ProxyEntry T)}
    (h : ∀ entry ∈ proxyEntries, (R.urlHostname entry.url).isSome) (groups : Groups T) :
    proxyEntries.foldlM (R.mergeProxy matcher) groups =
      (proxyEntries.filterMap fun entry => (R.proxySighting matcher entry).join).foldlM observe
        groups := by
  induction proxyEntries generalizing groups with
  | nil => rfl
  | cons entry proxyEntries ih =>
    obtain ⟨hread, hrest⟩ := List.forall_mem_cons.mp h
    rw [List.foldlM_cons, mergeProxy]
    rcases hs : R.proxySighting matcher entry with _ | _ | s
    · rw [proxySighting, Option.map_eq_none_iff] at hs
      rw [hs] at hread
      exact absurd hread Bool.false_ne_true
    · rw [List.filterMap_cons_none (by rw [hs]; rfl)]
      exact ih hrest groups
    · rw [List.filterMap_cons_some (by rw [hs]; rfl), List.foldlM_cons]
      exact congrArg _ (funext (ih hrest))

/-- The texts of some addresses. -/
theorem mapM_asText {addresses : List Json} (h : ∀ a ∈ addresses, IsText a) :
    addresses.mapM asText = some (addresses.filterMap asText) := by
  have htext : ∀ a ∈ addresses, asText a = some ((asText a).getD []) := by
    intro a ha
    obtain ⟨s, rfl⟩ := h a ha
    rfl
  rw [Runs.mapM_eq_some_map htext, List.filterMap_eq_map_iff_forall_eq_some.mpr htext]

omit [LinearOrder T] in
/-- A group that fits has a record. -/
theorem record_eq {info : Info T} (h : info.Fits zoned) : R.record info = some info.toRecord := by
  simp [record, sortedAddresses, mapM_asText h.ipAddresses, mapM_asText h.users, Info.toRecord]

omit [LinearOrder T] in
/-- The records of groups that fit. -/
theorem mapM_record {groups : Groups T} (h : ∀ e ∈ groups, e.2.Fits zoned) :
    (groups.mapM fun e => R.record e.2) = some (groups.map fun e => e.2.toRecord) :=
  Runs.mapM_eq_some_map fun e he => record_eq (h e he)

/-- Records whose times can be compared are sorted. -/
theorem sortByLastSeen_eq {records : List (MergedRecord T)}
    (h : ∀ r ∈ records, r.lastSeen.zoned = zoned) :
    sortByLastSeen records =
      some (records.insertionSort fun a b => b.lastSeen.time ≤ a.lastSeen.time) :=
  if_pos fun a ha b hb => (h a ha).trans (h b hb).symm

/-- **A merge** of entries whose times and addresses can be compared raises nothing. -/
theorem merge_eq {dnsEntries : List (DnsEntry T)} {proxyEntries : List (ProxyEntry T)}
    (h : R.Mergeable matcher dnsEntries proxyEntries) :
    R.merge matcher dnsEntries proxyEntries =
      some (R.mergeRecords matcher dnsEntries proxyEntries) := by
  obtain ⟨zoned, hfits⟩ := h.fits
  obtain ⟨hfold, hgroups⟩ := foldlM_observe hfits
  have hloops : (dnsEntries.foldlM (R.mergeDns matcher) [] >>= fun groups =>
      proxyEntries.foldlM (R.mergeProxy matcher) groups) =
        some (groupsOf (R.sightings matcher dnsEntries proxyEntries)) := by
    rw [← hfold, sightings, List.foldlM_append, foldlM_mergeDns]
    exact congrArg _ (funext fun groups => foldlM_mergeProxy h.readable groups)
  -- all groups have times of one kind, so that their records can be sorted
  have hzoned : ∀ r ∈ (groupsOf (R.sightings matcher dnsEntries proxyEntries)).map
      (fun e => e.2.toRecord), r.lastSeen.zoned = zoned := by
    intro r hr
    obtain ⟨e, he, rfl⟩ := List.mem_map.mp hr
    exact (hgroups e he).lastSeen
  calc R.merge matcher dnsEntries proxyEntries
      = ((dnsEntries.foldlM (R.mergeDns matcher) [] >>= fun groups =>
          proxyEntries.foldlM (R.mergeProxy matcher) groups) >>= fun groups =>
            (groups.mapM fun e => R.record e.2) >>= sortByLastSeen) := by rw [bind_assoc]; rfl
    _ = ((groupsOf (R.sightings matcher dnsEntries proxyEntries)).mapM fun e =>
          R.record e.2) >>= sortByLastSeen := by rw [hloops]; rfl
    _ = sortByLastSeen ((groupsOf (R.sightings matcher dnsEntries proxyEntries)).map fun e =>
          e.2.toRecord) := by rw [mapM_record hgroups]; rfl
    _ = some (R.mergeRecords matcher dnsEntries proxyEntries) := sortByLastSeen_eq hzoned

omit [LinearOrder T] in
/-- The order of the entries makes no difference to what they add. -/
theorem perm_sightings {dnsEntries dnsEntries' : List (DnsEntry T)}
    {proxyEntries proxyEntries' : List (ProxyEntry T)} (hdns : dnsEntries.Perm dnsEntries')
    (hproxy : proxyEntries.Perm proxyEntries') :
    (R.sightings matcher dnsEntries proxyEntries).Perm
      (R.sightings matcher dnsEntries' proxyEntries') :=
  (hdns.filterMap (R.dnsSighting matcher)).append
    (hproxy.filterMap fun entry => (R.proxySighting matcher entry).join)

omit [LinearOrder T] in
theorem Mergeable.of_perm {dnsEntries dnsEntries' : List (DnsEntry T)}
    {proxyEntries proxyEntries' : List (ProxyEntry T)}
    (h : R.Mergeable matcher dnsEntries proxyEntries) (hdns : dnsEntries.Perm dnsEntries')
    (hproxy : proxyEntries.Perm proxyEntries') : R.Mergeable matcher dnsEntries' proxyEntries' := by
  obtain ⟨zoned, hfits⟩ := h.fits
  refine ⟨fun entry hentry => h.readable entry (hproxy.mem_iff.mpr hentry), zoned, fun s hs => ?_⟩
  exact hfits s ((perm_sightings hdns hproxy).mem_iff.mpr hs)

/-- **The order of the entries** makes no difference to the records. -/
theorem perm_mergeRecords {dnsEntries dnsEntries' : List (DnsEntry T)}
    {proxyEntries proxyEntries' : List (ProxyEntry T)}
    (h : R.Mergeable matcher dnsEntries proxyEntries) (hdns : dnsEntries.Perm dnsEntries')
    (hproxy : proxyEntries.Perm proxyEntries') :
    (R.mergeRecords matcher dnsEntries proxyEntries).Perm
      (R.mergeRecords matcher dnsEntries' proxyEntries') := by
  obtain ⟨zoned, hfits⟩ := h.fits
  refine (List.perm_insertionSort _ _).trans (List.Perm.trans ?_ (List.perm_insertionSort _ _).symm)
  refine @Grouping.perm_map_groups _ _ _ _ Sighting.key Info.start Info.add _
    (fun _ => Info.toRecord) _ _ fun k => ?_
  have hkey : ∀ s ∈ (R.sightings matcher dnsEntries proxyEntries).filter fun s => s.key = k,
      s.key = k := fun s hs => of_decide_eq_true (List.mem_filter.mp hs).2
  have hgroup : ∀ s ∈ (R.sightings matcher dnsEntries proxyEntries).filter fun s => s.key = k,
      s.Fits zoned := fun s hs => hfits s (List.mem_filter.mp hs).1
  exact map_toRecord_summary_eq ((perm_sightings hdns hproxy).filter _) hkey hgroup

/-- **Discovery.** Lines that are typed as expected are read without an exception, up to the batch
limit, and entries whose times and addresses can be compared are merged without one, into records
that do not depend on the order of the entries. -/
theorem parse_and_merge (R : MergeRuntime T) :
    (∀ (maxBatchSize : ℤ) (lines : List (T × Text)) (format : Text),
      (∀ line ∈ lines, LogRuntime.ReadAsJson format line.2 → R.WellTyped line.2.strip) →
        R.parseBatch maxBatchSize lines format =
          .ok ((lines.filterMap (R.accepted format)).take maxBatchSize.toNat)) ∧
    ∀ (matcher : HostnameMatcher) (dnsEntries : List (DnsEntry T))
      (proxyEntries : List (ProxyEntry T)), R.Mergeable matcher dnsEntries proxyEntries →
        ∃ records, R.merge matcher dnsEntries proxyEntries = some records ∧
          ∀ dnsEntries' proxyEntries', dnsEntries.Perm dnsEntries' →
            proxyEntries.Perm proxyEntries' →
              ∃ records', R.merge matcher dnsEntries' proxyEntries' = some records' ∧
                records.Perm records' := by
  refine ⟨fun maxBatchSize lines format h => R.parseBatch_eq h,
    fun matcher dnsEntries proxyEntries h => ⟨_, merge_eq h, ?_⟩⟩
  intro dnsEntries' proxyEntries' hdns hproxy
  exact ⟨_, merge_eq (h.of_perm hdns hproxy), perm_mergeRecords h hdns hproxy⟩

/-! ### Examples -/

/-- A JSON line. -/
def exampleLine : Text :=
  "\x7b\"query\": \"api.openai.com\", \"src_ip\": \"10.0.0.1\", ".toList ++
    "\"timestamp\": \"2026-06-20T10:00:00Z\"\x7d".toList

/-- A runtime that knows the JSON line, its time and one URL. -/
def exampleRuntime : MergeRuntime ℕ where
  lower := asciiLower
  unicode := .ascii
  repr text := '\'' :: text ++ ['\'']
  loads line :=
    if line = exampleLine then
      .ok (.object
        [("query".toList, .text "api.openai.com".toList),
          ("src_ip".toList, .text "10.0.0.1".toList),
          ("timestamp".toList, .text "2026-06-20T10:00:00Z".toList)])
    else .error .decode
  fromisoformat text :=
    if text = "2026-06-20T10:00:00+00:00".toList then some ⟨true, 0⟩ else none
  strptime _ _ := none
  loads_nil := rfl
  urlHostname url :=
    if url = "https://api.openai.com/v1".toList then some (some "api.openai.com".toList)
    else some none
  sortedOther _ := none

/-- A matcher of one provider. -/
def exampleMatcher : HostnameMatcher := ⟨[signature "openai" ["api.openai.com"]]⟩

/-- The entry of the JSON line, and one of the proxy. -/
def exampleEntry : DnsEntry ℕ where
  hostname := "api.openai.com".toList
  sourceIp := .text "10.0.0.1".toList
  timestamp := ⟨true, 0⟩

def exampleProxyEntry : ProxyEntry ℕ where
  sourceIp := "10.0.0.2".toList
  timestamp := ⟨true, 7⟩
  url := "https://api.openai.com/v1".toList
  bytes := 4096

theorem wellTyped_exampleLine : exampleRuntime.WellTyped exampleLine :=
  ⟨fun _ => ⟨_, rfl⟩, fun _ _ => ⟨⟨_, rfl⟩, ⟨_, rfl⟩⟩⟩

theorem mergeable_example :
    exampleRuntime.Mergeable exampleMatcher [exampleEntry] [exampleProxyEntry] where
  readable := List.forall_mem_singleton.mpr rfl
  fits := by
    have hsightings : exampleRuntime.sightings exampleMatcher [exampleEntry] [exampleProxyEntry] =
        [⟨"dns".toList, "openai".toList, "api.openai.com".toList, .text "10.0.0.1".toList,
            ⟨true, 0⟩, 0⟩,
          ⟨"proxy".toList, "openai".toList, "api.openai.com".toList, .text "10.0.0.2".toList,
            ⟨true, 7⟩, 1024⟩] := rfl
    refine ⟨true, ?_⟩
    rw [hsightings]
    simp [Sighting.Fits, isText_text]

theorem parse_and_merge_example :
    exampleRuntime.parseBatch defaultMaxBatchSize [(5, exampleLine), (6, "a.b".toList)]
        "auto".toList =
      .ok (([(5, exampleLine), (6, "a.b".toList)].filterMap
        (exampleRuntime.accepted "auto".toList)).take 10000) ∧
    ∃ records,
      exampleRuntime.merge exampleMatcher [exampleEntry] [exampleProxyEntry] = some records ∧
      ∀ dnsEntries' proxyEntries', [exampleEntry].Perm dnsEntries' →
        [exampleProxyEntry].Perm proxyEntries' →
          ∃ records',
            exampleRuntime.merge exampleMatcher dnsEntries' proxyEntries' = some records' ∧
              records.Perm records' := by
  refine ⟨(parse_and_merge exampleRuntime).1 _ _ _ ?_,
    (parse_and_merge exampleRuntime).2 _ _ _ mergeable_example⟩
  simp only [List.forall_mem_cons]
  refine ⟨fun _ => ?_, fun h => ?_, fun line hline => absurd hline List.not_mem_nil⟩
  · exact wellTyped_exampleLine
  · exact absurd h.2.2 (by decide)

/-- More lines than the batch limit: the last one is accepted, and its entry is missing. -/
theorem not_parseBatch_all :
    ¬∀ lines : List (ℕ × Text), exampleRuntime.parseBatch defaultMaxBatchSize lines "auto".toList =
      .ok (lines.filterMap (exampleRuntime.accepted "auto".toList)) := by
  intro h
  have hlines := h (List.replicate 10001 (0, "a.b".toList))
  have hraw : ∀ line ∈ List.replicate 10001 ((0, "a.b".toList) : ℕ × Text),
      LogRuntime.ReadAsJson "auto".toList line.2 → exampleRuntime.WellTyped line.2.strip := by
    intro line hline hjson
    obtain rfl := List.eq_of_mem_replicate hline
    exact absurd hjson.2.2 (by decide)
  rw [exampleRuntime.parseBatch_eq hraw, List.filterMap_replicate_of_some
    (show exampleRuntime.accepted "auto".toList (0, "a.b".toList) = some _ from rfl)] at hlines
  have hlength := congrArg List.length (Except.ok.inj hlines)
  rw [List.length_take, List.length_replicate] at hlength
  exact absurd hlength (by decide)

end MergeRuntime

end AnonReq.Discovery
