import AnonReq.Tokenization.Tokenizer

/-!
# The ledger of a session

What a tokenizer session is for: it keeps a ledger of the values it has seen, and gives every
entry the next free index of its type. A value that is seen again has the token of its entry.

* `Ledger` is the ledger with its well-formedness; `Ledger.record` adds a finding.
* `tokenizeSession_eq`: the tokenizer refines the ledger. The tokenized text of every node is the
  node with every finding replaced by the token of its entry in the final ledger, and the merged
  mapping lists the reversible entries.
-/

namespace AnonReq.Tokenization

/-! ### Findings -/

/-- A value to be replaced: whether it may be restored, and its truncated type. -/
structure Finding where
  value : Text
  reversible : Bool
  short : Text
deriving DecidableEq

/-- Values that may be restored and values that may not are kept apart. -/
def Finding.key (f : Finding) : Text × Bool := (f.value, f.reversible)

/-- The finding under a span. -/
def ValidSpan.finding {text : Text} (span : ValidSpan text.length) : Finding where
  value := (text.take span.stop).drop span.start
  reversible := span.reversible
  short := span.entityType.take 20

/-- The text from the cursor on, with every span replaced. -/
def weave (text : Text) (replace : Finding → Text) : ℕ → List (ValidSpan text.length) → Text
  | cursor, [] => text.drop cursor
  | cursor, span :: spans =>
    (text.take span.start).drop cursor ++ replace span.finding ++ weave text replace span.stop spans

/-- The accepted spans of a node. -/
def Node.spans (node : Node) : List (ValidSpan node.value.length) :=
  nonOverlapping node.value node.detections

/-- The findings of the accepted spans of a node. -/
def Node.findings (node : Node) : List Finding := node.spans.map ValidSpan.finding

/-! ### The ledger -/

/-- An entry of the ledger: a finding with its rank among the entries of its type. -/
structure Entry extends Finding where
  rank : ℕ

/-- The type and the rank of an entry. -/
def Entry.slot (e : Entry) : Text × ℕ := (e.short, e.rank)

/-- The token of an entry. -/
def Entry.token (seed : ℕ) (e : Entry) : Text := tokenText e.short (seed + e.rank)

/-- How many entries have the given type. -/
def countShort (entries : List Entry) (short : Text) : ℕ := entries.countP (·.short == short)

/-- The entries of a session: one for each value, and one for each slot. -/
structure Ledger where
  entries : List Entry
  keys_nodup : (entries.map fun e => e.key).Nodup
  slots_nodup : (entries.map Entry.slot).Nodup
  rank_lt : ∀ e ∈ entries, e.rank < countShort entries e.short

namespace Ledger

/-- The ledger of a session that has seen nothing. -/
def empty : Ledger := ⟨[], List.nodup_nil, List.nodup_nil, fun _ h => absurd h List.not_mem_nil⟩

variable (l : Ledger) (f : Finding) (seed : ℕ)

/-- The entry that a new finding gets. -/
def next : Entry := { f with rank := countShort l.entries f.short }

theorem countShort_next (short : Text) :
    countShort (l.entries ++ [l.next f]) short =
      countShort l.entries short + if f.short = short then 1 else 0 := by
  rw [countShort, List.countP_append, List.countP_singleton, countShort]
  simp [next]

/-- The ledger after one more finding. -/
def record : Ledger :=
  if h : f.key ∈ l.entries.map fun e => e.key then l
  else
    { entries := l.entries ++ [l.next f]
      keys_nodup := by
        rw [List.map_append, List.map_singleton, ← List.concat_eq_append]
        exact l.keys_nodup.concat h
      slots_nodup := by
        rw [List.map_append, List.map_singleton, ← List.concat_eq_append]
        refine l.slots_nodup.concat fun hslot => ?_
        obtain ⟨e, he, heq⟩ := List.mem_map.mp hslot
        obtain ⟨hshort, hrank⟩ := Prod.mk.inj heq
        have hlt : e.rank < countShort l.entries e.short := l.rank_lt e he
        rw [hrank, hshort] at hlt
        exact absurd hlt (lt_irrefl _)
      rank_lt := fun e he => by
        rw [countShort_next]
        obtain he | he := List.mem_append.mp he
        · exact lt_of_lt_of_le (l.rank_lt e he) (Nat.le_add_right _ _)
        · obtain rfl := List.mem_singleton.mp he
          simp [next] }

theorem record_of_mem (h : f.key ∈ l.entries.map fun e => e.key) : l.record f = l := dif_pos h

theorem entries_record_of_not_mem (h : f.key ∉ l.entries.map fun e => e.key) :
    (l.record f).entries = l.entries ++ [l.next f] := by
  rw [record, dif_neg h]

/-- Recording only appends. -/
theorem entries_prefix_record : l.entries <+: (l.record f).entries := by
  by_cases h : f.key ∈ l.entries.map fun e => e.key
  · exact (l.record_of_mem f h).symm ▸ List.prefix_refl _
  · rw [l.entries_record_of_not_mem f h]
    exact List.prefix_append _ _

/-- A finding that has been recorded has an entry. -/
theorem key_mem_record : f.key ∈ (l.record f).entries.map fun e => e.key := by
  by_cases h : f.key ∈ l.entries.map fun e => e.key
  · rwa [l.record_of_mem f h]
  · rw [l.entries_record_of_not_mem f h, List.map_append]
    exact List.mem_append_right _ (List.mem_singleton_self _)

/-- The table of tokens. -/
def table : List ((Text × Bool) × Text) := l.entries.map fun e => (e.key, e.token seed)

/-- The token of a finding. -/
def tokenOf : Text := (Dict.get (l.table seed) f.key).getD []

/-- The tokens of some entries that may be restored, with their values. -/
def mapping (entries : List Entry) : List (Text × Text) :=
  (entries.filter (·.reversible)).map fun e => (e.token seed, e.value)

theorem keys_table : (l.table seed).map Prod.fst = l.entries.map fun e => e.key := by
  rw [table, List.map_map]
  rfl

/-- **The entries of a session have distinct tokens.** -/
theorem tokens_nodup : (l.entries.map (Entry.token seed)).Nodup := by
  have hslots : l.entries.map (Entry.token seed) =
      (l.entries.map Entry.slot).map fun slot => tokenText slot.1 (seed + slot.2) := by
    rw [List.map_map]
    rfl
  rw [hslots]
  refine l.slots_nodup.map fun a b h => ?_
  obtain ⟨hshort, hindex⟩ := tokenText_inj h
  exact Prod.ext hshort (by omega)

/-- The token of a finding is the token of its entry. -/
theorem tokenOf_eq {e : Entry} (he : e ∈ l.entries) (hkey : e.key = f.key) :
    l.tokenOf f seed = e.token seed := by
  have hmem : (f.key, e.token seed) ∈ l.table seed :=
    List.mem_map.mpr ⟨e, he, Prod.ext hkey rfl⟩
  have hnodup : ((l.table seed).map Prod.fst).Nodup := by
    rw [keys_table]
    exact l.keys_nodup
  rw [tokenOf, (Dict.get_eq_some_iff hnodup).mpr hmem, Option.getD_some]

/-- A token once issued stays. -/
theorem tokenOf_of_prefix {l l' : Ledger} (h : l.entries <+: l'.entries)
    (hf : f.key ∈ l.entries.map fun e => e.key) : l'.tokenOf f seed = l.tokenOf f seed := by
  obtain ⟨e, he, hkey⟩ := List.mem_map.mp hf
  rw [l.tokenOf_eq f seed he hkey, l'.tokenOf_eq f seed (h.subset he) hkey]

/-- The ledger after some more findings. -/
def recordAll (fs : List Finding) : Ledger := fs.foldl record l

theorem entries_prefix_recordAll (fs : List Finding) :
    l.entries <+: (l.recordAll fs).entries := by
  induction fs generalizing l with
  | nil => exact List.prefix_refl _
  | cons f fs ih => exact (l.entries_prefix_record f).trans (ih (l.record f))

/-- Findings that have been recorded have entries. -/
theorem key_mem_recordAll {fs : List Finding} {f : Finding} (hf : f ∈ fs) :
    f.key ∈ (l.recordAll fs).entries.map fun e => e.key := by
  induction fs generalizing l with
  | nil => exact absurd hf List.not_mem_nil
  | cons g fs ih =>
    obtain rfl | hf := List.mem_cons.mp hf
    · exact List.map_subset _ ((l.record f).entries_prefix_recordAll fs).subset
        (l.key_mem_record f)
    · exact ih (l.record g) hf

/-- An entry is there for a finding that has been recorded. -/
theorem finding_mem_of_mem_recordAll {fs : List Finding} {e : Entry}
    (he : e ∈ (l.recordAll fs).entries) : e ∈ l.entries ∨ e.toFinding ∈ fs := by
  induction fs generalizing l with
  | nil => exact Or.inl he
  | cons f fs ih =>
    obtain h | hf := ih (l.record f) he
    · by_cases hmem : f.key ∈ l.entries.map fun e => e.key
      · rw [l.record_of_mem f hmem] at h
        exact Or.inl h
      · rw [l.entries_record_of_not_mem f hmem] at h
        refine (List.mem_append.mp h).imp_right fun h => ?_
        rw [List.mem_singleton.mp h]
        exact List.mem_cons_self
    · exact Or.inr (List.mem_cons_of_mem f hf)

/-- The tokens of later entries are new. -/
theorem nodup_mapping (k : ℕ) : ((mapping seed (l.entries.drop k)).map Prod.fst).Nodup := by
  rw [mapping, List.map_map]
  have hsub : ((l.entries.drop k).filter (·.reversible)).Sublist l.entries :=
    List.filter_sublist.trans (List.drop_sublist _ _)
  exact (l.tokens_nodup seed).sublist (hsub.map _)

end Ledger

/-! ### Refinement -/

/-- The session state stands for the ledger. -/
structure Refines (t : Tokenizer) (l : Ledger) : Prop where
  table : t.valueToToken = l.table t.seed
  counters : ∀ short, (Dict.get t.perTypeCounters short).getD 0 = countShort l.entries short

theorem refines_initializeSession (randomBits : Fin (2 ^ 64)) :
    Refines (initializeSession randomBits) Ledger.empty :=
  ⟨rfl, fun _ => rfl⟩

/-- A new entry that may be restored extends the mapping of the entries since the `k`-th. -/
theorem mapping_record {l : Ledger} {f : Finding} (hf : f.key ∉ l.entries.map fun e => e.key)
    {k : ℕ} (hk : k ≤ l.entries.length) (seed : ℕ) :
    Ledger.mapping seed ((l.record f).entries.drop k) =
      if f.reversible then
        Dict.set (Ledger.mapping seed (l.entries.drop k)) ((l.next f).token seed) f.value
      else Ledger.mapping seed (l.entries.drop k) := by
  have hsplit : (l.record f).entries.drop k = l.entries.drop k ++ [l.next f] := by
    rw [l.entries_record_of_not_mem f hf, List.drop_append_of_le_length hk]
  have hnodup := (l.record f).nodup_mapping seed k
  rw [hsplit, Ledger.mapping, List.filter_append, List.map_append] at hnodup ⊢
  split_ifs with hrev
  · have hnext : [l.next f].filter (·.reversible) = [l.next f] := by simp [Ledger.next, hrev]
    rw [hnext, List.map_append] at hnodup
    have hnew : (l.next f).token seed ∉
        (Ledger.mapping seed (l.entries.drop k)).map Prod.fst := fun hmem =>
      (List.nodup_append.mp hnodup).2.2 _ hmem _ (List.mem_singleton_self _) rfl
    rw [hnext, Dict.set_of_not_mem hnew]
    rfl
  · have hnext : [l.next f].filter (·.reversible) = [] := by simp [Ledger.next, hrev]
    rw [hnext, List.map_nil, List.append_nil, Ledger.mapping]

/-- **One token.** Issuing a token records the finding; the mapping of the entries since the
`k`-th stays the mapping of the entries since the `k`-th. -/
theorem tokenFor_refines {t : Tokenizer} {l : Ledger} (h : Refines t l) {k : ℕ}
    (hk : k ≤ l.entries.length) (f : Finding) {entityType : Text}
    (hshort : entityType.take 20 = f.short) :
    let issued := tokenFor t f.value entityType f.reversible
      (Ledger.mapping t.seed (l.entries.drop k))
    issued.1 = (l.record f).tokenOf f t.seed ∧ Refines issued.2.1 (l.record f) ∧
      issued.2.1.seed = t.seed ∧
      issued.2.2 = Ledger.mapping t.seed ((l.record f).entries.drop k) := by
  intro issued
  by_cases hf : f.key ∈ l.entries.map fun e => e.key
  · -- The value has a token: nothing changes.
    obtain ⟨e, he, hkey⟩ := List.mem_map.mp hf
    have hnodup : ((l.table t.seed).map Prod.fst).Nodup := by
      rw [Ledger.keys_table]
      exact l.keys_nodup
    have hget : Dict.get t.valueToToken (f.value, f.reversible) = some (e.token t.seed) := by
      rw [h.table]
      exact (Dict.get_eq_some_iff hnodup).mpr (List.mem_map.mpr ⟨e, he, Prod.ext hkey rfl⟩)
    have hissued : issued =
        (e.token t.seed, t, Ledger.mapping t.seed (l.entries.drop k)) := by
      simp only [issued, tokenFor, hget]
    rw [hissued, l.record_of_mem f hf, l.tokenOf_eq f t.seed he hkey]
    exact ⟨rfl, h, rfl, rfl⟩
  · -- The value is new: it gets the next token of its type.
    have hget : Dict.get t.valueToToken (f.value, f.reversible) = none := by
      rw [h.table, Dict.get_eq_none_iff, Ledger.keys_table]
      exact hf
    have hissued : issued =
        ((l.next f).token t.seed,
          { t with
            valueToToken := Dict.set t.valueToToken f.key ((l.next f).token t.seed)
            perTypeCounters :=
              Dict.set t.perTypeCounters f.short (countShort l.entries f.short + 1) },
          Ledger.mapping t.seed ((l.record f).entries.drop k)) := by
      rw [mapping_record hf hk]
      simp only [issued, tokenFor, hget, hshort, h.counters]
      rfl
    have hentries := l.entries_record_of_not_mem f hf
    have hnext : l.next f ∈ (l.record f).entries := by
      rw [hentries]
      exact List.mem_append_right _ (List.mem_singleton_self _)
    rw [hissued]
    refine ⟨((l.record f).tokenOf_eq f t.seed hnext rfl).symm, ⟨?_, fun short => ?_⟩, rfl, rfl⟩
    · have hnew : f.key ∉ (l.table t.seed).map Prod.fst := by
        rw [Ledger.keys_table]
        exact hf
      change Dict.set t.valueToToken f.key _ = (l.record f).table t.seed
      rw [h.table, Dict.set_of_not_mem hnew, Ledger.table, Ledger.table, hentries, List.map_append]
      rfl
    · change (Dict.get (Dict.set t.perTypeCounters f.short _) short).getD 0 = _
      rw [Dict.get_set, hentries, Ledger.countShort_next]
      split_ifs with hsame
      · rw [Option.getD_some, hsame]
      · exact h.counters short

/-- **One text.** The pass over the accepted spans records their findings, and replaces each by the
token it has in the ledger after the pass, or in any later ledger. -/
theorem replaceSpans_refines {text : Text} (spans : List (ValidSpan text.length))
    {t : Tokenizer} {l : Ledger} (h : Refines t l) {k : ℕ} (hk : k ≤ l.entries.length)
    (cursor : ℕ) :
    let r := replaceSpans text t cursor (Ledger.mapping t.seed (l.entries.drop k)) spans
    let l' := l.recordAll (spans.map ValidSpan.finding)
    (∀ final : Ledger, l'.entries <+: final.entries →
        r.1 = weave text (fun f => final.tokenOf f t.seed) cursor spans) ∧
      Refines r.2.1 l' ∧ r.2.1.seed = t.seed ∧
      r.2.2 = Ledger.mapping t.seed (l'.entries.drop k) := by
  induction spans generalizing t l cursor with
  | nil => exact ⟨fun _ _ => rfl, h, rfl, rfl⟩
  | cons span spans ih =>
    intro r l'
    obtain ⟨htoken, hrefines, hseed, hmapping⟩ := tokenFor_refines h hk span.finding rfl
    have hk' : k ≤ (l.record span.finding).entries.length :=
      le_trans hk (l.entries_prefix_record span.finding).length_le
    have hrest := ih hrefines hk' span.stop
    rw [hseed, ← hmapping] at hrest
    obtain ⟨htext, hrefines', hseed', hmapping'⟩ := hrest
    refine ⟨fun final hfinal => ?_, hrefines', hseed', hmapping'⟩
    have hlater : (l.record span.finding).entries <+: final.entries :=
      ((l.record span.finding).entries_prefix_recordAll _).trans hfinal
    have hfinding : final.tokenOf span.finding t.seed =
        (l.record span.finding).tokenOf span.finding t.seed :=
      Ledger.tokenOf_of_prefix span.finding t.seed hlater (l.key_mem_record span.finding)
    rw [weave, hfinding, ← htoken, ← htext final hfinal]
    rfl

/-- Merging the mapping of the later entries into the mapping of the earlier ones. -/
theorem update_mapping {l l' : Ledger} (h : l.entries <+: l'.entries) (seed : ℕ) :
    Dict.update (Ledger.mapping seed l.entries)
      (Ledger.mapping seed (l'.entries.drop l.entries.length)) =
        Ledger.mapping seed l'.entries := by
  obtain ⟨new, hnew⟩ := h
  have happend : ∀ a b : List Entry,
      Ledger.mapping seed a ++ Ledger.mapping seed b = Ledger.mapping seed (a ++ b) := fun a b => by
    rw [Ledger.mapping, Ledger.mapping, Ledger.mapping, List.filter_append, List.map_append]
  have hnodup := l'.nodup_mapping seed 0
  rw [← hnew, List.drop_left]
  rw [← hnew, List.drop_zero] at hnodup
  rw [Dict.update_of_nodup (by rwa [happend]), happend]

/-- **All texts.** The loop over the nodes records the findings of every node, and merges the
mappings of new tokens into the mapping of all entries. -/
theorem tokenizeNodes_refines (nodes : List Node) {t : Tokenizer} {l : Ledger}
    (h : Refines t l) :
    let r := tokenizeNodes t (Ledger.mapping t.seed l.entries) nodes
    let l' := l.recordAll (nodes.flatMap Node.findings)
    (∀ final : Ledger, l'.entries <+: final.entries → r.1 = nodes.map fun node =>
        weave node.value (fun f => final.tokenOf f t.seed) 0 node.spans) ∧
      r.2 = Ledger.mapping t.seed l'.entries := by
  induction nodes generalizing t l with
  | nil => exact ⟨fun _ _ => rfl, rfl⟩
  | cons node nodes ih =>
    intro r l'
    have hrecord : l' = (l.recordAll node.findings).recordAll (nodes.flatMap Node.findings) := by
      simp only [l', Ledger.recordAll, List.flatMap_cons, List.foldl_append]
    by_cases hempty : node.detections.isEmpty = true
    · have hspans : node.spans = [] := by
        rw [Node.spans, List.isEmpty_iff.mp hempty]
        rfl
      have hr : r = (node.value :: (tokenizeNodes t (Ledger.mapping t.seed l.entries) nodes).1,
          (tokenizeNodes t (Ledger.mapping t.seed l.entries) nodes).2) := by
        simp only [r, tokenizeNodes, hempty, if_true]
      have hsame : l.recordAll node.findings = l := by
        rw [Node.findings, hspans]
        rfl
      rw [hsame] at hrecord
      obtain ⟨htexts, hmapping⟩ := ih h
      rw [hr, hrecord]
      refine ⟨fun final hfinal => ?_, hmapping⟩
      rw [List.map_cons, ← htexts final hfinal, hspans]
      rfl
    · let text := replaceSpans node.value t 0 [] node.spans
      have hr : r = (text.1 :: (tokenizeNodes text.2.1
            (Dict.update (Ledger.mapping t.seed l.entries) text.2.2) nodes).1,
          (tokenizeNodes text.2.1
            (Dict.update (Ledger.mapping t.seed l.entries) text.2.2) nodes).2) := by
        simp only [r, text, tokenizeNodes, tokenize, hempty, if_false, Node.spans,
          Bool.false_eq_true]
      have hnone : Ledger.mapping t.seed (l.entries.drop l.entries.length) = [] := by
        rw [List.drop_length]
        rfl
      have hnode := replaceSpans_refines node.spans h (le_refl l.entries.length) 0
      rw [hnone] at hnode
      obtain ⟨htext, hrefines, hseed, hnew⟩ := hnode
      have hmerged : Dict.update (Ledger.mapping t.seed l.entries) text.2.2 =
          Ledger.mapping t.seed (l.recordAll node.findings).entries := by
        rw [show text.2.2 = _ from hnew]
        exact update_mapping (l.entries_prefix_recordAll _) t.seed
      have hrest := ih hrefines
      rw [hseed] at hrest
      rw [hmerged] at hr
      obtain ⟨htexts, hmapping⟩ := hrest
      rw [hr, hrecord]
      refine ⟨fun final hfinal => ?_, hmapping⟩
      have hlater : (l.recordAll node.findings).entries <+: final.entries :=
        ((l.recordAll node.findings).entries_prefix_recordAll _).trans hfinal
      rw [List.map_cons, ← htexts final hfinal, ← htext final hlater]
      rfl

/-- The ledger of a session. -/
def sessionLedger (nodes : List Node) : Ledger :=
  Ledger.empty.recordAll (nodes.flatMap Node.findings)

/-- **A session.** Every node is tokenized with the tokens of the final ledger, and the merged
mapping lists its entries that may be restored. -/
theorem tokenizeSession_eq (randomBits : Fin (2 ^ 64)) (nodes : List Node) :
    tokenizeSession randomBits nodes =
      (nodes.map fun node => weave node.value
          (fun f => (sessionLedger nodes).tokenOf f randomBits) 0 node.spans,
        Ledger.mapping randomBits (sessionLedger nodes).entries) := by
  obtain ⟨htexts, hmapping⟩ := tokenizeNodes_refines nodes
    (refines_initializeSession randomBits)
  exact Prod.ext (htexts (sessionLedger nodes) (List.prefix_refl _)) hmapping

/-- Every finding of a node has an entry in the ledger of the session. -/
theorem key_mem_sessionLedger {nodes : List Node} {node : Node} (hnode : node ∈ nodes)
    {f : Finding} (hf : f ∈ node.findings) :
    f.key ∈ (sessionLedger nodes).entries.map fun e => e.key := by
  exact Ledger.empty.key_mem_recordAll (List.mem_flatMap.mpr ⟨node, hnode, hf⟩)

/-- Every entry in the ledger of the session is there for an accepted span. -/
theorem exists_span_of_mem_sessionLedger {nodes : List Node} {e : Entry}
    (he : e ∈ (sessionLedger nodes).entries) :
    ∃ node ∈ nodes, ∃ span ∈ node.spans, span.finding = e.toFinding := by
  obtain h | hfinding := Ledger.empty.finding_mem_of_mem_recordAll he
  · exact absurd h List.not_mem_nil
  · obtain ⟨node, hnode, hfinding⟩ := List.mem_flatMap.mp hfinding
    obtain ⟨span, hspan, heq⟩ := List.mem_map.mp hfinding
    exact ⟨node, hnode, span, hspan, heq⟩

end AnonReq.Tokenization
