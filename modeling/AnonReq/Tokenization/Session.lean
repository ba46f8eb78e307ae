import AnonReq.Foundation.Redaction
import AnonReq.Tokenization.Ledger

/-!
# The tokens of a session

The calls of `tokenize` after one `initialize_session`, with the tokens each of them puts in.

* `exists_mem_nonOverlapping`: every valid span lies in an accepted one, which may be restored only
  if the valid span may.
* `covered_nonOverlapping_iff`: the accepted spans cover what the valid ones cover.
* `tokenizeCalls_spec`: over the whole session a token stands for one value and one reversibility;
  every text is redacted where a valid span lies; and no mapping has the token of a value that must
  not be restored.
-/

namespace AnonReq.Tokenization

open Redaction (Patch Patched Redacted)

/-! ### What the accepted spans cover -/

section Accepted

variable {length : ℕ}

/-- A span reaches over another one, and may be restored only if that one may. -/
def ValidSpan.Carries (a v : ValidSpan length) : Prop :=
  a.start ≤ v.start ∧ v.stop ≤ a.stop ∧ (a.reversible = true → v.reversible = true)

theorem ValidSpan.Carries.refl (v : ValidSpan length) : v.Carries v := ⟨le_rfl, le_rfl, id⟩

theorem ValidSpan.Carries.trans {a b c : ValidSpan length} (h : a.Carries b) (h' : b.Carries c) :
    a.Carries c :=
  ⟨h.1.trans h'.1, h'.2.1.trans h.2.1, h'.2.2 ∘ h.2.2⟩

/-- Position `j` lies in one of the spans. -/
def Covered (spans : List (ValidSpan length)) (j : ℕ) : Prop :=
  ∃ span ∈ spans, span.start ≤ j ∧ j < span.stop

variable {accepted : List (ValidSpan length)}

/-- One more span is carried, and so are those accepted before. -/
theorem exists_mem_accept {span : ValidSpan length} (hsorted : ∀ a ∈ accepted, a.start ≤ span.start)
    {v : ValidSpan length} (hv : v = span ∨ ∃ a ∈ accepted, a.Carries v) :
    ∃ a ∈ accept accepted span, a.Carries v := by
  cases accepted with
  | nil =>
    obtain rfl | ⟨a, ha, -⟩ := hv
    · exact ⟨v, List.mem_singleton_self v, .refl v⟩
    · exact absurd ha List.not_mem_nil
  | cons last rest =>
    have hlast := hsorted last List.mem_cons_self
    unfold accept
    dsimp only
    split_ifs with hoverlap
    · -- the merged span reaches over the last one and over the new one
      obtain rfl | ⟨a, ha, hcarries⟩ := hv
      · refine ⟨_, List.mem_cons_self, hlast, le_max_right _ _, fun hrev => ?_⟩
        exact (Bool.and_eq_true_iff.mp hrev).2
      · obtain rfl | ha := List.mem_cons.mp ha
        · refine ⟨_, List.mem_cons_self, ValidSpan.Carries.trans ?_ hcarries⟩
          exact ⟨le_rfl, le_max_left _ _, fun hrev => (Bool.and_eq_true_iff.mp hrev).1⟩
        · exact ⟨a, List.mem_cons_of_mem _ ha, hcarries⟩
    · obtain rfl | ⟨a, ha, hcarries⟩ := hv
      · exact ⟨v, List.mem_cons_self, .refl v⟩
      · exact ⟨a, List.mem_cons_of_mem _ ha, hcarries⟩

/-- An accepted span has the type of one of those before or of the new one, and begins where that
begins. -/
theorem exists_of_mem_accept {span a : ValidSpan length} (ha : a ∈ accept accepted span) :
    ∃ c ∈ span :: accepted, c.entityType = a.entityType ∧ c.start = a.start := by
  cases accepted with
  | nil => exact ⟨a, ha, rfl, rfl⟩
  | cons last rest =>
    unfold accept at ha
    dsimp only at ha
    split_ifs at ha with hoverlap
    · obtain rfl | ha := List.mem_cons.mp ha
      · exact ⟨last, by simp, rfl, rfl⟩
      · exact ⟨a, by simp [ha], rfl, rfl⟩
    · exact ⟨a, ha, rfl, rfl⟩

/-- Accepting a span covers no more than that span and those before. -/
theorem covered_accept {span : ValidSpan length} {j : ℕ} (h : Covered (accept accepted span) j) :
    Covered (span :: accepted) j := by
  cases accepted with
  | nil => exact h
  | cons last rest =>
    unfold accept at h
    dsimp only at h
    split_ifs at h with hoverlap
    · obtain ⟨a, ha, hlo, hhi⟩ := h
      obtain rfl | ha := List.mem_cons.mp ha
      · -- what lies behind the last span lies in the new one
        by_cases hj : j < last.stop
        · exact ⟨last, by simp, hlo, hj⟩
        · have hhi : j < max last.stop span.stop := hhi
          exact ⟨span, by simp, by omega, by omega⟩
      · exact ⟨a, by simp [ha], hlo, hhi⟩
    · exact h

theorem before_total : Std.Total (@ValidSpan.before length) :=
  ⟨fun a b => by unfold ValidSpan.before; omega⟩

theorem before_trans : IsTrans (ValidSpan length) ValidSpan.before :=
  ⟨fun a b c => by unfold ValidSpan.before; omega⟩

/-- The valid spans of a list of detections, in the order in which they are accepted. -/
def sortedSpans (length : ℕ) (detections : List Detection) : List (ValidSpan length) :=
  (detections.filterMap (Detection.validate length)).insertionSort ValidSpan.before

theorem pairwise_sortedSpans (detections : List Detection) :
    (sortedSpans length detections).Pairwise fun a b => a.start ≤ b.start := by
  have : Std.Total (@ValidSpan.before length) := before_total
  have : IsTrans (ValidSpan length) ValidSpan.before := before_trans
  refine (List.pairwise_insertionSort ValidSpan.before _).imp fun {a b} hbefore => ?_
  unfold ValidSpan.before at hbefore
  omega

variable {detections : List Detection}

theorem mem_sortedSpans {v : ValidSpan length} :
    v ∈ sortedSpans length detections ↔ ∃ d ∈ detections, d.validate length = some v := by
  rw [sortedSpans, (List.perm_insertionSort _ _).mem_iff, List.mem_filterMap]

theorem exists_mem_foldl_accept {spans accepted : List (ValidSpan length)}
    (hspans : spans.Pairwise fun a b => a.start ≤ b.start)
    (hsorted : ∀ a ∈ accepted, ∀ b ∈ spans, a.start ≤ b.start) {v : ValidSpan length}
    (hv : v ∈ spans ∨ ∃ a ∈ accepted, a.Carries v) :
    ∃ a ∈ spans.foldl accept accepted, a.Carries v := by
  induction spans generalizing accepted with
  | nil => exact hv.resolve_left List.not_mem_nil
  | cons span spans ih =>
    obtain ⟨hspan, hspans⟩ := List.pairwise_cons.mp hspans
    have hbefore : ∀ a ∈ accepted, a.start ≤ span.start := fun a ha =>
      hsorted a ha span List.mem_cons_self
    refine ih hspans (fun a ha b hb => ?_) ?_
    · -- an accepted span begins no later than the one just accepted
      obtain ⟨c, hc, -, hca⟩ := exists_of_mem_accept ha
      rw [← hca]
      obtain rfl | hc := List.mem_cons.mp hc
      · exact hspan b hb
      · exact hsorted c hc b (List.mem_cons_of_mem span hb)
    · rw [List.mem_cons, or_assoc] at hv
      obtain rfl | hv | hv := hv
      · exact Or.inr (exists_mem_accept hbefore (Or.inl rfl))
      · exact Or.inl hv
      · exact Or.inr (exists_mem_accept hbefore (Or.inr hv))

theorem covered_foldl_accept {spans accepted : List (ValidSpan length)} {j : ℕ}
    (h : Covered (spans.foldl accept accepted) j) : Covered (spans ++ accepted) j := by
  induction spans generalizing accepted with
  | nil => exact h
  | cons span spans ih =>
    obtain ⟨a, ha, hj⟩ := ih h
    obtain ha | ha := List.mem_append.mp ha
    · exact ⟨a, by simp [ha], hj⟩
    · obtain ⟨b, hb, hj⟩ := covered_accept ⟨a, ha, hj⟩
      obtain rfl | hb := List.mem_cons.mp hb
      · exact ⟨b, by simp, hj⟩
      · exact ⟨b, by simp [hb], hj⟩

/-- An accepted span has the type of a detection. -/
theorem entityType_of_mem_nonOverlapping {text : Text} {span : ValidSpan text.length}
    (hspan : span ∈ nonOverlapping text detections) :
    ∃ d ∈ detections, d.entityType = span.entityType := by
  have hfold : ∀ spans accepted : List (ValidSpan text.length),
      ∀ a ∈ spans.foldl accept accepted, ∃ b ∈ spans ++ accepted, b.entityType = a.entityType := by
    intro spans
    induction spans with
    | nil => exact fun accepted a ha => ⟨a, ha, rfl⟩
    | cons s spans ih =>
      intro accepted a ha
      obtain ⟨b, hb, hab⟩ := ih _ a ha
      obtain hb | hb := List.mem_append.mp hb
      · exact ⟨b, by simp [hb], hab⟩
      · obtain ⟨c, hc, hcb, -⟩ := exists_of_mem_accept hb
        refine ⟨c, ?_, hcb.trans hab⟩
        obtain rfl | hc := List.mem_cons.mp hc
        · exact List.mem_append_left _ List.mem_cons_self
        · exact List.mem_append_right _ hc
  obtain ⟨v, hv, htype⟩ := hfold _ [] span (List.mem_reverse.mp hspan)
  rw [List.append_nil] at hv
  obtain ⟨d, hd, hvalid⟩ := mem_sortedSpans.mp hv
  refine ⟨d, hd, ?_⟩
  rw [← htype]
  rw [Detection.validate] at hvalid
  split at hvalid
  · split_ifs at hvalid
    obtain rfl := Option.some.inj hvalid
    rfl
  · cases hvalid

theorem reversible_of_mem_accept {span a : ValidSpan length} (hspan : span.reversible = true)
    (haccepted : ∀ b ∈ accepted, b.reversible = true) (ha : a ∈ accept accepted span) :
    a.reversible = true := by
  unfold accept at ha
  split at ha
  · exact List.mem_singleton.mp ha ▸ hspan
  · obtain ⟨hlast, hrest⟩ := List.forall_mem_cons.mp haccepted
    split_ifs at ha
    · obtain rfl | ha := List.mem_cons.mp ha
      · exact Bool.and_eq_true_iff.mpr ⟨hlast, hspan⟩
      · exact hrest a ha
    · obtain rfl | ha := List.mem_cons.mp ha
      · exact hspan
      · exact haccepted a ha

/-- Where every detection may be restored, every accepted span may. -/
theorem reversible_of_mem_nonOverlapping {text : Text} (h : ∀ d ∈ detections, d.reversible = true)
    {span : ValidSpan text.length} (hspan : span ∈ nonOverlapping text detections) :
    span.reversible = true := by
  have hfold : ∀ spans accepted : List (ValidSpan text.length),
      (∀ s ∈ spans, s.reversible = true) → (∀ a ∈ accepted, a.reversible = true) →
        ∀ a ∈ spans.foldl accept accepted, a.reversible = true := by
    intro spans
    induction spans with
    | nil => exact fun accepted _ haccepted => haccepted
    | cons s spans ih =>
      intro accepted hspans haccepted
      rw [List.forall_mem_cons] at hspans
      exact ih _ hspans.2 fun a ha => reversible_of_mem_accept hspans.1 haccepted ha
  refine hfold _ [] (fun s hs => ?_) (fun a ha => absurd ha List.not_mem_nil) span
    (List.mem_reverse.mp hspan)
  obtain ⟨d, hd, hvalid⟩ := mem_sortedSpans.mp hs
  rw [Detection.validate] at hvalid
  split at hvalid
  · split_ifs at hvalid
    obtain rfl := Option.some.inj hvalid
    exact h d hd
  · cases hvalid

/-- **Every valid span lies in an accepted one**, which may be restored only if it may. -/
theorem exists_mem_nonOverlapping {text : Text} {d : Detection} (hd : d ∈ detections)
    {v : ValidSpan text.length} (hv : d.validate text.length = some v) :
    ∃ a ∈ nonOverlapping text detections, a.Carries v := by
  have hnone : ∀ a ∈ ([] : List (ValidSpan text.length)), ∀ b ∈ sortedSpans text.length detections,
      a.start ≤ b.start := fun a ha => absurd ha List.not_mem_nil
  obtain ⟨a, ha, hcarries⟩ := exists_mem_foldl_accept (pairwise_sortedSpans detections) hnone
    (Or.inl (mem_sortedSpans.mpr ⟨d, hd, hv⟩))
  exact ⟨a, List.mem_reverse.mpr ha, hcarries⟩

/-- Position `j` lies in a valid span of the detections. -/
def Detected (text : Text) (detections : List Detection) (j : ℕ) : Prop :=
  ∃ d ∈ detections, ∃ v, d.validate text.length = some v ∧ v.start ≤ j ∧ j < v.stop

/-- **The accepted spans cover what the valid ones cover.** -/
theorem covered_nonOverlapping_iff {text : Text} {j : ℕ} :
    Covered (nonOverlapping text detections) j ↔ Detected text detections j := by
  constructor
  · rintro ⟨a, ha, hj⟩
    obtain ⟨v, hv, hj⟩ := covered_foldl_accept ⟨a, List.mem_reverse.mp ha, hj⟩
    rw [List.append_nil] at hv
    obtain ⟨d, hd, hvalid⟩ := mem_sortedSpans.mp hv
    exact ⟨d, hd, v, hvalid, hj⟩
  · rintro ⟨d, hd, v, hvalid, hlo, hhi⟩
    obtain ⟨a, ha, hstart, hstop, -⟩ := exists_mem_nonOverlapping hd hvalid
    exact ⟨a, ha, hstart.trans hlo, hhi.trans_le hstop⟩

end Accepted

/-! ### The calls of a session -/

/-- A token that is put in for a span, and the value and reversibility it is looked up by. -/
structure Issue where
  key : Text × Bool
  patch : Patch Char

/-- The tokens that the pass of `tokenize` puts in. -/
def issueSpans (text : Text) : Tokenizer → List (Text × Text) → List (ValidSpan text.length) →
    List Issue
  | _, _, [] => []
  | t, mapping, span :: spans =>
    let value := (text.take span.stop).drop span.start
    let issued := tokenFor t value span.entityType span.reversible mapping
    ⟨(value, span.reversible), ⟨span.start, span.stop, issued.1⟩⟩ ::
      issueSpans text issued.2.1 issued.2.2 spans

/-- A call of `tokenize`: the tokens it puts in, the text and the mapping it returns. -/
structure Call where
  node : Node
  issues : List Issue
  output : Text
  mapping : List (Text × Text)

/-- The call of `tokenize` on a text with its detections. -/
def tokenizeCall (t : Tokenizer) (node : Node) : Call where
  node := node
  issues := issueSpans node.value t [] node.spans
  output := (tokenize t node.value node.detections).1
  mapping := (tokenize t node.value node.detections).2.2

/-- The calls of `tokenize`, each in the session that the one before it leaves. -/
def tokenizeCalls : Tokenizer → List Node → List Call
  | _, [] => []
  | t, node :: nodes =>
    tokenizeCall t node :: tokenizeCalls (tokenize t node.value node.detections).2.1 nodes

/-- The text is woven from the tokens that the pass puts in. -/
theorem replaceSpans_eq_weave {text : Text} (spans : List (ValidSpan text.length)) (t : Tokenizer)
    (cursor : ℕ) (mapping : List (Text × Text)) :
    (replaceSpans text t cursor mapping spans).1 =
      Redaction.weave text cursor ((issueSpans text t mapping spans).map Issue.patch) := by
  induction spans generalizing t cursor mapping with
  | nil => rfl
  | cons span spans ih =>
    rw [replaceSpans, issueSpans, List.map_cons, Redaction.weave, ← ih]

theorem output_tokenizeCall (t : Tokenizer) (node : Node) :
    (tokenizeCall t node).output =
      Redaction.weave node.value 0 ((tokenizeCall t node).issues.map Issue.patch) := by
  change (tokenize t node.value node.detections).1 = _
  unfold tokenize
  split_ifs with hempty
  · have hspans : node.spans = [] := by
      rw [Node.spans, List.isEmpty_iff.mp hempty]
      rfl
    rw [tokenizeCall, hspans]
    rfl
  · exact replaceSpans_eq_weave _ t 0 []

/-- What the pass puts in for a span, with the tokens of a ledger. -/
def Ledger.issue (l : Ledger) (seed : ℕ) {text : Text} (span : ValidSpan text.length) : Issue where
  key := span.finding.key
  patch := ⟨span.start, span.stop, l.tokenOf span.finding seed⟩

/-- The pass puts in the tokens of the ledger after it, or of any later ledger. -/
theorem issueSpans_eq {text : Text} (spans : List (ValidSpan text.length)) {t : Tokenizer}
    {l : Ledger} (h : Refines t l) {k : ℕ} (hk : k ≤ l.entries.length) {final : Ledger}
    (hfinal : (l.recordAll (spans.map ValidSpan.finding)).entries <+: final.entries) :
    issueSpans text t (Ledger.mapping t.seed (l.entries.drop k)) spans =
      spans.map (final.issue t.seed) := by
  induction spans generalizing t l with
  | nil => rfl
  | cons span spans ih =>
    obtain ⟨htoken, hrefines, hseed, hmapping⟩ := tokenFor_refines h hk span.finding rfl
    have hk' : k ≤ (l.record span.finding).entries.length :=
      le_trans hk (l.entries_prefix_record span.finding).length_le
    have hlater : (l.record span.finding).entries <+: final.entries :=
      ((l.record span.finding).entries_prefix_recordAll _).trans hfinal
    have hrest := ih hrefines hk' hfinal
    rw [hseed, ← hmapping] at hrest
    have hfinding : final.tokenOf span.finding t.seed =
        (l.record span.finding).tokenOf span.finding t.seed :=
      Ledger.tokenOf_of_prefix span.finding t.seed hlater (l.key_mem_record span.finding)
    rw [List.map_cons, ← hrest, Ledger.issue, hfinding, ← htoken]
    rfl

/-- A call agrees with a ledger: it puts in tokens of its entries, and its mapping lists entries
that may be restored. -/
structure Agrees (seed : ℕ) (l : Ledger) (c : Call) : Prop where
  issues : c.issues = c.node.spans.map (l.issue seed)
  mapping : c.mapping ⊆ Ledger.mapping seed l.entries
  keys : ∀ f ∈ c.node.findings, f.key ∈ l.entries.map fun e => e.key

theorem mapping_subset {seed : ℕ} {entries entries' : List Entry} (h : entries ⊆ entries') :
    Ledger.mapping seed entries ⊆ Ledger.mapping seed entries' :=
  List.map_subset _ (List.filter_subset _ h)

/-- **One call.** A call records the findings of its text, and agrees with every later ledger. -/
theorem tokenizeCall_agrees {t : Tokenizer} {l : Ledger} (h : Refines t l) (node : Node)
    {final : Ledger} (hfinal : (l.recordAll node.findings).entries <+: final.entries) :
    Agrees t.seed final (tokenizeCall t node) ∧
      Refines (tokenize t node.value node.detections).2.1 (l.recordAll node.findings) ∧
      (tokenize t node.value node.detections).2.1.seed = t.seed := by
  have hnone : Ledger.mapping t.seed (l.entries.drop l.entries.length) = [] := by
    rw [List.drop_length]
    rfl
  have hkeys : ∀ f ∈ node.findings, f.key ∈ final.entries.map fun e => e.key := fun f hf =>
    List.map_subset _ hfinal.subset (l.key_mem_recordAll hf)
  have hissues := issueSpans_eq node.spans h (le_refl l.entries.length) hfinal
  rw [hnone] at hissues
  by_cases hempty : node.detections.isEmpty = true
  · have hcall : tokenize t node.value node.detections = (node.value, t, []) := if_pos hempty
    have hspans : node.findings = [] := by
      rw [Node.findings, Node.spans, List.isEmpty_iff.mp hempty]
      rfl
    refine ⟨⟨hissues, ?_, hkeys⟩, ?_, ?_⟩
    · rw [tokenizeCall, hcall]
      exact List.nil_subset _
    · rw [hcall, hspans]
      exact h
    · rw [hcall]
  · have hcall : tokenize t node.value node.detections =
        replaceSpans node.value t 0 [] node.spans := if_neg hempty
    obtain ⟨-, hrefines, hseed, hmapping⟩ :=
      replaceSpans_refines node.spans h (le_refl l.entries.length) 0
    rw [hnone] at hrefines hseed hmapping
    refine ⟨⟨hissues, ?_, hkeys⟩, ?_, ?_⟩
    · rw [tokenizeCall, hcall, hmapping]
      exact mapping_subset (List.Subset.trans (List.drop_subset _ _) hfinal.subset)
    · rw [hcall]
      exact hrefines
    · rw [hcall, hseed]

/-- **All calls** agree with the ledger of the whole run, and with every later ledger. -/
theorem tokenizeCalls_agree (nodes : List Node) {t : Tokenizer} {l : Ledger} (h : Refines t l)
    {final : Ledger}
    (hfinal : (l.recordAll (nodes.flatMap Node.findings)).entries <+: final.entries) :
    ∀ c ∈ tokenizeCalls t nodes, Agrees t.seed final c := by
  induction nodes generalizing t l with
  | nil => exact fun _ hc => absurd hc List.not_mem_nil
  | cons node nodes ih =>
    have hrecord : l.recordAll ((node :: nodes).flatMap Node.findings) =
        (l.recordAll node.findings).recordAll (nodes.flatMap Node.findings) := by
      simp only [Ledger.recordAll, List.flatMap_cons, List.foldl_append]
    rw [hrecord] at hfinal
    obtain ⟨hagrees, hrefines, hseed⟩ := tokenizeCall_agrees h node
      (((l.recordAll node.findings).entries_prefix_recordAll _).trans hfinal)
    refine List.forall_mem_cons.mpr ⟨hagrees, ?_⟩
    have hrest := ih hrefines hfinal
    rwa [hseed] at hrest

theorem map_node_tokenizeCalls (nodes : List Node) (t : Tokenizer) :
    (tokenizeCalls t nodes).map Call.node = nodes := by
  induction nodes generalizing t with
  | nil => rfl
  | cons node nodes ih => rw [tokenizeCalls, List.map_cons, ih, tokenizeCall]

theorem output_of_mem_tokenizeCalls {nodes : List Node} {t : Tokenizer} {c : Call}
    (hc : c ∈ tokenizeCalls t nodes) :
    c.output = Redaction.weave c.node.value 0 (c.issues.map Issue.patch) := by
  induction nodes generalizing t with
  | nil => exact absurd hc List.not_mem_nil
  | cons node nodes ih =>
    obtain rfl | hc := List.mem_cons.mp hc
    · exact output_tokenizeCall t node
    · exact ih hc

/-! ### What holds over a session -/

/-- The tokens of two findings of a ledger agree only if their values and reversibilities do. -/
theorem Ledger.tokenOf_eq_iff {l : Ledger} {seed : ℕ} {f g : Finding}
    (hf : f.key ∈ l.entries.map fun e => e.key) (hg : g.key ∈ l.entries.map fun e => e.key) :
    l.tokenOf f seed = l.tokenOf g seed ↔ f.key = g.key := by
  obtain ⟨e, he, hekey⟩ := List.mem_map.mp hf
  obtain ⟨e', he', hekey'⟩ := List.mem_map.mp hg
  rw [l.tokenOf_eq f seed he hekey, l.tokenOf_eq g seed he' hekey', ← hekey, ← hekey']
  constructor
  · intro h
    rw [List.inj_on_of_nodup_map (l.tokens_nodup seed) he he' h]
  · intro h
    rw [List.inj_on_of_nodup_map l.keys_nodup he he' h]

/-- The token of a value that must not be restored is in no mapping. -/
theorem Ledger.tokenOf_not_mem_mapping {l : Ledger} {seed : ℕ} {f : Finding}
    (hf : f.key ∈ l.entries.map fun e => e.key) (hrev : f.reversible = false) :
    l.tokenOf f seed ∉ (Ledger.mapping seed l.entries).map Prod.fst := by
  obtain ⟨e, he, hkey⟩ := List.mem_map.mp hf
  intro hmem
  rw [l.tokenOf_eq f seed he hkey, Ledger.mapping, List.map_map] at hmem
  obtain ⟨e', he', htoken⟩ := List.mem_map.mp hmem
  obtain ⟨he', hrev'⟩ := List.mem_filter.mp he'
  obtain rfl := List.inj_on_of_nodup_map (l.tokens_nodup seed) he' he htoken
  have hrevs : e'.reversible = f.reversible := congrArg Prod.snd hkey
  rw [hrevs, hrev] at hrev'
  exact absurd hrev' Bool.false_ne_true

theorem Agrees.exists_finding {seed : ℕ} {l : Ledger} {c : Call} (h : Agrees seed l c) {i : Issue}
    (hi : i ∈ c.issues) : ∃ f : Finding, f.key ∈ (l.entries.map fun e => e.key) ∧
      i.key = f.key ∧ i.patch.token = l.tokenOf f seed := by
  rw [h.issues] at hi
  obtain ⟨span, hspan, rfl⟩ := List.mem_map.mp hi
  exact ⟨span.finding, h.keys _ (List.mem_map_of_mem hspan), rfl, rfl⟩

/-- The accepted spans as patches stand apart. -/
theorem Agrees.apart {seed : ℕ} {l : Ledger} {c : Call} (h : Agrees seed l c) :
    Redaction.Apart c.node.value.length (c.issues.map Issue.patch) := by
  have hpatches : c.issues.map Issue.patch =
      c.node.spans.map fun span => (l.issue seed span).patch := by
    rw [h.issues, List.map_map]
    rfl
  rw [hpatches]
  refine ⟨?_, fun p hp => ?_, fun p hp => ?_⟩
  · exact List.pairwise_map.mpr (nonOverlapping_pairwise c.node.value c.node.detections)
  · obtain ⟨span, -, rfl⟩ := List.mem_map.mp hp
    exact span.start_lt_stop
  · obtain ⟨span, -, rfl⟩ := List.mem_map.mp hp
    exact span.start_lt_stop.trans_le span.stop_le

theorem Agrees.patched_iff {seed : ℕ} {l : Ledger} {c : Call} (h : Agrees seed l c) (j : ℕ) :
    Patched (c.issues.map Issue.patch) j ↔ Detected c.node.value c.node.detections j := by
  rw [← covered_nonOverlapping_iff, h.issues, List.map_map, Patched, Covered]
  simp [Node.spans, Ledger.issue]

/-- **A session.** In every run of calls after `initialize_session`, two tokens that are put in are
the same if and only if the values and their reversibilities are. Each text is redacted: the
characters in valid spans are replaced by tokens put in, and the others are kept. A valid span lies
in a span that is replaced, by a token for a value that must not be restored if that is so of the
valid span. The tokens of values that must not be restored are keys of no mapping. -/
theorem tokenizeCalls_spec (randomBits : Fin (2 ^ 64)) (nodes : List Node) :
    let calls := tokenizeCalls (initializeSession randomBits) nodes
    let issues := calls.flatMap Call.issues
    calls.map Call.node = nodes ∧
      (∀ i ∈ issues, ∀ j ∈ issues, i.patch.token = j.patch.token ↔ i.key = j.key) ∧
      (∀ c ∈ calls,
        Redacted (Detected c.node.value c.node.detections)
          (fun token => ∃ i ∈ c.issues, i.patch.token = token) 0 c.node.value c.output ∧
        c.output = Redaction.weave c.node.value 0 (c.issues.map Issue.patch) ∧
        (∀ i ∈ c.issues,
          i.key.1 = (c.node.value.take i.patch.stop).drop i.patch.start) ∧
        ∀ d ∈ c.node.detections, ∀ v, d.validate c.node.value.length = some v →
          ∃ i ∈ c.issues, i.patch.start ≤ v.start ∧ v.stop ≤ i.patch.stop ∧
            (v.reversible = false → i.key.2 = false)) ∧
      ∀ i ∈ issues, i.key.2 = false → ∀ c ∈ calls, i.patch.token ∉ c.mapping.map Prod.fst := by
  intro calls issues
  have hagree : ∀ c ∈ calls, Agrees randomBits (sessionLedger nodes) c :=
    tokenizeCalls_agree nodes (refines_initializeSession randomBits) (List.prefix_refl _)
  -- every token put in is the token of a finding with an entry in the ledger of the session
  have hfinding : ∀ i ∈ issues, ∃ f : Finding,
      f.key ∈ ((sessionLedger nodes).entries.map fun e => e.key) ∧ i.key = f.key ∧
        i.patch.token = (sessionLedger nodes).tokenOf f randomBits := fun i hi => by
    obtain ⟨c, hc, hi⟩ := List.mem_flatMap.mp hi
    exact (hagree c hc).exists_finding hi
  refine ⟨map_node_tokenizeCalls nodes _, fun i hi j hj => ?_, fun c hc => ⟨?_, ?_, ?_, ?_⟩,
    fun i hi hrev c hc hmem => ?_⟩
  · obtain ⟨f, hf, hikey, hitoken⟩ := hfinding i hi
    obtain ⟨g, hg, hjkey, hjtoken⟩ := hfinding j hj
    rw [hikey, hjkey, hitoken, hjtoken]
    exact Ledger.tokenOf_eq_iff hf hg
  · rw [output_of_mem_tokenizeCalls hc]
    refine (Redaction.redacted_weave (hagree c hc).apart (fun p hp => ?_)
      (fun p _ => Nat.zero_le p.start)).congr fun k _ => (hagree c hc).patched_iff _
    obtain ⟨i, hi, rfl⟩ := List.mem_map.mp hp
    exact ⟨i, hi, rfl⟩
  · exact output_of_mem_tokenizeCalls hc
  · rw [(hagree c hc).issues]
    intro i hi
    obtain ⟨span, -, rfl⟩ := List.mem_map.mp hi
    rfl
  · intro d hd v hv
    obtain ⟨a, ha, hstart, hstop, hrev⟩ := exists_mem_nonOverlapping hd hv
    rw [(hagree c hc).issues]
    refine ⟨_, List.mem_map_of_mem ha, hstart, hstop, fun hirrev => ?_⟩
    exact Bool.eq_false_iff.mpr fun ha => Bool.eq_false_iff.mp hirrev (hrev ha)
  · obtain ⟨f, hf, hkey, htoken⟩ := hfinding i hi
    rw [htoken] at hmem
    rw [hkey] at hrev
    exact Ledger.tokenOf_not_mem_mapping hf hrev
      (List.map_subset _ (hagree c hc).mapping hmem)

end AnonReq.Tokenization
