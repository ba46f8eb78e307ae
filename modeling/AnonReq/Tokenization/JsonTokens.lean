import AnonReq.Foundation.JsonText
import AnonReq.Tokenization.RoundTrip
import AnonReq.Tokenization.Session

/-!
# Tokens in JSON texts

The tokenizer and the restorer work on the characters of a text, whatever they mean. For a text
that is JSON, this says what becomes of it.

* `isJson_tokenizeSession_iff`: a tokenized text is JSON exactly if it is JSON without its spans,
  and each of these stood inside of a string.
* `isJson_restoreText_iff`: restoring keeps every JSON text JSON exactly if all values can stand
  inside of a string.
-/

namespace AnonReq.Tokenization

open JsonText Substitution

/-! ### Texts of space -/

/-- No value begins with space. -/
theorem valueStep_of_isSpace {c : Char} (hc : Text.isSpace c = true) (stack : List Container) :
    valueStep stack c = none := by
  have hne : ∀ d, Text.isSpace d = false → c ≠ d := by
    rintro d hd rfl
    exact Bool.false_ne_true (hd.symm.trans hc)
  have hdigit : JsonText.isDigit c = false := by
    by_contra hdigit
    rw [Bool.not_eq_false, JsonText.isDigit, Bool.and_eq_true] at hdigit
    have hlo : 48 ≤ c.toNat := of_decide_eq_true hdigit.1
    have hhi : c.toNat ≤ 57 := of_decide_eq_true hdigit.2
    simp [Text.isSpace] at hc
    omega
  rw [valueStep, if_neg (hne _ (by decide)), if_neg (hne _ (by decide)),
    if_neg (hne _ (by decide)), if_neg (hne _ (by decide)), if_neg (hne _ (by decide)),
    if_neg (hdigit ▸ Bool.false_ne_true), if_neg (hne _ (by decide)),
    if_neg (hne _ (by decide)), if_neg (hne _ (by decide))]

theorem run_start_of_space {text : Text} (htext : ∀ c ∈ text, Text.isSpace c = true) {s : State}
    (h : run start text = some s) : s = start := by
  induction text with
  | nil => exact (Option.some.inj h).symm
  | cons c text ih =>
    obtain ⟨hc, htext⟩ := List.forall_mem_cons.mp htext
    have hstep : step start c = if isBlank c = true then some start else valueStep [] c := rfl
    rw [run_cons, hstep, valueStep_of_isSpace hc] at h
    split_ifs at h
    · exact ih htext h
    · cases h

/-- A text of space is not JSON. -/
theorem strip_ne_nil_of_isJson {text : Text} (h : IsJson text) : Text.strip text ≠ [] := by
  intro hstrip
  have hspace : ∀ c ∈ text, Text.isSpace c = true := by
    have hrest : ∀ c ∈ text.dropWhile Text.isSpace, Text.isSpace c = true :=
      List.rdropWhile_eq_nil_iff.mp hstrip
    intro c hc
    rw [← List.takeWhile_append_dropWhile (p := Text.isSpace) (l := text)] at hc
    exact (List.mem_append.mp hc).elim List.mem_takeWhile_imp (hrest c)
  obtain ⟨s, hrun, haccepts⟩ := h
  rw [run_start_of_space hspace hrun] at haccepts
  exact Bool.false_ne_true haccepts

/-! ### Tokenized texts -/

/-- What is kept of a text before the first of its spans, from the cursor on. -/
def firstGap (text : Text) (cursor : ℕ) : List (ValidSpan text.length) → Text
  | [] => text.drop cursor
  | span :: _ => (text.take span.start).drop cursor

/-- What is kept of a text after each of its spans. -/
def laterGaps (text : Text) : List (ValidSpan text.length) → List Text
  | [] => []
  | span :: spans => firstGap text span.stop spans :: laterGaps text spans

/-- The text is JSON without its spans, and each of them stood inside of a string. -/
structure Spared (text : Text) (spans : List (ValidSpan text.length)) : Prop where
  isJson : IsJson (firstGap text 0 spans :: laterGaps text spans).flatten
  within : Within start (firstGap text 0 spans) (laterGaps text spans)

instance (text : Text) (spans : List (ValidSpan text.length)) : Decidable (Spared text spans) :=
  decidable_of_iff
    (IsJson (firstGap text 0 spans :: laterGaps text spans).flatten ∧
      Within start (firstGap text 0 spans) (laterGaps text spans))
    ⟨fun h => ⟨h.1, h.2⟩, fun h => ⟨h.isJson, h.within⟩⟩

theorem length_laterGaps {text : Text} (spans : List (ValidSpan text.length)) :
    (laterGaps text spans).length = spans.length := by
  induction spans with
  | nil => rfl
  | cons span spans ih => rw [laterGaps, List.length_cons, ih, List.length_cons]

/-- A tokenized text, part by part. -/
theorem weave_eq_interleave {text : Text} (replace : Finding → Text) (cursor : ℕ)
    (spans : List (ValidSpan text.length)) :
    weave text replace cursor spans = interleave (firstGap text cursor spans)
      ((spans.map fun span => replace span.finding).zip (laterGaps text spans)) := by
  induction spans generalizing cursor with
  | nil => simp [weave, interleave, firstGap, laterGaps]
  | cons span spans ih =>
    rw [weave, ih span.stop, List.map_cons, laterGaps, List.zip_cons_cons]
    simp [interleave, firstGap]

theorem isJson_weave_iff {text : Text} {replace : Finding → Text}
    {spans : List (ValidSpan text.length)}
    (hwords : ∀ span ∈ spans, Bracketed (replace span.finding)) :
    IsJson (weave text replace 0 spans) ↔ Spared text spans := by
  have hlength : (laterGaps text spans).length ≤
      (spans.map fun span => replace span.finding).length := by
    rw [length_laterGaps, List.length_map]
  have hgaps : ((spans.map fun span => replace span.finding).zip (laterGaps text spans)).map
      Prod.snd = laterGaps text spans := List.map_snd_zip hlength
  rw [weave_eq_interleave, isJson_interleave_iff, hgaps]
  · exact ⟨fun h => ⟨h.2, h.1⟩, fun h => ⟨h.within, h.isJson⟩⟩
  · intro pair hpair
    obtain ⟨span, hspan, hword⟩ := List.mem_map.mp (List.of_mem_zip hpair).1
    exact hword ▸ hwords span hspan

/-! ### The words of a session -/

/-- A text of characters that stand for themselves inside of a string. -/
def PlainText (text : Text) : Prop := ∀ c ∈ text, isPlain c = true

instance (text : Text) : Decidable (PlainText text) :=
  decidable_of_iff (text.all isPlain = true) List.all_eq_true

theorem isPlain_of_mark {c : Char} (hc : c ∈ tokenMarks) : isPlain c = true := by
  have hall : tokenMarks.all isPlain = true := by decide
  exact List.all_eq_true.mp hall c hc

theorem bracketed_tokenText {short : Text} (hshort : PlainText short) (index : ℕ) :
    Bracketed (tokenText short index) where
  opened := rfl
  plain := by
    intro c hc
    rw [tokenText, List.cons_append] at hc
    obtain rfl | hc := List.mem_cons.mp hc
    · decide
    obtain hc | hc := List.mem_append.mp hc
    · obtain hc | hc := List.mem_append.mp hc
      · exact hshort c hc
      · refine isPlain_of_mark ?_
        obtain rfl | hc := List.mem_cons.mp hc
        · decide
        · exact mem_tokenMarks_of_mem_toDigits hc
    · obtain rfl := List.mem_singleton.mp hc
      decide
  underscore := by simp [tokenText]

/-- **Tokenized texts.** A text of a session whose types are plain is JSON after it has been
tokenized exactly if its spans stood inside of strings. -/
theorem isJson_tokenizeSession_iff (randomBits : Fin (2 ^ 64)) {nodes : List Node}
    (hplain : ∀ node ∈ nodes, ∀ d ∈ node.detections, PlainText d.entityType) {i : ℕ} {node : Node}
    (hnode : nodes[i]? = some node) :
    ∃ text, (tokenizeSession randomBits nodes).1[i]? = some text ∧
      (IsJson text ↔ Spared node.value node.spans) := by
  have hshort : ∀ e ∈ (sessionLedger nodes).entries, PlainText e.short := by
    intro e he
    obtain ⟨node, hnode, span, hspan, hfinding⟩ := exists_span_of_mem_sessionLedger he
    obtain ⟨d, hd, htype⟩ := entityType_of_mem_nonOverlapping hspan
    rw [← hfinding]
    intro c hc
    refine hplain node hnode d hd c ?_
    rw [htype]
    exact List.mem_of_mem_take hc
  rw [tokenizeSession_eq, List.getElem?_map, hnode]
  refine ⟨_, rfl, isJson_weave_iff fun span hspan => ?_⟩
  have hkey := key_mem_sessionLedger (List.mem_of_getElem? hnode)
    (List.mem_map_of_mem (f := ValidSpan.finding) hspan)
  obtain ⟨e, he, hkey⟩ := List.mem_map.mp hkey
  rw [(sessionLedger nodes).tokenOf_eq _ _ he hkey]
  exact bracketed_tokenText (hshort e he) _

/-! ### Restored texts -/

/-- Unicode tables in which a folded character is folded, and in which neither folding nor the case
of a literal lead from a plain character to one that is not. -/
structure PlainUnicode extends Unicode where
  casefold_of_mem : ∀ c, ∀ d ∈ casefold c, casefold d = [d]
  isPlain_of_mem_casefold : ∀ c, ∀ d ∈ casefold c, isPlain c = true → isPlain d = true
  isPlain_of_sameCase : ∀ c d, sameCase c d = true → isPlain c = true → isPlain d = true

theorem isPlain_iff {c : Char} :
    isPlain c = true ↔ c.toNat ≠ 34 ∧ c.toNat ≠ 92 ∧ 32 ≤ c.toNat := by
  have hchar : ∀ d : Char, c = d ↔ c.toNat = d.toNat := fun d => Char.toNat_inj.symm
  simp only [isPlain, Bool.and_eq_true, bne_iff_ne, ne_eq, hchar, decide_eq_true_eq, and_assoc]
  rfl

/-- Letters are plain in either case. -/
theorem isPlain_toLower (c : Char) : isPlain c.toLower = isPlain c := by
  rw [Bool.eq_iff_iff, isPlain_iff, isPlain_iff]
  unfold Char.toLower
  split_ifs with hupper
  · have hlow : 65 ≤ c.toNat := hupper.1
    have hhigh : c.toNat ≤ 90 := hupper.2
    have hlower : (c.val + ('a'.val - 'A'.val)).toNat = c.toNat + 32 := by
      have hshift : ('a'.val - 'A'.val).toNat = 32 := rfl
      have hval : c.val.toNat = c.toNat := rfl
      rw [UInt32.toNat_add, hshift, hval]
      omega
    change (c.val + ('a'.val - 'A'.val)).toNat ≠ 34 ∧ (c.val + ('a'.val - 'A'.val)).toNat ≠ 92 ∧
      32 ≤ (c.val + ('a'.val - 'A'.val)).toNat ↔ _
    rw [hlower]
    omega
  · rfl

/-- The tables restricted to ASCII. -/
def PlainUnicode.ascii : PlainUnicode where
  toUnicode := .ascii
  casefold_of_mem c d hd := by
    obtain rfl := List.mem_singleton.mp hd
    exact congrArg (fun d => [d]) (toLower_toLower c)
  isPlain_of_mem_casefold c d hd hc := by
    obtain rfl := List.mem_singleton.mp hd
    exact (isPlain_toLower c).trans hc
  isPlain_of_sameCase c d h hc := by
    rw [← isPlain_toLower d, ← beq_iff_eq.mp h, isPlain_toLower c, hc]

/-- Every key is a token of a plain type without brackets. -/
def TokenMapping (mapping : List (Text × Text)) : Prop :=
  ∀ e ∈ mapping, ∃ short index, BracketFree short ∧ PlainText short ∧ e.1 = tokenText short index

/-- The entries of a mapping that count: there is no later one whose token differs in case only. -/
def Counts (u : Unicode) (mapping : List (Text × Text)) (e : Text × Text) : Prop :=
  ∃ before after, mapping = before ++ e :: after ∧
    ∀ e' ∈ after, u.foldText e'.1 ≠ u.foldText e.1

namespace PlainUnicode

variable (u : PlainUnicode)

theorem foldText_foldText (text : Text) : u.foldText (u.foldText text) = u.foldText text := by
  simp only [Unicode.foldText, List.flatMap_assoc]
  refine congrArg List.flatten (List.map_congr_left fun c _ => ?_)
  have hself : ∀ folded : Text, (∀ d ∈ folded, u.casefold d = [d]) →
      folded.flatMap u.casefold = folded := by
    intro folded
    induction folded with
    | nil => exact fun _ => rfl
    | cons d folded ih =>
      intro h
      obtain ⟨hd, h⟩ := List.forall_mem_cons.mp h
      rw [List.flatMap_cons, hd, ih h, List.singleton_append]
  exact hself _ (u.casefold_of_mem c)

theorem plainText_foldText {text : Text} (h : PlainText text) : PlainText (u.foldText text) := by
  intro d hd
  obtain ⟨c, hc, hd⟩ := List.mem_flatMap.mp hd
  exact u.isPlain_of_mem_casefold c d hd (h c hc)

/-- What matches a plain key is plain. -/
theorem plainText_of_matchesFront {key text : Text} (h : u.matchesFront key text = true)
    (hkey : PlainText key) : PlainText (text.take key.length) := by
  induction key generalizing text with
  | nil => exact fun c hc => absurd hc List.not_mem_nil
  | cons k key ih =>
    cases text with
    | nil => exact absurd h Bool.false_ne_true
    | cons d text =>
      rw [Unicode.matchesFront, Bool.and_eq_true] at h
      obtain ⟨hk, hkey⟩ := List.forall_mem_cons.mp hkey
      exact List.forall_mem_cons.mpr ⟨u.isPlain_of_sameCase k d h.1 hk, ih h.2 hkey⟩

/-- **What matches a token** is a word in brackets with an underscore. -/
theorem bracketed_of_matchesFront {short text : Text} {index : ℕ} (hshort : PlainText short)
    (h : u.matchesFront (tokenText short index) text = true) :
    Bracketed (text.take (tokenText short index).length) := by
  have hword := bracketed_tokenText hshort index
  have hlength : (tokenText short index).length =
      (text.take (tokenText short index).length).length :=
    (List.length_take_of_le (u.length_le_of_matchesFront h)).symm
  have hgroup : u.matchesFront (tokenText short index)
      (text.take (tokenText short index).length) = true := by
    have hsplit := u.matchesFront_append hlength [] (text.drop (tokenText short index).length)
    rw [List.append_nil, List.take_append_drop, h] at hsplit
    exact (Bool.and_eq_true _ _ ▸ hsplit.symm).1
  refine ⟨?_, u.plainText_of_matchesFront h hword.plain, ?_⟩
  · cases text with
    | nil => exact absurd h Bool.false_ne_true
    | cons c text =>
      rw [tokenText, List.cons_append, List.cons_append, Unicode.matchesFront,
        Bool.and_eq_true] at h
      exact congrArg some (u.eq_of_sameCase '[' c h.1 (Or.inl (by decide))).symm
  · exact (u.mem_iff_of_matchesFront hgroup hlength (by decide)).mp hword.underscore

end PlainUnicode

section Restored

variable {u : PlainUnicode} {mapping : List (Text × Text)} (htokens : TokenMapping mapping)

include htokens

/-- The keys of the table are tokens of folded types. -/
theorem exists_short_of_mem_keys {key : Text}
    (hkey : key ∈ (lookupTable u.toUnicode mapping).map Prod.fst) :
    ∃ short index, BracketFree short ∧ PlainText short ∧ u.foldText short = short ∧
      key = tokenText short index := by
  obtain ⟨folded, hfolded, rfl⟩ := List.mem_map.mp (Dict.mem_keys_ofList.mp hkey)
  obtain ⟨e, he, rfl⟩ := List.mem_map.mp hfolded
  obtain ⟨short, index, hfree, hplain, htoken⟩ := htokens e (List.mem_of_mem_filter he)
  refine ⟨u.foldText short, index, bracketFree_foldText hfree, u.plainText_foldText hplain,
    u.foldText_foldText short, ?_⟩
  rw [htoken, foldText_tokenText]

theorem bracketedKeys_of_tokenMapping : BracketedKeys (lookupTable u.toUnicode mapping) := by
  intro key hkey
  obtain ⟨short, index, hfree, -, -, rfl⟩ := exists_short_of_mem_keys htokens hkey
  exact ⟨_, bracketFree_core hfree index, tokenText_eq_bracketed short index⟩

/-- The table has the entries that count. -/
theorem forall_mem_lookupTable_iff {p : Text → Prop} :
    (∀ e ∈ lookupTable u.toUnicode mapping, p e.2) ↔
      ∀ e, Counts u.toUnicode mapping e → p e.2 := by
  have hall : mapping.filter (fun e => !e.1.isEmpty) = mapping := by
    refine List.filter_eq_self.mpr fun e he => ?_
    obtain ⟨short, index, -, -, htoken⟩ := htokens e he
    rw [htoken]
    rfl
  rw [lookupTable, hall]
  simp only [Dict.mem_ofList_iff]
  constructor
  · rintro h e ⟨before, after, rfl, hafter⟩
    refine h (u.foldText e.1, e.2) ⟨_, _, List.map_append .., ?_⟩
    simpa using hafter
  · rintro h _ ⟨before, after, hsplit, hafter⟩
    obtain ⟨before, rest, rfl, -, hrest⟩ := List.map_eq_append_iff.mp hsplit
    obtain ⟨e, after, rfl, rfl, rfl⟩ := List.map_eq_cons_iff.mp hrest
    refine h e ⟨before, after, rfl, fun e' he' heq => hafter ?_⟩
    exact List.mem_map.mpr ⟨_, List.mem_map_of_mem he', heq⟩

/-- **Restoring reads alike.** If all values can stand inside of a string, the machine reads the
restored text as the text. -/
theorem run_restoreText (hvalues : ∀ e ∈ lookupTable u.toUnicode mapping, Enclosed e.2)
    {text : Text} {s t : State} (h : run s text = some t) :
    run s (restoreText u.toUnicode text mapping) = some t := by
  rw [restoreText_eq_subst]
  refine run_subst (fun prev text found hfound => ?_) h
  obtain ⟨key, hkey, hmatch, hlength, hout⟩ := findToken_eq_some hfound
  obtain ⟨short, index, -, hplain, -, rfl⟩ := exists_short_of_mem_keys htokens hkey
  have hgroup := u.bracketed_of_matchesFront hplain hmatch
  rw [hlength, hout]
  refine ⟨Nat.succ_pos _, u.length_le_of_matchesFront hmatch, fun s t hrun => ?_⟩
  rw [run_bracketed hgroup] at hrun
  -- outside of strings the machine would have stopped, and the text would not be JSON
  split_ifs at hrun with hs
  obtain rfl := Option.some.inj hrun
  cases hget : Dict.get (lookupTable u.toUnicode mapping)
      (u.foldText (text.take (tokenText short index).length)) with
  | none => exact run_plain hs hgroup.plain
  | some value =>
    have hmem := (Dict.get_eq_some_iff (Dict.nodup_keys_ofList _)).mp hget
    exact run_of_enclosed hs (hvalues _ hmem)

/-- A text that is one token becomes its value. -/
theorem restoreText_quoted {e : Text × Text} (he : e ∈ lookupTable u.toUnicode mapping) :
    restoreText u.toUnicode ('"' :: e.1 ++ ['"']) mapping = '"' :: e.2 ++ ['"'] := by
  have hkeys := bracketedKeys_of_tokenMapping (u := u) htokens
  have hmem : e.1 ∈ (lookupTable u.toUnicode mapping).map Prod.fst := List.mem_map_of_mem he
  obtain ⟨short, index, hfree, -, hfold, htoken⟩ := exists_short_of_mem_keys htokens hmem
  have hcore := bracketFree_core hfree index
  have hself : u.foldText e.1 = e.1 := by rw [htoken, foldText_tokenText, hfold]
  have hget : Dict.get (lookupTable u.toUnicode mapping) e.1 = some e.2 :=
    (Dict.get_eq_some_iff (Dict.nodup_keys_ofList _)).mpr he
  have hreplaced : replaced u.toUnicode (lookupTable u.toUnicode mapping) e.1 = e.2 := by
    obtain ⟨found, hfound⟩ := exists_findToken none hmem (u.matchesFront_refl e.1)
    have hfront := hfound
    rw [htoken, tokenText_eq_bracketed, ← List.append_nil (bracketed _)] at hfront
    rw [replaced, hfound, findToken_bracketed hkeys hcore hfront, ← tokenText_eq_bracketed,
      ← htoken, hself, hget]
    rfl
  -- every key begins with a bracket, so nothing is found at the quotes
  have hquote : ∀ prev, subst (findToken u.toUnicode (lookupTable u.toUnicode mapping)) prev 0
      ['"'] = ['"'] := fun prev => by
    rw [subst_cons_of_none (findToken_of_not_open hkeys (by decide)), subst]
  rw [restoreText_eq_subst, List.cons_append,
    subst_cons_of_none (findToken_of_not_open hkeys (by decide)), htoken, tokenText_eq_bracketed,
    subst_bracketed_append hkeys _ hcore, hquote, ← tokenText_eq_bracketed, ← htoken, hreplaced,
    List.cons_append]

/-- **Restored texts.** For a mapping of tokens, restoring keeps every JSON text JSON exactly if
every value that counts can stand inside of a string. -/
theorem isJson_restoreText_iff :
    (∀ text, IsJson text → IsJson (restoreText u.toUnicode text mapping)) ↔
      ∀ e, Counts u.toUnicode mapping e → Enclosed e.2 := by
  rw [← forall_mem_lookupTable_iff htokens]
  constructor
  · -- the token in quotes is JSON, so its value in quotes has to be
    intro h e he
    obtain ⟨short, index, -, hplain, -, htoken⟩ :=
      exists_short_of_mem_keys htokens (List.mem_map_of_mem he)
    have hkey : Enclosed e.1 := htoken ▸ enclosed_of_plain (bracketed_tokenText hplain index).plain
    have hjson := h ('"' :: e.1 ++ ['"']) (isJson_quoted_iff.mpr hkey)
    rw [restoreText_quoted htokens he] at hjson
    exact isJson_quoted_iff.mp hjson
  · rintro hvalues text ⟨s, hrun, hs⟩
    exact ⟨s, run_restoreText htokens hvalues hrun, hs⟩

end Restored

end AnonReq.Tokenization
