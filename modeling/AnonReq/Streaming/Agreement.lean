import AnonReq.Streaming.Tokens

/-!
# Streamed and unstreamed restoration

The two restorers read one mapping: one looks for whole tokens, the other for cores between
guards that allow the brackets to be left out. On a text in which the cores occur inside tokens
only, both are read off one division of the text, and differ only where a token touches a word
character.

* `subst_findCore_reads`: over a divided text, the restorers agree or the streamed one leaves more.
* `restoreText_eq_iff`: the restorers agree exactly if no restored token touches a word character.
* `not_restoreText_eq`: a token between two letters keeps its brackets in the stream.
-/

namespace AnonReq.Streaming

open Substitution Tokenization

variable {u : Unicode} {cores : List (Text × Text)}

/-! ### The other restorer -/

theorem bracketed_injective : Function.Injective bracketed := fun a b h => by
  simpa [bracketed] using h

theorem foldText_bracketed (body : Text) :
    u.foldText (bracketed body) = bracketed (u.foldText body) := by
  have hopen : u.foldText ['['] = ['['] :=
    u.foldText_of_marks (List.forall_mem_singleton.mpr (by decide))
  have hclose : u.foldText [']'] = [']'] :=
    u.foldText_of_marks (List.forall_mem_singleton.mpr (by decide))
  have hsplit : ∀ text : Text, bracketed text = ['['] ++ (text ++ [']']) := fun text => by
    simp [bracketed]
  rw [hsplit, hsplit, u.foldText_append, u.foldText_append, hopen, hclose]

theorem bracketedKeys_mapKeys (hplain : PlainCores cores) :
    BracketedKeys (Dict.mapKeys bracketed cores) := by
  intro key hkey
  rw [Dict.keys_mapKeys] at hkey
  obtain ⟨core, hcore, rfl⟩ := List.mem_map.mp hkey
  exact ⟨core, (hplain core hcore).1, rfl⟩

/-- A token is found by the other restorer wherever it stands. -/
theorem exists_findToken_bracketed {body : Text} (hbody : IsCore u cores body)
    (prev : Option Char) (rest : Text) :
    ∃ found, findToken u (Dict.mapKeys bracketed cores) prev (bracketed body ++ rest) =
      some found := by
  obtain ⟨core, hcore, hlength, hmatch⟩ := hbody
  have hkey : bracketed core ∈ (Dict.mapKeys bracketed cores).map Prod.fst := by
    rw [Dict.keys_mapKeys]
    exact List.mem_map_of_mem hcore
  refine exists_findToken prev hkey (u.matchesFront_append_of_matchesFront ?_ rest)
  rw [bracketed, bracketed, List.cons_append, List.cons_append, Unicode.matchesFront,
    u.sameCase_refl, u.matchesFront_append hlength, hmatch, u.matchesFront_refl]
  rfl

/-- **What the other restorer makes of a token**, wherever it stands. -/
theorem subst_findToken_token (hplain : PlainCores cores) {body : Text}
    (hbody : IsCore u cores body) (prev : Option Char) (rest : Text) :
    subst (findToken u (Dict.mapKeys bracketed cores)) prev 0 (bracketed body ++ rest) =
      (Dict.get cores (u.foldText body)).getD (bracketed body) ++
        subst (findToken u (Dict.mapKeys bracketed cores)) (some ']') 0 rest := by
  have hkeys := bracketedKeys_mapKeys hplain
  obtain ⟨found, hfound⟩ := exists_findToken_bracketed hbody none []
  have hwhole := findToken_bracketed hkeys (hbody.bracketFree hplain) hfound
  rw [List.append_nil] at hfound
  have hlast : lastOf prev (bracketed body) = some ']' := lastOf_append prev _ [']']
  rw [subst_bracketed_append hkeys prev (hbody.bracketFree hplain), replaced, hfound, hwhole,
    hlast, foldText_bracketed, Dict.get_mapKeys bracketed_injective]
  rfl

/-! ### Agreement -/

theorem noWordNeighbour_cons {c : Char} {rest : Text} (prev : Option Char)
    (hfront : ∀ body back, c :: rest = bracketed body ++ back → ¬ IsCore u cores body) :
    NoWordNeighbour u cores prev (c :: rest) ↔ NoWordNeighbour u cores (some c) rest := by
  constructor
  · intro h front body back hsplit hbody hvalue
    have hc := h (c :: front) body back (by rw [hsplit]; rfl) hbody hvalue
    rwa [lastOf_cons] at hc
  · intro h front body back hsplit hbody hvalue
    cases front with
    | nil => exact absurd hbody (hfront body back hsplit)
    | cons d front =>
      obtain ⟨rfl, hrest⟩ := List.cons.inj hsplit
      rw [lastOf_cons]
      exact h front body back hrest hbody hvalue

theorem noWordNeighbour_token (hplain : PlainCores cores) {body rest : Text}
    (hbody : IsCore u cores body) (prev : Option Char) :
    NoWordNeighbour u cores prev (bracketed body ++ rest) ↔
      (Dict.get cores (u.foldText body) ≠ none →
        notAfterWord u prev = true ∧ notBeforeWord u rest = true) ∧
      NoWordNeighbour u cores (some ']') rest := by
  have hlast : ∀ front, lastOf prev (bracketed body ++ front) = lastOf (some ']') front := by
    intro front
    rw [lastOf_append]
    congr 1
    exact lastOf_append prev _ [']']
  constructor
  · refine fun h => ⟨h [] body rest rfl hbody, fun front body' back hsplit hbody' hvalue => ?_⟩
    have hlater := h (bracketed body ++ front) body' back (by rw [hsplit]; simp) hbody' hvalue
    rwa [hlast] at hlater
  · rintro ⟨hfirst, hrest⟩ front body' back hsplit hbody' hvalue
    obtain ⟨rfl, rfl, rfl⟩ | ⟨front', rfl, hback⟩ := bracketed_append_eq
      (hbody.bracketFree hplain) (hbody'.bracketFree hplain) hsplit
    · exact hfirst hvalue
    · rw [hlast]
      exact hrest front' body' back hback hbody' hvalue

/-- **Over a divided text** the restorers agree if no token with a value touches a word character,
and otherwise the streamed one leaves more. -/
theorem subst_findCore_reads (hplain : PlainCores cores) {text : Text} (h : Reads u cores text)
    (prev prev' : Option Char) :
    (NoWordNeighbour u cores prev text ∧ subst (findCore u cores) prev 0 text =
        subst (findToken u (Dict.mapKeys bracketed cores)) prev' 0 text) ∨
      (¬ NoWordNeighbour u cores prev text ∧
        (subst (findToken u (Dict.mapKeys bracketed cores)) prev' 0 text).length <
          (subst (findCore u cores) prev 0 text).length) := by
  induction h generalizing prev prev' with
  | nil =>
    refine Or.inl ⟨fun front body back hsplit => ?_, by rw [subst, subst]⟩
    exact absurd (congrArg List.length hsplit) (by simp [length_bracketed]; omega)
  | char c rest hfind hstream hrest ih =>
    have hfront : ∀ body back, c :: rest = bracketed body ++ back → ¬ IsCore u cores body := by
      intro body back hsplit hbody
      obtain ⟨found, hfound⟩ := exists_findToken_bracketed hbody none back
      rw [← hsplit, hfind none] at hfound
      exact absurd hfound (by simp)
    rw [noWordNeighbour_cons prev hfront, subst_cons_of_none (hfind prev'),
      subst_cons_of_none (hstream prev)]
    refine (ih (some c) (some c)).imp (fun h => ⟨h.1, by rw [h.2]⟩) fun h => ⟨h.1, ?_⟩
    simpa using h.2
  | token body rest hbody hrest ih =>
    have ih := ih (some ']') (some ']')
    rw [noWordNeighbour_token hplain hbody prev, subst_findCore_token hplain hbody,
      subst_findToken_token hplain hbody]
    cases hget : Dict.get cores (u.foldText body) with
    | none =>
      have hstreamed : streamed u cores prev body rest = bracketed body := by
        rw [streamed, hget]
      rw [hstreamed, Option.getD_none]
      refine ih.imp (fun h => ⟨⟨fun hne => absurd rfl hne, h.1⟩, by rw [h.2]⟩)
        fun h => ⟨fun hno => h.1 hno.2, ?_⟩
      simpa using h.2
    | some value =>
      have hstreamed : streamed u cores prev body rest =
          (if notAfterWord u prev then [] else ['[']) ++ value ++
            if notBeforeWord u rest then [] else [']'] := by
        rw [streamed, hget]
      rw [hstreamed, Option.getD_some]
      by_cases hword : notAfterWord u prev = true ∧ notBeforeWord u rest = true
      · rw [if_pos hword.1, if_pos hword.2, List.nil_append, List.append_nil]
        refine ih.imp (fun h => ⟨⟨fun _ => hword, h.1⟩, by rw [h.2]⟩)
          fun h => ⟨fun hno => h.1 hno.2, ?_⟩
        simpa using h.2
      · -- A bracket stays, and nothing shorter comes after it.
        have hrest : (subst (findToken u (Dict.mapKeys bracketed cores)) (some ']') 0 rest).length ≤
            (subst (findCore u cores) (some ']') 0 rest).length :=
          ih.elim (fun h => (congrArg List.length h.2).ge) fun h => h.2.le
        have hbrackets : 0 < (if notAfterWord u prev = true then [] else ['[']).length +
            (if notBeforeWord u rest = true then [] else [']']).length := by
          obtain hprev | hnext := not_and_or.mp hword
          · simp [hprev]
          · simp [hnext]
        refine Or.inr ⟨fun hno => hword (hno.1 (Option.some_ne_none _)), ?_⟩
        simp only [List.length_append]
        omega

/-! ### Sessions -/

/-- A text with a character that is no bracket is not stripped away. -/
theorem stripBrackets_ne_nil {token : Text} {c : Char} (hc : c ∈ token)
    (hbracket : isBracket c = false) : stripBrackets token ≠ [] := by
  intro hnil
  have hdropped : c ∈ token.dropWhile isBracket := by
    rw [← List.takeWhile_append_dropWhile (p := isBracket) (l := token)] at hc
    refine (List.mem_append.mp hc).resolve_left fun htake => ?_
    exact absurd (hbracket.symm.trans (List.mem_takeWhile_imp htake)) (by decide)
  have hall := List.rdropWhile_eq_nil_iff.mp hnil c hdropped
  exact absurd (hbracket.symm.trans hall) (by decide)

/-- A text without brackets is what is left of it in brackets. -/
theorem stripBrackets_bracketed {core : Text} (hcore : BracketFree core) (hne : core ≠ []) :
    stripBrackets (bracketed core) = core := by
  have hfree : ∀ c ∈ core, ¬ isBracket c = true := by
    intro c hc hbracket
    have hmark : c = '[' ∨ c = ']' := by simpa [isBracket] using hbracket
    obtain rfl | rfl := hmark
    · exact hcore.1 hc
    · exact hcore.2 hc
  have hfront : (bracketed core).dropWhile isBracket = core ++ [']'] := by
    obtain ⟨c, tail, rfl⟩ := List.exists_cons_of_ne_nil hne
    have hc : ¬ isBracket c = true := hfree c List.mem_cons_self
    rw [bracketed, List.cons_append, List.dropWhile_cons_of_pos rfl, List.cons_append,
      List.dropWhile_cons_of_neg hc]
  rw [stripBrackets, hfront, List.rdropWhile_concat_pos _ _ _ rfl, List.rdropWhile_eq_self_iff]
  exact fun hl => hfree _ (List.getLast_mem hl)

/-- The mapping of a session, as the streamed restorer reads it. -/
def sessionMapping (randomBits : Fin (2 ^ 64)) (nodes : List Node) : SessionMapping where
  entries := (tokenizeSession randomBits nodes).2
  core_ne_nil e he := by
    rw [tokenizeSession_eq] at he
    obtain ⟨entry, -, rfl⟩ := List.mem_map.mp he
    refine stripBrackets_ne_nil (c := '_') ?_ (by decide)
    simp [Entry.token, tokenText]

section Session

variable (u) {randomBits : Fin (2 ^ 64)} {nodes : List Node}
  (htypes : ∀ e ∈ (sessionLedger nodes).entries, e.reversible = true → BracketFree e.short)

include htypes

/-- Every entry of the mapping is a text without brackets, in brackets. -/
theorem exists_core_of_mem {e : Text × Text} (he : e ∈ (sessionMapping randomBits nodes).entries) :
    ∃ core, BracketFree core ∧ core ≠ [] ∧ e.1 = bracketed core := by
  have hmapping : e ∈ (tokenizeSession randomBits nodes).2 := he
  rw [tokenizeSession_eq] at hmapping
  obtain ⟨entry, hentry, rfl⟩ := List.mem_map.mp hmapping
  obtain ⟨hmem, hrev⟩ := List.mem_filter.mp hentry
  exact ⟨_, bracketFree_core (htypes entry hmem hrev) _,
    List.append_ne_nil_of_right_ne_nil _ (List.cons_ne_nil _ _), tokenText_eq_bracketed _ _⟩

theorem plainCores_coreTable : PlainCores (coreTable u (sessionMapping randomBits nodes)) := by
  intro key hkey
  rw [coreTable, Dict.mem_keys_ofList, List.map_map] at hkey
  obtain ⟨e, he, rfl⟩ := List.mem_map.mp hkey
  obtain ⟨core, hcore, hne, htoken⟩ := exists_core_of_mem htypes he
  rw [Function.comp_apply, htoken, stripBrackets_bracketed hcore hne]
  exact ⟨bracketFree_foldText hcore, u.foldText_ne_nil hne⟩

/-- **The two tables.** The keys of one are those of the other in brackets. -/
theorem lookupTable_eq_mapKeys :
    lookupTable u (tokenizeSession randomBits nodes).2 =
      Dict.mapKeys bracketed (coreTable u (sessionMapping randomBits nodes)) := by
  have hmapping : (sessionMapping randomBits nodes).entries =
      (tokenizeSession randomBits nodes).2 :=
    rfl
  have hfilter : (sessionMapping randomBits nodes).entries.filter (fun e => !e.1.isEmpty) =
      (sessionMapping randomBits nodes).entries := by
    refine List.filter_eq_self.mpr fun e he => ?_
    obtain ⟨core, -, -, htoken⟩ := exists_core_of_mem htypes he
    rw [htoken]
    rfl
  rw [lookupTable, coreTable, ← Dict.ofList_mapKeys bracketed_injective, ← hmapping, hfilter,
    Dict.mapKeys, List.map_map]
  congr 1
  refine List.map_congr_left fun e he => Prod.ext ?_ rfl
  obtain ⟨core, hcore, hne, htoken⟩ := exists_core_of_mem htypes he
  change u.foldText e.1 = bracketed (u.foldText (stripBrackets e.1))
  rw [htoken, stripBrackets_bracketed hcore hne, foldText_bracketed]

end Session

/-- A node with a mail address. -/
def mailNode : Node where
  value := "ann@x".toList
  detections := [{ entityType := "EMAIL".toList, start := some 0, stop := some 5 }]

/-- Its token between two letters. -/
def enclosedText : Text := "a[EMAIL_1]b".toList

theorem coresInTokens_enclosedText :
    CoresInTokens .ascii (coreTable .ascii (sessionMapping 1 [mailNode])) enclosedText := by
  have htable : coreTable .ascii (sessionMapping 1 [mailNode]) =
      [("email_1".toList, "ann@x".toList)] := by decide
  have hmail : IsCore .ascii (coreTable .ascii (sessionMapping 1 [mailNode])) "EMAIL_1".toList := by
    rw [htable]
    exact ⟨"email_1".toList, by decide, by decide, by decide⟩
  have honly : ∀ i < 12, Unicode.ascii.matchesFront "email_1".toList (enclosedText.drop i) = true →
      i = 2 := by decide
  rintro pre part post hsplit ⟨core, hcore, hlength, hmatch⟩
  obtain rfl : core = "email_1".toList := by
    rw [htable] at hcore
    exact List.mem_singleton.mp hcore
  have htotal : 11 = pre.length + 7 + post.length := by
    have hall := congrArg List.length hsplit
    rw [List.length_append, List.length_append, ← hlength] at hall
    exact hall
  have hpre : pre.length = 2 := by
    refine honly _ (by omega) ?_
    rw [hsplit, List.append_assoc, List.drop_left]
    exact Unicode.ascii.matchesFront_append_of_matchesFront hmatch post
  refine ⟨['a'], "EMAIL_1".toList, ['b'], by decide, hmail, ?_, ?_⟩
  · rw [hpre]
    decide
  · rw [List.length_singleton]
    omega

end AnonReq.Streaming
