import AnonReq.Streaming.Restoration
import AnonReq.Tokenization.RoundTrip

/-!
# Tokens in streamed text

The streamed restorer looks for the cores of the tokens, and a core may stand without its brackets.
In a text in which the cores occur inside tokens only, what it finds belongs to a token: such a text
can be divided into tokens and other characters (`Reads`).

* `bracketed_append_eq`: bracketed texts do not overlap.
* `reads_of_coresInTokens`: a text in which the cores occur inside tokens only can be divided.
* `subst_findCore_token`: what the streamed restorer makes of a token. Next to a word character a
  bracket stays.
-/

namespace AnonReq.Streaming

open Substitution Tokenization

variable (u : Unicode) (cores : List (Text × Text))

/-! ### Cores and tokens -/

/-- A text reads as a core of the table. -/
def IsCore (body : Text) : Prop :=
  ∃ core ∈ cores.map Prod.fst, core.length = body.length ∧ u.matchesFront core body = true

/-- The cores of the table occur in a text only inside complete tokens. -/
def CoresInTokens (text : Text) : Prop :=
  ∀ pre part post, text = pre ++ part ++ post → IsCore u cores part →
    ∃ front body back, text = front ++ bracketed body ++ back ∧ IsCore u cores body ∧
      front.length < pre.length ∧ back.length < post.length

/-- No token of a text that has a value touches a word character. -/
def NoWordNeighbour (prev : Option Char) (text : Text) : Prop :=
  ∀ front body back, text = front ++ bracketed body ++ back → IsCore u cores body →
    Dict.get cores (u.foldText body) ≠ none →
      notAfterWord u (lastOf prev front) = true ∧ notBeforeWord u back = true

/-- The cores have no brackets and are not empty. -/
def PlainCores : Prop := ∀ core ∈ cores.map Prod.fst, BracketFree core ∧ core ≠ []

variable {u cores}

theorem IsCore.bracketFree (hplain : PlainCores cores) {body : Text} (h : IsCore u cores body) :
    BracketFree body := by
  obtain ⟨core, hcore, hlength, hmatch⟩ := h
  obtain ⟨hopen, hclose⟩ := (hplain core hcore).1
  exact ⟨fun hmem => hopen ((u.mem_iff_of_matchesFront hmatch hlength (by decide)).mpr hmem),
    fun hmem => hclose ((u.mem_iff_of_matchesFront hmatch hlength (by decide)).mpr hmem)⟩

theorem IsCore.ne_nil (hplain : PlainCores cores) {body : Text} (h : IsCore u cores body) :
    body ≠ [] := by
  obtain ⟨core, hcore, hlength, -⟩ := h
  intro hnil
  rw [hnil] at hlength
  exact (hplain core hcore).2 (List.eq_nil_of_length_eq_zero hlength)

/-- Where a core of the table matches, a core stands. -/
theorem exists_isCore {core text : Text} (hcore : core ∈ cores.map Prod.fst)
    (h : u.matchesFront core text = true) :
    ∃ part post, text = part ++ post ∧ IsCore u cores part := by
  have hlength := u.length_le_of_matchesFront h
  have htake : core.length = (text.take core.length).length := by simp [hlength]
  refine ⟨text.take core.length, text.drop core.length, (List.take_append_drop _ _).symm,
    core, hcore, htake, ?_⟩
  have hsplit := u.matchesFront_append htake [] (text.drop core.length)
  rw [List.append_nil, List.take_append_drop, h, Unicode.matchesFront, Bool.and_true] at hsplit
  exact hsplit.symm

/-- **Bracketed texts do not overlap**: one that stands in a text after another begins with it or
after it. -/
theorem bracketed_append_eq {body body' rest front back : Text} (hbody : BracketFree body)
    (hbody' : BracketFree body')
    (h : bracketed body ++ rest = front ++ bracketed body' ++ back) :
    (front = [] ∧ body = body' ∧ rest = back) ∨
      ∃ front', front = bracketed body ++ front' ∧ rest = front' ++ bracketed body' ++ back := by
  obtain hfront | ⟨d, front', rfl⟩ : front = [] ∨ ∃ d front', front = d :: front' := by
    cases front with
    | nil => exact Or.inl rfl
    | cons d front' => exact Or.inr ⟨d, front', rfl⟩
  · subst hfront
    have hbodies : body ++ ']' :: rest = body' ++ ']' :: back := by
      simpa [bracketed] using h
    obtain ⟨hsame, hrest⟩ := Splitting.append_cons_inj_of_front hbody.2 hbody'.2 hbodies
    exact Or.inl ⟨rfl, hsame, hrest⟩
  · right
    rw [List.append_assoc] at h
    obtain ⟨a, hfront, hrest⟩ | ⟨c, hinside, hrest⟩ := List.append_eq_append_iff.mp h
    · exact ⟨a, hfront, by rw [hrest, List.append_assoc]⟩
    · -- Otherwise the second opening bracket would stand inside the first text.
      cases c with
      | nil =>
        rw [List.append_nil] at hinside
        refine ⟨[], by rw [hinside, List.append_nil], ?_⟩
        rw [hinside, List.append_cancel_left_eq] at h
        rw [h, List.nil_append]
      | cons e c =>
        obtain rfl : '[' = e := (List.cons.inj hrest).1
        have htail : body ++ [']'] = front' ++ '[' :: c := (List.cons.inj hinside).2
        have hmem : '[' ∈ body ++ [']'] := htail ▸ List.mem_append_right _ List.mem_cons_self
        simp [hbody.1] at hmem

/-! ### Dividing a text -/

/-- A text divided into tokens and characters at which neither restorer finds anything. -/
inductive Reads (u : Unicode) (cores : List (Text × Text)) : Text → Prop where
  | nil : Reads u cores []
  | char (c : Char) (rest : Text)
      (hfind : ∀ prev, findToken u (Dict.mapKeys bracketed cores) prev (c :: rest) = none)
      (hstream : ∀ prev, findCore u cores prev (c :: rest) = none) (h : Reads u cores rest) :
      Reads u cores (c :: rest)
  | token (body rest : Text) (hbody : IsCore u cores body) (h : Reads u cores rest) :
      Reads u cores (bracketed body ++ rest)

/-- Where a key of the other restorer matches, a token begins. -/
theorem exists_of_matchesFront_bracketed {core text : Text}
    (h : u.matchesFront (bracketed core) text = true) :
    ∃ body back, text = bracketed body ++ back ∧ core.length = body.length ∧
      u.matchesFront core body = true := by
  have hlength := u.length_le_of_matchesFront h
  rw [length_bracketed] at hlength
  obtain ⟨c, rest, rfl⟩ := List.exists_cons_of_ne_nil
    (show text ≠ [] from fun hnil => by simp [hnil] at hlength)
  obtain ⟨body, x, back, rfl, hbody⟩ : ∃ body x back, rest = body ++ x :: back ∧
      core.length = body.length := by
    have hlt : core.length < rest.length := Nat.lt_of_succ_le (by simpa using hlength)
    exact ⟨rest.take core.length, rest[core.length], rest.drop (core.length + 1),
      by rw [List.getElem_cons_drop, List.take_append_drop], by simp; omega⟩
  have hparts : u.sameCase '[' c = true ∧ u.matchesFront core body = true ∧
      u.sameCase ']' x = true := by
    rw [bracketed, List.cons_append, Unicode.matchesFront, u.matchesFront_append hbody,
      Unicode.matchesFront, Unicode.matchesFront] at h
    simpa [Bool.and_eq_true, and_assoc] using h
  obtain ⟨hopen, hmatch, hclose⟩ := hparts
  obtain rfl := u.eq_of_sameCase '[' c hopen (Or.inl (by decide))
  obtain rfl := u.eq_of_sameCase ']' x hclose (Or.inl (by decide))
  exact ⟨body, back, by simp [bracketed], hbody, hmatch⟩

theorem CoresInTokens.tail {c : Char} {rest : Text} (h : CoresInTokens u cores (c :: rest))
    (hfront : ∀ body back, c :: rest = bracketed body ++ back → ¬ IsCore u cores body) :
    CoresInTokens u cores rest := by
  intro pre part post hsplit hpart
  obtain ⟨front, body, back, htext, hbody, hpre, hpost⟩ :=
    h (c :: pre) part post (by rw [hsplit]; rfl) hpart
  cases front with
  | nil => exact absurd hbody (hfront body back htext)
  | cons d front =>
    refine ⟨front, body, back, (List.cons.inj htext).2, hbody, ?_, hpost⟩
    simpa using hpre

theorem CoresInTokens.after_token (hplain : PlainCores cores) {body rest : Text}
    (hbody : IsCore u cores body) (h : CoresInTokens u cores (bracketed body ++ rest)) :
    CoresInTokens u cores rest := by
  intro pre part post hsplit hpart
  obtain ⟨front, body', back, htext, hbody', hpre, hpost⟩ :=
    h (bracketed body ++ pre) part post (by rw [hsplit]; simp) hpart
  obtain ⟨-, -, rfl⟩ | ⟨front', rfl, hrest⟩ :=
    bracketed_append_eq (hbody.bracketFree hplain) (hbody'.bracketFree hplain) htext
  · rw [hsplit] at hpost
    simp at hpost
    omega
  · exact ⟨front', body', back, hrest, hbody', by simpa using hpre, hpost⟩

/-- **A text in which the cores occur inside tokens only can be divided.** -/
theorem reads_of_coresInTokens (hplain : PlainCores cores) {text : Text}
    (h : CoresInTokens u cores text) : Reads u cores text := by
  induction hn : text.length using Nat.strong_induction_on generalizing text with
  | _ n ih =>
    subst hn
    by_cases htoken : ∃ body back, text = bracketed body ++ back ∧ IsCore u cores body
    · obtain ⟨body, back, rfl, hbody⟩ := htoken
      refine Reads.token body back hbody (ih _ ?_ (h.after_token hplain hbody) rfl)
      rw [List.length_append, length_bracketed]
      omega
    · cases text with
      | nil => exact Reads.nil
      | cons c rest =>
        have hfront : ∀ body back, c :: rest = bracketed body ++ back → ¬ IsCore u cores body :=
          fun body back htext hbody => htoken ⟨body, back, htext, hbody⟩
        refine Reads.char c rest (fun prev => ?_) (fun prev => ?_)
          (ih _ (Nat.lt_succ_self _) (h.tail hfront) rfl)
        · refine findToken_eq_none.mpr fun key hkey => ?_
          by_contra hmatch
          rw [Dict.keys_mapKeys] at hkey
          obtain ⟨core, hcore, rfl⟩ := List.mem_map.mp hkey
          obtain ⟨body, back, htext, hlength, hbody⟩ :=
            exists_of_matchesFront_bracketed (Bool.not_eq_false _ ▸ hmatch)
          exact hfront body back htext ⟨core, hcore, hlength, hbody⟩
        · refine findCore_eq_none fun core hcore => ⟨?_, fun rest' hrest => ?_⟩
          · -- A core at the position would have to stand inside a token that begins before it.
            by_contra hmatch
            obtain ⟨part, post, hsplit, hpart⟩ := exists_isCore hcore (Bool.not_eq_false _ ▸ hmatch)
            obtain ⟨front, _, _, _, _, hpre, _⟩ := h [] part post hsplit hpart
            exact absurd hpre (Nat.not_lt_zero _)
          · -- After an opening bracket, that token would begin at the bracket.
            by_contra hmatch
            obtain ⟨part, post, rfl, hpart⟩ := exists_isCore hcore (Bool.not_eq_false _ ▸ hmatch)
            obtain ⟨front, body, back, htext, hbody, hpre, -⟩ := h ['['] part post hrest hpart
            obtain rfl : front = [] := List.eq_nil_of_length_eq_zero (by simpa using hpre)
            exact hfront body back htext hbody

/-! ### A token in the streamed text -/

variable (u) in
theorem isWord_of_bracket {c : Char} (h : isBracket c = true) : isWord u c = false := by
  have hmark : c = '[' ∨ c = ']' := by simpa [isBracket] using h
  refine List.any_eq_false.mpr fun w hw hsame => ?_
  have hc : c ∈ tokenMarks := by
    obtain rfl | rfl := hmark <;> decide
  obtain rfl := u.eq_of_sameCase w c hsame (Or.inr hc)
  have hnot : '[' ∉ wordCharacters ∧ ']' ∉ wordCharacters := by decide
  obtain rfl | rfl := hmark
  · exact hnot.1 hw
  · exact hnot.2 hw

variable (u) in
/-- Whether the closing bracket of a token is taken. -/
def closed (rest : Text) : ℕ := if notBeforeWord u rest then 1 else 0

theorem closeLength_close (rest : Text) : closeLength u (']' :: rest) = some (closed u rest) := by
  have hbracket : notBeforeWord u (']' :: rest) = true := by
    simp [notBeforeWord, isWord_of_bracket u (c := ']') rfl]
  by_cases hrest : notBeforeWord u rest = true
  · rw [closeLength, if_pos ⟨rfl, hrest⟩, closed, if_pos hrest]
  · rw [closeLength, if_neg fun h => hrest h.2, if_pos hbracket, closed, if_neg hrest]

theorem pairwise_longestFirst (keys : List Text) :
    (longestFirst keys).Pairwise fun a b => b.length ≤ a.length := by
  have htotal : Std.Total fun a b : Text => b.length ≤ a.length :=
    ⟨fun a b => Nat.le_total b.length a.length⟩
  have htrans : IsTrans Text fun a b => b.length ≤ a.length := ⟨fun _ _ _ h h' => h'.trans h⟩
  exact List.pairwise_insertionSort _ keys

/-- Before a closing bracket only a core without brackets in it matches. -/
theorem length_le_of_matchesFront_close {core rest : Text} (body : Text) (hcore : BracketFree core)
    (h : u.matchesFront core (body ++ ']' :: rest) = true) : core.length ≤ body.length := by
  by_contra hlonger
  obtain ⟨front, x, back, rfl, hlength⟩ : ∃ front x back, core = front ++ x :: back ∧
      front.length = body.length :=
    ⟨core.take body.length, core[body.length], core.drop (body.length + 1),
      by rw [List.getElem_cons_drop, List.take_append_drop], by simp; omega⟩
  obtain rfl := u.eq_of_sameCase x ']' (u.sameCase_of_matchesFront h hlength) (Or.inr (by decide))
  exact hcore.2 (List.mem_append_right _ List.mem_cons_self)

/-- **The longest core first.** At a complete core before a closing bracket, all of it is taken. -/
theorem matchCore_close (hplain : PlainCores cores) {body : Text} (hbody : IsCore u cores body)
    (rest : Text) :
    matchCore u (longestFirst (cores.map Prod.fst)) (body ++ ']' :: rest) =
      some (body.length, closed u rest) := by
  obtain ⟨core, hcore, hlength, hmatch⟩ := hbody
  have hfront := u.matchesFront_append_of_matchesFront hmatch (']' :: rest)
  have hdrop : (body ++ ']' :: rest).drop body.length = ']' :: rest := List.drop_left
  have hself : (if u.matchesFront core (body ++ ']' :: rest) then
      (closeLength u ((body ++ ']' :: rest).drop core.length)).map fun close => (core.length, close)
      else none) = some (body.length, closed u rest) := by
    rw [if_pos hfront, hlength, hdrop, closeLength_close, Option.map_some]
  -- What is found belongs to a core that stands no later in the order than this one.
  have hsome : (matchCore u (longestFirst (cores.map Prod.fst)) (body ++ ']' :: rest)).isSome := by
    rw [matchCore, List.findSome?_isSome_iff]
    exact ⟨core, mem_longestFirst.mpr hcore, by rw [hself]; rfl⟩
  obtain ⟨m, hm⟩ := Option.isSome_iff_exists.mp hsome
  obtain ⟨before, core', after, horder, hfound, hbefore⟩ := List.findSome?_eq_some_iff.mp hm
  obtain ⟨hmatch', hclose⟩ : u.matchesFront core' (body ++ ']' :: rest) = true ∧
      (closeLength u ((body ++ ']' :: rest).drop core'.length)).map
        (fun close => (core'.length, close)) = some m := by
    split_ifs at hfound with h
    exact ⟨h, hfound⟩
  have hkey : core' ∈ cores.map Prod.fst := by
    rw [← mem_longestFirst, horder]
    exact List.mem_append_right _ List.mem_cons_self
  have hshorter : core'.length ≤ body.length :=
    length_le_of_matchesFront_close body (hplain core' hkey).1 hmatch'
  have hlonger : body.length ≤ core'.length := by
    have hmem : core ∈ before ++ core' :: after := horder ▸ mem_longestFirst.mpr hcore
    obtain hmem | hmem := List.mem_append.mp hmem
    · exact absurd (hbefore core hmem) (by rw [hself]; exact Option.some_ne_none _)
    · obtain rfl | hmem := List.mem_cons.mp hmem
      · exact hlength.ge
      · have hpairwise := pairwise_longestFirst (cores.map Prod.fst)
        rw [horder] at hpairwise
        rw [← hlength]
        exact (List.pairwise_cons.mp (List.pairwise_append.mp hpairwise).2.1).1 core hmem
  rw [le_antisymm hshorter hlonger, hdrop, closeLength_close, Option.map_some] at hclose
  rw [hm, ← hclose]

/-- With or without its opening bracket, a complete core is found. -/
theorem matchOpenCore_close (hplain : PlainCores cores) {body : Text} (hbody : IsCore u cores body)
    (rest : Text) {opening : Text} (hopening : opening = [] ∨ opening = ['[']) :
    matchOpenCore u (longestFirst (cores.map Prod.fst)) (opening ++ body ++ ']' :: rest) =
      some (opening.length, body.length, closed u rest) := by
  obtain rfl | rfl := hopening
  · obtain ⟨c, tail, rfl⟩ := List.exists_cons_of_ne_nil (hbody.ne_nil hplain)
    have hc : c ≠ '[' := fun h => (hbody.bracketFree hplain).1 (h ▸ List.mem_cons_self)
    have hcore := matchCore_close hplain hbody rest
    rw [List.nil_append, List.length_nil]
    unfold matchOpenCore
    rw [hcore]
    split
    · rename_i h
      exact absurd (List.cons.inj h).1 hc
    · rfl
  · change ((matchCore u _ (body ++ ']' :: rest)).map fun m => (1, m)).or _ = _
    rw [matchCore_close hplain hbody rest]
    rfl

variable (u cores) in
/-- What the streamed restorer leaves of a token: its brackets stay next to a word character. -/
def streamed (prev : Option Char) (body rest : Text) : Text :=
  match Dict.get cores (u.foldText body) with
  | none => bracketed body
  | some value =>
    (if notAfterWord u prev then [] else ['[']) ++ value ++
      if notBeforeWord u rest then [] else [']']

/-- What the pass makes of a core that is found, from its opening bracket on if it is taken. -/
theorem subst_close (hplain : PlainCores cores) {body : Text} (hbody : IsCore u cores body)
    (rest : Text) {opening : Text} (hopening : opening = [] ∨ opening = ['['])
    {prev : Option Char} (hprev : notAfterWord u prev = true) :
    subst (findCore u cores) prev 0 (opening ++ body ++ ']' :: rest) =
      (match Dict.get cores (u.foldText body) with
        | none => opening ++ body ++ [']']
        | some value => value ++ if notBeforeWord u rest then [] else [']']) ++
      subst (findCore u cores) (some ']') 0 rest := by
  have hpart : ((opening ++ body ++ ']' :: rest).drop opening.length).take body.length = body := by
    rw [List.append_assoc, List.drop_left, List.take_left]
  have hfind : findCore u cores prev (opening ++ body ++ ']' :: rest) =
      some (opening.length + body.length + closed u rest,
        (Dict.get cores (u.foldText body)).getD ((opening ++ body ++ ']' :: rest).take
          (opening.length + body.length + closed u rest))) := by
    unfold findCore
    rw [if_pos hprev, matchOpenCore_close hplain hbody rest hopening]
    simp only [Option.map_some, hpart]
  have hne : opening ++ body ≠ [] := List.append_ne_nil_of_right_ne_nil _ (hbody.ne_nil hplain)
  by_cases hrest : notBeforeWord u rest = true
  · -- The closing bracket is taken with the core.
    have hsplit : opening ++ body ++ ']' :: rest = opening ++ body ++ [']'] ++ rest := by simp
    have htaken : opening.length + body.length + closed u rest =
        (opening ++ body ++ [']']).length := by
      simp [closed, hrest, Nat.add_assoc]
    rw [hsplit, htaken, List.take_left] at hfind
    rw [hsplit, subst_append_of_some (by simp) hfind, lastOf_append]
    simp only [hrest, if_true, List.append_nil]
    cases Dict.get cores (u.foldText body) <;> rfl
  · -- It stays, and nothing is found at it.
    have htaken : opening.length + body.length + closed u rest = (opening ++ body).length := by
      simp [closed, hrest]
    have hnone : ∀ p, findCore u cores p (']' :: rest) = none := by
      refine fun p => findCore_eq_none fun core hcore => ⟨?_, fun _ h => ?_⟩
      · by_contra hmatch
        have hlength := length_le_of_matchesFront_close [] (hplain core hcore).1
          (Bool.not_eq_false _ ▸ hmatch)
        exact (hplain core hcore).2 (List.eq_nil_of_length_eq_zero (Nat.le_zero.mp hlength))
      · exact absurd (List.cons.inj h).1 (by decide)
    rw [htaken, List.take_left] at hfind
    rw [subst_append_of_some hne hfind, subst_cons_of_none (hnone _)]
    simp only [hrest]
    cases Dict.get cores (u.foldText body) <;> simp

/-- **What the streamed restorer makes of a token**, wherever it stands. -/
theorem subst_findCore_token (hplain : PlainCores cores) {body : Text}
    (hbody : IsCore u cores body) (prev : Option Char) (rest : Text) :
    subst (findCore u cores) prev 0 (bracketed body ++ rest) =
      streamed u cores prev body rest ++ subst (findCore u cores) (some ']') 0 rest := by
  unfold streamed
  by_cases hprev : notAfterWord u prev = true
  · have hsplit : bracketed body ++ rest = ['['] ++ body ++ ']' :: rest := by simp [bracketed]
    rw [hsplit, subst_close hplain hbody rest (Or.inr rfl) hprev]
    simp only [hprev, if_true, List.nil_append]
    rfl
  · -- After a word character nothing is found at the bracket, but the core is found after it.
    have hsplit : bracketed body ++ rest = '[' :: ([] ++ body ++ ']' :: rest) := by
      simp [bracketed]
    have hnone : findCore u cores prev ('[' :: ([] ++ body ++ ']' :: rest)) = none := by
      rw [findCore, if_neg hprev]
    have hopen : notAfterWord u (some '[') = true := by
      simp [notAfterWord, isWord_of_bracket u (c := '[') rfl]
    rw [hsplit, subst_cons_of_none hnone, subst_close hplain hbody rest (Or.inl rfl) hopen]
    cases Dict.get cores (u.foldText body) <;> simp [hprev, bracketed]

end AnonReq.Streaming
