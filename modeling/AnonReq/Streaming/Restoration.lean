import AnonReq.Tokenization.Restorer

/-!
# Restoring streamed text

`streaming/restoration.py`: the tokens of a session are restored in a piece of streamed text. Here
a token may stand without its brackets, and must not touch a word character: the pattern is
`(?<![A-Za-z0-9_])\[?(core|...)\]?(?![A-Za-z0-9_])`, longer cores first, ignoring case.

The mapping of a session comes from the tokenizer, whose tokens are not made of brackets alone
(`SessionMapping`); so the pattern never matches the empty text.
-/

namespace AnonReq.Streaming

open Substitution Tokenization

/-! ### The session -/

/-- An opening or a closing bracket. -/
def isBracket (c : Char) : Bool := c == '[' || c == ']'

/-- `token.strip("[]")`. -/
def stripBrackets (token : Text) : Text := (token.dropWhile isBracket).rdropWhile isBracket

/-- The mapping of a session: no token consists of brackets alone. -/
structure SessionMapping where
  entries : List (Text × Text)
  core_ne_nil : ∀ e ∈ entries, stripBrackets e.1 ≠ []

variable (u : Unicode)

/-- `_lookup`, as `start_session` builds it: the values by case-folded core. -/
def coreTable (mapping : SessionMapping) : List (Text × Text) :=
  Dict.ofList (mapping.entries.map fun e => (u.foldText (stripBrackets e.1), e.2))

/-! ### The pattern -/

/-- `A-Za-z0-9_`. -/
def wordCharacters : List Char :=
  "ABCDEFGHIJKLMNOPQRSTUVWXYZabcdefghijklmnopqrstuvwxyz0123456789_".toList

/-- `[A-Za-z0-9_]`, ignoring case. -/
def isWord (c : Char) : Bool := wordCharacters.any fun w => u.sameCase w c

/-- `(?![A-Za-z0-9_])`. -/
def notBeforeWord (text : Text) : Bool := !text.head?.any (isWord u)

/-- `(?<![A-Za-z0-9_])`. -/
def notAfterWord (prev : Option Char) : Bool := !prev.any (isWord u)

/-- `\]?(?![A-Za-z0-9_])`: how many brackets are taken. -/
def closeLength (text : Text) : Option ℕ :=
  if text.head? = some ']' ∧ notBeforeWord u text.tail = true then some 1
  else if notBeforeWord u text then some 0
  else none

/-- `(core|...)\]?(?![A-Za-z0-9_])`: the length of the first core for which the rest of the pattern
matches, and how many brackets are taken after it. -/
def matchCore (cores : List Text) (text : Text) : Option (ℕ × ℕ) :=
  cores.findSome? fun core =>
    if u.matchesFront core text then
      (closeLength u (text.drop core.length)).map fun close => (core.length, close)
    else none

/-- `\[?(core|...)\]?(?![A-Za-z0-9_])`: an opening bracket is taken if the rest of the pattern
matches after it. -/
def matchOpenCore (cores : List Text) (text : Text) : Option (ℕ × ℕ × ℕ) :=
  (match text with
    | '[' :: rest => (matchCore u cores rest).map fun m => (1, m)
    | _ => none).or
  ((matchCore u cores text).map fun m => (0, m))

/-- One position of the pass: what the pattern matches is replaced by the value of its core. -/
def findCore (lookup : List (Text × Text)) : Matcher Char := fun prev text =>
  if notAfterWord u prev then
    (matchOpenCore u (longestFirst (lookup.map Prod.fst)) text).map fun (opened, core, closed) =>
      let n := opened + core + closed
      (n, (Dict.get lookup (u.foldText ((text.drop opened).take core))).getD (text.take n))
  else none

/-- `StreamingRestorationStage.restore_text`. -/
def restoreText (lookup : List (Text × Text)) (text : Text) : Text :=
  if text.isEmpty || lookup.isEmpty then text else subst (findCore u lookup) none 0 text

/-! ### Reading a position -/

variable {u} {lookup : List (Text × Text)}

theorem matchCore_eq_some {cores : List Text} {text : Text} {m : ℕ × ℕ}
    (h : matchCore u cores text = some m) : ∃ core ∈ cores, u.matchesFront core text = true ∧
      m.1 = core.length ∧ closeLength u (text.drop core.length) = some m.2 := by
  obtain ⟨core, hcore, hm⟩ := List.exists_of_findSome?_eq_some h
  split_ifs at hm with hmatch
  obtain ⟨close, hclose, rfl⟩ := Option.map_eq_some_iff.mp hm
  exact ⟨core, hcore, hmatch, rfl, hclose⟩

/-- **What is replaced** has a character, as no core of a session is empty. -/
theorem pos_of_findCore {mapping : SessionMapping} {prev : Option Char} {text out : Text} {n : ℕ}
    (h : findCore u (coreTable u mapping) prev text = some (n, out)) : 0 < n := by
  rw [findCore] at h
  split_ifs at h
  obtain ⟨⟨opened, core, closed⟩, hm, hfound⟩ := Option.map_eq_some_iff.mp h
  obtain ⟨rfl, -⟩ := Prod.mk.inj hfound
  have hpos : ∀ {t : Text} {m : ℕ × ℕ},
      matchCore u (longestFirst ((coreTable u mapping).map Prod.fst)) t = some m → 0 < m.1 := by
    intro t m hm
    obtain ⟨core, hcore, -, hlength, -⟩ := matchCore_eq_some hm
    rw [mem_longestFirst, coreTable, Dict.mem_keys_ofList, List.map_map] at hcore
    obtain ⟨e, he, rfl⟩ := List.mem_map.mp hcore
    rw [hlength]
    exact List.length_pos_of_ne_nil (u.foldText_ne_nil (mapping.core_ne_nil e he))
  have hcore : 0 < core := by
    obtain hopen | ⟨-, hbare⟩ := Option.or_eq_some_iff.mp hm
    · split at hopen
      · obtain ⟨m, hm, hm'⟩ := Option.map_eq_some_iff.mp hopen
        obtain rfl := (Prod.mk.inj hm').2
        exact hpos hm
      · cases hopen
    · obtain ⟨m, hm, hm'⟩ := Option.map_eq_some_iff.mp hbare
      obtain rfl := (Prod.mk.inj hm').2
      exact hpos hm
  omega

/-- Without a core at the position, or after an opening bracket at it, nothing is found. -/
theorem findCore_eq_none {prev : Option Char} {text : Text}
    (h : ∀ core ∈ lookup.map Prod.fst, u.matchesFront core text = false ∧
      ∀ rest, text = '[' :: rest → u.matchesFront core rest = false) :
    findCore u lookup prev text = none := by
  have hnone : ∀ t : Text, (∀ core ∈ lookup.map Prod.fst, u.matchesFront core t = false) →
      matchCore u (longestFirst (lookup.map Prod.fst)) t = none := by
    intro t ht
    refine Option.eq_none_iff_forall_ne_some.mpr fun m hm => ?_
    obtain ⟨core, hcore, hmatch, -⟩ := matchCore_eq_some hm
    exact absurd (hmatch.symm.trans (ht core (mem_longestFirst.mp hcore))) (by decide)
  have hopen : matchOpenCore u (longestFirst (lookup.map Prod.fst)) text = none := by
    unfold matchOpenCore
    rw [hnone text fun core hcore => (h core hcore).1]
    split
    · rename_i rest
      rw [hnone rest fun core hcore => (h core hcore).2 rest rfl]
      rfl
    · rfl
  rw [findCore, hopen]
  split_ifs <;> rfl

/-- The pass, whether or not the text or the table is empty. -/
theorem restoreText_eq_subst (lookup : List (Text × Text)) (text : Text) :
    restoreText u lookup text = subst (findCore u lookup) none 0 text := by
  unfold restoreText
  by_cases htext : text.isEmpty = true
  · obtain rfl := List.isEmpty_iff.mp htext
    simp [subst]
  · by_cases hlookup : lookup.isEmpty = true
    · obtain rfl := List.isEmpty_iff.mp hlookup
      have hself : subst (findCore u []) none 0 text = text := by
        refine subst_eq_self fun pre s _ found hfound => ?_
        rw [findCore_eq_none (by simp)] at hfound
        exact absurd hfound (by simp)
      rw [hself]
      simp
    · rw [if_neg (by simp [htext, hlookup])]

end AnonReq.Streaming
