import Mathlib.Data.List.Find
import Mathlib.Data.List.Sort
import AnonReq.Foundation.Characters
import AnonReq.Foundation.Dict
import AnonReq.Foundation.Substitution

/-!
# The restorer

`tokenization/restorer.py`: the tokens of a mapping are put back, ignoring case, in one pass over
the text; longer tokens are tried first.

A bracketed token is an opening bracket, a body without brackets and a closing bracket. Where all
keys of the mapping are of this form, a match cannot reach over a bracket that follows it:

* `findToken_append_of_open`: text that begins with an opening bracket does not change what is
  found before it.
* `findToken_bracketed`: at a bracketed token, the whole token is found or nothing is.
-/

namespace AnonReq.Tokenization

open Substitution

variable (u : Unicode)

/-! ### The model -/

/-- `lookup`: the values by case-folded token. -/
def lookupTable (mapping : List (Text × Text)) : List (Text × Text) :=
  Dict.ofList ((mapping.filter fun e => !e.1.isEmpty).map fun e => (u.foldText e.1, e.2))

/-- `ordered`: longer tokens first. -/
def longestFirst (keys : List Text) : List Text :=
  keys.insertionSort fun a b => b.length ≤ a.length

/-- One position of the pass: the first token that matches there is replaced by its value. -/
def findToken (lookup : List (Text × Text)) : Matcher Char := fun _ text =>
  ((longestFirst (lookup.map Prod.fst)).find? fun key => u.matchesFront key text).map fun key =>
    let group := text.take key.length
    (key.length, (Dict.get lookup (u.foldText group)).getD group)

/-- `Restorer.restore_text`. -/
def restoreText (text : Text) (mapping : List (Text × Text)) : Text :=
  if mapping.isEmpty || text.isEmpty then text
  else
    let lookup := lookupTable u mapping
    if lookup.isEmpty then text else subst (findToken u lookup) none 0 text

/-! ### Reading a position -/

variable {u} {lookup : List (Text × Text)}

theorem mem_longestFirst {keys : List Text} {key : Text} :
    key ∈ longestFirst keys ↔ key ∈ keys :=
  List.mem_insertionSort _

/-- What is found is a key of the table that matches. -/
theorem findToken_eq_some {prev : Option Char} {text : Text} {found : ℕ × Text}
    (h : found ∈ findToken u lookup prev text) :
    ∃ key ∈ lookup.map Prod.fst, u.matchesFront key text = true ∧ found.1 = key.length ∧
      found.2 = (Dict.get lookup (u.foldText (text.take key.length))).getD
        (text.take key.length) := by
  obtain ⟨key, hkey, rfl⟩ := Option.map_eq_some_iff.mp h
  exact ⟨key, mem_longestFirst.mp (List.mem_of_find?_eq_some hkey),
    by simpa using List.find?_some hkey, rfl, rfl⟩

theorem findToken_eq_none {prev : Option Char} {text : Text} :
    findToken u lookup prev text = none ↔
      ∀ key ∈ lookup.map Prod.fst, u.matchesFront key text = false := by
  simp [findToken, mem_longestFirst]

/-- Something is found where a key matches. -/
theorem exists_findToken (prev : Option Char) {text key : Text}
    (hkey : key ∈ lookup.map Prod.fst) (h : u.matchesFront key text = true) :
    ∃ found, findToken u lookup prev text = some found := by
  refine Option.ne_none_iff_exists'.mp fun hnone => ?_
  have hfalse := findToken_eq_none.mp hnone key hkey
  exact absurd (h.symm.trans hfalse) (by decide)

/-- The pass, whether or not the table is empty. -/
theorem restoreText_eq_subst {mapping : List (Text × Text)} (text : Text) :
    restoreText u text mapping = subst (findToken u (lookupTable u mapping)) none 0 text := by
  have hself : ∀ lookup : List (Text × Text), lookup.isEmpty = true →
      subst (findToken u lookup) none 0 text = text := by
    intro lookup hempty
    refine subst_eq_self fun pre s _ found hfound => ?_
    obtain ⟨key, hkey, -⟩ := findToken_eq_some hfound
    rw [List.isEmpty_iff.mp hempty] at hkey
    exact absurd hkey List.not_mem_nil
  unfold restoreText
  by_cases htext : text.isEmpty = true
  · obtain rfl := List.isEmpty_iff.mp htext
    simp [subst]
  · by_cases hmapping : mapping.isEmpty = true
    · obtain rfl := List.isEmpty_iff.mp hmapping
      rw [hself _ rfl]
      simp
    · dsimp only
      rw [if_neg (by simp [htext, hmapping])]
      split_ifs with hlookup
      · exact (hself _ hlookup).symm
      · rfl

/-! ### Bracketed tokens -/

/-- A text without brackets. -/
def BracketFree (text : Text) : Prop := '[' ∉ text ∧ ']' ∉ text

instance (text : Text) : Decidable (BracketFree text) := inferInstanceAs (Decidable (_ ∧ _))

/-- A text in brackets. -/
def bracketed (body : Text) : Text := '[' :: body ++ [']']

/-- Every key is a bracketed text without further brackets. -/
def BracketedKeys (lookup : List (Text × Text)) : Prop :=
  ∀ key ∈ lookup.map Prod.fst, ∃ body, BracketFree body ∧ key = bracketed body

theorem length_bracketed (body : Text) : (bracketed body).length = body.length + 2 := by
  simp [bracketed]

theorem bracketed_ne_nil (body : Text) : bracketed body ≠ [] := List.cons_ne_nil _ _

/-- Text that begins with an opening bracket does not change which keys match before it. -/
theorem matchesFront_append_of_open {body s b : Text} (hbody : BracketFree body) (hs : s ≠ [])
    (hb : ∀ c ∈ b.head?, c = '[') :
    u.matchesFront (bracketed body) (s ++ b) = u.matchesFront (bracketed body) s := by
  cases hfront : u.matchesFront (bracketed body) s with
  | true => exact u.matchesFront_append_of_matchesFront hfront b
  | false =>
    -- A key that matched only with more text would have a second opening bracket.
    by_contra hmore
    obtain ⟨front, k, rest, c, b', hkey, hlength, -, rfl, hk⟩ :=
      u.exists_of_matchesFront_append (Bool.not_eq_false _ ▸ hmore) hfront
    obtain rfl : c = '[' := hb c rfl
    obtain rfl : k = '[' := u.eq_of_sameCase k '[' hk (Or.inr (by decide))
    obtain ⟨d, front, rfl⟩ := List.exists_cons_of_ne_nil
      (show front ≠ [] from fun h => hs (List.eq_nil_of_length_eq_zero (by rw [← hlength, h]; rfl)))
    have htail : body ++ [']'] = front ++ '[' :: rest := (List.cons.inj hkey).2
    have hmem : '[' ∈ body ++ [']'] := htail ▸ List.mem_append_right _ List.mem_cons_self
    simp [hbody.1] at hmem

/-- **What follows with an opening bracket is not looked at.** -/
theorem findToken_append_of_open (hkeys : BracketedKeys lookup) (prev prev' : Option Char)
    {s b : Text} (hs : s ≠ []) (hb : ∀ c ∈ b.head?, c = '[') :
    findToken u lookup prev (s ++ b) = findToken u lookup prev' s := by
  have hsame : ∀ key ∈ longestFirst (lookup.map Prod.fst),
      u.matchesFront key (s ++ b) = u.matchesFront key s := by
    intro key hkey
    obtain ⟨body, hbody, rfl⟩ := hkeys key (mem_longestFirst.mp hkey)
    exact matchesFront_append_of_open hbody hs hb
  have hfind : (longestFirst (lookup.map Prod.fst)).find? (fun key => u.matchesFront key (s ++ b)) =
      (longestFirst (lookup.map Prod.fst)).find? fun key => u.matchesFront key s :=
    List.find?_congr hsame
  unfold findToken
  rw [hfind]
  cases hfound : (longestFirst (lookup.map Prod.fst)).find? fun key => u.matchesFront key s with
  | none => rfl
  | some key =>
    have hlength := u.length_le_of_matchesFront (by simpa using List.find?_some hfound)
    simp only [Option.map_some, List.take_append_of_le_length hlength]

private theorem exists_eq_append_cons {n : ℕ} {text : Text} (h : n < text.length) :
    ∃ front x rest, text = front ++ x :: rest ∧ n = front.length :=
  ⟨text.take n, text[n], text.drop (n + 1),
    by rw [List.getElem_cons_drop, List.take_append_drop], by simp; omega⟩

/-- A key that matches at a bracketed token matches all of it. -/
theorem length_eq_of_matchesFront_bracketed {body core b : Text} (hbody : BracketFree body)
    (hcore : BracketFree core)
    (h : u.matchesFront (bracketed body) (bracketed core ++ b) = true) :
    body.length = core.length := by
  -- The closing bracket of the shorter one would have to match inside the longer one.
  obtain hlt | heq | hlt := Nat.lt_trichotomy body.length core.length
  · obtain ⟨front, x, rest, rfl, hlength⟩ := exists_eq_append_cons hlt
    have hclose : u.sameCase ']' x = true := by
      refine u.sameCase_of_matchesFront (a := '[' :: body) (b := []) (c := '[' :: front)
        (d := rest ++ ']' :: b) ?_ (by simp [hlength])
      simpa [bracketed] using h
    obtain rfl := u.eq_of_sameCase ']' x hclose (Or.inl (by decide))
    exact absurd (List.mem_append_right front List.mem_cons_self) hcore.2
  · exact heq
  · obtain ⟨front, x, rest, rfl, hlength⟩ := exists_eq_append_cons hlt
    have hclose : u.sameCase x ']' = true := by
      refine u.sameCase_of_matchesFront (a := '[' :: front) (b := rest ++ [']'])
        (c := '[' :: core) (d := b) ?_ (by simp [hlength])
      simpa [bracketed] using h
    obtain rfl := u.eq_of_sameCase x ']' hclose (Or.inr (by decide))
    exact absurd (List.mem_append_right front List.mem_cons_self) hbody.2

/-- **At a bracketed text, all of it is found or nothing is**, whatever follows. -/
theorem findToken_bracketed (hkeys : BracketedKeys lookup) {prev : Option Char} {core b : Text}
    (hcore : BracketFree core) {found : ℕ × Text}
    (h : found ∈ findToken u lookup prev (bracketed core ++ b)) :
    found = ((bracketed core).length,
      (Dict.get lookup (u.foldText (bracketed core))).getD (bracketed core)) := by
  obtain ⟨key, hkey, hmatch, hlength, hout⟩ := findToken_eq_some h
  obtain ⟨body, hbody, rfl⟩ := hkeys key hkey
  have hsame : (bracketed body).length = (bracketed core).length := by
    rw [length_bracketed, length_bracketed,
      length_eq_of_matchesFront_bracketed hbody hcore hmatch]
  have htake : (bracketed core ++ b).take (bracketed core).length = bracketed core :=
    List.take_left
  rw [hsame, htake] at hout
  exact Prod.ext (hlength.trans hsame) hout

/-- Nothing is found inside a text without an opening bracket. -/
theorem findToken_of_not_open (hkeys : BracketedKeys lookup) {prev : Option Char} {c : Char}
    {s : Text} (hc : c ≠ '[') : findToken u lookup prev (c :: s) = none := by
  refine findToken_eq_none.mpr fun key hkey => ?_
  obtain ⟨body, -, rfl⟩ := hkeys key hkey
  rw [bracketed, List.cons_append, Unicode.matchesFront, Bool.and_eq_false_iff]
  left
  by_contra hsame
  exact hc (u.eq_of_sameCase '[' c (Bool.not_eq_false _ ▸ hsame) (Or.inl (by decide))).symm

end AnonReq.Tokenization
