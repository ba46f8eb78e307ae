import AnonReq.Foundation.Characters
import Mathlib.Data.List.Infix

/-!
# Shell patterns

`fnmatch`: `*` matches every text, `?` every character, `[seq]` the characters of a sequence with
ranges, `[!seq]` all others. A bracket that is not closed stands for itself.

* `accept_star_iff`: a star matches a front of the text.
* `fnmatch_between_iff`: a star between plain texts matches what stands between them.
-/

namespace AnonReq.Glob

/-- A piece of a pattern. -/
inductive Token where
  | star
  | any
  | set (negated : Bool) (ranges : List (Char × Char))
  | lit (c : Char)

/-- The ranges between brackets. A hyphen between two characters makes a range. -/
def setRanges : Text → List (Char × Char)
  | c :: '-' :: d :: rest => (c, d) :: setRanges rest
  | c :: rest => (c, c) :: setRanges rest
  | [] => []

/-- What stands behind an opening bracket: the token and the rest, if the bracket is closed. The
first character between the brackets may be a closing one. -/
def readSet (rest : Text) : Option (Token × Text) :=
  let negated := rest.head? = some '!'
  match if negated then rest.tail else rest with
  | [] => none
  | c :: tail =>
    match tail.dropWhile fun c => c != ']' with
    | [] => none
    | _ :: after => some (.set negated (setRanges (c :: tail.takeWhile fun c => c != ']')), after)

/-- The tokens of a pattern, read in as many steps as it has characters. -/
def translate : ℕ → Text → List Token
  | 0, _ => []
  | _, [] => []
  | fuel + 1, c :: rest =>
    if c = '*' then .star :: translate fuel rest
    else if c = '?' then .any :: translate fuel rest
    else if c = '[' then
      match readSet rest with
      | some (token, after) => token :: translate fuel after
      | none => .lit c :: translate fuel rest
    else .lit c :: translate fuel rest

/-- A token that stands for one character matches it. -/
def Token.acceptsChar : Token → Char → Bool
  | star, _ => false
  | any, _ => true
  | set negated ranges, c => negated != ranges.any fun r => decide (r.1 ≤ c ∧ c ≤ r.2)
  | lit d, c => c == d

/-- The tokens match a text. -/
def accept : List Token → Text → Bool
  | [], text => text.isEmpty
  | .star :: tokens, text => text.tails.any (accept tokens)
  | _ :: _, [] => false
  | token :: tokens, c :: text => token.acceptsChar c && accept tokens text

/-- `fnmatch.fnmatch(name, pattern)`. -/
def fnmatch (name pattern : Text) : Bool := accept (translate pattern.length pattern) name

/-! ### Plain texts -/

/-- A text without the characters that have a meaning in patterns. -/
def Plain (text : Text) : Prop := ∀ c ∈ text, c ≠ '*' ∧ c ≠ '?' ∧ c ≠ '['

theorem translate_of_plain {text : Text} (h : Plain text) {fuel : ℕ} (hfuel : text.length ≤ fuel) :
    translate fuel text = text.map .lit := by
  induction text generalizing fuel with
  | nil => cases fuel <;> rfl
  | cons c text ih =>
    obtain ⟨hstar, hany, hset⟩ := h c List.mem_cons_self
    obtain ⟨fuel, rfl⟩ : ∃ n, fuel = n + 1 := Nat.exists_eq_add_one.mpr
      (Nat.lt_of_lt_of_le (Nat.succ_pos _) hfuel)
    have hrest : text.length ≤ fuel := by simpa using hfuel
    rw [translate, if_neg hstar, if_neg hany, if_neg hset,
      ih (fun d hd => h d (List.mem_cons_of_mem c hd)) hrest, List.map_cons]

theorem accept_lit_iff {text name : Text} : accept (text.map .lit) name = true ↔ name = text := by
  induction text generalizing name with
  | nil => simp [accept]
  | cons c text ih =>
    cases name with
    | nil => simp [accept]
    | cons d name => simp [accept, Token.acceptsChar, ih]

/-- A star matches a front of the text. -/
theorem accept_star_iff {tokens : List Token} {name : Text} :
    accept (.star :: tokens) name = true ↔ ∃ back, back <:+ name ∧ accept tokens back = true := by
  rw [accept, List.any_eq_true]
  simp only [List.mem_tails]

/-- A plain text in front of a pattern stands for itself. -/
theorem translate_append_of_plain {front : Text} (h : Plain front) (rest : Text) (fuel : ℕ) :
    translate (front.length + fuel) (front ++ rest) =
      front.map .lit ++ translate fuel rest := by
  induction front with
  | nil => rw [List.length_nil, Nat.zero_add, List.nil_append, List.map_nil, List.nil_append]
  | cons c front ih =>
    obtain ⟨hstar, hany, hset⟩ := h c List.mem_cons_self
    rw [List.length_cons, show front.length + 1 + fuel = front.length + fuel + 1 by omega,
      List.cons_append, translate, if_neg hstar, if_neg hany, if_neg hset,
      ih fun d hd => h d (List.mem_cons_of_mem c hd), List.map_cons, List.cons_append]

theorem accept_lit_append_iff {front : Text} {tokens : List Token} {name : Text} :
    accept (front.map .lit ++ tokens) name = true ↔
      ∃ rest, name = front ++ rest ∧ accept tokens rest = true := by
  induction front generalizing name with
  | nil => simp
  | cons c front ih =>
    cases name with
    | nil => simp [accept]
    | cons d name =>
      rw [List.map_cons, List.cons_append, accept, Bool.and_eq_true, ih]
      · simp only [Token.acceptsChar, beq_iff_eq, List.cons_append, List.cons.injEq]
        exact ⟨fun ⟨hd, rest, hname, hrest⟩ => ⟨rest, ⟨hd, hname⟩, hrest⟩,
          fun ⟨rest, ⟨hd, hname⟩, hrest⟩ => ⟨hd, rest, hname, hrest⟩⟩
      · intro hstar
        cases hstar

/-- **A star between plain texts** matches what stands between them. -/
theorem fnmatch_between_iff {front back name : Text} (hfront : Plain front) (hback : Plain back) :
    fnmatch name (front ++ '*' :: back) = true ↔ ∃ middle, name = front ++ middle ++ back := by
  rw [fnmatch, List.length_append, translate_append_of_plain hfront, List.length_cons, translate,
    if_pos rfl, translate_of_plain hback le_rfl, accept_lit_append_iff]
  simp only [accept_star_iff, accept_lit_iff, exists_eq_right]
  constructor
  · rintro ⟨rest, hname, middle, hrest⟩
    exact ⟨middle, by rw [hname, ← hrest, List.append_assoc]⟩
  · rintro ⟨middle, hname⟩
    exact ⟨middle ++ back, by rw [hname, List.append_assoc], middle, rfl⟩

end AnonReq.Glob
