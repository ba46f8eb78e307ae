import Mathlib.Data.List.Chain

/-!
# Escaped separators

A text is cut at the separators that have no escape character before them, and escapes are undone by
a table of the characters that can be escaped. There are two ways to write a text so that it is read
back: as it is, where nothing in it would be cut or undone (`Verbatim`), or with an escape character
in front of each special character (`Escaper`).

* `intercalate_split`: the pieces of a text, with the separators between them, are the text.
* `Verbatim.split_append`, `Verbatim.unescape`: a text that is written as it is.
* `Escaper.split_append`, `Escaper.unescape_write`: a text with its escapes.
* `readFields_append`: fields that end at a separator each are read, and the text behind them.
-/

namespace Escaping

variable {α : Type*} [DecidableEq α]

/-- An alphabet with an escape character, a separator, and what escaped characters stand for. -/
structure Format (α : Type*) where
  escape : α
  separator : α
  decode : α → Option α
  separator_ne : separator ≠ escape

variable (F : Format α)

/-- A character in front of the first piece. -/
def glue (c : α) : List (List α) → List (List α)
  | [] => [[c]]
  | piece :: pieces => (c :: piece) :: pieces

/-- The pieces between the separators, where the text stands behind an escape character or not. -/
def splitFrom : Bool → List α → List (List α)
  | _, [] => [[]]
  | true, c :: text => glue c (splitFrom false text)
  | false, c :: text =>
    if c = F.separator then [] :: splitFrom false text
    else glue c (splitFrom (c = F.escape) text)

/-- The pieces of a text. -/
def split (text : List α) : List (List α) := splitFrom F false text

/-- What a text stands for, where it stands behind an escape character or not. -/
def unescapeFrom : Bool → List α → List α
  | false, [] => []
  | true, [] => [F.escape]
  | true, c :: text =>
    match F.decode c with
    | some d => d :: unescapeFrom false text
    | none => F.escape :: c :: unescapeFrom false text
  | false, c :: text =>
    if c = F.escape then unescapeFrom true text else c :: unescapeFrom false text

/-- What a piece stands for. -/
def unescape (piece : List α) : List α := unescapeFrom F false piece

/-- So many pieces that end at a separator, by what they stand for, and the text behind them. -/
def readFields : ℕ → List (List α) → Option (List (List α) × List α)
  | 0, pieces => some ([], List.intercalate [F.separator] pieces)
  | n + 1, piece :: next :: pieces =>
    (readFields n (next :: pieces)).map fun read => (unescape F piece :: read.1, read.2)
  | _ + 1, _ => none

variable {F}

/-! ### Pieces -/

omit [DecidableEq α] in
theorem foldr_glue (text piece : List α) (pieces : List (List α)) :
    text.foldr glue (piece :: pieces) = (text ++ piece) :: pieces := by
  induction text with
  | nil => rfl
  | cons c text ih => rw [List.foldr_cons, ih, glue, List.cons_append]

theorem exists_splitFrom (escaped : Bool) (text : List α) :
    ∃ piece pieces, splitFrom F escaped text = piece :: pieces := by
  have hglue : ∀ (c : α) pieces, ∃ piece rest, glue c pieces = piece :: rest := by
    intro c pieces
    cases pieces with
    | nil => exact ⟨_, _, rfl⟩
    | cons piece pieces => exact ⟨_, _, rfl⟩
  match escaped, text with
  | true, [] | false, [] => exact ⟨[], [], rfl⟩
  | true, c :: text => exact hglue c _
  | false, c :: text =>
    rw [splitFrom]
    split_ifs
    · exact ⟨_, _, rfl⟩
    · exact hglue c _

/-- **Nothing is lost**: the pieces with the separators between them are the text. -/
theorem intercalate_split (text : List α) :
    List.intercalate [F.separator] (split F text) = text := by
  have hall : ∀ (text : List α) (escaped : Bool),
      List.intercalate [F.separator] (splitFrom F escaped text) = text := by
    intro text
    induction text with
    | nil => intro escaped; cases escaped <;> rfl
    | cons c text ih =>
      have hglue : ∀ escaped, List.intercalate [F.separator] (glue c (splitFrom F escaped text)) =
          c :: text := by
        intro escaped
        have htext := ih escaped
        obtain ⟨piece, pieces, hpieces⟩ := @exists_splitFrom _ _ F escaped text
        rw [hpieces] at htext ⊢
        rw [← htext]
        cases pieces <;> simp [glue, List.intercalate]
      intro escaped
      cases escaped with
      | true => exact hglue false
      | false =>
        rw [splitFrom]
        split_ifs with hc
        · obtain ⟨piece, pieces, hpieces⟩ := @exists_splitFrom _ _ F false text
          have htext := ih false
          rw [hpieces] at htext ⊢
          rw [← htext, hc]
          simp [List.intercalate]
        · exact hglue _
  exact hall text false

theorem split_cons_separator (text : List α) :
    split F (F.separator :: text) = [] :: split F text := by
  rw [split, splitFrom, if_pos rfl, split]

/-! ### Texts that are written as they are -/

/-- A text that stands for itself: it has no separator, and no escape character in front of a
character that would be changed. -/
structure Verbatim (F : Format α) (text : List α) : Prop where
  no_separator : F.separator ∉ text
  unchanged : text.IsChain fun c d => c = F.escape → F.decode d = none

omit [DecidableEq α] in
theorem Verbatim.tail {c : α} {text : List α} (h : Verbatim F (c :: text)) : Verbatim F text :=
  ⟨fun hmem => h.no_separator (List.mem_cons_of_mem c hmem), h.unchanged.tail⟩

/-- It is not cut, unless an escape character at its end keeps what follows from being cut. -/
theorem Verbatim.split_append {text : List α} (h : Verbatim F text)
    (hlast : text.getLast? ≠ some F.escape) (rest : List α) :
    split F (text ++ rest) = text.foldr glue (split F rest) := by
  match text with
  | [] => rfl
  | [c] =>
    have hc : c ≠ F.separator := fun heq => h.no_separator (heq ▸ List.mem_cons_self)
    have hescape : c ≠ F.escape := fun heq => hlast (congrArg some heq)
    rw [List.singleton_append, split, splitFrom, if_neg hc, decide_eq_false hescape]
    rfl
  | c :: d :: text =>
    have hc : c ≠ F.separator := fun heq => h.no_separator (heq ▸ List.mem_cons_self)
    rw [List.getLast?_cons_cons] at hlast
    rw [List.cons_append, split, splitFrom, if_neg hc, List.foldr_cons]
    by_cases hescape : c = F.escape
    · -- the character behind the escape character is passed over
      have htail : text.getLast? ≠ some F.escape := by
        cases text with
        | nil => exact Option.some_ne_none _ ∘ Eq.symm
        | cons e text => rwa [List.getLast?_cons_cons] at hlast
      rw [decide_eq_true hescape, List.cons_append, splitFrom, ← split,
        h.tail.tail.split_append htail rest, List.foldr_cons]
    · rw [decide_eq_false hescape, ← split, h.tail.split_append hlast rest]

theorem Verbatim.unescape {text : List α} (h : Verbatim F text) : unescape F text = text := by
  match text with
  | [] => rfl
  | [c] =>
    rw [Escaping.unescape, unescapeFrom]
    split_ifs with hescape
    · rw [hescape, unescapeFrom]
    · rfl
  | c :: d :: text =>
    rw [Escaping.unescape, unescapeFrom]
    split_ifs with hescape
    · have hd : F.decode d = none := (List.isChain_cons_cons.mp h.unchanged).1 hescape
      rw [unescapeFrom, hd, hescape]
      exact congrArg (fun text => F.escape :: d :: text) h.tail.tail.unescape
    · exact congrArg (c :: ·) h.tail.unescape

/-- A text without separators is a single piece. -/
theorem split_of_not_mem {text : List α} (h : F.separator ∉ text) : split F text = [text] := by
  have hall : ∀ (text : List α) (escaped : Bool), F.separator ∉ text →
      splitFrom F escaped text = [text] := by
    intro text
    induction text with
    | nil => intro escaped _; cases escaped <;> rfl
    | cons c text ih =>
      intro escaped h
      obtain ⟨hne, hmem⟩ := not_or.mp (List.mem_cons.not.mp h)
      cases escaped with
      | true => rw [splitFrom, ih false hmem, glue]
      | false => rw [splitFrom, if_neg (Ne.symm hne), ih _ hmem, glue]
  exact hall text false h

/-- **Fields** that end at a separator each are read as they are written, and what follows them. -/
theorem readFields_append {fields : List (List α)}
    (h : ∀ field ∈ fields, Verbatim F field ∧ field.getLast? ≠ some F.escape) (rest : List α) :
    readFields F fields.length
        (split F (fields.flatMap (fun field => field ++ [F.separator]) ++ rest)) =
      some (fields, rest) := by
  induction fields with
  | nil => simp [readFields, intercalate_split]
  | cons field fields ih =>
    obtain ⟨⟨hfield, hlast⟩, hfields⟩ := List.forall_mem_cons.mp h
    have htail := ih hfields
    obtain ⟨next, pieces, hsplit⟩ := @exists_splitFrom _ _ F false
      (fields.flatMap (fun field => field ++ [F.separator]) ++ rest)
    rw [List.flatMap_cons, List.append_assoc, List.append_assoc, List.singleton_append,
      hfield.split_append hlast, split_cons_separator, foldr_glue, List.append_nil]
    rw [split, hsplit] at htail ⊢
    rw [List.length_cons, readFields, htail, hfield.unescape, Option.map_some]

/-! ### Texts with escapes -/

/-- The characters that are escaped when a text is written, the separator and the escape character
among them. Each is read as itself. -/
structure Escaper (F : Format α) where
  special : α → Bool
  separator : special F.separator = true
  escape : special F.escape = true
  decode : ∀ c, special c = true → F.decode c = some c

namespace Escaper

variable (E : Escaper F)

/-- The text with an escape character in front of the special characters. -/
def write (text : List α) : List α :=
  text.flatMap fun c => if E.special c then [F.escape, c] else [c]

omit [DecidableEq α] in
/-- What is not escaped is neither a separator nor an escape character. -/
theorem ne_of_not_special {c : α} (h : ¬ E.special c = true) :
    c ≠ F.separator ∧ c ≠ F.escape :=
  ⟨fun heq => h (heq ▸ E.separator), fun heq => h (heq ▸ E.escape)⟩

/-- It is not cut. -/
theorem split_append (text rest : List α) :
    split F (E.write text ++ rest) = (E.write text).foldr glue (split F rest) := by
  induction text with
  | nil => rfl
  | cons c text ih =>
    rw [write, List.flatMap_cons, ← write, List.append_assoc]
    split_ifs with hc
    · rw [List.cons_append, split, splitFrom, if_neg F.separator_ne.symm, decide_eq_true rfl,
        List.singleton_append, splitFrom, ← split, ih]
      rfl
    · obtain ⟨hseparator, hescape⟩ := E.ne_of_not_special hc
      rw [List.singleton_append, split, splitFrom, if_neg hseparator, decide_eq_false hescape,
        ← split, ih]
      rfl

/-- **What is written is read back.** -/
theorem unescape_write (text : List α) : unescape F (E.write text) = text := by
  induction text with
  | nil => rfl
  | cons c text ih =>
    rw [write, List.flatMap_cons, ← write]
    split_ifs with hc
    · rw [List.cons_append, unescape, unescapeFrom, if_pos rfl, List.singleton_append,
        unescapeFrom, E.decode c hc]
      exact congrArg (c :: ·) ih
    · rw [List.singleton_append, unescape, unescapeFrom, if_neg (E.ne_of_not_special hc).2]
      exact congrArg (c :: ·) ih

end Escaper

end Escaping
