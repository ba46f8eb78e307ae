import AnonReq.Foundation.Characters
import Mathlib.Data.List.Lemmas

/-!
# Words

The words of a text are its longest stretches without a separator.

* `words_append_append`: separators between two texts keep the words of the two apart.
* `words_intercalate`: joining texts by a separator joins their words.
* `words_join_words`: words that are joined by a separator are found again.
* `Parted` says that pieces of a text are what stands between stretches of separators;
  `Parted.words_eq`: the words of the pieces are the words of the text.
* `Text.words_strip`: space around a text makes no difference.
-/

namespace Words

variable {α : Type*} (sep : α → Bool)

/-- `text.split()`: the words of a text. -/
def words (text : List α) : List (List α) := (text.splitOnP sep).filter fun w => !w.isEmpty

/-- A word: it is not empty and has no separator. -/
def IsWord (w : List α) : Prop := w ≠ [] ∧ ∀ c ∈ w, sep c = false

variable {sep} {a b s text : List α}

/-- A separator keeps the words on both sides apart. -/
theorem words_append_cons {c : α} (hc : sep c = true) (a b : List α) :
    words sep (a ++ c :: b) = words sep a ++ words sep b := by
  rw [words, List.splitOnP_append_cons a b hc, List.filter_append, words, words]

theorem words_cons_of_sep {c : α} (hc : sep c = true) (b : List α) :
    words sep (c :: b) = words sep b :=
  words_append_cons hc [] b

/-- Separators at the front of a text make no difference. -/
theorem words_append_of_sep_left (ha : ∀ c ∈ a, sep c = true) (b : List α) :
    words sep (a ++ b) = words sep b := by
  induction a with
  | nil => rfl
  | cons c a ih =>
    rw [List.cons_append, words_cons_of_sep (ha c List.mem_cons_self)]
    exact ih fun d hd => ha d (List.mem_cons_of_mem c hd)

/-- Separators at the end of a text make no difference. -/
theorem words_append_of_sep_right (hb : ∀ c ∈ b, sep c = true) (a : List α) :
    words sep (a ++ b) = words sep a := by
  cases b with
  | nil => rw [List.append_nil]
  | cons c b =>
    rw [words_append_cons (hb c List.mem_cons_self)]
    have hnone : words sep b = [] := by
      have h := words_append_of_sep_left (fun d hd => hb d (List.mem_cons_of_mem c hd)) []
      rwa [List.append_nil] at h
    rw [hnone, List.append_nil]

/-- **Separators between two texts keep their words apart.** -/
theorem words_append_append (hne : s ≠ []) (hs : ∀ c ∈ s, sep c = true) (a b : List α) :
    words sep (a ++ s ++ b) = words sep a ++ words sep b := by
  obtain ⟨c, s, rfl⟩ := List.exists_cons_of_ne_nil hne
  rw [List.append_assoc, List.cons_append, words_append_cons (hs c List.mem_cons_self)]
  rw [words_append_of_sep_left fun d hd => hs d (List.mem_cons_of_mem c hd)]

/-- A word is one word. -/
theorem words_of_isWord {w : List α} (h : IsWord sep w) : words sep w = [w] := by
  rw [words, List.splitOnP_eq_singleton h.2, List.filter_cons_of_pos]
  · rfl
  · rw [Bool.not_eq_true', List.isEmpty_eq_false_iff]
    exact h.1

/-- No piece has a separator. -/
theorem not_sep_of_mem_splitOnP {w : List α} (h : w ∈ text.splitOnP sep) :
    ∀ c ∈ w, sep c = false := by
  induction text generalizing w with
  | nil =>
    rw [List.splitOnP_nil, List.mem_singleton] at h
    rw [h]
    exact fun c hc => absurd hc List.not_mem_nil
  | cons d text ih =>
    rw [List.splitOnP_cons_eq_if_modifyHead] at h
    split_ifs at h with hd
    · obtain rfl | h := List.mem_cons.mp h
      · exact fun c hc => absurd hc List.not_mem_nil
      · exact ih h
    · obtain ⟨first, rest, hpieces⟩ := List.exists_cons_of_ne_nil (List.splitOnP_ne_nil sep text)
      rw [hpieces] at h ih
      obtain rfl | h := List.mem_cons.mp h
      · intro c hc
        obtain rfl | hc := List.mem_cons.mp hc
        · exact Bool.not_eq_true _ ▸ hd
        · exact ih List.mem_cons_self c hc
      · exact ih (List.mem_cons_of_mem first h)

/-- The words of a text are words. -/
theorem isWord_of_mem_words {w : List α} (h : w ∈ words sep text) : IsWord sep w := by
  obtain ⟨hmem, hne⟩ := List.mem_filter.mp h
  refine ⟨?_, not_sep_of_mem_splitOnP hmem⟩
  rwa [Bool.not_eq_true', List.isEmpty_eq_false_iff] at hne

/-- A text without words has separators only. -/
theorem words_eq_nil_iff : words sep text = [] ↔ ∀ c ∈ text, sep c = true := by
  constructor
  · intro h
    induction text with
    | nil => exact fun c hc => absurd hc List.not_mem_nil
    | cons d text ih =>
      rw [words, List.splitOnP_cons_eq_if_modifyHead] at h
      split_ifs at h with hd
      · intro c hc
        obtain rfl | hc := List.mem_cons.mp hc
        · exact hd
        · exact ih h c hc
      · obtain ⟨first, rest, hpieces⟩ :=
          List.exists_cons_of_ne_nil (List.splitOnP_ne_nil sep text)
        rw [hpieces, List.modifyHead_cons, List.filter_cons_of_pos rfl] at h
        exact absurd h (List.cons_ne_nil _ _)
  · intro h
    have hnone := words_append_of_sep_left h []
    rwa [List.append_nil] at hnone

/-- **Joining texts by a separator joins their words.** -/
theorem words_intercalate {c : α} (hc : sep c = true) (texts : List (List α)) :
    words sep ([c].intercalate texts) = texts.flatMap (words sep) := by
  induction texts with
  | nil => rfl
  | cons t texts ih =>
    cases texts with
    | nil => rw [List.intercalate_singleton, List.flatMap_singleton]
    | cons u texts =>
      have hsep : ∀ d ∈ [c], sep d = true := fun d hd => by rwa [List.mem_singleton.mp hd]
      rw [List.intercalate_cons_cons, words_append_append (List.cons_ne_nil c []) hsep, ih]
      rfl

/-- **Words that are joined by a separator are found again.** -/
theorem words_join_words {c : α} (hc : sep c = true) {ws : List (List α)}
    (h : ∀ w ∈ ws, IsWord sep w) : words sep ([c].intercalate ws) = ws := by
  rw [words_intercalate hc]
  induction ws with
  | nil => rfl
  | cons w ws ih =>
    rw [List.flatMap_cons, words_of_isWord (h w List.mem_cons_self),
      ih fun v hv => h v (List.mem_cons_of_mem w hv), List.singleton_append]

/-! ### Pieces of a text -/

variable (sep) in
/-- The pieces of a text are what stands between some stretches of separators. -/
inductive Parted : List (List α) → List α → Prop where
  | last (p : List α) : Parted [p] p
  | cut (p : List α) {s : List α} {pieces : List (List α)} {rest : List α} (hne : s ≠ [])
      (hs : ∀ c ∈ s, sep c = true) (hrest : Parted pieces rest) :
      Parted (p :: pieces) (p ++ s ++ rest)

/-- One more character of the first piece. -/
theorem Parted.cons {pieces : List (List α)} (h : Parted sep pieces text) (c : α) :
    Parted sep (pieces.modifyHead (c :: ·)) (c :: text) := by
  cases h with
  | last => exact Parted.last (c :: text)
  | cut p hne hs hrest => exact Parted.cut (c :: p) hne hs hrest

/-- **The words of the pieces are the words of the text.** -/
theorem Parted.words_eq {pieces : List (List α)} (h : Parted sep pieces text) :
    pieces.flatMap (words sep) = words sep text := by
  induction h with
  | last => exact List.flatMap_singleton _ _
  | cut _ hne hs _ ih => rw [List.flatMap_cons, words_append_append hne hs, ih]

end Words

/-! ### Words of a text -/

namespace AnonReq.Text

/-- `text.split()`. -/
def words (text : Text) : List Text := Words.words isSpace text

/-- `" ".join(texts)`. -/
def joinWords (texts : List Text) : Text := [' '].intercalate texts

theorem isSpace_blank : isSpace ' ' = true := by decide

/-- Space around a text makes no difference to its words. -/
theorem words_strip (text : Text) : text.strip.words = text.words := by
  have hfront : ∀ c ∈ text.takeWhile isSpace, isSpace c = true := fun c hc =>
    List.mem_takeWhile_imp hc
  have hback : ∀ c ∈ (text.dropWhile isSpace).rtakeWhile isSpace, isSpace c = true := fun c hc =>
    List.mem_rtakeWhile_imp hc
  calc text.strip.words
      = words (text.strip ++ (text.dropWhile isSpace).rtakeWhile isSpace) :=
        (Words.words_append_of_sep_right hback _).symm
    _ = words (text.dropWhile isSpace) := by rw [strip, List.rdropWhile_append_rtakeWhile]
    _ = words (text.takeWhile isSpace ++ text.dropWhile isSpace) :=
        (Words.words_append_of_sep_left hfront _).symm
    _ = text.words := by rw [List.takeWhile_append_dropWhile]

/-- The words of texts that are joined. -/
theorem words_joinWords (texts : List Text) : (joinWords texts).words = texts.flatMap words :=
  Words.words_intercalate isSpace_blank texts

/-- Words of a text that are joined are found again. -/
theorem words_joinWords_of_subset {text : Text} {ws : List Text} (h : ∀ w ∈ ws, w ∈ text.words) :
    (joinWords ws).words = ws :=
  Words.words_join_words isSpace_blank fun w hw => Words.isWord_of_mem_words (h w hw)

/-- A text with something left when it is stripped has a word. -/
theorem words_ne_nil {text : Text} (h : text.strip ≠ []) : text.words ≠ [] := by
  intro hnone
  have hspace := Words.words_eq_nil_iff.mp hnone
  rw [strip, List.dropWhile_eq_nil_iff.mpr hspace] at h
  exact h rfl

end AnonReq.Text
