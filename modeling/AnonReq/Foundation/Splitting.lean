import Mathlib.Data.List.Infix

/-!
# Splitting texts

Cutting a list at the first occurrence of a separator, and a text at its line breaks. A text of
lines that end with a carriage return and a line feed is split into these lines, and a prefix of
it into the first of them and the beginning of another one.

* `cut_append`: a separator is found where it stands first.
* `append_cons_inj_of_front`, `append_cons_inj_of_back`: a text is split in one way at its first
  separator, and at its last one.
* `rcut_eq_some_iff`: the last separator of a text.
* `cut_prefix`: what is found in a prefix of a list.
* `cut_block`: a block of lines ends where two breaks follow each other first.
* `splitlines_intercalate`: lines without line breaks are read back.
* `splitlines_of_prefix`: the lines of a prefix.
* `fullLines_of_joined`: the lines with something in them, however each of them ends.
-/

namespace Splitting

section Block

/-- A block of lines: each line with a break, and one more break. -/
def block {α : Type*} (br : List α) (lines : List (List α)) : List α :=
  lines.flatMap (· ++ br) ++ br

variable {α : Type*} {br : List α} {lines : List (List α)}

theorem block_nil (br : List α) : block br [] = br := rfl

theorem block_cons (br line : List α) (lines : List (List α)) :
    block br (line :: lines) = line ++ (br ++ block br lines) := by
  rw [block, List.flatMap_cons, List.append_assoc, List.append_assoc]
  rfl

theorem map_block {β : Type*} (f : α → β) (br : List α) (lines : List (List α)) :
    (block br lines).map f = block (br.map f) (lines.map (List.map f)) := by
  induction lines with
  | nil => rfl
  | cons line lines ih =>
    rw [List.map_cons, block_cons, block_cons, List.map_append, List.map_append, ih]

theorem mem_block {c : α} (h : c ∈ block br lines) : c ∈ lines.flatten ∨ c ∈ br := by
  induction lines with
  | nil => exact Or.inr h
  | cons line lines ih =>
    rw [block_cons, List.mem_append, List.mem_append] at h
    rw [List.flatten_cons, List.mem_append]
    obtain hline | hbreak | hrest := h
    · exact Or.inl (Or.inl hline)
    · exact Or.inr hbreak
    · exact (ih hrest).imp_left Or.inr

theorem mem_block_of_mem {c : α} (h : c ∈ lines.flatten) : c ∈ block br lines := by
  induction lines with
  | nil => exact absurd h List.not_mem_nil
  | cons line lines ih =>
    rw [List.flatten_cons, List.mem_append] at h
    rw [block_cons, List.mem_append, List.mem_append]
    exact h.imp_right fun hrest => Or.inr (ih hrest)

end Block

section Cut

variable {α : Type*} [DecidableEq α]

/-- What stands before and after the first occurrence of a separator. -/
def cut (sep : List α) : List α → Option (List α × List α)
  | [] => none
  | c :: text =>
    if sep.isPrefixOf (c :: text) then some ([], (c :: text).drop sep.length)
    else (cut sep text).map fun parts => (c :: parts.1, parts.2)

/-- `text.partition(sep)`, without the separator. -/
def partition (sep text : List α) : List α × List α := (cut sep text).getD (text, [])

variable {sep : List α} {lines : List (List α)}

theorem cut_cons_of_not_starts {c : α} {text : List α} (h : ¬ sep <+: c :: text) :
    cut sep (c :: text) = (cut sep text).map fun parts => (c :: parts.1, parts.2) := by
  rw [cut, if_neg (mt List.isPrefixOf_iff_prefix.mp h)]

/-- A separator that stands at the front. -/
theorem cut_append_self (hsep : sep ≠ []) (b : List α) : cut sep (sep ++ b) = some ([], b) := by
  obtain ⟨c, rest, rfl⟩ := List.exists_cons_of_ne_nil hsep
  have hstarts : (c :: rest).isPrefixOf (c :: (rest ++ b)) = true :=
    List.isPrefixOf_iff_prefix.mpr (List.prefix_append (c :: rest) b)
  rw [List.cons_append, cut, if_pos hstarts, List.length_cons, List.drop_succ_cons,
    List.drop_left]

/-- A text without the first element of the separator is passed over. -/
theorem cut_append_of_not_mem {c : α} {a : List α} (ha : c ∉ a) (b : List α) :
    cut (c :: sep) (a ++ b) = (cut (c :: sep) b).map fun parts => (a ++ parts.1, parts.2) := by
  induction a with
  | nil => simp
  | cons d a ih =>
    obtain ⟨hd, ha⟩ := not_or.mp (mt List.mem_cons.mpr ha)
    have hnot : ¬ c :: sep <+: d :: (a ++ b) := fun hstarts =>
      hd (List.cons_prefix_cons.mp hstarts).1
    rw [List.cons_append, cut_cons_of_not_starts hnot, ih ha, Option.map_map]
    rfl

/-- **A single separator** is found where it stands first. -/
theorem cut_append {c : α} {a : List α} (ha : c ∉ a) (b : List α) :
    cut [c] (a ++ c :: b) = some (a, b) := by
  have hself : cut [c] (c :: b) = some ([], b) := cut_append_self (List.cons_ne_nil c []) b
  rw [cut_append_of_not_mem ha, hself, Option.map_some, List.append_nil]

/-- **One separator.** What stands in front of the first one, and behind it, is determined. -/
theorem append_cons_inj_of_front {c : α} {a b x y : List α} (ha : c ∉ a) (hb : c ∉ b)
    (h : a ++ c :: x = b ++ c :: y) : a = b ∧ x = y := by
  have hcut := cut_append ha x
  rw [h, cut_append hb y] at hcut
  obtain ⟨rfl, rfl⟩ := Prod.mk.inj (Option.some.inj hcut)
  exact ⟨rfl, rfl⟩

/-- What stands in front of the last separator, and behind it, is determined. -/
theorem append_cons_inj_of_back {c : α} {a b x y : List α} (hx : c ∉ x) (hy : c ∉ y)
    (h : a ++ c :: x = b ++ c :: y) : a = b ∧ x = y := by
  have hreverse : x.reverse ++ c :: a.reverse = y.reverse ++ c :: b.reverse := by
    simpa using congrArg List.reverse h
  obtain ⟨hback, hfront⟩ := append_cons_inj_of_front (mt List.mem_reverse.mp hx)
    (mt List.mem_reverse.mp hy) hreverse
  exact ⟨List.reverse_injective hfront, List.reverse_injective hback⟩

/-- `text.rsplit(c, 1)`: what stands before the last separator, and behind it. -/
def rcut (c : α) : List α → Option (List α × List α)
  | [] => none
  | d :: text =>
    match rcut c text with
    | some (a, b) => some (d :: a, b)
    | none => if d = c then some ([], text) else none

theorem rcut_eq_none_iff {c : α} {text : List α} : rcut c text = none ↔ c ∉ text := by
  induction text with
  | nil => simp [rcut]
  | cons d text ih =>
    rw [rcut, List.mem_cons, not_or, ← ih]
    cases rcut c text with
    | some parts => simp
    | none => simp [eq_comm]

/-- **The last separator** is found. -/
theorem rcut_eq_some_iff {c : α} {text a b : List α} :
    rcut c text = some (a, b) ↔ text = a ++ c :: b ∧ c ∉ b := by
  have hcut : ∀ {text a b : List α}, rcut c text = some (a, b) → text = a ++ c :: b ∧ c ∉ b := by
    intro text
    induction text with
    | nil => simp [rcut]
    | cons d text ih =>
      intro a b h
      rw [rcut] at h
      cases hrest : rcut c text with
      | some parts =>
        rw [hrest] at h
        obtain ⟨rfl, rfl⟩ := Prod.mk.inj (Option.some.inj h)
        obtain ⟨htext, hmem⟩ := ih hrest
        exact ⟨congrArg (d :: ·) htext, hmem⟩
      | none =>
        rw [hrest] at h
        dsimp only at h
        split_ifs at h with hd
        obtain ⟨rfl, rfl⟩ := Prod.mk.inj (Option.some.inj h)
        exact ⟨hd ▸ rfl, rcut_eq_none_iff.mp hrest⟩
  refine ⟨hcut, fun ⟨htext, hmem⟩ => ?_⟩
  cases hrcut : rcut c text with
  | none =>
    have hin : c ∈ text := by
      rw [htext]
      exact List.mem_append_right a List.mem_cons_self
    exact absurd hin (rcut_eq_none_iff.mp hrcut)
  | some parts =>
    obtain ⟨htext', hmem'⟩ := hcut hrcut
    obtain ⟨rfl, rfl⟩ := append_cons_inj_of_back hmem' hmem (htext'.symm.trans htext)
    rfl

theorem cut_eq_none {c : α} {a : List α} (ha : c ∉ a) : cut (c :: sep) a = none := by
  have hpass : cut (c :: sep) (a ++ []) = (cut (c :: sep) []).map fun p => (a ++ p.1, p.2) :=
    cut_append_of_not_mem ha []
  rwa [List.append_nil] at hpass

/-- What is cut is the text. -/
theorem eq_of_cut {text : List α} {parts : List α × List α} (h : cut sep text = some parts) :
    text = parts.1 ++ (sep ++ parts.2) := by
  induction text generalizing parts with
  | nil => exact absurd h (by simp [cut])
  | cons c text ih =>
    rw [cut] at h
    split_ifs at h with hstarts
    · obtain ⟨b, hb⟩ := List.isPrefixOf_iff_prefix.mp hstarts
      obtain rfl := Option.some.inj h
      rw [← hb, List.drop_left, List.nil_append]
    · obtain ⟨parts, hparts, rfl⟩ := Option.map_eq_some_iff.mp h
      rw [ih hparts, List.cons_append]

/-- What stands before a single separator does not contain it. -/
theorem not_mem_of_cut {c : α} {text : List α} {parts : List α × List α}
    (h : cut [c] text = some parts) : c ∉ parts.1 := by
  induction text generalizing parts with
  | nil => exact absurd h (by simp [cut])
  | cons d text ih =>
    rw [cut] at h
    split_ifs at h with hstarts
    · obtain rfl := Option.some.inj h
      exact List.not_mem_nil
    · obtain ⟨parts, hparts, rfl⟩ := Option.map_eq_some_iff.mp h
      have hcd : c ≠ d := fun hcd =>
        hstarts (List.isPrefixOf_iff_prefix.mpr (List.cons_prefix_cons.mpr ⟨hcd, by simp⟩))
      exact List.mem_cons.not.mpr (not_or.mpr ⟨hcd, ih hparts⟩)

/-- **A prefix of a text** holds the first separator with the beginning of what follows it, or no
separator. -/
theorem cut_prefix (hsep : sep ≠ []) {data rest a b : List α}
    (h : cut sep (data ++ rest) = some (a, b)) :
    (∃ b', cut sep data = some (a, b') ∧ b = b' ++ rest) ∨
      cut sep data = none ∧ data.length < a.length + sep.length := by
  induction data generalizing a with
  | nil =>
    refine Or.inr ⟨rfl, ?_⟩
    have := List.length_pos_of_ne_nil hsep
    rw [List.length_nil]
    omega
  | cons c data ih =>
    by_cases hstarts : sep <+: c :: data
    · obtain ⟨b', hb'⟩ := hstarts
      have hcut : cut sep (c :: data ++ rest) = some ([], b' ++ rest) := by
        rw [← hb', List.append_assoc]
        exact cut_append_self hsep _
      obtain ⟨rfl, rfl⟩ := Prod.mk.inj (Option.some.inj (hcut.symm.trans h))
      exact Or.inl ⟨b', by rw [← hb', cut_append_self hsep], rfl⟩
    · by_cases hlater : sep <+: c :: (data ++ rest)
      -- the separator begins in the prefix and ends after it
      · obtain ⟨b', hb'⟩ := hlater
        have hlong : (c :: data).length < sep.length := by
          by_contra hle
          exact hstarts (List.prefix_of_prefix_length_le ⟨b', hb'⟩
            (List.prefix_append (c :: data) rest) (not_lt.mp hle))
        have hnone : cut sep (c :: data) = none := by
          refine Option.eq_none_iff_forall_ne_some.mpr fun parts hparts => ?_
          have htotal := congrArg List.length (eq_of_cut hparts)
          rw [List.length_append, List.length_append] at htotal
          omega
        exact Or.inr ⟨hnone, by omega⟩
      · rw [List.cons_append, cut_cons_of_not_starts hlater] at h
        obtain ⟨parts, hparts, heq⟩ := Option.map_eq_some_iff.mp h
        obtain ⟨rfl, rfl⟩ := Prod.mk.inj heq
        rw [cut_cons_of_not_starts hstarts]
        obtain ⟨b', hcut, hb⟩ | ⟨hcut, hlength⟩ := ih hparts
        · exact Or.inl ⟨b', by rw [hcut]; rfl, hb⟩
        · refine Or.inr ⟨by rw [hcut]; rfl, ?_⟩
          rw [List.length_cons, List.length_cons]
          omega

/-- **A block is cut** at its end, where two breaks follow each other first. -/
theorem cut_block {cr lf : α} (hbreak : cr ≠ lf) (hlines : lines ≠ [])
    (hne : ∀ line ∈ lines, line ≠ []) (hcr : ∀ line ∈ lines, cr ∉ line) (body : List α) :
    cut [cr, lf, cr, lf] (block [cr, lf] lines ++ body) =
      some (List.intercalate [cr, lf] lines, body) := by
  induction lines with
  | nil => exact absurd rfl hlines
  | cons line lines ih =>
    obtain ⟨hline, hrest⟩ := List.forall_mem_cons.mp hcr
    obtain ⟨-, hnext⟩ := List.forall_mem_cons.mp hne
    rw [block_cons, List.append_assoc, cut_append_of_not_mem hline]
    by_cases hnil : lines = []
    · subst hnil
      have hself : cut [cr, lf, cr, lf] ([cr, lf, cr, lf] ++ body) = some ([], body) :=
        cut_append_self (List.cons_ne_nil _ _) body
      rw [block_nil, List.intercalate_singleton, List.append_assoc]
      exact (congrArg (Option.map _) hself).trans (by simp)
    · -- The next line begins with another element, so no two breaks follow each other here.
      have hnot : ∀ text, ¬ [cr, lf, cr, lf] <+: lf :: text := fun text hstarts =>
        hbreak (List.cons_prefix_cons.mp hstarts).1
      have hnot' : ¬ [cr, lf, cr, lf] <+: cr :: lf :: (block [cr, lf] lines ++ body) := by
        intro hstarts
        obtain ⟨next, others, rfl⟩ := List.exists_cons_of_ne_nil hnil
        obtain ⟨c, next, rfl⟩ := List.exists_cons_of_ne_nil (hnext next List.mem_cons_self)
        rw [block_cons] at hstarts
        have hc := (List.cons_prefix_cons.mp
          (List.cons_prefix_cons.mp (List.cons_prefix_cons.mp hstarts).2).2).1
        exact hrest (c :: next) List.mem_cons_self (hc ▸ List.mem_cons_self)
      have hpair : [cr, lf] ++ block [cr, lf] lines ++ body =
          cr :: lf :: (block [cr, lf] lines ++ body) := rfl
      rw [hpair, cut_cons_of_not_starts hnot', cut_cons_of_not_starts (hnot _),
        ih hnil hnext hrest, List.intercalate_cons_of_ne_nil hnil]
      simp

end Cut

/-- The number of pieces. -/
theorem length_splitOn {β : Type*} [DecidableEq β] (c : β) (text : List β) :
    (text.splitOn c).length = text.count c + 1 := by
  rw [List.splitOn_eq_splitOnP]
  induction text with
  | nil => rfl
  | cons d text ih =>
    rw [List.splitOnP_cons_eq_if_modifyHead]
    by_cases h : d = c
    · subst h
      simp [ih]
    · simp [h, ih]

/-! ### Lines -/

/-- The characters at which `str.splitlines` ends a line. -/
def isLineBreak (c : Char) : Bool :=
  [0x0A, 0x0B, 0x0C, 0x0D, 0x1C, 0x1D, 0x1E, 0x85, 0x2028, 0x2029].contains c.toNat

/-- The lines of a text; a line feed right after a carriage return belongs to the same break. -/
def linesFrom : Bool → List Char → List (List Char)
  | _, [] => []
  | afterCr, c :: text =>
    if afterCr && c == '\n' then linesFrom false text
    else if isLineBreak c then [] :: linesFrom (c == '\r') text
    else
      match linesFrom false text with
      | [] => [[c]]
      | line :: lines => (c :: line) :: lines

/-- `text.splitlines()`. -/
def splitlines (text : List Char) : List (List Char) := linesFrom false text

/-- A text without line breaks. -/
def OneLine (text : List Char) : Prop := ∀ c ∈ text, isLineBreak c = false

instance (text : List Char) : Decidable (OneLine text) :=
  inferInstanceAs (Decidable (∀ c ∈ text, _))

theorem oneLine_append {a b : List Char} (ha : OneLine a) (hb : OneLine b) : OneLine (a ++ b) :=
  List.forall_mem_append.mpr ⟨ha, hb⟩

theorem linesFrom_cons {c : Char} (hc : isLineBreak c = false) (text : List Char) :
    linesFrom false (c :: text) =
      match linesFrom false text with
      | [] => [[c]]
      | line :: lines => (c :: line) :: lines := by
  rw [linesFrom, hc]
  rfl

/-- A line at the end of a text. -/
theorem splitlines_of_oneLine {line : List Char} (h : OneLine line) (hne : line ≠ []) :
    splitlines line = [line] := by
  rw [splitlines]
  induction line with
  | nil => exact absurd rfl hne
  | cons c line ih =>
    obtain ⟨hc, hline⟩ := List.forall_mem_cons.mp h
    rw [linesFrom_cons hc]
    by_cases hnil : line = []
    · rw [hnil]
      rfl
    · rw [ih hline hnil]

/-- **A line before a line break.** -/
theorem splitlines_append {line : List Char} (h : OneLine line) {c : Char}
    (hc : isLineBreak c = true) (text : List Char) :
    splitlines (line ++ c :: text) = line :: linesFrom (c == '\r') text := by
  rw [splitlines]
  induction line with
  | nil =>
    rw [List.nil_append, linesFrom, hc]
    rfl
  | cons d line ih =>
    obtain ⟨hd, hline⟩ := List.forall_mem_cons.mp h
    rw [List.cons_append, linesFrom_cons hd, ih hline]

/-- The break of a line in a message. -/
def crlf : List Char := ['\r', '\n']

theorem splitlines_append_crlf {line : List Char} (h : OneLine line) (text : List Char) :
    splitlines (line ++ (crlf ++ text)) = line :: splitlines text :=
  splitlines_append h (c := '\r') (by decide) ('\n' :: text)

theorem splitlines_append_cr {line : List Char} (h : OneLine line) :
    splitlines (line ++ ['\r']) = [line] :=
  splitlines_append h (c := '\r') (by decide) []

/-- No line has a line break in it. -/
theorem oneLine_of_mem_splitlines {text line : List Char} (h : line ∈ splitlines text) :
    OneLine line := by
  have hfrom : ∀ (text : List Char) (afterCr : Bool), ∀ line ∈ linesFrom afterCr text,
      OneLine line := by
    intro text
    induction text with
    | nil => exact fun _ line hline => absurd hline List.not_mem_nil
    | cons c text ih =>
      intro afterCr line hline
      rw [linesFrom] at hline
      split_ifs at hline with hlf hbreak
      · exact ih _ line hline
      · obtain rfl | hline := List.mem_cons.mp hline
        · exact fun c hc => absurd hc List.not_mem_nil
        · exact ih _ line hline
      · have hc : isLineBreak c = false := Bool.not_eq_true _ ▸ hbreak
        have htext := ih false
        split at hline
        · obtain rfl := List.mem_singleton.mp hline
          exact List.forall_mem_singleton.mpr hc
        · rename_i first lines hlines
          rw [hlines] at htext
          obtain ⟨hfirst, hrest⟩ := List.forall_mem_cons.mp htext
          obtain rfl | hline := List.mem_cons.mp hline
          · exact List.forall_mem_cons.mpr ⟨hc, hfirst⟩
          · exact hrest line hline
  exact hfrom text false line h

/-- **Lines are read back.** -/
theorem splitlines_intercalate {lines : List (List Char)} (h : ∀ line ∈ lines, OneLine line)
    (hne : ∀ line ∈ lines, line ≠ []) : splitlines (crlf.intercalate lines) = lines := by
  induction lines with
  | nil => rfl
  | cons line lines ih =>
    obtain ⟨hline, hlines⟩ := List.forall_mem_cons.mp h
    obtain ⟨hfirst, hrest⟩ := List.forall_mem_cons.mp hne
    by_cases hnil : lines = []
    · subst hnil
      rw [List.intercalate_singleton]
      exact splitlines_of_oneLine hline hfirst
    · rw [List.intercalate_cons_of_ne_nil hnil, List.append_assoc, splitlines_append_crlf hline,
        ih hlines hrest]

/-- **The lines of a proper prefix** of a block: some lines of the block and the beginning of the
next one, where the prefix leaves out the rest of that line, the other lines and breaks; or all
lines, where it leaves out breaks only. -/
theorem splitlines_of_prefix {lines : List (List Char)} (h : ∀ line ∈ lines, OneLine line)
    (hne : ∀ line ∈ lines, line ≠ []) {data rest : List Char}
    (hsplit : data ++ rest = block crlf lines) (hrest : rest ≠ []) :
    (∃ done p s todo, lines = done ++ (p ++ s) :: todo ∧
      (splitlines data = done ∧ p = [] ∨ splitlines data = done ++ [p]) ∧
      (∀ c ∈ rest, c ∈ s ∨ c ∈ todo.flatten ∨ c ∈ crlf) ∧
      ∀ c, c ∈ s ∨ c ∈ todo.flatten → c ∈ rest) ∨
    (splitlines data = lines ∨ splitlines data = lines ++ [[]]) ∧ ∀ c ∈ rest, c ∈ crlf := by
  induction lines generalizing data with
  | nil =>
    rw [block_nil] at hsplit
    refine Or.inr ⟨?_, fun c hc => hsplit ▸ List.mem_append_right data hc⟩
    obtain _ | ⟨c, _ | ⟨d, data⟩⟩ := data
    · exact Or.inl rfl
    · obtain ⟨rfl, -⟩ := List.cons.inj hsplit
      exact Or.inr rfl
    · obtain ⟨-, hnil⟩ := List.cons.inj (List.cons.inj hsplit).2
      exact absurd (List.append_eq_nil_iff.mp hnil).2 hrest
  | cons line lines ih =>
    obtain ⟨hline, htail⟩ := List.forall_mem_cons.mp h
    obtain ⟨hfirst, hnext⟩ := List.forall_mem_cons.mp hne
    rw [block_cons] at hsplit
    -- What follows the first line is made of the other lines and of breaks.
    have hafter : ∀ c ∈ block crlf lines, c ∈ lines.flatten ∨ c ∈ crlf := fun c => mem_block
    obtain ⟨s, rfl, rfl⟩ | ⟨e, rfl, he⟩ := List.append_eq_append_iff.mp hsplit
    · refine Or.inl ⟨[], data, s, lines, rfl, ?_, fun c hc => ?_, fun c hc => ?_⟩
      · obtain rfl | hdata := Classical.em (data = [])
        · exact Or.inl ⟨rfl, rfl⟩
        · exact Or.inr (splitlines_of_oneLine
            (fun c hc => hline c (List.mem_append_left s hc)) hdata)
      · rw [List.mem_append, List.mem_append] at hc
        obtain hc | hc | hc := hc
        · exact Or.inl hc
        · exact Or.inr (Or.inr hc)
        · exact Or.inr (hafter c hc)
      · rw [List.mem_append, List.mem_append]
        exact hc.imp_right fun hc => Or.inr (mem_block_of_mem hc)
    · obtain _ | ⟨c, e⟩ := e
      · rw [List.nil_append] at he
        subst he
        rw [List.append_nil]
        refine Or.inl ⟨[], line, [], lines, by simp, Or.inr (splitlines_of_oneLine hline hfirst),
          fun c hc => ?_, fun c hc => ?_⟩
        · obtain hc | hc := List.mem_append.mp hc
          · exact Or.inr (Or.inr hc)
          · exact Or.inr (hafter c hc)
        · exact List.mem_append_right crlf (mem_block_of_mem (hc.resolve_left List.not_mem_nil))
      · obtain ⟨rfl, hlf⟩ := List.cons.inj he
        obtain _ | ⟨c, data⟩ := e
        · obtain rfl : '\n' :: block crlf lines = rest := hlf
          refine Or.inl ⟨[], line, [], lines, by simp, Or.inr (splitlines_append_cr hline),
            fun c hc => ?_, fun c hc => ?_⟩
          · obtain rfl | hc := List.mem_cons.mp hc
            · exact Or.inr (Or.inr (by decide))
            · exact Or.inr (hafter c hc)
          · exact List.mem_cons_of_mem _ (mem_block_of_mem (hc.resolve_left List.not_mem_nil))
        · obtain ⟨rfl, hdata⟩ := List.cons.inj hlf
          have hread : splitlines (line ++ '\r' :: '\n' :: data) = line :: splitlines data :=
            splitlines_append_crlf hline data
          rw [hread]
          obtain ⟨done, p, s, todo, rfl, hp, hmem, hmem'⟩ | ⟨hall, hmem⟩ :=
            ih htail hnext hdata.symm
          · refine Or.inl ⟨line :: done, p, s, todo, rfl, ?_, hmem, hmem'⟩
            exact hp.imp (And.imp_left (congrArg (line :: ·))) (congrArg (line :: ·))
          · exact Or.inr ⟨hall.imp (congrArg (line :: ·)) (congrArg (line :: ·)), hmem⟩

/-! ### Lines with something in them -/

/-- The lines of a text that are not empty. -/
def fullLines (text : List Char) : List (List Char) := (splitlines text).filter (· ≠ [])

theorem filter_linesFrom (afterCr : Bool) (text : List Char) :
    (linesFrom afterCr text).filter (· ≠ []) = fullLines text := by
  cases afterCr with
  | false => rfl
  | true =>
    cases text with
    | nil => rfl
    | cons c text =>
      by_cases hc : c = '\n'
      · subst hc
        rfl
      · rw [fullLines, splitlines, linesFrom, linesFrom]
        simp [hc]

theorem fullLines_of_oneLine {line : List Char} (h : OneLine line) (hne : line ≠ []) :
    fullLines line = [line] := by
  rw [fullLines, splitlines_of_oneLine h hne]
  exact List.filter_cons_of_pos (by simp [hne])

/-- A line before its break. -/
theorem fullLines_oneLine_append {line : List Char} (h : OneLine line) {c : Char}
    (hc : isLineBreak c = true) (text : List Char) :
    fullLines (line ++ c :: text) = fullLines line ++ fullLines text := by
  rw [fullLines, splitlines_append h hc]
  by_cases hne : line = []
  · subst hne
    exact filter_linesFrom _ text
  · rw [List.filter_cons_of_pos (by simp [hne]), filter_linesFrom, fullLines_of_oneLine h hne]
    rfl

/-- A text that is not one line, up to its first break. -/
theorem exists_first_break {text : List Char} (h : ¬ OneLine text) :
    ∃ line c more, text = line ++ c :: more ∧ OneLine line ∧ isLineBreak c = true := by
  induction text with
  | nil => exact absurd (fun _ hc => absurd hc List.not_mem_nil) h
  | cons c text ih =>
    by_cases hc : isLineBreak c = true
    · exact ⟨[], c, text, rfl, fun _ hd => absurd hd List.not_mem_nil, hc⟩
    · have hc' : isLineBreak c = false := Bool.not_eq_true _ ▸ hc
      obtain ⟨line, d, more, rfl, hline, hd⟩ := ih fun htext =>
        h (List.forall_mem_cons.mpr ⟨hc', htext⟩)
      exact ⟨c :: line, d, more, rfl, List.forall_mem_cons.mpr ⟨hc', hline⟩, hd⟩

/-- **A break between two texts.** -/
theorem fullLines_append (a : List Char) {c : Char} (hc : isLineBreak c = true) (b : List Char) :
    fullLines (a ++ c :: b) = fullLines a ++ fullLines b := by
  induction hlength : a.length using Nat.strong_induction_on generalizing a with
  | _ n ih =>
    by_cases ha : OneLine a
    · exact fullLines_oneLine_append ha hc b
    · obtain ⟨line, d, more, rfl, hline, hd⟩ := exists_first_break ha
      have hmore : more.length < n := by
        rw [← hlength, List.length_append, List.length_cons]
        omega
      rw [List.append_assoc, List.cons_append, fullLines_oneLine_append hline hd,
        fullLines_oneLine_append hline hd, ih _ hmore more rfl, List.append_assoc]

/-- What is read of lines, and nothing of empty ones, is read of the full lines. -/
theorem filterMap_fullLines {β : Type*} {g : List Char → Option β} (h : g [] = none)
    (text : List Char) : (fullLines text).filterMap g = (splitlines text).filterMap g := by
  rw [fullLines, List.filterMap_filter]
  refine List.filterMap_congr fun line _ => ?_
  by_cases hline : line = []
  · subst hline
    exact h.symm
  · simp [hline]

/-- How a line ends. -/
inductive LineEnd where
  | lf
  | cr
  | crlf
deriving DecidableEq, Repr

/-- The characters that end a line. -/
def LineEnd.text : LineEnd → List Char
  | .lf => ['\n']
  | .cr => ['\r']
  | .crlf => ['\r', '\n']

/-- The text consists of the lines, each with its end, which the last one need not have. -/
inductive Joined : List (List Char) → List Char → Prop
  | nil : Joined [] []
  | last (line : List Char) : Joined [line] line
  | cons (line : List Char) (lineEnd : LineEnd) {lines : List (List Char)} {text : List Char} :
      Joined lines text → Joined (line :: lines) (line ++ (lineEnd.text ++ text))

theorem joined_lf (lines : List (List Char)) :
    Joined lines (lines.flatMap fun line => line ++ ['\n']) := by
  induction lines with
  | nil => exact Joined.nil
  | cons line lines ih =>
    rw [List.flatMap_cons, List.append_assoc]
    exact Joined.cons line .lf ih

/-- **The lines of a text that is joined** are those of its lines. -/
theorem fullLines_of_joined {lines : List (List Char)} {text : List Char} (h : Joined lines text) :
    fullLines text = lines.flatMap fullLines := by
  induction h with
  | nil => rfl
  | last line => exact (List.flatMap_singleton ..).symm
  | cons line lineEnd _ ih =>
    rw [List.flatMap_cons, ← ih]
    cases lineEnd with
    | lf => exact fullLines_append line (by decide) _
    | cr => exact fullLines_append line (by decide) _
    | crlf =>
      rw [LineEnd.text, List.cons_append, fullLines_append line (by decide)]
      exact congrArg _ (fullLines_append [] (by decide) _)

end Splitting
