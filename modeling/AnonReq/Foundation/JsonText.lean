import Mathlib.Data.Nat.Init
import AnonReq.Foundation.Substitution

/-!
# JSON as a text

A machine that reads a JSON text character by character: a mode, and the stack of the arrays and
objects that are open. A text is JSON if the machine reads all of it and is at the end of a value
with nothing open.

* `run_append`: a text is read in two parts. `run_plain`: inside of a string, plain characters
  change nothing.
* `run_bracketed`: a word in brackets with an underscore is read inside of a string only.
* `isJson_interleave_iff`: words that replace parts of a text leave it JSON exactly if it is JSON
  without these parts, and each of them was inside of a string.
* `run_subst`: replacing matches by what is read alike.
-/

namespace JsonText

/-! ### The machine -/

/-- What is open. -/
inductive Container where
  | array
  | object
deriving DecidableEq, Repr

/-- Inside of a string: between two characters, after a backslash, or with so many hexadecimal
digits to come after the next one. -/
inductive Escape where
  | none
  | backslash
  | hex (more : ℕ)
deriving DecidableEq, Repr

/-- How far a number is read. -/
inductive Number where
  | minus
  | zero
  | digits
  | point
  | fraction
  | exponent
  | sign
  | power
deriving DecidableEq, Repr

/-- The words that are values. -/
inductive Word where
  | true
  | false
  | null
deriving DecidableEq, Repr

/-- What is read, or expected next. -/
inductive Mode where
  | value
  | item
  | field
  | fieldName
  | colon
  | string (isName : Bool) (escape : Escape)
  | number (progress : Number)
  | word (w : Word) (read : ℕ)
  | after
deriving DecidableEq, Repr

/-- A state of the machine. -/
structure State where
  mode : Mode
  stack : List Container
deriving DecidableEq, Repr

/-- Space between the parts of a text. -/
def isBlank (c : Char) : Bool := c == ' ' || c == '\t' || c == '\n' || c == '\r'

/-- A digit. -/
def isDigit (c : Char) : Bool := '0' ≤ c && c ≤ '9'

/-- A hexadecimal digit. -/
def isHex (c : Char) : Bool := isDigit c || ('a' ≤ c && c ≤ 'f') || ('A' ≤ c && c ≤ 'F')

/-- A character that stands for itself inside of a string. -/
def isPlain (c : Char) : Bool := c != '"' && c != '\\' && 0x20 ≤ c.toNat

/-- One character inside of a string, which does not end it. -/
def escapeStep : Escape → Char → Option Escape
  | .none, c => if c = '\\' then some .backslash else if isPlain c then some .none else none
  | .backslash, c =>
    if "\"\\/bfnrt".toList.contains c then some .none
    else if c = 'u' then some (.hex 3) else none
  | .hex more, c =>
    if isHex c then some (match more with | 0 => .none | more + 1 => .hex more) else none

/-- One character of a number. -/
def numberStep : Number → Char → Option Number
  | .minus, c => if c = '0' then some .zero else if isDigit c then some .digits else none
  | .zero, c =>
    if c = '.' then some .point else if c = 'e' || c = 'E' then some .exponent else none
  | .digits, c =>
    if isDigit c then some .digits
    else if c = '.' then some .point else if c = 'e' || c = 'E' then some .exponent else none
  | .point, c => if isDigit c then some .fraction else none
  | .fraction, c =>
    if isDigit c then some .fraction
    else if c = 'e' || c = 'E' then some .exponent else none
  | .exponent, c =>
    if isDigit c then some .power else if c = '+' || c = '-' then some .sign else none
  | .sign, c => if isDigit c then some .power else none
  | .power, c => if isDigit c then some .power else none

/-- A number may end here. -/
def Number.complete : Number → Bool
  | .zero | .digits | .fraction | .power => true
  | _ => false

/-- The letters of a word. -/
def Word.letters : Word → List Char
  | .true => "true".toList
  | .false => "false".toList
  | .null => "null".toList

/-- A character after a value. -/
def afterStep (stack : List Container) (c : Char) : Option State :=
  if isBlank c then some ⟨.after, stack⟩
  else
    match stack with
    | [] => none
    | .array :: rest =>
      if c = ',' then some ⟨.value, stack⟩ else if c = ']' then some ⟨.after, rest⟩ else none
    | .object :: rest =>
      if c = ',' then some ⟨.fieldName, stack⟩ else if c = '}' then some ⟨.after, rest⟩ else none

/-- The first character of a value. -/
def valueStep (stack : List Container) (c : Char) : Option State :=
  if c = '"' then some ⟨.string false .none, stack⟩
  else if c = '[' then some ⟨.item, .array :: stack⟩
  else if c = '{' then some ⟨.field, .object :: stack⟩
  else if c = '-' then some ⟨.number .minus, stack⟩
  else if c = '0' then some ⟨.number .zero, stack⟩
  else if isDigit c then some ⟨.number .digits, stack⟩
  else if c = 't' then some ⟨.word .true 1, stack⟩
  else if c = 'f' then some ⟨.word .false 1, stack⟩
  else if c = 'n' then some ⟨.word .null 1, stack⟩
  else none

/-- One character. -/
def step (s : State) (c : Char) : Option State :=
  match s.mode with
  | .value => if isBlank c then some s else valueStep s.stack c
  | .item =>
    if isBlank c then some s
    else if c = ']' then some ⟨.after, s.stack.tail⟩ else valueStep s.stack c
  | .field =>
    if isBlank c then some s
    else if c = '}' then some ⟨.after, s.stack.tail⟩
    else if c = '"' then some ⟨.string true .none, s.stack⟩ else none
  | .fieldName =>
    if isBlank c then some s
    else if c = '"' then some ⟨.string true .none, s.stack⟩ else none
  | .colon =>
    if isBlank c then some s else if c = ':' then some ⟨.value, s.stack⟩ else none
  | .string isName escape =>
    if escape = .none ∧ c = '"' then some ⟨if isName then .colon else .after, s.stack⟩
    else (escapeStep escape c).map fun escape => ⟨.string isName escape, s.stack⟩
  | .number progress =>
    -- nothing marks the end of a number: what ends it is read as what follows a value
    match numberStep progress c with
    | some progress => some ⟨.number progress, s.stack⟩
    | none => if progress.complete then afterStep s.stack c else none
  | .word w read =>
    if w.letters[read]? = some c then
      some ⟨if read + 1 = w.letters.length then .after else .word w (read + 1), s.stack⟩
    else none
  | .after => afterStep s.stack c

/-- Read a text. -/
def run (s : State) (text : List Char) : Option State := text.foldlM step s

/-- Nothing has been read. -/
def start : State := ⟨.value, []⟩

/-- A value has been read, and nothing is open. -/
def State.accepts (s : State) : Bool :=
  s.stack.isEmpty &&
    match s.mode with
    | .after => true
    | .number progress => progress.complete
    | _ => false

/-- A text is JSON. -/
def IsJson (text : List Char) : Prop := ∃ s, run start text = some s ∧ s.accepts = true

instance (text : List Char) : Decidable (IsJson text) :=
  decidable_of_iff ((run start text).any State.accepts = true) <| by
    rw [IsJson]
    cases run start text <;> simp

example : IsJson "\x7b\"a\": [1, -2.5e+3, \"\\u00e9\\n\", true], \"b\": \x7b\x7d\x7d".toList := by
  decide

example : ¬ IsJson "\x7b\"a\": [PHONE_1]\x7d".toList := by decide

/-! ### Reading in parts -/

theorem run_cons (s : State) (c : Char) (text : List Char) :
    run s (c :: text) = (step s c).bind fun s => run s text := rfl

/-- **Reading in parts.** -/
theorem run_append (s : State) (a b : List Char) :
    run s (a ++ b) = (run s a).bind fun s => run s b :=
  List.foldlM_append

/-! ### Strings -/

/-- Inside of a string, between two characters. -/
def State.inString (s : State) : Bool :=
  match s.mode with
  | .string _ .none => true
  | _ => false

theorem inString_iff {s : State} :
    s.inString = true ↔ ∃ isName, s.mode = .string isName .none := by
  obtain ⟨mode, stack⟩ := s
  cases mode with
  | string isName escape => cases escape <;> simp [State.inString]
  | _ => simp [State.inString]

/-- Read the inside of a string. -/
def runEscape (escape : Escape) (text : List Char) : Option Escape := text.foldlM escapeStep escape

/-- A text that can stand inside of a string, and leaves it open. -/
def Enclosed (text : List Char) : Prop := runEscape .none text = some .none

instance (text : List Char) : Decidable (Enclosed text) := inferInstanceAs (Decidable (_ = _))

theorem escapeStep_quote : escapeStep .none '"' = none := by decide

theorem ne_of_isPlain {c : Char} (h : isPlain c = true) : c ≠ '"' ∧ c ≠ '\\' := by
  simp only [isPlain, Bool.and_eq_true, bne_iff_ne] at h
  exact h.1

theorem escapeStep_plain {c : Char} (h : isPlain c = true) : escapeStep .none c = some .none := by
  rw [escapeStep, if_neg (ne_of_isPlain h).2, if_pos h]

variable {text : List Char}

theorem enclosed_of_plain (h : ∀ c ∈ text, isPlain c = true) : Enclosed text := by
  induction text with
  | nil => rfl
  | cons c text ih =>
    obtain ⟨hc, htext⟩ := List.forall_mem_cons.mp h
    rw [Enclosed, runEscape, List.foldlM_cons, escapeStep_plain hc]
    exact ih htext

/-- What can stand inside of a string is read there. -/
theorem run_of_runEscape {isName : Bool} {stack : List Container} {escape escape' : Escape}
    (h : runEscape escape text = some escape') :
    run ⟨.string isName escape, stack⟩ text = some ⟨.string isName escape', stack⟩ := by
  induction text generalizing escape with
  | nil =>
    obtain rfl := Option.some.inj h
    rfl
  | cons c text ih =>
    rw [runEscape, List.foldlM_cons] at h
    obtain ⟨next, hnext, h⟩ := Option.bind_eq_some_iff.mp h
    -- the quote that ends a string is no character inside of it
    have hopen : ¬ (escape = .none ∧ c = '"') := by
      rintro ⟨rfl, rfl⟩
      rw [escapeStep_quote] at hnext
      exact absurd hnext (Option.some_ne_none next).symm
    rw [run_cons, step]
    dsimp only
    rw [if_neg hopen, hnext, Option.map_some, Option.bind_some]
    exact ih h

theorem run_of_enclosed {s : State} (hs : s.inString = true) (h : Enclosed text) :
    run s text = some s := by
  obtain ⟨isName, hmode⟩ := inString_iff.mp hs
  obtain ⟨mode, stack⟩ := s
  obtain rfl : mode = .string isName .none := hmode
  exact run_of_runEscape h

/-- **Inside of a string, plain characters change nothing.** -/
theorem run_plain {s : State} (hs : s.inString = true) (htext : ∀ c ∈ text, isPlain c = true) :
    run s text = some s :=
  run_of_enclosed hs (enclosed_of_plain htext)

/-! ### Outside of strings -/

/-- Outside of strings. -/
def State.outside (s : State) : Bool :=
  match s.mode with
  | .string _ _ => false
  | _ => true

theorem outside_of_afterStep {stack : List Container} {c : Char} {s : State}
    (h : afterStep stack c = some s) : s.outside = true := by
  rcases stack with _ | ⟨_ | _, rest⟩ <;> simp only [afterStep] at h <;> split_ifs at h <;>
    (obtain rfl := Option.some.inj h; rfl)

theorem outside_of_valueStep {stack : List Container} {c : Char} (hc : c ≠ '"') {s : State}
    (h : valueStep stack c = some s) : s.outside = true := by
  rw [valueStep, if_neg hc] at h
  split_ifs at h <;> (obtain rfl := Option.some.inj h; rfl)

/-- A string begins with its quote only. -/
theorem outside_of_step {s next : State} (hs : s.outside = true) {c : Char} (hc : c ≠ '"')
    (h : step s c = some next) : next.outside = true := by
  obtain ⟨mode, stack⟩ := s
  cases mode with
  | value =>
    rw [step] at h
    dsimp only at h
    split_ifs at h
    · obtain rfl := Option.some.inj h
      rfl
    · exact outside_of_valueStep hc h
  | item =>
    rw [step] at h
    dsimp only at h
    split_ifs at h
    · obtain rfl := Option.some.inj h
      rfl
    · obtain rfl := Option.some.inj h
      rfl
    · exact outside_of_valueStep hc h
  | field =>
    rw [step] at h
    dsimp only at h
    split_ifs at h <;> (obtain rfl := Option.some.inj h; rfl)
  | fieldName =>
    rw [step] at h
    dsimp only at h
    split_ifs at h
    obtain rfl := Option.some.inj h
    rfl
  | colon =>
    rw [step] at h
    dsimp only at h
    split_ifs at h <;> (obtain rfl := Option.some.inj h; rfl)
  | string isName escape => exact absurd hs Bool.false_ne_true
  | number progress =>
    rw [step] at h
    dsimp only at h
    split at h
    · obtain rfl := Option.some.inj h
      rfl
    · split_ifs at h
      exact outside_of_afterStep h
  | word w read =>
    rw [step] at h
    dsimp only at h
    split_ifs at h <;> (obtain rfl := Option.some.inj h; rfl)
  | after => exact outside_of_afterStep h

theorem outside_of_run {s next : State} (hs : s.outside = true) (htext : '"' ∉ text)
    (h : run s text = some next) : next.outside = true := by
  induction text generalizing s with
  | nil => exact Option.some.inj h ▸ hs
  | cons c text ih =>
    have hc : c ≠ '"' := fun heq => htext (heq ▸ List.mem_cons_self)
    obtain ⟨s', hs', h⟩ := Option.bind_eq_some_iff.mp (run_cons s c text ▸ h)
    exact ih (outside_of_step hs hc hs') (fun hmem => htext (List.mem_cons_of_mem c hmem)) h

/-- Outside of strings there are no underscores. -/
theorem step_underscore {s : State} (hs : s.outside = true) : step s '_' = none := by
  have hafter : ∀ stack, afterStep stack '_' = none := fun stack => by
    rcases stack with _ | ⟨_ | _, _⟩ <;> rfl
  obtain ⟨mode, stack⟩ := s
  cases mode with
  | string isName escape => exact absurd hs Bool.false_ne_true
  | number progress => cases progress <;> first | rfl | exact hafter stack
  | word w read =>
    have hletters : w.letters[read]? ≠ some '_' := fun h =>
      absurd (List.mem_of_getElem? h) (by cases w <;> decide)
    exact if_neg hletters
  | after => exact hafter stack
  | _ => rfl

/-- After a backslash, and inside of an escape, there are no brackets. -/
theorem step_open_of_escape {isName : Bool} {escape : Escape} (hescape : escape ≠ .none)
    (stack : List Container) : step ⟨.string isName escape, stack⟩ '[' = none := by
  cases escape with
  | none => exact absurd rfl hescape
  | backslash => rfl
  | hex more => rfl

/-- Every state is inside of a string, inside of an escape or outside of strings. -/
theorem State.cases (s : State) :
    s.inString = true ∨ s.outside = true ∨
      ∃ isName escape stack, escape ≠ .none ∧ s = ⟨.string isName escape, stack⟩ := by
  obtain ⟨mode, stack⟩ := s
  cases mode with
  | string isName escape =>
    cases escape with
    | none => exact Or.inl rfl
    | backslash => exact Or.inr (Or.inr ⟨isName, .backslash, stack, by decide, rfl⟩)
    | hex more => exact Or.inr (Or.inr ⟨isName, .hex more, stack, by simp, rfl⟩)
  | _ => exact Or.inr (Or.inl rfl)

/-- A word in brackets with an underscore, of characters that stand for themselves. -/
structure Bracketed (text : List Char) : Prop where
  opened : text.head? = some '['
  plain : ∀ c ∈ text, isPlain c = true
  underscore : '_' ∈ text

theorem quote_not_mem_of_plain (h : ∀ c ∈ text, isPlain c = true) :
    '"' ∉ text := fun hmem => absurd (h '"' hmem) (by decide)

/-- **A word in brackets with an underscore is read inside of a string only**, and leaves it
open. -/
theorem run_bracketed (h : Bracketed text) (s : State) :
    run s text = if s.inString = true then some s else none := by
  split_ifs with hs
  · exact run_plain hs h.plain
  · obtain hin | hout | ⟨isName, escape, stack, hescape, rfl⟩ := s.cases
    · exact absurd hin hs
    · -- outside of strings the machine stops at the underscore, at the latest
      obtain ⟨a, b, rfl⟩ := List.append_of_mem h.underscore
      have hquote : '"' ∉ a := fun hmem =>
        quote_not_mem_of_plain h.plain (List.mem_append_left _ hmem)
      rw [run_append]
      cases ha : run s a with
      | none => rfl
      | some s' =>
        rw [Option.bind_some, run_cons, step_underscore (outside_of_run hout hquote ha)]
        rfl
    · -- inside of an escape it stops at the bracket
      obtain ⟨c, rest, rfl⟩ := List.exists_cons_of_ne_nil (List.ne_nil_of_mem h.underscore)
      obtain rfl : c = '[' := Option.some.inj h.opened
      rw [run_cons, step_open_of_escape hescape]
      rfl

/-! ### Parts that are replaced -/

/-- Parts of a text that are kept, the first one and the rest: read from a state, the places between
them are inside of strings. -/
def Within : State → List Char → List (List Char) → Prop
  | _, _, [] => True
  | s, kept, next :: rest =>
    ∃ s', run s kept = some s' ∧ s'.inString = true ∧ Within s' next rest

/-- Whether the places between the parts are inside of strings can be computed. -/
def decideWithin : (rest : List (List Char)) → (s : State) → (kept : List Char) →
    Decidable (Within s kept rest)
  | [], _, _ => isTrue trivial
  | next :: rest, s, kept =>
    match hkept : run s kept with
    | none => isFalse fun ⟨_, h, _⟩ => Option.some_ne_none _ (h.symm.trans hkept)
    | some s' =>
      have := decideWithin rest s' next
      decidable_of_iff (s'.inString = true ∧ Within s' next rest)
        ⟨fun h => ⟨s', hkept, h⟩, fun ⟨_, h, hwithin⟩ =>
          Option.some.inj (h.symm.trans hkept) ▸ hwithin⟩

instance (s : State) (kept : List Char) (rest : List (List Char)) :
    Decidable (Within s kept rest) := decideWithin rest s kept

/-- A part that is kept, and pairs of a word and the next part that is kept. -/
def interleave (kept : List Char) (rest : List (List Char × List Char)) : List Char :=
  kept ++ rest.flatMap fun pair => pair.1 ++ pair.2

theorem run_interleave_iff {rest : List (List Char × List Char)}
    (hrest : ∀ pair ∈ rest, Bracketed pair.1) (kept : List Char) {s t : State} :
    run s (interleave kept rest) = some t ↔
      Within s kept (rest.map Prod.snd) ∧
        run s (kept :: rest.map Prod.snd).flatten = some t := by
  induction rest generalizing s kept with
  | nil => simp [interleave, Within]
  | cons pair rest ih =>
    obtain ⟨hpair, hrest⟩ := List.forall_mem_cons.mp hrest
    have hsplit : interleave kept (pair :: rest) = kept ++ (pair.1 ++ interleave pair.2 rest) := by
      simp [interleave]
    rw [hsplit, run_append, List.map_cons, Within, List.flatten_cons, run_append]
    cases hkept : run s kept with
    | none => simp
    | some next =>
      rw [Option.bind_some, Option.bind_some, run_append, run_bracketed hpair]
      split_ifs with hnext
      · rw [Option.bind_some, ih hrest pair.2]
        constructor
        · rintro ⟨hwithin, hrun⟩
          exact ⟨⟨next, rfl, hnext, hwithin⟩, hrun⟩
        · rintro ⟨⟨_, heq, -, hwithin⟩, hrun⟩
          obtain rfl := Option.some.inj heq
          exact ⟨hwithin, hrun⟩
      · refine iff_of_false (by simp) ?_
        rintro ⟨⟨_, heq, hin, -⟩, -⟩
        obtain rfl := Option.some.inj heq
        exact hnext hin

/-- **Words that replace parts of a text** leave it JSON exactly if it is JSON without these parts,
and each of them was inside of a string. -/
theorem isJson_interleave_iff {rest : List (List Char × List Char)}
    (hrest : ∀ pair ∈ rest, Bracketed pair.1) (kept : List Char) :
    IsJson (interleave kept rest) ↔
      Within start kept (rest.map Prod.snd) ∧ IsJson (kept :: rest.map Prod.snd).flatten := by
  simp only [IsJson, run_interleave_iff hrest, and_assoc, exists_and_left]

/-! ### Substitution -/

open Substitution

/-- **Replacing what is read alike.** If what is found is always replaced by what leads to the same
state, the text is read as before. -/
theorem run_subst {m : Matcher Char}
    (hm : ∀ prev text, ∀ found ∈ m prev text,
      0 < found.1 ∧ found.1 ≤ text.length ∧
        ∀ s t, run s (text.take found.1) = some t → run s found.2 = some t)
    {prev : Option Char} {s t : State}
    (h : run s text = some t) :
    run s (subst m prev 0 text) = some t := by
  -- by the length of what is left, since a match takes several characters at once
  induction hn : text.length using Nat.strong_induction_on generalizing text prev s with
  | _ n ih =>
    subst hn
    cases text with
    | nil =>
      rw [subst]
      exact h
    | cons c rest =>
      cases hfound : m prev (c :: rest) with
      | none =>
        rw [run_cons] at h
        obtain ⟨next, hnext, h⟩ := Option.bind_eq_some_iff.mp h
        rw [subst_cons_of_none hfound, run_cons, hnext, Option.bind_some]
        exact ih rest.length (Nat.lt_succ_self _) h rfl
      | some found =>
        obtain ⟨hpos, hlength, halike⟩ := hm prev (c :: rest) found hfound
        have htake : ((c :: rest).take found.1).length = found.1 := List.length_take_of_le hlength
        have hsplit : (c :: rest).take found.1 ++ (c :: rest).drop found.1 = c :: rest :=
          List.take_append_drop _ _
        have hne : (c :: rest).take found.1 ≠ [] := by
          rw [← List.length_pos_iff, htake]
          exact hpos
        have hmatch : m prev ((c :: rest).take found.1 ++ (c :: rest).drop found.1) =
            some (((c :: rest).take found.1).length, found.2) := by
          rw [hsplit, htake, hfound]
        rw [← hsplit, run_append] at h
        obtain ⟨next, hnext, h⟩ := Option.bind_eq_some_iff.mp h
        rw [← hsplit, subst_append_of_some hne hmatch, run_append, halike s next hnext,
          Option.bind_some]
        refine ih ((c :: rest).drop found.1).length ?_ h rfl
        rw [List.length_drop]
        omega

/-! ### A text that is one string -/

/-- After a value with nothing open, only space can follow. -/
theorem run_after_quote (text : List Char) : run ⟨.after, []⟩ (text ++ ['"']) = none := by
  induction text with
  | nil => rfl
  | cons c text ih =>
    rw [List.cons_append, run_cons]
    by_cases hc : isBlank c = true
    · have hstep : step ⟨.after, []⟩ c = some ⟨.after, []⟩ := if_pos hc
      rw [hstep, Option.bind_some, ih]
    · have hstep : step ⟨.after, []⟩ c = none := if_neg hc
      rw [hstep, Option.bind_none]

theorem runEscape_of_run_quote {escape : Escape} {s : State}
    (h : run ⟨.string false escape, []⟩ (text ++ ['"']) = some s) (hs : s.accepts = true) :
    runEscape escape text = some .none := by
  induction text generalizing escape with
  | nil =>
    cases escape with
    | none => rfl
    | backslash =>
      obtain rfl := Option.some.inj h
      exact absurd hs (by decide)
    | hex more => cases h
  | cons c text ih =>
    rw [List.cons_append, run_cons] at h
    obtain ⟨next, hnext, h⟩ := Option.bind_eq_some_iff.mp h
    rw [step] at hnext
    dsimp only at hnext
    by_cases hends : escape = .none ∧ c = '"'
    · -- the string would end before the last quote
      rw [if_pos hends] at hnext
      obtain rfl := Option.some.inj hnext
      exact absurd ((run_after_quote text).symm.trans h) (Option.some_ne_none s).symm
    · rw [if_neg hends] at hnext
      obtain ⟨escape', hescape', rfl⟩ := Option.map_eq_some_iff.mp hnext
      rw [runEscape, List.foldlM_cons, hescape']
      exact ih h

/-- **A text in quotes** is JSON exactly if it can stand inside of a string. -/
theorem isJson_quoted_iff : IsJson ('"' :: text ++ ['"']) ↔ Enclosed text := by
  have hstart : step start '"' = some ⟨.string false .none, []⟩ := rfl
  rw [IsJson, List.cons_append]
  simp only [run_cons, hstart, Option.bind_some]
  constructor
  · rintro ⟨s, hrun, hs⟩
    exact runEscape_of_run_quote hrun hs
  · intro h
    refine ⟨⟨.after, []⟩, ?_, rfl⟩
    rw [run_append, run_of_runEscape h]
    rfl

end JsonText
