import AnonReq.Foundation.Splitting
import AnonReq.Foundation.Characters

/-!
# XML documents

Elements with attributes and a text before their children, as a serializer writes them, and a reader
of XML 1.0 that makes a document out of a text if it is well-formed. Comments, processing
instructions, sections of character data and document types are not read.

* `readDocument`: the reader. What an element has around and between its children is its text, with
  line ends as XML has them.
* `named_of_readDocument`: the names of what is read.
* `readDocument_writeDocument`: what is written is read as it was, up to line ends.
-/

namespace AnonReq.Xml

/-! ### Characters and names -/

/-- The character is in one of the ranges. -/
def inRanges (ranges : List (ℕ × ℕ)) (c : Char) : Bool :=
  ranges.any fun range => range.1 ≤ c.toNat && c.toNat ≤ range.2

/-- `Char`. -/
def isChar : Char → Bool :=
  inRanges [(0x9, 0xa), (0xd, 0xd), (0x20, 0xd7ff), (0xe000, 0xfffd), (0x10000, 0x10ffff)]

/-- `S`. -/
def isBlank (c : Char) : Bool := c == ' ' || c == '\t' || c == '\n' || c == '\r'

/-- `NameStartChar`. -/
def isNameStartChar : Char → Bool :=
  inRanges [(0x3a, 0x3a), (0x41, 0x5a), (0x5f, 0x5f), (0x61, 0x7a), (0xc0, 0xd6), (0xd8, 0xf6),
    (0xf8, 0x2ff), (0x370, 0x37d), (0x37f, 0x1fff), (0x200c, 0x200d), (0x2070, 0x218f),
    (0x2c00, 0x2fef), (0x3001, 0xd7ff), (0xf900, 0xfdcf), (0xfdf0, 0xfffd), (0x10000, 0xeffff)]

/-- `NameChar`. -/
def isNameChar (c : Char) : Bool :=
  isNameStartChar c || inRanges [(0x2d, 0x2e), (0x30, 0x39), (0xb7, 0xb7), (0x300, 0x36f),
    (0x203f, 0x2040)] c

/-- `Name`. -/
def isName (name : Text) : Bool := name.head?.any isNameStartChar && name.all isNameChar

/-! ### Writing -/

/-- An element, with the text before its children. -/
structure Element where
  name : Text
  attributes : List (Text × Text)
  text : Text
  children : List Element

/-- A character of a text as it is written. -/
def escapeCdata (c : Char) : Text :=
  if c = '&' then "&amp;".toList
  else if c = '<' then "&lt;".toList
  else if c = '>' then "&gt;".toList
  else [c]

/-- A character of an attribute as it is written. -/
def escapeAttrib (c : Char) : Text :=
  if c = '"' then "&quot;".toList
  else if c = '\r' then "&#13;".toList
  else if c = '\n' then "&#10;".toList
  else if c = '\t' then "&#09;".toList
  else escapeCdata c

/-- An attribute as it is written. -/
def writeAttribute (a : Text × Text) : Text :=
  ' ' :: (a.1 ++ '=' :: '"' :: (a.2.flatMap escapeAttrib ++ ['"']))

mutual

/-- An element as it is written, behind its first bracket. -/
def write : Element → Text
  | ⟨name, attributes, text, children⟩ =>
    name ++ (attributes.flatMap writeAttribute ++
      if text.isEmpty && children.isEmpty then " />".toList
      else '>' :: (text.flatMap escapeCdata ++ (writeAll children ++
        '<' :: '/' :: (name ++ ['>']))))

/-- Elements as they are written. -/
def writeAll : List Element → Text
  | [] => []
  | e :: elements => '<' :: (write e ++ writeAll elements)

end

/-- `'<?xml version="1.0" encoding="UTF-8"?>\n'` and an element. -/
def writeDocument (root : Element) : Text :=
  "<?xml version=\"1.0\" encoding=\"UTF-8\"?>\n".toList ++ '<' :: write root

/-! ### Reading -/

/-- The value of a digit. -/
def digitValue (c : Char) : ℕ :=
  if c.isDigit then c.toNat - '0'.toNat
  else if 'a' ≤ c ∧ c ≤ 'f' then c.toNat - 'a'.toNat + 10
  else if 'A' ≤ c ∧ c ≤ 'F' then c.toNat - 'A'.toNat + 10
  else 16

/-- The character with a number. -/
def charRef (base : ℕ) (digits : Text) : Option Char :=
  let n := digits.foldl (fun n c => base * n + digitValue c) 0
  if digits ≠ [] ∧ (∀ c ∈ digits, digitValue c < base) ∧ n.isValidChar ∧ isChar (Char.ofNat n) then
    some (Char.ofNat n)
  else none

/-- What stands between `&` and `;`. -/
def reference (body : Text) : Option Char :=
  if body = "amp".toList then some '&'
  else if body = "lt".toList then some '<'
  else if body = "gt".toList then some '>'
  else if body = "quot".toList then some '"'
  else if body = "apos".toList then some '\x27'
  else
    match body with
    | '#' :: 'x' :: digits => charRef 16 digits
    | '#' :: digits => charRef 10 digits
    | _ => none

/-- The text that is written, where a reference may have been begun, and what a character stands
for. A line ends with a line feed, also where it is written with a carriage return. -/
def decodeFrom (plain : Char → Char) : Option Text → Text → Option Text
  | none, [] => some []
  | some _, [] => none
  | none, c :: rest =>
    if c = '&' then decodeFrom plain (some []) rest
    else if c = '\r' then
      if rest.head? = some '\n' then decodeFrom plain none rest
      else (decodeFrom plain none rest).map (plain '\n' :: ·)
    else (decodeFrom plain none rest).map (plain c :: ·)
  | some body, c :: rest =>
    if c = ';' then
      (reference body).bind fun d => (decodeFrom plain none rest).map (d :: ·)
    else decodeFrom plain (some (body ++ [c])) rest

/-- A text without the blanks at its front. -/
def skip (text : Text) : Text := text.dropWhile isBlank

/-- A name, and what is behind it. -/
def readName (text : Text) : Option (Text × Text) :=
  if isName (text.takeWhile isNameChar) then
    some (text.takeWhile isNameChar, text.dropWhile isNameChar)
  else none

/-- `AttValue`: every blank is a space. -/
def readValue : Text → Option (Text × Text)
  | [] => none
  | quote :: rest =>
    if quote = '"' ∨ quote = '\x27' then
      match rest.dropWhile (· ≠ quote) with
      | [] => none
      | _ :: behind =>
        if '<' ∈ rest.takeWhile (· ≠ quote) then none
        else (decodeFrom (fun c => if isBlank c then ' ' else c) none
          (rest.takeWhile (· ≠ quote))).map fun value => (value, behind)
    else none

/-- The attributes, each behind a blank, and what is behind them and behind blanks. -/
def readAttributes : ℕ → Text → Option (List (Text × Text) × Text)
  | 0, _ => none
  | fuel + 1, text =>
    if (skip text).head?.any isNameStartChar then
      if text.head?.any isBlank then do
        let (name, rest) ← readName (skip text)
        match skip rest with
        | '=' :: rest =>
          let (value, rest) ← readValue (skip rest)
          let (attributes, rest) ← readAttributes fuel rest
          return ((name, value) :: attributes, rest)
        | _ => none
      else none
    else some ([], skip text)

mutual

/-- `element`, behind its first bracket. -/
def readElement : ℕ → Text → Option (Element × Text)
  | 0, _ => none
  | fuel + 1, text => do
    let (name, rest) ← readName text
    let (attributes, rest) ← readAttributes text.length rest
    if (attributes.map Prod.fst).Nodup then
      match rest with
      | '/' :: '>' :: rest => return (⟨name, attributes, [], []⟩, rest)
      | '>' :: rest =>
        let (text, children, rest) ← readContent fuel rest
        let (closing, rest) ← readName rest
        if closing = name then
          match skip rest with
          | '>' :: rest => return (⟨name, attributes, text, children⟩, rest)
          | _ => none
        else none
      | _ => none
    else none

/-- `content`, and what is behind the `</` after it. -/
def readContent : ℕ → Text → Option (Text × List Element × Text)
  | 0, _ => none
  | fuel + 1, front => do
    if (Splitting.cut "]]>".toList (front.takeWhile (· ≠ '<'))).isSome then none
    else
      let text ← decodeFrom id none (front.takeWhile (· ≠ '<'))
      match front.dropWhile (· ≠ '<') with
      | [] => none
      | _ :: rest =>
        if rest.head? = some '/' then return (text, [], rest.tail)
        else
          let (child, rest) ← readElement fuel rest
          let (more, children, rest) ← readContent fuel rest
          return (text ++ more, child :: children, rest)

end

/-- `EncName`. -/
def isEncName (name : Text) : Bool :=
  name.head?.any Char.isAlpha && name.all fun c => c.isAlphanum || "._-".toList.contains c

/-- What an XML declaration has: a version, and perhaps an encoding and whether the document stands
alone. -/
def isDeclaration (attributes : List (Text × Text)) : Bool :=
  attributes.head? = some ("version".toList, "1.0".toList) &&
    (attributes.tail.map Prod.fst).isSublist ["encoding".toList, "standalone".toList] &&
    attributes.tail.all fun a =>
      if a.1 = "encoding".toList then isEncName a.2
      else a.2 = "yes".toList || a.2 = "no".toList

/-- What is behind the XML declaration, if there is one. -/
def readDeclaration (text : Text) : Option Text :=
  match Splitting.cut "<?xml".toList text with
  | some ([], rest) => do
    let (attributes, rest) ← readAttributes text.length rest
    match rest with
    | '?' :: '>' :: rest => if isDeclaration attributes then some rest else none
    | _ => none
  | _ => some text

/-- The element of a well-formed document. -/
def readDocument (text : Text) : Option Element :=
  if text.all isChar then do
    let rest ← readDeclaration text
    match skip rest with
    | '<' :: rest =>
      let (root, rest) ← readElement rest.length rest
      if skip rest = [] then some root else none
    | _ => none
  else none

/-! ### Texts -/

/-- A text with the ends of its lines as XML has them. -/
def lineEnds : Text → Text
  | [] => []
  | c :: rest =>
    if c = '\r' then if rest.head? = some '\n' then lineEnds rest else '\n' :: lineEnds rest
    else c :: lineEnds rest

theorem lineEnds_of_not_mem {s : Text} (h : '\r' ∉ s) : lineEnds s = s := by
  induction s with
  | nil => rfl
  | cons c s ih =>
    rw [List.mem_cons, not_or] at h
    rw [lineEnds, if_neg (Ne.symm h.1), ih h.2]

theorem not_mem_lineEnds (s : Text) : '\r' ∉ lineEnds s := by
  induction s with
  | nil => exact List.not_mem_nil
  | cons c s ih =>
    rw [lineEnds]
    split_ifs with hreturn hfeed
    · exact ih
    · rw [List.mem_cons, not_or]
      exact ⟨by decide, ih⟩
    · rw [List.mem_cons, not_or]
      exact ⟨Ne.symm hreturn, ih⟩

/-- What is written for a character: a reference to it, or itself. -/
theorem escapeCdata_cases (c : Char) :
    (∃ body, escapeCdata c = '&' :: (body ++ [';']) ∧
        (∀ d ∈ body, d ≠ ';' ∧ d ≠ '<' ∧ d ≠ '>' ∧ d ≠ '"') ∧ reference body = some c) ∨
      escapeCdata c = [c] ∧ c ≠ '&' ∧ c ≠ '<' ∧ c ≠ '>' := by
  unfold escapeCdata
  split_ifs with hamp hlt hgt
  · exact Or.inl ⟨"amp".toList, rfl, by decide, by rw [hamp]; decide⟩
  · exact Or.inl ⟨"lt".toList, rfl, by decide, by rw [hlt]; decide⟩
  · exact Or.inl ⟨"gt".toList, rfl, by decide, by rw [hgt]; decide⟩
  · exact Or.inr ⟨rfl, hamp, hlt, hgt⟩

theorem escapeAttrib_cases (c : Char) :
    (∃ body, escapeAttrib c = '&' :: (body ++ [';']) ∧
        (∀ d ∈ body, d ≠ ';' ∧ d ≠ '<' ∧ d ≠ '>' ∧ d ≠ '"') ∧ reference body = some c) ∨
      escapeAttrib c = [c] ∧ c ≠ '&' ∧ c ≠ '<' ∧ c ≠ '"' ∧ c ≠ '\r' ∧ c ≠ '\n' ∧ c ≠ '\t' := by
  unfold escapeAttrib
  split_ifs with hquote hreturn hfeed htab
  · exact Or.inl ⟨"quot".toList, rfl, by decide, by rw [hquote]; decide⟩
  · exact Or.inl ⟨"#13".toList, rfl, by decide, by rw [hreturn]; decide⟩
  · exact Or.inl ⟨"#10".toList, rfl, by decide, by rw [hfeed]; decide⟩
  · exact Or.inl ⟨"#09".toList, rfl, by decide, by rw [htab]; decide⟩
  · obtain href | ⟨hself, hamp, hlt, -⟩ := escapeCdata_cases c
    · exact Or.inl href
    · exact Or.inr ⟨hself, hamp, hlt, hquote, hreturn, hfeed, htab⟩

/-- A reference that is begun is read up to its end. -/
theorem decodeFrom_body (plain : Char → Char) (begun : Text) {body : Text}
    (h : ∀ d ∈ body, d ≠ ';') (rest : Text) :
    decodeFrom plain (some begun) (body ++ ';' :: rest) = (reference (begun ++ body)).bind fun d =>
      (decodeFrom plain none rest).map (d :: ·) := by
  induction body generalizing begun with
  | nil => rw [List.nil_append, decodeFrom, if_pos rfl, List.append_nil]
  | cons d body ih =>
    obtain ⟨hd, hbody⟩ := List.forall_mem_cons.mp h
    rw [List.cons_append, decodeFrom, if_neg hd, ih _ hbody, List.append_assoc]
    rfl

/-- A reference stands for its character. -/
theorem decodeFrom_reference (plain : Char → Char) {body : Text} {c : Char}
    (h : ∀ d ∈ body, d ≠ ';') (hc : reference body = some c) (rest : Text) :
    decodeFrom plain none ('&' :: (body ++ [';']) ++ rest) =
      (decodeFrom plain none rest).map (c :: ·) := by
  rw [List.cons_append, List.append_assoc, List.singleton_append, decodeFrom, if_pos rfl,
    decodeFrom_body plain [] h, List.nil_append, hc, Option.bind_some]

theorem head_cdata (s : Text) :
    (s.flatMap escapeCdata).head? = some '\n' ↔ s.head? = some '\n' := by
  cases s with
  | nil => rfl
  | cons d s =>
    rw [List.flatMap_cons]
    by_cases hd : d = '\n'
    · subst hd
      exact iff_of_true rfl rfl
    · obtain ⟨body, hescape, -⟩ | ⟨hescape, -⟩ := escapeCdata_cases d
      · rw [hescape]
        exact iff_of_false (by simp) (by simpa using hd)
      · rw [hescape]
        rfl

/-- **A text** is read as it was written, up to its line ends. -/
theorem decodeFrom_cdata (s : Text) :
    decodeFrom id none (s.flatMap escapeCdata) = some (lineEnds s) := by
  induction s with
  | nil => rfl
  | cons c s ih =>
    rw [List.flatMap_cons]
    obtain ⟨body, hescape, hbody, hc⟩ | ⟨hescape, hamp, hlt, hgt⟩ := escapeCdata_cases c
    · rw [hescape, decodeFrom_reference id (fun d hd => (hbody d hd).1) hc, ih, lineEnds, if_neg]
      · rfl
      · rintro rfl
        exact absurd hescape (by simp [escapeCdata])
    · rw [hescape, List.singleton_append, decodeFrom, if_neg hamp, lineEnds, ih]
      simp only [head_cdata]
      split_ifs
      · rfl
      · rfl
      · rfl

/-- **An attribute** is read as it was written. -/
theorem decodeFrom_attrib (s : Text) :
    decodeFrom (fun c => if isBlank c then ' ' else c) none (s.flatMap escapeAttrib) = some s := by
  induction s with
  | nil => rfl
  | cons c s ih =>
    rw [List.flatMap_cons]
    obtain ⟨body, hescape, hbody, hc⟩ | ⟨hescape, hamp, -, -, hreturn, hfeed, htab⟩ :=
      escapeAttrib_cases c
    · rw [hescape, decodeFrom_reference _ (fun d hd => (hbody d hd).1) hc, ih]
      rfl
    · have hplain : (if isBlank c then ' ' else c) = c := by
        split_ifs with hblank
        · simp only [isBlank, Bool.or_eq_true, beq_iff_eq] at hblank
          obtain ((rfl | rfl) | rfl) | rfl := hblank
          · rfl
          · exact absurd rfl htab
          · exact absurd rfl hfeed
          · exact absurd rfl hreturn
        · rfl
      rw [hescape, List.singleton_append, decodeFrom, if_neg hamp, if_neg hreturn, ih, hplain]
      rfl

theorem not_mem_cdata (s : Text) : '<' ∉ s.flatMap escapeCdata ∧ '>' ∉ s.flatMap escapeCdata := by
  have hchar (c : Char) : '<' ∉ escapeCdata c ∧ '>' ∉ escapeCdata c := by
    obtain ⟨body, hescape, hbody, -⟩ | ⟨hescape, -, hlt, hgt⟩ := escapeCdata_cases c
    · rw [hescape]
      have hlt : '<' ∉ body := fun h => (hbody _ h).2.1 rfl
      have hgt : '>' ∉ body := fun h => (hbody _ h).2.2.1 rfl
      simp [hlt, hgt]
    · rw [hescape, List.mem_singleton, List.mem_singleton]
      exact ⟨Ne.symm hlt, Ne.symm hgt⟩
  constructor
  · intro h
    obtain ⟨c, -, hc⟩ := List.mem_flatMap.mp h
    exact (hchar c).1 hc
  · intro h
    obtain ⟨c, -, hc⟩ := List.mem_flatMap.mp h
    exact (hchar c).2 hc

theorem not_mem_attrib (s : Text) :
    '<' ∉ s.flatMap escapeAttrib ∧ '"' ∉ s.flatMap escapeAttrib := by
  have hchar (c : Char) : '<' ∉ escapeAttrib c ∧ '"' ∉ escapeAttrib c := by
    obtain ⟨body, hescape, hbody, -⟩ | ⟨hescape, -, hlt, hquote, -⟩ := escapeAttrib_cases c
    · rw [hescape]
      have hlt : '<' ∉ body := fun h => (hbody _ h).2.1 rfl
      have hquote : '"' ∉ body := fun h => (hbody _ h).2.2.2 rfl
      simp [hlt, hquote]
    · rw [hescape, List.mem_singleton, List.mem_singleton]
      exact ⟨Ne.symm hlt, Ne.symm hquote⟩
  constructor
  · intro h
    obtain ⟨c, -, hc⟩ := List.mem_flatMap.mp h
    exact (hchar c).1 hc
  · intro h
    obtain ⟨c, -, hc⟩ := List.mem_flatMap.mp h
    exact (hchar c).2 hc

/-! ### Names and attributes -/

/-- A text is cut where a character first has no longer a property. -/
theorem span_append {p : Char → Bool} {front : Text} (h : ∀ c ∈ front, p c = true) {stop : Char}
    (hstop : p stop = false) (rest : Text) :
    (front ++ stop :: rest).takeWhile p = front ∧
      (front ++ stop :: rest).dropWhile p = stop :: rest := by
  have hneg : ¬ p stop = true := by rw [hstop]; decide
  rw [List.takeWhile_append_of_pos h, List.dropWhile_append_of_pos h,
    List.takeWhile_cons_of_neg hneg, List.dropWhile_cons_of_neg hneg, List.append_nil]
  exact ⟨rfl, rfl⟩

theorem readName_append {name : Text} (h : isName name = true) {stop : Char}
    (hstop : isNameChar stop = false) (rest : Text) :
    readName (name ++ stop :: rest) = some (name, stop :: rest) := by
  have hall : ∀ c ∈ name, isNameChar c = true :=
    List.all_eq_true.mp (Bool.and_eq_true_iff.mp h).2
  obtain ⟨htake, hdrop⟩ := span_append hall hstop rest
  rw [readName, htake, hdrop, if_pos h]

theorem readName_some {text name rest : Text} (h : readName text = some (name, rest)) :
    isName name = true := by
  unfold readName at h
  split_ifs at h with hname
  obtain ⟨rfl, -⟩ := Prod.mk.inj (Option.some.inj h)
  exact hname

theorem readValue_attrib (value rest : Text) :
    readValue ('"' :: (value.flatMap escapeAttrib ++ '"' :: rest)) = some (value, rest) := by
  have hquote : ∀ c ∈ value.flatMap escapeAttrib, decide (c ≠ '"') = true := fun c hc =>
    decide_eq_true fun h => (not_mem_attrib value).2 (h ▸ hc)
  obtain ⟨htake, hdrop⟩ := span_append hquote (by decide : decide ('"' ≠ '"') = false) rest
  rw [readValue, if_pos (Or.inl rfl), hdrop, htake]
  dsimp only
  rw [if_neg (not_mem_attrib value).1, decodeFrom_attrib]
  rfl

/-- The head of a name begins one. -/
theorem exists_head_of_isName {name : Text} (h : isName name = true) :
    ∃ c rest, name = c :: rest ∧ isNameStartChar c = true := by
  cases name with
  | nil => cases h
  | cons c rest => exact ⟨c, rest, rfl, (Bool.and_eq_true_iff.mp h).1⟩

theorem isBlank_of_isNameStartChar {c : Char} (h : isNameStartChar c = true) :
    isBlank c = false := by
  by_contra hblank
  simp only [isBlank, Bool.not_eq_false, Bool.or_eq_true, beq_iff_eq] at hblank
  obtain ((rfl | rfl) | rfl) | rfl := hblank
  all_goals exact absurd h (by decide)

/-- **Attributes** are read as they were written. -/
theorem readAttributes_append {attributes : List (Text × Text)}
    (h : ∀ a ∈ attributes, isName a.1 = true) {tail : Text}
    (htail : (skip tail).head?.any isNameStartChar = false) {fuel : ℕ}
    (hfuel : attributes.length < fuel) :
    readAttributes fuel (attributes.flatMap writeAttribute ++ tail) =
      some (attributes, skip tail) := by
  induction attributes generalizing fuel with
  | nil =>
    obtain ⟨fuel, rfl⟩ := Nat.exists_eq_add_one_of_ne_zero (Nat.ne_zero_of_lt hfuel)
    rw [List.flatMap_nil, List.nil_append, readAttributes, if_neg (by simp [htail])]
  | cons a attributes ih =>
    obtain ⟨fuel, rfl⟩ := Nat.exists_eq_add_one_of_ne_zero (Nat.ne_zero_of_lt hfuel)
    obtain ⟨ha, hattributes⟩ := List.forall_mem_cons.mp h
    obtain ⟨c, name, hname, hc⟩ := exists_head_of_isName ha
    have hnext := ih hattributes (Nat.lt_of_succ_lt_succ hfuel)
    have hwritten : (a :: attributes).flatMap writeAttribute ++ tail = ' ' :: (a.1 ++
        '=' :: '"' :: (a.2.flatMap escapeAttrib ++ '"' ::
          (attributes.flatMap writeAttribute ++ tail))) := by
      simp [writeAttribute]
    have hskip (rest : Text) : skip (' ' :: (a.1 ++ rest)) = a.1 ++ rest := by
      rw [skip, List.dropWhile_cons_of_pos (by decide), hname]
      exact List.dropWhile_cons_of_neg (by rw [isBlank_of_isNameStartChar hc]; decide)
    have hhead (rest : Text) : (a.1 ++ rest).head?.any isNameStartChar = true := by
      rw [hname]
      exact hc
    have hblank (rest : Text) : (' ' :: rest).head?.any isBlank = true := rfl
    rw [hwritten, readAttributes, hskip, if_pos (hhead _), if_pos (hblank _),
      readName_append ha (by decide)]
    dsimp only [Option.bind_eq_bind, Option.bind_some]
    have hequals (rest : Text) : skip ('=' :: rest) = '=' :: rest := rfl
    have hquote (rest : Text) : skip ('"' :: rest) = '"' :: rest := rfl
    simp only [hequals, hquote, readValue_attrib, Option.bind_some, hnext]
    rfl

/-! ### Elements -/

mutual

/-- Every element has a name, and attributes with names that are different. -/
def Named : Element → Prop
  | ⟨name, attributes, _, children⟩ => isName name = true ∧
    (∀ a ∈ attributes, isName a.1 = true) ∧ (attributes.map Prod.fst).Nodup ∧ NamedAll children

def NamedAll : List Element → Prop
  | [] => True
  | e :: elements => Named e ∧ NamedAll elements

end

mutual

/-- An element with the ends of its lines as XML has them. -/
def normal : Element → Element
  | ⟨name, attributes, text, children⟩ => ⟨name, attributes, lineEnds text, normalAll children⟩

def normalAll : List Element → List Element
  | [] => []
  | e :: elements => normal e :: normalAll elements

end

mutual

/-- How deep the reader comes. -/
def size : Element → ℕ
  | ⟨_, _, _, children⟩ => 1 + sizeAll children

def sizeAll : List Element → ℕ
  | [] => 1
  | e :: elements => 1 + size e + sizeAll elements

end

theorem namedAll_iff (elements : List Element) : NamedAll elements ↔ ∀ e ∈ elements, Named e := by
  induction elements with
  | nil => exact iff_of_true trivial fun _ h => absurd h List.not_mem_nil
  | cons e elements ih => rw [NamedAll, ih, List.forall_mem_cons]

theorem normalAll_eq_map (elements : List Element) : normalAll elements = elements.map normal := by
  induction elements with
  | nil => rfl
  | cons e elements ih => rw [normalAll, ih, List.map_cons]

theorem children_normal : ∀ e : Element, (normal e).children = e.children.map normal
  | ⟨_, _, _, children⟩ => normalAll_eq_map children

theorem text_normal : ∀ e : Element, (normal e).text = lineEnds e.text
  | ⟨_, _, _, _⟩ => rfl

theorem name_normal : ∀ e : Element, (normal e).name = e.name
  | ⟨_, _, _, _⟩ => rfl

theorem isName_of_named : ∀ {e : Element}, Named e → isName e.name = true
  | ⟨_, _, _, _⟩, h => h.1

theorem named_of_mem_children : ∀ {e child : Element}, Named e → child ∈ e.children → Named child
  | ⟨_, _, _, children⟩, _, h, hchild => (namedAll_iff children).mp h.2.2.2 _ hchild

/-- What stands before a bracket is the text of an element. -/
theorem span_cdata (s rest : Text) :
    (s.flatMap escapeCdata ++ '<' :: rest).takeWhile (fun c => decide (c ≠ '<')) =
        s.flatMap escapeCdata ∧
      (s.flatMap escapeCdata ++ '<' :: rest).dropWhile (fun c => decide (c ≠ '<')) =
        '<' :: rest := by
  have hplain : ∀ c ∈ s.flatMap escapeCdata, decide (c ≠ '<') = true := fun c hc =>
    decide_eq_true fun h => (not_mem_cdata s).1 (h ▸ hc)
  exact span_append hplain (by decide : decide ('<' ≠ '<') = false) rest

theorem cut_cdata (s : Text) : ¬ (Splitting.cut "]]>".toList (s.flatMap escapeCdata)).isSome := by
  intro h
  obtain ⟨parts, hparts⟩ := Option.isSome_iff_exists.mp h
  refine (not_mem_cdata s).2 ?_
  rw [Splitting.eq_of_cut hparts]
  simp

theorem readContent_text (fuel : ℕ) (s rest : Text) :
    readContent (fuel + 1) (s.flatMap escapeCdata ++ '<' :: '/' :: rest) =
      some (lineEnds s, [], rest) := by
  obtain ⟨htake, hdrop⟩ := span_cdata s ('/' :: rest)
  rw [readContent, htake, if_neg (cut_cdata s), decodeFrom_cdata, hdrop]
  rfl

theorem readContent_element {fuel : ℕ} (s : Text) {rest behind : Text} {child : Element}
    (hslash : rest.head? ≠ some '/') (hchild : readElement fuel rest = some (child, behind))
    {more : Text} {children : List Element} {last : Text}
    (hmore : readContent fuel behind = some (more, children, last)) :
    readContent (fuel + 1) (s.flatMap escapeCdata ++ '<' :: rest) =
      some (lineEnds s ++ more, child :: children, last) := by
  obtain ⟨htake, hdrop⟩ := span_cdata s rest
  rw [readContent, htake, if_neg (cut_cdata s), decodeFrom_cdata, hdrop]
  dsimp only [Option.bind_eq_bind, Option.bind_some]
  rw [if_neg hslash, hchild]
  dsimp only [Option.bind_some]
  rw [hmore]
  rfl

theorem exists_head_of_write {e : Element} (h : Named e) :
    ∃ c rest, write e = c :: rest ∧ isNameStartChar c = true := by
  obtain ⟨name, attributes, text, children⟩ := e
  obtain ⟨c, rest, rfl, hc⟩ := exists_head_of_isName h.1
  exact ⟨c, _, rfl, hc⟩

theorem length_le_attributes (attributes : List (Text × Text)) :
    attributes.length ≤ (attributes.flatMap writeAttribute).length := by
  induction attributes with
  | nil => exact Nat.zero_le _
  | cons a attributes ih =>
    rw [List.flatMap_cons, List.length_append, List.length_cons, writeAttribute, List.length_cons]
    omega

/-- The front of an element: its name, and its attributes. -/
theorem readFront {name : Text} (hname : isName name = true) {attributes : List (Text × Text)}
    (h : ∀ a ∈ attributes, isName a.1 = true) {c : Char} (hc : c = ' ' ∨ c = '>') (tail : Text)
    (htail : (skip (c :: tail)).head?.any isNameStartChar = false) :
    readName (name ++ (attributes.flatMap writeAttribute ++ c :: tail)) =
        some (name, attributes.flatMap writeAttribute ++ c :: tail) ∧
      readAttributes (name ++ (attributes.flatMap writeAttribute ++ c :: tail)).length
        (attributes.flatMap writeAttribute ++ c :: tail) = some (attributes, skip (c :: tail)) := by
  have hstop : isNameChar c = false := by
    obtain rfl | rfl := hc <;> decide
  constructor
  · cases attributes with
    | nil => exact readName_append hname hstop tail
    | cons a attributes => exact readName_append hname (by decide) _
  · refine readAttributes_append h htail ?_
    have hlength := length_le_attributes attributes
    simp only [List.length_append, List.length_cons]
    omega

mutual

/-- **An element** is read as it was written. -/
theorem readElement_write : ∀ (e : Element), Named e → ∀ fuel, size e ≤ fuel → ∀ rest,
    readElement fuel (write e ++ rest) = some (normal e, rest)
  | ⟨name, attributes, text, children⟩, ⟨hname, hattributes, hnodup, hchildren⟩, fuel, hfuel,
      rest => by
    rw [size] at hfuel
    obtain ⟨fuel, rfl⟩ := Nat.exists_eq_add_one_of_ne_zero (n := fuel) (by omega)
    have hread := readContent_writeAll children hchildren text fuel (by omega)
    by_cases hempty : text.isEmpty && children.isEmpty
    · obtain ⟨htext, hnone⟩ := Bool.and_eq_true_iff.mp hempty
      obtain rfl := List.isEmpty_iff.mp htext
      obtain rfl := List.isEmpty_iff.mp hnone
      obtain ⟨hfront, hattributes'⟩ := readFront hname hattributes (Or.inl rfl) ('/' :: '>' :: rest)
        rfl
      have hwritten : write ⟨name, attributes, [], []⟩ ++ rest =
          name ++ (attributes.flatMap writeAttribute ++ ' ' :: '/' :: '>' :: rest) := by
        rw [write, if_pos hempty, List.append_assoc, List.append_assoc]
        rfl
      rw [hwritten, readElement, hfront]
      dsimp only [Option.bind_eq_bind, Option.bind_some]
      rw [hattributes']
      dsimp only [Option.bind_some]
      rw [if_pos hnodup]
      rfl
    · obtain ⟨hfront, hattributes'⟩ := readFront hname hattributes (Or.inr rfl)
        (text.flatMap escapeCdata ++ (writeAll children ++ '<' :: '/' :: (name ++ '>' :: rest))) rfl
      have hwritten : write ⟨name, attributes, text, children⟩ ++ rest =
          name ++ (attributes.flatMap writeAttribute ++ '>' :: (text.flatMap escapeCdata ++
            (writeAll children ++ '<' :: '/' :: (name ++ '>' :: rest)))) := by
        rw [write, if_neg hempty]
        simp
      rw [hwritten, readElement, hfront]
      dsimp only [Option.bind_eq_bind, Option.bind_some]
      rw [hattributes']
      dsimp only [Option.bind_some]
      have hskip (rest : Text) : skip ('>' :: rest) = '>' :: rest := rfl
      rw [if_pos hnodup, hskip]
      simp only [hread, Option.bind_some]
      rw [readName_append hname (by decide), Option.bind_some]
      dsimp only
      rw [if_pos rfl, hskip]
      rfl

theorem readContent_writeAll : ∀ (elements : List Element), NamedAll elements → ∀ (s : Text) fuel,
    sizeAll elements ≤ fuel → ∀ rest,
    readContent fuel (s.flatMap escapeCdata ++ (writeAll elements ++ '<' :: '/' :: rest)) =
      some (lineEnds s, normalAll elements, rest)
  | [], _, s, fuel, hfuel, rest => by
    obtain ⟨fuel, rfl⟩ := Nat.exists_eq_add_one_of_ne_zero (Nat.ne_zero_of_lt hfuel)
    exact readContent_text fuel s rest
  | e :: elements, ⟨he, helements⟩, s, fuel, hfuel, rest => by
    rw [sizeAll] at hfuel
    obtain ⟨fuel, rfl⟩ := Nat.exists_eq_add_one_of_ne_zero (n := fuel) (by omega)
    have hchild := readElement_write e he fuel (by omega)
      (writeAll elements ++ '<' :: '/' :: rest)
    have hmore := readContent_writeAll elements helements [] fuel (by omega) rest
    have hslash : (write e ++ (writeAll elements ++ '<' :: '/' :: rest)).head? ≠ some '/' := by
      obtain ⟨c, more, hwrite, hc⟩ := exists_head_of_write he
      rw [hwrite]
      rintro hslash
      rw [Option.some.inj hslash] at hc
      exact absurd hc (by decide)
    have hread := readContent_element s hslash hchild hmore
    rw [writeAll, List.cons_append, List.append_assoc, hread, lineEnds, List.append_nil]
    rfl

end

mutual

theorem size_le : ∀ e : Element, size e ≤ (write e).length
  | ⟨name, attributes, text, children⟩ => by
    have hchildren := sizeAll_le children
    rw [size, write]
    split_ifs with hempty
    · obtain rfl := List.isEmpty_iff.mp (Bool.and_eq_true_iff.mp hempty).2
      simp only [List.length_append, sizeAll]
      simp
      omega
    · simp only [List.length_append, List.length_cons]
      omega

theorem sizeAll_le : ∀ elements : List Element, sizeAll elements ≤ 1 + (writeAll elements).length
  | [] => Nat.le_refl 1
  | e :: elements => by
    have he := size_le e
    have helements := sizeAll_le elements
    rw [sizeAll, writeAll, List.length_cons, List.length_append]
    omega

end

theorem readDeclaration_append (rest : Text) :
    readDeclaration ("<?xml version=\"1.0\" encoding=\"UTF-8\"?>\n".toList ++ rest) =
      some ('\n' :: rest) := by
  let declared := [("version".toList, "1.0".toList), ("encoding".toList, "UTF-8".toList)]
  have htext : "<?xml version=\"1.0\" encoding=\"UTF-8\"?>\n".toList ++ rest =
      "<?xml".toList ++ (declared.flatMap writeAttribute ++ '?' :: '>' :: '\n' :: rest) := rfl
  have hread : readAttributes ("<?xml".toList ++ (declared.flatMap writeAttribute ++
      '?' :: '>' :: '\n' :: rest)).length (declared.flatMap writeAttribute ++
        '?' :: '>' :: '\n' :: rest) = some (declared, '?' :: '>' :: '\n' :: rest) := by
    refine readAttributes_append (by decide) rfl ?_
    simp [declared]
  rw [readDeclaration, htext, Splitting.cut_append_self (by decide)]
  dsimp only
  rw [hread]
  have hdeclared : isDeclaration declared = true := by decide
  dsimp only [Option.bind_eq_bind, Option.bind_some]
  exact if_pos hdeclared

/-- **A document** is read as it was written. -/
theorem readDocument_writeDocument {root : Element} (h : Named root)
    (hchars : (writeDocument root).all isChar = true) :
    readDocument (writeDocument root) = some (normal root) := by
  have hread := readElement_write root h (write root).length (size_le root) []
  rw [List.append_nil] at hread
  have hskip (text : Text) : skip ('\n' :: '<' :: text) = '<' :: text := by
    rw [skip, List.dropWhile_cons_of_pos (by decide), List.dropWhile_cons_of_neg (by decide)]
  have hdeclaration : readDeclaration (writeDocument root) = some ('\n' :: '<' :: write root) :=
    readDeclaration_append ('<' :: write root)
  unfold readDocument
  rw [if_pos hchars, hdeclaration]
  dsimp only [Option.bind_eq_bind, Option.bind_some]
  simp only [hskip, hread, Option.bind_some]
  exact if_pos rfl

/-! ### Characters of what is written -/

mutual

/-- Every name and every text of an element has characters of XML only. -/
def Chars : Element → Prop
  | ⟨name, attributes, text, children⟩ => name.all isChar = true ∧
    (∀ a ∈ attributes, a.1.all isChar = true ∧ a.2.all isChar = true) ∧ text.all isChar = true ∧
      CharsAll children

def CharsAll : List Element → Prop
  | [] => True
  | e :: elements => Chars e ∧ CharsAll elements

end

theorem all_escapeCdata (s : Text) :
    (s.flatMap escapeCdata).all isChar = true ↔ s.all isChar = true := by
  have hchar (c : Char) : (escapeCdata c).all isChar = isChar c := by
    unfold escapeCdata
    split_ifs with hamp hlt hgt
    · rw [hamp]
      decide
    · rw [hlt]
      decide
    · rw [hgt]
      decide
    · exact Bool.and_true _
  rw [List.all_flatMap]
  simp only [hchar]

theorem all_escapeAttrib (s : Text) :
    (s.flatMap escapeAttrib).all isChar = true ↔ s.all isChar = true := by
  have hchar (c : Char) : (escapeAttrib c).all isChar = isChar c := by
    unfold escapeAttrib
    split_ifs with hquote hreturn hfeed htab
    · rw [hquote]
      decide
    · rw [hreturn]
      decide
    · rw [hfeed]
      decide
    · rw [htab]
      decide
    · have hcdata := all_escapeCdata [c]
      rw [List.flatMap_singleton, List.all_cons, List.all_nil, Bool.and_true] at hcdata
      exact Bool.eq_iff_iff.mpr hcdata
  rw [List.all_flatMap]
  simp only [hchar]

theorem all_attributes (attributes : List (Text × Text)) :
    (attributes.flatMap writeAttribute).all isChar = true ↔
      ∀ a ∈ attributes, a.1.all isChar = true ∧ a.2.all isChar = true := by
  rw [List.all_flatMap, List.all_eq_true]
  refine forall₂_congr fun a _ => ?_
  have hvalue := all_escapeAttrib a.2
  have hspace : isChar ' ' = true := by decide
  have hequals : isChar '=' = true := by decide
  have hquote : isChar '"' = true := by decide
  simp only [writeAttribute, List.all_cons, List.all_append, List.all_nil, Bool.and_eq_true,
    hspace, hequals, hquote, hvalue, true_and, and_true]

mutual

/-- **The characters** that are written are those of the names and the texts, up to escapes. -/
theorem all_write : ∀ e : Element, (write e).all isChar = true ↔ Chars e
  | ⟨name, attributes, text, children⟩ => by
    have hchildren := all_writeAll children
    have hattributes := all_attributes attributes
    have htext := all_escapeCdata text
    have hlt : isChar '<' = true := by decide
    have hgt : isChar '>' = true := by decide
    have hslash : isChar '/' = true := by decide
    have hend : " />".toList.all isChar = true := by decide
    rw [write, Chars]
    split_ifs with hempty
    · obtain ⟨hnone, hnil⟩ := Bool.and_eq_true_iff.mp hempty
      obtain rfl := List.isEmpty_iff.mp hnone
      obtain rfl := List.isEmpty_iff.mp hnil
      simp only [List.all_append, Bool.and_eq_true, hattributes, hend, List.all_nil, CharsAll,
        and_true]
    · simp only [List.all_append, List.all_cons, List.all_nil, Bool.and_eq_true, hattributes,
        htext, hchildren, hlt, hgt, hslash, true_and, and_true]
      constructor
      · rintro ⟨hname, hattributes, htext, hchildren, -⟩
        exact ⟨hname, hattributes, htext, hchildren⟩
      · rintro ⟨hname, hattributes, htext, hchildren⟩
        exact ⟨hname, hattributes, htext, hchildren, hname⟩

theorem all_writeAll : ∀ elements : List Element,
    (writeAll elements).all isChar = true ↔ CharsAll elements
  | [] => iff_of_true rfl trivial
  | e :: elements => by
    have he := all_write e
    have helements := all_writeAll elements
    have hlt : isChar '<' = true := by decide
    rw [writeAll, CharsAll, List.all_cons, List.all_append, Bool.and_eq_true, Bool.and_eq_true, he,
      helements, and_iff_right hlt]

end

theorem all_writeDocument (root : Element) :
    (writeDocument root).all isChar = true ↔ Chars root := by
  have hdeclaration : "<?xml version=\"1.0\" encoding=\"UTF-8\"?>\n".toList.all isChar = true := by
    decide
  have hlt : isChar '<' = true := by decide
  change ("<?xml version=\"1.0\" encoding=\"UTF-8\"?>\n".toList ++ '<' :: write root).all isChar =
    true ↔ Chars root
  rw [List.all_append, Bool.and_eq_true, and_iff_right hdeclaration, List.all_cons,
    Bool.and_eq_true, and_iff_right hlt, all_write]

/-! ### What is read -/

theorem isName_of_readAttributes {fuel : ℕ} {text rest : Text} {attributes : List (Text × Text)}
    (h : readAttributes fuel text = some (attributes, rest)) :
    ∀ a ∈ attributes, isName a.1 = true := by
  induction fuel generalizing text attributes rest with
  | zero => cases h
  | succ fuel ih =>
    rw [readAttributes] at h
    split_ifs at h
    · obtain ⟨⟨name, behind⟩, hname, h⟩ := Option.bind_eq_some_iff.mp h
      dsimp only at h
      split at h
      · obtain ⟨value, -, h⟩ := Option.bind_eq_some_iff.mp h
        obtain ⟨more, hmore, h⟩ := Option.bind_eq_some_iff.mp h
        obtain ⟨rfl, -⟩ := Prod.mk.inj (Option.some.inj h)
        exact List.forall_mem_cons.mpr ⟨readName_some hname, ih hmore⟩
      · cases h
    · obtain ⟨rfl, -⟩ := Prod.mk.inj (Option.some.inj h)
      exact fun _ ha => absurd ha List.not_mem_nil

theorem named_of_read (fuel : ℕ) :
    (∀ text e rest, readElement fuel text = some (e, rest) → Named e) ∧
      ∀ front text children rest, readContent fuel front = some (text, children, rest) →
        NamedAll children := by
  induction fuel with
  | zero =>
    constructor
    · intro text e rest h
      cases h
    · intro front text children rest h
      cases h
  | succ fuel ih =>
    constructor
    · intro text e rest h
      rw [readElement] at h
      obtain ⟨⟨name, behind⟩, hname, h⟩ := Option.bind_eq_some_iff.mp h
      obtain ⟨⟨attributes, behind'⟩, hattributes, h⟩ := Option.bind_eq_some_iff.mp h
      dsimp only at h
      split_ifs at h with hnodup
      split at h
      · obtain ⟨rfl, -⟩ := Prod.mk.inj (Option.some.inj h)
        exact ⟨readName_some hname, isName_of_readAttributes hattributes, hnodup, trivial⟩
      · obtain ⟨⟨content, children, behind''⟩, hcontent, h⟩ := Option.bind_eq_some_iff.mp h
        obtain ⟨closing, -, h⟩ := Option.bind_eq_some_iff.mp h
        dsimp only at h
        split_ifs at h
        split at h
        · obtain ⟨rfl, -⟩ := Prod.mk.inj (Option.some.inj h)
          exact ⟨readName_some hname, isName_of_readAttributes hattributes, hnodup,
            ih.2 _ _ _ _ hcontent⟩
        · cases h
      · cases h
    · intro front text children rest h
      rw [readContent] at h
      split_ifs at h
      obtain ⟨content, -, h⟩ := Option.bind_eq_some_iff.mp h
      split at h
      · cases h
      · split_ifs at h
        · obtain ⟨-, hpair⟩ := Prod.mk.inj (Option.some.inj h)
          obtain ⟨rfl, -⟩ := Prod.mk.inj hpair
          trivial
        · obtain ⟨⟨child, behind⟩, hchild, h⟩ := Option.bind_eq_some_iff.mp h
          obtain ⟨⟨more, children', behind'⟩, hmore, h⟩ := Option.bind_eq_some_iff.mp h
          obtain ⟨-, hpair⟩ := Prod.mk.inj (Option.some.inj h)
          obtain ⟨rfl, -⟩ := Prod.mk.inj hpair
          exact ⟨ih.1 _ _ _ hchild, ih.2 _ _ _ _ hmore⟩

/-- **The names** of what is read. -/
theorem named_of_readDocument {text : Text} {root : Element} (h : readDocument text = some root) :
    Named root := by
  unfold readDocument at h
  split_ifs at h
  obtain ⟨rest, -, h⟩ := Option.bind_eq_some_iff.mp h
  split at h
  · obtain ⟨⟨root', behind⟩, hroot, h⟩ := Option.bind_eq_some_iff.mp h
    dsimp only at h
    split_ifs at h
    obtain rfl := Option.some.inj h
    exact (named_of_read _).1 _ _ _ hroot
  · cases h

theorem isChar_of_readDocument {text : Text} {root : Element} (h : readDocument text = some root) :
    text.all isChar = true := by
  by_contra hchars
  rw [readDocument, if_neg hchars] at h
  cases h

end AnonReq.Xml
