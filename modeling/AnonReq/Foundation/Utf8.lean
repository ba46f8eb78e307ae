import Mathlib.Data.List.DropRight

/-!
# Decoding UTF-8

Bytes are decoded from left to right. Where no character is encoded, the longest beginning of an
encoded character that stands there, or one byte, is replaced by the replacement character; a
strict decoder fails there.

* `decodeReplace_encode`, `decode_encode`: encoded text is decoded to itself.
* `strip_encode`: encoded text is stripped of the space around it.
-/

namespace Utf8

/-- The encoding of a text. -/
def encode (text : List Char) : List UInt8 := text.flatMap String.utf8EncodeChar

/-- The character that is encoded at the front. -/
def decodeChar (bytes : List UInt8) : Option Char := bytes.toByteArray.utf8DecodeChar? 0

/-- A byte that continues a character. -/
def isContinuation (b : UInt8) : Bool := 0x80 ≤ b && b ≤ 0xBF

/-- The byte may follow the first byte of a character. -/
def mayFollow (first b : UInt8) : Bool :=
  if first < 0xC2 || 0xF4 < first then false
  else if first = 0xE0 then 0xA0 ≤ b && b ≤ 0xBF
  else if first = 0xED then 0x80 ≤ b && b ≤ 0x9F
  else if first = 0xF0 then 0x90 ≤ b && b ≤ 0xBF
  else if first = 0xF4 then 0x80 ≤ b && b ≤ 0x8F
  else isContinuation b

/-- How many bytes at the front are replaced, where no character is encoded. -/
def invalidLength : List UInt8 → ℕ
  | b₀ :: b₁ :: rest =>
    if mayFollow b₀ b₁ then if rest.head?.any isContinuation && 0xF0 ≤ b₀ then 3 else 2 else 1
  | _ => 1

/-- Decode the bytes after the first `skip`. -/
def decodeFrom : ℕ → List UInt8 → List Char
  | _, [] => []
  | skip + 1, _ :: rest => decodeFrom skip rest
  | 0, b :: rest =>
    match decodeChar (b :: rest) with
    | some c => c :: decodeFrom (c.utf8Size - 1) rest
    | none => '\uFFFD' :: decodeFrom (invalidLength (b :: rest) - 1) rest

/-- `bytes.decode("utf-8", errors="replace")`. -/
def decodeReplace (bytes : List UInt8) : List Char := decodeFrom 0 bytes

/-- Decode the bytes after the first `skip`, if each of the others belongs to a character. -/
def decodeStrictFrom : ℕ → List UInt8 → Option (List Char)
  | _, [] => some []
  | skip + 1, _ :: rest => decodeStrictFrom skip rest
  | 0, b :: rest =>
    match decodeChar (b :: rest) with
    | some c => (decodeStrictFrom (c.utf8Size - 1) rest).map (c :: ·)
    | none => none

/-- `bytes.decode()`; `none` is the `UnicodeDecodeError`. -/
def decode (bytes : List UInt8) : Option (List Char) := decodeStrictFrom 0 bytes

/-- Passing over the first bytes. -/
theorem decodeFrom_append {skip : ℕ} {a : List UInt8} (h : a.length = skip) (b : List UInt8) :
    decodeFrom skip (a ++ b) = decodeFrom 0 b := by
  induction a generalizing skip with
  | nil =>
    subst h
    rfl
  | cons x a ih =>
    subst h
    exact ih rfl

theorem decodeChar_utf8EncodeChar_append (c : Char) (rest : List UInt8) :
    decodeChar (String.utf8EncodeChar c ++ rest) = some c := by
  rw [decodeChar, List.toByteArray_append]
  exact ByteArray.utf8DecodeChar?_utf8EncodeChar_append

theorem decodeStrictFrom_append {skip : ℕ} {a : List UInt8} (h : a.length = skip)
    (b : List UInt8) : decodeStrictFrom skip (a ++ b) = decodeStrictFrom 0 b := by
  induction a generalizing skip with
  | nil =>
    subst h
    rfl
  | cons x a ih =>
    subst h
    exact ih rfl

/-- The first character of an encoded text. -/
theorem exists_encode_cons (c : Char) (text : List Char) :
    ∃ b rest, encode (c :: text) = b :: (rest ++ encode text) ∧ rest.length = c.utf8Size - 1 ∧
      decodeChar (b :: (rest ++ encode text)) = some c := by
  have hlength : (String.utf8EncodeChar c).length = c.utf8Size := String.length_utf8EncodeChar c
  obtain ⟨b, rest, hbytes⟩ : ∃ b rest, String.utf8EncodeChar c = b :: rest :=
    List.exists_cons_of_length_pos (hlength ▸ c.utf8Size_pos)
  have hchar := decodeChar_utf8EncodeChar_append c (encode text)
  rw [hbytes, List.cons_append] at hchar
  refine ⟨b, rest, ?_, ?_, hchar⟩
  · rw [encode, List.flatMap_cons, hbytes, List.cons_append]
    rfl
  · rw [hbytes, List.length_cons] at hlength
    omega

/-- **Encoded text is decoded to itself.** -/
theorem decodeReplace_encode (text : List Char) : decodeReplace (encode text) = text := by
  induction text with
  | nil => rfl
  | cons c text ih =>
    obtain ⟨b, rest, hcons, hrest, hchar⟩ := exists_encode_cons c text
    rw [decodeReplace, hcons, decodeFrom, hchar]
    exact congrArg (c :: ·) ((decodeFrom_append hrest _).trans ih)

/-- **Encoded text is decoded**, and nothing is left over. -/
theorem decode_encode (text : List Char) : decode (encode text) = some text := by
  induction text with
  | nil => rfl
  | cons c text ih =>
    obtain ⟨b, rest, hcons, hrest, hchar⟩ := exists_encode_cons c text
    have htail : decodeStrictFrom (c.utf8Size - 1) (rest ++ encode text) = some text :=
      (decodeStrictFrom_append hrest _).trans ih
    rw [decode, hcons, decodeStrictFrom, hchar]
    exact congrArg (Option.map (c :: ·)) htail

theorem length_le_length_encode (text : List Char) : text.length ≤ (encode text).length := by
  induction text with
  | nil => exact Nat.le_refl 0
  | cons c text ih =>
    have hchar : (String.utf8EncodeChar c).length = c.utf8Size := String.length_utf8EncodeChar c
    have hpos := c.utf8Size_pos
    rw [encode, List.flatMap_cons, List.length_append, List.length_cons]
    rw [encode] at ih
    omega

/-! ### Stripped bytes -/

/-- A byte of space. -/
def isSpaceByte (b : UInt8) : Bool := (0x09 ≤ b && b ≤ 0x0D) || b == 0x20

/-- `data.strip()`. -/
def strip (data : List UInt8) : List UInt8 := (data.dropWhile isSpaceByte).rdropWhile isSpaceByte

/-- A character that is encoded as space. -/
def IsSpace (c : Char) : Prop := ∀ b ∈ String.utf8EncodeChar c, isSpaceByte b = true

instance (c : Char) : Decidable (IsSpace c) :=
  List.decidableBAll (isSpaceByte · = true) (String.utf8EncodeChar c)

/-- A character that is encoded as one byte, which is no space. -/
def IsMark (c : Char) : Prop := ∃ b, String.utf8EncodeChar c = [b] ∧ isSpaceByte b = false

theorem encode_append (a b : List Char) : encode (a ++ b) = encode a ++ encode b :=
  List.flatMap_append

theorem isSpaceByte_of_mem_encode {text : List Char} (h : ∀ c ∈ text, IsSpace c) :
    ∀ b ∈ encode text, isSpaceByte b = true := by
  intro b hb
  obtain ⟨c, hc, hb⟩ := List.mem_flatMap.mp hb
  exact h c hc b hb

/-- **Encoded text** is stripped of the space around it. -/
theorem strip_encode {before inner behind : List Char} {opening closing : Char}
    (hbefore : ∀ c ∈ before, IsSpace c) (hbehind : ∀ c ∈ behind, IsSpace c)
    (hopening : IsMark opening) (hclosing : IsMark closing) :
    strip (encode (before ++ (opening :: (inner ++ [closing]) ++ behind))) =
      encode (opening :: (inner ++ [closing])) := by
  obtain ⟨first, hfirst, hfirst'⟩ := hopening
  obtain ⟨last, hlast, hlast'⟩ := hclosing
  have hcore : encode (opening :: (inner ++ [closing])) = first :: (encode inner ++ [last]) := by
    rw [encode, List.flatMap_cons, hfirst, List.flatMap_append, List.flatMap_singleton, hlast]
    rfl
  have hfront : strip (encode (before ++ (opening :: (inner ++ [closing]) ++ behind))) =
      (first :: (encode inner ++ [last]) ++ encode behind).rdropWhile isSpaceByte := by
    rw [strip, encode_append, List.dropWhile_append_of_pos (isSpaceByte_of_mem_encode hbefore),
      encode_append, hcore, List.cons_append,
      List.dropWhile_cons_of_neg (Bool.not_eq_true _ ▸ hfirst')]
  rw [hfront, hcore, List.rdropWhile, List.reverse_append, List.dropWhile_append_of_pos]
  · rw [← List.cons_append, List.reverse_concat, List.dropWhile_cons_of_neg
      (Bool.not_eq_true _ ▸ hlast'), ← List.reverse_concat, List.reverse_reverse]
  · intro b hb
    exact isSpaceByte_of_mem_encode hbehind b (List.mem_reverse.mp hb)

end Utf8
