import AnonReq.Foundation.Json

/-!
# Writing JSON

Documents as `json.dumps` writes them, with the separators and the escapes of a style.

* `escapeControl`, `escapeAscii`: a character inside of a string, without and with `ensure_ascii`.
* `dumps`: a document.
-/

namespace AnonReq.Json

/-- How documents are written: what stands between two items, what stands behind a name, and what a
character is inside of a string. -/
structure Style where
  comma : Text
  colon : Text
  escape : Char → Text

/-- `'{0:04x}'.format(n)`, below `0x10000`. -/
def hex4 (n : ℕ) : Text :=
  [Nat.digitChar (n / 4096 % 16), Nat.digitChar (n / 256 % 16), Nat.digitChar (n / 16 % 16),
    Nat.digitChar (n % 16)]

/-- An escape with four hexadecimal digits. -/
def unicodeEscape (n : ℕ) : Text := '\\' :: 'u' :: hex4 n

/-- A character inside of a string, with `ensure_ascii=False`. -/
def escapeControl (c : Char) : Text :=
  if c = '"' then ['\\', '"']
  else if c = '\\' then ['\\', '\\']
  else if c = '\n' then ['\\', 'n']
  else if c = '\r' then ['\\', 'r']
  else if c = '\t' then ['\\', 't']
  else if c = '\x0c' then ['\\', 'f']
  else if c = '\x08' then ['\\', 'b']
  else if c.toNat < 0x20 then unicodeEscape c.toNat
  else [c]

/-- A character inside of a string, with `ensure_ascii=True`: two escapes outside of the basic
plane. -/
def escapeAscii (c : Char) : Text :=
  if c.toNat < 0x7f then escapeControl c
  else if c.toNat < 0x10000 then unicodeEscape c.toNat
  else unicodeEscape (0xd800 + (c.toNat - 0x10000) / 0x400 % 0x400) ++
    unicodeEscape (0xdc00 + (c.toNat - 0x10000) % 0x400)

/-- A string. -/
def quoted (style : Style) (s : Text) : Text := '"' :: s.flatMap style.escape ++ ['"']

/-- `str(n)` of an integer. -/
def decimal (n : ℤ) : Text :=
  if n < 0 then '-' :: Nat.toDigits 10 n.natAbs else Nat.toDigits 10 n.natAbs

mutual

/-- `json.dumps(document)`. -/
def dumps (style : Style) : Json → Text
  | null => "null".toList
  | bool true => "true".toList
  | bool false => "false".toList
  | int n => decimal n
  | float shown => shown
  | text s => quoted style s
  | list items => '[' :: style.comma.intercalate (dumpsItems style items) ++ [']']
  | object fields => '{' :: style.comma.intercalate (dumpsFields style fields) ++ ['}']

/-- The items of an array. -/
def dumpsItems (style : Style) : List Json → List Text
  | [] => []
  | item :: items => dumps style item :: dumpsItems style items

/-- The fields of an object. -/
def dumpsFields (style : Style) : List (Text × Json) → List Text
  | [] => []
  | (k, value) :: fields =>
    (quoted style k ++ style.colon ++ dumps style value) :: dumpsFields style fields

end

end AnonReq.Json
