import AnonReq.Foundation.Json

/-!
# What the adapters read

The ways in which `providers/gemini.py` and `providers/anthropic.py` read a document, and the texts
of a document.
-/

namespace AnonReq.Providers

/-- `document.get(k, default)`: `none` is the exception for a document that is no object. -/
def getD (k : String) (default : Json) : Json → Option Json
  | .object fields => some ((fields.lookup k.toList).getD default)
  | _ => none

/-- What a `for` loop goes through: `none` is the exception. -/
def iterate : Json → Option (List Json)
  | .list items => some items
  | .object fields => some (fields.map fun field => .text field.1)
  | .text s => some (s.map fun c => .text [c])
  | _ => none

/-- `candidates[0]`: `none` is the exception. -/
def firstItem : Json → Option Json
  | .list (item :: _) => some item
  | .text (c :: _) => some (.text [c])
  | _ => none

/-- A string: `none` where the document is none. -/
def asText : Json → Option Text
  | .text s => some s
  | _ => none

mutual

/-- The strings among the values of a document. -/
def texts : Json → List Text
  | .text s => [s]
  | .list items => textsOfItems items
  | .object fields => textsOfFields fields
  | _ => []

/-- The strings of some documents. -/
def textsOfItems : List Json → List Text
  | [] => []
  | item :: items => texts item ++ textsOfItems items

/-- The strings of some fields. -/
def textsOfFields : List (Text × Json) → List Text
  | [] => []
  | (_, value) :: fields => texts value ++ textsOfFields fields

end

end AnonReq.Providers
