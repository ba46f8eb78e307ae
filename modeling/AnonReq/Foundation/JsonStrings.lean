import AnonReq.Foundation.JsonKeys

/-!
# The strings of a document

`strings` are the values of a document that are strings, at every depth; `walk f` replaces them one
after the other, where `f` is given what it has left.

* `strings_walk`: the strings of the result are what a loop over the strings leaves.
* `keys_walk`: the keys are the same.
-/

namespace AnonReq.Json

mutual

/-- The values that are strings, at every depth. -/
def strings : Json → List Text
  | text s => [s]
  | list items => itemStrings items
  | object fields => fieldStrings fields
  | _ => []

/-- The strings in items. -/
def itemStrings : List Json → List Text
  | [] => []
  | item :: items => strings item ++ itemStrings items

/-- The strings in fields. -/
def fieldStrings : List (Text × Json) → List Text
  | [] => []
  | (_, value) :: fields => strings value ++ fieldStrings fields

end

variable {σ : Type*} (f : σ → Text → Text × σ)

mutual

/-- A document with its strings replaced, and what is left. -/
def walk : σ → Json → Json × σ
  | s, text t => (text (f s t).1, (f s t).2)
  | s, list items => (list (walkItems s items).1, (walkItems s items).2)
  | s, object fields => (object (walkFields s fields).1, (walkFields s fields).2)
  | s, null => (null, s)
  | s, bool b => (bool b, s)
  | s, int n => (int n, s)
  | s, float shown => (float shown, s)

/-- Items with their strings replaced. -/
def walkItems : σ → List Json → List Json × σ
  | s, [] => ([], s)
  | s, item :: items =>
    ((walk s item).1 :: (walkItems (walk s item).2 items).1, (walkItems (walk s item).2 items).2)

/-- Fields with their strings replaced. -/
def walkFields : σ → List (Text × Json) → List (Text × Json) × σ
  | s, [] => ([], s)
  | s, (k, value) :: fields =>
    ((k, (walk s value).1) :: (walkFields (walk s value).2 fields).1,
      (walkFields (walk s value).2 fields).2)

end

/-- The strings of a list replaced, and what is left. -/
def loop : σ → List Text → List Text × σ
  | s, [] => ([], s)
  | s, t :: ts => ((f s t).1 :: (loop (f s t).2 ts).1, (loop (f s t).2 ts).2)

variable {f}

theorem loop_append (s : σ) (a b : List Text) :
    loop f s (a ++ b) =
      ((loop f s a).1 ++ (loop f (loop f s a).2 b).1, (loop f (loop f s a).2 b).2) := by
  induction a generalizing s with
  | nil => rfl
  | cons t a ih =>
    rw [List.cons_append, loop, ih, loop, List.cons_append]

mutual

-- what is used is about fields; documents and items are for the induction
/-- **A walk** is a loop over the strings of the document. -/
theorem strings_walk (s : σ) : ∀ document : Json,
    loop f s document.strings = ((walk f s document).1.strings, (walk f s document).2)
  | text t => by rw [strings, walk, strings, loop, loop]
  | list items => by rw [strings, walk, strings, itemStrings_walkItems]
  | object fields => by rw [strings, walk, strings, fieldStrings_walkFields]
  | null | bool _ | int _ | float _ => rfl

theorem itemStrings_walkItems (s : σ) : ∀ items : List Json,
    loop f s (itemStrings items) = (itemStrings (walkItems f s items).1, (walkItems f s items).2)
  | [] => rfl
  | item :: items => by
    rw [itemStrings, loop_append, strings_walk s item, itemStrings_walkItems _ items, walkItems,
      itemStrings]

theorem fieldStrings_walkFields (s : σ) : ∀ fields : List (Text × Json),
    loop f s (fieldStrings fields) =
      (fieldStrings (walkFields f s fields).1, (walkFields f s fields).2)
  | [] => rfl
  | (k, value) :: fields => by
    rw [fieldStrings, loop_append, strings_walk s value, fieldStrings_walkFields _ fields,
      walkFields, fieldStrings]

end

mutual

-- what is used is about fields; documents and items are for the induction
/-- **The keys** of a document stay as they are. -/
theorem keys_walk (s : σ) : ∀ document : Json, (walk f s document).1.keys = document.keys
  | list items => by rw [walk, keys, itemKeys_walkItems, keys]
  | object fields => by rw [walk, keys, fieldKeys_walkFields, keys]
  | text _ | null | bool _ | int _ | float _ => rfl

theorem itemKeys_walkItems (s : σ) : ∀ items : List Json,
    itemKeys (walkItems f s items).1 = itemKeys items
  | [] => rfl
  | item :: items => by
    rw [walkItems, itemKeys, keys_walk s item, itemKeys_walkItems _ items, itemKeys]

theorem fieldKeys_walkFields (s : σ) : ∀ fields : List (Text × Json),
    fieldKeys (walkFields f s fields).1 = fieldKeys fields
  | [] => rfl
  | (k, value) :: fields => by
    rw [walkFields, fieldKeys, keys_walk s value, fieldKeys_walkFields _ fields, fieldKeys]

end

end AnonReq.Json
