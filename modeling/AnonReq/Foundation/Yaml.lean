import Mathlib.Data.Rat.Defs
import AnonReq.Foundation.Characters

/-!
# YAML documents

Documents as `yaml.safe_load` builds them. The keys of a mapping can be of any kind; a value of a
kind that is not listed, such as a date, is known by the name of its type.
-/

namespace AnonReq

/-- A YAML document. A float is a number, infinite or no number. -/
inductive Yaml where
  | null
  | bool (b : Bool)
  | int (n : ℤ)
  | float (q : ℚ)
  | infinity (negative : Bool)
  | nan
  | str (s : Text)
  | seq (items : List Yaml)
  | map (entries : List (Yaml × Yaml))
  | other (typeName : Text)

namespace Yaml

/-- A mapping. -/
def IsMap (document : Yaml) : Prop := ∃ entries, document = map entries

/-- A key is this text. -/
def isKey (k : Text) : Yaml → Bool
  | str s => s == k
  | _ => false

/-- `document.get(k)`, which is `None` for a missing key, too. What is no mapping has no keys. -/
def get (k : Text) : Yaml → Yaml
  | map entries => ((entries.find? fun entry => isKey k entry.1).map Prod.snd).getD null
  | _ => null

/-- `document.get(k, default)` of a mapping. -/
def getD (document : Yaml) (k : Text) (default : Yaml) : Yaml :=
  match document with
  | map entries => ((entries.find? fun entry => isKey k entry.1).map Prod.snd).getD default
  | _ => default

/-- `bool(document)`. -/
def truthy : Yaml → Bool
  | null => false
  | bool b => b
  | int n => n != 0
  | float q => q != 0
  | str s => !s.isEmpty
  | seq items => !items.isEmpty
  | map entries => !entries.isEmpty
  | infinity _ | nan | other _ => true

/-- `type(document).__name__`. -/
def typeName : Yaml → Text
  | null => "NoneType".toList
  | bool _ => "bool".toList
  | int _ => "int".toList
  | float _ => "float".toList
  | infinity _ => "float".toList
  | nan => "float".toList
  | str _ => "str".toList
  | seq _ => "list".toList
  | map _ => "dict".toList
  | other typeName => typeName

/-- A text that is not empty. -/
def textOf : Yaml → Option Text
  | str s => if s = [] then none else some s
  | _ => none

/-- The number that `int` makes of a number. -/
def numberOf : Yaml → Option ℤ
  | bool b => some (if b then 1 else 0)
  | int n => some n
  | float q => some (q.num.tdiv q.den)
  | _ => none

/-- A list, if it is one. -/
def itemsOf : Yaml → Option (List Yaml)
  | seq items => some items
  | _ => none

theorem textOf_eq_some_iff {document : Yaml} {s : Text} :
    document.textOf = some s ↔ document = str s ∧ s ≠ [] := by
  cases document with
  | str t =>
    rw [textOf]
    split_ifs with hempty
    · refine iff_of_false id ?_
      rintro ⟨heq, hne⟩
      exact hne (str.inj heq ▸ hempty)
    · constructor
      · intro h
        obtain rfl := Option.some.inj h
        exact ⟨rfl, hempty⟩
      · rintro ⟨heq, -⟩
        exact congrArg some (str.inj heq)
  | _ => exact iff_of_false (Option.some_ne_none s).symm (by simp)

/-- What has a key is a mapping. -/
theorem isMap_of_get_ne {document : Yaml} {k : Text} (h : document.get k ≠ null) :
    document.IsMap := by
  cases document with
  | map entries => exact ⟨entries, rfl⟩
  | _ => exact absurd rfl h

end Yaml

end AnonReq
