import Mathlib.Data.List.Infix
import AnonReq.Detection.SpanArbiter

/-!
# The exclusion list

`detection/exclusion_list.py`: texts that are not to be treated as findings. An entry without `*`
is compared as it is; an entry with `*` is a shell pattern (`fnmatch`), in which `*` stands for any
text, `?` for any character and `[...]` for a set of characters.

* `mem_filterDetections`: a span is kept exactly if the text it covers is not excluded.
-/

namespace AnonReq.Detection

/-! ### Shell patterns -/

/-- One item of a shell pattern. -/
inductive GlobItem where
  | star
  | question
  | literal (c : Char)
  | oneOf (negated : Bool) (ranges : List (Char × Char))
deriving DecidableEq

/-- An item other than `*` accepts one character. -/
def GlobItem.acceptsChar (c : Char) : GlobItem → Bool
  | .star => false
  | .question => true
  | .literal d => c == d
  | .oneOf negated ranges => negated ^^ ranges.any fun r => decide (r.1 ≤ c ∧ c ≤ r.2)

/-- `pattern.fullmatch`. -/
def accepts : List GlobItem → Text → Bool
  | [], text => text.isEmpty
  | .star :: items, text => text.tails.any (accepts items)
  | _ :: _, [] => false
  | item :: items, c :: text => item.acceptsChar c && accepts items text

/-! ### The list -/

/-- `ExclusionList`. -/
structure ExclusionList where
  exactValues : List Text := []
  wildcardPatterns : List (List GlobItem) := []

/-- `is_excluded`. -/
def ExclusionList.isExcluded (l : ExclusionList) (value : Text) : Bool :=
  l.exactValues.contains value || l.wildcardPatterns.any (accepts · value)

/-- `filter_detections`. -/
def ExclusionList.filterDetections (l : ExclusionList) (detections : List Span)
    (originalText : Text) : List Span :=
  detections.filter fun d => !l.isExcluded (originalText.slice d.start d.stop)

theorem mem_filterDetections {l : ExclusionList} {detections : List Span} {text : Text}
    {d : Span} :
    d ∈ l.filterDetections detections text ↔
      d ∈ detections ∧ l.isExcluded (text.slice d.start d.stop) = false := by
  rw [ExclusionList.filterDetections, List.mem_filter, Bool.not_eq_true']

end AnonReq.Detection
