import AnonReq.Detection.SpanArbiter

/-!
# Checksum validators

`locale/checksum.py`: entity types may have a validator that recomputes the check digits of a
finding. The registry is keyed by the upper-case type. Of the validators themselves
(`locale/checksums/`), the one for German identity cards is modelled here.
-/

namespace AnonReq.Detection

variable (u : Unicode)

/-- `ChecksumValidatorRegistry`: the validator of each registered type. -/
structure ChecksumValidatorRegistry where
  validators : List (Text × (Text → Bool)) := []

/-- `register`. The latest registration of a type counts. -/
def ChecksumValidatorRegistry.register (registry : ChecksumValidatorRegistry)
    (entityType : String) (validate : Text → Bool) : ChecksumValidatorRegistry where
  validators := (u.upperText entityType.toList, validate) :: registry.validators

/-- `get`. -/
def ChecksumValidatorRegistry.get (registry : ChecksumValidatorRegistry) (entityType : String) :
    Option (Text → Bool) :=
  registry.validators.lookup (u.upperText entityType.toList)

/-- `_detection_value`. -/
def detectionValue (detection : Span) (sourceText : Text) : Text :=
  detection.value.getD (sourceText.slice detection.start detection.stop)

/-- `validate_detection`: drop what its validator rejects. -/
def validateDetection (detection : Span) (registry : ChecksumValidatorRegistry)
    (sourceText : Text) : Option Span :=
  match registry.get u detection.entityType with
  | none => some detection
  | some validate => if validate (detectionValue detection sourceText) then some detection else none

/-! ### German identity cards -/

/-- `_ICAO_VALUES.get(char, 0)`: digits for themselves, `A` to `Z` for 10 to 35. -/
def icaoValue (c : Char) : ℕ :=
  if '0' ≤ c ∧ c ≤ '9' then c.toNat - '0'.toNat
  else if 'A' ≤ c ∧ c ≤ 'Z' then 10 + (c.toNat - 'A'.toNat)
  else 0

/-- `icao9303_check_digit`: weights 7, 3, 1. -/
def icao9303CheckDigit (body : Text) : Text :=
  let weights : List ℕ := [7, 3, 1]
  let total := ((u.upperText body).zipIdx.map fun p =>
    icaoValue p.1 * weights.getD (p.2 % 3) 0).sum
  (Nat.repr (total % 10)).toList

/-- `_AUSWEIS_RE`: a letter, eight letters or digits and a digit, but not nine digits after the
letter. -/
def matchesAusweis : Text → Bool
  | [] => false
  | letter :: rest =>
    let isUpper (c : Char) : Bool := 'A' ≤ c ∧ c ≤ 'Z'
    let isDigit (c : Char) : Bool := '0' ≤ c ∧ c ≤ '9'
    isUpper letter && rest.length == 9 && !rest.all u.isDecimal &&
      (rest.take 8).all (fun c => isUpper c || isDigit c) && (rest.drop 8).all u.isDecimal

/-- `PersonalausweisValidator.validate`. -/
def personalausweisValidate (value : Text) : Bool :=
  let compact := (u.upperText value).filter u.isAlnum
  matchesAusweis u compact && compact.drop 9 == icao9303CheckDigit u (compact.take 9)

end AnonReq.Detection
