import AnonReq.Detection.RegexDetector
import AnonReq.Foundation.Regex

/-!
# The built-in patterns

`PATTERNS` of `detection/regex_patterns.py`, and the patterns of `config/locales/de-DE.yaml` that
the log scrubber adds to them. The Unicode tables of the runtime are a parameter.
-/

namespace AnonReq.Detection

open Regex

/-- A regular expression that takes at least one character, as a compiled pattern. -/
def CompiledPattern.ofRegex (r : Regex Char) : CompiledPattern where
  finditer := r.findAll none 0 0
  bounds text m hm := by simpa using Regex.bounds_of_mem_findAll hm

namespace RegexPatterns

/-! ### Classes -/

/-- `[...]`, character by character. -/
def oneOf (chars : String) : Regex Char := .one fun c => chars.toList.contains c

/-- `[first-last]` -/
def inRange (first last : Char) (c : Char) : Bool := first ≤ c && c ≤ last

/-- `[A-Z]` -/
def isUpper : Char → Bool := inRange 'A' 'Z'

/-- `[a-zA-Z]` -/
def isLetter (c : Char) : Bool := inRange 'a' 'z' c || isUpper c

/-- `[a-zA-Z0-9]` -/
def isAlnum (c : Char) : Bool := isLetter c || inRange '0' '9' c

/-- `[A-Z0-9]` -/
def isUpperAlnum (c : Char) : Bool := isUpper c || inRange '0' '9' c

/-- The characters, as they stand. -/
def literal (chars : String) : Regex Char := Regex.word (· == ·) chars.toList

variable (u : Unicode)

/-- `\w` -/
def isWord (c : Char) : Bool := u.isAlnum c || c == '_'

/-- `\d` -/
def digit : Regex Char := .one u.isDecimal

/-- `\s` or one of the characters. -/
def spaceOr (chars : String) : Regex Char :=
  .one fun c => Text.isSpace c || chars.toList.contains c

/-- `\b` -/
def boundary : Regex Char := .test fun before after =>
  before.any (isWord u) != after.any (isWord u)

/-- `(?<![...])` -/
def notAfter (cls : Char → Bool) : Regex Char := .test fun before _ => !before.any cls

/-! ### The patterns -/

/-- `EMAIL_ADDRESS` -/
def emailAddress : Regex Char :=
  let localChar := fun c => isAlnum c || ".!#$%&'*+/=?^_\x60\x7b|\x7d~-".toList.contains c
  let label := seqs
    [.one isAlnum,
      opt (seqs [between 0 61 (.one fun c => isAlnum c || c == '-'), .one isAlnum]), literal "."]
  seqs [atLeast 1 (.one localChar), literal "@", atLeast 1 label, atLeast 2 (.one isLetter)]

/-- What stands before a phone number. -/
def phoneStart : Regex Char := notAfter fun c => isWord u c || "+./-".toList.contains c

/-- What stands after a phone number. -/
def phoneEnd : Regex Char :=
  .notAhead (seqs
    [atLeast 0 (.one fun c => isWord u c || c == '.' || c == '-'), digit u])

/-- `PHONE_NUMBER` -/
def phoneNumber : Regex Char :=
  let country := seqs
    [literal "+", between 1 3 (digit u), opt (spaceOr ".-"),
      opt (seqs [literal "(0)", opt (spaceOr ".-")]), between 2 5 (digit u)]
  let trunk := seqs [opt (literal "("), literal "0", between 2 5 (digit u), opt (literal ")")]
  alts
    [seqs
      [phoneStart u, alts [country] trunk,
        between 1 4 (seqs [opt (spaceOr "./-"), atLeast 2 (digit u)]), phoneEnd u],
     seqs
      [phoneStart u, opt (literal "("), times 3 (digit u), opt (literal ")"), spaceOr "-.",
        times 3 (digit u), spaceOr "-.", times 4 (digit u), phoneEnd u],
     seqs
      [phoneStart u, opt (seqs [literal "49", opt (spaceOr "-")]), literal "1",
        .one (inRange '5' '7'), digit u, opt (spaceOr "/-"), between 7 8 (digit u), phoneEnd u]]
    (seqs [phoneStart u, .one (inRange '2' '9'), times 9 (digit u), phoneEnd u])

/-- `CREDIT_CARD` -/
def creditCard : Regex Char :=
  seqs
    [boundary u, between 13 19 (seqs [digit u, .rep (oneOf " -") 0 none false]), boundary u]

/-- `IBAN_CODE` -/
def ibanCode : Regex Char :=
  seqs
    [boundary u, times 2 (.one isUpper), times 2 (digit u), opt (literal " "),
      between 2 7 (seqs [times 4 (.one isUpperAlnum), opt (literal " ")]),
      between 1 4 (.one isUpperAlnum), boundary u]

/-- `IP_ADDRESS` -/
def ipAddress : Regex Char :=
  seqs
    [boundary u, times 3 (seqs [between 1 3 (digit u), literal "."]), between 1 3 (digit u),
      boundary u]

/-- `URL` -/
def url : Regex Char :=
  seqs
    [literal "http", opt (literal "s"), literal "://",
      .one fun c => !(Text.isSpace c || "/$.?#".toList.contains c), .one fun c => c != '\n',
      atLeast 0 (.one fun c => !Text.isSpace c)]

/-- `US_SSN` -/
def usSsn : Regex Char :=
  seqs
    [boundary u,
      .notAhead (alts [literal "000", literal "666"] (seqs [literal "9", times 2 (digit u)])),
      times 3 (digit u), literal "-", .notAhead (literal "00"), times 2 (digit u), literal "-",
      .notAhead (literal "0000"), times 4 (digit u), boundary u]

/-- `PATTERNS` -/
def patterns : PatternTable :=
  [("EMAIL_ADDRESS", .ofRegex emailAddress), ("PHONE_NUMBER", .ofRegex (phoneNumber u)),
    ("CREDIT_CARD", .ofRegex (creditCard u)), ("IBAN_CODE", .ofRegex (ibanCode u)),
    ("IP_ADDRESS", .ofRegex (ipAddress u)), ("URL", .ofRegex url),
    ("US_SSN", .ofRegex (usSsn u))]

/-! ### German identifiers -/

/-- `TAX_ID_DE` -/
def taxIdDe : Regex Char :=
  alts [seqs [boundary u, .one (inRange '1' '9'), times 10 (digit u), boundary u]]
    (seqs
      [boundary u, .one (inRange '1' '9'), digit u, times 3 (seqs [spaceOr "", times 3 (digit u)]),
        boundary u])

/-- `PERSONAL_AUSWEIS` -/
def personalAusweis : Regex Char :=
  seqs
    [boundary u, .one isUpper, .notAhead (seqs [times 9 (digit u), boundary u]),
      times 8 (.one isUpperAlnum), digit u, boundary u]

/-- `KVNR` -/
def kvnr : Regex Char := seqs [boundary u, .one isUpper, times 9 (digit u), boundary u]

/-- `SVNR_DE` -/
def svnrDe : Regex Char :=
  seqs
    [boundary u, times 2 (digit u), opt (spaceOr ""), times 6 (digit u), opt (spaceOr ""),
      .one isUpper, opt (spaceOr ""), times 3 (digit u), boundary u]

/-- `IBAN_DE` -/
def ibanDe : Regex Char :=
  seqs
    [boundary u, literal "DE", times 2 (digit u),
      times 4 (seqs [opt (spaceOr ""), times 4 (digit u)]), opt (spaceOr ""), times 2 (digit u),
      boundary u]

/-- The patterns of `_GERMAN_ENTITY_TYPES`, in the order of the file. -/
def germanPatterns : PatternTable :=
  [("TAX_ID_DE", .ofRegex (taxIdDe u)), ("PERSONAL_AUSWEIS", .ofRegex (personalAusweis u)),
    ("KVNR", .ofRegex (kvnr u)), ("SVNR_DE", .ofRegex (svnrDe u)),
    ("IBAN_DE", .ofRegex (ibanDe u))]

end RegexPatterns

end AnonReq.Detection
