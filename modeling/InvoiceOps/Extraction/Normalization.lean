import InvoiceOps.Schemas.Extraction
import InvoiceOps.Matching.Assignment

/-! The normalisers of the invoice fields (`extraction/normalization.py`): amounts, currencies and dates. A regular
expression of the source is a function of the characters it reads. Where an expression can read a text in more than
one way the readings are listed in the order they are tried, and the first of them counts. -/

namespace InvoiceOps

open Calendar Text

def normalizeWhitespace (value : String) : String := String.ofList (joinWords value.toList)

/-- The rest of a text after a literal, characters compared by `eq`. -/
def readLiteral (eq : Char → Char → Bool) : List Char → List Char → Option (List Char)
  | [], cs => some cs
  | _ :: _, [] => none
  | p :: ps, c :: cs => if eq p c then readLiteral eq ps cs else none

/-- What `AED|…|USD|RS\.?|RUPEES?` reads, in the order it is tried. -/
def currencyMarks : List String :=
  ["AED", "AUD", "CAD", "CHF", "EUR", "GBP", "INR", "JPY", "SGD", "USD", "RS.", "RS", "RUPEES", "RUPEE"]

/-- A capital letter of a pattern without regard to case: the long s is a case of S, and I has two more. -/
def eqIgnoringCase (p c : Char) : Bool :=
  c == p || c == p.toLower || (p == 'S' && c == 'ſ') || (p == 'I' && (c == 'İ' || c == 'ı'))

def readMark (cs : List Char) : Option (List Char) :=
  currencyMarks.findSome? fun m => readLiteral eqIgnoringCase m.toList cs

def dropLeadingMark (cs : List Char) : List Char :=
  match readMark cs with
  | some rest => rest.dropWhile isSpace
  | none => cs

def dropTrailingMark : List Char → List Char
  | [] => []
  | c :: cs => if readMark ((c :: cs).dropWhile isSpace) = some [] then [] else c :: dropTrailingMark cs

/-- `[+-]?[0-9][0-9 ,.]*` -/
def amountShape (cs : List Char) : Bool :=
  match (if cs.head? = some '+' ∨ cs.head? = some '-' then cs.tail else cs) with
  | [] => false
  | c :: rest => c.isDigit && rest.all fun c => c.isDigit || c == ' ' || c == ',' || c == '.'

def resolveSeparators (cs : List Char) : Option (List Char) :=
  if ',' ∈ cs ∧ '.' ∈ cs then
    if cs.reverse.find? (fun c => c == ',' || c == '.') = some ',' then
      some ((cs.filter (· ≠ '.')).map fun c => if c = ',' then '.' else c)
    else some (cs.filter (· ≠ ','))
  else if ',' ∈ cs then
    let parts := cs.splitOn ','
    if parts.length = 2 ∧ parts.tail.all (fun p => p.length == 1 || p.length == 2) then
      some (['.'].intercalate parts)
    else if parts.tail.all (·.length == 3) then some parts.flatten
    else none
  else if 1 < cs.count '.' then
    let parts := cs.splitOn '.'
    if parts.tail.all (·.length == 3) then some parts.flatten else none
  else some cs

/-- `[0-9]+(?:\.[0-9]+)?` -/
def plainNumber (cs : List Char) : Bool :=
  let parts := cs.splitOn '.'
  decide (parts.length ≤ 2) && parts.all fun p => decide (p ≠ []) && p.all Char.isDigit

/-- `parse_money`; the negation is made in the default context of 28 digits. -/
def parseMoney (value : String) : Option Decimal :=
  let normalized := stripBy isSpace
    ((normalizeWhitespace value).toList.map fun c => if c = '\u00a0' then ' ' else c)
  let negativeParentheses := decide (normalized.head? = some '(' ∧ normalized.getLast? = some ')')
  let normalized := if negativeParentheses then stripBy isSpace normalized.tail.dropLast else normalized
  let normalized := dropTrailingMark (dropLeadingMark normalized)
  let normalized := stripBy isSpace (normalized.dropWhile (· ∈ ['₹', '€', '£', '$']))
  if amountShape normalized then
    let explicitNegative := decide (normalized.head? = some '-')
    let unsigned := (normalized.dropWhile fun c => c == '+' || c == '-').filter (· ≠ ' ')
    match resolveSeparators unsigned with
    | none => none
    | some digits =>
      if plainNumber digits then
        (Decimal.readUnsigned false digits).map fun amount =>
          if negativeParentheses || explicitNegative then amount.minus 28 else amount
      else none
  else none

def currencyCodes : List String := ["AED", "AUD", "CAD", "CHF", "EUR", "GBP", "INR", "JPY", "SGD", "USD"]

def currencyNames : List (String × String) :=
  [("DIRHAM", "AED"), ("DIRHAMS", "AED"), ("EURO", "EUR"), ("EUROS", "EUR"), ("INDIAN RUPEE", "INR"),
    ("INDIAN RUPEES", "INR"), ("POUND STERLING", "GBP"), ("RUPEE", "INR"), ("RUPEES", "INR")]

def currencySymbols : List (String × String) := [("₹", "INR"), ("€", "EUR"), ("£", "GBP")]

def normalizeCurrency (U : Unicode) (value : String) : Option String :=
  let normalized := U.upper (String.ofList
    (stripBy (fun c => c == ' ' || c == '.' || c == ':') (normalizeWhitespace value).toList))
  if normalized ∈ currencyCodes then some normalized
  else
    match currencyNames.find? (·.1 = normalized) with
    | some entry => some entry.2
    | none => (currencySymbols.find? (·.1 = strip value)).map (·.2)

def readClasses : List (Char → Option ℕ) → List Char → Option (List ℕ × List Char)
  | [], cs => some ([], cs)
  | _ :: _, [] => none
  | p :: ps, c :: cs => (p c).bind fun d => (readClasses ps cs).map fun r => (d :: r.1, r.2)

def readNumber (alternatives : List (List (Char → Option ℕ))) (cs : List Char) : List (ℕ × List Char) :=
  alternatives.filterMap fun classes => (readClasses classes cs).map fun r => (ofDigits r.1, r.2)

/-- `[lo-hi]` -/
def digitIn (lo hi : ℕ) (c : Char) : Option ℕ := (asciiDigit c).filter fun d => decide (lo ≤ d ∧ d ≤ hi)

def blankDigit (c : Char) : Option ℕ := if c = ' ' then some 0 else none

/-- `3[0-1]|[1-2]\d|0[1-9]|[1-9]| [1-9]` -/
def dayDigits (U : Unicode) : List (List (Char → Option ℕ)) :=
  [[digitIn 3 3, digitIn 0 1], [digitIn 1 2, U.digit], [digitIn 0 0, digitIn 1 9], [digitIn 1 9],
    [blankDigit, digitIn 1 9]]

/-- `1[0-2]|0[1-9]|[1-9]` -/
def monthDigits : List (List (Char → Option ℕ)) :=
  [[digitIn 1 1, digitIn 0 2], [digitIn 0 0, digitIn 1 9], [digitIn 1 9]]

/-- `\d\d\d\d` -/
def yearDigits (U : Unicode) : List (List (Char → Option ℕ)) := [[U.digit, U.digit, U.digit, U.digit]]

def monthAbbreviations : List String :=
  ["jan", "feb", "mar", "apr", "may", "jun", "jul", "aug", "sep", "oct", "nov", "dec"]

def monthNames : List String :=
  ["january", "february", "march", "april", "may", "june", "july", "august", "september", "october", "november",
    "december"]

def readMonth (names : List String) (cs : List Char) : List (ℕ × List Char) :=
  names.zipIdx.filterMap fun name =>
    (readLiteral (fun p c => p == c.toLower) name.1.toList cs).map fun rest => (name.2 + 1, rest)

/-- `\s+`, the longest reading first. -/
def readBlanks : List Char → List (List Char)
  | [] => []
  | c :: cs => if isSpace c then readBlanks cs ++ [cs] else []

inductive DateItem
  | day
  | month
  | year
  | monthAbbreviation
  | monthName
  | blanks
  | literal (c : Char)
deriving DecidableEq, Repr

def DateItem.read (U : Unicode) (ymd : ℕ × ℕ × ℕ) (cs : List Char) : DateItem → List ((ℕ × ℕ × ℕ) × List Char)
  | .day => (readNumber (dayDigits U) cs).map fun r => ((ymd.1, ymd.2.1, r.1), r.2)
  | .month => (readNumber monthDigits cs).map fun r => ((ymd.1, r.1, ymd.2.2), r.2)
  | .year => (readNumber (yearDigits U) cs).map fun r => ((r.1, ymd.2), r.2)
  | .monthAbbreviation => (readMonth monthAbbreviations cs).map fun r => ((ymd.1, r.1, ymd.2.2), r.2)
  | .monthName => (readMonth monthNames cs).map fun r => ((ymd.1, r.1, ymd.2.2), r.2)
  | .blanks => (readBlanks cs).map fun rest => (ymd, rest)
  | .literal c => if cs.head? = some c then [(ymd, cs.tail)] else []

def readFormat (U : Unicode) : List DateItem → ℕ × ℕ × ℕ → List Char → List ((ℕ × ℕ × ℕ) × List Char)
  | [], ymd, cs => [(ymd, cs)]
  | item :: items, ymd, cs => (item.read U ymd cs).flatMap fun r => readFormat U items r.1 r.2

def daysInMonth (y m : ℕ) : ℕ :=
  if m = 2 then (if isLeap y then 29 else 28) else if m ∈ [4, 6, 9, 11] then 30 else 31

/-- The constructor of a date; `none` is its `ValueError`. -/
def dateOfYmd (ymd : ℕ × ℕ × ℕ) : Option Date :=
  if 1 ≤ ymd.1 ∧ ymd.1 ≤ 9999 ∧ 1 ≤ ymd.2.1 ∧ ymd.2.1 ≤ 12 ∧ 1 ≤ ymd.2.2 ∧ ymd.2.2 ≤ daysInMonth ymd.1 ymd.2.1 then
    if h : 0 < ymdToOrdinal ymd ∧ ymdToOrdinal ymd ≤ 3652059 then some ⟨ymdToOrdinal ymd, h.1, h.2⟩ else none
  else none

/-- `datetime.strptime(…).date()`: the first reading must leave nothing over. -/
def strptime (U : Unicode) (format : List DateItem) (cs : List Char) : Option Date :=
  match readFormat U format (1900, 1, 1) cs with
  | (ymd, []) :: _ => dateOfYmd ymd
  | _ => none

/-- `%d/%m/%Y`, `%d-%m-%Y`, `%Y-%m-%d`, `%d %b %Y` and `%B %d, %Y`. -/
def dateFormats : List (List DateItem) :=
  [[.day, .literal '/', .month, .literal '/', .year],
    [.day, .literal '-', .month, .literal '-', .year],
    [.year, .literal '-', .month, .literal '-', .day],
    [.day, .blanks, .monthAbbreviation, .blanks, .year],
    [.monthName, .blanks, .day, .literal ',', .blanks, .year]]

def parseInvoiceDate (U : Unicode) (value : String) : Option Date :=
  let normalized := joinWords (stripBy (fun c => c == ' ' || c == ':') value.toList)
  dateFormats.findSome? fun format => strptime U format normalized

example : parseMoney "(Rs. 1,234.50)" = some ⟨true, 123450, -2⟩ := by decide

end InvoiceOps
