import SignedDirectory.Bytes
import SignedDirectory.Decimal
import SignedDirectory.Toml.Value

/-!
# TOML strings, numbers and times

The readers of the four forms of strings, and of everything that is written without quotes: words,
integers in four bases, floating-point numbers, dates and times.
-/

namespace SignedDirectory.Toml

def isBlank (ch : Char) : Bool := ch = ' ' || ch = '\t'

/-- A character that may stand in a line as it is: a tab, or no control character. -/
def isPlain (ch : Char) : Bool := ch = '\t' || (0x20 ≤ ch.toNat && ch.toNat ≠ 0x7F)

def skipBlanks : List Char → List Char := List.dropWhile isBlank

/-! ## Strings -/

/-- The character of a code point, if the digits give one. -/
def codePoint? (digits : List Char) : Option Char := do
  let code ← Bytes.ofHexDigits? digits
  if code.isValidChar then some (Char.ofNat code) else none

def escape? : Char → Option Char
  | 'b' => some '\x08'
  | 't' => some '\t'
  | 'n' => some '\n'
  | 'f' => some '\x0c'
  | 'r' => some '\r'
  | '"' => some '"'
  | '\\' => some '\\'
  | _ => none

def consChar (ch : Char) (found : Option (List Char × List Char)) :
    Option (List Char × List Char) :=
  found.map fun (chars, rest) => (ch :: chars, rest)

/-- A string on one line with escapes, after its opening quote: its characters, and what follows
its closing quote. -/
def readBasic : List Char → Option (List Char × List Char)
  | [] => none
  | '"' :: rest => some ([], rest)
  | '\\' :: 'u' :: a :: b :: c :: d :: rest => do
    consChar (← codePoint? [a, b, c, d]) (readBasic rest)
  | '\\' :: 'U' :: a :: b :: c :: d :: e :: f :: g :: h :: rest => do
    consChar (← codePoint? [a, b, c, d, e, f, g, h]) (readBasic rest)
  | '\\' :: ch :: rest => do consChar (← escape? ch) (readBasic rest)
  | ch :: rest => if isPlain ch then consChar ch (readBasic rest) else none

def readLiteral : List Char → Option (List Char × List Char)
  | [] => none
  | '\'' :: rest => some ([], rest)
  | ch :: rest => if isPlain ch then consChar ch (readLiteral rest) else none

/-- Whether nothing but blanks stands before the end of the line. -/
def endsLine (chars : List Char) : Bool :=
  match skipBlanks chars with
  | '\n' :: _ => true
  | '\r' :: '\n' :: _ => true
  | _ => false

/-- A string over several lines with escapes, after its opening quotes. Of three to five quotes the
last three close it. Every line end counts as a line feed. A backslash at the end of a line, perhaps
before blanks, takes out all blanks and line ends up to the next character; `isTrimming` holds while
that goes on. -/
def readLongBasic (isTrimming : Bool) : List Char → Option (List Char × List Char)
  | [] => none
  | '"' :: '"' :: '"' :: '"' :: '"' :: rest => some (['"', '"'], rest)
  | '"' :: '"' :: '"' :: '"' :: rest => some (['"'], rest)
  | '"' :: '"' :: '"' :: rest => some ([], rest)
  | '\\' :: 'u' :: a :: b :: c :: d :: rest => do
    consChar (← codePoint? [a, b, c, d]) (readLongBasic false rest)
  | '\\' :: 'U' :: a :: b :: c :: d :: e :: f :: g :: h :: rest => do
    consChar (← codePoint? [a, b, c, d, e, f, g, h]) (readLongBasic false rest)
  | '\\' :: ch :: rest =>
    if isBlank ch ∨ ch = '\n' ∨ ch = '\r' then
      if endsLine (ch :: rest) then readLongBasic true rest else none
    else do consChar (← escape? ch) (readLongBasic false rest)
  | '\r' :: '\n' :: rest =>
    if isTrimming then readLongBasic true rest else consChar '\n' (readLongBasic false rest)
  | ch :: rest =>
    if isTrimming ∧ (isBlank ch ∨ ch = '\n') then readLongBasic true rest
    else if isPlain ch ∨ ch = '\n' then consChar ch (readLongBasic false rest)
    else none

/-- A string over several lines without escapes, after its opening quotes. -/
def readLongLiteral : List Char → Option (List Char × List Char)
  | [] => none
  | '\'' :: '\'' :: '\'' :: '\'' :: '\'' :: rest => some (['\'', '\''], rest)
  | '\'' :: '\'' :: '\'' :: '\'' :: rest => some (['\''], rest)
  | '\'' :: '\'' :: '\'' :: rest => some ([], rest)
  | '\r' :: '\n' :: rest => consChar '\n' (readLongLiteral rest)
  | ch :: rest => if isPlain ch ∨ ch = '\n' then consChar ch (readLongLiteral rest) else none

def skipLineEnd : List Char → List Char
  | '\n' :: rest => rest
  | '\r' :: '\n' :: rest => rest
  | chars => chars

/-! ## Numbers -/

/-- The digits of a number in some base: single underscores may stand between two digits. -/
def digits? (isDigit : Char → Bool) (chars : List Char) : Option (List Char) :=
  let groups := chars.splitOn '_'
  if groups.all fun g => !g.isEmpty && g.all isDigit then some groups.flatten else none

def valueIn (base : Nat) (digits : List Char) : Nat :=
  digits.foldl (fun n ch => base * n + (Bytes.hexValue? ch).getD 0) 0

def splitSign : List Char → Bool × List Char
  | '-' :: rest => (true, rest)
  | '+' :: rest => (false, rest)
  | chars => (false, chars)

/-- The digits of a decimal integer, which has no zero in front of other digits. -/
def decimal? (chars : List Char) : Option (List Char) :=
  match chars with
  | '0' :: _ :: _ => none
  | _ => digits? Decimal.isDigit chars

/-- A number without sign in base 2, 8 or 16. -/
def based? : List Char → Option Nat
  | '0' :: 'x' :: rest => (digits? (fun ch => (Bytes.hexValue? ch).isSome) rest).map (valueIn 16)
  | '0' :: 'o' :: rest => (digits? (fun ch => '0' ≤ ch && ch ≤ '7') rest).map (valueIn 8)
  | '0' :: 'b' :: rest => (digits? (fun ch => ch = '0' || ch = '1') rest).map (valueIn 2)
  | _ => none

def integer? (chars : List Char) : Option Int := do
  let n ← match based? chars with
    | some n => some (Int.ofNat n)
    | none => do
      let (isNegative, body) := splitSign chars
      let n := Int.ofNat (Decimal.ofDigits (← decimal? body))
      some (if isNegative then -n else n)
  if -0x8000000000000000 ≤ n ∧ n < 0x8000000000000000 then some n else none

/-- Whether a text is a floating-point number. One that is too large is none, unless it is
negative. -/
def isReal (chars : List Char) : Bool :=
  let (isNegative, body) := splitSign chars
  if body = "inf".toList ∨ body = "nan".toList then true
  else
    let (mantissa, exponentPart) := body.span fun ch => ch ≠ 'e' && ch ≠ 'E'
    let (whole, fractionPart) := mantissa.span (· ≠ '.')
    let fraction? := match fractionPart with
      | [] => some []
      | _ :: digits => digits? Decimal.isDigit digits
    let exponent? : Option Int := match exponentPart with
      | [] => some 0
      | _ :: rest =>
        let (isBelowZero, digits) := splitSign rest
        (digits? Decimal.isDigit digits).map fun ds =>
          if isBelowZero then -(Int.ofNat (Decimal.ofDigits ds)) else Decimal.ofDigits ds
    match decimal? whole, fraction?, exponent? with
    | some whole, some fraction, some exponent =>
      (fractionPart ≠ [] || exponentPart ≠ []) &&
        (isNegative ||
          !Decimal.overflows (Decimal.ofDigits (whole ++ fraction)) (exponent - fraction.length))
    | _, _, _ => false

/-! ## Dates and times -/

def twoDigits? : List Char → Option (Nat × List Char)
  | a :: b :: rest => do return (10 * (← Decimal.digit? a) + (← Decimal.digit? b), rest)
  | _ => none

def exactly? (ch : Char) : List Char → Option (List Char)
  | ch' :: rest => if ch' = ch then some rest else none
  | [] => none

def isLeapYear (year : Nat) : Bool := year % 4 = 0 && (year % 100 ≠ 0 || year % 400 = 0)

def daysIn (year month : Nat) : Nat :=
  if month = 2 then (if isLeapYear year then 29 else 28)
  else if month = 4 ∨ month = 6 ∨ month = 9 ∨ month = 11 then 30
  else 31

def afterDate? (chars : List Char) : Option (List Char) := do
  let (century, rest) ← twoDigits? chars
  let (year, rest) ← twoDigits? rest
  let (month, rest) ← twoDigits? (← exactly? '-' rest)
  let (day, rest) ← twoDigits? (← exactly? '-' rest)
  if 1 ≤ month ∧ month ≤ 12 ∧ 1 ≤ day ∧ day ≤ daysIn (100 * century + year) month then some rest
  else none

def afterMinutes? (chars : List Char) : Option (List Char) := do
  let (hour, rest) ← twoDigits? chars
  let (minute, rest) ← twoDigits? (← exactly? ':' rest)
  if hour ≤ 23 ∧ minute ≤ 59 then some rest else none

/-- The text after a time of day, which may have a fraction of a second and a leap second. -/
def afterTime? (chars : List Char) : Option (List Char) := do
  let (second, rest) ← twoDigits? (← exactly? ':' (← afterMinutes? chars))
  if 60 < second then none
  match rest with
  | '.' :: rest =>
    if rest.takeWhile Decimal.isDigit = [] then none else some (rest.dropWhile Decimal.isDigit)
  | rest => some rest

/-- Whether a text is the offset of a time from universal time, or empty. -/
def isOffset : List Char → Bool
  | [] => true
  | ['Z'] => true
  | ['z'] => true
  | '+' :: rest => afterMinutes? rest = some []
  | '-' :: rest => afterMinutes? rest = some []
  | _ => false

def isMoment (chars : List Char) : Bool :=
  match afterDate? chars with
  | some [] => true
  | some (ch :: rest) =>
    (ch = 'T' || ch = 't' || ch = ' ') && ((afterTime? rest).map isOffset).getD false
  | none => afterTime? chars = some []

/-! ## Values without quotes -/

def isBareChar (ch : Char) : Bool :=
  ch.isAlphanum || ch = '_' || ch = '-' || ch = '+' || ch = '.' || ch = ':'

/-- A value without quotes at the front of a text, and what follows it. A single space may part a
date from a time. -/
def splitBare (chars : List Char) : List Char × List Char :=
  let bare := chars.takeWhile isBareChar
  match chars.dropWhile isBareChar with
  | ' ' :: ch :: rest =>
    if afterDate? bare = some [] ∧ Decimal.isDigit ch then
      (bare ++ ' ' :: (ch :: rest).takeWhile isBareChar, (ch :: rest).dropWhile isBareChar)
    else (bare, ' ' :: ch :: rest)
  | rest => (bare, rest)

def bareValue? (chars : List Char) : Option Value :=
  if chars = "true".toList then some (.bool true)
  else if chars = "false".toList then some (.bool false)
  else if isMoment chars then some .moment
  else if isReal chars then some .real
  else (integer? chars).map .integer

end SignedDirectory.Toml
