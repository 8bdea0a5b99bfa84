/-!
# TOML numbers, dates and times

Whether a run of characters is written like a number, a date or a time.
-/

namespace GoStencil.Toml

/-- Whether the characters are digits of a class, with single underscores between them only. -/
def isDigitRun (isDigit : Char → Bool) : List Char → Bool
  | [] => false
  | [c] => isDigit c
  | c :: '_' :: rest => isDigit c && isDigitRun isDigit rest
  | c :: rest => isDigit c && isDigitRun isDigit rest

/-- The value of some decimal digits, underscores aside. -/
def decimalValue (cs : List Char) : Nat :=
  (cs.filter (· != '_')).foldl (fun value c => 10 * value + (c.toNat - '0'.toNat)) 0

/-- The characters after a sign, with whether it is a minus. -/
def afterSign : List Char → Bool × List Char
  | '+' :: rest => (false, rest)
  | '-' :: rest => (true, rest)
  | cs => (false, cs)

/-- Whether the characters are an unsigned decimal number without a leading zero. -/
def isDecimal : List Char → Bool
  | ['0'] => true
  | '0' :: _ => false
  | cs => isDigitRun Char.isDigit cs

/-- Whether a character is a hexadecimal digit. -/
def isHexDigit (c : Char) : Bool :=
  c.isDigit || ('a' ≤ c && c ≤ 'f') || ('A' ≤ c && c ≤ 'F')

/-- The value of a hexadecimal digit. -/
def hexValue (c : Char) : Nat :=
  if c.isDigit then c.toNat - '0'.toNat
  else if 'a' ≤ c then c.toNat - 'a'.toNat + 10
  else c.toNat - 'A'.toNat + 10

/-- The number written by some hexadecimal digits. -/
def hexNumber (cs : List Char) : Nat :=
  cs.foldl (fun value c => 16 * value + hexValue c) 0

/-- What integers of 64 bits with a sign stay below. -/
def integerBound : Nat :=
  0x8000000000000000

/-- Whether the characters are an integer of at most 64 bits. -/
def isInteger (cs : List Char) : Bool :=
  match cs with
  | '0' :: 'x' :: digits =>
    isDigitRun isHexDigit digits && hexNumber (digits.filter (· != '_')) < integerBound
  | '0' :: 'o' :: digits =>
    isDigitRun (fun c => '0' ≤ c && c ≤ '7') digits &&
      (digits.filter (· != '_')).foldl (fun value c => 8 * value + hexValue c) 0 < integerBound
  | '0' :: 'b' :: digits =>
    isDigitRun (fun c => c == '0' || c == '1') digits &&
      (digits.filter (· != '_')).foldl (fun value c => 2 * value + hexValue c) 0 < integerBound
  | _ =>
    let (negative, digits) := afterSign cs
    isDecimal digits &&
      (if negative then decimalValue digits ≤ integerBound else decimalValue digits < integerBound)

/-- Whether the characters are an exponent with its letter. -/
def isExponent : List Char → Bool
  | c :: rest => (c == 'e' || c == 'E') && isDigitRun Char.isDigit (afterSign rest).2
  | [] => false

/-- Whether a character is the letter of an exponent. -/
def isExponentLetter (c : Char) : Bool :=
  c == 'e' || c == 'E'

/-- Whether the characters are a number with a fraction or an exponent, or one of the special
    numbers. -/
def isFloat (cs : List Char) : Bool :=
  let body := (afterSign cs).2
  let (whole, rest) := body.span fun c => c != '.' && !isExponentLetter c
  body == ['i', 'n', 'f'] || body == ['n', 'a', 'n'] ||
    isDecimal whole &&
      match rest with
      | '.' :: rest =>
        let (fraction, exponent) := rest.span fun c => !isExponentLetter c
        isDigitRun Char.isDigit fraction && (exponent.isEmpty || isExponent exponent)
      | rest => isExponent rest

/-- The number of two digits. -/
def twoDigits? (a b : Char) : Option Nat :=
  if a.isDigit && b.isDigit then some (10 * hexValue a + hexValue b) else none

/-- How many days a month has. -/
def daysIn (year month : Nat) : Nat :=
  if month = 2 then
    if year % 4 = 0 && (year % 100 ≠ 0 || year % 400 = 0) then 29 else 28
  else if month = 4 || month = 6 || month = 9 || month = 11 then 30
  else 31

/-- What follows a date. -/
def afterDate? : List Char → Option (List Char)
  | y₁ :: y₂ :: y₃ :: y₄ :: '-' :: m₁ :: m₂ :: '-' :: d₁ :: d₂ :: rest => do
    let year := 100 * (← twoDigits? y₁ y₂) + (← twoDigits? y₃ y₄)
    let month ← twoDigits? m₁ m₂
    let day ← twoDigits? d₁ d₂
    if 1 ≤ month && month ≤ 12 && 1 ≤ day && day ≤ daysIn year month then some rest else none
  | _ => none

/-- What follows a time of day with its fraction of a second. -/
def afterTime? : List Char → Option (List Char)
  | h₁ :: h₂ :: ':' :: m₁ :: m₂ :: ':' :: s₁ :: s₂ :: rest => do
    let hour ← twoDigits? h₁ h₂
    let minute ← twoDigits? m₁ m₂
    let second ← twoDigits? s₁ s₂
    if hour < 24 && minute < 60 && second ≤ 60 then
      match rest with
      | '.' :: d :: rest => if d.isDigit then some (rest.dropWhile Char.isDigit) else none
      | rest => some rest
    else none
  | _ => none

/-- Whether the characters are an offset from universal time, or none. -/
def isOffset : List Char → Bool
  | [] | ['Z'] | ['z'] => true
  | [sign, h₁, h₂, ':', m₁, m₂] =>
    (sign == '+' || sign == '-') && (twoDigits? h₁ h₂).any (· < 24) &&
      (twoDigits? m₁ m₂).any (· < 60)
  | _ => false

/-- Whether the characters are a date, a time, or both. -/
def isDateTime (cs : List Char) : Bool :=
  match afterDate? cs with
  | some [] => true
  | some (sep :: rest) =>
    (sep == 'T' || sep == 't' || sep == ' ') && (afterTime? rest).any isOffset
  | none => afterTime? cs == some []

end GoStencil.Toml
