import Scribe.Toml.Value

/-!
TOML numbers, date-times and words. All of them are runs of a few characters, so a scalar is first cut
out of the text and then recognised as a whole.
-/

namespace Scribe.Toml

def isScalarChar (c : Char) : Bool :=
  c.isAlphanum || c = '_' || c = '+' || c = '-' || c = '.' || c = ':'

def digitValue? (base : Nat) (c : Char) : Option Nat :=
  let value? :=
    if c.isDigit then some (c.toNat - '0'.toNat)
    else if 'a' ≤ c ∧ c ≤ 'f' then some (c.toNat - 'a'.toNat + 10)
    else if 'A' ≤ c ∧ c ≤ 'F' then some (c.toNat - 'A'.toNat + 10)
    else none
  value?.filter (· < base)

/-- The digits at the start of a text, single underscores between them left out, and what follows. An
underscore that no digit follows makes the text no number. -/
def digitRun? (base : Nat) : List Char → Option (List Nat × List Char)
  | [] => some ([], [])
  | c :: rest =>
    match digitValue? base c with
    | none => some ([], c :: rest)
    | some digit =>
      match rest with
      | '_' :: rest =>
        match digitRun? base rest with
        | some (next :: digits, rest) => some (digit :: next :: digits, rest)
        | _ => none
      | rest => (digitRun? base rest).map fun (digits, rest) => (digit :: digits, rest)

/-- Digits, one at least. -/
def someDigits? (base : Nat) (text : List Char) : Option (List Nat × List Char) :=
  (digitRun? base text).filter fun (digits, _) => !digits.isEmpty

def ofDigits (base : Nat) (digits : List Nat) : Nat :=
  digits.foldl (fun value digit => base * value + digit) 0

/-- Decimal digits without a leading zero, except for zero itself. -/
def wholeDigits? : List Char → Option (List Nat × List Char)
  | '0' :: rest => some ([0], rest)
  | text => someDigits? 10 text

def sign : List Char → Bool × List Char
  | '-' :: rest => (true, rest)
  | '+' :: rest => (false, rest)
  | text => (false, text)

/-- Integers are 64 bits wide and signed. -/
def integerOf? (negative : Bool) (magnitude : Nat) : Option Value :=
  if negative then if magnitude ≤ 1 <<< 63 then some (.integer (-magnitude)) else none
  else if magnitude < 1 <<< 63 then some (.integer magnitude) else none

def basedInteger? (base : Nat) (text : List Char) : Option Value :=
  match someDigits? base text with
  | some (digits, []) => integerOf? false (ofDigits base digits)
  | _ => none

def integer? : List Char → Option Value
  | '0' :: 'x' :: rest => basedInteger? 16 rest
  | '0' :: 'o' :: rest => basedInteger? 8 rest
  | '0' :: 'b' :: rest => basedInteger? 2 rest
  | text =>
    let (negative, text) := sign text
    match wholeDigits? text with
    | some (digits, []) => integerOf? negative (ofDigits 10 digits)
    | _ => none

/-- The digits after a point, and what follows them. -/
def fraction? : List Char → Option (List Nat × List Char)
  | '.' :: rest => someDigits? 10 rest
  | _ => none

/-- The power of ten after an `e`, and what follows it. -/
def exponent? : List Char → Option (Int × List Char)
  | [] => none
  | c :: rest =>
    if c = 'e' ∨ c = 'E' then do
      let (negative, rest) := sign rest
      let (digits, rest) ← someDigits? 10 rest
      let magnitude : Int := ofDigits 10 digits
      return (if negative then -magnitude else magnitude, rest)
    else none

/-- Whether `digits · 10 ^ power` is too large for a double, that is, at least halfway from the
largest double to the next power of two. Far from the bound the number of digits decides. -/
def exceedsDouble (digits : List Nat) (power : Int) : Bool :=
  let significant := digits.dropWhile (· = 0)
  let bound := 1 <<< 1024 - 1 <<< 970
  let size := significant.length + power
  if significant = [] ∨ size < 300 then false
  else if size > 320 then true
  else
    let value := ofDigits 10 significant
    if 0 ≤ power then bound ≤ value * Nat.pow 10 power.toNat
    else bound * Nat.pow 10 (-power).toNat ≤ value

/-- The digits and the power of ten of a decimal fraction. -/
def decimal? (text : List Char) : Option (List Nat × Int) := do
  let (whole, rest) ← wholeDigits? text
  match exponent? rest with
  | some (power, []) => some (whole, power)
  | some _ => none
  | none =>
    let (places, rest) ← fraction? rest
    let digits := whole ++ places
    match rest with
    | [] => some (digits, -(places.length : Int))
    | rest =>
      match exponent? rest with
      | some (power, []) => some (digits, power - places.length)
      | _ => none

/-- A float is finite unless it says otherwise, but a negative one may be too large. -/
def float? (text : List Char) : Option Value :=
  let (negative, magnitude) := sign text
  if magnitude = ['i', 'n', 'f'] ∨ magnitude = ['n', 'a', 'n'] then some (.float (.ofList text))
  else
    match decimal? magnitude with
    | none => none
    | some (digits, power) =>
      if !negative && exceedsDouble digits power then none else some (.float (.ofList text))

/-- Two digits with a value in a range, and what follows them. -/
def twoDigits? (low high : Nat) : List Char → Option (Nat × List Char)
  | a :: b :: rest =>
    if a.isDigit && b.isDigit then
      let value := Nat.ofDigitChars 10 [a, b] 0
      if low ≤ value ∧ value ≤ high then some (value, rest) else none
    else none
  | _ => none

def expect? (mark : Char) : List Char → Option (List Char)
  | [] => none
  | c :: rest => if c = mark then some rest else none

def daysInMonth (year month : Nat) : Nat :=
  if month = 2 then if (year % 4 = 0 ∧ year % 100 ≠ 0) ∨ year % 400 = 0 then 29 else 28
  else if month = 4 ∨ month = 6 ∨ month = 9 ∨ month = 11 then 30
  else 31

/-- What follows a date. -/
def afterDate? : List Char → Option (List Char)
  | a :: b :: c :: d :: rest =>
    if [a, b, c, d].all Char.isDigit then do
      let year := Nat.ofDigitChars 10 [a, b, c, d] 0
      let rest ← expect? '-' rest
      let (month, rest) ← twoDigits? 1 12 rest
      let rest ← expect? '-' rest
      let (_, rest) ← twoDigits? 1 (daysInMonth year month) rest
      return rest
    else none
  | _ => none

/-- What follows a time of day. -/
def afterTime? (text : List Char) : Option (List Char) := do
  let (_, rest) ← twoDigits? 0 23 text
  let rest ← expect? ':' rest
  let (_, rest) ← twoDigits? 0 59 rest
  let rest ← expect? ':' rest
  let (_, rest) ← twoDigits? 0 60 rest
  match rest with
  | '.' :: c :: rest => if c.isDigit then some (rest.dropWhile Char.isDigit) else none
  | ['.'] => none
  | rest => some rest

/-- What follows the distance from universal time, which may be left out. -/
def afterOffset? : List Char → Option (List Char)
  | [] => some []
  | c :: rest =>
    if c = 'Z' ∨ c = 'z' then some rest
    else if c = '+' ∨ c = '-' then do
      let (_, rest) ← twoDigits? 0 23 rest
      let rest ← expect? ':' rest
      let (_, rest) ← twoDigits? 0 59 rest
      return rest
    else some (c :: rest)

def isDateTime (text : List Char) : Bool :=
  match afterDate? text with
  | some [] => true
  | some (c :: rest) =>
    (c = 'T' || c = 't' || c = ' ') && (afterTime? rest >>= afterOffset?) == some []
  | none => afterTime? text == some []

def scalarOf? (text : List Char) : Option Value :=
  if text = ['t', 'r', 'u', 'e'] then some (.boolean true)
  else if text = ['f', 'a', 'l', 's', 'e'] then some (.boolean false)
  else if isDateTime text then some (.dateTime (.ofList text))
  else (float? text).or (integer? text)

/-- Cuts a scalar off a text. A date may be followed by a blank and a time. -/
def scalar? (text : List Char) : Option (Value × List Char) :=
  let word := text.takeWhile isScalarChar
  let rest := text.dropWhile isScalarChar
  match afterDate? word, rest with
  | some [], ' ' :: c :: more =>
    if c.isDigit then
      let time := (c :: more).takeWhile isScalarChar
      (scalarOf? (word ++ ' ' :: time)).map (·, (c :: more).dropWhile isScalarChar)
    else (scalarOf? word).map (·, rest)
  | _, _ => (scalarOf? word).map (·, rest)

end Scribe.Toml
