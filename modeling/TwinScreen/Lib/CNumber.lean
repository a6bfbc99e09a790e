import TwinScreen.Lib.Rounding

/-!
# TwinScreen.Lib.CNumber

Text as C and C++ read it: `getline` until it fails, `atoi`, `strtoull`, `atof` and `lround`.

What does not end in a finite number, and what `lround` makes of a number beyond `long`,
is for the caller to say.
-/

namespace Lib

/-- `getline` until it fails; a delimiter at the end of the text begins nothing. -/
def getlines (delimiter : Char) : List Char → List (List Char)
  | [] => []
  | c :: cs =>
      if c = delimiter then
        [] :: getlines delimiter cs
      else
        match getlines delimiter cs with
        | [] => [[c]]
        | line :: lines => (c :: line) :: lines

/-- `isspace`. -/
def isSpace (c : Char) : Bool := c ∈ [' ', '\t', '\n', '\x0b', '\x0c', '\r']

/-- A sign, and what follows it. -/
def takeSign : List Char → Int × List Char
  | '-' :: cs => (-1, cs)
  | '+' :: cs => (1, cs)
  | cs => (1, cs)

/-- The value of a digit in bases up to 16. -/
def digitValue (c : Char) : Nat :=
  if c.isDigit then c.toNat - 48 else c.toLower.toNat - 87

/-- A digit of base 10 or 16. -/
def isDigitOf (base : Nat) (c : Char) : Bool :=
  c.isDigit || (base == 16 && 'a' ≤ c.toLower && c.toLower ≤ 'f')

/-- The number that digits are. -/
def digitsValue (base : Nat) (ds : List Char) : Nat :=
  ds.foldl (fun n d => base * n + digitValue d) 0

/-- `atoi`; a number beyond `int` is the last one that is not. -/
def atoi (s : List Char) : Int :=
  let (sign, cs) := takeSign (s.dropWhile isSpace)
  max (-2 ^ 31) (min (sign * digitsValue 10 (cs.takeWhile (isDigitOf 10))) (2 ^ 31 - 1))

/-- `strtoull` with base 0; a number beyond 64 bits is the last one that is not. -/
def strtoull (s : List Char) : UInt64 :=
  let (sign, cs) := takeSign (s.dropWhile isSpace)
  let n := match cs with
    | '0' :: x :: ds =>
        if x.toLower == 'x' && !(ds.takeWhile (isDigitOf 16)).isEmpty then
          digitsValue 16 (ds.takeWhile (isDigitOf 16))
        else digitsValue 8 ((x :: ds).takeWhile fun c => c.isDigit && digitValue c < 8)
    | ds => digitsValue 10 (ds.takeWhile (isDigitOf 10))
  if UInt64.size ≤ n then UInt64.ofNat (UInt64.size - 1)
  else if sign = -1 then -UInt64.ofNat n
  else UInt64.ofNat n

example : strtoull ['0', 'x', '1', 'F', 'g'] = 31 := by decide
example : strtoull [' ', '-', '0', '1', '7', '8'] = -15 := by decide

/-! ## `atof` -/

/-- The exponent behind one of these letters; without digits there is none. -/
def takeExponent (letters : List Char) : List Char → Int
  | [] => 0
  | c :: cs =>
      if c ∈ letters then
        let (sign, ds) := takeSign cs
        sign * digitsValue 10 (ds.takeWhile (isDigitOf 10))
      else 0

/-- Digits with a point somewhere, and an exponent to a base; without digits it is 0. -/
def takeNumber (base expBase : Nat) (letters : List Char) (cs : List Char) : ℚ :=
  let whole := cs.takeWhile (isDigitOf base)
  let rest := cs.dropWhile (isDigitOf base)
  let (fraction, rest) := match rest with
    | '.' :: r => (r.takeWhile (isDigitOf base), r.dropWhile (isDigitOf base))
    | r => ([], r)
  if whole ++ fraction = [] then 0
  else
    digitsValue base (whole ++ fraction) / base ^ fraction.length *
      (expBase : ℚ) ^ takeExponent letters rest

/-- Hexadecimal digits follow, perhaps behind a point. -/
def startsHex : List Char → Bool
  | '.' :: c :: _ => isDigitOf 16 c
  | c :: _ => isDigitOf 16 c
  | [] => false

/-- The number at the front of an unsigned text; `none` for an infinity or not a number. -/
def unsignedNumber (cs : List Char) : Option ℚ :=
  let low := cs.map Char.toLower
  if low.take 3 = ['i', 'n', 'f'] ∨ low.take 3 = ['n', 'a', 'n'] then none
  else if low.take 2 = ['0', 'x'] ∧ startsHex (cs.drop 2) then
    some (takeNumber 16 2 ['p', 'P'] (cs.drop 2))
  else some (takeNumber 10 10 ['e', 'E'] cs)

/-- `atof`; `none` unless the `double` is finite. -/
def atof (s : List Char) : Option ℚ :=
  let (sign, cs) := takeSign (s.dropWhile isSpace)
  (unsignedNumber cs).bind fun v => toDouble (sign * v)

example : atof [' ', '5', '9', '.', '5', 'e', '0', 'x'] = some (119 / 2) := by decide +kernel
example : atof ['-', '0', 'x', '1', '.', '8', 'p', '1'] = some (-3) := by decide +kernel

/-! ## `lround` -/

/-- `lround` into a `long` of 32 bits; `beyond` is its result for what does not fit. -/
def lround (beyond : Option ℚ → Int32) : Option ℚ → Int
  | some v =>
      if -2 ^ 31 ≤ roundAway v ∧ roundAway v < 2 ^ 31 then roundAway v else (beyond (some v)).toInt
  | none => (beyond none).toInt

theorem lround_bounds (beyond : Option ℚ → Int32) (v : Option ℚ) :
    -2 ^ 31 ≤ lround beyond v ∧ lround beyond v < 2 ^ 31 := by
  have hbounds (x : Int32) : -2 ^ 31 ≤ x.toInt ∧ x.toInt < 2 ^ 31 := ⟨x.le_toInt, x.toInt_lt⟩
  cases v with
  | none => exact hbounds _
  | some v =>
      rw [lround]
      split
      · assumption
      · exact hbounds _

theorem atoi_bounds (s : List Char) : -2 ^ 31 ≤ atoi s ∧ atoi s < 2 ^ 31 := by
  rw [atoi]
  generalize takeSign (s.dropWhile isSpace) = r
  dsimp only
  omega

end Lib
