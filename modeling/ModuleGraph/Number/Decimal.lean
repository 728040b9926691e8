/-! Decimal numbers as they are kept. A decimal is rounded to the nearest number with a
significand of 53 bits, and written with the fewest digits that round to the same number. -/

namespace ModuleGraph.Decimal

/-- The positive number `significand * 2 ^ exponent`. -/
structure Binary where
  significand : Nat
  exponent : Int
  deriving DecidableEq, Repr

def fractionBits : Nat := 52

def leastFull : Nat := 1 <<< fractionBits

def leastExponent : Int := -1074

def greatestExponent : Int := 971

/-- The integer nearest to `n / d`, the even one of two that are equally near. -/
def roundedQuotient (n d : Nat) : Nat :=
  let q := n / d
  let r := n % d
  if 2 * r < d || (2 * r = d && q % 2 = 0) then q else q + 1

def scaled (base n d : Nat) (e : Int) : Nat × Nat :=
  if 0 ≤ e then (n * Nat.pow base e.toNat, d) else (n, d * Nat.pow base (-e).toNat)

/-- The exponent that gives the number nearest to `n / d` its full precision, if there is
one. -/
def exponentFor (n d : Nat) : Int :=
  let guess : Int := Int.ofNat n.log2 - Int.ofNat d.log2 - Int.ofNat fractionBits
  let (top, bottom) := scaled 2 n d (-guess)
  let exact := if top < bottom * leastFull then guess - 1 else guess
  max exact leastExponent

def nearest (n d : Nat) : Binary :=
  let e := exponentFor n d
  let (top, bottom) := scaled 2 n d (-e)
  let significand := roundedQuotient top bottom
  if significand = 2 * leastFull then ⟨leastFull, e + 1⟩ else ⟨significand, e⟩

/-- The numbers of quarter units of the last bit from zero to the ends of the interval that
rounds to `b`, with `b` itself between them. The lower end is nearer where the exponent
changes. -/
def Binary.bounds (b : Binary) : Nat × Nat × Nat :=
  let m := 4 * b.significand
  let isEdge := b.significand = leastFull && leastExponent < b.exponent
  (if isEdge then m - 1 else m - 2, m, m + 2)

def firstPower (n d : Nat) : Int :=
  if d ≤ n then Int.ofNat (Nat.toDigits 10 (n / d)).length - 1
  else
    let k := (Nat.toDigits 10 (d / n)).length - 1
    if d ≤ n * Nat.pow 10 k then -Int.ofNat k else -Int.ofNat k - 1

/-- The decimal `c * 10 ^ power` that rounds to `b` and is nearest to it, if one of its two
neighbours on that grid does. -/
def Binary.onGrid? (b : Binary) (power : Int) : Option Nat :=
  let (low, middle, high) := b.bounds
  let ratio (quarters : Nat) : Nat × Nat :=
    let (n, d) := scaled 2 quarters 4 b.exponent
    scaled 10 n d (-power)
  let isEven := b.significand % 2 = 0
  let above (c : Nat) : Bool :=
    let (n, d) := ratio low
    if isEven then n ≤ c * d else n < c * d
  let below (c : Nat) : Bool :=
    let (n, d) := ratio high
    if isEven then c * d ≤ n else c * d < n
  let (n, d) := ratio middle
  let c := n / d
  let fits (c : Nat) : Bool := 0 < c && above c && below c
  match fits c, fits (c + 1) with
  | true, true => some (roundedQuotient n d)
  | true, false => some c
  | false, true => some (c + 1)
  | false, false => none

/-- The fewest digits that round to `b`, as an integer and a power of ten. -/
def Binary.shortest (b : Binary) : Nat × Int :=
  let (n, d) := scaled 2 b.significand 1 b.exponent
  let first := firstPower n d
  let found := (List.range 17).findSome? fun (k : Nat) =>
    let power := first - Int.ofNat k
    (b.onGrid? power).map (·, power)
  found.getD (b.significand, b.exponent)

def exponentText (e : Int) : String :=
  let digits := toString e.natAbs
  let padded := if e.natAbs < 10 then "0" ++ digits else digits
  (if e < 0 then "-" else "+") ++ padded

/-- The digits `ds`, the first of which counts `10 ^ first`. Numbers from a ten-thousandth up
to ten quadrillions are written without an exponent, and never without a point. -/
def layout (ds : List Char) (first : Int) : String :=
  let zeros (n : Nat) : List Char := List.replicate n '0'
  if -4 ≤ first ∧ first < 0 then
    String.ofList (['0', '.'] ++ zeros ((-first).toNat - 1) ++ ds)
  else if 0 ≤ first ∧ first < 16 then
    let whole := first.toNat + 1
    let front := ds.take whole
    let back := ds.drop whole
    String.ofList (front ++ zeros (whole - front.length) ++ ['.'] ++
      if back.isEmpty then ['0'] else back)
  else
    let fraction := if ds.length ≤ 1 then [] else '.' :: ds.drop 1
    String.ofList (ds.take 1 ++ fraction ++ ['e']) ++ exponentText first

def Binary.text (b : Binary) : String :=
  if greatestExponent < b.exponent then "Infinity"
  else
    let (c, power) := b.shortest
    let all := Nat.toDigits 10 c
    let ds := (all.reverse.dropWhile (· = '0')).reverse
    layout ds (power + Int.ofNat all.length - 1)

/-- The text of `digits * 10 ^ power`, which may be rounded to zero or to infinity. -/
def text (digits : Nat) (power : Int) : String :=
  let first := power + Int.ofNat (Nat.toDigits 10 digits).length
  if digits = 0 || first < -400 then "0.0"
  else if 400 < first then "Infinity"
  else
    let (n, d) := scaled 10 digits 1 power
    let b := nearest n d
    if b.significand = 0 then "0.0" else b.text

def digitsValue (cs : List Char) : Nat :=
  cs.foldl (fun n c => n * 10 + (c.toNat - '0'.toNat)) 0

def ofParts (isNegative : Bool) (whole fraction : List Char) (exponent : Int) : String :=
  let unsigned := text (digitsValue (whole ++ fraction)) (exponent - Int.ofNat fraction.length)
  if isNegative then "-" ++ unsigned else unsigned

end ModuleGraph.Decimal
