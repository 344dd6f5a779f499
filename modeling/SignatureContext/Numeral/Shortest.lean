/-! The shortest decimal digits that read back as a given floating-point number. -/
namespace SignatureContext.Numeral

/-- A finite positive number is `mantissa * 2 ^ (exponent - 1075)`. -/
structure Binary where
  mantissa : Nat
  exponent : Nat
deriving Repr, DecidableEq

/-- A floating-point number by its parts. -/
inductive Parts
  | notANumber
  | infinite (negative : Bool)
  | finite (negative : Bool) (size : Binary)
deriving Repr, DecidableEq

/-- The parts that the sixty-four bits of a number encode. -/
def Parts.ofFloat (x : Float) : Parts :=
  let bits := x.toBits.toNat
  let negative := bits / Nat.pow 2 63 == 1
  let exponent := bits / Nat.pow 2 52 % Nat.pow 2 11
  let fraction := bits % Nat.pow 2 52
  if exponent = Nat.pow 2 11 - 1 then
    if fraction = 0 then .infinite negative else .notANumber
  else if exponent = 0 then .finite negative ⟨fraction, 1⟩
  else .finite negative ⟨Nat.pow 2 52 + fraction, exponent⟩

namespace Binary

/-- Numerator and denominator of the number. -/
def ratio (b : Binary) : Nat × Nat :=
  if 1075 ≤ b.exponent then (b.mantissa * Nat.pow 2 (b.exponent - 1075), 1)
  else (b.mantissa, Nat.pow 2 (1075 - b.exponent))

/-- The integer part of the number and whether nothing is left of it. -/
def whole (b : Binary) : Nat × Bool :=
  let (num, den) := b.ratio
  (num / den, num % den == 0)

/-- Whether `digits * 10 ^ power` reads back as this number. -/
def readsBack (b : Binary) (digits : Nat) (power : Int) : Bool :=
  let x := if 0 ≤ power then Float.ofScientific digits false power.toNat
    else Float.ofScientific digits true (-power).toNat
  Parts.ofFloat x == .finite false b

/-- The power of ten just above the number: `10 ^ (p - 1) ≤ b < 10 ^ p`. -/
def magnitude (b : Binary) : Int :=
  let (num, den) := b.ratio
  if den ≤ num then (Nat.toDigits 10 (num / den)).length
  else
    let up := (Nat.toDigits 10 (den / num)).length
    if den ≤ num * Nat.pow 10 (up - 1) then 2 - (up : Int) else 1 - (up : Int)

/-- The number's neighbours among the multiples of `10 ^ power`, the nearer one first and of two
equally near ones the even one. -/
def neighbours (b : Binary) (power : Int) : List Nat :=
  let (num, den) := b.ratio
  let num := if 0 ≤ power then num else num * Nat.pow 10 (-power).toNat
  let den := if 0 ≤ power then den * Nat.pow 10 power.toNat else den
  let low := num / den
  let twice := 2 * (num % den)
  if twice < den ∨ (twice = den ∧ low % 2 = 0) then [low, low + 1] else [low + 1, low]

/-- The fewest digits, at most `count + used`, whose decimal reads back as the number, and the
power of ten of the last digit. -/
def search (b : Binary) (top : Int) : (count used : Nat) → Nat × Int
  | 0, used => ((b.neighbours (top - used)).headD 0, top - used)
  | count + 1, used =>
    let power := top - (used + 1 : Nat)
    match (b.neighbours power).find? (b.readsBack · power) with
    | some digits => (digits, power)
    | none => search b top count (used + 1)

/-- The digits of the shortest decimal that reads back, without trailing zeros, and the power of
ten just above the number they stand for. -/
def shortest (b : Binary) : List Char × Int :=
  let (digits, power) := b.search b.magnitude 17 0
  let cs := Nat.toDigits 10 digits
  ((cs.reverse.dropWhile (· == '0')).reverse, power + cs.length)

end Binary

/-- The decimal form of a number: positional from `10 ^ -4` up to `10 ^ 16`, otherwise with an
exponent of at least two digits. -/
def render (x : Float) : String :=
  let sign (negative : Bool) : List Char := if negative then ['-'] else []
  match Parts.ofFloat x with
  | .notANumber => "nan"
  | .infinite negative => String.ofList (sign negative ++ "inf".toList)
  | .finite negative ⟨0, _⟩ => String.ofList (sign negative ++ "0.0".toList)
  | .finite negative b =>
    let (digits, point) := b.shortest
    let body :=
      if point < -3 ∨ 16 < point then
        let power := point - 1
        let shown := Nat.toDigits 10 power.natAbs
        let mantissa := match digits with
          | [] => []
          | [d] => [d]
          | d :: ds => d :: '.' :: ds
        mantissa ++ 'e' :: (if power < 0 then '-' else '+') ::
          (List.replicate (2 - shown.length) '0' ++ shown)
      else if point ≤ 0 then
        '0' :: '.' :: (List.replicate (-point).toNat '0' ++ digits)
      else
        let n := point.toNat
        let front := digits.take n ++ List.replicate (n - digits.length) '0'
        let back := digits.drop n
        front ++ '.' :: (if back.isEmpty then ['0'] else back)
    String.ofList (sign negative ++ body)

end SignatureContext.Numeral
