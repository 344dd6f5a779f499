import SignatureContext.Numeral.Integer

/-! Reading floating-point numbers from decimals. -/
namespace SignatureContext.Numeral.Decimal

/-- The number `digits * 10 ^ power`, rounded to the nearest. Beyond the range of finite numbers on
either side the digits do not matter. -/
def round (digits : List Nat) (power : Int) : Float :=
  let n := Integer.ofDigits 10 digits
  let top := power + digits.length
  if n = 0 ∨ top < -400 then 0
  else if 400 < top - (digits.takeWhile (· = 0)).length then 1 / 0
  else if 0 ≤ power then Float.ofScientific n false power.toNat
  else Float.ofScientific n true (-power).toNat

/-- The digits at the start of a text, and what follows them. -/
def spanDigits (cs : List Char) : List Nat × List Char :=
  ((cs.takeWhile Char.isDigit).map fun c => c.toNat - 48, cs.dropWhile Char.isDigit)

/-- The power of ten that a text names with `e`, or zero if it is empty. -/
def power? : List Char → Option Int
  | [] => some 0
  | c :: cs =>
    if c = 'e' ∨ c = 'E' then
      let (negative, cs) := Integer.sign cs
      match spanDigits cs with
      | ([], _) => none
      | (ds, []) =>
        let n : Int := Integer.ofDigits 10 ds
        some (if negative then -n else n)
      | _ => none
    else none

/-- An unsigned number: digits with a point among them or at either end, and a power of ten; or
infinity, or no number. -/
def unsigned? (cs : List Char) : Option Float :=
  let word := String.ofList (cs.map Char.toLower)
  if word = "inf" ∨ word = "infinity" then some (1 / 0)
  else if word = "nan" then some (0 / 0)
  else
    let (front, rest) := spanDigits cs
    let (back, rest) := match rest with
      | '.' :: rest => spanDigits rest
      | rest => ([], rest)
    if front.isEmpty && back.isEmpty then none
    else (power? rest).map fun power => round (front ++ back) (power - back.length)

/-- The number that a text holds between blanks. -/
def read? (text : String) : Option Float :=
  let (negative, body) := Integer.sign (Text.trimBy Integer.isSpace (text.toList.map Integer.plain))
  (unsigned? body).map fun x => if negative then -x else x

end SignatureContext.Numeral.Decimal
