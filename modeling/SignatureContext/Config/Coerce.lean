import SignatureContext.Value
import SignatureContext.Text.Character
import SignatureContext.Text.Utf8
import SignatureContext.Numeral.Integer

/-! Reading switches and integers from values of other types, where nothing is lost. -/
namespace SignatureContext.Coerce

/-- Why a value is not what a setting takes. -/
inductive Mismatch
  | notSection
  | notBool
  | noBoolSpelling
  | notInt
  | noIntSpelling
  /-- An integer too large to be read from its digits or from a number with a fraction. -/
  | intTooLarge
  | fractional
  | notFinite
  | negative
deriving Repr, DecidableEq

/-- The name of the mismatch in reports. -/
def Mismatch.code : Mismatch → String
  | notSection => "model_type"
  | notBool => "bool_type"
  | noBoolSpelling => "bool_parsing"
  | notInt => "int_type"
  | noIntSpelling => "int_parsing"
  | intTooLarge => "int_parsing_size"
  | fractional => "int_from_float"
  | notFinite => "finite_number"
  | negative => "greater_than_equal"

/-- The integer that a floating-point number is, within sixty-four bits. -/
def intOfFloat (x : Float) : Except Mismatch Int :=
  match Numeral.Parts.ofFloat x with
  | .notANumber => .error .notFinite
  | .infinite _ => .error .notFinite
  | .finite negative size =>
    match size.whole with
    | (_, false) => .error .fractional
    | (n, true) =>
      if n < Nat.pow 2 63 then .ok (if negative then -(n : Int) else n) else .error .intTooLarge

/-- The text behind its sign, and whether that is a minus. Two signs are none. -/
def unsign (cs : List Char) : Option (Bool × List Char) :=
  let signed : Option (List Char) := match cs with
    | '+' :: '-' :: _ => none
    | '+' :: cs => some cs
    | cs => some cs
  signed.bind fun
    | '-' :: '-' :: _ => none
    | '-' :: '+' :: _ => none
    | '-' :: cs => some (true, cs)
    | cs => some (false, cs)

/-- The text behind zeros and underscores, where `last` is the character before it. The last zero
before a point or at the end stays. A minus may follow the zeros. -/
def dropZeros (last : Char) : List Char → Option (List Char)
  | [] => some [last]
  | c :: cs =>
    if c = '0' ∨ c = '_' then dropZeros c cs
    else if c.isDigit ∨ c = '-' then some (c :: cs)
    else if c = '.' then some (last :: c :: cs)
    else none

/-- The text without leading zeros. It starts with a digit, or with a zero and then a minus. -/
def withoutZeros : List Char → Option (List Char)
  | [] => none
  | c :: cs =>
    if c = '0' then dropZeros c cs
    else if c.isDigit then some (c :: cs)
    else none

/-- The text before a point behind which there are only zeros, or else the whole text. -/
def withoutFraction (cs : List Char) : List Char :=
  match cs.dropWhile (· != '.') with
  | _ :: '0' :: zeros => if zeros.all (· == '0') then cs.takeWhile (· != '.') else cs
  | _ => cs

/-- The digits of a text in which single underscores may stand between two digits. -/
def digits? (cs : List Char) : Option (List Nat) :=
  if cs.all fun c => c.isDigit || c == '_' then
    match Numeral.Integer.digits? 10 true cs with
    | some (ds, []) => some ds
    | _ => none
  else none

/-- The integer that a text spells, with a sign before or behind leading zeros, underscores or a
fraction of zeros if need be. -/
def intOfText (cs : List Char) : Except Mismatch Int :=
  let spelled := do
    let (negative, cs) ← unsign (Text.trimBy Text.isWhiteSpace cs)
    let (negative, cs) := match negative, ← withoutZeros cs with
      | false, '-' :: cs => (true, cs)
      | negative, cs => (negative, cs)
    return (negative, ← digits? (withoutFraction cs))
  match spelled with
  | none => .error .noIntSpelling
  | some (negative, ds) =>
    if Numeral.Integer.limit < ds.length + negative.toNat then .error .intTooLarge
    else
      let n : Int := Numeral.Integer.ofDigits 10 ds
      .ok (if negative then -n else n)

def int : Value → Except Mismatch Int
  | .int n => .ok n
  | .bool b => .ok b.toNat
  | .float x => intOfFloat x
  | .text s => intOfText s.toList
  | .bytes content =>
    match Text.Utf8.decode 0 content with
    | .ok cs => intOfText cs
    | .error _ => .error .noIntSpelling
  | _ => .error .notInt

/-- An integer that is not negative. -/
def nat (v : Value) : Except Mismatch Nat :=
  match int v with
  | .ok (.ofNat n) => .ok n
  | .ok (.negSucc _) => .error .negative
  | .error m => .error m

def falseSpellings : List String :=
  ["0", "off", "f", "false", "n", "no"]

def trueSpellings : List String :=
  ["1", "on", "t", "true", "y", "yes"]

/-- The switch that a text spells in any case. -/
def boolOfText (cs : List Char) : Except Mismatch Bool :=
  let word := String.ofList (cs.map Char.toLower)
  if falseSpellings.contains word then .ok false
  else if trueSpellings.contains word then .ok true
  else .error .noBoolSpelling

/-- One is on and zero is off. -/
def boolOfInt (n : Int) : Except Mismatch Bool :=
  if n = 0 then .ok false else if n = 1 then .ok true else .error .noBoolSpelling

def bool : Value → Except Mismatch Bool
  | .bool b => .ok b
  | .text s => boolOfText s.toList
  | .bytes content =>
    match Text.Utf8.decode 0 content with
    | .ok cs => boolOfText cs
    | .error _ => .error .noBoolSpelling
  | .int n => if -Int.pow 2 63 ≤ n ∧ n < Int.pow 2 63 then boolOfInt n else .error .notBool
  | .float x =>
    match intOfFloat x with
    | .ok n => boolOfInt n
    | .error _ => .error .notBool
  | _ => .error .notBool

end SignatureContext.Coerce
