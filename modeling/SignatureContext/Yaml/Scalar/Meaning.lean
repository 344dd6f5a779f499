import SignatureContext.Value
import SignatureContext.Numeral.Decimal
import SignatureContext.Yaml.Fault
import SignatureContext.Yaml.Schema

/-! The values of scalars by their tags. -/
namespace SignatureContext.Yaml.Scalar

/-- The first characters that decide a number, which it has to have: whether it is negative, and
what follows its sign. -/
def signed (cs : List Char) : Except Fault (Bool × List Char) :=
  match cs with
  | [] => .error .noDigits
  | cs => .ok (Numeral.Integer.sign cs)

def readInt (base : Nat) (cs : List Char) : Except Fault Int :=
  match Numeral.Integer.read base (String.ofList cs) with
  | .ok n => .ok n
  | .error fault => .error (.integer fault)

/-- An integer in base two, eight, ten, sixteen or sixty. -/
def integer (text : String) : Except Fault Int := do
  let (negative, body) ← signed (text.toList.filter (· != '_'))
  let n ← match body with
    | [] => .error .noDigits
    | ['0'] => .ok 0
    | '0' :: 'b' :: ds => readInt 2 ds
    | '0' :: 'x' :: ds => readInt 16 ds
    | '0' :: ds => readInt 8 ('0' :: ds)
    | ds =>
      if ds.contains ':' then do
        let places ← (Text.split ':' ds).mapM (readInt 10)
        pure (places.foldl (fun n d => n * 60 + d) 0)
      else readInt 10 ds
  return if negative then -n else n

def readFloat (cs : List Char) : Except Fault Float :=
  let text := String.ofList cs
  match Numeral.Decimal.read? text with
  | some x => .ok x
  | none => .error (.decimal text)

/-- The value of places in base sixty, the last one first. -/
def sixtieths : (places : List Float) → (base : Nat) → (sum : Float) → Except Fault Float
  | [], _, sum => .ok sum
  | x :: xs, base, sum =>
    let scale := Float.ofScientific base false 0
    if scale.isInf then .error .overflow else sixtieths xs (base * 60) (sum + x * scale)

/-- A number in base ten or sixty, or infinity, or no number. -/
def decimal (text : String) : Except Fault Float := do
  let (negative, body) ← signed ((text.toList.filter (· != '_')).map Char.toLower)
  let x ←
    if body = ".inf".toList then .ok (1 / 0)
    else if body = ".nan".toList then .ok (0 / 0)
    else if body.contains ':' then do
      let places ← (Text.split ':' body).mapM readFloat
      sixtieths places.reverse 1 0
    else readFloat body
  return if negative then -x else x

def switch (text : String) : Except Fault Bool :=
  let word := String.ofList (text.toList.map Char.toLower)
  if ["yes", "true", "on"].contains word then .ok true
  else if ["no", "false", "off"].contains word then .ok false
  else .error (.unknownSwitch word)

/-- The six bits that a character of an encoded byte string stands for. -/
def sixBits? (c : Char) : Option Nat :=
  if c.isUpper then some (c.toNat - 65)
  else if c.isLower then some (c.toNat - 71)
  else if c.isDigit then some (c.toNat + 4)
  else if c = '+' then some 62
  else if c = '/' then some 63
  else none

/-- The bytes that characters encode, four of them three bytes. `read` tells how many of four have
been read, `bits` what is left of them, and `pads` how many signs of padding follow the last one.
Other characters are passed over. -/
def decode64 (read bits pads : Nat) : List Char → Option (List UInt8)
  | [] => if read = 0 then some [] else none
  | c :: cs =>
    if c = '=' then
      if 2 ≤ read ∧ 4 ≤ read + pads + 1 then some []
      else decode64 read bits (if 2 ≤ read then pads + 1 else pads) cs
    else match sixBits? c with
      | none => decode64 read bits pads cs
      | some n =>
        let sum := bits * 64 + n
        match read with
        | 0 => decode64 1 n 0 cs
        | 1 => (decode64 2 (sum % 16) 0 cs).map (UInt8.ofNat (sum / 16) :: ·)
        | 2 => (decode64 3 (sum % 4) 0 cs).map (UInt8.ofNat (sum / 4) :: ·)
        | _ => (decode64 0 0 0 cs).map (UInt8.ofNat sum :: ·)

def binary (text : String) : Except Fault (List UInt8) :=
  let cs := text.toList
  if cs.all fun c => c.toNat < 128 then
    match decode64 0 0 0 cs with
    | some bytes => .ok bytes
    | none => .error .malformed
  else .error .malformed

def natOf (ds : List Char) : Nat :=
  Numeral.Integer.ofDigits 10 (ds.map fun c => c.toNat - 48)

def daysIn (year month : Nat) : Nat :=
  if month = 2 then
    if year % 4 = 0 ∧ (year % 100 ≠ 0 ∨ year % 400 = 0) then 29 else 28
  else if month = 4 ∨ month = 6 ∨ month = 9 ∨ month = 11 then 30
  else 31

/-- What no calendar or clock shows, the distance first, then from the year down. -/
def timeFault? (t : WrittenTime) : Option Fault :=
  let year := natOf t.year
  let month := natOf t.month
  let day := natOf t.day
  let dateFault : Option Fault :=
    if year = 0 then some (.moment .year)
    else if month < 1 ∨ 12 < month then some (.moment .month)
    else if day < 1 ∨ daysIn year month < day then some (.moment .day)
    else none
  let clockFault : Option Fault := t.clock.bind fun (hour, minute, second) =>
    if 23 < natOf hour then some (.moment .hour)
    else if 59 < natOf minute then some (.moment .minute)
    else if 59 < natOf second then some (.moment .second)
    else none
  let offsetFault : Option Fault := t.offset.bind fun (behind, hours, minutes) =>
    let n := natOf hours * 60 + natOf minutes
    if 1440 ≤ n then some (.offset (if behind then -(n : Int) else n)) else none
  (offsetFault.or dateFault).or clockFault

def timestamp (text : String) : Except Fault Value :=
  match WrittenTime.read? (withoutFinalBreak text.toList) with
  | none => .error .noTimestamp
  | some t =>
    match timeFault? t with
    | some fault => .error fault
    | none => .ok .timestamp

/-- The value of a text with a tag that scalars have. -/
def meaning (tag : Tag) (text : String) : Except Fault Value :=
  match tag with
  | .null => .ok .null
  | .bool => (switch text).map .bool
  | .int => (integer text).map .int
  | .float => (decimal text).map .float
  | .binary => (binary text).map .bytes
  | .timestamp => timestamp text
  | .str => .ok (.text text)
  | _ => .error .malformed

end SignatureContext.Yaml.Scalar
