import SignatureContext.Numeral.Integer

/-! What can be wrong with a YAML document. -/
namespace SignatureContext.Yaml

/-- A moment's part that no clock or calendar shows. -/
inductive Moment
  | year
  | month
  | day
  | hour
  | minute
  | second
deriving Repr, DecidableEq

/-- A document that is malformed breaks a rule of the format. The other faults are of texts that a
scalar may have and that have no value. -/
inductive Fault
  | malformed
  | codePoint (n : Nat)
  | integer (fault : Numeral.Integer.Fault)
  | decimal (text : String)
  /-- A number in base sixty with more places than a floating-point number has. -/
  | overflow
  /-- A number without digits. -/
  | noDigits
  | unknownSwitch (text : String)
  | noTimestamp
  | notText
  /-- A mapping whose default entry leads back to it. -/
  | endless
  | moment (part : Moment)
  /-- A distance of a day or more to the time at Greenwich. -/
  | offset (minutes : Int)
deriving Repr, DecidableEq

/-- The days and the seconds of a span of time, where the seconds are not negative. -/
def spanText (minutes : Int) : String :=
  let seconds := minutes % 1440 * 60
  "datetime.timedelta(days=" ++ toString (minutes / 1440)
    ++ (if seconds = 0 then "" else ", seconds=" ++ toString seconds) ++ ")"

def Moment.message : Moment → String
  | year => "year 0 is out of range"
  | month => "month must be in 1..12"
  | day => "day is out of range for month"
  | hour => "hour must be in 0..23"
  | minute => "minute must be in 0..59"
  | second => "second must be in 0..59"

def Fault.message : Fault → String
  | malformed => "malformed document"
  | codePoint n =>
    if n < Nat.pow 2 31 then "chr() arg not in range(0x110000)"
    else "Python int too large to convert to C int"
  | integer fault => fault.message
  | decimal text => "could not convert string to float: " ++ Text.quoted text
  | overflow => "int too large to convert to float"
  | noDigits => "string index out of range"
  | unknownSwitch text => Text.quoted text
  | noTimestamp => "'NoneType' object has no attribute 'groupdict'"
  | notText => "expected string or bytes-like object, got 'list'"
  | endless => "maximum recursion depth exceeded"
  | moment part => part.message
  | offset minutes =>
    "offset must be a timedelta strictly between -timedelta(hours=24) and timedelta(hours=24), not "
      ++ spanText minutes ++ "."

/-- Items in order, and what went wrong behind them if anything did. -/
structure Stream (α : Type) where
  items : List α
  stop : Option Fault := none
deriving Repr

end SignatureContext.Yaml
