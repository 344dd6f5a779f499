import SignatureContext.Text.Split

/-! The tags of nodes, and the tag that the text of a scalar has by itself. -/
namespace SignatureContext.Yaml

inductive Tag
  | null
  | bool
  | int
  | float
  | binary
  | timestamp
  | omap
  | pairs
  | set
  | str
  | seq
  | map
  | merge
  | value
  | other (name : String)
deriving Repr, DecidableEq, Inhabited

namespace Tag

/-- The words for the tags of the format, behind their common stem. -/
def words : List (String × Tag) :=
  [("null", null), ("bool", bool), ("int", int), ("float", float), ("binary", binary),
    ("timestamp", timestamp), ("omap", omap), ("pairs", pairs), ("set", set), ("str", str),
    ("seq", seq), ("map", map), ("merge", merge), ("value", value)]

def ofName (name : String) : Tag :=
  match words.find? fun w => "tag:yaml.org,2002:" ++ w.1 == name with
  | some w => w.2
  | none => other name

/-- Whether a value with this tag is a collection, which is no key. -/
def isCollection : Tag → Bool
  | seq | map | set | omap | pairs => true
  | _ => false

end Tag

namespace Schema

/-- One or more characters of the class. -/
def isRun (p : Char → Bool) (cs : List Char) : Bool :=
  !cs.isEmpty && cs.all p

def isNumeralChar (c : Char) : Bool :=
  c.isDigit || c == '_'

/-- A digit, and then digits and underscores. -/
def isNumeral : List Char → Bool
  | [] => false
  | c :: cs => c.isDigit && cs.all isNumeralChar

/-- A digit, or two digits less than sixty. -/
def isSixtieth : List Char → Bool
  | [c] => c.isDigit
  | [c, d] => c.isDigit && c.toNat ≤ '5'.toNat && d.isDigit
  | _ => false

/-- A numeral and then one or more places in base sixty. -/
def isSexagesimal (cs : List Char) : Bool :=
  match Text.split ':' cs with
  | [] => false
  | [_] => false
  | front :: places => isNumeral front && places.all isSixtieth

def unsigned (cs : List Char) : List Char :=
  match cs with
  | '+' :: cs => cs
  | '-' :: cs => cs
  | cs => cs

def isInt (cs : List Char) : Bool :=
  match unsigned cs with
  | ['0'] => true
  | '0' :: 'b' :: cs => isRun (fun c => c == '0' || c == '1' || c == '_') cs
  | '0' :: 'x' :: cs =>
    let isHex (c : Char) : Bool :=
      c.isDigit || ('a' ≤ c && c ≤ 'f') || ('A' ≤ c && c ≤ 'F') || c == '_'
    isRun isHex cs
  | '0' :: cs => isRun (fun c => ('0' ≤ c && c ≤ '7') || c == '_') cs
  | cs => isNumeral cs || isSexagesimal cs

/-- Nothing, or a letter, a sign and digits. -/
def isExponent : List Char → Bool
  | [] => true
  | e :: s :: ds => (e == 'e' || e == 'E') && (s == '+' || s == '-') && isRun Char.isDigit ds
  | _ => false

/-- Digits and underscores, and then an exponent or nothing. -/
def isFraction (cs : List Char) : Bool :=
  isExponent (cs.dropWhile isNumeralChar)

def isFloat (cs : List Char) : Bool :=
  let body := unsigned cs
  let front := body.takeWhile (· != '.')
  match body.dropWhile (· != '.') with
  | [] => false
  | _ :: back =>
    if front.isEmpty then
      let word := String.ofList back
      word == "inf" || word == "Inf" || word == "INF"
        || (body == cs && (word == "nan" || word == "NaN" || word == "NAN"
          || (isNumeral (back.takeWhile isNumeralChar) && isFraction back)))
    else
      (isNumeral front && isFraction back) || (isSexagesimal front && back.all isNumeralChar)

def isBool (cs : List Char) : Bool :=
  ["yes", "Yes", "YES", "no", "No", "NO", "true", "True", "TRUE", "false", "False", "FALSE",
    "on", "On", "ON", "off", "Off", "OFF"].contains (String.ofList cs)

def isNull (cs : List Char) : Bool :=
  ["~", "null", "Null", "NULL"].contains (String.ofList cs)

end Schema

/-- The parts of a moment as they are written. -/
structure WrittenTime where
  year : List Char
  month : List Char
  day : List Char
  /-- Hour, minute and second. -/
  clock : Option (List Char × List Char × List Char) := none
  /-- Whether it lies behind, and the hours and the minutes of the distance. -/
  offset : Option (Bool × List Char × List Char) := none
deriving Repr

namespace WrittenTime

/-- As many digits as there are, at least `least` and at most `most`, and what follows. -/
def digits (least most : Nat) (cs : List Char) : Option (List Char × List Char) :=
  let ds := (cs.take most).takeWhile Char.isDigit
  if ds.length < least then none else some (ds, cs.drop ds.length)

def mark (c : Char) : List Char → Option (List Char)
  | d :: cs => if c = d then some cs else none
  | [] => none

/-- The distance from the time at Greenwich: none said, none at all, or a signed one. -/
def zone (cs : List Char) : Option (Option (Bool × List Char × List Char)) :=
  match cs.dropWhile fun c => c == ' ' || c == '\t' with
  | [] => if cs.isEmpty then some none else none
  | ['Z'] => some none
  | s :: cs => do
    if s ≠ '+' ∧ s ≠ '-' then failure
    let (hours, cs) ← digits 1 2 cs
    if cs.isEmpty then return some (s == '-', hours, [])
    let (minutes, cs) ← digits 2 2 (← mark ':' cs)
    if cs.isEmpty then return some (s == '-', hours, minutes) else failure

/-- Whether and where the time of day starts: behind one letter, or behind spaces. -/
def clockStart (cs : List Char) : Option (List Char) :=
  match cs with
  | 'T' :: cs => some cs
  | 't' :: cs => some cs
  | _ =>
    let rest := cs.dropWhile fun c => c == ' ' || c == '\t'
    if rest.length < cs.length then some rest else none

/-- The time of day, with a fraction of a second or without, and the distance. -/
def withClock (date : WrittenTime) (cs : List Char) : Option WrittenTime := do
  let (hour, cs) ← digits 1 2 (← clockStart cs)
  let (minute, cs) ← digits 2 2 (← mark ':' cs)
  let (second, cs) ← digits 2 2 (← mark ':' cs)
  let cs := match cs with
    | '.' :: cs => cs.dropWhile Char.isDigit
    | cs => cs
  return { date with clock := some (hour, minute, second), offset := ← zone cs }

/-- A date, and a time of day behind it or nothing. -/
def read? (cs : List Char) : Option WrittenTime := do
  let (year, cs) ← digits 4 4 cs
  let (month, cs) ← digits 1 2 (← mark '-' cs)
  let (day, cs) ← digits 1 2 (← mark '-' cs)
  let date : WrittenTime := { year, month, day }
  if cs.isEmpty then return date else date.withClock cs

/-- A date without a time of day has two digits for the month and for the day if it is to be known
as a date without a tag. -/
def isPlain (t : WrittenTime) : Bool :=
  t.clock.isSome || (t.month.length == 2 && t.day.length == 2)

end WrittenTime

/-- The text without one line feed at its end. -/
def withoutFinalBreak (cs : List Char) : List Char :=
  match cs.reverse with
  | '\n' :: front => front.reverse
  | _ => cs

/-- The tag that a text has by itself. -/
def Tag.ofText (text : String) : Tag :=
  let cs := withoutFinalBreak text.toList
  let word := String.ofList cs
  if text = "" then null
  else if Schema.isBool cs then bool
  else if Schema.isFloat cs then float
  else if Schema.isInt cs then int
  else if word = "<<" then merge
  else if Schema.isNull cs then null
  else if ((WrittenTime.read? cs).map WrittenTime.isPlain).getD false then timestamp
  else if word = "=" then value
  else if word = "!" ∨ word = "&" ∨ word = "*" then other "tag:yaml.org,2002:yaml"
  else str

end SignatureContext.Yaml
