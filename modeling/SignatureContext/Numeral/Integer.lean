import SignatureContext.Text.Character
import SignatureContext.Text.Quoted

/-! Reading integers: blanks around, one sign, digits of any script, single underscores between
them, and in bases other than ten a mark of the base. -/
namespace SignatureContext.Numeral

namespace Integer

inductive Fault
  | malformed (text : String) (base : Nat)
  /-- More decimal digits than are read. -/
  | tooLong (digits : Nat)
deriving Repr, DecidableEq

/-- The number of decimal digits that are read. -/
def limit : Nat :=
  4300

def Fault.message : Fault → String
  | malformed text base =>
    "invalid literal for int() with base " ++ toString base ++ ": "
      ++ String.ofList ((Text.quote text.toList).take 200)
  | tooLong digits =>
    "Exceeds the limit (" ++ toString limit ++ " digits) for integer string conversion: value has "
      ++ toString digits
      ++ " digits; use sys.set_int_max_str_digits() to increase the limit"

/-- Digits and white space of any script by the ASCII ones; a question mark for all else beyond
ASCII. -/
def plain (c : Char) : Char :=
  if c.toNat < 127 then c
  else if Text.isWhiteSpace c then ' '
  else match Text.digitValue? c with
    | some d => Text.asciiDigit d
    | none => '?'

def isSpace (c : Char) : Bool :=
  c == ' ' || (9 ≤ c.toNat && c.toNat ≤ 13)

/-- The value of a digit or a letter. -/
def digit? (base : Nat) (c : Char) : Option Nat :=
  let v :=
    if c.isDigit then c.toNat - 48
    else if c.isLower then c.toNat - 87
    else if c.isUpper then c.toNat - 55
    else base
  if v < base then some v else none

/-- The text behind `0x`, `0o` or `0b`, if the base is the one marked, and one underscore. -/
def unmark (base : Nat) : List Char → List Char
  | '0' :: m :: cs =>
    if (base = 16 ∧ m.toLower = 'x') ∨ (base = 8 ∧ m.toLower = 'o') ∨ (base = 2 ∧ m.toLower = 'b')
    then match cs with
      | '_' :: cs => cs
      | cs => cs
    else '0' :: m :: cs
  | cs => cs

/-- The digits a text starts with, and what follows them. An underscore stands between two digits
only, and the last character seen says whether one just stood there. -/
def digits? (base : Nat) (afterMark : Bool) : List Char → Option (List Nat × List Char)
  | [] => if afterMark then none else some ([], [])
  | c :: cs =>
    if c = '_' then if afterMark then none else digits? base true cs
    else match digit? base c with
      | some d => (digits? base false cs).map fun r => (d :: r.1, r.2)
      | none => if afterMark then none else some ([], c :: cs)

def ofDigits (base : Nat) (ds : List Nat) : Nat :=
  ds.foldl (fun n d => n * base + d) 0

/-- The sign of a text, and the text behind it. -/
def sign : List Char → Bool × List Char
  | '-' :: cs => (true, cs)
  | '+' :: cs => (false, cs)
  | cs => (false, cs)

def read (base : Nat) (text : String) : Except Fault Int :=
  let (negative, body) := sign ((text.toList.map plain).dropWhile isSpace)
  let body := unmark base body
  let malformed := Except.error (Fault.malformed text base)
  if body.head? = some '_' then malformed
  else match digits? base false body with
    | none => malformed
    | some (ds, rest) =>
      if base = 10 ∧ limit < ds.length then .error (.tooLong ds.length)
      else if ds.isEmpty || !rest.all isSpace then malformed
      else
        let n : Int := ofDigits base ds
        .ok (if negative then -n else n)

end Integer

end SignatureContext.Numeral
