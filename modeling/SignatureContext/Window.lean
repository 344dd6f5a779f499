import SignatureContext.Symbol
import SignatureContext.Text.Split

/-! A window of consecutive lines of a text, and the declarations that its reader does not see there
already. -/
namespace SignatureContext

/-- `limit` lines from the line with index `offset`. Neither number need be positive. -/
structure LineRange where
  offset : Int
  limit : Int
deriving Repr, DecidableEq, Inhabited

namespace LineRange

/-- The index of the first line behind the window. -/
def stop (r : LineRange) : Int :=
  r.offset + r.limit

/-- The lines of the window that the text has. -/
def lines (r : LineRange) (cs : List Char) : List (List Char) :=
  ((Text.lines cs).take r.stop.toNat).drop r.offset.toNat

/-- The part of the text in the window. -/
def slice (r : LineRange) (text : String) : String :=
  String.ofList (Text.join '\n' (r.lines text.toList))

/-- Whether a declaration of the file lies in the window as a whole, of a file of `total` lines. -/
def shows (r : LineRange) (total : Int) (s : Symbol) : Bool :=
  match s.lineStart, s.lineEnd with
  | some first, some last =>
    !s.imported && r.offset ≤ first && last ≤ min r.stop total - 1
  | _, _ => false

/-- The declarations that are not seen in the window, in order. -/
def unseen (r : LineRange) (total : Int) (symbols : List Symbol) : List Symbol :=
  symbols.filter (!r.shows total ·)

end LineRange

end SignatureContext
