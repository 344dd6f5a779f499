import SignatureContext.Text.Character
import SignatureContext.Yaml.Fault

/-! A place in the text of a document. -/
namespace SignatureContext.Yaml

/-- The characters that a document may hold. -/
def readableRanges : Text.Ranges :=
  [(0x9, 0xa), (0xd, 0xd), (0x20, 0x7e), (0x85, 0x85), (0xa0, 0xd7ff), (0xe000, 0xfffd),
    (0x10000, 0x10ffff)]

def isReadable (c : Char) : Bool :=
  readableRanges.has c.toNat

/-- Stands for the end of the text, in which it cannot occur. -/
def finish : Char := '\x00'

/-- A line feed, a next line, a line separator or a paragraph separator. -/
def isBreak (c : Char) : Bool :=
  c == '\n' || c == '\x85' || c == '\u2028' || c == '\u2029'

def isSpace (c : Char) : Bool :=
  c == ' ' || c == '\t'

/-- Whether a line ends at the character. -/
def endsLine (c : Char) : Bool :=
  isBreak c || c == finish

/-- Whether a space or the end of a line is at the character. -/
def endsField (c : Char) : Bool :=
  endsLine c || c == ' '

/-- Whether a space, a tab or the end of a line is at the character. -/
def endsWord (c : Char) : Bool :=
  endsField c || c == '\t'

def isWordChar (c : Char) : Bool :=
  c.isAlphanum || c == '-' || c == '_'

def isHexDigit (c : Char) : Bool :=
  (Numeral.Integer.digit? 16 c).isSome

/-- The rest of the text, how many characters that is, and where it starts. -/
structure Cursor where
  rest : List Char
  left : Nat := rest.length
  index : Nat := 0
  line : Nat := 0
  column : Nat := 0
deriving Repr

namespace Cursor

def peekAt (c : Cursor) (k : Nat) : Char :=
  c.rest.getD k finish

def peek (c : Cursor) : Char :=
  c.peekAt 0

/-- The place behind one character. A byte order mark takes no column. -/
def next (c : Cursor) : Cursor :=
  match c.rest with
  | [] => c
  | ch :: rest =>
    let c := { c with rest, left := c.left - 1, index := c.index + 1 }
    if isBreak ch then { c with line := c.line + 1, column := 0 }
    else if ch = '\ufeff' then c
    else { c with column := c.column + 1 }

def advance (c : Cursor) : Nat → Cursor
  | 0 => c
  | n + 1 => c.next.advance n

/-- The characters of the class from here on, and the place behind them. -/
def span (c : Cursor) (p : Char → Bool) : List Char × Cursor :=
  let cs := c.rest.takeWhile p
  (cs, c.advance cs.length)

def skip (c : Cursor) (p : Char → Bool) : Cursor :=
  (c.span p).2

def skipSpaces (c : Cursor) : Cursor :=
  c.skip (· == ' ')

/-- The line break that is here, and the place behind it. Separators of lines and paragraphs are
kept, and all others are line feeds. -/
def break? (c : Cursor) : Option (Char × Cursor) :=
  let ch := c.peek
  if isBreak ch then
    some (if ch = '\u2028' ∨ ch = '\u2029' then ch else '\n', c.next)
  else none

/-- The place behind a comment, if one is here, which is at the end of the line. -/
def skipComment (c : Cursor) : Cursor :=
  if c.peek = '#' then c.skip (!isBreak ·) else c

/-- Whether three hyphens, or three dots, are here as a word. -/
def atMarker (c : Cursor) (mark : Char) : Bool :=
  c.peekAt 0 == mark && c.peekAt 1 == mark && c.peekAt 2 == mark && endsWord (c.peekAt 3)

/-- Whether a marker between documents is here. -/
def atSeparator (c : Cursor) : Bool :=
  c.atMarker '-' || c.atMarker '.'

/-- How many steps are enough for whatever goes on to the end of the text. -/
def fuel (c : Cursor) : Nat :=
  c.left + 2

end Cursor

/-- One line break is a space, unless it is a separator of lines or paragraphs, or more follow. -/
def foldBreaks (first : Char) (more : List Char) : List Char :=
  if first ≠ '\n' then first :: more
  else if more.isEmpty then [' ']
  else more

end SignatureContext.Yaml
