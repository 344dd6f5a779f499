import SignatureContext.Yaml.Property
import SignatureContext.Yaml.Scalar.Block
import SignatureContext.Yaml.Scalar.Delimited
import SignatureContext.Yaml.Scalar.Plain

/-! From text to tokens, with the tokens that indentation stands for. What a line starts with is a
key only once a colon follows it, so key tokens are put in later. -/
namespace SignatureContext.Yaml

/-- Something that is a key if a colon follows: the number of its first token, its place, and
whether it has to be a key because of its indentation. -/
structure Candidate where
  number : Nat
  required : Bool
  index : Nat
  line : Nat
  column : Nat
deriving Repr

/-- How far a text has been read: the tokens so far, last one first, the depth of flow collections,
the indentations of the block collections, whether a key may start here, and what may still turn
out to be a key at each depth. -/
structure Layout where
  cursor : Cursor
  tokens : List Token := []
  count : Nat := 0
  flow : Nat := 0
  indent : Int := -1
  outer : List Int := []
  keyAllowed : Bool := true
  candidates : List (Nat × Candidate) := []
  finished : Bool := false
deriving Repr

namespace Layout

def push (l : Layout) (t : Token) : Layout :=
  { l with tokens := t :: l.tokens, count := l.count + 1 }

/-- Puts a token in front of the one with the given number. -/
def insert (l : Layout) (number : Nat) (t : Token) : Layout :=
  let behind := l.count - number
  { l with
    tokens := l.tokens.take behind ++ t :: l.tokens.drop behind
    count := l.count + 1 }

/-- A candidate does not outlive its line, nor a thousand characters and a few. -/
def isStale (c : Cursor) (k : Candidate) : Bool :=
  k.line != c.line || k.index + 1024 < c.index

def dropStale (l : Layout) : Except Fault Layout :=
  if l.candidates.any fun k => isStale l.cursor k.2 && k.2.required then .error .malformed
  else .ok { l with candidates := l.candidates.filter fun k => !isStale l.cursor k.2 }

/-- Gives up the candidate at the present depth. -/
def dropCandidate (l : Layout) : Except Fault Layout :=
  if l.candidates.any fun k => k.1 == l.flow && k.2.required then .error .malformed
  else .ok { l with candidates := l.candidates.filter (·.1 != l.flow) }

/-- Makes what starts here a candidate, if a key may. -/
def saveCandidate (l : Layout) : Except Fault Layout :=
  if !l.keyAllowed then .ok l
  else do
    let c := l.cursor
    let required := l.flow == 0 && l.indent == c.column
    let l ← l.dropCandidate
    return { l with
      candidates := (l.flow, ⟨l.count, required, c.index, c.line, c.column⟩) :: l.candidates }

/-- How many block collections are indented more than the column, and the indentations left. -/
def closing (column : Int) : Int → List Int → Nat × Int × List Int
  | indent, [] => (0, indent, [])
  | indent, next :: outer =>
    if column < indent then
      let (n, indent, outer) := closing column next outer
      (n + 1, indent, outer)
    else (0, indent, next :: outer)

/-- Ends the block collections that are indented more than the column. -/
def unwind (l : Layout) (column : Int) : Layout :=
  if l.flow ≠ 0 then l
  else
    let (n, indent, outer) := closing column l.indent l.outer
    { l with
      tokens := List.replicate n .blockEnd ++ l.tokens
      count := l.count + n
      indent
      outer }

/-- Starts a block collection in front of the token with the given number, if the column is
indented more than the present one. -/
def openBlock (l : Layout) (column number : Nat) (start : Token) : Layout :=
  if l.flow = 0 ∧ l.indent < column then
    { l.insert number start with indent := column, outer := l.indent :: l.outer }
  else l

/-- Reads a token of so many characters. -/
def take (l : Layout) (t : Token) (length : Nat) : Layout :=
  { l.push t with cursor := l.cursor.advance length }

/-- The place of the next token. Each line break lets a key start in a block. -/
def seek : (fuel : Nat) → Layout → Layout
  | 0, l => l
  | fuel + 1, l =>
    let c := l.cursor.skipSpaces.skipComment
    match c.break? with
    | none => { l with cursor := c }
    | some (_, c) => seek fuel { l with cursor := c, keyAllowed := l.keyAllowed || l.flow == 0 }

/-- Ends all block collections in front of a directive, a marker or the end. -/
def flush (l : Layout) : Except Fault Layout := do
  let l ← (l.unwind (-1)).dropCandidate
  return { l with keyAllowed := false }

def streamEnd (l : Layout) : Except Fault Layout := do
  let l ← l.flush
  return { l.push .streamEnd with candidates := [], finished := true }

def directive (l : Layout) : Except Fault Layout := do
  let l ← l.flush
  let (t, cursor) ← Property.directive l.cursor
  return { l.push t with cursor }

def marker (l : Layout) (t : Token) : Except Fault Layout := do
  return (← l.flush).take t 3

def flowStart (l : Layout) (t : Token) : Except Fault Layout := do
  let l ← l.saveCandidate
  return { l.take t 1 with flow := l.flow + 1, keyAllowed := true }

def flowEnd (l : Layout) (t : Token) : Except Fault Layout :=
  if l.flow = 0 then .error .malformed
  else do
    let l ← l.dropCandidate
    return { l.take t 1 with flow := l.flow - 1, keyAllowed := false }

def flowEntry (l : Layout) : Except Fault Layout := do
  let l ← l.dropCandidate
  return { l.take .flowEntry 1 with keyAllowed := true }

/-- An entry or a key behind its mark, which starts a collection if it is indented more. -/
def blockMark (l : Layout) (t start : Token) (keyAllowed : Bool) : Except Fault Layout :=
  if l.flow = 0 ∧ !l.keyAllowed then .error .malformed
  else do
    let l ← (l.openBlock l.cursor.column l.count start).dropCandidate
    return { l.take t 1 with keyAllowed }

/-- A colon. What may be a key in front of it is one. -/
def value (l : Layout) : Except Fault Layout :=
  match l.candidates.lookup l.flow with
  | some k =>
    let l := { l with candidates := l.candidates.filter (·.1 != l.flow) }
    let l := (l.insert k.number .key).openBlock k.column k.number .blockMappingStart
    .ok { l.take .value 1 with keyAllowed := false }
  | none => l.blockMark .value .blockMappingStart (l.flow == 0)

/-- An anchor, an alias, a tag or a quoted scalar, which may be or belong to a key. -/
def node (l : Layout) (read : Cursor → Except Fault (Token × Cursor)) : Except Fault Layout := do
  let l ← l.saveCandidate
  let (t, cursor) ← read l.cursor
  return { l.push t with cursor, keyAllowed := false }

def blockScalar (l : Layout) (folded : Bool) : Except Fault Layout := do
  let l ← l.dropCandidate
  let (text, cursor) ← Scalar.block folded l.indent l.cursor.next
  return { l.push (.scalar (String.ofList text) false) with cursor, keyAllowed := true }

def plainScalar (l : Layout) : Except Fault Layout := do
  let l ← l.saveCandidate
  let (text, broke, cursor) :=
    Scalar.plain (l.flow ≠ 0) (l.indent + 1) l.cursor.fuel [] false l.cursor
  return { l.push (.scalar (String.ofList text) true) with cursor, keyAllowed := broke }

/-- Whether a scalar without quotes starts here. -/
def startsPlain (l : Layout) : Bool :=
  let ch := l.cursor.peek
  let mark := "-?:,[]\x7b\x7d#&*!|>'\"%@\x60".toList.contains ch
  (!endsWord ch && !mark)
    || (!endsWord (l.cursor.peekAt 1) && (ch == '-' || (l.flow == 0 && (ch == '?' || ch == ':'))))

def delimitedScalar (quote : Char) (c : Cursor) : Except Fault (Token × Cursor) := do
  let (text, c) ← Scalar.delimited quote c.fuel c.next
  return (.scalar (String.ofList text) false, c)

/-- Reads one token, together with those that indentation puts in front of it. -/
def step (l : Layout) : Except Fault Layout := do
  let l ← (l.seek l.cursor.fuel).dropStale
  let l := l.unwind l.cursor.column
  let c := l.cursor
  let atStart := c.column == 0
  let spaced := endsWord (c.peekAt 1)
  let named (t : String → Token) (c : Cursor) : Except Fault (Token × Cursor) :=
    (Property.name c).map fun r => (t r.1, r.2)
  match c.peek with
  | '\x00' => l.streamEnd
  | '[' => l.flowStart .flowSequenceStart
  | '{' => l.flowStart .flowMappingStart
  | ']' => l.flowEnd .flowSequenceEnd
  | '}' => l.flowEnd .flowMappingEnd
  | ',' => l.flowEntry
  | '*' => l.node (named .alias)
  | '&' => l.node (named .anchor)
  | '!' => l.node Property.tag
  | '\'' => l.node (delimitedScalar '\'')
  | '"' => l.node (delimitedScalar '"')
  | ch =>
    if ch = '%' ∧ atStart then l.directive
    else if ch = '-' ∧ atStart ∧ c.atMarker '-' then l.marker .documentStart
    else if ch = '.' ∧ atStart ∧ c.atMarker '.' then l.marker .documentEnd
    else if ch = '-' ∧ spaced then l.blockMark .blockEntry .blockSequenceStart true
    else if ch = '?' ∧ (l.flow ≠ 0 ∨ spaced) then l.blockMark .key .blockMappingStart (l.flow == 0)
    else if ch = ':' ∧ (l.flow ≠ 0 ∨ spaced) then l.value
    else if ch = '|' ∧ l.flow = 0 then l.blockScalar false
    else if ch = '>' ∧ l.flow = 0 then l.blockScalar true
    else if l.startsPlain then l.plainScalar
    else .error .malformed

/-- The tokens in front of the first one that may still turn out to be a key. -/
def settled (l : Layout) : List Token :=
  let pending := (l.candidates.filter fun k => !isStale l.cursor k.2).map (·.2.number)
  l.tokens.reverse.take (pending.foldl min l.count)

def run : (fuel : Nat) → Layout → Stream Token
  | 0, l => ⟨l.settled, some .malformed⟩
  | fuel + 1, l =>
    if l.finished then ⟨l.tokens.reverse, none⟩
    else match l.step with
      | .ok next => run fuel next
      | .error fault => ⟨l.settled, some fault⟩

end Layout

/-- The tokens of a text. A byte order mark in front of it is none of it. -/
def tokens (cs : List Char) : Stream Token :=
  let c : Cursor := { rest := cs }
  let c := if c.peek = '\ufeff' then c.next else c
  Layout.run c.fuel { cursor := c }

end SignatureContext.Yaml
