import SignatureContext.Yaml.Property

/-! Scalars that are indented lines. -/
namespace SignatureContext.Yaml.Scalar

/-- What becomes of the line breaks at the end of a scalar. -/
inductive Chomping
  | strip
  | clip
  | keep
deriving Repr, DecidableEq

def chomping? : Char → Option Chomping
  | '+' => some .keep
  | '-' => some .strip
  | _ => none

/-- A digit other than zero, which gives an indentation. -/
def indentDigit (c : Cursor) : Except Fault (Option Nat × Cursor) :=
  if c.peek.isDigit then
    if c.peek = '0' then .error .malformed else .ok (some (c.peek.toNat - 48), c.next)
  else .ok (none, c)

/-- How a scalar ends and how far it is indented, in either order. -/
def blockHeader (c : Cursor) : Except Fault (Chomping × Option Nat × Cursor) := do
  let (chomping, indent, c) ←
    match chomping? c.peek with
    | some chomping => do
      let (indent, c) ← indentDigit c.next
      pure (chomping, indent, c)
    | none => do
      let (indent, c) ← indentDigit c
      match indent, chomping? c.peek with
      | some _, some chomping => pure (chomping, indent, c.next)
      | _, _ => pure (.clip, indent, c)
  if endsField c.peek then return (chomping, indent, ← Property.lineEnd c) else .error .malformed

/-- The blank lines from here on, the largest indentation among them, and the place of the first
character behind them. -/
def leadingBreaks : (fuel : Nat) → (widest : Nat) → Cursor → List Char × Nat × Cursor
  | 0, widest, c => ([], widest, c)
  | fuel + 1, widest, c =>
    let spaced := c.skipSpaces
    let widest := if spaced.index = c.index then widest else max widest spaced.column
    match spaced.break? with
    | none => ([], widest, spaced)
    | some (b, c) =>
      let (bs, widest, c) := leadingBreaks fuel widest c
      (b :: bs, widest, c)

/-- The place behind the spaces here, but not beyond the indentation. -/
def skipIndent (indent : Nat) (c : Cursor) : Cursor :=
  c.advance ((c.rest.take (indent - c.column)).takeWhile (· == ' ')).length

/-- The line breaks from here on, with the indentation of each line skipped. -/
def blockBreaks (indent : Nat) : (fuel : Nat) → Cursor → List Char × Cursor
  | 0, c => ([], c)
  | fuel + 1, c =>
    let c := skipIndent indent c
    match c.break? with
    | none => ([], c)
    | some (b, c) =>
      let (bs, c) := blockBreaks indent fuel c
      (b :: bs, c)

/-- The lines from here on: their text, the break behind the last one, and the breaks that follow
it. In a folded scalar a single break between two lines that start with no space is a space. -/
def blockLines (folded : Bool) (indent : Nat) : (fuel : Nat) → Cursor →
    List Char × List Char × List Char × Cursor
  | 0, c => ([], [], [], c)
  | fuel + 1, c =>
    let (line, c) := c.span (!isBreak ·)
    let (last, c) := match c.break? with
      | some (b, c) => ([b], c)
      | none => ([], c)
    let (breaks, c) := blockBreaks indent c.fuel c
    if c.column = indent ∧ c.peek ≠ finish then
      let flows := folded && last == ['\n'] && !isSpace (line.headD finish) && !isSpace c.peek
      let gap := if !flows then last else if breaks.isEmpty then [' '] else []
      let (cs, last, tail, c) := blockLines folded indent fuel c
      (line ++ gap ++ breaks ++ cs, last, tail, c)
    else (line, last, breaks, c)

/-- A literal or folded scalar within a block of some indentation, from behind its mark on. -/
def block (folded : Bool) (outer : Int) (c : Cursor) : Except Fault (List Char × Cursor) := do
  let (chomping, increment, c) ← blockHeader c
  let least := max 1 (outer + 1).toNat
  let (indent, breaks, c) := match increment with
    | some n =>
      let indent := least + n - 1
      let (breaks, c) := blockBreaks indent c.fuel c
      (indent, breaks, c)
    | none =>
      let (breaks, widest, c) := leadingBreaks c.fuel 0 c
      (max least widest, breaks, c)
  let (text, last, tail, c) :=
    if c.column = indent ∧ c.peek ≠ finish then
      let (cs, last, tail, c) := blockLines folded indent c.fuel c
      (breaks ++ cs, last, tail, c)
    else ([], [], breaks, c)
  return (match chomping with
    | .strip => text
    | .clip => text ++ last
    | .keep => text ++ last ++ tail, c)

end SignatureContext.Yaml.Scalar
