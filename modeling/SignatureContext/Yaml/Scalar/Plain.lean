import SignatureContext.Yaml.Cursor

/-! Scalars without quotes. -/
namespace SignatureContext.Yaml.Scalar

def isFlowMark (c : Char) : Bool :=
  c == ',' || c == '[' || c == ']' || c == '{' || c == '}'

/-- Whether a colon before the character ends a key. -/
def endsKey (flow : Bool) (next : Char) : Bool :=
  endsWord next || (flow && isFlowMark next)

/-- The characters up to a space, to the colon behind a key, or to a mark of a flow collection. -/
def plainWord (flow : Bool) : List Char → List Char
  | [] => []
  | c :: cs =>
    if endsWord c || (c == ':' && endsKey flow (cs.headD finish))
      || (flow && (isFlowMark c || c == '?'))
    then []
    else c :: plainWord flow cs

/-- The line breaks from here on, with the spaces around them skipped, unless a marker between
documents follows one of them. -/
def plainBreaks : (fuel : Nat) → Cursor → Option (List Char) × Cursor
  | 0, c => (none, c)
  | fuel + 1, c =>
    let c := c.skipSpaces
    match c.break? with
    | none => (some [], c)
    | some (b, c) =>
      if c.atSeparator then (none, c)
      else
        let (more, c) := plainBreaks fuel c
        (more.map (b :: ·), c)

/-- What stands between two words: spaces or folded line breaks, whether there were any of the
latter, and the place behind. -/
def plainGap (c : Cursor) : List Char × Bool × Cursor :=
  let (spaces, c) := c.span (· == ' ')
  match c.break? with
  | none => (spaces, false, c)
  | some (b, c) =>
    if c.atSeparator then ([], true, c)
    else match plainBreaks c.fuel c with
      | (none, c) => ([], true, c)
      | (some more, c) => (foldBreaks b more, true, c)

/-- The words from here on with the gaps between them, and whether the last gap held a line break.
In a block, a line that is indented less is not part of the scalar. -/
def plain (flow : Bool) (indent : Int) : (fuel : Nat) → (gap : List Char) → (broke : Bool) →
    Cursor → List Char × Bool × Cursor
  | 0, _, broke, c => ([], broke, c)
  | fuel + 1, gap, broke, c =>
    let word := if c.peek = '#' then [] else plainWord flow c.rest
    if word.isEmpty then ([], broke, c)
    else
      let (nextGap, broke, c) := plainGap (c.advance word.length)
      if nextGap.isEmpty || c.peek == '#' || (!flow && decide (c.column < indent)) then
        (gap ++ word, broke, c)
      else
        let (cs, broke, c) := plain flow indent fuel nextGap broke c
        (gap ++ word ++ cs, broke, c)

end SignatureContext.Yaml.Scalar
