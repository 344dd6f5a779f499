import SignatureContext.Yaml.Cursor

/-! Scalars between quotes. -/
namespace SignatureContext.Yaml.Scalar

/-- What a character behind a backslash stands for. -/
def escape? : Char → Option Char
  | '0' => some '\x00'
  | 'a' => some '\x07'
  | 'b' => some '\x08'
  | 't' => some '\t'
  | '\t' => some '\t'
  | 'n' => some '\n'
  | 'v' => some '\x0b'
  | 'f' => some '\x0c'
  | 'r' => some '\r'
  | 'e' => some '\x1b'
  | ' ' => some ' '
  | '"' => some '"'
  | '\\' => some '\\'
  | '/' => some '/'
  | 'N' => some '\x85'
  | '_' => some '\xa0'
  | 'L' => some '\u2028'
  | 'P' => some '\u2029'
  | _ => none

/-- How many digits of a code point follow the character behind a backslash. -/
def escapeLength? : Char → Option Nat
  | 'x' => some 2
  | 'u' => some 4
  | 'U' => some 8
  | _ => none

/-- The character of a code point. Half of a pair stands for no character. -/
def charOfCode (n : Nat) : Except Fault Char :=
  if 0x110000 ≤ n then .error (.codePoint n)
  else if 0xd800 ≤ n ∧ n < 0xe000 then .ok '\ufffd'
  else .ok (Char.ofNat n)

/-- The line breaks from here on, with the spaces around them skipped. No marker between documents
may follow one. -/
def delimitedBreaks : (fuel : Nat) → Cursor → Except Fault (List Char × Cursor)
  | 0, _ => .error .malformed
  | fuel + 1, c =>
    if c.atSeparator then .error .malformed
    else
      let c := c.skip isSpace
      match c.break? with
      | none => .ok ([], c)
      | some (b, c) => do
        let (more, c) ← delimitedBreaks fuel c
        return (b :: more, c)

/-- What an escape stands for, from the character behind the backslash on. An escaped line break
leaves only the breaks behind it. -/
def escaped (c : Cursor) : Except Fault (List Char × Cursor) :=
  match escape? c.peek, escapeLength? c.peek, c.break? with
  | some ch, _, _ => .ok ([ch], c.next)
  | none, some n, _ =>
    let digits := (c.next.rest.take n).takeWhile isHexDigit
    if digits.length < n then .error .malformed
    else do
      let code := Numeral.Integer.ofDigits 16 (digits.filterMap (Numeral.Integer.digit? 16))
      return ([← charOfCode code], c.next.advance n)
  | none, none, some (_, c) => delimitedBreaks c.fuel c
  | none, none, none => .error .malformed

/-- The text up to the closing quote, and the place behind that. Within single quotes, two of them
are one. -/
def delimited (quote : Char) : (fuel : Nat) → Cursor → Except Fault (List Char × Cursor)
  | 0, _ => .error .malformed
  | fuel + 1, c =>
    if c.peek = quote then
      if quote = '\'' ∧ c.peekAt 1 = quote then do
        let (cs, c) ← delimited quote fuel (c.advance 2)
        return (quote :: cs, c)
      else .ok ([], c.next)
    else do
      let (front, c) ←
        if c.peek = '\\' ∧ quote = '"' then escaped c.next
        else
          let (spaces, c) := c.span isSpace
          match c.break? with
          | some (b, c) => do
            let (more, c) ← delimitedBreaks c.fuel c
            pure (foldBreaks b more, c)
          | none =>
            if c.peek = finish then .error .malformed
            else if spaces.isEmpty then pure ([c.peek], c.next)
            else pure (spaces, c)
      let (cs, c) ← delimited quote fuel c
      return (front ++ cs, c)

end SignatureContext.Yaml.Scalar
