import SignatureContext.Text.Utf8
import SignatureContext.Yaml.Token

/-! Reading directives, and the anchors, aliases and tags of nodes. -/
namespace SignatureContext.Yaml.Property

def isUriChar (c : Char) : Bool :=
  c.isAlphanum || "-;/?:@&=+$,_.!~*'()[]%".toList.contains c

/-- The bytes of escapes, each a percent sign and two digits, from here on. -/
def escapedBytes : (fuel : Nat) → Cursor → Except Fault (List UInt8 × Cursor)
  | 0, _ => .error .malformed
  | fuel + 1, c =>
    if c.peek ≠ '%' then .ok ([], c)
    else
      match Numeral.Integer.digit? 16 (c.peekAt 1), Numeral.Integer.digit? 16 (c.peekAt 2) with
      | some high, some low => do
        let (bytes, c) ← escapedBytes fuel (c.advance 3)
        return (UInt8.ofNat (high * 16 + low) :: bytes, c)
      | _, _ => .error .malformed

/-- The characters of a location from here on, with their escapes resolved. -/
def uriChars : (fuel : Nat) → Cursor → Except Fault (List Char × Cursor)
  | 0, _ => .error .malformed
  | fuel + 1, c =>
    if c.peek = '%' then do
      let (bytes, c) ← escapedBytes c.fuel c
      match Text.Utf8.decode 0 bytes with
      | .error _ => .error .malformed
      | .ok front =>
        let (cs, c) ← uriChars fuel c
        return (front ++ cs, c)
    else if isUriChar c.peek then do
      let (cs, next) ← uriChars fuel c.next
      return (c.peek :: cs, next)
    else .ok ([], c)

def uri (c : Cursor) : Except Fault (String × Cursor) := do
  let (cs, next) ← uriChars c.fuel c
  if next.index = c.index then .error .malformed else return (String.ofList cs, next)

/-- An exclamation mark, or a word between two of them. -/
def handle (c : Cursor) : Except Fault (String × Cursor) :=
  if c.peek ≠ '!' then .error .malformed
  else
    let (word, next) := c.next.span isWordChar
    if next.peek = '!' then .ok (String.ofList ('!' :: word ++ ['!']), next.next)
    else if c.peekAt 1 = ' ' then .ok ("!", c.next)
    else .error .malformed

/-- Whether an exclamation mark follows before the word ends. -/
def hasHandle (c : Cursor) : Bool :=
  (c.next.rest.takeWhile fun ch => ch != '!' && !endsField ch).length
    < (c.next.rest.takeWhile fun ch => !endsField ch).length

/-- A tag by its location, by a handle and a suffix, or none in particular. -/
def tag (c : Cursor) : Except Fault (Token × Cursor) := do
  let ch := c.peekAt 1
  let (token, c) ←
    if ch = '<' then do
      let (suffix, c) ← uri (c.advance 2)
      if c.peek = '>' then pure (Token.tag none suffix, c.next) else .error .malformed
    else if endsWord ch then pure (Token.tag none "!", c.next)
    else do
      let (h, c) ← if hasHandle c then handle c else pure ("!", c.next)
      let (suffix, c) ← uri c
      pure (Token.tag (some h) suffix, c)
  if endsField c.peek then return (token, c) else .error .malformed

/-- The name of an anchor or an alias, behind its mark. -/
def name (c : Cursor) : Except Fault (String × Cursor) :=
  let (word, next) := c.next.span isWordChar
  if word.isEmpty then .error .malformed
  else if endsWord next.peek || "?:,]\x7d%@\x60".toList.contains next.peek then
    .ok (String.ofList word, next)
  else .error .malformed

def number (c : Cursor) : Except Fault (Nat × Cursor) :=
  let (digits, next) := c.span Char.isDigit
  if digits.isEmpty then .error .malformed
  else match Numeral.Integer.read 10 (String.ofList digits) with
    | .ok n => .ok (n.toNat, next)
    | .error fault => .error (.integer fault)

/-- The version of the format, as two numbers with a dot between them. -/
def version (c : Cursor) : Except Fault (Directive × Cursor) := do
  let (major, c) ← number c.skipSpaces
  if c.peek = '.' then
    let (minor, c) ← number c.next
    if endsField c.peek then return (.version major minor, c) else .error .malformed
  else .error .malformed

/-- What a handle stands for in tags. -/
def tagDirective (c : Cursor) : Except Fault (Directive × Cursor) := do
  let (h, c) ← handle c.skipSpaces
  if c.peek = ' ' then
    let (stem, c) ← uri c.skipSpaces
    if endsField c.peek then return (.tag h stem, c) else .error .malformed
  else .error .malformed

/-- The rest of a line, on which there is at most a comment. -/
def lineEnd (c : Cursor) : Except Fault Cursor :=
  let c := c.skipSpaces.skipComment
  if endsLine c.peek then .ok c.next else .error .malformed

def directive (c : Cursor) : Except Fault (Token × Cursor) := do
  let (word, c) := c.next.span isWordChar
  if word.isEmpty || !endsField c.peek then .error .malformed
  else
    let (d, c) ←
      if word = "YAML".toList then version c
      else if word = "TAG".toList then tagDirective c
      else pure (Directive.reserved, c.skip (!isBreak ·))
    return (.directive d, ← lineEnd c)

end SignatureContext.Yaml.Property
