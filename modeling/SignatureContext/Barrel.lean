import SignatureContext.Text.Character
import SignatureContext.Text.Split

/-! Barrels: files that only pass on what other files export. -/
namespace SignatureContext.Barrel

/-- Whether a block comment that starts before the text ends in it. -/
def closes : List Char → Bool
  | '*' :: '/' :: _ => true
  | _ :: cs => closes cs
  | [] => false

/-- The text without its block comments, from inside or outside of one. A comment that never ends
is none. -/
def stripBlocks (inside : Bool) : List Char → List Char
  | [] => []
  | '*' :: '/' :: cs =>
    if inside then stripBlocks false cs else '*' :: stripBlocks false ('/' :: cs)
  | '/' :: '*' :: cs =>
    if inside then stripBlocks true ('*' :: cs)
    else if closes cs then stripBlocks true cs
    else '/' :: stripBlocks false ('*' :: cs)
  | c :: cs => if inside then stripBlocks true cs else c :: stripBlocks false cs

/-- The text without its line comments, from inside or outside of one. The line feed behind a
comment stays. -/
def stripLines (inside : Bool) : List Char → List Char
  | [] => []
  | '\n' :: cs => '\n' :: stripLines false cs
  | '/' :: '/' :: cs => stripLines true cs
  | c :: cs => if inside then stripLines true cs else c :: stripLines false cs

/-- The lines of a text that have something besides comments, without the blanks around it. -/
def statements (cs : List Char) : List (List Char) :=
  ((Text.lines (stripLines false (stripBlocks false cs))).map Text.trim).filter (· ≠ [])

/-- What follows the word, if the text starts with it. -/
def word? : (word : List Char) → List Char → Option (List Char)
  | [], cs => some cs
  | _ :: _, [] => none
  | w :: ws, c :: cs => if w = c then word? ws cs else none

def blanks (cs : List Char) : List Char :=
  cs.dropWhile Text.isBlank

/-- What follows one or more blanks. -/
def blanks? : List Char → Option (List Char)
  | [] => none
  | c :: cs => if Text.isBlank c then some (blanks cs) else none

/-- What follows a star, or a list in braces. -/
def exported? : List Char → Option (List Char)
  | '*' :: cs => some cs
  | '{' :: cs =>
    match cs.dropWhile (· != '}') with
    | [] => none
    | _ :: rest => some rest
  | _ => none

def quote? : List Char → Option Unit
  | c :: _ => if c = '\'' ∨ c = '"' then some () else none
  | [] => none

/-- What is exported, `from`, and the opening quote of a module. -/
def passesOn (cs : List Char) : Bool :=
  (do
    let cs ← exported? (blanks cs)
    let cs ← word? "from".toList (blanks cs)
    quote? (← blanks? cs)).isSome

/-- Whether a line starts by exporting from a module, or by exporting types from it. -/
def isReexport (line : List Char) : Bool :=
  match word? "export".toList line with
  | none => false
  | some cs =>
    passesOn cs ||
      match (blanks? cs).bind (word? "type".toList) with
      | none => false
      | some cs => passesOn cs

/-- Whether a text has statements, and all of them pass on exports. -/
def isBarrel (text : String) : Bool :=
  let ls := statements text.toList
  !ls.isEmpty && ls.all isReexport

end SignatureContext.Barrel
