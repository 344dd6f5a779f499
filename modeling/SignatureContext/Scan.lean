import SignatureContext.Text.Word

/-! The names that a text mentions. -/
namespace SignatureContext

/-- A way to find the names that the text of a signature refers to. -/
abbrev Scanner := String → List String

namespace Scan

/-- Types that every file knows, so that no file declares them. -/
def builtins : List String :=
  ["String", "Number", "Boolean", "Object", "Array", "Function", "Promise", "Date", "Map", "Set",
    "WeakMap", "WeakSet", "RegExp", "Error", "Symbol", "BigInt", "Record", "Partial", "Required",
    "Readonly", "Pick", "Omit", "Exclude", "Extract", "NonNullable", "Parameters", "ReturnType",
    "InstanceType", "ThisType", "Uppercase", "Lowercase", "Capitalize", "Uncapitalize"]

def isLetter (c : Char) : Bool :=
  c.isUpper || c.isLower

/-- A letter or an underscore, and then letters, digits and underscores, all of ASCII. -/
def isIdentifier : List Char → Bool
  | [] => false
  | c :: cs => (isLetter c || c == '_') && cs.all fun d => isLetter d || d.isDigit || d == '_'

/-- A capital letter, and then letters and digits, all of ASCII. -/
def isTypeName : List Char → Bool
  | [] => false
  | c :: cs => c.isUpper && cs.all fun d => isLetter d || d.isDigit

/-- The identifiers among the words of a text. -/
def identifiers : Scanner := fun text =>
  ((Text.wordRuns text.toList).filter isIdentifier).map String.ofList

/-- The capitalised words of a text that are not built in. -/
def references : Scanner := fun text =>
  (((Text.wordRuns text.toList).filter isTypeName).map String.ofList).filter
    (!builtins.contains ·)

def nothing : Scanner := fun _ => []

end Scan

end SignatureContext
