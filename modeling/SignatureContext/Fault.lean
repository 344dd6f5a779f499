import SignatureContext.Value

/-! What can go wrong with a request, and how it is worded. -/
namespace SignatureContext

inductive Fault
  /-- No file is registered under the path. -/
  | notFound (path : String)
  /-- The extractor failed on the file. -/
  | crashed
  /-- The text of the file may not be read. -/
  | denied
  /-- An import was given by fewer than two parts. -/
  | incomplete (parts : Nat)
  | unknownKind (value : Value)
  | unknownTier (value : Value)
  /-- An empty path has no place below a root. -/
  | noPath

def Fault.message : Fault → String
  | notFound path => "File not found: " ++ path
  | crashed => "parser crashed"
  | denied => "permission denied"
  | incomplete parts =>
    "not enough values to unpack (expected at least 2, got " ++ toString parts ++ ")"
  | unknownKind value => value.literal ++ " is not a valid SymbolKind"
  | unknownTier value => value.literal ++ " is not a valid Tier"
  | noPath => "no path specified"

end SignatureContext
