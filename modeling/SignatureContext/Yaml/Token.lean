import SignatureContext.Yaml.Cursor

/-! The tokens of a document. -/
namespace SignatureContext.Yaml

inductive Directive
  | version (major minor : Nat)
  | tag (handle stem : String)
  | reserved
deriving Repr, DecidableEq

inductive Token
  | directive (d : Directive)
  | documentStart
  | documentEnd
  | blockSequenceStart
  | blockMappingStart
  | blockEnd
  | flowSequenceStart
  | flowSequenceEnd
  | flowMappingStart
  | flowMappingEnd
  | blockEntry
  | flowEntry
  | key
  | value
  | alias (name : String)
  | anchor (name : String)
  /-- Without a handle, the suffix is the whole tag. -/
  | tag (handle : Option String) (suffix : String)
  | scalar (text : String) (plain : Bool)
  | streamEnd
deriving Repr, DecidableEq

end SignatureContext.Yaml
