import SignatureContext.Symbol
import SignatureContext.Fault

/-! Import statements, and what an extractor reports for a file. -/
namespace SignatureContext

/-- One import statement. No names at all stand for the whole module, and neither an absent nor an
empty target is one. -/
structure ImportEdge where
  source : String
  specifier : String
  target : Option String := none
  names : List String := []
  typeOnly : Bool := false
deriving Repr, DecidableEq, Inhabited

namespace ImportEdge

/-- A specifier that starts with a dot points into the same tree of files. -/
def relative (e : ImportEdge) : Bool :=
  e.specifier.toList.head? == some '.'

def target? (e : ImportEdge) : Option String :=
  e.target.filter (· ≠ "")

/-- Whether the statement brings in the declaration. -/
def admits (e : ImportEdge) (s : Symbol) : Bool :=
  e.names.isEmpty || e.names.contains s.name

end ImportEdge

/-- An import as a host gives it: an edge, or a specifier with names, or too few parts for that. -/
inductive ImportItem
  | edge (e : ImportEdge)
  | named (specifier : String) (names : List String) (typeOnly : Bool)
  | incomplete (parts : Nat)
deriving Repr, DecidableEq

/-- The edge of a file that an import item stands for. -/
def ImportItem.edgeOf (file : String) : ImportItem → Except Fault ImportEdge
  | edge e => .ok { e with source := file }
  | named specifier names typeOnly => .ok { source := file, specifier, names, typeOnly }
  | incomplete parts => .error (.incomplete parts)

/-- The declarations and the import statements of a file, both in order. -/
structure Extraction where
  path : String
  symbols : List Symbol
  edges : List ImportEdge
deriving Repr, DecidableEq, Inhabited

/-- Where declarations and texts come from. Either request may fail. -/
structure Source where
  extract : String → Except Fault Extraction
  text : String → Except Fault (Option String)

end SignatureContext
