import SignatureContext.Symbol

/-! The settings, with their defaults. -/
namespace SignatureContext

/-- Which imports are followed, and how far. -/
structure ImportSettings where
  enabled : Bool := true
  maxDepth : Nat := 4
  typeOnly : Bool := true
deriving Repr, DecidableEq, Inhabited

/-- How many hops are followed. -/
def ImportSettings.effectiveDepth (s : ImportSettings) : Nat :=
  if s.enabled then s.maxDepth else 0

structure FilterSettings where
  transitive : Bool := true
  hideVisible : Bool := true
  /-- In a partial read, whether only what the window uses and its dependencies are kept. -/
  onlyUsed : Bool := true
deriving Repr, DecidableEq, Inhabited

/-- A budget that is not positive leaves room for the first tier only. -/
structure BudgetSettings where
  maxTokens : Int := 10000
  skipBarrels : Bool := true
deriving Repr, DecidableEq, Inhabited

/-- Which kinds of declarations are shown. -/
structure InjectSettings where
  functions : Bool := true
  types : Bool := true
  interfaces : Bool := true
  enums : Bool := true
  classes : Bool := true
  constants : Bool := true
deriving Repr, DecidableEq, Inhabited

def InjectSettings.allows (s : InjectSettings) : Kind → Bool
  | .function => s.functions
  | .typeAlias => s.types
  | .interface => s.interfaces
  | .enumeration => s.enums
  | .classType => s.classes
  | .constant => s.constants

structure Config where
  debug : Bool := false
  imports : ImportSettings := {}
  filtering : FilterSettings := {}
  budget : BudgetSettings := {}
  inject : InjectSettings := {}
deriving Repr, DecidableEq, Inhabited

/-- The settings by their names in documents. -/
def Config.toValue (c : Config) : Value :=
  let record (fields : List (String × Value)) : Value :=
    .map (fields.map fun f => (.text f.1, f.2))
  record [
    ("debug", .bool c.debug),
    ("imports", record [
      ("enabled", .bool c.imports.enabled),
      ("max_depth", .int c.imports.maxDepth),
      ("include_type_only", .bool c.imports.typeOnly)]),
    ("filtering", record [
      ("include_transitive", .bool c.filtering.transitive),
      ("hide_visible", .bool c.filtering.hideVisible),
      ("only_used", .bool c.filtering.onlyUsed)]),
    ("budget", record [
      ("max_tokens", .int c.budget.maxTokens),
      ("skip_barrel_files", .bool c.budget.skipBarrels)]),
    ("inject", record [
      ("functions", .bool c.inject.functions),
      ("types", .bool c.inject.types),
      ("interfaces", .bool c.inject.interfaces),
      ("enums", .bool c.inject.enums),
      ("classes", .bool c.inject.classes),
      ("constants", .bool c.inject.constants)])]

end SignatureContext
