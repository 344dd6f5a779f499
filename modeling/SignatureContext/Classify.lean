import SignatureContext.Tier
import SignatureContext.Scan
import SignatureContext.Log

/-! The tier of each declaration, for a whole file or for a window of one. -/
namespace SignatureContext

/-- What decides the tier of a declaration besides the declaration itself. -/
structure Reach where
  /-- The names of the functions that come first. -/
  first : String → Bool
  second : List String
  third : List String

namespace Reach

/-- A function is never in the second or the third tier. -/
def tierOf (r : Reach) (s : Symbol) : Tier :=
  if s.isFunction && r.first s.name then .functions
  else if !s.isFunction && r.second.contains s.name then .signatureTypes
  else if !s.isFunction && r.third.contains s.name then .dependencies
  else if s.imported then .imported
  else .native

/-- Every declaration in the bucket of its tier, in order. -/
def sort {α : Type} [Declares α] (r : Reach) (items : List α) : Buckets α :=
  PerTier.ofFn fun t => items.filter fun a => r.tierOf (symbol a) = t

theorem get_sort {α : Type} [Declares α] (r : Reach) (items : List α) (t : Tier) :
    (r.sort items).get t = items.filter fun a => r.tierOf (symbol a) = t := by
  simp [sort]

end Reach

/-- The names that a declaration's signature mentions, other than its own. -/
def mentions (scan : Scanner) (s : Symbol) : List String :=
  (scan s.signature).filter (· ≠ s.name)

/-- The names of declarations that the signatures of some of them mention. -/
def mentionedBy (scan : Scanner) (symbols sources : List Symbol) : List String :=
  (sources.flatMap (mentions scan)).filter (symbols.map (·.name)).contains

/-- All functions come first, then what they mention, then what that mentions. -/
def wholeReach (scan : Scanner) (transitive : Bool) (symbols : List Symbol) : Reach :=
  let functions := symbols.filter (·.isFunction)
  let second := mentionedBy scan symbols functions
  let claimed := functions.map (·.name) ++ second
  let sources := symbols.filter fun s => !s.isFunction && second.contains s.name
  let third := (mentionedBy scan symbols sources).filter (!claimed.contains ·)
  ⟨fun _ => true, second, if transitive then third else []⟩

/-- The names of declarations that occur in a window. -/
def usedNames (symbols : List Symbol) (window : String) : List String :=
  (Scan.identifiers window).filter (symbols.map (·.name)).contains

/-- What a window names comes first, and then what that mentions. -/
def windowReach (scan : Scanner) (transitive : Bool) (symbols : List Symbol)
    (window : String) : Reach :=
  let used := usedNames symbols window
  let sources := symbols.filter fun s => used.contains s.name
  let third := (mentionedBy scan symbols sources).filter (!used.contains ·)
  ⟨used.contains, used, if transitive then third else []⟩

variable {α : Type} [Declares α]

def classify (scan : Scanner) (transitive : Bool) (items : List α) : Buckets α :=
  (wholeReach scan transitive (items.map symbol)).sort items

def classifyWindow (scan : Scanner) (transitive : Bool) (items : List α)
    (window : String) : Buckets α :=
  (windowReach scan transitive (items.map symbol) window).sort items

/-- A line for each tier, with the names in it. -/
def Buckets.log (b : Buckets α) : List Log.Record :=
  ⟨.debug, .classifier, "Tier assignment:"⟩ :: Tier.all.map fun t =>
    let names := ", ".intercalate (b.names t)
    ⟨.debug, .classifier, "  Tier " ++ toString t.number ++ " (" ++ t.label ++ "): "
      ++ if names = "" then "none" else names⟩

/-- How many names a window uses, and how many those depend on. -/
def Reach.windowRecord (r : Reach) : Log.Record :=
  ⟨.debug, .classifier, "Range scan: " ++ toString r.second.eraseDups.length ++ " used names, "
    ++ toString r.third.eraseDups.length ++ " dependencies"⟩

end SignatureContext
