import SignatureContext.Config.Coerce
import SignatureContext.Config.File
import SignatureContext.Yaml.Document

/-! A validator of settings, which reports all mismatches together, and a loader of documents: what
files are read with when the library runs. -/
namespace SignatureContext

/-- What does not fit, and the names that lead to it. -/
structure Problem where
  path : List String
  mismatch : Coerce.Mismatch
deriving Repr, DecidableEq

/-- A reading that goes on after a problem and keeps them all, in order. -/
abbrev Reading := StateM (List Problem)

namespace Reading

/-- The setting of that name, or the default if it is absent or does not fit. -/
def setting {α : Type} (entries : List (Value × Value)) (path : List String)
    (read : Value → Except Coerce.Mismatch α) (name : String) (default : α) : Reading α :=
  match Value.entry? name entries with
  | none => return default
  | some v =>
    match read v with
    | .ok a => return a
    | .error m => do
      modify (· ++ [⟨path ++ [name], m⟩])
      return default

/-- The settings of a section, which is a mapping. -/
def group {α : Type} (entries : List (Value × Value)) (name : String) (default : α)
    (read : List (Value × Value) → Reading α) : Reading α :=
  match Value.entry? name entries with
  | none => return default
  | some (.map inner) => read inner
  | some _ => do
    modify (· ++ [⟨[name], .notSection⟩])
    return default

def imports (entries : List (Value × Value)) : Reading ImportSettings := do
  let bool := setting entries ["imports"] Coerce.bool
  return {
    enabled := ← bool "enabled" true
    maxDepth := ← setting entries ["imports"] Coerce.nat "max_depth" 4
    typeOnly := ← bool "include_type_only" true }

def filtering (entries : List (Value × Value)) : Reading FilterSettings := do
  let bool := setting entries ["filtering"] Coerce.bool
  return {
    transitive := ← bool "include_transitive" true
    hideVisible := ← bool "hide_visible" true
    onlyUsed := ← bool "only_used" true }

def budget (entries : List (Value × Value)) : Reading BudgetSettings := do
  return {
    maxTokens := ← setting entries ["budget"] Coerce.int "max_tokens" 10000
    skipBarrels := ← setting entries ["budget"] Coerce.bool "skip_barrel_files" true }

def inject (entries : List (Value × Value)) : Reading InjectSettings := do
  let bool := setting entries ["inject"] Coerce.bool
  return {
    functions := ← bool "functions" true
    types := ← bool "types" true
    interfaces := ← bool "interfaces" true
    enums := ← bool "enums" true
    classes := ← bool "classes" true
    constants := ← bool "constants" true }

def config (entries : List (Value × Value)) : Reading Config := do
  return {
    debug := ← setting entries [] Coerce.bool "debug" false
    imports := ← group entries "imports" {} imports
    filtering := ← group entries "filtering" {} filtering
    budget := ← group entries "budget" {} budget
    inject := ← group entries "inject" {} inject }

end Reading

namespace Config

/-- The settings that a mapping of these entries holds. Other names are passed over. -/
def ofEntries (entries : List (Value × Value)) : Except (List Problem) Config :=
  match (Reading.config entries).run [] with
  | (c, []) => .ok c
  | (_, problems) => .error problems

/-- The settings that a value holds. -/
def validate : Value → Except (List Problem) Config
  | .map entries => ofEntries entries
  | _ => .error [⟨[], .notSection⟩]

/-- The document that a text holds. -/
def load (cs : List Char) : Except (LoadFault Yaml.Fault) (Layer Value) :=
  match Yaml.load cs with
  | .ok v => .ok v.layer
  | .error .malformed => .error .malformed
  | .error fault => .error (.other fault)

end Config

end SignatureContext
