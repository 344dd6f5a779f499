import SignatureContext.Config.Basic
import SignatureContext.Numeral.Integer

/-! Settings from environment variables. -/
namespace SignatureContext

/-- The variables that are read. -/
inductive Variable
  | debug
  | imports
  | maxDepth
  | includeTypeOnly
  | includeTransitive
  | hideVisible
  | onlyUsed
  | maxTokens
  | skipBarrelFiles
deriving Repr, DecidableEq

def Variable.name : Variable → String
  | debug => "TYPE_INJECT_DEBUG"
  | imports => "TYPE_INJECT_IMPORTS"
  | maxDepth => "TYPE_INJECT_MAX_DEPTH"
  | includeTypeOnly => "TYPE_INJECT_INCLUDE_TYPE_ONLY"
  | includeTransitive => "TYPE_INJECT_INCLUDE_TRANSITIVE"
  | hideVisible => "TYPE_INJECT_HIDE_VISIBLE"
  | onlyUsed => "TYPE_INJECT_ONLY_USED"
  | maxTokens => "TYPE_INJECT_MAX_TOKENS"
  | skipBarrelFiles => "TYPE_INJECT_SKIP_BARREL_FILES"

/-- The text of each variable that is set. -/
abbrev Environment := Variable → Option String

/-- The variables of a list of names and texts. -/
def Environment.ofList (entries : List (String × String)) : Environment :=
  fun v => entries.lookup v.name

namespace Environment

/-- The texts that switch a setting on, in any case and with any blanks around them. -/
def isOn (text : String) : Bool :=
  ["1", "true", "yes", "on"].contains
    (String.ofList ((Text.trim text.toList).map Char.toLower))

def flag (env : Environment) (v : Variable) (fallback : Bool) : Bool :=
  match env v with
  | none => fallback
  | some text => isOn text

/-- What is no integer counts as not set. -/
def number (env : Environment) (v : Variable) (fallback : Int) : Int :=
  match env v with
  | none => fallback
  | some text =>
    match Numeral.Integer.read 10 text with
    | .ok n => n
    | .error _ => fallback

end Environment

/-- The settings of an environment. A negative depth is none, and the kinds have no variables. -/
def Config.ofEnvironment (env : Environment) : Config where
  debug := env.flag .debug false
  imports := {
    enabled := env.flag .imports true
    maxDepth := (env.number .maxDepth 4).toNat
    typeOnly := env.flag .includeTypeOnly true }
  filtering := {
    transitive := env.flag .includeTransitive true
    hideVisible := env.flag .hideVisible true
    onlyUsed := env.flag .onlyUsed true }
  budget := {
    maxTokens := env.number .maxTokens 10000
    skipBarrels := env.flag .skipBarrelFiles true }

end SignatureContext
