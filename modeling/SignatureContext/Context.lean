import SignatureContext.Barrel
import SignatureContext.Classify
import SignatureContext.Config.Basic
import SignatureContext.Pack
import SignatureContext.Window
import SignatureContext.Walk

/-! The context of one file read: the declarations worth showing beside it. -/
namespace SignatureContext

/-- What a renderer is given for one read. -/
structure Context where
  symbols : List Symbol
  packing : Packing Symbol
  partialRead : Bool
  estimatedTokens : Nat
  skippedBarrel : Bool
deriving Repr, DecidableEq

def Context.isEmpty (c : Context) : Bool :=
  c.symbols.isEmpty

/-- What all reads have in common. -/
structure Builder where
  source : Source
  config : Config
  root : String
  cwd : Path.Directory
  scan : Scanner

/-- One read of a file, of a window of it or of all. -/
structure Read where
  file : String
  range : Option LineRange
deriving Repr, DecidableEq

/-- The directory that origins are relative to, which is the present one unless one is named. -/
def rootOf (cwd : Path.Directory) (root : Option String) : String :=
  Path.normalize ((root.filter (· ≠ "")).getD cwd.path)

namespace Builder

/-- The text of a file, if there is one that can be read. -/
def text? (b : Builder) (file : String) : Option String :=
  match b.source.text file with
  | .ok text => text
  | .error _ => none

/-- Whether nothing is shown beside the file because it only passes on exports. -/
def skips (b : Builder) (file : String) : Bool :=
  b.config.budget.skipBarrels && ((b.text? file).map Barrel.isBarrel).getD false

def resolver (b : Builder) : Resolver where
  source := b.source
  maxDepth := b.config.imports.effectiveDepth
  typeOnly := b.config.imports.typeOnly
  root := b.root
  cwd := b.cwd

def walk (b : Builder) (file : String) : Walk :=
  b.resolver.resolve file []

/-- The declarations of the kinds that are shown. -/
def candidates (b : Builder) (file : String) : List Symbol :=
  (b.walk file).symbols.filter fun s => b.config.inject.allows s.kind

/-- The text of the window, for a partial read of a file with a text. -/
def window? (b : Builder) (r : Read) : Option String :=
  r.range.bind fun range => (b.text? r.file).map range.slice

def reach (b : Builder) (r : Read) : Reach :=
  let symbols := b.candidates r.file
  let transitive := b.config.filtering.transitive
  match b.window? r with
  | some window => windowReach b.scan transitive symbols window
  | none => wholeReach b.scan transitive symbols

/-- The tiers of the declarations, all five of them. -/
def sorted (b : Builder) (r : Read) : Buckets Symbol :=
  (b.reach r).sort (b.candidates r.file)

/-- The tiers that are packed: those of what a window does not use may be left out. -/
def buckets (b : Builder) (r : Read) : Buckets Symbol :=
  if (b.window? r).isSome && b.config.filtering.onlyUsed then
    (b.sorted r).drop [.native, .imported]
  else b.sorted r

def packing (b : Builder) (r : Read) : Packing Symbol :=
  pack b.config.budget.maxTokens (b.buckets r)

/-- How many lines the file has. Without a text, it ends with the window. -/
def totalLines (b : Builder) (range : LineRange) (file : String) : Int :=
  match b.text? file with
  | some text => (Text.lines text.toList).length
  | none => range.stop

/-- The packed declarations, without those that the window shows if they are hidden. -/
def rendered (b : Builder) (r : Read) : List Symbol :=
  let packed := (b.packing r).items
  match r.range with
  | some range =>
    if b.config.filtering.hideVisible then range.unseen (b.totalLines range r.file) packed
    else packed
  | none => packed

def nothingPacked : Packing Symbol where
  items := []
  total := 0
  exceeded := false
  counts := PerTier.ofFn fun _ => 0
  excluded := 0

def build (b : Builder) (r : Read) : Context :=
  if b.skips r.file then ⟨[], nothingPacked, r.range.isSome, 0, true⟩
  else
    let symbols := b.rendered r
    ⟨symbols, b.packing r, r.range.isSome, totalTokens symbols, false⟩

/-- The files handed to the extractor for a read, in order. -/
def attempts (b : Builder) (r : Read) : List String :=
  if b.skips r.file then [] else (b.walk r.file).extracted

/-- What is reported of the tiers. -/
def tierLog (b : Builder) (r : Read) : List Log.Record :=
  let opening : List Log.Record := match b.window? r, r.range with
    | some _, _ => [(b.reach r).windowRecord]
    | none, some _ =>
      [⟨.debug, .builder, "No source text for " ++ r.file ++ ", classifying whole file"⟩]
    | none, none => []
  opening ++ (b.sorted r).log

/-- What is reported of the outcome, more loudly where debugging is on. -/
def summaryRecord (b : Builder) (r : Read) : Log.Record :=
  let symbols := b.rendered r
  ⟨if b.config.debug then .info else .debug, .builder,
    "Built context for " ++ r.file ++ ": " ++ toString symbols.length ++ "/"
      ++ toString (b.candidates r.file).length ++ " symbols, " ++ toString (totalTokens symbols)
      ++ " tokens (budget " ++ (b.packing r).verdict ++ ")"⟩

def log (b : Builder) (r : Read) : List Log.Record :=
  let unread : List Log.Record := match b.source.text r.file with
    | .ok _ => []
    | .error _ => [⟨.warning, .builder, "Could not read source of " ++ r.file⟩]
  unread ++
    if b.skips r.file then [⟨.debug, .builder, "Skipping barrel file " ++ r.file⟩]
    else (b.walk r.file).log ++ b.tierLog r
      ++ [(b.packing r).record b.config.budget.maxTokens, b.summaryRecord r]

end Builder

end SignatureContext
