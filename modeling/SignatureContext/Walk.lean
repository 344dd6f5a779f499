import SignatureContext.Import
import SignatureContext.Path
import SignatureContext.Log

/-! The walk along relative imports, which expands each file at most once. -/
namespace SignatureContext

/-- How imports are followed: from which source, how far, whether for types alone, and to which root
origins are relative, in which present directory. -/
structure Resolver where
  source : Source
  maxDepth : Nat
  typeOnly : Bool
  root : String
  cwd : Path.Directory

/-- What happened to a file or to an import on the way. -/
inductive WalkEvent
  | entryFailed (file : String)
  | typeOnlySkipped (specifier : String)
  | unresolved (specifier file : String)
  | reached (specifier target : String) (depth : Int)
  | failed (specifier target : String)
deriving Repr, DecidableEq

/-- How far a walk has come: the files it has visited, the declarations it has found, what happened
and the files it has handed to the extractor, each in order. -/
structure Walk where
  visited : List String
  symbols : List Symbol := []
  events : List WalkEvent := []
  extracted : List String := []
deriving Repr, DecidableEq

namespace Walk

def visit (w : Walk) (file : String) : Walk :=
  if file ∈ w.visited then w else { w with visited := w.visited ++ [file] }

def note (w : Walk) (event : WalkEvent) : Walk :=
  { w with events := w.events ++ [event] }

def collect (w : Walk) (symbols : List Symbol) : Walk :=
  { w with symbols := w.symbols ++ symbols }

end Walk

theorem Walk.mem_visited_visit {w : Walk} {file p : String} :
    p ∈ (w.visit file).visited ↔ p ∈ w.visited ∨ p = file := by
  unfold Walk.visit
  split
  · rename_i h
    constructor
    · exact Or.inl
    · rintro (hp | rfl)
      · exact hp
      · exact h
  · simp

namespace Resolver

/-- Hands a file to the extractor, which is recorded whatever comes of it. -/
def extract (r : Resolver) (w : Walk) (file : String) : Except Fault Extraction × Walk :=
  (r.source.extract file, { w with extracted := w.extracted ++ [file] })

/-- The declarations of a file that an import admits, as they are found `depth` hops away. -/
def brought (r : Resolver) (e : ImportEdge) (target : String) (depth : Int)
    (symbols : List Symbol) : List Symbol :=
  (symbols.filter e.admits).map (·.found (Path.relative r.cwd r.root target) depth)

/-- One import of a file at `depth` hops. The target is marked as visited before its own imports
are followed, so a cycle ends where it closes. -/
def step (r : Resolver) (depth : Int) (descend : List ImportEdge → Walk → Walk) (w : Walk)
    (e : ImportEdge) : Walk :=
  if !e.relative then w
  else if e.typeOnly && !r.typeOnly then w.note (.typeOnlySkipped e.specifier)
  else match e.target? with
    | none => w.note (.unresolved e.specifier e.source)
    | some path =>
      let target := Path.normalize path
      if target ∈ w.visited then w
      else
        let w := (w.visit target).note (.reached e.specifier target (depth + 1))
        match r.extract w target with
        | (.error _, w) => w.note (.failed e.specifier target)
        | (.ok x, w) => descend x.edges (w.collect (r.brought e target (depth + 1) x.symbols))

/-- Follows the imports of a file at `depth` hops, for as many hops as remain. -/
def follow (r : Resolver) : (remaining : Nat) → (depth : Int) → List ImportEdge → Walk → Walk
  | 0, _, _, w => w
  | remaining + 1, depth, edges, w =>
    edges.foldl (r.step depth (r.follow remaining (depth + 1))) w

/-- Follows imports of a file that sits at any depth. -/
def resolveImports (r : Resolver) (edges : List ImportEdge) (depth : Int)
    (visited : List String) : Walk :=
  r.follow ((r.maxDepth : Int) - depth).toNat depth edges { visited }

/-- The declarations of an entry file as they are, then those that its imports bring in. -/
def resolve (r : Resolver) (file : String) (visited : List String) : Walk :=
  let entry := Path.normalize file
  match r.extract (Walk.visit { visited } entry) entry with
  | (.error _, w) => w.note (.entryFailed entry)
  | (.ok x, w) => r.follow r.maxDepth 0 x.edges (w.collect x.symbols)

end Resolver

namespace WalkEvent

def record : WalkEvent → Log.Record
  | entryFailed file => ⟨.warning, .resolver, "Could not extract entry file " ++ file⟩
  | typeOnlySkipped specifier => ⟨.debug, .resolver, "Skipping type-only import " ++ specifier⟩
  | unresolved specifier file =>
    ⟨.warning, .resolver, "Could not resolve import " ++ specifier ++ " from " ++ file⟩
  | reached specifier target depth =>
    ⟨.debug, .resolver, "Resolving import: " ++ specifier ++ " -> " ++ target ++ " (depth "
      ++ toString depth ++ ")"⟩
  | failed specifier target =>
    ⟨.warning, .resolver, "Error resolving import " ++ specifier ++ " -> " ++ target⟩

end WalkEvent

def Walk.log (w : Walk) : List Log.Record :=
  w.events.map WalkEvent.record

/-- The files that a walk from an entry file hands to the extractor, in order. -/
def Resolver.attempts (r : Resolver) (file : String) (visited : List String) : List String :=
  (r.resolve file visited).extracted

end SignatureContext
