import SignatureContext.Context
import SignatureContext.Registry

/-! A host's dealings with its registered files, one request after another. -/
namespace SignatureContext

/-- The registered files, those on which the extractor fails, those that cannot be read, and the
files that were extracted, in order. -/
structure Session where
  registry : Registry := .empty
  crashing : List String := []
  locked : List String := []
  extracted : List String := []

/-- How imports are followed in a request, and the present directory. -/
structure Following where
  maxDepth : Int := 4
  typeOnly : Bool := true
  root : Option String := none
  cwd : Path.Directory := .top
  visited : List String := []
deriving Repr, DecidableEq

inductive Request
  | add (path : String) (symbols : List Symbol) (imports : List ImportItem) (text : Option String)
  | remove (path : String)
  | extract (path : String)
  | read (path : String)
  | locate (file specifier : String)
  | history
  | resolve (path : String) (following : Following)
  | resolveImports (edges : List ImportEdge) (depth : Int) (following : Following)
  | build (read : Read) (config : Config) (root : Option String) (cwd : Path.Directory)
    (scan : Scanner)

/-- What a request is answered with. The last two list the files extracted for it. -/
inductive Answer
  | done
  | extraction (x : Extraction)
  | text (text : Option String)
  | target (target : Option String)
  | history (extracted : List String)
  | walk (w : Walk) (extracted : List String)
  | context (c : Context) (extracted : List String)

namespace Session

def source (s : Session) : Source :=
  s.registry.source s.crashing s.locked

/-- The files among those attempted on which the extractor did not fail. -/
def survivors (s : Session) (attempts : List String) : List String :=
  attempts.filter (!s.crashing.contains ·)

/-- The session after more files were extracted. -/
def extracting (s : Session) (files : List String) : Session :=
  { s with extracted := s.extracted ++ files }

def resolver (s : Session) (f : Following) : Resolver where
  source := s.source
  maxDepth := f.maxDepth.toNat
  typeOnly := f.typeOnly
  root := rootOf f.cwd f.root
  cwd := f.cwd

/-- The session after a request, the answer or what went wrong, and what was reported. -/
structure Outcome where
  session : Session
  answer : Except Fault Answer
  log : List Log.Record := []

/-- Answers with a walk and the files that were extracted for it. -/
def answerWalk (s : Session) (w : Walk) : Outcome :=
  let files := s.survivors w.extracted
  ⟨s.extracting files, .ok (.walk w files), w.log⟩

def answer (s : Session) : Request → Outcome
  | .add path symbols imports text =>
    match s.registry.add path symbols imports text with
    | .ok registry => { session := { s with registry }, answer := .ok .done }
    | .error fault => { session := s, answer := .error fault }
  | .remove path =>
    { session := { s with registry := s.registry.remove path }, answer := .ok .done }
  | .extract path =>
    { session := s.extracting (s.survivors [Path.normalize path])
      answer := (s.source.extract path).map .extraction }
  | .read path => { session := s, answer := (s.source.text path).map .text }
  | .locate file specifier =>
    { session := s, answer := .ok (.target (s.registry.resolve? file specifier)) }
  | .history => { session := s, answer := .ok (.history s.extracted) }
  | .resolve path f => s.answerWalk ((s.resolver f).resolve path f.visited)
  | .resolveImports edges depth f =>
    s.answerWalk ((s.resolver f).resolveImports edges depth f.visited)
  | .build read config root cwd scan =>
    let b : Builder := ⟨s.source, config, rootOf cwd root, cwd, scan⟩
    let files := s.survivors (b.attempts read)
    ⟨s.extracting files, .ok (.context (b.build read) files), b.log read⟩

end Session

end SignatureContext
