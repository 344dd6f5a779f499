import SignatureContext.Import
import SignatureContext.Path

/-! Files registered by a host, and the source they make up. -/
namespace SignatureContext

/-- What is registered for a file, apart from its text. -/
structure Entry where
  symbols : List Symbol
  edges : List ImportEdge
deriving Repr, DecidableEq, Inhabited

/-- The registered files and their texts, by the normal forms of their paths. Only registered files
have texts. -/
structure Registry where
  entry? : String → Option Entry
  given? : String → Option String
  given_eq_none : ∀ path, entry? path = none → given? path = none

namespace Registry

def empty : Registry where
  entry? _ := none
  given? _ := none
  given_eq_none _ _ := rfl

def contains (r : Registry) (path : String) : Bool :=
  (r.entry? path).isSome

/-- The map with another value at one path. -/
def update {α : Type} (m : String → Option α) (path : String) (a : Option α) : String → Option α :=
  fun p => if p = path then a else m p

theorem update_eq_none {α β : Type} {m : String → Option α} {m' : String → Option β}
    (h : ∀ p, m p = none → m' p = none) {a : Option α} {b : Option β} (hab : a = none → b = none)
    (path p : String) : update m path a p = none → update m' path b p = none := by
  unfold update
  split
  · exact hab
  · exact h p

/-- Enters a file. A text that it has is replaced if there is another one, and stays if not. -/
def enter (r : Registry) (path : String) (e : Entry) (text : Option String) : Registry where
  entry? := update r.entry? path (some e)
  given? := match text with
    | some text => update r.given? path (some text)
    | none => r.given?
  given_eq_none p := by
    cases text with
    | some text =>
      have hnever : some e = none → some text = none := nofun
      exact update_eq_none r.given_eq_none hnever path p
    | none =>
      unfold update
      split
      · exact fun h => nomatch h
      · exact r.given_eq_none p

/-- Registers a file. One that is registered again without a text keeps the text it had. -/
def add (r : Registry) (path : String) (symbols : List Symbol) (imports : List ImportItem)
    (text : Option String) : Except Fault Registry := do
  let file := Path.normalize path
  let edges ← imports.mapM (ImportItem.edgeOf file)
  return r.enter file ⟨symbols, edges⟩ text

def remove (r : Registry) (path : String) : Registry where
  entry? := update r.entry? (Path.normalize path) none
  given? := update r.given? (Path.normalize path) none
  given_eq_none := update_eq_none r.given_eq_none (fun _ => rfl) (Path.normalize path)

/-- The endings that a specifier may leave out, in the order in which they are tried. -/
def endings : List String :=
  [".ts", ".tsx", ".mts", ".cts", ".d.ts", ".js", ".jsx", ".svelte"]

/-- The paths that a specifier in a file may mean: as written, with an ending, or the index file of
a directory. -/
def candidates (file specifier : String) : List String :=
  let base := Path.normalize (Path.join (Path.dirname file) specifier)
  base :: endings.map (base ++ ·) ++ endings.map (Path.join base <| "index" ++ ·)

/-- The registered file that a specifier in a file means. -/
def resolve? (r : Registry) (file specifier : String) : Option String :=
  (candidates file specifier).find? r.contains

/-- The edge with its target looked up, if it is relative and has none. -/
def complete (r : Registry) (file : String) (e : ImportEdge) : ImportEdge :=
  if e.target?.isSome || !e.relative then e
  else { e with target := r.resolve? file e.specifier }

def extract (r : Registry) (path : String) : Except Fault Extraction :=
  let file := Path.normalize path
  match r.entry? file with
  | none => .error (.notFound path)
  | some e => .ok ⟨file, e.symbols, e.edges.map (r.complete file)⟩

def text? (r : Registry) (path : String) : Option String :=
  r.given? (Path.normalize path)

/-- The registry as a source, on which the extractor fails for some files and reading for some. -/
def source (r : Registry) (crashing locked : List String) : Source where
  extract path := if Path.normalize path ∈ crashing then .error .crashed else r.extract path
  text path := if Path.normalize path ∈ locked then .error .denied else .ok (r.text? path)

end Registry

end SignatureContext
