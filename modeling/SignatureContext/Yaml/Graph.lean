import SignatureContext.Yaml.Event
import SignatureContext.Yaml.Schema

/-! The nodes of a document. An alias is another way to the same node, so that they form a graph,
which may have cycles. -/
namespace SignatureContext.Yaml

inductive Content
  | scalar (text : String)
  | sequence (items : List Nat)
  | mapping (entries : List (Nat × Nat))
deriving Repr, DecidableEq, Inhabited

structure Node where
  tag : Tag
  content : Content
deriving Repr, DecidableEq, Inhabited

/-- The nodes by their numbers. -/
structure Graph where
  nodes : Array Node := #[]
deriving Repr

namespace Graph

def node? (g : Graph) (i : Nat) : Option Node :=
  g.nodes[i]?

def push (g : Graph) (n : Node) : Graph :=
  ⟨g.nodes.push n⟩

def set (g : Graph) (i : Nat) (n : Node) : Graph :=
  ⟨g.nodes.setIfInBounds i n⟩

end Graph

/-- A collection whose nodes are still being read, last one first. -/
structure OpenNode where
  number : Nat
  tag : Tag
  isMapping : Bool
  children : List Nat

/-- Neighbours in pairs. -/
def pairUp : List Nat → List (Nat × Nat)
  | k :: v :: rest => (k, v) :: pairUp rest
  | _ => []

/-- What has been read of a document: its nodes, the numbers that anchors stand for, the
collections that are open, innermost first, and the number of the outermost node. -/
structure Composition where
  graph : Graph := {}
  anchors : List (String × Nat) := []
  pending : List OpenNode := []
  root : Option Nat := none
  documents : Nat := 0

namespace Composition

/-- Puts a node that is complete where it belongs. -/
def attach (c : Composition) (i : Nat) : Composition :=
  match c.pending with
  | [] => { c with root := some i }
  | o :: os => { c with pending := { o with children := i :: o.children } :: os }

/-- A new node with its anchor, which no other node has. -/
def add (c : Composition) (p : Properties) (n : Node) : Except Fault (Nat × Composition) :=
  let i := c.graph.nodes.size
  match p.anchor with
  | none => .ok (i, { c with graph := c.graph.push n })
  | some a =>
    if (c.anchors.lookup a).isSome then .error .malformed
    else .ok (i, { c with graph := c.graph.push n, anchors := (a, i) :: c.anchors })

def tagOf (p : Properties) (default : Tag) : Tag :=
  match p.tag with
  | some name => if name = "!" then default else .ofName name
  | none => default

def start (c : Composition) (p : Properties) (isMapping : Bool) : Except Fault Composition := do
  let tag := tagOf p (if isMapping then .map else .seq)
  let (number, c) ← c.add p ⟨tag, if isMapping then .mapping [] else .sequence []⟩
  return { c with pending := { number, tag, isMapping, children := [] } :: c.pending }

def finish (c : Composition) : Composition :=
  match c.pending with
  | [] => c
  | o :: os =>
    let children := o.children.reverse
    let content := if o.isMapping then .mapping (pairUp children) else .sequence children
    attach { c with pending := os, graph := c.graph.set o.number ⟨o.tag, content⟩ } o.number

/-- One event. There is one document at most. -/
def step (c : Composition) : Event → Except Fault Composition
  | .documentStart =>
    if c.documents = 0 then .ok { c with documents := 1 } else .error .malformed
  | .documentEnd => .ok c
  | .streamEnd => .ok c
  | .alias name =>
    match c.anchors.lookup name with
    | some i => .ok (c.attach i)
    | none => .error .malformed
  | .scalar p implicitTag text => do
    let tag := if implicitTag then Tag.ofText text else tagOf p .str
    let (i, c) ← c.add p ⟨tag, .scalar text⟩
    return c.attach i
  | .sequenceStart p => c.start p false
  | .mappingStart p => c.start p true
  | .sequenceEnd => .ok c.finish
  | .mappingEnd => .ok c.finish

end Composition

/-- The nodes of a document and the outermost one, if there is a document. -/
def compose (s : Stream Event) : Except Fault (Graph × Option Nat) := do
  let c ← s.items.foldlM Composition.step {}
  match s.stop with
  | some fault => .error fault
  | none => return (c.graph, c.root)

end SignatureContext.Yaml
