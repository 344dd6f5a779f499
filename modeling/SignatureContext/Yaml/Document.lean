import SignatureContext.Yaml.Graph
import SignatureContext.Yaml.Layout
import SignatureContext.Yaml.Scalar.Meaning

/-! The value of a document. Scalars have values at once, and collections are opened one after
another, outer ones first, so that cycles end and the first fault is found first. -/
namespace SignatureContext.Yaml

namespace Graph

def isMapping (g : Graph) (i : Nat) : Bool :=
  match g.node? i with
  | some ⟨_, .mapping _⟩ => true
  | _ => false

/-- The entries of a mapping, and none of anything else. -/
def entries (g : Graph) (i : Nat) : List (Nat × Nat) :=
  match g.node? i with
  | some ⟨_, .mapping es⟩ => es
  | _ => []

def tag? (g : Graph) (i : Nat) : Option Tag :=
  (g.node? i).map (·.tag)

def content? (g : Graph) (i : Nat) : Option Content :=
  (g.node? i).map (·.content)

def setEntries (g : Graph) (i : Nat) (es : List (Nat × Nat)) : Graph :=
  match g.node? i with
  | some n => g.set i { n with content := .mapping es }
  | none => g

def retag (g : Graph) (i : Nat) (tag : Tag) : Graph :=
  match g.node? i with
  | some n => g.set i { n with tag }
  | none => g

/-- Replaces the merge entries of a mapping, from an index on, by the entries of the mappings that
they name, in front of its own. Of several mappings that one entry names, the entries of the first
come last and so win. The key for a default is an ordinary text from now on. -/
def flatten : (fuel : Nat) → (g : Graph) → (i index : Nat) → (merged : List (Nat × Nat)) →
    Except Fault Graph
  | 0, _, _, _, _ => .error .malformed
  | fuel + 1, g, i, index, merged =>
    match (g.entries i)[index]? with
    | none => .ok (if merged.isEmpty then g else g.setEntries i (merged ++ g.entries i))
    | some (k, v) =>
      match g.tag? k with
      | some .merge =>
        let g := g.setEntries i ((g.entries i).eraseIdx index)
        match g.content? v with
        | some (.mapping _) => do
          let g ← flatten fuel g v 0 []
          flatten fuel g i index (merged ++ g.entries v)
        | some (.sequence items) => do
          let (g, named) ← items.foldlM (fun (acc : Graph × List (List (Nat × Nat))) j =>
            if acc.1.isMapping j then do
              let g ← flatten fuel acc.1 j 0 []
              pure (g, g.entries j :: acc.2)
            else .error .malformed) (g, [])
          flatten fuel g i index (merged ++ named.flatten)
        | _ => .error .malformed
      | some .value => flatten fuel (g.retag k .str) i (index + 1) merged
      | _ => flatten fuel g i (index + 1) merged

/-- More steps than flattening a mapping takes: each merge multiplies entries at most as often as
the document has nodes and entries. -/
def flattenFuel (g : Graph) : Nat :=
  let size (node : Node) : Nat := match node.content with
    | .mapping es => es.length + 1
    | .sequence items => items.length + 1
    | .scalar _ => 1
  let n := g.nodes.toList.foldr (fun node n => size node + n) 0
  Nat.pow (n + 2) (n + 2)

/-- The text of a scalar, or of the default entry of a mapping. A way longer than there are nodes
leads in a circle. -/
def text (g : Graph) : (fuel : Nat) → (i : Nat) → Except Fault String
  | 0, _ => .error .endless
  | fuel + 1, i =>
    match g.content? i with
    | some (.scalar s) => .ok s
    | some (.mapping es) =>
      match es.find? fun e => g.tag? e.1 == some .value with
      | some e => text g fuel e.2
      | none => .error .malformed
    | _ => .error .malformed

end Graph

/-- What a collection was opened to. -/
inductive Opened
  | list (items : List Nat)
  | pairs (entries : List (Nat × Nat))
  | set (members : List Nat)
  | map (entries : List (Nat × Nat))
deriving Repr

/-- The graph, the values of the scalars that have been met, the collections that have been met,
those of them that are still to be opened, last one first, and what the others were opened to. -/
structure Construction where
  graph : Graph
  scalars : List (Nat × Value) := []
  met : List Nat := []
  waiting : List Nat := []
  opened : List (Nat × Opened) := []

namespace Construction

/-- Meets a node: a scalar gets its value, and a collection waits, unless it has been met before. -/
def meet (c : Construction) (i : Nat) : Except Fault Construction :=
  match c.graph.tag? i with
  | none => .error .malformed
  | some tag =>
    if tag.isCollection then
      if c.met.contains i then .ok c
      else .ok { c with met := i :: c.met, waiting := i :: c.waiting }
    else if (c.scalars.lookup i).isSome then .ok c
    else do
      let text ← c.graph.text (c.graph.nodes.size + 1) i
      let value ← match tag, c.graph.isMapping i with
        | .timestamp, true => .error .notText
        | _, _ => Scalar.meaning tag text
      return { c with scalars := (i, value) :: c.scalars }

/-- A key and its value. A collection is no key. -/
def meetEntry (c : Construction) (e : Nat × Nat) : Except Fault Construction := do
  let c ← c.meet e.1
  if ((c.graph.tag? e.1).map Tag.isCollection).getD true then .error .malformed
  else c.meet e.2

/-- The only entries of mappings. -/
def singleEntries (g : Graph) (c : Construction) :
    List Nat → Except Fault (Construction × List (Nat × Nat))
  | [] => .ok (c, [])
  | i :: is =>
    match g.entries i with
    | [e] => do
      let c ← (← c.meet e.1).meet e.2
      let (c, es) ← singleEntries g c is
      return (c, e :: es)
    | _ => .error .malformed

def opening (c : Construction) (i : Nat) (o : Opened) : Construction :=
  { c with opened := (i, o) :: c.opened }

/-- Meets what is in a collection. -/
def unfold (c : Construction) (i : Nat) : Except Fault Construction :=
  let g := c.graph
  match g.node? i with
  | some ⟨.seq, .sequence items⟩ => return (← items.foldlM meet c).opening i (.list items)
  | some ⟨.omap, .sequence items⟩ | some ⟨.pairs, .sequence items⟩ => do
    let (c, es) ← singleEntries g c items
    return c.opening i (.pairs es)
  | some ⟨.map, .mapping _⟩ => do
    let g ← g.flatten g.flattenFuel i 0 []
    let es := g.entries i
    return (← es.foldlM meetEntry { c with graph := g }).opening i (.map es)
  | some ⟨.set, .mapping _⟩ => do
    let g ← g.flatten g.flattenFuel i 0 []
    let es := g.entries i
    return (← es.foldlM meetEntry { c with graph := g }).opening i (.set (es.map (·.1)))
  | _ => .error .malformed

/-- Opens the given collections in order, then those that were met meanwhile, and so on. -/
def openAll : (fuel : Nat) → (round : List Nat) → Construction → Except Fault Construction
  | 0, _, c => .ok c
  | _, [], c => .ok c
  | fuel + 1, round, c => do
    let c ← round.foldlM unfold c
    openAll fuel c.waiting.reverse { c with waiting := [] }

/-- The value of a node. Collections so many levels down are shown without what is in them. -/
def view (c : Construction) : (depth : Nat) → Nat → Value
  | 0, i => (c.scalars.lookup i).getD (.list [])
  | depth + 1, i =>
    match c.scalars.lookup i with
    | some v => v
    | none =>
      match c.opened.lookup i with
      | some (.list items) => .list (items.map (c.view depth))
      | some (.pairs es) => .list (es.map fun e => .list [c.view depth e.1, c.view depth e.2])
      | some (.set members) => .set (members.map (c.view depth))
      | some (.map es) => .map (es.map fun e => (c.view depth e.1, c.view depth e.2))
      | none => .list []

end Construction

/-- How many levels of a document settings can lie in: the document, its sections, and what stands
where a setting is expected. -/
def settingLevels : Nat := 3

/-- The value of a text that is a document of one node, or of none, down to the levels that settings
can lie in. -/
def load (cs : List Char) : Except Fault Value :=
  if !cs.all isReadable then .error .malformed
  else do
    let (graph, root) ← compose (events (tokens cs))
    match root with
    | none => return .null
    | some i =>
      let c ← Construction.meet { graph } i
      let c ← Construction.openAll (graph.nodes.size + 1) c.waiting.reverse { c with waiting := [] }
      return c.view settingLevels i

end SignatureContext.Yaml
