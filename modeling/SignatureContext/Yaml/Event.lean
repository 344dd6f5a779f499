import SignatureContext.Yaml.Token

/-! The nodes of a document as they start and end, from its tokens. -/
namespace SignatureContext.Yaml

/-- What is said of a node in front of it. -/
structure Properties where
  anchor : Option String := none
  tag : Option String := none
deriving Repr, DecidableEq, Inhabited

/-- Whether the tag of the node is left open. -/
def Properties.openTag (p : Properties) : Bool :=
  p.tag == none || p.tag == some "!"

inductive Event
  | documentStart
  | documentEnd
  | streamEnd
  | alias (name : String)
  /-- Where the tag is implicit, the text decides it. -/
  | scalar (p : Properties) (implicitTag : Bool) (text : String)
  | sequenceStart (p : Properties)
  | sequenceEnd
  | mappingStart (p : Properties)
  | mappingEnd
deriving Repr, DecidableEq

/-- What is to be read next. A node in a block may be a block collection, and a sequence may have no
indentation of its own where it is the key or the value of a mapping. -/
inductive Goal
  | stream
  | document
  | content
  | documentEnd
  | node (block bare : Bool)
  | blockSequence
  | bareSequence
  | blockKey
  | blockValue
  | flowSequence (first : Bool)
  | pairKey
  | pairValue
  | pairEnd
  | flowKey (first : Bool)
  | flowValue
  | flowNoValue
deriving Repr, DecidableEq

/-- Why nothing was read: a token is needed and there is none, or the one that is there does not
fit. -/
inductive Halt
  | starved
  | misplaced
deriving Repr, DecidableEq

/-- The tokens that are left, and what the handles of tags stand for. -/
structure Reader where
  tokens : List Token
  handles : List (String × String)

/-- What a goal turns into: events, and the goals that take its place. -/
structure Progress where
  events : List Event
  goals : List Goal
  reader : Reader

def standardHandles : List (String × String) :=
  [("!", "!"), ("!!", "tag:yaml.org,2002:")]

def emptyScalar : Event :=
  .scalar {} true ""

namespace Reader

def peek (r : Reader) : Except Halt Token :=
  match r.tokens with
  | [] => .error .starved
  | t :: _ => .ok t

def pop (r : Reader) : Reader :=
  { r with tokens := r.tokens.tail }

/-- The tag that a handle and a suffix stand for. -/
def tag (r : Reader) (handle : Option String) (suffix : String) : Except Halt String :=
  match handle with
  | none => .ok suffix
  | some h =>
    match r.handles.lookup h with
    | some stem => .ok (stem ++ suffix)
    | none => .error .misplaced

/-- An anchor and a tag, in either order, or one of them or none. -/
def properties (r : Reader) : Except Halt (Properties × Reader) := do
  match ← r.peek with
  | .anchor a =>
    match ← r.pop.peek with
    | .tag h s => return (⟨some a, some (← r.tag h s)⟩, r.pop.pop)
    | _ => return (⟨some a, none⟩, r.pop)
  | .tag h s =>
    match ← r.pop.peek with
    | .anchor a => return (⟨some a, some (← r.tag h s)⟩, r.pop.pop)
    | _ => return (⟨none, some (← r.tag h s)⟩, r.pop)
  | _ => return ({}, r)

/-- The directives in front of a document: at most one version, whose first number is one, and at
most one meaning for a handle. -/
def directives : (tokens : List Token) → (version : Bool) → (handles : List (String × String)) →
    Except Halt Reader
  | [], _, _ => .error .starved
  | .directive (.version major _) :: ts, version, handles =>
    if version ∨ major ≠ 1 then .error .misplaced else directives ts true handles
  | .directive (.tag h stem) :: ts, version, handles =>
    if (handles.lookup h).isSome then .error .misplaced
    else directives ts version ((h, stem) :: handles)
  | .directive .reserved :: ts, version, handles => directives ts version handles
  | ts, _, handles => .ok ⟨ts, handles ++ standardHandles⟩

end Reader

namespace Goal

/-- A node, unless the next token is one of those in front of which it may be left out. -/
def optionalNode (r : Reader) (ends : List Token) (kind : Goal) (after : Goal) :
    Except Halt Progress := do
  if ends.contains (← r.peek) then return ⟨[emptyScalar], [after], r⟩
  else return ⟨[], [kind, after], r⟩

def readNode (block bare : Bool) (r : Reader) : Except Halt Progress := do
  match ← r.peek with
  | .alias name => return ⟨[.alias name], [], r.pop⟩
  | _ =>
    let (p, r) ← r.properties
    match ← r.peek with
    | .scalar text plain =>
      let implicitTag := (plain && p.tag == none) || p.tag == some "!"
      return ⟨[.scalar p implicitTag text], [], r.pop⟩
    | .flowSequenceStart => return ⟨[.sequenceStart p], [.flowSequence true], r.pop⟩
    | .flowMappingStart => return ⟨[.mappingStart p], [.flowKey true], r.pop⟩
    | t =>
      if bare ∧ t = .blockEntry then return ⟨[.sequenceStart p], [.bareSequence], r⟩
      else if block ∧ t = .blockSequenceStart then
        return ⟨[.sequenceStart p], [.blockSequence], r.pop⟩
      else if block ∧ t = .blockMappingStart then return ⟨[.mappingStart p], [.blockKey], r.pop⟩
      else if p.anchor.isSome ∨ p.tag.isSome then return ⟨[.scalar p p.openTag ""], [], r⟩
      else .error .misplaced

/-- The entries of a flow collection up to its end, with commas between them. -/
def readFlow (first : Bool) (closing : Token) (ended : Event)
    (entry : Reader → Except Halt Progress) (r : Reader) : Except Halt Progress := do
  let t ← r.peek
  if t = closing then return ⟨[ended], [], r.pop⟩
  else
    let r ← if first then pure r else if t = .flowEntry then pure r.pop else .error .misplaced
    if (← r.peek) = closing then return ⟨[ended], [], r.pop⟩ else entry r

def read (r : Reader) : Goal → Except Halt Progress
  | stream => do
    match ← r.peek with
    | .directive _ | .documentStart | .streamEnd => return ⟨[], [document], r⟩
    | _ =>
      return ⟨[.documentStart], [node true false, documentEnd, document],
        ⟨r.tokens, standardHandles⟩⟩
  | document => do
    let r : Reader := { r with tokens := r.tokens.dropWhile (· == .documentEnd) }
    match ← r.peek with
    | .streamEnd => return ⟨[.streamEnd], [], r.pop⟩
    | _ =>
      let r ← Reader.directives r.tokens false []
      if (← r.peek) = .documentStart then
        return ⟨[.documentStart], [content, documentEnd, document], r.pop⟩
      else .error .misplaced
  | content => do
    match ← r.peek with
    | .directive _ | .documentStart | .documentEnd | .streamEnd => return ⟨[emptyScalar], [], r⟩
    | _ => return ⟨[], [node true false], r⟩
  | documentEnd => do
    return ⟨[.documentEnd], [], if (← r.peek) = .documentEnd then r.pop else r⟩
  | node block bare => readNode block bare r
  | blockSequence => do
    match ← r.peek with
    | .blockEntry => optionalNode r.pop [.blockEntry, .blockEnd] (node true false) blockSequence
    | .blockEnd => return ⟨[.sequenceEnd], [], r.pop⟩
    | _ => .error .misplaced
  | bareSequence => do
    match ← r.peek with
    | .blockEntry =>
      optionalNode r.pop [.blockEntry, .key, .value, .blockEnd] (node true false) bareSequence
    | _ => return ⟨[.sequenceEnd], [], r⟩
  | blockKey => do
    match ← r.peek with
    | .key => optionalNode r.pop [.key, .value, .blockEnd] (node true true) blockValue
    | .blockEnd => return ⟨[.mappingEnd], [], r.pop⟩
    | _ => .error .misplaced
  | blockValue => do
    match ← r.peek with
    | .value => optionalNode r.pop [.key, .value, .blockEnd] (node true true) blockKey
    | _ => return ⟨[emptyScalar], [blockKey], r⟩
  | flowSequence first =>
    readFlow first .flowSequenceEnd .sequenceEnd (fun r => do
      match ← r.peek with
      | .key => return ⟨[.mappingStart {}], [pairKey, flowSequence false], r⟩
      | _ => return ⟨[], [node false false, flowSequence false], r⟩) r
  | pairKey =>
    optionalNode r.pop [.value, .flowEntry, .flowSequenceEnd] (node false false) pairValue
  | pairValue => do
    match ← r.peek with
    | .value => optionalNode r.pop [.flowEntry, .flowSequenceEnd] (node false false) pairEnd
    | _ => return ⟨[emptyScalar], [pairEnd], r⟩
  | pairEnd => return ⟨[.mappingEnd], [], r⟩
  | flowKey first =>
    readFlow first .flowMappingEnd .mappingEnd (fun r => do
      match ← r.peek with
      | .key =>
        optionalNode r.pop [.value, .flowEntry, .flowMappingEnd] (node false false) flowValue
      | _ => return ⟨[], [node false false, flowNoValue], r⟩) r
  | flowValue => do
    match ← r.peek with
    | .value => optionalNode r.pop [.flowEntry, .flowMappingEnd] (node false false) (flowKey false)
    | _ => return ⟨[emptyScalar], [flowKey false], r⟩
  | flowNoValue => return ⟨[emptyScalar], [flowKey false], r⟩

end Goal

/-- The events that goals lead to, one goal after another. -/
def Event.run (stop : Option Fault) : (fuel : Nat) → List Goal → Reader → Stream Event
  | 0, _, _ => ⟨[], some .malformed⟩
  | _, [], _ => ⟨[], none⟩
  | fuel + 1, goal :: goals, r =>
    match goal.read r with
    | .error .starved => ⟨[], some (stop.getD .malformed)⟩
    | .error .misplaced => ⟨[], some .malformed⟩
    | .ok p =>
      let rest := Event.run stop fuel (p.goals ++ goals) p.reader
      ⟨p.events ++ rest.items, rest.stop⟩

/-- The events of a stream of tokens. Each token leads to a few goals at most. -/
def events (s : Stream Token) : Stream Event :=
  Event.run s.stop (8 * (s.items.length + 2)) [.stream] ⟨s.items, standardHandles⟩

end SignatureContext.Yaml
