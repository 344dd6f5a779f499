import SignatureContext.Value

/-! Declarations, and the record that shows one. -/
namespace SignatureContext

/-- The sorts of declarations. -/
inductive Kind
  | function
  | typeAlias
  | interface
  | enumeration
  | classType
  | constant
deriving Repr, DecidableEq, Inhabited

namespace Kind

def all : List Kind :=
  [function, typeAlias, interface, enumeration, classType, constant]

def name : Kind → String
  | function => "function"
  | typeAlias => "type"
  | interface => "interface"
  | enumeration => "enum"
  | classType => "class"
  | constant => "const"

/-- The kind of that name. -/
def ofName? (s : String) : Option Kind :=
  all.find? (·.name == s)

def ofValue? : Value → Option Kind
  | .text s => ofName? s
  | _ => none

end Kind

/-- One declaration. A declaration of the file being read has no origin. -/
structure Symbol where
  kind : Kind
  name : String
  signature : String
  documentation : Option String := none
  exported : Bool := false
  origin : Option String := none
  depth : Option Int := none
  lineStart : Option Int := none
  lineEnd : Option Int := none
deriving Repr, DecidableEq, Inhabited

namespace Symbol

def isFunction (s : Symbol) : Bool :=
  s.kind == .function

def imported (s : Symbol) : Bool :=
  s.origin.isSome

/-- Names are unique within a file only. -/
def key (s : Symbol) : Option String × String :=
  (s.origin, s.name)

/-- The characters that a rendering of the declaration takes, separators included. -/
def chars (s : Symbol) : Nat :=
  s.signature.length + 10 + (s.documentation.getD "").length

/-- Four characters make a token, and a started token counts. -/
def tokens (s : Symbol) : Nat :=
  (s.chars + 3) / 4

theorem tokens_pos (s : Symbol) : 0 < s.tokens := by
  unfold tokens chars
  omega

/-- The declaration as it is found in a file `depth` hops away. -/
def found (s : Symbol) (origin : String) (depth : Int) : Symbol :=
  { s with origin := some origin, depth := some depth }

/-- The fields shown for a declaration: those without content are left out. -/
def record (s : Symbol) : List (String × Value) :=
  let number (n : Option Int) : Value := (n.map Value.int).getD .null
  [("kind", .text s.kind.name), ("name", .text s.name), ("signature", .text s.signature),
    ("exported", .bool s.exported)]
  ++ (match s.documentation with
    | some d => if d = "" then [] else [("documentation", .text d)]
    | none => [])
  ++ (match s.origin with
    | some o => [("origin_path", .text o), ("import_depth", number s.depth)]
    | none => [])
  ++ (if s.lineStart.isSome then [("line_start", number s.lineStart)] else [])
  ++ (if s.lineEnd.isSome then [("line_end", number s.lineEnd)] else [])

end Symbol

/-- The tokens of all the declarations together. -/
def totalTokens (symbols : List Symbol) : Nat :=
  symbols.foldr (fun s n => s.tokens + n) 0

@[simp] theorem totalTokens_nil : totalTokens [] = 0 := rfl

@[simp] theorem totalTokens_cons (s : Symbol) (symbols : List Symbol) :
    totalTokens (s :: symbols) = s.tokens + totalTokens symbols := rfl

@[simp] theorem totalTokens_append (l l' : List Symbol) :
    totalTokens (l ++ l') = totalTokens l + totalTokens l' := by
  induction l with
  | nil => simp
  | cons s l ih => simp [ih, Nat.add_assoc]

end SignatureContext
