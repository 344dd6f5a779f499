import SignatureContext.Text.Quoted
import SignatureContext.Numeral.Shortest

/-! Values without a fixed shape: what a configuration document or a request field may hold. -/
namespace SignatureContext

/-- A value by its outermost layer. What it holds may be of any type, so it may be part of itself. A
timestamp carries no moment, because no setting is one. -/
inductive Layer (α : Type)
  | null
  | bool (b : Bool)
  | int (n : Int)
  | float (x : Float)
  | text (s : String)
  | bytes (content : List UInt8)
  | timestamp
  | list (items : List α)
  | set (members : List α)
  | map (entries : List (α × α))

/-- Whether the value counts as true: all do except the empty ones, the zeros and `null`. -/
def Layer.truthy {α : Type} : Layer α → Bool
  | null => false
  | bool b => b
  | int n => n != 0
  | float x => !(x == 0)
  | text s => s != ""
  | bytes content => !content.isEmpty
  | timestamp => true
  | list items => !items.isEmpty
  | set members => !members.isEmpty
  | map entries => !entries.isEmpty

/-- A value all of whose layers are known. -/
inductive Value
  | null
  | bool (b : Bool)
  | int (n : Int)
  | float (x : Float)
  | text (s : String)
  | bytes (content : List UInt8)
  | timestamp
  | list (items : List Value)
  | set (members : List Value)
  | map (entries : List (Value × Value))
deriving Inhabited

namespace Value

def layer : Value → Layer Value
  | null => .null
  | bool b => .bool b
  | int n => .int n
  | float x => .float x
  | text s => .text s
  | bytes content => .bytes content
  | timestamp => .timestamp
  | list items => .list items
  | set members => .set members
  | map entries => .map entries

/-- Whether the value counts as true. -/
def truthy (v : Value) : Bool :=
  v.layer.truthy

/-- Whether the value is the number `n`, in any of the numeric types. -/
def isNumber (n : Nat) : Value → Bool
  | bool b => b.toNat == n
  | int m => m == n
  | float x => x == Float.ofNat n
  | _ => false

/-- The last entry whose key is the given text. -/
def entry? (key : String) (entries : List (Value × Value)) : Option Value :=
  (entries.reverse.find? fun e => match e.1 with | text s => s == key | _ => false).map (·.2)

mutual
/-- The value as a message shows it. -/
def literal : Value → String
  | null => "None"
  | bool b => if b then "True" else "False"
  | int n => toString n
  | float x => Numeral.render x
  | text s => Text.quoted s
  | bytes content => Text.quotedBytes content
  | timestamp => "timestamp"
  | list items => "[" ++ literals items ++ "]"
  | set members => if members.isEmpty then "set()" else "\x7b" ++ literals members ++ "\x7d"
  | map entries => "\x7b" ++ entryLiterals entries ++ "\x7d"

def literals : List Value → String
  | [] => ""
  | [v] => literal v
  | v :: vs => literal v ++ ", " ++ literals vs

def entryLiterals : List (Value × Value) → String
  | [] => ""
  | [(k, v)] => literal k ++ ": " ++ literal v
  | (k, v) :: es => literal k ++ ": " ++ literal v ++ ", " ++ entryLiterals es
end

end Value

end SignatureContext
