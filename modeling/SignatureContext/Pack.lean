import SignatureContext.Tier
import SignatureContext.Log

/-! The choice of declarations under a budget of tokens. -/
namespace SignatureContext

/-- What has been chosen so far, in order, with its tokens and how many come from each tier, and
whether anything was left out for the budget. -/
structure Load (α : Type) where
  items : List α
  total : Nat
  exceeded : Bool
  counts : PerTier Nat
deriving Repr, DecidableEq, Inhabited

/-- The choice for one request. -/
structure Packing (α : Type) extends Load α where
  excluded : Nat
deriving Repr, DecidableEq, Inhabited

variable {α : Type} [Declares α]

namespace Load

/-- A budget that is not positive is exceeded from the start. -/
def start (budget : Int) : Load α :=
  ⟨[], 0, budget ≤ 0, PerTier.ofFn fun _ => 0⟩

def keys (l : Load α) : List (Option String × String) :=
  l.items.map fun a => (symbol a).key

/-- Whether the budget still has room for so many tokens. -/
def room (l : Load α) (budget : Int) (tokens : Nat) : Bool :=
  0 < budget && ((l.total + tokens : Nat) : Int) ≤ budget

/-- Offers one declaration. A key is taken once, functions of the first tier always, others if there
is room for them. -/
def offer (budget : Int) (l : Load α) (ranked : Tier × α) : Load α :=
  let (t, a) := ranked
  let tokens := (symbol a).tokens
  if l.keys.contains (symbol a).key then l
  else if t = .functions || l.room budget tokens then
    { l with
      items := l.items ++ [a]
      total := l.total + tokens
      counts := l.counts.modify t (· + 1) }
  else { l with exceeded := true }

end Load

/-- Offers everything in the order of tiers. What does not fit is passed over, and something smaller
behind it may still fit. -/
def pack (budget : Int) (b : Buckets α) : Packing α :=
  let load := b.ranked.foldl (Load.offer budget) (Load.start budget)
  { load with excluded := b.count - load.items.length }

namespace Packing

/-- The word for whether the budget was exceeded. -/
def verdict (p : Packing α) : String :=
  if p.exceeded then "exceeded" else "ok"

def record (p : Packing α) (budget : Int) : Log.Record :=
  ⟨.debug, .packer, "Packer: " ++ toString p.items.length ++ "/"
    ++ toString (p.items.length + p.excluded) ++ " symbols included, " ++ toString p.total ++ "/"
    ++ toString budget ++ " tokens (budget " ++ p.verdict ++ ")"⟩

end Packing

end SignatureContext
