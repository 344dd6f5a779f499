import SignatureContext.Symbol
import SignatureContext.Fault

/-! The five tiers of importance, and what is kept for each of them. -/
namespace SignatureContext

/-- In the order of importance. -/
inductive Tier
  /-- The functions themselves. -/
  | functions
  /-- What the signatures of functions refer to. -/
  | signatureTypes
  /-- What the signatures of those refer to. -/
  | dependencies
  /-- Everything else in the file being read. -/
  | native
  /-- Everything else that imports bring in. -/
  | imported
deriving Repr, DecidableEq, Inhabited

namespace Tier

def all : List Tier :=
  [functions, signatureTypes, dependencies, native, imported]

def number : Tier → Nat
  | functions => 1
  | signatureTypes => 2
  | dependencies => 3
  | native => 4
  | imported => 5

def label : Tier → String
  | functions => "functions"
  | signatureTypes => "signature_types"
  | dependencies => "dependencies"
  | native => "local"
  | imported => "imported"

theorem mem_all (t : Tier) : t ∈ all := by
  cases t <;> decide

def ofValue? (v : Value) : Option Tier :=
  all.find? fun t => v.isNumber t.number

def ofValue (v : Value) : Except Fault Tier :=
  match ofValue? v with
  | some t => .ok t
  | none => .error (.unknownTier v)

end Tier

/-- One thing for each tier. -/
structure PerTier (β : Type) where
  functions : β
  signatureTypes : β
  dependencies : β
  native : β
  imported : β
deriving Repr, DecidableEq, Inhabited

namespace PerTier

variable {β : Type}

def get (p : PerTier β) : Tier → β
  | .functions => p.functions
  | .signatureTypes => p.signatureTypes
  | .dependencies => p.dependencies
  | .native => p.native
  | .imported => p.imported

def ofFn (f : Tier → β) : PerTier β :=
  ⟨f .functions, f .signatureTypes, f .dependencies, f .native, f .imported⟩

def modify (p : PerTier β) (t : Tier) (f : β → β) : PerTier β :=
  ofFn fun u => if u = t then f (p.get u) else p.get u

def toList (p : PerTier β) : List β :=
  Tier.all.map p.get

@[simp] theorem get_ofFn (f : Tier → β) (t : Tier) : (ofFn f).get t = f t := by
  cases t <;> rfl

@[simp] theorem ofFn_get (p : PerTier β) : ofFn p.get = p := rfl

@[simp] theorem get_modify (p : PerTier β) (t u : Tier) (f : β → β) :
    (p.modify t f).get u = if u = t then f (p.get u) else p.get u := by
  simp [modify]

theorem ext_get {p q : PerTier β} (h : ∀ t, p.get t = q.get t) : p = q := by
  rw [← ofFn_get p, ← ofFn_get q, funext h]

end PerTier

/-- Whatever carries a declaration. -/
class Declares (α : Type) where
  symbol : α → Symbol

export Declares (symbol)

instance : Declares Symbol := ⟨id⟩

/-- A declaration at its place in a list: equal declarations at two places are two. -/
structure Occurrence where
  index : Nat
  symbol : Symbol
deriving Repr, DecidableEq, Inhabited

instance : Declares Occurrence := ⟨Occurrence.symbol⟩

/-- Numbers the declarations of a list from zero. -/
def occurrences (symbols : List Symbol) : List Occurrence :=
  symbols.zipIdx.map fun p => ⟨p.2, p.1⟩

/-- The declarations of each tier, each bucket in order. -/
abbrev Buckets (α : Type) := PerTier (List α)

namespace Buckets

variable {α : Type}

def empty : Buckets α :=
  PerTier.ofFn fun _ => []

def add (b : Buckets α) (t : Tier) (a : α) : Buckets α :=
  b.modify t (· ++ [a])

/-- Empties the buckets of the given tiers. -/
def drop (b : Buckets α) (tiers : List Tier) : Buckets α :=
  PerTier.ofFn fun t => if t ∈ tiers then [] else b.get t

@[simp] theorem get_drop (b : Buckets α) (tiers : List Tier) (t : Tier) :
    (b.drop tiers).get t = if t ∈ tiers then [] else b.get t := by
  simp [drop]

/-- How many declarations there are in all tiers together. -/
def count (b : Buckets α) : Nat :=
  b.toList.foldr (fun items n => items.length + n) 0

/-- Everything with its tier, in the order of tiers and then of buckets. -/
def ranked (b : Buckets α) : List (Tier × α) :=
  Tier.all.flatMap fun t => (b.get t).map (t, ·)

theorem mem_ranked {b : Buckets α} {t : Tier} {a : α} : (t, a) ∈ b.ranked ↔ a ∈ b.get t := by
  constructor
  · intro h
    obtain ⟨u, -, hu⟩ := List.mem_flatMap.1 h
    obtain ⟨x, hx, hxa⟩ := List.mem_map.1 hu
    cases hxa
    exact hx
  · intro h
    exact List.mem_flatMap.2 ⟨t, t.mem_all, List.mem_map.2 ⟨a, h, rfl⟩⟩

/-- The count is the length of everything put in one list. -/
theorem length_ranked (b : Buckets α) : b.ranked.length = b.count := by
  simp [ranked, count, PerTier.toList, Tier.all]

def names [Declares α] (b : Buckets α) (t : Tier) : List String :=
  (b.get t).map fun a => (symbol a).name

/-- The first tier that holds something of that kind. -/
def tierOf? (p : α → Bool) (b : Buckets α) : Option Tier :=
  Tier.all.find? fun t => (b.get t).any p

end Buckets

end SignatureContext
