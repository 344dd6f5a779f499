/-! Records of what happened, for whoever watches. -/
namespace SignatureContext.Log

inductive Level
  | debug
  | info
  | warning
deriving Repr, DecidableEq

def Level.rank : Level → Nat
  | debug => 10
  | info => 20
  | warning => 30

/-- The part of the library that reports. -/
inductive Component
  | resolver
  | classifier
  | packer
  | builder
deriving Repr, DecidableEq

structure Record where
  level : Level
  component : Component
  message : String
deriving Repr, DecidableEq

/-- The records at a level or above it, in order. -/
def atLeast (level : Level) (records : List Record) : List Record :=
  records.filter fun r => level.rank ≤ r.level.rank

end SignatureContext.Log
