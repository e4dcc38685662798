import OverloadTables.Signature.Descriptor
import OverloadTables.Trie

/-!
# Pool of signatures

Every distinct signature is stored once, in one flat table.  A signature is known by where it
starts; a new one starts where the table ends.

* `SignaturePool.intern`   the start of a signature, which is stored at its first sight.
-/

namespace OverloadTables

/-- A stretch of the signature table. -/
structure Run where
  start : Nat
  length : Nat
  deriving DecidableEq, Repr

/-- The flat table, the run of each distinct signature in order, and a trie of their starts. -/
structure SignaturePool where
  table : List Descriptor
  runs : List Run
  starts : Trie Descriptor Nat

namespace SignaturePool

def empty : SignaturePool := ⟨[], [], .empty⟩

/-- The signature to be stored has no return type. -/
inductive Invalid where
  | noReturnType
  deriving DecidableEq, Repr

def Invalid.message : Invalid → String
  | .noReturnType => "signature must contain at least the return type"

/-- The start of a signature, and the pool after it is stored. -/
def intern (p : SignaturePool) (s : Signature) : Except Invalid (Nat × SignaturePool) :=
  if s = [] then .error .noReturnType
  else match p.starts.find? s with
    | some start => .ok (start, p)
    | none =>
      let start := p.table.length
      .ok (start, ⟨p.table ++ s, p.runs ++ [⟨start, s.length⟩], p.starts.insert s start⟩)

def size (p : SignaturePool) : Nat := p.runs.length

end SignaturePool
end OverloadTables
