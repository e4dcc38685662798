/-!
# Tries

A finite map whose keys are lists.  Keys with a common start share its nodes.  A level is a forest:
a node holds one key element, the nodes below it, and the nodes beside it.

* `Trie.find? t ks`    the value of a key;
* `Trie.insert t ks a` the trie with one value set.
-/

namespace OverloadTables

variable {κ α : Type} [DecidableEq κ]

/-- The nodes of one level. -/
inductive Forest (κ α : Type) where
  | empty
  | node (key : κ) (value : Option α) (below beside : Forest κ α)
  deriving Repr

namespace Forest

/-- The value of the key `k :: ks`. -/
def find? : Forest κ α → κ → List κ → Option α
  | .empty, _, _ => none
  | .node key value below beside, k, ks =>
    if k = key then
      match ks with
      | [] => value
      | k :: ks => below.find? k ks
    else beside.find? k ks

/-- The forest that holds the key `k :: ks` alone. -/
def single (a : α) : κ → List κ → Forest κ α
  | k, [] => .node k (some a) .empty .empty
  | k, k' :: ks => .node k none (single a k' ks) .empty

/-- The forest with the value of the key `k :: ks` set. -/
def insert (a : α) : Forest κ α → κ → List κ → Forest κ α
  | .empty, k, ks => single a k ks
  | .node key value below beside, k, ks =>
    if k = key then
      match ks with
      | [] => .node key (some a) below beside
      | k :: ks => .node key value (below.insert a k ks) beside
    else .node key value below (beside.insert a k ks)

end Forest

/-- A finite map from lists; the empty list has its value at the root. -/
structure Trie (κ α : Type) where
  root : Option α
  nodes : Forest κ α
  deriving Repr

namespace Trie

def empty : Trie κ α := ⟨none, .empty⟩

def find? (t : Trie κ α) : List κ → Option α
  | [] => t.root
  | k :: ks => t.nodes.find? k ks

/-- The trie with the value of a key set. -/
def insert (t : Trie κ α) (key : List κ) (a : α) : Trie κ α :=
  match key with
  | [] => { t with root := some a }
  | k :: ks => { t with nodes := t.nodes.insert a k ks }

end Trie
end OverloadTables
