import SignedDirectory.AuditPath

/-!
# Tries

A binary trie over the bits of its keys. A subtree that holds one key is a leaf, as high up as that
key is alone; every other subtree that is not empty is a branch and keeps its digest. Main
operations: `Trie.insert`, `Trie.remove`, and `Trie.lookup`, which serves the audit path of a key.

Operations walk down a list of levels, one key bit for each. They fail only if the levels run out
before two different keys part, which no trie built from the empty one lets happen.
-/

namespace SignedDirectory

/-- A subtree: empty, one key with its value, or the two subtrees for the next key bit. -/
inductive Tree where
  | empty
  | leaf (key value : Digest)
  | branch (digest : Digest) (zero one : Tree)
  deriving DecidableEq

namespace Tree

/-- The levels below the root of a trie. -/
def levels : List (Fin 512) := List.finRange 512

/-- Whether a subtree holds exactly one key. -/
def isLeaf : Tree → Bool
  | .leaf _ _ => true
  | _ => false

def ofBinding (key : Digest) : Option Digest → Tree
  | none => .empty
  | some value => .leaf key value

variable [HashFunction]

/-- The digest of a subtree: a leaf commits to its key and its value. -/
def digest : Tree → Digest
  | .empty => .empty
  | .leaf key value => .combine key value
  | .branch digest _ _ => digest

/-- The subtree over two subtrees: a leaf without a sibling takes its parent's place. -/
def merge (zero one : Tree) : Tree :=
  match zero, one with
  | .empty, .empty => .empty
  | .leaf k v, .empty => .leaf k v
  | .empty, .leaf k v => .leaf k v
  | zero, one => .branch (.combine zero.digest one.digest) zero one

/-- Binds a key below the given levels to a value, or to nothing. A leaf of another key is first
pushed down one level. -/
def set (key : Digest) (value : Option Digest) : List (Fin 512) → Tree → Except PathError Tree
  | _, .empty => .ok (ofBinding key value)
  | [], .leaf k _ =>
    if k = key then .ok (ofBinding key value) else .error (.depthOutOfRange Digest.width)
  | [], .branch _ _ _ => .error (.depthOutOfRange Digest.width)
  | level :: below, .leaf k v =>
    if k = key then .ok (ofBinding key value)
    else
      match k.bit level, key.bit level with
      | false, false => (merge · .empty) <$> set key value below (.leaf k v)
      | true, true => (merge .empty ·) <$> set key value below (.leaf k v)
      | false, true => (merge (.leaf k v) ·) <$> set key value below .empty
      | true, false => (merge · (.leaf k v)) <$> set key value below .empty
  | level :: below, .branch _ zero one =>
    if key.bit level then (merge zero ·) <$> set key value below one
    else (merge · one) <$> set key value below zero

/-- The audit path of a key below the given levels, and the value of the key. The deepest sibling
that is a leaf is served as its key and its value. -/
def lookup (key : Digest) :
    List (Fin 512) → Tree → Except PathError (AuditPath × Option Digest)
  | _, .empty => .ok (.ofKey key, none)
  | _, .leaf k v =>
    if k = key then .ok (.ofKey key, some v)
    else do
      let siblings ← Siblings.empty.set (key.firstDifference k) v
      return (⟨k, siblings⟩, none)
  | [], .branch _ _ _ => .error (.depthOutOfRange Digest.width)
  | level :: below, .branch _ zero one => do
    let (near, far) := if key.bit level then (one, zero) else (zero, one)
    let (path, value) ← lookup key below near
    match far with
    | .leaf k v =>
      if path.leafKey = key then return (⟨k, path.siblings.put level v⟩, value)
      else return (⟨path.leafKey, path.siblings.put level far.digest⟩, value)
    | _ => return (⟨path.leafKey, path.siblings.put level far.digest⟩, value)

end Tree

/-- A trie with the number of its keys. -/
structure Trie where
  tree : Tree
  size : Nat
  deriving DecidableEq

namespace Trie

def empty : Trie := ⟨.empty, 0⟩

instance : EmptyCollection Trie := ⟨empty⟩

instance : Inhabited Trie := ⟨empty⟩

def isEmpty (t : Trie) : Bool := t.size = 0

variable [HashFunction]

/-- The digest of the whole trie. -/
def root (t : Trie) : Digest := t.tree.digest

def lookup (t : Trie) (key : Digest) : Except PathError (AuditPath × Option Digest) :=
  t.tree.lookup key Tree.levels

/-- Binds a key to a value; the empty value removes the key. -/
def insert (t : Trie) (key value : Digest) : Except PathError Trie := do
  let stored := if value = .empty then none else some value
  let (_, present) ← t.lookup key
  let tree ← t.tree.set key stored Tree.levels
  let size := match present, stored with
    | none, some _ => t.size + 1
    | some _, none => t.size - 1
    | _, _ => t.size
  return ⟨tree, size⟩

def remove (t : Trie) (key : Digest) : Except PathError Trie := t.insert key .empty

/-- The root of the trie of exactly two keys, computed without building it, and the audit path of
the first of them. It fails for equal keys. -/
def ofPair (a b : Digest × Digest) : Except PathError (Digest × AuditPath) := do
  let split := a.1.firstDifference b.1
  let siblings ← Siblings.empty.set split b.2
  let aLeaf := Digest.combine a.1 a.2
  let bLeaf := Digest.combine b.1 b.2
  let parted :=
    if a.1.bit? split = some true then Digest.combine bLeaf aLeaf else Digest.combine aLeaf bLeaf
  let root := (Tree.levels.take split).foldr
    (fun level d =>
      if a.1.bit level then Digest.combine .empty d else Digest.combine d .empty) parted
  return (root, ⟨b.1, siblings⟩)

end Trie

end SignedDirectory
