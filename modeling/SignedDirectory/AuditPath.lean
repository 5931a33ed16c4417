import SignedDirectory.Digest
import SignedDirectory.SortedMap

/-!
# Audit paths

An audit path lets a reader recompute the root of a trie from one key and its value. `Siblings`
holds the digests beside the path, one for every level that has a sibling; `AuditPath` adds the key
of the leaf at which the path ends. `AuditPath.root` folds from the deepest level to the root: a
digest that stands for a lone leaf passes every level without a sibling unchanged, because a leaf is
stored as high up as it is alone.
-/

namespace SignedDirectory

inductive PathError where
  | depthOutOfRange (depth : Nat)
  | invalidDepth (text : String)
  deriving DecidableEq, Repr

def PathError.message : PathError → String
  | .depthOutOfRange depth => s!"Audit path depth {depth} out of range (max {Digest.width})"
  | .invalidDepth text => s!"Invalid audit path depth: {Text.quoted text}"

/-- Sibling digests by level; the empty digest at a level is not stored. -/
structure Siblings where
  stored : SortedMap Nat Digest
  stored_level : ∀ s ∈ stored.toList, s.1 < Digest.width ∧ s.2 ≠ Digest.empty
  deriving DecidableEq

namespace Siblings

def empty : Siblings := ⟨.empty, by simp [SortedMap.empty]⟩

instance : EmptyCollection Siblings := ⟨empty⟩

instance : Inhabited Siblings := ⟨empty⟩

/-- The sibling at a level, and the empty digest where there is none. -/
def get (s : Siblings) (depth : Nat) : Digest := (s.stored.get? depth).getD .empty

/-- Stores the sibling at a level; the empty digest clears the level. -/
def put (s : Siblings) (depth : Fin 512) (digest : Digest) : Siblings :=
  if h : digest = .empty then
    ⟨s.stored.erase depth, fun p hp => s.stored_level p (List.mem_filter.mp hp).1⟩
  else
    ⟨s.stored.insert depth digest, fun p hp => by
      rcases SortedMap.mem_place hp with rfl | hp
      · exact ⟨depth.isLt, h⟩
      · exact s.stored_level p hp⟩

theorem get_put (s : Siblings) (depth : Fin 512) (digest : Digest) (depth' : Nat) :
    (s.put depth digest).get depth' = if depth' = depth then digest else s.get depth' := by
  unfold put
  split
  next h =>
    rw [get, SortedMap.get?_erase]
    split <;> simp [h, get]
  next =>
    rw [get, SortedMap.get?_insert]
    split <;> simp [get]

/-- Stores the sibling at a level that is given by any number. -/
def set (s : Siblings) (depth : Nat) (digest : Digest) : Except PathError Siblings :=
  if h : depth < Digest.width then .ok (s.put ⟨depth, h⟩ digest)
  else .error (.depthOutOfRange depth)

def size (s : Siblings) : Nat := s.stored.size

def isEmpty (s : Siblings) : Bool := s.stored.isEmpty

def toList (s : Siblings) : List (Nat × Digest) := s.stored.toList

end Siblings

/-- The siblings along the path of a key, and the key of the leaf at which the path ends. This is
the key itself unless the path ends at a foreign leaf or the deepest sibling is a leaf; then that
leaf stands at the first level where the two keys differ, with its value as the sibling there. -/
structure AuditPath where
  leafKey : Digest
  siblings : Siblings
  deriving DecidableEq

namespace AuditPath

def ofKey (key : Digest) : AuditPath := ⟨key, ∅⟩

/-- What a fold has reached: the digest of the subtree at its level, and whether that subtree is a
lone leaf. -/
structure Reached where
  digest : Digest
  isLeaf : Bool
  deriving DecidableEq

variable [HashFunction]

/-- The start of the fold: a leaf that binds the key, or nothing if the value is empty. -/
def start (key value : Digest) : Reached :=
  if value = .empty then ⟨.empty, false⟩ else ⟨.combine key value, true⟩

/-- The digest reached together with its sibling, each on its side. -/
def join (key : Digest) (depth : Fin 512) (digest sibling : Digest) : Digest :=
  if key.bit depth then .combine sibling digest else .combine digest sibling

def ascend (key : Digest) (depth : Fin 512) (sibling : Digest) (r : Reached) : Reached :=
  if sibling = .empty ∧ r.isLeaf then r else ⟨join key depth r.digest sibling, false⟩

/-- One level of the fold. At the level where the leaf of the path leaves the path of the key, the
sibling is that leaf, and if nothing was reached so far, the leaf itself is what is reached. -/
def climb (path : AuditPath) (key : Digest) (depth : Fin 512) (r : Reached) : Reached :=
  let sibling := path.siblings.get depth
  if depth.val = key.firstDifference path.leafKey then
    let leaf := Digest.combine path.leafKey sibling
    if r.digest = .empty then ⟨leaf, true⟩ else ascend key depth leaf r
  else ascend key depth sibling r

/-- The fold over the given levels, from the last of them to the first. -/
def fold (path : AuditPath) (key : Digest) (levels : List (Fin 512)) (r : Reached) : Reached :=
  levels.foldr (path.climb key) r

/-- The root to which the path commits for a key with a value. The empty value asks for the root of
a trie without the key. -/
def root (path : AuditPath) (key value : Digest) : Digest :=
  (path.fold key (List.finRange 512) (start key value)).digest

/-- Whether the path shows that the trie with this root gives the key this value. -/
def verify (path : AuditPath) (key value root : Digest) : Bool := path.root key value = root

end AuditPath

end SignedDirectory
