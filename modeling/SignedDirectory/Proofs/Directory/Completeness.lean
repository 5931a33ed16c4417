import SignedDirectory.Directory
import SignedDirectory.Ed25519.Signing
import SignedDirectory.Proofs.Trie.Prediction
import SignedDirectory.Proofs.Verification.Outcome
import SignedDirectory.Vectors

/-!
# Honest answers are accepted

What a directory answers after any history of changes is accepted by every reader who trusts enough of
the servers that vouch for it, and the reader learns what the last change of the name has said. Each
change keeps the trie and the entries in step (`Says.apply`), the path that the trie serves leads from the
entry to the root, and the servers sign that root.
-/

namespace SignedDirectory

/-- A key signs a root: its public key is read from its own bytes, and accepts the signature that the
key makes of the root. -/
structure PrivateKey.Signs [HashFunction] [SignatureScheme] (key : PrivateKey) (root : Root) :
    Prop where
  isKey : SignatureScheme.isKey key.publicKey.bytes = true
  verify : (SignedRoot.sign key root).verify key.publicKey = true

namespace Directory

/-! ## Histories -/

inductive Change where
  | put (entry : Entry)
  | remove (name : String)

namespace Change

def name : Change → String
  | .put entry => entry.name
  | .remove name => name

/-- What the directory says about the name after the change. -/
def entry? : Change → Option Entry
  | .put entry => some entry
  | .remove _ => none

def onEntries (entries : SortedMap String Entry) : Change → SortedMap String Entry
  | .put entry => entries.insert entry.name entry
  | .remove name => entries.erase name

theorem get?_onEntries (c : Change) (entries : SortedMap String Entry) (name : String) :
    (c.onEntries entries).get? name = if c.name = name then c.entry? else entries.get? name := by
  cases c with
  | put entry => simp [onEntries, SortedMap.get?_insert, Change.name, entry?, eq_comm]
  | remove name' => simp [onEntries, SortedMap.get?_erase, Change.name, entry?, eq_comm]

end Change

/-- What the last change of a name in a history says about the name. -/
def current (history : List Change) (name : String) : Option Entry :=
  (history.reverse.find? fun c => c.name = name).bind Change.entry?

theorem current_append (history : List Change) (c : Change) (name : String) :
    current (history ++ [c]) name = if c.name = name then c.entry? else current history name := by
  rw [current, List.reverse_append, List.reverse_singleton, List.singleton_append, List.find?_cons]
  by_cases hName : c.name = name
  · simp [hName]
  · simp [hName, current]

section

variable [HashFunction]

def Change.apply (d : Directory) : Change → Except PathError Directory
  | .put entry => d.put entry
  | .remove name => d.remove name

/-- The directory that a history builds from the empty one. -/
def replay (history : List Change) : Except PathError Directory := history.foldlM Change.apply ∅

theorem replay_append (history : List Change) (c : Change) :
    replay (history ++ [c]) = replay history >>= fun d => c.apply d := by
  simp [replay]

theorem Change.apply_eq {d : Directory} {c : Change} {trie : Trie}
    (h : d.trie.insert (.ofName c.name) (Entry.digest? c.entry?) = .ok trie) :
    c.apply d = .ok ⟨c.onEntries d.entries, trie⟩ := by
  cases c with
  | put entry => exact bind_eq_ok_iff.mpr ⟨trie, h, rfl⟩
  | remove name => exact bind_eq_ok_iff.mpr ⟨trie, h, rfl⟩

/-! ## Entries and trie in step -/

/-- A directory says something about a name, and its trie binds the key of the name accordingly. -/
structure Says (d : Directory) (name : String) (entry : Option Entry) : Prop where
  canonical : d.trie.tree.Canonical 0
  get?_eq : d.entries.get? name = entry
  mem_iff : ∀ value, (Digest.ofName name, value) ∈ d.trie.tree.bindings ↔
    Trie.stored (Entry.digest? entry) = some value

theorem Says.empty (name : String) : Says ∅ name none where
  canonical := .empty
  get?_eq := rfl
  mem_iff value := by
    have hNothing : Trie.stored (Entry.digest? none) = none := if_pos rfl
    rw [hNothing]
    exact ⟨fun h => absurd h List.not_mem_nil, fun h => absurd h (by simp)⟩

/-- A change succeeds and keeps entries and trie in step for a name, unless it is a change of another
name with the same key. -/
theorem Says.apply {d : Directory} {name : String} {entry : Option Entry} (h : d.Says name entry)
    (c : Change) (hName : Digest.ofName c.name = Digest.ofName name → c.name = name) :
    ∃ next, c.apply d = .ok next ∧ next.Says name (if c.name = name then c.entry? else entry) := by
  obtain ⟨trie, hInsert, -, hUpdated⟩ :=
    Trie.insert_of_canonical h.canonical (.ofName c.name) (Entry.digest? c.entry?)
  refine ⟨_, Change.apply_eq hInsert, hUpdated.canonical, ?_, fun value => ?_⟩
  · rw [Change.get?_onEntries, h.get?_eq]
  · rw [hUpdated.mem_iff]
    by_cases hSame : c.name = name
    · simp [hSame]
    · -- The change is of another key, which leaves the binding of this one alone.
      have hKey : Digest.ofName name ≠ Digest.ofName c.name := fun hEq => hSame (hName hEq.symm)
      simp [hSame, hKey, h.mem_iff]

theorem exists_replay (history : List Change) (name : String)
    (hNames : ∀ c ∈ history, Digest.ofName c.name = Digest.ofName name → c.name = name) :
    ∃ d, replay history = .ok d ∧ d.Says name (current history name) := by
  induction history using List.reverseRecOn with
  | nil => exact ⟨∅, rfl, .empty name⟩
  | append_singleton history c ih =>
    obtain ⟨d, hReplay, hSays⟩ := ih fun c' hc' => hNames c' (List.mem_append_left _ hc')
    obtain ⟨next, hApply, hNext⟩ := hSays.apply c (hNames c (by simp))
    refine ⟨next, ?_, ?_⟩
    · rw [replay_append, hReplay]
      exact hApply
    · rw [current_append]
      exact hNext

/-- The path that is served for a name leads from what the directory says about it to the root. -/
theorem Says.exists_path {d : Directory} {name : String} {entry : Option Entry}
    (h : d.Says name entry) : ∃ path found, d.trie.lookup (.ofName name) = .ok (path, found) ∧
      (Digest.empty ∉ d.trie.tree.digests →
        path.root (.ofName name) (Entry.digest? entry) = d.trie.root) := by
  obtain ⟨path, hLookup⟩ := Trie.exists_lookup h.canonical h.mem_iff
  refine ⟨path, _, hLookup, fun hDigests => ?_⟩
  rw [← Trie.root_of_lookup h.canonical hLookup hDigests, Trie.getD_stored]

/-! ## Answers -/

variable [SignatureScheme]

/-- What one server adds to an answer: its proof, under the token of its key. -/
def vouch (path : AuditPath) (rootHash : Digest) (signer : PrivateKey × UInt64) :
    String × SignedPath :=
  (signer.1.publicKey.toToken, ⟨path, .sign signer.1 ⟨rootHash, signer.2⟩⟩)

theorem respond_eq {d : Directory} {name : String} {path : AuditPath} {found : Option Digest}
    (h : d.trie.lookup (.ofName name) = .ok (path, found)) (signers : List (PrivateKey × UInt64)) :
    d.respond name signers =
      .ok ⟨d.entries.get? name, SortedMap.ofList (signers.map (vouch path d.trie.root))⟩ :=
  bind_eq_ok_iff.mpr ⟨(path, found), h, rfl⟩

theorem vouch_vouches {path : AuditPath} {rootHash : Digest} {signer : PrivateKey × UInt64}
    {name : String} {entry : Option Entry} {maxAge now : UInt64}
    (hRoot : path.root (.ofName name) (Entry.digest? entry) = rootHash)
    (hRecent : now.toNat ≤ signer.2.toNat + maxAge.toNat)
    (hSigns : signer.1.Signs ⟨rootHash, signer.2⟩) :
    PublicKey.ofToken (vouch path rootHash signer).1 = .ok signer.1.publicKey ∧
      (vouch path rootHash signer).2.Vouches signer.1.publicKey name entry maxAge now :=
  ⟨(PublicKey.ofToken_eq_ok_iff ..).mpr ⟨hSigns.isKey, rfl⟩, hRoot, hRecent, hSigns.verify⟩

theorem contains_vouch_iff (path : AuditPath) (rootHash : Digest)
    (signers : List (PrivateKey × UInt64)) (key : PublicKey) :
    (SortedMap.ofList (signers.map (vouch path rootHash))).contains key.toToken = true ↔
      key ∈ signers.map (·.1.publicKey) := by
  rw [SortedMap.contains_iff_mem_keys, SortedMap.mem_keys_ofList, List.map_map]
  constructor
  · intro h
    obtain ⟨signer, hSigner, hToken⟩ := List.mem_map.mp h
    exact List.mem_map.mpr ⟨signer, hSigner, PublicKey.toToken_injective hToken⟩
  · intro h
    obtain ⟨signer, hSigner, rfl⟩ := List.mem_map.mp h
    exact List.mem_map.mpr ⟨signer, hSigner, rfl⟩

theorem trustedSigners_vouch (entry : Option Entry) (path : AuditPath) (rootHash : Digest)
    (signers : List (PrivateKey × UInt64)) (trust : Trust) :
    Lookup.trustedSigners ⟨entry, SortedMap.ofList (signers.map (vouch path rootHash))⟩ trust =
      trust.keySet.filter fun key => key ∈ signers.map (·.1.publicKey) :=
  Finset.filter_congr fun key _ => contains_vouch_iff path rootHash signers key

/-- After any history, the answer of the directory for a name is accepted if enough trusted servers
vouch for it and all who do are recent, and it tells what the last change of the name has said. All its
servers are reported as verified, and as many trusted ones are counted as there are among the signers. -/
theorem respond_accepted {history : List Change} {name : String} {trust : Trust} {now : UInt64}
    {signers : List (PrivateKey × UInt64)}
    (hNames : ∀ c ∈ history, Digest.ofName c.name = Digest.ofName name → c.name = name)
    (hRecent : ∀ signer ∈ signers, now.toNat ≤ signer.2.toNat + trust.maxAge.toNat)
    (hEnough : trust.threshold ≤
      (trust.keySet.filter fun key => key ∈ signers.map (·.1.publicKey)).card) :
    ∃ d lookup, replay history = .ok d ∧ d.respond name signers = .ok lookup ∧
      (Digest.empty ∉ d.trie.tree.digests →
        (∀ signer ∈ signers, signer.1.Signs ⟨d.trie.root, signer.2⟩) →
        (lookup.verify name trust now).verdict = .ok (current history name) ∧
        (lookup.verify name trust now).log = Lookup.passLog name lookup.proofs.toList ++
          [.accepted name (trust.keySet.filter fun key => key ∈ signers.map (·.1.publicKey)).card
            trust.keySet.card (current history name).isSome]) := by
  obtain ⟨d, hReplay, hSays⟩ := exists_replay history name hNames
  obtain ⟨path, found, hLookup, hRoot⟩ := hSays.exists_path
  refine ⟨d, _, hReplay, respond_eq hLookup signers, fun hDigests hSigns => ?_⟩
  rw [hSays.get?_eq]
  have hAll : Lookup.AllVouch ⟨current history name,
      SortedMap.ofList (signers.map (vouch path d.trie.root))⟩ name trust.maxAge now := by
    -- Whatever is in the answer, one of the signers has put there.
    intro token signed hSigned
    obtain ⟨signer, hSigner, hVouch⟩ := List.mem_map.mp (SortedMap.mem_of_get?_ofList hSigned)
    cases hVouch
    exact ⟨signer.1.publicKey,
      vouch_vouches (hRoot hDigests) (hRecent signer hSigner) (hSigns signer hSigner)⟩
  rw [Lookup.verify_of_allVouch hAll rfl, trustedSigners_vouch, if_neg (Nat.not_lt.mpr hEnough)]
  exact ⟨rfl, rfl⟩

end

/-! ## A directory of two names -/

open Vectors

/-- The directory of the two entries of the test vectors. -/
def ofVectors : Directory where
  entries := SortedMap.ofList [(alice.name, alice), (bob.name, bob)]
  trie := ⟨Tree.merge (.leaf (.ofName alice.name) alice.digest)
    (.leaf (.ofName bob.name) bob.digest), 2⟩

/-- Trust in the key of the test vectors. -/
def trustInKey : Trust where
  keys := SortedSet.ofList [key.publicKey]
  threshold := 1
  maxAge := Trust.defaultMaxAge
  threshold_pos := Nat.one_pos
  threshold_le_size := Nat.le_refl 1

theorem replay_ofVectors :
    replay [.put alice, .put bob, .remove alice.name, .put alice] = .ok ofVectors := by
  decide +kernel

theorem respond_accepted_ofVectors :
    ∃ lookup, ofVectors.respond alice.name [(key, timestamp)] = .ok lookup ∧
      (lookup.verify alice.name trustInKey (timestamp + 60)).verdict = .ok (some alice) ∧
      (lookup.verify alice.name trustInKey (timestamp + 60)).log =
        [.signerVerified key.publicKey.toToken alice.name, .accepted alice.name 1 1 true] := by
  have hNames : ∀ c ∈ [Change.put alice, .put bob, .remove alice.name, .put alice],
      Digest.ofName c.name = Digest.ofName alice.name → c.name = alice.name := by decide +kernel
  have hRecent : ∀ signer ∈ [(key, timestamp)],
      (timestamp + 60).toNat ≤ signer.2.toNat + trustInKey.maxAge.toNat := by decide +kernel
  have hCount : (trustInKey.keySet.filter fun k =>
      k ∈ [(key, timestamp)].map (·.1.publicKey)).card = 1 := by decide +kernel
  obtain ⟨d, lookup, hReplay, hRespond, hAccept⟩ := respond_accepted hNames hRecent hCount.ge
  cases hReplay.symm.trans replay_ofVectors
  have hSigns : key.Signs ⟨ofVectors.trie.root, timestamp⟩ :=
    ⟨by decide +kernel, by decide +kernel⟩
  obtain ⟨hVerdict, hLog⟩ := hAccept (by decide +kernel) (by simpa using hSigns)
  refine ⟨lookup, hRespond, hVerdict, hLog.trans ?_⟩
  rw [hCount, Trust.card_keySet]
  obtain ⟨_, -, hProofs⟩ := bind_eq_ok_iff.mp hRespond
  cases hProofs
  rfl

end Directory

end SignedDirectory
