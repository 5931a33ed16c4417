import Mathlib.Data.Finset.Card
import SignedDirectory.Proofs.SortedMap.Membership
import SignedDirectory.Proofs.Success
import SignedDirectory.Proofs.Token.Canonical
import SignedDirectory.Verification

/-!
# When a lookup is accepted

The verifier goes through the servers one by one and tallies decoded keys; `verdict_eq_ok_iff_allVouch`
says which lookups it accepts without mentioning that order. Every server has to vouch for the answer,
trusted or not, and enough of the trusted keys have to be among the servers by the token under which
they write themselves. The two countings agree because a key is read from its own token only.
-/

namespace SignedDirectory

/-! ## Trust -/

namespace Trust

/-- The trusted keys. -/
def keySet (trust : Trust) : Finset PublicKey := trust.keys.keys.toFinset

theorem card_toFinset_keys (keys : SortedSet PublicKey) : keys.keys.toFinset.card = keys.size := by
  rw [List.toFinset_card_of_nodup (SortedMap.keys_nodup _), SortedMap.keys, List.length_map]
  rfl

theorem card_keySet (trust : Trust) : trust.keySet.card = trust.keys.size :=
  card_toFinset_keys trust.keys

theorem toFinset_keys_ofList (keys : List PublicKey) :
    (SortedSet.ofList keys).keys.toFinset = keys.toFinset := by
  ext key
  have hMem : key ∈ (SortedSet.ofList keys).keys ↔ key ∈ (keys.map fun k => (k, ())).map (·.1) :=
    SortedMap.mem_keys_ofList _ key
  simpa using hMem

theorem count_eq_card (trust : Trust) (signers : List PublicKey) :
    trust.count signers = (trust.keySet.filter fun key => key ∈ signers).card := by
  have hFilter : trust.keySet.filter (fun key => key ∈ signers) =
      (trust.keys.keys.filter (signers.contains ·)).toFinset := by
    ext key
    simp [keySet]
  rw [hFilter, List.toFinset_card_of_nodup ((SortedMap.keys_nodup _).filter _), count,
    List.countP_eq_length_filter]

/-- The trusts that are built from a list of keys, or of their tokens, and a threshold, with the greatest age
that was set last. -/
inductive Built [SignatureScheme] (keys : List PublicKey) (threshold : Nat) : UInt64 → Trust → Prop where
  | ofKeys {trust : Trust} (hTrust : Trust.ofKeys keys threshold = .ok trust) :
      Built keys threshold defaultMaxAge trust
  | ofTokens {tokens : List String} {trust : Trust}
      (hKeys : tokens.mapM PublicKey.ofToken = .ok keys)
      (hTrust : Trust.ofTokens tokens threshold = .ok trust) :
      Built keys threshold defaultMaxAge trust
  | withMaxAge {trust : Trust} {maxAge : UInt64} (maxAge' : UInt64)
      (hBuilt : Built keys threshold maxAge trust) :
      Built keys threshold maxAge' (trust.withMaxAge maxAge')

theorem ofTokens_eq [SignatureScheme] {tokens : List String} {keys : List PublicKey} (threshold : Nat)
    (h : tokens.mapM PublicKey.ofToken = .ok keys) :
    Trust.ofTokens tokens threshold = Trust.ofKeys keys threshold := by
  rw [ofTokens, h]
  rfl

theorem keySet_of_ofKeys {keys : List PublicKey} {threshold : Nat} {trust : Trust}
    (h : Trust.ofKeys keys threshold = .ok trust) :
    trust.keySet = keys.toFinset ∧ trust.threshold = threshold ∧ trust.maxAge = defaultMaxAge := by
  rw [Trust.ofKeys] at h
  split at h
  · split at h
    · cases h
      exact ⟨toFinset_keys_ofList keys, rfl, rfl⟩
    · cases h
  · cases h

theorem keySet_of_built [SignatureScheme] {keys : List PublicKey} {threshold : Nat} {maxAge : UInt64}
    {trust : Trust} (h : trust.Built keys threshold maxAge) :
    trust.keySet = keys.toFinset ∧ trust.threshold = threshold ∧ trust.maxAge = maxAge := by
  induction h with
  | ofKeys hTrust => exact keySet_of_ofKeys hTrust
  | ofTokens hKeys hTrust => exact keySet_of_ofKeys (ofTokens_eq threshold hKeys ▸ hTrust)
  | withMaxAge maxAge' _ ih => exact ⟨ih.1, ih.2.1, rfl⟩

theorem toNat_cutoff (trust : Trust) (now : UInt64) :
    (trust.cutoff now).toNat = now.toNat - trust.maxAge.toNat := by
  rw [cutoff]
  split
  · rename_i hAge
    exact UInt64.toNat_sub_of_le _ _ hAge
  · rename_i hAge
    have hAge' : now.toNat < trust.maxAge.toNat := UInt64.not_le.mp hAge
    rw [Nat.sub_eq_zero_of_le hAge'.le]
    rfl

theorem lt_cutoff_iff (trust : Trust) (now timestamp : UInt64) :
    timestamp < trust.cutoff now ↔ timestamp.toNat + trust.maxAge.toNat < now.toNat := by
  rw [UInt64.lt_iff_toNat_lt, toNat_cutoff]
  omega

end Trust

variable [HashFunction] [SignatureScheme]

/-! ## One server -/

namespace SignedPath

/-- What the proof of one server has to show for an entry under a name: its audit path leads from
the entry to the root, the root is recent, and the server has signed it. -/
structure Vouches (signed : SignedPath) (signer : PublicKey) (name : String)
    (entry : Option Entry) (maxAge now : UInt64) : Prop where
  root_eq : signed.path.root (.ofName name) (Entry.digest? entry) = signed.signedRoot.root.rootHash
  recent : now.toNat ≤ signed.signedRoot.root.timestamp.toNat + maxAge.toNat
  signature : signer.verify (.root signed.signedRoot.root) signed.signedRoot.signature = true

/-- The checks in the order in which they are made, each with the rejection that it leads to. -/
theorem check_eq (signed : SignedPath) (token : String) (key value : Digest) (cutoff : UInt64) :
    signed.check token key value cutoff =
      (PublicKey.ofToken token).mapError .format >>= fun signer =>
        if signed.path.root key value ≠ signed.signedRoot.root.rootHash then
          .error (.badRootHash token (signed.path.root key value) signed.signedRoot.root.rootHash)
        else if signed.signedRoot.root.timestamp < cutoff then
          .error (.staleSignature token signed.signedRoot.root.timestamp cutoff)
        else if !signed.signedRoot.verify signer then .error (.badSignature token)
        else .ok signer := rfl

theorem check_eq_ok_iff (signed : SignedPath) (token name : String) (entry : Option Entry)
    (trust : Trust) (now : UInt64) (signer : PublicKey) :
    signed.check token (.ofName name) (Entry.digest? entry) (trust.cutoff now) = .ok signer ↔
      PublicKey.ofToken token = .ok signer ∧ signed.Vouches signer name entry trust.maxAge now := by
  rw [check_eq, bind_eq_ok_iff]
  simp only [mapError_eq_ok_iff]
  constructor
  · rintro ⟨signer', hToken, h⟩
    split at h
    · cases h
    · rename_i hRoot
      split at h
      · cases h
      · rename_i hRecent
        rw [Trust.lt_cutoff_iff, not_lt] at hRecent
        split at h
        · cases h
        · rename_i hSignature
          cases h
          have hVerify : signed.signedRoot.verify signer = true := by simpa using hSignature
          exact ⟨hToken, of_not_not hRoot, hRecent, hVerify⟩
  · rintro ⟨hToken, hRoot, hRecent, hSignature⟩
    refine ⟨signer, hToken, ?_⟩
    have hVerify : signed.signedRoot.verify signer = true := hSignature
    rw [if_neg (not_not_intro hRoot), if_neg (by rw [Trust.lt_cutoff_iff]; omega), hVerify]
    rfl

end SignedPath

/-! ## All servers -/

namespace Lookup

/-- The keys that the pass over the servers yields are those that the single checks yield. -/
theorem mem_of_checkAll {name : String} {key value : Digest} {cutoff : UInt64}
    {proofs : List (String × SignedPath)} {signers : List PublicKey}
    (h : (checkAll name key value cutoff proofs).1 = .ok signers) (signer : PublicKey) :
    signer ∈ signers ↔ ∃ p ∈ proofs, p.2.check p.1 key value cutoff = .ok signer := by
  induction proofs generalizing signers with
  | nil => cases h; simp
  | cons p proofs ih =>
    rw [checkAll] at h
    split at h
    · cases h
    · rename_i first hFirst
      obtain ⟨rest, hRest, rfl⟩ := map_eq_ok_iff.mp h
      rw [List.mem_cons, ih hRest, List.exists_mem_cons_iff, hFirst, Except.ok.injEq]
      exact or_congr_left eq_comm

theorem exists_checkAll_iff (name : String) (key value : Digest) (cutoff : UInt64)
    (proofs : List (String × SignedPath)) :
    (∃ signers, (checkAll name key value cutoff proofs).1 = .ok signers) ↔
      ∀ p ∈ proofs, ∃ signer, p.2.check p.1 key value cutoff = .ok signer := by
  induction proofs with
  | nil => exact ⟨fun _ => by simp, fun _ => ⟨[], rfl⟩⟩
  | cons p proofs ih =>
    rw [List.forall_mem_cons, ← ih, checkAll]
    split
    · rename_i reason hFirst
      simp [hFirst]
    · rename_i first hFirst
      simp only [map_eq_ok_iff, hFirst]
      constructor
      · rintro ⟨_, rest, hRest, _⟩
        exact ⟨⟨first, rfl⟩, rest, hRest⟩
      · rintro ⟨_, rest, hRest⟩
        exact ⟨first :: rest, rest, hRest, rfl⟩

theorem verdict_eq_ok_iff_count (lookup : Lookup) (name : String) (trust : Trust) (now : UInt64)
    (answer : Option Entry) :
    (lookup.verify name trust now).verdict = .ok answer ↔
      answer = lookup.entry ∧ ∃ signers,
        (checkAll name (.ofName name) (Entry.digest? lookup.entry) (trust.cutoff now)
          lookup.proofs.toList).1 = .ok signers ∧ trust.threshold ≤ trust.count signers := by
  rw [verify]
  split
  · rename_i hPass
    simp [hPass]
  · rename_i signers log hPass
    simp only [hPass]
    split
    · rename_i hFew
      simp
      omega
    · rename_i hEnough
      simp [eq_comm]
      omega

/-- Every server that takes part vouches for the answer with the key of its token. -/
def AllVouch (lookup : Lookup) (name : String) (maxAge now : UInt64) : Prop :=
  ∀ token signed, lookup.proofs.get? token = some signed → ∃ signer,
    PublicKey.ofToken token = .ok signer ∧ signed.Vouches signer name lookup.entry maxAge now

/-- The trusted keys under whose own tokens the lookup has a proof. -/
def trustedSigners (lookup : Lookup) (trust : Trust) : Finset PublicKey :=
  trust.keySet.filter fun key => lookup.proofs.contains key.toToken = true

variable {lookup : Lookup} {name : String} {trust : Trust} {now : UInt64}

theorem allVouch_iff :
    lookup.AllVouch name trust.maxAge now ↔ ∀ p ∈ lookup.proofs.toList, ∃ signer,
      p.2.check p.1 (.ofName name) (Entry.digest? lookup.entry) (trust.cutoff now) = .ok signer := by
  simp only [AllVouch, SortedMap.get?_eq_some_iff, SignedPath.check_eq_ok_iff, Prod.forall]

/-- Among servers that all vouch, the keys that were read are those whose own token is there. -/
theorem exists_check_iff_contains (h : lookup.AllVouch name trust.maxAge now) (key : PublicKey) :
    (∃ p ∈ lookup.proofs.toList,
      p.2.check p.1 (.ofName name) (Entry.digest? lookup.entry) (trust.cutoff now) = .ok key) ↔
      lookup.proofs.contains key.toToken = true := by
  rw [SortedMap.contains_iff_mem_keys]
  constructor
  · rintro ⟨p, hMem, hCheck⟩
    rw [SignedPath.check_eq_ok_iff, PublicKey.ofToken_eq_ok_iff] at hCheck
    rw [← hCheck.1.2]
    exact List.mem_map_of_mem hMem
  · intro hKey
    obtain ⟨p, hMem, hToken⟩ := List.mem_map.mp hKey
    obtain ⟨signer, hCheck⟩ := allVouch_iff.mp h p hMem
    have hRead := ((SignedPath.check_eq_ok_iff ..).mp hCheck).1
    -- No other key has this token.
    rw [PublicKey.ofToken_eq_ok_iff, hToken] at hRead
    obtain rfl := PublicKey.toToken_injective hRead.2
    exact ⟨p, hMem, hCheck⟩

theorem count_eq_card_trustedSigners (h : lookup.AllVouch name trust.maxAge now)
    {signers : List PublicKey}
    (hPass : (checkAll name (.ofName name) (Entry.digest? lookup.entry) (trust.cutoff now)
      lookup.proofs.toList).1 = .ok signers) :
    trust.count signers = (lookup.trustedSigners trust).card := by
  rw [Trust.count_eq_card, trustedSigners]
  congr 1
  apply Finset.filter_congr
  intro key _
  rw [mem_of_checkAll hPass, exists_check_iff_contains h]

theorem verdict_eq_ok_iff_allVouch {answer : Option Entry} :
    (lookup.verify name trust now).verdict = .ok answer ↔
      answer = lookup.entry ∧ lookup.AllVouch name trust.maxAge now ∧
        trust.threshold ≤ (lookup.trustedSigners trust).card := by
  rw [verdict_eq_ok_iff_count]
  constructor
  · rintro ⟨hAnswer, signers, hPass, hCount⟩
    have hAll := allVouch_iff.mpr ((exists_checkAll_iff ..).mp ⟨signers, hPass⟩)
    exact ⟨hAnswer, hAll, count_eq_card_trustedSigners hAll hPass ▸ hCount⟩
  · rintro ⟨hAnswer, hAll, hCount⟩
    obtain ⟨signers, hPass⟩ := (exists_checkAll_iff ..).mpr (allVouch_iff.mp hAll)
    exact ⟨hAnswer, signers, hPass, (count_eq_card_trustedSigners hAll hPass).symm ▸ hCount⟩

/-- A lookup is accepted exactly if all its servers vouch for the answer and enough of them are
trusted; at least one is. A trust has the keys, the threshold and the greatest age it was built with. -/
theorem verify_accepts_iff (lookup : Lookup) (name : String) (trust : Trust) (now : UInt64) :
    (∀ answer, (lookup.verify name trust now).verdict = .ok answer ↔
      answer = lookup.entry ∧ lookup.AllVouch name trust.maxAge now ∧
        trust.threshold ≤ (lookup.trustedSigners trust).card) ∧
    (∀ keys threshold maxAge, trust.Built keys threshold maxAge →
      trust.keySet = keys.toFinset ∧ trust.threshold = threshold ∧ trust.maxAge = maxAge) ∧
    (1 ≤ trust.threshold ∧ trust.threshold ≤ trust.keySet.card) ∧
    ∀ answer, (lookup.verify name trust now).verdict = .ok answer →
      ∃ key ∈ trust.keySet, ∃ signed, lookup.proofs.get? key.toToken = some signed ∧
        PublicKey.ofToken key.toToken = .ok key ∧
        signed.Vouches key name lookup.entry trust.maxAge now := by
  refine ⟨fun _ => verdict_eq_ok_iff_allVouch, fun _ _ _ => Trust.keySet_of_built,
    ⟨trust.threshold_pos, trust.card_keySet.symm ▸ trust.threshold_le_size⟩, ?_⟩
  intro answer hAccept
  obtain ⟨_, hAll, hCount⟩ := verdict_eq_ok_iff_allVouch.mp hAccept
  have hSome : 0 < (lookup.trustedSigners trust).card := trust.threshold_pos.trans_le hCount
  obtain ⟨key, hKey⟩ := Finset.card_pos.mp hSome
  obtain ⟨hTrusted, hContains⟩ := Finset.mem_filter.mp hKey
  obtain ⟨signed, hSigned⟩ := Option.isSome_iff_exists.mp hContains
  obtain ⟨signer, hToken, hVouches⟩ := hAll _ signed hSigned
  obtain rfl := PublicKey.toToken_injective ((PublicKey.ofToken_eq_ok_iff ..).mp hToken).2
  exact ⟨key, hTrusted, signed, hSigned, hToken, hVouches⟩

end Lookup

end SignedDirectory
