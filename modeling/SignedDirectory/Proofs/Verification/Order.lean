import SignedDirectory.Proofs.Token.Order
import SignedDirectory.Proofs.Verification.Outcome

/-!
# The order of the servers

The servers of a lookup are taken in the order of their tokens, which is the order of the public keys that the
tokens stand for (`PublicKey.compare_toToken`). The pass over the servers therefore meets their keys in the order
in which a set of keys lists them, be it the set of the signers or that of the trusted keys
(`Lookup.visits_in_key_order`).
-/

namespace SignedDirectory

namespace Lookup

variable [SignatureScheme]

/-- The public keys that are read from tokens, in the order of the tokens. -/
def keysOf (tokens : List String) : List PublicKey :=
  tokens.filterMap fun token => (PublicKey.ofToken token).toOption

/-- The public keys of the servers of a lookup, in the order in which the servers are taken. -/
def signers (lookup : Lookup) : List PublicKey := keysOf lookup.proofs.keys

theorem keysOf_ascending {tokens : List String} (h : tokens.Pairwise (compare · · = .lt)) :
    (keysOf tokens).Pairwise (compare · · = .lt) := by
  refine List.pairwise_filterMap.mpr (h.imp fun hLt key hKey key' hKey' => ?_)
  obtain ⟨-, rfl⟩ := (PublicKey.ofToken_eq_ok_iff ..).mp (toOption_eq_some_iff.mp hKey)
  obtain ⟨-, rfl⟩ := (PublicKey.ofToken_eq_ok_iff ..).mp (toOption_eq_some_iff.mp hKey')
  rwa [← PublicKey.compare_toToken]

theorem signers_ascending (lookup : Lookup) : lookup.signers.Pairwise (compare · · = .lt) :=
  keysOf_ascending lookup.proofs.keys_ascending

/-- The signers as a set are listed in the order in which they are met. -/
theorem keys_ofList_signers (lookup : Lookup) :
    (SortedSet.ofList lookup.signers).keys = lookup.signers := by
  apply SortedMap.eq_of_ascending id (SortedMap.keys_ascending _) lookup.signers_ascending
  intro key
  rw [SortedSet.ofList, SortedMap.mem_keys_ofList]
  simp

theorem filter_signers (lookup : Lookup) (trust : Trust) :
    lookup.signers.filter (trust.trusts ·) = trust.keys.keys.filter (lookup.signers.contains ·) := by
  apply SortedMap.eq_of_ascending id (lookup.signers_ascending.filter _)
    ((SortedMap.keys_ascending _).filter _)
  intro key
  rw [List.mem_filter, List.mem_filter, Trust.trusts, SortedMap.contains_iff_mem_keys, List.contains_iff_mem]
  exact and_comm

theorem passLog_eq {name : String} {proofs : List (String × SignedPath)}
    (h : ∀ p ∈ proofs, ∃ signer, PublicKey.ofToken p.1 = .ok signer) :
    passLog name proofs =
      (keysOf (proofs.map (·.1))).map fun key => .signerVerified key.toToken name := by
  induction proofs with
  | nil => rfl
  | cons p proofs ih =>
    obtain ⟨⟨signer, hToken⟩, hRest⟩ := List.forall_mem_cons.mp h
    have hText := ((PublicKey.ofToken_eq_ok_iff ..).mp hToken).2
    have hKeys : keysOf ((p :: proofs).map (·.1)) = signer :: keysOf (proofs.map (·.1)) :=
      List.filterMap_cons_some (congrArg Except.toOption hToken)
    rw [hKeys, List.map_cons, ← ih hRest, ← hText]
    rfl

section

variable {lookup : Lookup} {before after : List (String × SignedPath)}

theorem keysOf_before (hProofs : lookup.proofs.toList = before ++ after) :
    keysOf (before.map (·.1)) <+: lookup.signers := by
  rw [signers, SortedMap.keys, hProofs, List.map_append]
  exact (List.prefix_append _ _).filterMap _

theorem exists_proof_of_mem_keysOf {key : PublicKey} (hKey : key ∈ keysOf (before.map (·.1))) :
    ∃ signed, (key.toToken, signed) ∈ before ∧ PublicKey.ofToken key.toToken = .ok key := by
  obtain ⟨token, hToken, hRead⟩ := List.mem_filterMap.mp hKey
  obtain ⟨⟨_, signed⟩, hMem, rfl⟩ := List.mem_map.mp hToken
  rw [toOption_eq_some_iff] at hRead
  obtain ⟨-, rfl⟩ := (PublicKey.ofToken_eq_ok_iff ..).mp hRead
  exact ⟨signed, hMem, hRead⟩

end

variable [HashFunction]

/-- What is reported in the end, behind the servers that pass. -/
def conclusion (lookup : Lookup) (name : String) (trust : Trust) :
    Except Rejection (Option Entry) → Event
  | .error reason => .rejected name reason
  | .ok answer =>
    .accepted name (lookup.trustedSigners trust).card trust.keySet.card answer.isSome

/-- The keys that a verification meets before it ends: those of the servers that vouch for the answer, up to
the first one that does not. -/
structure Visits (lookup : Lookup) (name : String) (trust : Trust) (now : UInt64)
    (visited : List PublicKey) : Prop where
  inOrder : visited <+: lookup.signers
  vouch : ∀ key ∈ visited, ∃ signed, lookup.proofs.get? key.toToken = some signed ∧
    signed.Vouches key name lookup.entry trust.maxAge now
  log_eq : (lookup.verify name trust now).log =
    visited.map (fun key => .signerVerified key.toToken name) ++
      [lookup.conclusion name trust (lookup.verify name trust now).verdict]
  all : lookup.AllVouch name trust.maxAge now → visited = lookup.signers
  accepted : ∀ answer, (lookup.verify name trust now).verdict = .ok answer → visited = lookup.signers

variable {lookup : Lookup} {name : String} {trust : Trust} {now : UInt64}

theorem Visits.of_passes {before after : List (String × SignedPath)}
    (hProofs : lookup.proofs.toList = before ++ after)
    (hPass : ∀ p ∈ before, p.2.Passes p.1 name lookup.entry trust.maxAge now)
    (hEnd : lookup.AllVouch name trust.maxAge now → after = [])
    (hLog : (lookup.verify name trust now).log =
      passLog name before ++ [lookup.conclusion name trust (lookup.verify name trust now).verdict]) :
    lookup.Visits name trust now (keysOf (before.map (·.1))) := by
  have hAll (h : lookup.AllVouch name trust.maxAge now) :
      keysOf (before.map (·.1)) = lookup.signers := by
    rw [signers, SortedMap.keys, hProofs, hEnd h, List.append_nil]
  refine ⟨keysOf_before hProofs, fun key hKey => ?_, ?_, hAll, fun answer hAnswer => ?_⟩
  · obtain ⟨signed, hMem, hRead⟩ := exists_proof_of_mem_keysOf hKey
    obtain ⟨signer, hSigner, hVouches⟩ := hPass _ hMem
    cases hRead.symm.trans hSigner
    refine ⟨signed, ?_, hVouches⟩
    rw [SortedMap.get?_eq_some_iff, hProofs]
    exact List.mem_append_left _ hMem
  · rw [hLog, passLog_eq fun p hp => (hPass p hp).imp fun _ h => h.1]
  · exact hAll (verdict_eq_ok_iff_allVouch.mp hAnswer).2.1

theorem passes_of_allVouch (h : lookup.AllVouch name trust.maxAge now) :
    ∀ p ∈ lookup.proofs.toList, p.2.Passes p.1 name lookup.entry trust.maxAge now :=
  fun p hp => (SignedPath.passes_iff_check ..).mpr (allVouch_iff.mp h p hp)

theorem exists_visits (lookup : Lookup) (name : String) (trust : Trust) (now : UInt64) :
    ∃ visited, lookup.Visits name trust now visited := by
  obtain ⟨outcome, hEnds⟩ := lookup.exists_ends name trust now
  have hVerify := hEnds.eq_verify
  cases hEnds with
  | @fails before after p reason hProofs hBefore hFails =>
    refine ⟨_, .of_passes hProofs hBefore (fun hAll => ?_) (by rw [hVerify]; rfl)⟩
    -- The server that fails is one of those that would have to vouch.
    obtain ⟨signer, hCheck⟩ := allVouch_iff.mp hAll p (by simp [hProofs])
    cases hCheck.symm.trans ((SignedPath.check_eq_error_iff ..).mpr hFails)
  | tooFew hAll =>
    exact ⟨_, .of_passes (List.append_nil _).symm (passes_of_allVouch hAll) (fun _ => rfl)
      (by rw [hVerify]; rfl)⟩
  | accepted hAll hValid =>
    exact ⟨_, .of_passes (List.append_nil _).symm (passes_of_allVouch hAll) (fun _ => rfl)
      (by rw [hVerify, conclusion, hValid])⟩

/-- Tokens are in the order of the byte strings that they write, and tokens of public keys in the order of the
keys. The pass over the servers of a lookup meets the keys of the servers from the first one on in the order in
which the set of the signers lists them, and the trusted ones among them in the order in which the trusted keys
are listed. -/
theorem visits_in_key_order (lookup : Lookup) (name : String) (trust : Trust) (now : UInt64) :
    (∀ a b, Bytes.ofString (Token.encode a) < Bytes.ofString (Token.encode b) ↔ a < b) ∧
    (∀ tag a b, Bytes.ofString (Token.wrap a tag) < Bytes.ofString (Token.wrap b tag) ↔ a < b) ∧
    (∀ key key' : PublicKey, compare key.toToken key'.toToken = compare key key') ∧
    (∃ visited, lookup.Visits name trust now visited) ∧
    (SortedSet.ofList lookup.signers).keys = lookup.signers ∧
    lookup.signers.filter (trust.trusts ·) = trust.keys.keys.filter (lookup.signers.contains ·) := by
  refine ⟨fun a b => ?_, fun tag a b => ?_, PublicKey.compare_toToken,
    lookup.exists_visits name trust now, lookup.keys_ofList_signers, lookup.filter_signers trust⟩
  · rw [Bytes.ofString_lt_iff, Token.encode_lt_encode_iff]
  · rw [Bytes.ofString_lt_iff, Token.wrap_lt_wrap_iff]

end Lookup

end SignedDirectory
