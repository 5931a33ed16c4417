import SignedDirectory.Proofs.Text.ByteOrder
import SignedDirectory.Proofs.Verification.Acceptance

/-!
# How a verification ends

Several servers can fail at once, and a server can fail several checks at once. `SignedPath.Fails` says
which rejection a single server leads to, and `Lookup.Ends` which verdict and which events a whole lookup
leads to, without going through the checks. Exactly one outcome is as `Lookup.Ends` says, and it is the
one of the verification (`Lookup.verify_eq_iff_ends`): the first server that fails decides, whatever comes
behind it and whoever is trusted.
-/

namespace SignedDirectory

variable [HashFunction] [SignatureScheme]

/-! ## One server -/

namespace SignedPath

variable (signed : SignedPath) (token name : String) (entry : Option Entry)

/-- The server vouches for the answer with the key of its token. -/
def Passes (maxAge now : UInt64) : Prop :=
  ∃ signer, PublicKey.ofToken token = .ok signer ∧ signed.Vouches signer name entry maxAge now

/-- Why a server is rejected: of the four checks it fails this one, and passes those before it. -/
inductive Fails (maxAge now : UInt64) : Rejection → Prop where
  | format {e : FormatError} (hToken : PublicKey.ofToken token = .error e) :
      Fails maxAge now (.format e)
  | badRootHash {signer : PublicKey} (hToken : PublicKey.ofToken token = .ok signer)
      (hRoot : signed.path.root (.ofName name) (Entry.digest? entry) ≠ signed.signedRoot.root.rootHash) :
      Fails maxAge now (.badRootHash token (signed.path.root (.ofName name) (Entry.digest? entry))
        signed.signedRoot.root.rootHash)
  | staleSignature {signer : PublicKey} {cutoff : UInt64}
      (hToken : PublicKey.ofToken token = .ok signer)
      (hRoot : signed.path.root (.ofName name) (Entry.digest? entry) = signed.signedRoot.root.rootHash)
      (hStale : signed.signedRoot.root.timestamp.toNat + maxAge.toNat < now.toNat)
      (hCutoff : cutoff.toNat = now.toNat - maxAge.toNat) :
      Fails maxAge now (.staleSignature token signed.signedRoot.root.timestamp cutoff)
  | badSignature {signer : PublicKey} (hToken : PublicKey.ofToken token = .ok signer)
      (hRoot : signed.path.root (.ofName name) (Entry.digest? entry) = signed.signedRoot.root.rootHash)
      (hRecent : now.toNat ≤ signed.signedRoot.root.timestamp.toNat + maxAge.toNat)
      (hSignature : signer.verify (.root signed.signedRoot.root) signed.signedRoot.signature = false) :
      Fails maxAge now (.badSignature token)

variable (trust : Trust) (now : UInt64)

theorem passes_iff_check : signed.Passes token name entry trust.maxAge now ↔
    ∃ signer, signed.check token (.ofName name) (Entry.digest? entry) (trust.cutoff now) = .ok signer := by
  simp only [Passes, check_eq_ok_iff]

theorem check_eq_error_iff (reason : Rejection) :
    signed.check token (.ofName name) (Entry.digest? entry) (trust.cutoff now) = .error reason ↔
      signed.Fails token name entry trust.maxAge now reason := by
  rw [check_eq, bind_eq_error_iff]
  simp only [mapError_eq_error_iff, mapError_eq_ok_iff]
  constructor
  · rintro (⟨e, hToken, rfl⟩ | ⟨signer, hToken, h⟩)
    · exact .format hToken
    · split at h
      · rename_i hRoot
        cases h
        exact .badRootHash hToken hRoot
      · rename_i hRoot
        split at h
        · rename_i hStale
          cases h
          exact .staleSignature hToken (not_not.mp hRoot) ((trust.lt_cutoff_iff ..).mp hStale)
            (trust.toNat_cutoff now)
        · rename_i hRecent
          rw [trust.lt_cutoff_iff, not_lt] at hRecent
          split at h
          · rename_i hSignature
            cases h
            have hVerify : signed.signedRoot.verify signer = false := by simpa using hSignature
            exact .badSignature hToken (not_not.mp hRoot) hRecent hVerify
          · cases h
  · intro h
    cases h with
    | format hToken => exact .inl ⟨_, hToken, rfl⟩
    | badRootHash hToken hRoot =>
      refine .inr ⟨_, hToken, ?_⟩
      rw [if_pos hRoot]
    | staleSignature hToken hRoot hStale hCutoff =>
      obtain rfl := UInt64.toNat_inj.mp (hCutoff.trans (trust.toNat_cutoff now).symm)
      refine .inr ⟨_, hToken, ?_⟩
      rw [if_neg (not_not_intro hRoot), if_pos ((trust.lt_cutoff_iff ..).mpr hStale)]
    | @badSignature signer hToken hRoot hRecent hSignature =>
      have hVerify : signed.signedRoot.verify signer = false := hSignature
      refine .inr ⟨signer, hToken, ?_⟩
      rw [if_neg (not_not_intro hRoot), if_neg (by rw [trust.lt_cutoff_iff]; omega), hVerify]
      rfl

theorem passes_or_fails : signed.Passes token name entry trust.maxAge now ∨
    ∃ reason, signed.Fails token name entry trust.maxAge now reason := by
  simp only [passes_iff_check, ← check_eq_error_iff]
  cases signed.check token (.ofName name) (Entry.digest? entry) (trust.cutoff now) with
  | ok signer => exact .inl ⟨signer, rfl⟩
  | error reason => exact .inr ⟨reason, rfl⟩

end SignedPath

/-! ## All servers -/

namespace Lookup

/-- The reports on servers that pass, in their order. -/
def passLog (name : String) (proofs : List (String × SignedPath)) : List Event :=
  proofs.map fun p => .signerVerified p.1 name

/-- How the verification of a lookup ends, and what is reported: the first server that fails, or the
number of trusted keys among the servers. -/
inductive Ends (lookup : Lookup) (name : String) (trust : Trust) (now : UInt64) : Outcome → Prop where
  | fails {before after : List (String × SignedPath)} {p : String × SignedPath} {reason : Rejection}
      (hProofs : lookup.proofs.toList = before ++ p :: after)
      (hBefore : ∀ q ∈ before, q.2.Passes q.1 name lookup.entry trust.maxAge now)
      (hFails : p.2.Fails p.1 name lookup.entry trust.maxAge now reason) :
      Ends lookup name trust now ⟨.error reason, passLog name before ++ [.rejected name reason]⟩
  | tooFew {valid : Nat} (hAll : lookup.AllVouch name trust.maxAge now)
      (hValid : (lookup.trustedSigners trust).card = valid) (hCount : valid < trust.threshold) :
      Ends lookup name trust now
        ⟨.error (.insufficientSignatures valid trust.threshold),
          passLog name lookup.proofs.toList ++
            [.rejected name (.insufficientSignatures valid trust.threshold)]⟩
  | accepted {valid : Nat} (hAll : lookup.AllVouch name trust.maxAge now)
      (hValid : (lookup.trustedSigners trust).card = valid) (hCount : trust.threshold ≤ valid) :
      Ends lookup name trust now
        ⟨.ok lookup.entry, passLog name lookup.proofs.toList ++
          [.accepted name valid trust.keySet.card lookup.entry.isSome]⟩

section

variable {name : String} {key value : Digest} {cutoff : UInt64}

theorem checkAll_of_fails {before after : List (String × SignedPath)} {p : String × SignedPath}
    {reason : Rejection}
    (hBefore : ∀ q ∈ before, ∃ signer, q.2.check q.1 key value cutoff = .ok signer)
    (hFails : p.2.check p.1 key value cutoff = .error reason) :
    checkAll name key value cutoff (before ++ p :: after) =
      (.error reason, passLog name before ++ [.rejected name reason]) := by
  induction before with
  | nil =>
    rw [List.nil_append, checkAll, hFails]
    rfl
  | cons q before ih =>
    obtain ⟨⟨signer, hFirst⟩, hRest⟩ := List.forall_mem_cons.mp hBefore
    rw [List.cons_append, checkAll, hFirst]
    simp only [ih hRest]
    rfl

theorem checkAll_of_passes (name : String) {proofs : List (String × SignedPath)}
    (h : ∀ q ∈ proofs, ∃ signer, q.2.check q.1 key value cutoff = .ok signer) :
    ∃ signers, checkAll name key value cutoff proofs = (.ok signers, passLog name proofs) := by
  induction proofs with
  | nil => exact ⟨[], rfl⟩
  | cons q proofs ih =>
    obtain ⟨⟨signer, hFirst⟩, hRest⟩ := List.forall_mem_cons.mp h
    obtain ⟨signers, hSigners⟩ := ih hRest
    refine ⟨signer :: signers, ?_⟩
    rw [checkAll, hFirst]
    simp only [hSigners]
    rfl

end

variable {lookup : Lookup} {name : String} {trust : Trust} {now : UInt64}

theorem verify_of_allVouch {valid : Nat} (h : lookup.AllVouch name trust.maxAge now)
    (hValid : (lookup.trustedSigners trust).card = valid) :
    lookup.verify name trust now =
      if valid < trust.threshold then
        ⟨.error (.insufficientSignatures valid trust.threshold), passLog name lookup.proofs.toList ++
          [.rejected name (.insufficientSignatures valid trust.threshold)]⟩
      else
        ⟨.ok lookup.entry, passLog name lookup.proofs.toList ++
          [.accepted name valid trust.keySet.card lookup.entry.isSome]⟩ := by
  obtain ⟨signers, hPass⟩ := checkAll_of_passes name (allVouch_iff.mp h)
  have hCount := (count_eq_card_trustedSigners h (congrArg Prod.fst hPass)).trans hValid
  simp only [verify, hPass, hCount, trust.card_keySet]

theorem Ends.eq_verify {outcome : Outcome} (h : lookup.Ends name trust now outcome) :
    lookup.verify name trust now = outcome := by
  cases h with
  | @fails before after p reason hProofs hBefore hFails =>
    have hPass : checkAll name (.ofName name) (Entry.digest? lookup.entry) (trust.cutoff now)
        lookup.proofs.toList = (.error reason, passLog name before ++ [.rejected name reason]) := by
      rw [hProofs]
      exact checkAll_of_fails (fun q hq => (SignedPath.passes_iff_check ..).mp (hBefore q hq))
        ((SignedPath.check_eq_error_iff ..).mpr hFails)
    simp only [verify, hPass]
  | tooFew hAll hValid hCount => rw [verify_of_allVouch hAll hValid, if_pos hCount]
  | accepted hAll hValid hCount => rw [verify_of_allVouch hAll hValid, if_neg (Nat.not_lt.mpr hCount)]

/-- Either all servers pass, or one of them is the first to fail. -/
theorem allPass_or_firstFails (proofs : List (String × SignedPath)) (name : String)
    (entry : Option Entry) (trust : Trust) (now : UInt64) :
    (∀ q ∈ proofs, q.2.Passes q.1 name entry trust.maxAge now) ∨
      ∃ before p after reason, proofs = before ++ p :: after ∧
        (∀ q ∈ before, q.2.Passes q.1 name entry trust.maxAge now) ∧
        p.2.Fails p.1 name entry trust.maxAge now reason := by
  induction proofs with
  | nil => exact .inl (by simp)
  | cons p proofs ih =>
    rcases p.2.passes_or_fails p.1 name entry trust now with hPass | ⟨reason, hFails⟩
    · rcases ih with hAll | ⟨before, q, after, reason, rfl, hBefore, hFails⟩
      · exact .inl (List.forall_mem_cons.mpr ⟨hPass, hAll⟩)
      · exact .inr ⟨p :: before, q, after, reason, rfl, List.forall_mem_cons.mpr ⟨hPass, hBefore⟩, hFails⟩
    · exact .inr ⟨[], p, proofs, reason, rfl, by simp, hFails⟩

theorem exists_ends (lookup : Lookup) (name : String) (trust : Trust) (now : UInt64) :
    ∃ outcome, lookup.Ends name trust now outcome := by
  rcases allPass_or_firstFails lookup.proofs.toList name lookup.entry trust now with
    hAll | ⟨before, p, after, reason, hProofs, hBefore, hFails⟩
  · have hVouch : lookup.AllVouch name trust.maxAge now :=
      allVouch_iff.mpr fun q hq => (SignedPath.passes_iff_check ..).mp (hAll q hq)
    rcases Nat.lt_or_ge (lookup.trustedSigners trust).card trust.threshold with hFew | hEnough
    · exact ⟨_, .tooFew hVouch rfl hFew⟩
    · exact ⟨_, .accepted hVouch rfl hEnough⟩
  · exact ⟨_, .fails hProofs hBefore hFails⟩

/-- The servers are taken in the byte order of their tokens, and the outcome is the one that `Ends`
describes. Servers that pass are reported for debugging, a rejection as a warning with its reason, and an
acceptance for information. -/
theorem verify_eq_iff_ends (lookup : Lookup) (name : String) (trust : Trust) (now : UInt64) :
    (lookup.proofs.keys.Pairwise fun token token' => Bytes.ofString token < Bytes.ofString token') ∧
    (∀ outcome, lookup.verify name trust now = outcome ↔ lookup.Ends name trust now outcome) ∧
    (∀ token, (Event.signerVerified token name).level = .debug) ∧
    (∀ reason, (Event.rejected name reason).level = .warn ∧
      (Event.rejected name reason).message = s!"Rejecting lookup for {name}: {reason.message}") ∧
    ∀ valid trusted isPresent, (Event.accepted name valid trusted isPresent).level = .info := by
  refine ⟨?_, fun outcome => ⟨?_, Ends.eq_verify⟩, fun _ => rfl, fun _ => ⟨rfl, rfl⟩,
    fun _ _ _ => rfl⟩
  · refine List.pairwise_map.mpr (lookup.proofs.ascending.imp fun hLt => ?_)
    exact (Bytes.ofString_lt_iff ..).mpr (compareOfLessAndEq_eq_lt.mp hLt)
  · rintro rfl
    obtain ⟨outcome, hEnds⟩ := lookup.exists_ends name trust now
    exact hEnds.eq_verify.symm ▸ hEnds

end Lookup

end SignedDirectory
