import SignedDirectory.Proofs.Verification.Outcome

/-!
# Verdicts on the same answer

How the verdict on an answer changes with the trust, with the time and with the servers that take part.
Relaxing the trust and asking earlier keep an acceptance; answers with the same entry can be merged, and
then their trusted servers count together; but one server that fails is enough for a rejection
(`Lookup.verdicts_compose`).
-/

namespace SignedDirectory

/-- All keys that were trusted still are, no more of them have to vouch, and signatures count for at
least as long. -/
structure Trust.Relaxes (relaxed trust : Trust) : Prop where
  keySet_subset : trust.keySet ⊆ relaxed.keySet
  threshold_le : relaxed.threshold ≤ trust.threshold
  maxAge_le : trust.maxAge ≤ relaxed.maxAge

/-- Whether the signature is too old, which is the only thing about a server that depends on the trust
and on the time. -/
def Rejection.isStale : Rejection → Bool
  | .staleSignature .. => true
  | _ => false

/-! ## Trusted servers -/

namespace Lookup

theorem trustedSigners_subset (lookup : Lookup) {trust trust' : Trust}
    (h : trust.keySet ⊆ trust'.keySet) :
    lookup.trustedSigners trust ⊆ lookup.trustedSigners trust' := Finset.filter_subset_filter _ h

theorem get?_merge (lookup other : Lookup) (token : String) :
    (lookup.merge other).proofs.get? token =
      (other.proofs.get? token).or (lookup.proofs.get? token) := SortedMap.get?_union ..

theorem trustedSigners_merge (lookup other : Lookup) (trust : Trust) :
    (lookup.merge other).trustedSigners trust =
      lookup.trustedSigners trust ∪ other.trustedSigners trust := by
  rw [trustedSigners, trustedSigners, trustedSigners, ← Finset.filter_or]
  apply Finset.filter_congr
  intro key _
  simp only [SortedMap.contains, get?_merge, Option.isSome_or, Bool.or_eq_true]
  exact or_comm

end Lookup

/-! ## Another trust, another time -/

variable [HashFunction] [SignatureScheme]

namespace SignedPath

variable {signed : SignedPath} {token name : String} {entry : Option Entry}
  {maxAge maxAge' now now' : UInt64}

theorem Passes.mono (h : signed.Passes token name entry maxAge now) (hAge : maxAge ≤ maxAge')
    (hNow : now' ≤ now) : signed.Passes token name entry maxAge' now' := by
  obtain ⟨signer, hToken, hVouches⟩ := h
  refine ⟨signer, hToken, hVouches.root_eq, ?_, hVouches.signature⟩
  calc now'.toNat
    _ ≤ now.toNat := hNow
    _ ≤ signed.signedRoot.root.timestamp.toNat + maxAge.toNat := hVouches.recent
    _ ≤ signed.signedRoot.root.timestamp.toNat + maxAge'.toNat := Nat.add_le_add_left hAge _

/-- A server that fails does so under all trust and at all times, unless its signature is too old; then
it is too old also later, and where signatures count for shorter. -/
theorem Fails.not_passes {reason : Rejection} (h : signed.Fails token name entry maxAge now reason)
    (hLater : reason.isStale → maxAge' ≤ maxAge ∧ now ≤ now') :
    ¬ signed.Passes token name entry maxAge' now' := by
  intro hPasses
  cases h with
  | format hToken =>
    obtain ⟨signer, hRead, -⟩ := hPasses
    rw [hToken] at hRead
    cases hRead
  | badRootHash hToken hRoot =>
    obtain ⟨_, _, hVouches⟩ := hPasses
    exact hRoot hVouches.root_eq
  | staleSignature hToken hRoot hStale hCutoff =>
    obtain ⟨hAge, hNow⟩ := hLater rfl
    obtain ⟨_, _, hVouches⟩ := hPasses.mono hAge hNow
    exact Nat.not_lt.mpr hVouches.recent hStale
  | badSignature hToken hRoot hRecent hSignature =>
    obtain ⟨signer, hRead, hVouches⟩ := hPasses
    obtain rfl := Except.ok.inj (hToken.symm.trans hRead)
    rw [hVouches.signature] at hSignature
    cases hSignature

end SignedPath

namespace Lookup

variable {lookup other : Lookup} {name : String} {trust trust' : Trust} {maxAge now now' : UInt64}

theorem verdict_of_relaxes {answer : Option Entry} (hTrust : trust'.Relaxes trust) (hNow : now' ≤ now)
    (h : (lookup.verify name trust now).verdict = .ok answer) :
    (lookup.verify name trust' now').verdict = .ok answer := by
  obtain ⟨hAnswer, hAll, hCount⟩ := verdict_eq_ok_iff_allVouch.mp h
  refine verdict_eq_ok_iff_allVouch.mpr ⟨hAnswer, fun token signed hSigned => ?_, ?_⟩
  · have hPasses : signed.Passes token name lookup.entry trust.maxAge now := hAll token signed hSigned
    exact hPasses.mono hTrust.maxAge_le hNow
  · calc trust'.threshold
      _ ≤ trust.threshold := hTrust.threshold_le
      _ ≤ (lookup.trustedSigners trust).card := hCount
      _ ≤ (lookup.trustedSigners trust').card :=
        Finset.card_le_card (lookup.trustedSigners_subset hTrust.keySet_subset)

/-! ## More servers -/

theorem AllVouch.merge (hEntry : other.entry = lookup.entry) (h : lookup.AllVouch name maxAge now)
    (hOther : other.AllVouch name maxAge now) : (lookup.merge other).AllVouch name maxAge now := by
  intro token signed hSigned
  rw [get?_merge, Option.or_eq_some_iff] at hSigned
  rcases hSigned with hSigned | ⟨_, hSigned⟩
  · exact hEntry ▸ hOther token signed hSigned
  · exact h token signed hSigned

theorem exists_rejection_of_not_passes {token : String} {signed : SignedPath}
    (hSigned : lookup.proofs.get? token = some signed)
    (h : ¬ signed.Passes token name lookup.entry trust.maxAge now) :
    ∃ reason, (lookup.verify name trust now).verdict = .error reason := by
  cases hVerdict : (lookup.verify name trust now).verdict with
  | error reason => exact ⟨reason, rfl⟩
  | ok answer =>
    obtain ⟨_, hAll, _⟩ := verdict_eq_ok_iff_allVouch.mp hVerdict
    exact absurd (hAll token signed hSigned) h

/-- An acceptance stands when the trust is relaxed and at earlier times. A merge of two answers with the
same entry, whose servers all pass, is accepted exactly if the trusted servers of both together are
enough. With a server that fails, an answer is rejected under all trust and at all times, or, if it is
the signature that is too old, then and later wherever signatures count for no longer. -/
theorem verdicts_compose (lookup : Lookup) (name : String) :
    (∀ trust trust' now now' answer, trust'.Relaxes trust → now' ≤ now →
      (lookup.verify name trust now).verdict = .ok answer →
      (lookup.verify name trust' now').verdict = .ok answer) ∧
    (∀ other trust now, other.entry = lookup.entry →
      lookup.AllVouch name trust.maxAge now → other.AllVouch name trust.maxAge now →
      (∀ token, (lookup.merge other).proofs.get? token =
        (other.proofs.get? token).or (lookup.proofs.get? token)) ∧
      (lookup.merge other).AllVouch name trust.maxAge now ∧
      ∀ answer, ((lookup.merge other).verify name trust now).verdict = .ok answer ↔
        answer = lookup.entry ∧
          trust.threshold ≤ (lookup.trustedSigners trust ∪ other.trustedSigners trust).card) ∧
    ∀ token signed maxAge now reason, signed.Fails token name lookup.entry maxAge now reason →
      ∀ trust now', (reason.isStale → trust.maxAge ≤ maxAge ∧ now ≤ now') → ∃ reason',
        ({ lookup with proofs := lookup.proofs.insert token signed }.verify name trust now').verdict =
          .error reason' := by
  refine ⟨fun _ _ _ _ _ => verdict_of_relaxes, ?_, ?_⟩
  · intro other trust now hEntry hAll hOther
    have hMerge := AllVouch.merge hEntry hAll hOther
    refine ⟨get?_merge lookup other, hMerge, fun answer => ?_⟩
    rw [verdict_eq_ok_iff_allVouch, trustedSigners_merge]
    simp only [hMerge, true_and]
    rfl
  · intro token signed maxAge now reason hFails trust now' hLater
    have hSigned : (lookup.proofs.insert token signed).get? token = some signed := by
      rw [SortedMap.get?_insert, if_pos rfl]
    exact exists_rejection_of_not_passes hSigned (hFails.not_passes hLater)

end Lookup

end SignedDirectory
