import SignedDirectory.Command.Basic
import SignedDirectory.Ed25519.Signing
import SignedDirectory.Proofs.Verification.Acceptance

/-!
# What a checked configuration is good for

A configuration that was read has passed its check (`defect?_eq_none_iff`): every key decodes, and no more
keys have to vouch than are listed. The check counts listed tokens and the trust counts keys, so that a
configuration which lists a key twice may pass the one and fail the other. `Loaded.exists_toTrust_iff`
says exactly which configurations give a trust, what this trust is, and when a lookup is not verified for
want of one.
-/

namespace SignedDirectory

/-! ## Trusts from tokens -/

namespace Trust

theorem size_ofList (keys : List PublicKey) : (SortedSet.ofList keys).size = keys.toFinset.card := by
  rw [← card_toFinset_keys, toFinset_keys_ofList]

theorem ofKeys_of_le {keys : List PublicKey} {threshold : Nat} (hPos : 0 < threshold)
    (hLe : threshold ≤ keys.toFinset.card) :
    ∃ trust, ofKeys keys threshold = .ok trust := by
  have hSize : threshold ≤ (SortedSet.ofList keys).size := size_ofList keys ▸ hLe
  rw [ofKeys, dif_pos hPos, dif_pos hSize]
  exact ⟨_, rfl⟩

theorem ofKeys_of_lt {keys : List PublicKey} {threshold : Nat}
    (hLt : keys.toFinset.card < threshold) :
    ofKeys keys threshold = .error (.thresholdExceeds threshold keys.toFinset.card) := by
  have hPos : 0 < threshold := Nat.zero_lt_of_lt hLt
  have hSize : ¬threshold ≤ (SortedSet.ofList keys).size := by
    rw [size_ofList]
    omega
  rw [ofKeys, dif_pos hPos, dif_neg hSize, size_ofList]

end Trust

namespace PublicKey

/-- Keys are as many as their tokens, because no two keys have one token. -/
theorem card_toFinset_map_toToken (keys : List PublicKey) :
    (keys.map toToken).toFinset.card = keys.toFinset.card := by
  have hImage : (keys.map toToken).toFinset = keys.toFinset.image toToken := by
    ext token
    simp
  rw [hImage, Finset.card_image_of_injective _ fun _ _ => toToken_injective]

variable [SignatureScheme]

theorem mapM_ofToken {tokens : List String} (h : ∀ token ∈ tokens, ∃ key, ofToken token = .ok key) :
    ∃ keys, tokens.mapM ofToken = .ok keys ∧ tokens = keys.map toToken ∧
      ∀ key, key ∈ keys ↔ ∃ token ∈ tokens, ofToken token = .ok key := by
  induction tokens with
  | nil => exact ⟨[], rfl, rfl, by simp⟩
  | cons token tokens ih =>
    obtain ⟨⟨key, hKey⟩, hRest⟩ := List.forall_mem_cons.mp h
    obtain ⟨keys, hKeys, hTokens, hMem⟩ := ih hRest
    refine ⟨key :: keys, ?_, ?_, fun key' => ?_⟩
    · rw [List.mapM_cons, hKey, hKeys]
      rfl
    · rw [List.map_cons, ← hTokens, ← ((ofToken_eq_ok_iff ..).mp hKey).2]
    · rw [List.mem_cons, hMem, List.exists_mem_cons_iff, hKey, Except.ok.injEq]
      exact or_congr_left eq_comm

end PublicKey

/-! ## The check -/

namespace Config

section

variable [SignatureScheme]

theorem firstBadKey?_eq_none_iff (index : Nat) (tokens : List String) :
    firstBadKey? index tokens = none ↔ ∀ token ∈ tokens, ∃ key, PublicKey.ofToken token = .ok key := by
  induction tokens generalizing index with
  | nil => simp [firstBadKey?]
  | cons token tokens ih =>
    rw [firstBadKey?, List.forall_mem_cons]
    split
    · rename_i key hKey
      simp [hKey, ih]
    · rename_i e hKey
      simp [hKey]

/-- A configuration passes the check if it lists keys, all listed tokens are keys, the threshold lies
between one and the number of listed tokens, and level and format are known ones. -/
theorem defect?_eq_none_iff (config : Config) : config.defect? = none ↔
    config.trust.keys ≠ [] ∧ (∀ token ∈ config.trust.keys, ∃ key, PublicKey.ofToken token = .ok key) ∧
      (0 < config.trust.threshold ∧ config.trust.threshold ≤ config.trust.keys.length) ∧
      config.logging.level ∈ levels ∧ config.logging.format ∈ formats := by
  rw [← firstBadKey?_eq_none_iff 0, defect?]
  split
  · rename_i hEmpty
    simp [hEmpty]
  · rename_i hKeys
    split
    · rename_i d hBad
      simp [hBad]
    · rename_i hGood
      simp only [hGood, Nat.pos_iff_ne_zero]
      split_ifs <;> simp_all

/-- The configurations that are read from a text or from a file. -/
inductive Loaded : Config → Prop where
  | ofText {environment : Environment} {text : String} {config : Config} :
      ofText environment text = .ok config → Loaded config
  | ofFile {environment : Environment} {path : String} {contents : Option Bytes} {config : Config} :
      ofFile environment path contents = .ok config → Loaded config

theorem defect?_of_load {origin : Origin} {environment : Environment} {text : String} {config : Config}
    (h : load origin environment text = .ok config) : config.defect? = none := by
  obtain ⟨filled, -, h⟩ := bind_eq_ok_iff.mp h
  split at h
  · cases h
  · split at h
    · cases h
    · rename_i hDefect
      cases h
      exact hDefect

theorem Loaded.defect?_eq_none {config : Config} (h : Loaded config) : config.defect? = none := by
  cases h with
  | ofText h => exact defect?_of_load h
  | ofFile h =>
    rw [Config.ofFile] at h
    split at h
    · exact defect?_of_load h
    · cases h

/-! ## The trust -/

/-- How many keys are listed, each counted once however often it is listed. -/
def keyCount (config : Config) : Nat := config.trust.keys.toFinset.card

/-- The listed tokens decode, and no key is lost or found twice on the way. -/
theorem exists_keys {config : Config} (h : config.defect? = none) :
    ∃ keys, config.trust.keys.mapM PublicKey.ofToken = .ok keys ∧
      config.keyCount = keys.toFinset.card ∧
      ∀ key, key ∈ keys ↔ ∃ token ∈ config.trust.keys, PublicKey.ofToken token = .ok key := by
  obtain ⟨-, hDecode, -⟩ := (defect?_eq_none_iff config).mp h
  obtain ⟨keys, hKeys, hTokens, hMem⟩ := PublicKey.mapM_ofToken hDecode
  refine ⟨keys, hKeys, ?_, hMem⟩
  rw [keyCount, hTokens, PublicKey.card_toFinset_map_toToken]

theorem toTrust_eq {config : Config} {keys : List PublicKey}
    (h : config.trust.keys.mapM PublicKey.ofToken = .ok keys) :
    config.toTrust =
      (Trust.ofKeys keys config.trust.threshold).map (·.withMaxAge config.trust.maxAge) := by
  rw [toTrust, Trust.ofTokens_eq _ h]

theorem toTrust_of_le {config : Config} (h : config.defect? = none)
    (hLe : config.trust.threshold ≤ config.keyCount) :
    ∃ trust, config.toTrust = .ok trust ∧
      (∀ key, key ∈ trust.keySet ↔ ∃ token ∈ config.trust.keys, PublicKey.ofToken token = .ok key) ∧
      trust.keySet.card = config.keyCount ∧ trust.threshold = config.trust.threshold ∧
      trust.maxAge = config.trust.maxAge := by
  obtain ⟨-, -, ⟨hPos, -⟩, -⟩ := (defect?_eq_none_iff config).mp h
  obtain ⟨keys, hKeys, hCount, hMem⟩ := exists_keys h
  obtain ⟨trust, hTrust⟩ := Trust.ofKeys_of_le hPos (hCount ▸ hLe)
  have hBuilt := Trust.Built.withMaxAge config.trust.maxAge (.ofKeys hTrust)
  obtain ⟨hKeySet, hThreshold, hAge⟩ := Trust.keySet_of_built hBuilt
  refine ⟨trust.withMaxAge config.trust.maxAge, ?_, fun key => ?_, ?_, hThreshold, hAge⟩
  · rw [toTrust_eq hKeys, hTrust]
    rfl
  · rw [hKeySet, List.mem_toFinset, hMem]
  · rw [hKeySet, hCount]

theorem toTrust_of_lt {config : Config} (h : config.defect? = none)
    (hLt : config.keyCount < config.trust.threshold) :
    config.toTrust = .error (.thresholdExceeds config.trust.threshold config.keyCount) := by
  obtain ⟨keys, hKeys, hCount, -⟩ := exists_keys h
  rw [hCount] at hLt ⊢
  rw [toTrust_eq hKeys, Trust.ofKeys_of_lt hLt]
  rfl

/-- What has to be there for the verification of a lookup, in the order in which it is missed. -/
theorem verify_fst_eq [HashFunction] (config : Config) (path : String) (contents : Option Bytes)
    (name : String) (now? clock : Option UInt64) :
    (Command.verify path contents name now? clock config).1 =
      contents.elim (.error (.unreadable path)) fun bytes =>
        (Json.ofBytes Lookup bytes).mapError (.noLookup path) >>= fun lookup =>
          config.toTrust.mapError .trust >>= fun trust =>
            (now? <|> clock).elim (.error .clock) fun now =>
              (lookup.verify name trust now).verdict.mapError (.rejected name) := by
  unfold Command.verify
  cases contents with
  | none => rfl
  | some bytes =>
    dsimp only [Option.elim_some]
    cases Json.ofBytes Lookup bytes with
    | error fault => rfl
    | ok lookup =>
      cases config.toTrust with
      | error e => rfl
      | ok trust => cases now? <|> clock <;> rfl

/-- A lookup is not verified for want of a trust exactly if the file holds a lookup and the configuration
gives no trust. -/
theorem verify_eq_trust_error_iff [HashFunction] (config : Config) (path : String)
    (contents : Option Bytes) (name : String) (now? clock : Option UInt64) (e : TrustError) :
    (Command.verify path contents name now? clock config).1 = .error (.trust e) ↔
      (∃ bytes lookup, contents = some bytes ∧ Json.ofBytes Lookup bytes = .ok lookup) ∧
        config.toTrust = .error e := by
  rw [verify_fst_eq]
  cases contents with
  | none => simp
  | some bytes =>
    simp only [Option.elim_some, bind_eq_error_iff, mapError_eq_error_iff, mapError_eq_ok_iff]
    constructor
    · rintro (⟨fault, -, hFault⟩ | ⟨lookup, hLookup, ⟨e', hTrust, hError⟩ | ⟨trust, -, h⟩⟩)
      · cases hFault
      · cases hError
        exact ⟨⟨bytes, lookup, rfl, hLookup⟩, hTrust⟩
      · -- With a trust at hand there are other reasons only.
        cases hNow : now? <|> clock with
        | none =>
          rw [hNow] at h
          cases h
        | some now =>
          rw [hNow] at h
          obtain ⟨reason, -, hReason⟩ := mapError_eq_error_iff.mp h
          cases hReason
    · rintro ⟨⟨bytes', lookup, hBytes, hLookup⟩, hTrust⟩
      cases hBytes
      exact .inr ⟨lookup, hLookup, .inl ⟨e, hTrust, rfl⟩⟩

/-- Of the configurations that are read, those give a trust that ask for no more keys than they list,
each counted once; the trust then has these keys, this threshold and this greatest age. With any other
one every lookup fails to be verified, however good it is. -/
theorem Loaded.exists_toTrust_iff [HashFunction] {config : Config} (h : Loaded config) :
    ((∃ trust, config.toTrust = .ok trust) ↔ config.trust.threshold ≤ config.keyCount) ∧
    (∀ trust, config.toTrust = .ok trust →
      (∀ key, key ∈ trust.keySet ↔ ∃ token ∈ config.trust.keys, PublicKey.ofToken token = .ok key) ∧
      trust.keySet.card = config.keyCount ∧ trust.threshold = config.trust.threshold ∧
      (1 ≤ trust.threshold ∧ trust.threshold ≤ trust.keySet.card) ∧
      trust.maxAge = config.trust.maxAge) ∧
    (config.keyCount < config.trust.threshold →
      config.toTrust = .error (.thresholdExceeds config.trust.threshold config.keyCount)) ∧
    ∀ path contents name now? clock,
      (∃ e, (Command.verify path contents name now? clock config).1 = .error (.trust e)) ↔
        config.keyCount < config.trust.threshold ∧
          ∃ bytes lookup, contents = some bytes ∧ Json.ofBytes Lookup bytes = .ok lookup := by
  have hDefect := h.defect?_eq_none
  have hIff : (∃ trust, config.toTrust = .ok trust) ↔ config.trust.threshold ≤ config.keyCount := by
    constructor
    · rintro ⟨trust, hTrust⟩
      by_contra hLt
      rw [toTrust_of_lt hDefect (Nat.not_le.mp hLt)] at hTrust
      cases hTrust
    · intro hLe
      obtain ⟨trust, hTrust, -⟩ := toTrust_of_le hDefect hLe
      exact ⟨trust, hTrust⟩
  refine ⟨hIff, ?_, toTrust_of_lt hDefect, ?_⟩
  · intro trust hTrust
    obtain ⟨trust', hTrust', hKeys, hCount, hThreshold, hAge⟩ :=
      toTrust_of_le hDefect (hIff.mp ⟨trust, hTrust⟩)
    obtain rfl : trust' = trust := Except.ok.inj (hTrust'.symm.trans hTrust)
    exact ⟨hKeys, hCount, hThreshold,
      ⟨trust'.threshold_pos, trust'.card_keySet.symm ▸ trust'.threshold_le_size⟩, hAge⟩
  · intro path contents name now? clock
    simp only [verify_eq_trust_error_iff]
    constructor
    · rintro ⟨e, hLookup, hTrust⟩
      refine ⟨?_, hLookup⟩
      by_contra hLe
      obtain ⟨trust, hOk⟩ := hIff.mpr (Nat.not_lt.mp hLe)
      rw [hOk] at hTrust
      cases hTrust
    · rintro ⟨hLt, hLookup⟩
      exact ⟨_, hLookup, toTrust_of_lt hDefect hLt⟩

end

/-- One key is listed twice beside another one, and two keys have to vouch. -/
def spareKeyText : String :=
  "[trust]\nkeys = [\"ed25519-pub(26wj522ncyprkc0t9yr1e1cz2szempbddkay02qqqxqkjnkbnygg)\", " ++
    "\"ed25519-pub(53y84fc8acd8z1t0ckwvtc1nc2srrgrkee5mwtxvtdqytpwrc36g)\", " ++
    "\"ed25519-pub(26wj522ncyprkc0t9yr1e1cz2szempbddkay02qqqxqkjnkbnygg)\"]\n" ++
    "threshold = 2\nmax_signature_age_secs = 300\n"

theorem exists_toTrust_of_spareKeyText :
    ∃ config, ofText (fun _ => none) spareKeyText = .ok config ∧ config.trust.keys.length = 3 ∧
      ∃ trust, config.toTrust = .ok trust ∧ trust.keySet.card = 2 ∧ trust.threshold = 2 ∧
        trust.maxAge = 300 := by
  let repeated := "ed25519-pub(26wj522ncyprkc0t9yr1e1cz2szempbddkay02qqqxqkjnkbnygg)"
  let other := "ed25519-pub(53y84fc8acd8z1t0ckwvtc1nc2srrgrkee5mwtxvtdqytpwrc36g)"
  let config : Config := ⟨⟨[repeated, other, repeated], 2, 300⟩, defaultLogging⟩
  have hText : ofText (fun _ => none) spareKeyText = .ok config := by decide +kernel
  have hCount : config.keyCount = 2 := by decide +kernel
  obtain ⟨hIff, hTrust, -, -⟩ := Loaded.exists_toTrust_iff (.ofText hText)
  obtain ⟨trust, hOk⟩ := hIff.mpr (by rw [hCount])
  obtain ⟨-, hCard, hThreshold, -, hAge⟩ := hTrust trust hOk
  exact ⟨config, hText, rfl, trust, hOk, hCard.trans hCount, hThreshold, hAge⟩

/-- One key is listed twice, and two keys have to vouch. -/
def repeatedKeyText : String :=
  "[trust]\nkeys = [\"ed25519-pub(26wj522ncyprkc0t9yr1e1cz2szempbddkay02qqqxqkjnkbnygg)\", " ++
    "\"ed25519-pub(26wj522ncyprkc0t9yr1e1cz2szempbddkay02qqqxqkjnkbnygg)\"]\nthreshold = 2\n"

theorem toTrust_of_repeatedKeyText : ∃ config, ofText (fun _ => none) repeatedKeyText = .ok config ∧
    config.toTrust = .error (.thresholdExceeds 2 1) := by
  let token := "ed25519-pub(26wj522ncyprkc0t9yr1e1cz2szempbddkay02qqqxqkjnkbnygg)"
  refine ⟨⟨⟨[token, token], 2, 60⟩, defaultLogging⟩, ?_, ?_⟩
  · decide +kernel
  · decide +kernel

end Config

end SignedDirectory
