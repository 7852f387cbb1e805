import Relswap.Release.Signature
import Relswap.Sample.World

/-!
# Exact signatures that survive key rotation

A manifest is accepted exactly when some entry of its envelope vouches for it,
and the first such entry is reported. Whether an entry vouches does not depend on
the other entries, nor on the order of anything, so that signatures and keys can
be added and reordered.
-/

namespace Relswap

open Durable

section

variable {V : Type} [SemVer V] [Crates V]

variable (V) in
/-- The entry names a trusted key that decodes, and its signature is valid. -/
def Vouches (manifestBytes : Bytes) (trustedKeys : List TrustedKey) (entry : SignatureEntry) :
    Prop :=
  entry.algorithm = ed25519Algorithm ∧
    ∃ key ∈ trustedKeys, key.id = entry.keyId ∧ key.algorithm = ed25519Algorithm ∧
      ∃ publicKey signature, decodePublicKey V key = .ok publicKey ∧
        Crates.decodeBase64 V entry.signature = .ok signature ∧ signature.length = 64 ∧
        Crates.verifyStrict V publicKey manifestBytes signature = true

variable {manifestBytes : Bytes} {keys keys' : List TrustedKey}

/-- With unique ids the key of an entry is the only one that it can name. -/
theorem find_key (unique : (keys.map TrustedKey.id).Nodup) {key : TrustedKey} (mem : key ∈ keys)
    (ed25519 : key.algorithm = ed25519Algorithm) :
    keys.find? (fun k => k.id == key.id && k.algorithm == ed25519Algorithm) = some key := by
  obtain ⟨found, hfound⟩ : ∃ found, keys.find?
      (fun k => k.id == key.id && k.algorithm == ed25519Algorithm) = some found := by
    rw [← Option.isSome_iff_exists, List.find?_isSome]
    exact ⟨key, mem, by simp [ed25519]⟩
  have named : found.id = key.id := by
    have := List.find?_some hfound
    simp only [Bool.and_eq_true, beq_iff_eq] at this
    exact this.1
  have same : found = key :=
    List.inj_on_of_nodup_map unique (List.mem_of_find?_eq_some hfound) mem named
  rw [hfound, same]

theorem entryVerifies_iff (unique : (keys.map TrustedKey.id).Nodup) {entry : SignatureEntry} :
    entryVerifies V manifestBytes keys entry = true ↔ Vouches V manifestBytes keys entry := by
  rw [entryVerifies, Vouches]
  by_cases ed25519 : entry.algorithm = ed25519Algorithm
  · rw [if_neg (not_not.mpr ed25519)]
    constructor
    · intro verifies
      refine ⟨ed25519, ?_⟩
      cases found : keys.find? fun key =>
          key.id == entry.keyId && key.algorithm == ed25519Algorithm with
      | none =>
        rw [found] at verifies
        cases verifies
      | some key =>
        rw [found] at verifies
        dsimp only at verifies
        have named := List.find?_some found
        simp only [Bool.and_eq_true, beq_iff_eq] at named
        refine ⟨key, List.mem_of_find?_eq_some found, named.1, named.2, ?_⟩
        cases decoded : decodePublicKey V key with
        | error e =>
          rw [decoded] at verifies
          cases verifies
        | ok publicKey =>
          cases raw : Crates.decodeBase64 V entry.signature with
          | error e =>
            rw [decoded, raw] at verifies
            cases verifies
          | ok signature =>
            rw [decoded, raw] at verifies
            simp only [Bool.and_eq_true, beq_iff_eq] at verifies
            exact ⟨publicKey, signature, rfl, rfl, verifies.1, verifies.2⟩
    · rintro ⟨-, key, mem, named, algorithm, publicKey, signature, decoded, raw, length, valid⟩
      rw [← named, find_key unique mem algorithm]
      simp only [decoded, raw, length, valid, beq_self_eq_true, Bool.and_self]
  · rw [if_pos ed25519]
    exact ⟨nofun, fun vouches => absurd vouches.1 ed25519⟩

/-- More keys, in any order, never take a voucher away. -/
theorem Vouches.mono {entry : SignatureEntry} (h : Vouches V manifestBytes keys entry)
    (more : keys ⊆ keys') : Vouches V manifestBytes keys' entry := by
  obtain ⟨algorithm, key, mem, rest⟩ := h
  exact ⟨algorithm, key, more mem, rest⟩

theorem validEntries_eq_true {seen : List String} {entries : List SignatureEntry} :
    validEntries seen entries = true ↔
      (∀ entry ∈ entries, entry.keyId ≠ "" ∧ entry.algorithm ≠ "" ∧ entry.keyId ∉ seen) ∧
        (entries.map SignatureEntry.keyId).Nodup := by
  induction entries generalizing seen with
  | nil => simp [validEntries]
  | cons entry entries ih =>
    simp only [validEntries, Bool.and_eq_true, decide_eq_true_eq, Bool.not_eq_true', ih,
      List.contains_iff_mem, Bool.eq_false_iff, List.mem_cons, List.map_cons, List.nodup_cons,
      List.mem_map, not_or, not_exists, not_and, forall_eq_or_imp, ne_eq]
    constructor
    · rintro ⟨⟨⟨keyId, algorithm⟩, fresh⟩, rest, distinct⟩
      exact ⟨⟨⟨keyId, algorithm, fresh⟩, fun e he => ⟨(rest e he).1, (rest e he).2.1,
        (rest e he).2.2.2⟩⟩, fun e he => (rest e he).2.2.1, distinct⟩
    · rintro ⟨⟨⟨keyId, algorithm, fresh⟩, rest⟩, apart, distinct⟩
      exact ⟨⟨⟨keyId, algorithm⟩, fresh⟩, fun e he => ⟨(rest e he).1, (rest e he).2.1,
        apart e he, (rest e he).2.2⟩, distinct⟩

theorem envelope_eq_ok {bytes : Bytes} {envelope : SignatureEnvelope} :
    SignatureEnvelope.fromBytes V bytes = .ok envelope ↔
      bytes.length ≤ maxMetadataSize ∧ Crates.decodeEnvelope V bytes = .ok envelope ∧
        envelope.schemaVersion = signatureSchemaVersion ∧ envelope.signatures ≠ [] ∧
        validEntries [] envelope.signatures = true := by
  simp only [SignatureEnvelope.fromBytes, bind_eq_ok, check_eq_ok, mapError_eq_ok, pure_eq_ok]
  constructor
  · rintro ⟨_, short, found, decoded, _, schema, _, some_, _, valid, rfl⟩
    exact ⟨short, decoded, schema, some_, valid⟩
  · rintro ⟨short, decoded, schema, some_, valid⟩
    exact ⟨(), short, envelope, decoded, (), schema, (), some_, (), valid, rfl⟩

theorem verifyManifestWithKeys_eq_ok (unique : (keys.map TrustedKey.id).Nodup) {bytes : Bytes}
    {envelope : SignatureEnvelope} (accepted : SignatureEnvelope.fromBytes V bytes = .ok envelope)
    {id : String} :
    verifyManifestWithKeys V manifestBytes bytes keys = .ok ⟨id⟩ ↔
      ∃ before entry after, envelope.signatures = before ++ entry :: after ∧ entry.keyId = id ∧
        Vouches V manifestBytes keys entry ∧ ∀ e ∈ before, ¬ Vouches V manifestBytes keys e := by
  have refuses : ∀ e, ¬ Vouches V manifestBytes keys e ↔
      (!entryVerifies V manifestBytes keys e) = true := by
    intro e
    rw [← entryVerifies_iff unique, Bool.not_eq_true', Bool.not_eq_true]
  simp only [verifyManifestWithKeys, accepted, bind_eq_ok, check_eq_ok]
  constructor
  · rintro ⟨_, _, parsed, same, found⟩
    cases same
    split at found
    · rename_i entry first
      cases found
      obtain ⟨verifies, before, after, split, skipped⟩ := List.find?_eq_some_iff_append.mp first
      exact ⟨before, entry, after, split, rfl, (entryVerifies_iff unique).mp verifies,
        fun e he => (refuses e).mpr (skipped e he)⟩
    · cases found
  · rintro ⟨before, entry, after, split, rfl, vouches, skipped⟩
    obtain ⟨_, key, mem, _, ed25519, _⟩ := id vouches
    refine ⟨(), List.any_eq_true.mpr ⟨key, mem, beq_iff_eq.mpr ed25519⟩, envelope, rfl, ?_⟩
    have first : envelope.signatures.find? (entryVerifies V manifestBytes keys) = some entry :=
      List.find?_eq_some_iff_append.mpr ⟨(entryVerifies_iff unique).mpr vouches, before, after,
        split, fun e he => (refuses e).mp (skipped e he)⟩
    rw [first]
    rfl

/-- Something vouches, so something vouches first. -/
theorem accepts_of_vouches (unique : (keys.map TrustedKey.id).Nodup) {bytes : Bytes}
    {envelope : SignatureEnvelope} (accepted : SignatureEnvelope.fromBytes V bytes = .ok envelope)
    {entry : SignatureEntry} (mem : entry ∈ envelope.signatures)
    (vouches : Vouches V manifestBytes keys entry) :
    ∃ id, verifyManifestWithKeys V manifestBytes bytes keys = .ok ⟨id⟩ := by
  obtain ⟨first, found⟩ : ∃ first,
      envelope.signatures.find? (entryVerifies V manifestBytes keys) = some first := by
    rw [← Option.isSome_iff_exists, List.find?_isSome]
    exact ⟨entry, mem, (entryVerifies_iff unique).mpr vouches⟩
  obtain ⟨verifies, before, after, split, skipped⟩ := List.find?_eq_some_iff_append.mp found
  refine ⟨first.keyId, (verifyManifestWithKeys_eq_ok unique accepted).mpr ⟨before, first, after,
    split, rfl, (entryVerifies_iff unique).mp verifies, fun e he => ?_⟩⟩
  rw [← entryVerifies_iff unique, Bool.not_eq_true]
  simpa using skipped e he

/-- Signature verification is exact: it reports the first entry that vouches. And it
survives rotation: entries with fresh ids, keys with fresh ids and any reordering
of either list keep an accepted manifest accepted, as long as the envelope fits. -/
theorem signature_verification_exact (unique : (keys.map TrustedKey.id).Nodup) {bytes : Bytes}
    {envelope : SignatureEnvelope}
    (accepted : SignatureEnvelope.fromBytes V bytes = .ok envelope) :
    (∀ id, verifyManifestWithKeys V manifestBytes bytes keys = .ok ⟨id⟩ ↔
      ∃ before entry after, envelope.signatures = before ++ entry :: after ∧ entry.keyId = id ∧
        Vouches V manifestBytes keys entry ∧ ∀ e ∈ before, ¬ Vouches V manifestBytes keys e) ∧
    ∀ id, verifyManifestWithKeys V manifestBytes bytes keys = .ok ⟨id⟩ →
      ∀ (bytes' : Bytes) (entries' added : List SignatureEntry) (keys' addedKeys : List TrustedKey),
        bytes'.length ≤ maxMetadataSize →
        Crates.decodeEnvelope V bytes' = .ok ⟨envelope.schemaVersion, entries'⟩ →
        entries'.Perm (envelope.signatures ++ added) →
        (∀ entry ∈ added, entry.keyId ≠ "" ∧ entry.algorithm ≠ "") →
        (entries'.map SignatureEntry.keyId).Nodup →
        keys'.Perm (keys ++ addedKeys) → (keys'.map TrustedKey.id).Nodup →
        ∃ id', verifyManifestWithKeys V manifestBytes bytes' keys' = .ok ⟨id'⟩ := by
  refine ⟨fun id => verifyManifestWithKeys_eq_ok unique accepted, ?_⟩
  intro id verified bytes' entries' added keys' addedKeys fits decoded reordered wellFormed
    distinct keyed unique'
  obtain ⟨before, entry, after, split, _, vouches, _⟩ :=
    (verifyManifestWithKeys_eq_ok unique accepted).mp verified
  obtain ⟨_, _, schema, _, valid⟩ := envelope_eq_ok.mp accepted
  have mem : entry ∈ entries' := by
    rw [reordered.mem_iff, split]
    simp
  have accepted' : SignatureEnvelope.fromBytes V bytes' = .ok ⟨envelope.schemaVersion, entries'⟩ := by
    refine envelope_eq_ok.mpr ⟨fits, decoded, schema, List.ne_nil_of_mem mem, ?_⟩
    refine validEntries_eq_true.mpr ⟨fun e he => ?_, distinct⟩
    rcases List.mem_append.mp (reordered.mem_iff.mp he) with old | new
    · have known := (validEntries_eq_true.mp valid).1 e old
      exact ⟨known.1, known.2.1, List.not_mem_nil⟩
    · exact ⟨(wellFormed e new).1, (wellFormed e new).2, List.not_mem_nil⟩
  have more : keys ⊆ keys' := fun key mem => keyed.mem_iff.mpr (List.mem_append_left _ mem)
  exact accepts_of_vouches unique' accepted' mem (vouches.mono more)

open Sample in
theorem signature_verification_rotated :
    ∃ id, verifyManifestWithKeys Edition (Sample.manifestBytes unixTarget 0) [6]
      [⟨"new", "ed25519", "other"⟩, key] = .ok ⟨id⟩ := by
  have accepted : SignatureEnvelope.fromBytes Edition signatureBytes =
      .ok ⟨1, [⟨"key", "ed25519", "signature"⟩]⟩ :=
    envelope_eq_ok.mpr ⟨by decide, rfl, rfl, nofun, by decide +kernel⟩
  have exact_ : (∀ id, verifyManifestWithKeys Edition (Sample.manifestBytes unixTarget 0)
      signatureBytes [key] = .ok ⟨id⟩ ↔ _) ∧ _ := signature_verification_exact (by simp) accepted
  have vouches : Vouches Edition (Sample.manifestBytes unixTarget 0) [key]
      ⟨"key", "ed25519", "signature"⟩ :=
    ⟨rfl, key, List.mem_singleton_self key, rfl, rfl, List.replicate 32 0, List.replicate 64 0,
      by decide +kernel, by decide +kernel, rfl, rfl⟩
  refine exact_.2 "key" ((exact_.1 "key").mpr ⟨[], _, [], rfl, rfl, vouches, nofun⟩) [6] _ [] _
    [⟨"new", "ed25519", "other"⟩] (by decide) rfl (.refl _) nofun (by simp) ?_ (by decide +kernel)
  exact List.Perm.swap ..

end

end Relswap
