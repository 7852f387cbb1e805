import Relswap.Proof.Operation

/-!
# Only signed payloads become active

Whatever the network and the disk contain, a step that switches the selector to
a version finds its payload listed in a manifest that a trusted key has signed.
-/

namespace Relswap

open Durable Durable.Program Disk

namespace Installation

open Layout

variable {V U : Type} [SemVer V] [Crates V] [UrlCrate U] (I : Installation)

variable (V) in
/-- The keys the installation trusts: those given, or those of the trust anchor. -/
def Trusts (key : TrustedKey) : Prop :=
  match I.trustedKeys with
  | some keys => key ∈ keys
  | none => ∃ set, TrustedKeySet.fromBytes V I.app.trustAnchor = .ok set ∧ key ∈ set.keys

variable (V) in
/-- A trusted Ed25519 key validates a signature over exactly these bytes. -/
def SignedByTrusted (manifestBytes : Bytes) : Prop :=
  ∃ key publicKey signature, I.Trusts V key ∧ key.algorithm = ed25519Algorithm ∧
    decodePublicKey V key = .ok publicKey ∧ signature.length = 64 ∧
    Crates.verifyStrict V publicKey manifestBytes signature = true

/-- The payload of a version is the one a signed manifest lists for the host. -/
structure SignedPayload (s : Disk V) (v : V) (manifest : ReleaseManifest V) : Prop where
  signed : ∃ manifestBytes, I.SignedByTrusted V manifestBytes ∧
    ReleaseManifest.fromBytes I.app manifestBytes = .ok manifest
  version : manifest.version = v
  payload : ∃ target asset dir payload, I.currentTarget = some target ∧
    manifest.targets target = some asset ∧
    s.versionEntry (SemVer.toText v) = some (.directory dir) ∧
    dir.members.lookup I.hostPayloadName = some (.file payload) ∧
    payload.length = asset.payload.size ∧ Crates.sha256 V payload = asset.payload.sha256

theorem signedByTrusted_of_keys {manifestBytes signatureBytes : Bytes} {keys : List TrustedKey}
    {verified : VerifiedSignature} (trusts : ∀ key ∈ keys, I.Trusts V key)
    (h : verifyManifestWithKeys V manifestBytes signatureBytes keys = .ok verified) :
    I.SignedByTrusted V manifestBytes := by
  simp only [verifyManifestWithKeys, bind_eq_ok] at h
  obtain ⟨_, _, envelope, _, h⟩ := h
  split at h
  · rename_i entry found
    have verifies := List.find?_some found
    unfold entryVerifies at verifies
    split at verifies
    · cases verifies
    split at verifies
    · cases verifies
    rename_i key chosen
    have matching := List.find?_some chosen
    simp only [Bool.and_eq_true, beq_iff_eq] at matching
    split at verifies
    · rename_i publicKey signature decoded _
      simp only [Bool.and_eq_true, beq_iff_eq] at verifies
      exact ⟨key, publicKey, signature, trusts key (List.mem_of_find?_eq_some chosen), matching.2,
        decoded, verifies.1, verifies.2⟩
    · cases verifies
  · cases h

theorem signedByTrusted {manifestBytes signatureBytes : Bytes} {verified : VerifiedSignature}
    (h : verifyTrusted V I.app I.trustedKeys manifestBytes signatureBytes = .ok verified) :
    I.SignedByTrusted V manifestBytes := by
  unfold verifyTrusted at h
  split at h
  · rename_i keys given
    refine I.signedByTrusted_of_keys (fun key present => ?_) h
    rw [Trusts, given]
    exact present
  · rename_i none_
    simp only [verifyManifest, bind_eq_ok] at h
    obtain ⟨set, parsed, h⟩ := h
    refine I.signedByTrusted_of_keys (fun key present => ?_) h
    rw [Trusts, none_]
    exact ⟨set, parsed, present⟩

theorem hostPayloadName_eq {target : Target} (h : I.currentTarget = some target) :
    target.payloadName I.app = I.hostPayloadName := by
  have platform := I.target_platform target h
  rw [Target.payloadName, hostPayloadName, windows]
  congr 1
  rw [Bool.eq_iff_iff, platform, decide_eq_true_iff]

/-- A complete directory holds a payload its signed manifest lists. -/
theorem Complete.signedPayload {I : Installation} {s : Disk V} {dir : VersionDir}
    {state : VersionState V} {c : Contents V} (h : I.Complete dir state c)
    (entry : s.versionEntry (SemVer.toText state.version) = some (.directory dir)) :
    I.SignedPayload s state.version c.manifest := by
  refine ⟨⟨c.manifestBytes, I.signedByTrusted h.trusted, h.manifest⟩, h.version, ?_⟩
  refine ⟨c.target, c.selected.asset, dir, c.payload, h.target, (assetFor_eq_ok h.selected).2.1,
    entry, ?_, h.payload_size, h.payload_digest⟩
  rw [← I.hostPayloadName_eq h.target]
  exact h.payload_at

/-- The inputs of the operations that download. -/
def downloadInputs : Operation V U → Option (Inputs V U)
  | .installVersion inputs _ | .update inputs => some inputs
  | _ => none

/-- A write of an operation that changes what the selector names is a switch. -/
theorem Effect.selects {I : Installation} {kind : Kind V} {s₀ s t : Disk V} {v : V}
    (step : I.Effect kind s₀ s t) (before : ¬ I.Selects s (some v)) (after : I.Selects t (some v)) :
    ∃ p, I.Activates kind s₀ s p ∧ s.pending = .value p ∧ p.toVersion = v ∧
      t = I.select v s := by
  rcases step.moves with same | ⟨p, activates, journalled, rfl⟩
  · exact absurd (after.of_same I same) before
  · have same := Selects.unique I (I.selects_select p.toVersion s) after
    cases same
    exact ⟨p, activates, journalled, rfl, rfl⟩

/-- The selector comes to name a version whose payload is signed; what was
downloaded was unexpired when it was checked under the lock. -/
def SelectsSigned (op : Operation V U) (s t : Disk V) : Prop :=
  ∀ v, ¬ I.Selects s (some v) → I.Selects t (some v) →
    ∃ manifest, I.SignedPayload t v manifest ∧
      ∀ inputs, downloadInputs op = some inputs →
        ∃ expiresAt, Crates.readTime V manifest.expiresAt = .ok expiresAt ∧
          inputs.nowChecked - expiryClockSkew ≤ expiresAt

theorem Changes.selectsSigned {I : Installation} {op : Operation V U} {s t : Disk V}
    (h : I.Changes op s t) : I.SelectsSigned op s t := by
  intro v before after
  obtain ⟨kind, performs, s₀, step⟩ := h
  obtain ⟨p, activates, _, rfl, rfl⟩ := step.selects before after
  obtain ⟨dir, c, state, entry, isPrivate, complete, version, ordered, _⟩ := activates.target
  refine ⟨c.manifest, ?_, fun inputs downloads => ?_⟩
  · rw [← version]
    apply complete.signedPayload
    rw [versionEntry_select, version]
    exact entry
  · have unexpired : c.manifest.ensureNotExpired (Crates.readTime V) inputs.nowChecked = .ok () := by
      rcases performs with rfl | performs
      · exact ordered.elim
      · cases op with
        | installVersion inputs' w =>
          cases downloads
          subst performs
          exact ordered.2.1
        | update inputs' =>
          cases downloads
          obtain ⟨metadata, _, rfl⟩ := performs
          exact ordered.2.1
        | rollback => cases downloads
        | rollbackTo => cases downloads
        | recoverIfManaged => cases downloads
        | checkLatest => cases downloads
    simp only [ReleaseManifest.ensureNotExpired, bind_eq_ok, mapError_eq_ok, check_eq_ok]
      at unexpired
    exact unexpired

/-- Only signed payloads become active: whenever an operation, started on any
disk and with any downloader, switches the selector to a version, the payload of
that version is the one listed for the host in a manifest of that version signed
by a trusted key, whatever boundary strikes before or after. -/
theorem selected_payload_signed (op : Operation V U) (s : Disk V) :
    EveryStep (I.SelectsSigned op) (I.perform op) s :=
  WP.everyStep (guards_perform op) (fun _ _ before after => absurd after before)
    fun _ _ => Changes.selectsSigned

end Installation

end Relswap
