import Relswap.Install.Disk
import Relswap.Release.ManifestJson

/-!
# The JSON of the state documents

The state documents are written as compact JSON after their validation. Reading a
file gives a document of the disk: its value, or the reason why there is none.
-/

namespace Relswap

open Durable

namespace Codecs

open Json Json.Fields

variable {V : Type} [SemVer V]

/-- A canonical version of a state document. -/
def stateVersion : Codec V := version fun _ => "version is not canonical"

def optionalVersion : Codec (Option V) := stateVersion.nullable fun _ => Json.noConfusion

def launcherMetadata : Codec LauncherMetadata :=
  .record (((required "path" .string).and ((required "sha256" .string).and
      ((required "size" u64).and (required "protocol" u32)))).map
    { toFun := fun fields => ⟨fields.1, fields.2.1, fields.2.2.1, fields.2.2.2⟩
      invFun := fun launcher => (launcher.path, launcher.sha256, launcher.size, launcher.protocol)
      left_inv := fun _ => rfl
      right_inv := fun _ => rfl }) (by decide)

def launcherOwnership : Codec LauncherOwnership :=
  .record (((required "owned" .bool).and ((required "path" .string).and
      ((required "sha256" .string).and ((required "size" u64).and (required "protocol" u32))))).map
    { toFun := fun fields =>
        ⟨fields.1, fields.2.1, fields.2.2.1, fields.2.2.2.1, fields.2.2.2.2⟩
      invFun := fun launcher =>
        (launcher.owned, launcher.path, launcher.sha256, launcher.size, launcher.protocol)
      left_inv := fun _ => rfl
      right_inv := fun _ => rfl }) (by decide)

def versionState : Codec (VersionState V) :=
  .record (((required "schema_version" u32).and ((required "version" stateVersion).and
      ((required "target" target).and ((required "binary_sha256" .string).and
        ((required "size" u64).and ((required "installation_id" .string).and
          (skipped "launcher" launcherMetadata fun _ => Json.noConfusion))))))).map
    { toFun := fun fields => ⟨fields.1, fields.2.1, fields.2.2.1, fields.2.2.2.1,
        fields.2.2.2.2.1, fields.2.2.2.2.2.1, fields.2.2.2.2.2.2⟩
      invFun := fun state => (state.schemaVersion, state.version, state.target,
        state.binarySha256, state.size, state.installationId, state.launcher)
      left_inv := fun _ => rfl
      right_inv := fun _ => rfl }) (by
    change ["schema_version", "version", "target", "binary_sha256", "size", "installation_id",
      "launcher"].Nodup
    decide)

def installState : Codec (InstallState V) :=
  .record (((required "schema_version" u32).and ((required "active" optionalVersion).and
      ((required "previous" optionalVersion).and ((required "installation_id" .string).and
        (skipped "launcher" launcherOwnership fun _ => Json.noConfusion))))).map
    { toFun := fun fields =>
        ⟨fields.1, fields.2.1, fields.2.2.1, fields.2.2.2.1, fields.2.2.2.2⟩
      invFun := fun state => (state.schemaVersion, state.active, state.previous,
        state.installationId, state.launcher)
      left_inv := fun _ => rfl
      right_inv := fun _ => rfl }) (by
    change ["schema_version", "active", "previous", "installation_id", "launcher"].Nodup
    decide)

def pendingActivation : Codec (PendingActivation V) :=
  .record (((required "schema_version" u32).and ((required "from" optionalVersion).and
      ((required "to" stateVersion).and (required "transaction_id" .string)))).map
    { toFun := fun fields => ⟨fields.1, fields.2.1, fields.2.2.1, fields.2.2.2⟩
      invFun := fun pending => (pending.schemaVersion, pending.fromVersion, pending.toVersion,
        pending.transactionId)
      left_inv := fun _ => rfl
      right_inv := fun _ => rfl }) (by
    change ["schema_version", "from", "to", "transaction_id"].Nodup
    decide)

end Codecs

/-- The document that a regular file of the given bytes is. -/
def Document.ofBytes {α : Type} [JsonText] (codec : Json.Codec α) (bytes : Bytes) : Document α :=
  if maxMetadataSize < bytes.length then .oversized
  else
    match JsonText.parse bytes >>= codec.decode with
    | .error message => .malformed message
    | .ok content => .value content

section

variable {V : Type} [SemVer V]

/-- The bytes that replace the journal. -/
def pendingBytes (pending : PendingActivation V) : Except (InstallError V) Bytes := do
  validatePending pending
  return printJson (Codecs.pendingActivation.encode pending)

def installStateBytes (platform : Platform) (state : InstallState V) :
    Except (InstallError V) Bytes := do
  validateInstallState platform state
  return printJson (Codecs.installState.encode state)

def versionStateBytes (app : App) (state : VersionState V) : Except (InstallError V) Bytes := do
  validateVersionState app state
  return printJson (Codecs.versionState.encode state)

end

end Relswap
