import Relswap.Property.Signature
import Relswap.Tool.Sign

/-!
# Runs of the sign command

What a run reads does not depend on the output file, and what it writes is read back
by the verifier.
-/

namespace Relswap.Tool

open Durable Checked Checked.Script Json

/-! ## The order of the entries -/

instance : Std.Total KeyIdOrder := ⟨fun _ _ => le_total _ _⟩

instance : IsTrans SignatureEntry KeyIdOrder := ⟨fun _ _ _ => le_trans⟩

theorem sortByKeyId_perm (entries : List SignatureEntry) : (sortByKeyId entries).Perm entries :=
  List.perm_insertionSort ..

theorem sortByKeyId_nil : sortByKeyId [] = [] := rfl

theorem sortByKeyId_pairwise (entries : List SignatureEntry) :
    (sortByKeyId entries).Pairwise KeyIdOrder := List.pairwise_insertionSort ..

/-- Entries of different key ids have only one order. -/
theorem sortByKeyId_eq {first second : List SignatureEntry} (same : first.Perm second)
    (distinct : (first.map SignatureEntry.keyId).Nodup) :
    sortByKeyId first = sortByKeyId second := by
  refine List.Perm.eq_of_pairwise ?_ (sortByKeyId_pairwise first) (sortByKeyId_pairwise second)
    ((sortByKeyId_perm first).trans (same.trans (sortByKeyId_perm second).symm))
  intro a b inFirst inSecond before after
  have here : a ∈ first := (sortByKeyId_perm first).mem_iff.mp inFirst
  have there : b ∈ first := same.mem_iff.mpr ((sortByKeyId_perm second).mem_iff.mp inSecond)
  exact List.inj_on_of_nodup_map distinct here there 
    (textKey_injective (le_antisymm before after))

/-! ## Envelopes as bytes -/

section

variable [JsonText]

def envelopeBytes (entries : List SignatureEntry) : Bytes :=
  printJson (Codecs.signatureEnvelope.encode (.new entries))

omit [JsonText] in
theorem toBytes_new {entries : List SignatureEntry} (some_ : entries ≠ []) :
    (SignatureEnvelope.new entries).toBytes = .ok (envelopeBytes entries) := by
  rw [SignatureEnvelope.toBytes, check_pass ⟨rfl, some_⟩, ok_bind]
  rfl

omit [JsonText] in
theorem encode_new (entries : List SignatureEntry) :
    Codecs.signatureEnvelope.encode (.new entries) = .object [("schema_version", .number 1),
      ("signatures", .array (entries.map Codecs.signatureEntry.encode))] := rfl

omit [JsonText] in
/-- Fewer entries, in any order, do not need more room. -/
theorem envelopeBytes_le {first second : List SignatureEntry} (fewer : first.Subperm second) :
    (envelopeBytes first).length ≤ (envelopeBytes second).length := by
  obtain ⟨middle, same, inside⟩ := fewer
  have items : (array (first.map Codecs.signatureEntry.encode)).size ≤
      (array (second.map Codecs.signatureEntry.encode)).size :=
    size_array_le ⟨middle.map Codecs.signatureEntry.encode, same.map _, inside.map _⟩
  rw [envelopeBytes, envelopeBytes, printJson_length, printJson_length, encode_new, encode_new]
  apply size_object_le
  simp only [membersSize, memberSize, List.map_cons, List.map_nil, List.sum_cons, List.sum_nil]
  omega

variable {V : Type} [SemVer V] [Crates V] [SigningCrates V]

theorem fromBytes_envelopeBytes {entries : List SignatureEntry}
    (fits : (envelopeBytes entries).length ≤ maxMetadataSize) (some_ : entries ≠ [])
    (valid : validEntries [] entries = true) :
    SignatureEnvelope.fromBytes V (envelopeBytes entries) = .ok (.new entries) := by
  have schema : signatureSchemaVersion < 2 ^ 32 := by decide
  have inRange : Codecs.signatureEnvelope.InRange (.new entries) :=
    Codecs.signatureEnvelope_inRange schema
  refine envelope_eq_ok.mpr ⟨fits, ?_, rfl, some_, valid⟩
  rw [SigningCrates.decodeEnvelope_eq, envelopeBytes, JsonText.parse_print, ok_bind,
    Codecs.signatureEnvelope.decode_encode _ inRange]
  exact (Codecs.signatureEnvelope.encode_shallow _).mono (by decide)

/-! ## Reading the input of a run -/

/-- The files may gain contents. -/
def Gains (files files' : Files) : Prop :=
  ∀ path bytes, files.read path = some bytes → files'.read path = some bytes

omit [JsonText] in
theorem gains_write {files : Files} {path : String} {bytes : Bytes}
    (absent : files.lookup path = none) : Gains files (files.write path bytes) := by
  intro other content found
  rw [Files.read_write_other, found]
  intro same
  rw [same, Files.read_eq_some, absent] at found
  cases found

omit [JsonText] in
theorem readOnly_readFile (what path : String) : ReadOnly Gains (readFile what path) := by
  intro files files' files₁ bytes gains read
  obtain ⟨found, rfl⟩ := (readFile_eq_ok _).mp read
  exact ⟨rfl, (readFile_eq_ok _).mpr ⟨gains path bytes found, rfl⟩⟩

omit [JsonText] in
theorem readOnly_privateKeyText (run : Invocation) : ReadOnly Gains (privateKeyText run) := by
  refine ReadOnly.bind (ReadOnly.lift _) fun path => ?_
  cases path with
  | none => exact ReadOnly.lift _
  | some path => exact ReadOnly.bind (readOnly_readFile _ path) fun _ => ReadOnly.lift _

variable (V) in
theorem readOnly_signingInput (run : Invocation) : ReadOnly Gains (signingInput V run) := by
  refine ReadOnly.bind (ReadOnly.lift _) fun _ => ?_
  refine ReadOnly.bind (ReadOnly.lift _) fun _ => ?_
  refine ReadOnly.bind (ReadOnly.lift _) fun _ => ?_
  refine ReadOnly.bind (ReadOnly.lift _) fun _ => ?_
  refine ReadOnly.bind (ReadOnly.lift _) fun _ => ?_
  refine ReadOnly.bind (readOnly_readFile _ _) fun _ => ?_
  refine ReadOnly.bind (ReadOnly.lift _) fun _ => ?_
  refine ReadOnly.bind (ReadOnly.lift _) fun _ => ?_
  refine ReadOnly.bind (ReadOnly.lift _) fun _ => ?_
  exact ReadOnly.bind (ReadOnly.bind (readOnly_privateKeyText run) fun _ => ReadOnly.lift _)
    fun _ => ReadOnly.pure _

/-- A run has its input when its options are there, the manifest is accepted and the
private key is loaded. -/
theorem signingInput_eq_ok {run : Invocation} {files : Files} {input : SigningInput} :
    (signingInput V run).outcome files = (.ok input, files) ↔
      ∃ app manifestPath, ∃ manifest : ReleaseManifest V,
        appFromArgs run.args = .ok app ∧ run.args.one "manifest" = .ok manifestPath ∧
        run.args.one "output" = .ok input.output ∧ run.args.one "key-id" = .ok input.keyId ∧
        validateKeyId input.keyId = .ok () ∧ files.read manifestPath = some input.manifestBytes ∧
        ReleaseManifest.fromBytes app input.manifestBytes = .ok manifest ∧
        validatePublishedAt V manifest.publishedAt = .ok () ∧
        validateTimestamp V manifest.expiresAt "expires_at" = .ok () ∧
        (loadPrivateKey V run).outcome files = (.ok input.privateKey, files) := by
  constructor
  · intro ready
    simp only [signingInput, Script.bind_eq_ok, outcome_lift, outcome_pure, Prod.mk.injEq] at ready
    obtain ⟨app, _, ⟨named, rfl⟩, manifestPath, _, ⟨listed, rfl⟩, output, _, ⟨written, rfl⟩,
      keyId, _, ⟨key, rfl⟩, _, _, ⟨valid, rfl⟩, bytes, _, read, rest⟩ := ready
    obtain ⟨found, rfl⟩ := (readFile_eq_ok _).mp read
    obtain ⟨manifest, _, ⟨accepted, rfl⟩, _, _, ⟨published, rfl⟩, _, _, ⟨expires, rfl⟩,
      privateKey, _, loaded, same, rfl⟩ := rest
    cases same
    exact ⟨app, manifestPath, manifest, named, listed, written, key, valid, found,
      mapError_eq_ok.mp accepted, published, expires, loaded⟩
  · intro parts
    obtain ⟨app, manifestPath, manifest, named, listed, written, key, valid, found, accepted,
      published, expires, loaded⟩ := parts
    have read := (readFile_eq_ok "").mpr ⟨found, rfl⟩
    have parsed_ : parsed "manifest " manifestPath (ReleaseManifest.fromBytes app
        input.manifestBytes) = .ok manifest := mapError_eq_ok.mpr accepted
    rw [signingInput, lift_bind_ok named, lift_bind_ok listed, lift_bind_ok written,
      lift_bind_ok key, lift_bind_ok valid, Script.bind_ok read, lift_bind_ok parsed_,
      lift_bind_ok published, lift_bind_ok expires, Script.bind_ok loaded]
    rfl

theorem keyId_of_signingInput {run : Invocation} {files files' : Files} {input : SigningInput}
    (ready : (signingInput V run).outcome files = (.ok input, files')) : input.keyId ≠ "" := by
  obtain ⟨rfl, _⟩ := readOnly_signingInput V run files files files' input (fun _ _ => id) ready
  obtain ⟨_, _, _, _, _, _, _, valid, _⟩ := signingInput_eq_ok.mp ready
  exact (check_eq_ok.mp valid).1

omit [JsonText] [SigningCrates V] in
/-- A key file of another tool run is loaded. -/
theorem loadPrivateKey_file {run : Invocation} {files : Files} {path text : String}
    {key : SigningKey} (option : run.args.optionalOne "private-key" = .ok (some path))
    (stored : files.read path = some (encodeUtf8 text)) (parses : parsePrivateKey V text = .ok key) :
    (loadPrivateKey V run).outcome files = (.ok key, files) := by
  have read := (readFile_eq_ok "private key ").mpr ⟨stored, rfl⟩
  have text_ : (privateKeyText run).outcome files = (.ok text, files) := by
    refine (lift_bind_ok option).trans ((Script.bind_ok read).trans ?_)
    rw [decodeUtf8_encodeUtf8]
    rfl
  rw [loadPrivateKey, Script.bind_ok text_, parses]
  rfl

/-! ## Adding an entry -/

theorem signManifestMulti_one {manifestBytes : Bytes} {keyId : String} {key : SigningKey}
    (named : keyId ≠ "") :
    (signManifestMulti V manifestBytes [(keyId, key)]).signatures =
      [signatureEntry V manifestBytes keyId key] := by
  rw [signManifestMulti, signEntries, if_neg (by simpa using named), signEntries]
  rfl

variable (V) in
def SigningInput.entry (input : SigningInput) : SignatureEntry :=
  signatureEntry V input.manifestBytes input.keyId input.privateKey

variable {run : Invocation} {files : Files} {input : SigningInput} {entries : List SignatureEntry}

omit [JsonText] in
theorem any_keyId {keyId : String} :
    entries.any (fun record => record.keyId == keyId) = true ↔
      keyId ∈ entries.map SignatureEntry.keyId := by
  simp only [List.any_eq_true, beq_iff_eq, List.mem_map]

theorem signManifest_adds {append : Bool} (flag : run.args.flag "append" = append)
    (ready : (signingInput V run).outcome files = (.ok input, files))
    (opened : (openEnvelope V append input.output).outcome files = (.ok (.new entries), files))
    (fresh : input.keyId ∉ entries.map SignatureEntry.keyId)
    (writable : files.writable input.output = true) :
    (signManifest V run).outcome files = (.ok (),
      files.write input.output (envelopeBytes (sortByKeyId (entries ++ [input.entry V])))) := by
  have unknown : (SignatureEnvelope.new entries).signatures.any
      (fun record => record.keyId == input.keyId) = false := by
    rw [← Bool.not_eq_true, any_keyId]
    exact fresh
  have some_ : sortByKeyId (entries ++ [input.entry V]) ≠ [] := by
    intro none_
    have same := (sortByKeyId_perm (entries ++ [input.entry V])).length_eq
    simp [none_] at same
  rw [signManifest, Script.bind_ok ready, flag, Script.bind_ok opened]
  dsimp only
  rw [signManifestMulti_one (keyId_of_signingInput ready), check_pass unknown,
    Script.bind_ok (outcome_lift _ _)]
  change ((liftM ((SignatureEnvelope.new (sortByKeyId (entries ++ [input.entry V]))).toBytes.mapError
    releaseErrorText) >>= writeFile input.output : Command Unit)).outcome files = _
  rw [toBytes_new some_]
  exact (Script.bind_ok (outcome_lift _ _)).trans (writeFile_ok writable)

/-- A key id that is already there is refused, and nothing is written. -/
theorem signManifest_refuses (append : run.args.flag "append" = true)
    (ready : (signingInput V run).outcome files = (.ok input, files))
    (opened : (openEnvelope V true input.output).outcome files = (.ok (.new entries), files))
    (known : input.keyId ∈ entries.map SignatureEntry.keyId) :
    (signManifest V run).outcome files =
      (.error s!"signature for key {input.keyId} already exists", files) := by
  have refused : ¬ entries.any (fun record => record.keyId == input.keyId) = false := by
    rw [Bool.not_eq_false, any_keyId]
    exact known
  rw [signManifest, Script.bind_ok ready, append, Script.bind_ok opened]
  exact Script.bind_error (congrArg (fun refusal => (refusal, files)) (check_fail refused))

/-! ## What a successful run has done -/

omit [JsonText] [SigningCrates V] in
theorem openEnvelope_eq_ok {append : Bool} {output : String} {files' : Files}
    {envelope : SignatureEnvelope}
    (ended : (openEnvelope V append output).outcome files = (.ok envelope, files')) :
    files' = files ∧ envelope = .new envelope.signatures ∧
      validEntries [] envelope.signatures = true := by
  rw [openEnvelope, Script.bind_ok (outcome_get files)] at ended
  split at ended
  · obtain ⟨bytes, _, read, accepted⟩ := Script.bind_eq_ok.mp ended
    obtain ⟨_, rfl⟩ := (readFile_eq_ok _).mp read
    rw [outcome_lift, Prod.mk.injEq] at accepted
    obtain ⟨accepted, rfl⟩ := accepted
    obtain ⟨_, _, schema, _, valid⟩ := envelope_eq_ok.mp (mapError_eq_ok.mp accepted)
    exact ⟨rfl, by rw [SignatureEnvelope.new, ← schema], valid⟩
  · cases ended
    exact ⟨rfl, rfl, rfl⟩

/-- The envelope that a run adds to, and what it writes. -/
structure HasSigned (run : Invocation) (files files' : Files) (input : SigningInput)
    (entries : List SignatureEntry) : Prop where
  ready : (signingInput V run).outcome files = (.ok input, files)
  opened : (openEnvelope V (run.args.flag "append") input.output).outcome files =
    (.ok (.new entries), files)
  valid : validEntries [] (entries ++ [input.entry V]) = true
  writable : files.writable input.output = true
  result : files' = files.write input.output
    (envelopeBytes (sortByKeyId (entries ++ [input.entry V])))

theorem signManifest_eq_ok {files' : Files}
    (ended : (signManifest V run).outcome files = (.ok (), files')) :
    ∃ input entries, HasSigned (V := V) run files files' input entries := by
  have steps := ended
  rw [signManifest] at steps
  obtain ⟨input, s₁, ready, afterInput⟩ := Script.bind_eq_ok.mp steps
  obtain ⟨same, _⟩ := readOnly_signingInput V run _ _ _ _ (fun _ _ => id) ready
  subst s₁
  obtain ⟨envelope, s₂, opened, afterOpen⟩ := Script.bind_eq_ok.mp afterInput
  obtain ⟨same, schema, valid⟩ := openEnvelope_eq_ok opened
  subst s₂
  obtain ⟨_, s₃, unknown, afterCheck⟩ := Script.bind_eq_ok.mp afterOpen
  rw [outcome_lift, Prod.mk.injEq, check_eq_ok, ← Bool.not_eq_true, any_keyId] at unknown
  obtain ⟨fresh, same⟩ := unknown
  subst s₃
  obtain ⟨bytes, s₄, encoded, wrote⟩ := Script.bind_eq_ok.mp afterCheck
  rw [outcome_lift, Prod.mk.injEq] at encoded
  obtain ⟨_, same⟩ := encoded
  subst s₄
  obtain ⟨writable, _⟩ := writeFile_eq_ok.mp wrote
  rw [schema] at opened
  have adds := signManifest_adds rfl ready opened fresh writable
  rw [ended, Prod.mk.injEq] at adds
  refine ⟨input, envelope.signatures, ready, opened, ?_, writable, adds.2⟩
  obtain ⟨known, distinct⟩ := validEntries_eq_true.mp valid
  have ed25519 : ed25519Algorithm ≠ "" := by decide
  refine validEntries_eq_true.mpr ⟨fun entry here => ?_, ?_⟩
  · rcases List.mem_append.mp here with old | new
    · exact known entry old
    · obtain rfl := List.mem_singleton.mp new
      exact ⟨keyId_of_signingInput ready, ed25519, List.not_mem_nil⟩
  · rw [List.map_append, List.nodup_append]
    refine ⟨distinct, List.nodup_singleton _, fun id old other new same => fresh ?_⟩
    obtain rfl := List.mem_singleton.mp new
    have named : id = input.keyId := same
    exact named ▸ old

variable (V) in
/-- The entries of the envelope at a path. -/
def storedEntries (files : Files) (output : String) : List SignatureEntry :=
  match files.read output with
  | none => []
  | some bytes =>
    match SignatureEnvelope.fromBytes V bytes with
    | .ok envelope => envelope.signatures
    | .error _ => []

omit [JsonText] [SigningCrates V] in
/-- The entries that a run adds to. -/
theorem entries_of_openEnvelope {append : Bool} {output : String} {files' : Files}
    (opened : (openEnvelope V append output).outcome files = (.ok (.new entries), files')) :
    entries = if append then storedEntries V files output else [] := by
  rw [openEnvelope, Script.bind_ok (outcome_get files)] at opened
  cases append with
  | false =>
    cases opened
    rfl
  | true =>
    rw [if_pos rfl, storedEntries]
    split at opened
    · obtain ⟨bytes, _, read, accepted⟩ := Script.bind_eq_ok.mp opened
      obtain ⟨content, rfl⟩ := (readFile_eq_ok _).mp read
      rw [outcome_lift, Prod.mk.injEq] at accepted
      rw [content]
      dsimp only
      rw [mapError_eq_ok.mp accepted.1]
      rfl
    · rename_i absent
      rw [Bool.true_and] at absent
      cases opened
      rw [Files.read_of_not_exists absent]

/-- The entry of a signer vouches under the signer's public key. -/
theorem vouches_entry {keys : List TrustedKey}
    (trusted : TrustedKey.ed25519 V input.keyId (SigningCrates.verifyingKey V input.privateKey) ∈
      keys) : Vouches V input.manifestBytes keys (input.entry V) := by
  refine ⟨rfl, _, trusted, rfl, rfl, SigningCrates.verifyingKey V input.privateKey, _, ?_,
    SigningCrates.decode_encodeBase64 _, SigningCrates.sign_length _ _,
    SigningCrates.verify_sign _ _⟩
  simp only [decodePublicKey, TrustedKey.ed25519, Durable.bind_eq_ok, check_eq_ok, mapError_eq_ok,
    pure_eq_ok]
  exact ⟨_, SigningCrates.decode_encodeBase64 _, (), SigningCrates.verifyingKey_length _, (),
    SigningCrates.verifyingKey_valid _, rfl⟩

end

end Relswap.Tool
