import Relswap.Proof.Publishing
import Relswap.Sample.Publishing

/-!
# What the release tool publishes and verifies

One directory is published, signed and verified. The checks of the three commands
differ in three places: which names a checksum file can carry, whether an archive has
to be a file, and how large an envelope may be.
-/

namespace Relswap.Tool

open Durable Checked Checked.Script

section

variable {V : Type} [SemVer V] [Crates V] [ContainerCrates] [JsonText] [SigningCrates V]
  [PublishingCrates V]

variable {files files₁ files₂ : Files} {app : App} {directory manifestPath signaturesPath : String}

omit [ContainerCrates] [JsonText] [SigningCrates V] [PublishingCrates V] in
theorem validateKeys_nodup {seen : List String} {keys : List TrustedKey}
    (valid : validateKeys V seen keys = .ok ()) :
    (∀ id ∈ seen, id ∉ keys.map TrustedKey.id) ∧ (keys.map TrustedKey.id).Nodup := by
  induction keys generalizing seen with
  | nil => exact ⟨fun _ _ => List.not_mem_nil, List.nodup_nil⟩
  | cons key rest ih =>
    rw [validateKeys] at valid
    obtain ⟨_, fresh, valid⟩ := Durable.bind_eq_ok.mp valid
    obtain ⟨_, fresh⟩ := check_eq_ok.mp fresh
    have later : validateKeys V (key.id :: seen) rest = .ok () := by
      split at valid
      · obtain ⟨_, _, valid⟩ := Durable.bind_eq_ok.mp valid
        exact valid
      · exact valid
    obtain ⟨apart, distinct⟩ := ih later
    rw [List.map_cons, List.nodup_cons]
    refine ⟨fun id known inside => ?_, apart _ List.mem_cons_self, distinct⟩
    rcases List.mem_cons.mp inside with rfl | inside
    · rw [List.contains_eq_mem, decide_eq_false_iff_not] at fresh
      exact fresh known
    · exact apart id (List.mem_cons_of_mem _ known) inside

omit [ContainerCrates] [JsonText] [SigningCrates V] [PublishingCrates V] in
theorem readKeys_eq_ok {path : String} {nonempty : Bool} {keys : TrustedKeySet} {files' : Files}
    (ended : (readKeys V path nonempty).outcome files = (.ok keys, files')) :
    files' = files ∧ (keys.keys.map TrustedKey.id).Nodup := by
  simp only [readKeys, Script.bind_eq_ok, outcome_lift, outcome_pure, Prod.mk.injEq] at ended
  obtain ⟨bytes, _, read, document, _, ⟨accepted, rfl⟩, _, _, ⟨_, rfl⟩, _, _, ⟨_, rfl⟩, same, rfl⟩ :=
    ended
  obtain ⟨_, rfl⟩ := (readFile_eq_ok _).mp read
  cases same
  have decoded := mapError_eq_ok.mp accepted
  simp only [TrustedKeySet.fromBytes, Durable.bind_eq_ok, pure_eq_ok] at decoded
  obtain ⟨_, _, _, _, _, valid, rfl⟩ := decoded
  exact ⟨rfl, (validateKeys_nodup valid).2⟩

omit [ContainerCrates] [JsonText] in
theorem fileName_ending {path name ending : String} (named : fileName path = name)
    (ends : ending.toList <:+ name.toList) : ending.toList <:+ path.toList := by
  rw [← parentPrefix_fileName path, String.toList_append, named]
  exact ends.trans (List.suffix_append _ _)

omit [ContainerCrates] [JsonText] [SigningCrates V] [PublishingCrates V] in
/-- Archives and checksum files are neither manifest nor envelope. -/
theorem Published.apart {version : V} {path other ending : String} {target : Target}
    {asset : ReleaseAsset} (published : Published app version files path target asset)
    (ends : ending.toList <:+ other.toList)
    (known : ending ∈ ["-release.json", "-release.signatures.json"]) :
    path ≠ other ∧ checksumPath path ≠ other := by
  constructor
  · rintro rfl
    exact isArchiveName_ending published.archive (List.mem_cons_of_mem _ known) ends
  · rintro rfl
    have differ : ∀ ending ∈ ["-release.json", "-release.signatures.json"],
        (".sha256".toList.isSuffixOf ending.toList ||
          ending.toList.isSuffixOf ".sha256".toList) = false := by
      decide
    exact ne_of_endings (checksumPath_ending path) (differ ending known) ends

/-- The three runs of a release over one directory: the manifest and the envelope have
their canonical names, the key of the signer is trusted, and the manifest is current. -/
structure Release (generate sign verify : Invocation) (files files₁ files₂ : Files) (app : App)
    (directory manifestPath signaturesPath : String) (input : SigningInput) : Prop where
  generator : appFromArgs generate.args = .ok app
  only : OnlyArtifacts generate.args directory
  output : generate.args.one "output" = .ok manifestPath
  generated : (generateManifest V generate).outcome files = (.ok (), files₁)
  signer : appFromArgs sign.args = .ok app
  signs : sign.args.one "manifest" = .ok manifestPath
  signsTo : sign.args.one "output" = .ok signaturesPath
  ready : (signingInput V sign).outcome files₁ = (.ok input, files₁)
  signed : (signManifest V sign).outcome files₁ = (.ok (), files₂)
  verifier : appFromArgs verify.args = .ok app
  reads : verify.args.one "manifest" = .ok manifestPath
  readsSignatures : verify.args.one "signatures" = .ok signaturesPath
  readsArtifacts : verify.args.one "artifacts-dir" = .ok directory
  manifestName : fileName manifestPath = app.metadataFilename
  signaturesName : fileName signaturesPath = app.signatureFilename
  trusted : ∃ keysPath keys, verify.args.one "keys" = .ok keysPath ∧
    (readKeys V keysPath true).outcome files₂ = (.ok keys, files₂) ∧
    TrustedKey.ed25519 V input.keyId (SigningCrates.verifyingKey V input.privateKey) ∈ keys.keys
  current : ∀ manifest : ReleaseManifest V,
    ReleaseManifest.fromBytes app input.manifestBytes = .ok manifest →
      manifest.ensureNotExpired (Crates.readTime V) verify.now = .ok ()

variable (V) in
/-- The entries that a signer leaves, in the order in which they came. -/
def addedEntries (sign : Invocation) (files : Files) (signaturesPath : String)
    (input : SigningInput) : List SignatureEntry :=
  (if sign.args.flag "append" then storedEntries V files signaturesPath else []) ++ [input.entry V]

/-- Every entry of the directory that is named like an archive leads to a file. -/
def ArchivesAreFiles (app : App) (files : Files) (directory : String) : Prop :=
  ∀ path, (files.lookup path).isSome = true → parentPrefix path = directory ++ "/" →
    isArchiveName app path = true → (files.read path).isSome = true

variable {generate sign verify : Invocation} {input : SigningInput}

omit [ContainerCrates] [JsonText] in
theorem metadataFilename_ending (app : App) :
    "-release.json".toList <:+ app.metadataFilename.toList := by
  rw [App.metadataFilename, String.toList_append]
  exact List.suffix_append _ _

omit [ContainerCrates] [JsonText] in
theorem signatureFilename_ending (app : App) :
    "-release.signatures.json".toList <:+ app.signatureFilename.toList := by
  rw [App.signatureFilename, String.toList_append]
  exact List.suffix_append _ _

namespace Release

section

variable (release : Release (V := V) generate sign verify files files₁ files₂ app directory
  manifestPath signaturesPath input)

include release

theorem manifest_ending : "-release.json".toList <:+ manifestPath.toList :=
  fileName_ending release.manifestName (metadataFilename_ending app)

theorem signatures_ending : "-release.signatures.json".toList <:+ signaturesPath.toList :=
  fileName_ending release.signaturesName (signatureFilename_ending app)

theorem paths_apart : manifestPath ≠ signaturesPath := by
  intro same
  have ending := release.signatures_ending
  rw [← same] at ending
  exact ne_of_endings release.manifest_ending (by decide) ending

/-- The manifest that was written is the one that is signed and verified. -/
theorem manifest : ∃ middle paths, ∃ manifest : ReleaseManifest V,
    Generated generate directory files middle files₁ paths app manifestPath manifest ∧
      files₁.read manifestPath = some input.manifestBytes ∧
      ReleaseManifest.fromBytes app input.manifestBytes = .ok manifest ∧
      validatePublishedAt V manifest.publishedAt = .ok () ∧
      validateTimestamp V manifest.expiresAt "expires_at" = .ok () := by
  obtain ⟨middle, paths, app', output, manifest, generated⟩ :=
    generateManifest_eq_ok release.only release.generated
  have sameApp := Except.ok.inj (generated.named.symm.trans release.generator)
  have sameOutput := Except.ok.inj (generated.written.symm.trans release.output)
  subst sameApp sameOutput
  obtain ⟨signer, path, found, named, reads, _, _, _, content, accepted, published, expires, _⟩ :=
    signingInput_eq_ok.mp release.ready
  have sameSigner := Except.ok.inj (named.symm.trans release.signer)
  have samePath := Except.ok.inj (reads.symm.trans release.signs)
  subst sameSigner samePath
  have printed := content
  rw [generated.result, Files.read_write_same] at printed
  rw [← Option.some.inj printed] at accepted
  obtain rfl := fromBytes_printed generated.named generated.valid accepted
  rw [Option.some.inj printed] at accepted
  exact ⟨middle, paths, found, generated, content, accepted, published, expires⟩

theorem envelope {middle : Files} {paths : List String} {manifest : ReleaseManifest V}
    (generated : Generated generate directory files middle files₁ paths app manifestPath manifest) :
    files₁.writable signaturesPath = true ∧ validEntries [] (addedEntries V sign files signaturesPath input) = true ∧
      files₂ = files₁.write signaturesPath (envelopeBytes (sortByKeyId (addedEntries V sign files signaturesPath input))) := by
  obtain ⟨input', added, signed⟩ := signManifest_eq_ok release.signed
  obtain rfl : input = input' :=
    Except.ok.inj (Prod.mk.inj (release.ready.symm.trans signed.ready)).1
  obtain ⟨_, _, _, _, _, signsTo, _⟩ := signingInput_eq_ok.mp signed.ready
  have samePath := Except.ok.inj (signsTo.symm.trans release.signsTo)
  have plain : ¬ ".sha256".toList <:+ signaturesPath.toList :=
    ne_of_endings release.signatures_ending (by decide)
  have read : files₁.read signaturesPath = files.read signaturesPath := by
    rw [generated.result, Files.read_write_other release.paths_apart.symm, generated.keeps.read plain]
  have stored : storedEntries V files₁ signaturesPath = storedEntries V files signaturesPath := by
    rw [storedEntries, read, storedEntries]
  have whole : added ++ [input.entry V] = addedEntries V sign files signaturesPath input := by
    rw [entries_of_openEnvelope signed.opened, samePath, stored]
    rfl
  have valid := signed.valid
  have result := signed.result
  rw [whole] at valid result
  rw [samePath] at result
  have writable := signed.writable
  rw [samePath] at writable
  exact ⟨writable, valid, result⟩

variable {middle : Files} {paths : List String} {manifest : ReleaseManifest V}

/-- Archives and their checksum files are as the manifest command left them. -/
theorem inPlace
    (generated : Generated generate directory files middle files₁ paths app manifestPath manifest) :
    InPlace app manifest directory files₂ := by
  obtain ⟨_, _, result⟩ := release.envelope generated
  intro target asset listed
  obtain ⟨path, inside, published⟩ := generated.published.listed target asset listed
  obtain ⟨_, _, below⟩ := (generated.found path).mp inside
  have whole : joinPath directory asset.archive = path := by
    rw [joinPath, ← below, ← published.name, parentPrefix_fileName]
  rw [whole, result, generated.result]
  obtain ⟨archive, checksum⟩ := published.apart release.manifest_ending (by simp)
  have afterManifest := published.write archive checksum
    (printJson (Codecs.releaseManifest.encode manifest))
  obtain ⟨archive, checksum⟩ := published.apart release.signatures_ending (by simp)
  exact afterManifest.write archive checksum _

theorem directories
    (generated : Generated generate directory files middle files₁ paths app manifestPath manifest)
    {path : String} (opened : files.lookup path = some .directory) :
    files₂.lookup path = some .directory := by
  obtain ⟨writable, _, result⟩ := release.envelope generated
  rw [result]
  apply write_directory writable
  rw [generated.result]
  exact write_directory generated.writable (generated.keeps.directories path opened)

/-- The three runs write nothing that is named like an archive. -/
theorem lookup_archive
    (generated : Generated generate directory files middle files₁ paths app manifestPath manifest)
    {path : String} (archive : isArchiveName app path = true) :
    files₂.lookup path = files.lookup path := by
  obtain ⟨_, _, result⟩ := release.envelope generated
  have other : ∀ ending ∈ [".sha256", "-release.json", "-release.signatures.json"],
      ¬ ending.toList <:+ path.toList := fun _ known => isArchiveName_ending archive known
  have notSignatures : path ≠ signaturesPath := by
    rintro rfl
    exact other _ (by simp) release.signatures_ending
  have notManifest : path ≠ manifestPath := by
    rintro rfl
    exact other _ (by simp) release.manifest_ending
  rw [result, Files.lookup_write_other notSignatures, generated.result,
    Files.lookup_write_other notManifest, generated.keeps.same path (other _ (by simp))]

/-- No other entry is named like an archive when all that are so named are files. -/
theorem unlisted_iff
    (generated : Generated generate directory files middle files₁ paths app manifestPath manifest) :
    (∀ path ∈ files₂.keys, parentPrefix path = directory ++ "/" → isArchiveName app path = true →
        fileName path ∈ listedArchives manifest Target.all) ↔
      ArchivesAreFiles app files directory := by
  constructor
  · intro known path entry below archive
    have same := release.lookup_archive generated archive
    rw [← same, AList.lookup_isSome, AList.mem_keys] at entry
    obtain ⟨target, _, asset, listed, name⟩ :=
      mem_listedArchives.mp (known path entry below archive)
    have whole : joinPath directory asset.archive = path := by
      rw [joinPath, ← below, name, parentPrefix_fileName]
    obtain ⟨content, found, _⟩ := (release.inPlace generated target asset listed).content
    rw [whole, Files.read, same] at found
    rw [Files.read, found]
    rfl
  · intro plain path inKeys below archive
    rw [← AList.mem_keys, ← AList.lookup_isSome, release.lookup_archive generated archive] at inKeys
    have isFile := plain path inKeys below archive
    obtain ⟨target, asset, listed, published⟩ :=
      generated.published.covered path ((generated.found path).mpr ⟨isFile, archive, below⟩)
    exact mem_listedArchives.mpr ⟨target, Target.mem_all target, asset, listed,
      published.name.symm⟩

/-- Everything before the archives passes exactly when the envelope is not too large. -/
theorem verifyRelease_iff :
    (verifyRelease V verify).outcome files₂ = (.ok (), files₂) ↔
      (envelopeBytes (addedEntries V sign files signaturesPath input)).length ≤ maxMetadataSize ∧
        CarriedName app.name ∧ ArchivesAreFiles app files directory := by
  obtain ⟨middle, paths, manifest, generated, content, accepted, published, expires⟩ :=
    release.manifest
  obtain ⟨_, valid, result⟩ := release.envelope generated
  obtain ⟨keysPath, keys, readsKeys, keysRead, trusted⟩ := release.trusted
  have unique := (readKeys_eq_ok keysRead).2
  have sorted := sortByKeyId_perm (addedEntries V sign files signaturesPath input)
  have size : (envelopeBytes (sortByKeyId (addedEntries V sign files signaturesPath input))).length =
      (envelopeBytes (addedEntries V sign files signaturesPath input)).length :=
    le_antisymm (envelopeBytes_le sorted.subperm) (envelopeBytes_le sorted.symm.subperm)
  have inside : input.entry V ∈ sortByKeyId (addedEntries V sign files signaturesPath input) :=
    sorted.mem_iff.mpr (List.mem_append_right _ List.mem_cons_self)
  have validSorted : validEntries []
      (sortByKeyId (addedEntries V sign files signaturesPath input)) = true := by
    obtain ⟨named, distinct⟩ := validEntries_eq_true.mp valid
    exact validEntries_eq_true.mpr ⟨fun entry here => named entry (sorted.mem_iff.mp here),
      (sorted.map _).nodup_iff.mpr distinct⟩
  have readManifest : (readFile "" manifestPath).outcome files₂ = (.ok input.manifestBytes, files₂) := by
    rw [readFile_eq_ok, result, Files.read_write_other release.paths_apart]
    exact ⟨content, rfl⟩
  have readSignatures : (readFile "" signaturesPath).outcome files₂ = (.ok (envelopeBytes
      (sortByKeyId (addedEntries V sign files signaturesPath input))), files₂) := by
    rw [readFile_eq_ok, result, Files.read_write_same]
    exact ⟨rfl, rfl⟩
  have parses : parsed "manifest " manifestPath (ReleaseManifest.fromBytes app input.manifestBytes) =
      .ok manifest := mapError_eq_ok.mpr accepted
  have artifacts := verifyArtifacts_iff (release.inPlace generated) generated.valid
    (release.directories generated generated.opened)
  rw [release.unlisted_iff generated] at artifacts
  simp only [verifyRelease]
  rw [lift_bind_ok release.verifier, lift_bind_ok release.reads, lift_bind_ok release.readsSignatures,
    lift_bind_ok readsKeys, lift_bind_ok release.readsArtifacts,
    lift_bind_ok (check_pass release.manifestName), lift_bind_ok (check_pass release.signaturesName),
    Script.bind_ok readManifest, lift_bind_ok parses, lift_bind_ok published, lift_bind_ok expires,
    Script.bind_ok readSignatures, ← size, ← artifacts]
  constructor
  · intro ended
    obtain ⟨envelope, _, opened, later⟩ := Script.bind_eq_ok.mp ended
    rw [outcome_lift, Prod.mk.injEq] at opened
    obtain ⟨opened, rfl⟩ := opened
    refine ⟨(envelope_eq_ok.mp (mapError_eq_ok.mp opened)).1, ?_⟩
    rw [Script.bind_ok keysRead] at later
    obtain ⟨_, _, verified, later⟩ := Script.bind_eq_ok.mp later
    rw [outcome_lift, Prod.mk.injEq] at verified
    obtain ⟨_, rfl⟩ := verified
    obtain ⟨_, _, current, later⟩ := Script.bind_eq_ok.mp later
    rw [outcome_lift, Prod.mk.injEq] at current
    obtain ⟨_, rfl⟩ := current
    exact later
  · intro both
    obtain ⟨fits, verified⟩ := both
    have opened := fromBytes_envelopeBytes (V := V) fits (List.ne_nil_of_mem inside) validSorted
    obtain ⟨id, vouched⟩ := accepts_of_vouches unique opened inside (vouches_entry trusted)
    have opens : parsed "signatures " signaturesPath (SignatureEnvelope.fromBytes V (envelopeBytes
        (sortByKeyId (addedEntries V sign files signaturesPath input)))) =
          .ok (.new (sortByKeyId (addedEntries V sign files signaturesPath input))) :=
      mapError_eq_ok.mpr opened
    have vouches : reported (verifyManifestWithKeys V input.manifestBytes (envelopeBytes
        (sortByKeyId (addedEntries V sign files signaturesPath input))) keys.keys) = .ok ⟨id⟩ :=
      mapError_eq_ok.mpr vouched
    have current : reported (manifest.ensureNotExpired (Crates.readTime V) verify.now) = .ok () :=
      mapError_eq_ok.mpr (release.current manifest accepted)
    rw [lift_bind_ok opens, Script.bind_ok keysRead, lift_bind_ok vouches, lift_bind_ok current]
    exact verified

end

end Release

end

section Sample

open Sample

def toolApp : App :=
  { name := "app", version := "0.0.0", repositoryUrl := "https://example.invalid/"
    trustAnchor := emptyTrustAnchor, activation := .windowsLauncher "launcher.exe" 1
    selfTest := none }

def publishedFiles (before : Files) : Files :=
  (before.write (checksumPath zipPath) (checksumText (Sample.digestOf (archiveBytes firstRelease)) (fileName zipPath))).write
    "out/app-release.json" printedBytes

theorem readOnly_probeArchive {V : Type} [SemVer V] [Crates V] [ContainerCrates] (app : App)
    (path version : String) : ReadOnly Gains (probeArchive V app path version) := by
  refine ReadOnly.bind (ReadOnly.lift _) fun _ => ?_
  refine ReadOnly.bind (ReadOnly.lift _) fun _ => ?_
  refine ReadOnly.bind (ReadOnly.lift _) fun _ => ?_
  refine ReadOnly.bind (ReadOnly.lift _) fun _ => ?_
  refine ReadOnly.bind (readOnly_readFile _ _) fun _ => ?_
  refine ReadOnly.bind (ReadOnly.lift _) fun _ => ?_
  refine ReadOnly.bind (ReadOnly.lift _) fun _ => ?_
  refine ReadOnly.bind (ReadOnly.lift _) fun _ => ?_
  exact ReadOnly.bind (ReadOnly.lift _) fun _ => ReadOnly.pure _

theorem zip_probed : ((probeArchive Printed toolApp zipPath "1.0.0").outcome
    (folder [(zipPath, .file (archiveBytes firstRelease))])).1 = .ok zipProbe := by
  decide +kernel

theorem zip_inspected : (inspectArchive Printed toolApp (archiveBytes firstRelease)
    (asset windowsTarget firstRelease)).toOption.isSome = true := by
  decide +kernel

theorem zip_published {before : Files} (found : before.read zipPath = some (archiveBytes firstRelease))
    (writable : before.writable (checksumPath zipPath) = true) :
    (publishArchives toolApp "1.0.0" firstPrinted (fun _ => none) [zipPath]).outcome before =
      (.ok printedManifest.targets, before.write (checksumPath zipPath)
        (checksumText (Sample.digestOf (archiveBytes firstRelease)) (fileName zipPath))) := by
  have gains : Gains (folder [(zipPath, .file (archiveBytes firstRelease))]) before := by
    intro path bytes known
    by_cases same : path = zipPath
    · subst same
      exact found.trans known
    · have only : folder [(zipPath, .file (archiveBytes firstRelease))] =
          (∅ : Files).insert zipPath (.file (archiveBytes firstRelease)) := rfl
      rw [Files.read_eq_some, only, AList.lookup_insert_ne same] at known
      cases known
  have probed : (probeArchive Printed toolApp zipPath "1.0.0").outcome before =
      (.ok zipProbe, before) :=
    (readOnly_probeArchive toolApp zipPath "1.0.0" _ _ _ _ gains
      (Prod.ext zip_probed rfl)).2
  have made : probedAsset toolApp firstPrinted windowsTarget zipProbe =
      .ok (asset windowsTarget firstRelease) := by
    decide +kernel
  obtain ⟨release, inspected⟩ := ok_of_isSome zip_inspected
  have wrote : (writeChecksum zipPath zipProbe.sha256).outcome before = (.ok (), _) :=
    writeChecksum_eq_ok.mpr ⟨writable, rfl⟩
  have target : Target.fromStr zipProbe.target = .ok windowsTarget := Target.fromStr_asStr windowsTarget
  have inspects : reported (inspectArchive Printed toolApp (archiveBytes firstRelease)
      (asset windowsTarget firstRelease)) = .ok release := mapError_eq_ok.mpr inspected
  have one : (publishArchive toolApp "1.0.0" firstPrinted (fun _ => none) zipPath).outcome before =
      (.ok (Function.update (fun _ => none) windowsTarget (some (asset windowsTarget firstRelease))),
        before.write (checksumPath zipPath)
          (checksumText (Sample.digestOf (archiveBytes firstRelease)) (fileName zipPath))) := by
    rw [publishArchive, Script.bind_ok probed, lift_bind_ok target, lift_bind_ok made,
      Script.bind_ok ((readFile_eq_ok "").mpr ⟨found, rfl⟩), lift_bind_ok inspects]
    exact (Script.bind_ok wrote).trans rfl
  have targets : Function.update (fun _ => none) windowsTarget
      (some (asset windowsTarget firstRelease)) = printedManifest.targets := by
    funext target
    cases target <;> rfl
  rw [publishArchives, Script.bind_ok one, targets]
  rfl

theorem printedManifest_valid : printedManifest.validate (Crates.readTime Printed) toolApp = .ok () := by
  decide +kernel

theorem printedBytes_short : printedBytes.length ≤ maxMetadataSize := by
  have size : printedBytes.length = (Codecs.releaseManifest.encode printedManifest).size := by
    unfold printedBytes
    exact printJson_length _
  rw [size]
  decide +kernel

theorem printedManifest_accepted : ReleaseManifest.fromBytes toolApp printedBytes = .ok printedManifest := by
  have decoded : Crates.decodeManifest printedBytes = .ok printedManifest := by
    have inRange := manifest_inRange rfl printedManifest_valid
    unfold printedBytes
    rw [PublishingCrates.decodeManifest_eq, JsonText.parse_print _
      ((Codecs.releaseManifest.encode_shallow _).mono (by change 4 ≤ 127; omega)), ok_bind,
      Codecs.releaseManifest.decode_encode _ inRange]
  rw [ReleaseManifest.fromBytes, check_pass printedBytes_short, ok_bind, decoded]
  exact Durable.bind_eq_ok.mpr ⟨printedManifest, rfl,
    Durable.bind_eq_ok.mpr ⟨(), printedManifest_valid, rfl⟩⟩

theorem signerKeys_accepted : TrustedKeySet.fromBytes Printed
    (printJson (Codecs.trustedKeySet.encode signerKeys)) = .ok signerKeys := by
  have decoded : Crates.decodeKeySet Printed (printJson (Codecs.trustedKeySet.encode signerKeys)) =
      .ok signerKeys := by
    have inRange : Codecs.trustedKeySet.InRange signerKeys := Codecs.trustedKeySet_inRange (by decide)
    change JsonText.parse (printJson (Codecs.trustedKeySet.encode signerKeys)) >>=
      Codecs.trustedKeySet.decode = _
    rw [JsonText.parse_print _ ((Codecs.trustedKeySet.encode_shallow _).mono (by decide)), ok_bind,
      Codecs.trustedKeySet.decode_encode _ inRange]
  have valid : validateKeys Printed [] signerKeys.keys = .ok () := by decide +kernel
  rw [TrustedKeySet.fromBytes, decoded]
  exact Durable.bind_eq_ok.mpr ⟨signerKeys, rfl, Durable.bind_eq_ok.mpr ⟨(), check_eq_ok.mpr rfl,
    Durable.bind_eq_ok.mpr ⟨(), valid, rfl⟩⟩⟩

/-- A directory in which only the one archive is found. -/
structure Publishable (before : Files) : Prop where
  found : before.read zipPath = some (archiveBytes firstRelease)
  checksum : before.lookup (checksumPath zipPath) = none
  output : before.lookup "out/app-release.json" = none
  signatures : before.lookup "out/app-release.signatures.json" = none
  privateKey : before.read "first.key" = some (encodeUtf8 (encodeBase64 firstKey.1))
  keys : before.read "keys.json" = some (printJson (Codecs.trustedKeySet.encode signerKeys))
  collected : (collectArchives generator.args toolApp).outcome before = (.ok [zipPath], before)

section

variable {before : Files} (ready : Publishable before)

include ready

theorem sample_generated :
    (generateManifest Printed generator).outcome before = (.ok (), publishedFiles before) := by
  have named : appFromArgs generator.args = .ok toolApp := rfl
  have versionText : generator.args.one "version" = .ok "1.0.0" := rfl
  have version : reported (parseVersion Printed "1.0.0") = .ok firstPrinted :=
    mapError_eq_ok.mpr (parseVersion_eq_ok.mpr rfl)
  have output : generator.args.one "output" = .ok "out/app-release.json" := rfl
  have expires : expiresAtOf Printed generator = .ok "1971-01-01T00:00:00Z" := rfl
  have archives := zip_published ready.found (Files.writable_of_absent ready.checksum)
  have made : reported (ReleaseManifest.new (Crates.readTime Printed) toolApp firstPrinted
      (PublishingCrates.formatTime Printed generator.now) "1971-01-01T00:00:00Z"
      printedManifest.targets) = .ok printedManifest :=
    mapError_eq_ok.mpr (Durable.bind_eq_ok.mpr ⟨(), printedManifest_valid, rfl⟩)
  have printed : reported (ManifestJson.toBytes (Crates.readTime Printed) toolApp printedManifest) =
      .ok printedBytes := by
    unfold printedBytes
    exact mapError_eq_ok.mpr (Durable.bind_eq_ok.mpr ⟨(), printedManifest_valid, rfl⟩)
  rw [generateManifest, lift_bind_ok named, lift_bind_ok versionText, lift_bind_ok version,
    lift_bind_ok output, Script.bind_ok ready.collected, Script.bind_ok archives,
    lift_bind_ok expires, lift_bind_ok made, lift_bind_ok printed]
  refine writeFile_ok ?_
  have different : "out/app-release.json" ≠ checksumPath zipPath := by decide
  rw [Files.writable_write_other different]
  exact Files.writable_of_absent ready.output

def publishedInput : SigningInput :=
  ⟨"out/app-release.signatures.json", "a", printedBytes, firstKey⟩

/-- The files after the three writes. -/
def signedFiles (before : Files) : Files :=
  (publishedFiles before).write publishedInput.output
    (envelopeBytes (sortByKeyId [publishedInput.entry Printed]))

theorem sample_ready : (signingInput Printed signer).outcome (publishedFiles before) =
    (.ok publishedInput, publishedFiles before) := by
  have named : appFromArgs signer.args = .ok toolApp := rfl
  have times : ∀ value field, validateTimestamp Printed value field = .ok () := fun _ _ =>
    check_pass rfl
  have parses : parsePrivateKey Printed (encodeBase64 firstKey.1) = .ok firstKey := by
    decide +kernel
  have stored : (publishedFiles before).read "first.key" = some (encodeUtf8 (encodeBase64 firstKey.1)) := by
    rw [publishedFiles, Files.read_write_other (by decide), Files.read_write_other (by decide),
      ready.privateKey]
  have loaded : (loadPrivateKey Printed signer).outcome (publishedFiles before) =
      (.ok firstKey, publishedFiles before) := loadPrivateKey_file rfl stored parses
  have content : (publishedFiles before).read "out/app-release.json" = some printedBytes := by
    rw [publishedFiles, Files.read_write_same]
  have valid : validateKeyId publishedInput.keyId = .ok () := by decide +kernel
  have listed : signer.args.one "manifest" = .ok "out/app-release.json" := rfl
  have output : signer.args.one "output" = .ok publishedInput.output := rfl
  have keyId : signer.args.one "key-id" = .ok publishedInput.keyId := rfl
  exact signingInput_eq_ok.mpr ⟨toolApp, "out/app-release.json", printedManifest, named, listed,
    output, keyId, valid, content, printedManifest_accepted, times _ _, times _ _, loaded⟩

theorem sample_signed : (signManifest Printed signer).outcome (publishedFiles before) =
    (.ok (), signedFiles before) := by
  have appends : signer.args.flag "append" = false := rfl
  have opened : (openEnvelope Printed false publishedInput.output).outcome (publishedFiles before) =
      (.ok (.new []), publishedFiles before) := rfl
  have first : publishedInput.output ≠ "out/app-release.json" := by decide
  have second : publishedInput.output ≠ checksumPath zipPath := by decide
  have absent : before.lookup publishedInput.output = none := ready.signatures
  have writable : (publishedFiles before).writable publishedInput.output = true := by
    rw [publishedFiles, Files.writable_write_other first, Files.writable_write_other second]
    exact Files.writable_of_absent absent
  have adds := signManifest_adds appends (sample_ready ready) opened List.not_mem_nil writable
  rwa [List.nil_append] at adds

theorem sample_keys : (readKeys Printed "keys.json" true).outcome (signedFiles before) =
    (.ok signerKeys, signedFiles before) := by
  have first : "keys.json" ≠ publishedInput.output := by decide
  have second : "keys.json" ≠ "out/app-release.json" := by decide
  have third : "keys.json" ≠ checksumPath zipPath := by decide
  have content : (signedFiles before).read "keys.json" =
      some (printJson (Codecs.trustedKeySet.encode signerKeys)) := by
    rw [signedFiles, Files.read_write_other first, publishedFiles, Files.read_write_other second,
      Files.read_write_other third, ready.keys]
  have document : parsed "public key document " "keys.json" (TrustedKeySet.fromBytes Printed
      (printJson (Codecs.trustedKeySet.encode signerKeys))) = .ok signerKeys :=
    mapError_eq_ok.mpr signerKeys_accepted
  have nonempty : true = true → signerKeys.keys.any (fun key => key.algorithm == ed25519Algorithm) =
      true := fun _ => rfl
  have known : checkKeys signerKeys.keys = .ok () := by decide +kernel
  rw [readKeys, Script.bind_ok ((readFile_eq_ok "").mpr ⟨content, rfl⟩), lift_bind_ok document,
    lift_bind_ok (check_pass nonempty), lift_bind_ok known]
  rfl

theorem sample_release : Release (V := Printed) generator signer verifier before
    (publishedFiles before) (signedFiles before) toolApp "out" "out/app-release.json"
    "out/app-release.signatures.json" publishedInput where
  generator := rfl
  only := ⟨rfl, rfl, rfl⟩
  output := rfl
  generated := sample_generated ready
  signer := rfl
  signs := rfl
  signsTo := rfl
  ready := sample_ready ready
  signed := sample_signed ready
  verifier := rfl
  reads := rfl
  readsSignatures := rfl
  readsArtifacts := rfl
  manifestName := by decide
  signaturesName := by decide
  trusted := ⟨"keys.json", signerKeys, rfl, sample_keys ready, List.mem_singleton_self _⟩
  current := by
    intro manifest accepted
    have same := Except.ok.inj (accepted.symm.trans printedManifest_accepted)
    subst same
    decide +kernel

end

/-- Every entry of the artifacts before the release, and what the run finds there. -/
theorem publishable_plain : Publishable (artifacts []) where
  found := rfl
  checksum := by decide +kernel
  output := by decide +kernel
  signatures := by decide +kernel
  privateKey := rfl
  keys := rfl
  collected := by decide +kernel

theorem publishable_mixed : Publishable (artifacts [("out/app-old.zip", .directory)]) where
  found := rfl
  checksum := by decide +kernel
  output := by decide +kernel
  signatures := by decide +kernel
  privateKey := rfl
  keys := rfl
  collected := by decide +kernel

theorem plain_archives : ArchivesAreFiles toolApp (artifacts []) "out" := by
  have all : ∀ path ∈ (artifacts []).keys, parentPrefix path = "out" ++ "/" →
      isArchiveName toolApp path = true → ((artifacts []).read path).isSome = true := by
    decide +kernel
  intro path entry
  rw [AList.lookup_isSome, AList.mem_keys] at entry
  exact all path entry

end Sample

end Relswap.Tool
