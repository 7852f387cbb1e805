import Relswap.Proof.Signing
import Relswap.Sample.Signing

/-!
# Appended signatures

Signing with `--append` collects the entries of all signers, ordered by key id, so
that the envelope does not depend on the order of the runs. Each entry vouches for the
manifest under its signer's public key.
-/

namespace Relswap.Tool

open Durable Checked Checked.Script

section

variable {V : Type} [SemVer V] [Crates V] [JsonText] [SigningCrates V]

/-- The envelope of the given entries, if there are any. -/
def withEntries (files : Files) (output : String) (entries : List SignatureEntry) : Files :=
  if entries = [] then files else files.write output (envelopeBytes (sortByKeyId entries))

variable (V) in
/-- A run that appends, with everything that it needs. -/
def Appends (files : Files) (output : String) (manifestBytes : Bytes) (run : Invocation)
    (input : SigningInput) : Prop :=
  run.args.flag "append" = true ∧ (signingInput V run).outcome files = (.ok input, files) ∧
    input.output = output ∧ input.manifestBytes = manifestBytes

variable {files : Files} {output : String} {manifestBytes : Bytes} {run : Invocation}
  {input : SigningInput} {entries : List SignatureEntry}

/-- Entries that can be stored: named, distinct, and together not too large. -/
structure Storable (entries : List SignatureEntry) : Prop where
  named : ∀ entry ∈ entries, entry.keyId ≠ "" ∧ entry.algorithm ≠ ""
  distinct : (entries.map SignatureEntry.keyId).Nodup
  fits : (envelopeBytes entries).length ≤ maxMetadataSize

omit [JsonText] in
theorem Storable.sublist {fewer : List SignatureEntry} (storable : Storable entries)
    (inside : fewer.Sublist entries) : Storable fewer where
  named entry here := storable.named entry (inside.subset here)
  distinct := storable.distinct.sublist (inside.map _)
  fits := (envelopeBytes_le inside.subperm).trans storable.fits

omit [JsonText] in
theorem Storable.perm {other : List SignatureEntry} (storable : Storable entries)
    (same : other.Perm entries) : Storable other where
  named entry here := storable.named entry (same.mem_iff.mp here)
  distinct := (same.map SignatureEntry.keyId).nodup_iff.mpr storable.distinct
  fits := (envelopeBytes_le same.subperm).trans storable.fits

theorem fromBytes_sorted (storable : Storable entries) (some_ : entries ≠ []) :
    SignatureEnvelope.fromBytes V (envelopeBytes (sortByKeyId entries)) =
      .ok (.new (sortByKeyId entries)) := by
  have sorted := storable.perm (sortByKeyId_perm entries)
  refine fromBytes_envelopeBytes sorted.fits ?_ (validEntries_eq_true.mpr ⟨?_, sorted.distinct⟩)
  · intro none_
    exact some_ (List.nil_perm.mp (none_ ▸ sortByKeyId_perm entries))
  · intro entry here
    exact ⟨(sorted.named entry here).1, (sorted.named entry here).2, List.not_mem_nil⟩

/-- The envelope that was written is opened. -/
theorem openEnvelope_withEntries (absent : files.lookup output = none) (storable : Storable entries) :
    (openEnvelope V true output).outcome (withEntries files output entries) =
      (.ok (.new (sortByKeyId entries)), withEntries files output entries) := by
  by_cases none_ : entries = []
  · subst none_
    rw [withEntries, if_pos rfl, openEnvelope, Script.bind_ok (outcome_get files),
      Files.pathExists_of_absent absent, sortByKeyId_nil]
    rfl
  · rw [withEntries, if_neg none_, openEnvelope, Script.bind_ok (outcome_get _),
      Files.pathExists_of_read (Files.read_write_same ..)]
    apply (Script.bind_ok ((readFile_eq_ok _).mpr ⟨Files.read_write_same .., rfl⟩)).trans
    rw [fromBytes_sorted storable none_]
    rfl

theorem storedEntries_withEntries (absent : files.lookup output = none) (storable : Storable entries) :
    storedEntries V (withEntries files output entries) output = sortByKeyId entries := by
  by_cases none_ : entries = []
  · subst none_
    rw [withEntries, if_pos rfl, storedEntries, Files.read_of_absent absent, sortByKeyId_nil]
  · rw [withEntries, if_neg none_, storedEntries, Files.read_write_same]
    dsimp only
    rw [fromBytes_sorted storable none_]
    rfl

omit [JsonText] in
theorem gains_withEntries (absent : files.lookup output = none) :
    Gains files (withEntries files output entries) := by
  rw [withEntries]
  split
  · exact fun _ _ => id
  · exact gains_write absent

omit [JsonText] in
theorem writable_withEntries (absent : files.lookup output = none) :
    (withEntries files output entries).writable output = true := by
  rw [withEntries]
  split
  · exact Files.writable_of_absent absent
  · exact Files.writable_write_same ..

/-- One more run adds its entry. -/
theorem signManifest_withEntries (absent : files.lookup output = none)
    (appends : Appends V files output manifestBytes run input)
    (storable : Storable (entries ++ [input.entry V])) :
    (signManifest V run).outcome (withEntries files output entries) =
      (.ok (), withEntries files output (entries ++ [input.entry V])) := by
  obtain ⟨append, ready, rfl, _⟩ := appends
  have ready' : (signingInput V run).outcome (withEntries files input.output entries) =
      (.ok input, withEntries files input.output entries) :=
    (readOnly_signingInput V run _ _ _ _ (gains_withEntries absent) ready).2
  have before : Storable entries := storable.sublist (List.sublist_append_left _ _)
  have distinct := storable.distinct
  rw [List.map_append, List.nodup_append] at distinct
  have fresh : input.keyId ∉ (sortByKeyId entries).map SignatureEntry.keyId := by
    intro known
    rw [((sortByKeyId_perm entries).map SignatureEntry.keyId).mem_iff] at known
    exact distinct.2.2 _ known input.keyId List.mem_cons_self rfl
  rw [signManifest_adds append ready' (openEnvelope_withEntries absent before) fresh
    (writable_withEntries absent)]
  have sorted : sortByKeyId (sortByKeyId entries ++ [input.entry V]) =
      sortByKeyId (entries ++ [input.entry V]) := by
    have same := (sortByKeyId_perm entries).append_right [input.entry V]
    exact sortByKeyId_eq same (storable.perm same).distinct
  rw [sorted, withEntries, withEntries, if_neg (List.append_ne_nil_of_right_ne_nil _ (by simp))]
  split
  · rfl
  · rw [Files.write_write]

/-- The runs of an order add their entries one after the other. -/
theorem signAll_withEntries {inputs : Invocation → SigningInput} (absent : files.lookup output = none)
    (order : List Invocation)
    (appends : ∀ run ∈ order, Appends V files output manifestBytes run (inputs run))
    (storable : Storable (entries ++ order.map fun run => (inputs run).entry V)) :
    (signAll V order).outcome (withEntries files output entries) =
      (.ok (), withEntries files output (entries ++ order.map fun run => (inputs run).entry V)) := by
  induction order generalizing entries with
  | nil =>
    rw [List.map_nil, List.append_nil]
    rfl
  | cons run order ih =>
    have whole : entries ++ (run :: order).map (fun run => (inputs run).entry V) =
        (entries ++ [(inputs run).entry V]) ++ order.map fun run => (inputs run).entry V := by
      rw [List.map_cons, List.append_assoc, List.singleton_append]
    rw [whole] at storable ⊢
    have first := signManifest_withEntries absent (appends run List.mem_cons_self)
      (storable.sublist (List.sublist_append_left _ _))
    rw [signAll, Script.bind_ok first]
    exact ih (fun other inside => appends other (List.mem_cons_of_mem _ inside)) storable

theorem storable_entries {runs : List Invocation} {inputs : Invocation → SigningInput}
    (appends : ∀ run ∈ runs, Appends V files output manifestBytes run (inputs run))
    (distinct : (runs.map fun run => (inputs run).keyId).Nodup)
    (fits : (envelopeBytes (sortByKeyId (runs.map fun run => (inputs run).entry V))).length ≤
      maxMetadataSize) : Storable (runs.map fun run => (inputs run).entry V) where
  named := by
    intro entry here
    obtain ⟨run, inside, rfl⟩ := List.mem_map.mp here
    have ed25519 : ed25519Algorithm ≠ "" := by decide
    exact ⟨keyId_of_signingInput (appends run inside).2.1, ed25519⟩
  distinct := by
    rw [List.map_map]
    exact distinct
  fits := (envelopeBytes_le (sortByKeyId_perm _).symm.subperm).trans fits

omit [JsonText] [SigningCrates V] in
/-- What is stored can be opened to append. -/
theorem openEnvelope_stored {found : Files} {output : String}
    (some_ : storedEntries V found output ≠ []) :
    (openEnvelope V true output).outcome found =
      (.ok (.new (storedEntries V found output)), found) := by
  rw [storedEntries] at some_ ⊢
  cases content : found.read output with
  | none =>
    rw [content] at some_
    exact absurd rfl some_
  | some bytes =>
    rw [content] at some_
    dsimp only at some_ ⊢
    cases accepted : SignatureEnvelope.fromBytes V bytes with
    | error refusal =>
      rw [accepted] at some_
      exact absurd rfl some_
    | ok envelope =>
      have schema := (envelope_eq_ok.mp accepted).2.2.1
      rw [openEnvelope, Script.bind_ok (outcome_get found), Files.pathExists_of_read content]
      apply (Script.bind_ok ((readFile_eq_ok _).mpr ⟨content, rfl⟩)).trans
      rw [accepted, SignatureEnvelope.new, ← schema]
      rfl

/-- Signers with distinct key ids that append to a new envelope leave the same files in
every order. Each run keeps the entries of those before it, and the ids stay distinct.
The envelope verifies under the keys of any one signer. A key id that is already in an
envelope is refused, and the files stay as they are. -/
theorem appended_signatures_commute {runs : List Invocation} {inputs : Invocation → SigningInput}
    (absent : files.lookup output = none)
    (appends : ∀ run ∈ runs, Appends V files output manifestBytes run (inputs run))
    (distinct : (runs.map fun run => (inputs run).keyId).Nodup)
    (fits : (envelopeBytes (sortByKeyId (runs.map fun run => (inputs run).entry V))).length ≤
      maxMetadataSize) :
    (∃ final, (∀ order, order.Perm runs → (signAll V order).outcome files = (.ok (), final)) ∧
      (storedEntries V final output).Perm (runs.map fun run => (inputs run).entry V) ∧
      ∀ keys : List TrustedKey, (keys.map TrustedKey.id).Nodup →
        (∃ run ∈ runs, TrustedKey.ed25519 V (inputs run).keyId
          (SigningCrates.verifyingKey V (inputs run).privateKey) ∈ keys) →
        ∃ bytes, final.read output = some bytes ∧
          ∃ id, verifyManifestWithKeys V manifestBytes bytes keys = .ok ⟨id⟩) ∧
    (∀ before run after, (before ++ run :: after).Perm runs →
      ∃ earlier later, (signAll V before).outcome files = (.ok (), earlier) ∧
        (signManifest V run).outcome earlier = (.ok (), later) ∧
        storedEntries V earlier output ⊆ storedEntries V later output ∧
        (inputs run).entry V ∈ storedEntries V later output ∧
        ((storedEntries V later output).map SignatureEntry.keyId).Nodup) ∧
    ∀ (found : Files) (again : Invocation) (input : SigningInput),
      again.args.flag "append" = true → (signingInput V again).outcome found = (.ok input, found) →
      input.keyId ∈ (storedEntries V found input.output).map SignatureEntry.keyId →
      (signManifest V again).outcome found =
        (.error s!"signature for key {input.keyId} already exists", found) := by
  have storable := storable_entries appends distinct fits
  have begun : withEntries files output [] = files := if_pos rfl
  -- every list of some of the runs signs in its own order
  have signs : ∀ order rest : List Invocation, (order ++ rest).Perm runs →
      Storable (order.map fun run => (inputs run).entry V) ∧ (signAll V order).outcome files =
        (.ok (), withEntries files output (order.map fun run => (inputs run).entry V)) := by
    intro order rest same
    have whole := storable.perm (same.map fun run => (inputs run).entry V)
    have part : Storable ([] ++ order.map fun run => (inputs run).entry V) :=
      whole.sublist ((List.sublist_append_left order rest).map _)
    refine ⟨part, ?_⟩
    have ended := signAll_withEntries absent order
      (fun run inside => appends run (same.subset (List.mem_append_left _ inside))) part
    rwa [begun, List.nil_append] at ended
  refine ⟨⟨withEntries files output (runs.map fun run => (inputs run).entry V), ?_, ?_, ?_⟩, ?_, ?_⟩
  · intro order same
    have ended := (signs order [] (by rwa [List.append_nil])).2
    have entries := same.map fun run => (inputs run).entry V
    rw [ended, withEntries, withEntries, sortByKeyId_eq entries (storable.perm entries).distinct]
    by_cases none_ : runs = []
    · have empty : order = [] := List.perm_nil.mp (none_ ▸ same)
      rw [none_, empty]
    · have some_ : order ≠ [] := fun empty => none_ (List.nil_perm.mp (empty ▸ same))
      rw [if_neg (by simpa using some_), if_neg (by simpa using none_)]
  · rw [storedEntries_withEntries absent storable]
    exact sortByKeyId_perm _
  · intro keys unique signed
    obtain ⟨run, inside, trusted⟩ := signed
    have here : (inputs run).entry V ∈ runs.map fun run => (inputs run).entry V :=
      List.mem_map_of_mem inside
    have some_ := List.ne_nil_of_mem here
    refine ⟨_, by rw [withEntries, if_neg some_, Files.read_write_same], ?_⟩
    obtain ⟨_, _, _, same⟩ := appends run inside
    exact accepts_of_vouches unique (fromBytes_sorted storable some_)
      ((sortByKeyId_perm _).mem_iff.mpr here) (same ▸ vouches_entry trusted)
  · intro before run after same
    obtain ⟨earlier, signed⟩ := signs before (run :: after) same
    have through : ((before ++ [run]) ++ after).Perm runs := by
      rwa [List.append_assoc, List.singleton_append]
    have later := (signs (before ++ [run]) after through).1
    rw [List.map_append, List.map_cons, List.map_nil] at later
    have inside : run ∈ runs := same.subset (List.mem_append_right _ List.mem_cons_self)
    refine ⟨_, _, signed, signManifest_withEntries absent (appends run inside) later, ?_⟩
    rw [storedEntries_withEntries absent earlier, storedEntries_withEntries absent later]
    have sorted := sortByKeyId_perm
      (before.map (fun run => (inputs run).entry V) ++ [(inputs run).entry V])
    refine ⟨fun entry here => ?_, ?_, (later.perm sorted).distinct⟩
    · rw [sorted.mem_iff]
      exact List.mem_append_left _ ((sortByKeyId_perm _).mem_iff.mp here)
    · rw [sorted.mem_iff]
      exact List.mem_append_right _ List.mem_cons_self
  · intro found again input append ready known
    have some_ : storedEntries V found input.output ≠ [] := by
      intro none_
      rw [none_] at known
      cases known
    exact signManifest_refuses append ready (openEnvelope_stored some_) known

end

section Sample

open Sample

def signerApp : App :=
  { name := "app", version := "0.0.0", repositoryUrl := "https://example.invalid/"
    trustAnchor := emptyTrustAnchor, activation := .windowsLauncher "launcher.exe" 1
    selfTest := none }

theorem signerManifest_accepted :
    ReleaseManifest.fromBytes (V := Signed) signerApp
      (Sample.manifestBytes windowsTarget firstRelease) =
        .ok (Sample.manifest windowsTarget firstRelease) := by
  decide +kernel

theorem signer_appends {keyId keyPath : String} {key : SigningKey}
    (valid : validateKeyId keyId = .ok ())
    (stored : signingFiles.read keyPath = some (encodeUtf8 (encodeBase64 key.1)))
    (parses : parsePrivateKey Signed (encodeBase64 key.1) = .ok key) :
    Appends Signed signingFiles "app-release.signatures.json"
      (Sample.manifestBytes windowsTarget firstRelease) ⟨signerArguments keyId keyPath, none, 0⟩
      (signerInput keyId key) := by
  have named : appFromArgs (signerArguments keyId keyPath) = .ok signerApp := rfl
  have manifested : signingFiles.read "app-release.json" =
      some (Sample.manifestBytes windowsTarget firstRelease) := rfl
  have times : ∀ value field, validateTimestamp Signed value field = .ok () := fun _ _ =>
    check_pass rfl
  have loaded : (loadPrivateKey Signed ⟨signerArguments keyId keyPath, none, 0⟩).outcome signingFiles =
      (.ok key, signingFiles) := loadPrivateKey_file rfl stored parses
  exact ⟨rfl, signingInput_eq_ok.mpr ⟨signerApp, "app-release.json", _, named, rfl, rfl, rfl,
    valid, manifested, signerManifest_accepted, times _ _, times _ _, loaded⟩, rfl, rfl⟩

/-- Which key a run of the two signers uses. -/
def inputOf (run : Invocation) : SigningInput :=
  if run.args.one "key-id" = .ok "b" then signerInput "b" firstKey else signerInput "a" secondKey

theorem appended_signatures_commute_two :
    ∃ final, (signAll Signed [firstSigner, secondSigner]).outcome signingFiles = (.ok (), final) ∧
      (signAll Signed [secondSigner, firstSigner]).outcome signingFiles = (.ok (), final) := by
  have first : Appends Signed signingFiles "app-release.signatures.json"
      (Sample.manifestBytes windowsTarget firstRelease) firstSigner (inputOf firstSigner) :=
    signer_appends (by decide +kernel) rfl (by decide +kernel)
  have second : Appends Signed signingFiles "app-release.signatures.json"
      (Sample.manifestBytes windowsTarget firstRelease) secondSigner (inputOf secondSigner) :=
    signer_appends (by decide +kernel) rfl (by decide +kernel)
  have both : ∀ run ∈ [firstSigner, secondSigner], Appends Signed signingFiles
      "app-release.signatures.json" (Sample.manifestBytes windowsTarget firstRelease) run
      (inputOf run) :=
    List.forall_mem_cons.mpr ⟨first, List.forall_mem_singleton.mpr second⟩
  have small : (envelopeBytes ([firstSigner, secondSigner].map fun run =>
      (inputOf run).entry Signed)).length ≤ maxMetadataSize := by
    decide +kernel
  obtain ⟨⟨final, ended, _⟩, _⟩ := appended_signatures_commute rfl both (by decide +kernel)
    ((envelopeBytes_le (sortByKeyId_perm _).subperm).trans small)
  exact ⟨final, ended _ (.refl _), ended _ (.swap ..)⟩

end Sample

end Relswap.Tool
