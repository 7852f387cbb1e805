import Relswap.Release.Archive

/-!
# Release resolution and bounded downloads

Metadata and archives are fetched through an injected downloader. URLs come
from a third-party crate; the resolver inspects their parts to tie every
response to one release version.
-/

namespace Relswap

open Durable

/-- What the program uses of the URL crate. -/
class UrlCrate (U : Type) where
  parse : String → Except String U
  scheme : U → String
  path : U → String
  pathSegments : U → Option (List String)
  hasQuery : U → Bool
  hasFragment : U → Bool
  join : U → String → Except String U
  setPath : U → String → U
  /-- Drop the query and the fragment. -/
  withoutQuery : U → U

/-- The result returned by an injected or production downloader. -/
structure DownloadResponse (U : Type) where
  requestedUrl : U
  finalUrl : U
  redirectHistory : List U
  bytes : Bytes

/-- The injectable network boundary. The first argument counts the fetches of
one operation, so that a downloader may answer the same request differently. -/
abbrev Downloader (U : Type) := Nat → U → Nat → Except ReleaseError (DownloadResponse U)

/-- Metadata whose manifest bytes have been signature-checked and parsed. -/
structure ReleaseMetadata (V U : Type) where
  version : V
  manifestBytes : Bytes
  manifest : ReleaseManifest V
  signatureBytes : Bytes
  signature : SignatureEnvelope
  verifiedSignature : VerifiedSignature
  releaseBase : U

/-- An archive whose bytes have been checked against the selected asset. -/
structure DownloadedArchive where
  target : Target
  name : String
  bytes : Bytes

section

variable {V U : Type} [SemVer V] [Crates V] [UrlCrate U]

def requireHttps (url : U) : Except ReleaseError Unit :=
  let scheme := UrlCrate.scheme url
  check (scheme = "https") (.download s!"release downloads require HTTPS, got {scheme}")

def requireAllHttps : List U → Except ReleaseError Unit
  | [] => .ok ()
  | url :: rest => do
    requireHttps url
    requireAllHttps rest

def validateResponseTransport (response : DownloadResponse U) : Except ReleaseError Unit := do
  requireHttps response.requestedUrl
  requireHttps response.finalUrl
  requireAllHttps response.redirectHistory

def responseHistory (response : DownloadResponse U) : List U :=
  response.redirectHistory ++ [response.requestedUrl, response.finalUrl]

/-- The tag of a release manifest URL: the segments end in
`releases/download/<tag>/<metadata filename>`. -/
def manifestTag (metadataFilename : String) : List String → Option String
  | ["releases", "download", tag, name] => if name = metadataFilename then some tag else none
  | _ :: rest => manifestTag metadataFilename rest
  | [] => none

variable (V) in
def versionedManifestUrl (app : App) (url : U) : Except ReleaseError (Option V) := do
  let segments ← orError (UrlCrate.pathSegments url)
    (.download "release URL has no path segments")
  match manifestTag app.metadataFilename segments with
  | none => return none
  | some tag =>
    let raw ← orError (stripPrefix tag "v")
      (.download "versioned release URL is missing v prefix")
    let version : V ← (SemVer.parse raw).mapError fun error =>
      .download s!"invalid release URL version: {error}"
    check (SemVer.toText version = raw ∧ UrlCrate.hasQuery url = false ∧
        UrlCrate.hasFragment url = false)
      (.download "release manifest redirect URL is not canonical")
    return some version

/-- The tag after the first `releases/download`. -/
def releaseTag : List String → Option String
  | "releases" :: "download" :: tag :: _ => some tag
  | _ :: rest => releaseTag rest
  | [] => none

variable (V) in
def versionedReleaseVersion (url : U) : Except ReleaseError (Option V) := do
  match UrlCrate.pathSegments url with
  | none => return none
  | some segments =>
    match releaseTag segments with
    | none => return none
    | some tag =>
      let raw ← orError (stripPrefix tag "v")
        (.download "versioned release redirect is missing v prefix")
      let version : V ← (SemVer.parse raw).mapError fun error =>
        .download s!"invalid release redirect version: {error}"
      check (SemVer.toText version = raw)
        (.download "release redirect version is not canonical")
      return some version

def rejectCrossRelease (app : App) (expected : V) : List U → Except ReleaseError Unit
  | [] => .ok ()
  | url :: rest => do
    let want := SemVer.toText expected
    match ← versionedManifestUrl V app url with
    | some version =>
      let got := SemVer.toText version
      check (version = expected)
        (.download s!"redirect history points at release {got}, expected {want}")
    | none =>
      match ← versionedReleaseVersion V url with
      | some version =>
        let got := SemVer.toText version
        check (version = expected)
          (.download s!"redirect history points at release {got}, expected {want}")
      | none => .ok ()
    rejectCrossRelease app expected rest

def rejectCrossReleaseRedirects (app : App) (response : DownloadResponse U) (expected : V) :
    Except ReleaseError Unit :=
  rejectCrossRelease app expected (responseHistory response)

variable (V) in
def versionedManifestCandidates (app : App) : List U → Except ReleaseError (List (V × U))
  | [] => .ok []
  | url :: rest => do
    let here ← versionedManifestUrl V app url
    let others ← versionedManifestCandidates app rest
    match here with
    | some version => return (version, url) :: others
    | none => return others

def repositoryBase (repository : U) : Except ReleaseError U := do
  requireHttps repository
  check (UrlCrate.hasQuery repository = false ∧ UrlCrate.hasFragment repository = false)
    (.download "repository URL must not contain a query or fragment")
  let path := UrlCrate.path repository
  if path.toList.getLast? = some '/' then return repository
  else return UrlCrate.setPath repository (path ++ "/")

variable (V) in
def releaseBaseFromManifestUrl (app : App) (url : U) : Except ReleaseError U := do
  let version ← orError (← versionedManifestUrl V app url)
    (.download "URL is not a version-specific release manifest")
  let text := SemVer.toText version
  let suffix := "/releases/download/v" ++ text ++ "/" ++ app.metadataFilename
  let start ← orError (stripSuffix (UrlCrate.path url) suffix)
    (.download "cannot derive exact release base URL")
  return UrlCrate.setPath (UrlCrate.withoutQuery url)
    (start ++ "/releases/download/v" ++ text ++ "/")

def latestMetadataUrl (app : App) (repository : U) : Except ReleaseError U := do
  let base ← repositoryBase repository
  (UrlCrate.join base ("releases/latest/download/" ++ app.metadataFilename)).mapError
    fun error => .download s!"invalid latest metadata URL: {error}"

def exactMetadataUrl (app : App) (repository : U) (version : V) : Except ReleaseError U := do
  let base ← repositoryBase repository
  let text := SemVer.toText version
  (UrlCrate.join base ("releases/download/v" ++ text ++ "/" ++ app.metadataFilename)).mapError
    fun error => .download s!"invalid release metadata URL: {error}"

variable (V) in
/-- Explicit keys when given, and the consumer's trust anchor otherwise. -/
def verifyTrusted (app : App) (trustedKeys : Option (List TrustedKey))
    (manifestBytes signatureBytes : Bytes) : Except ReleaseError VerifiedSignature :=
  match trustedKeys with
  | some keys => verifyManifestWithKeys V manifestBytes signatureBytes keys
  | none => verifyManifest V app manifestBytes signatureBytes

/-- The signature is the second fetch of a resolution. -/
def fetchVerifiedMetadata (app : App) (downloader : Downloader U) (now : Int)
    (manifestBytes : Bytes) (releaseBase : U) (version : V)
    (trustedKeys : Option (List TrustedKey)) : Except ReleaseError (ReleaseMetadata V U) := do
  check (manifestBytes.length ≤ maxMetadataSize)
    (.download "release manifest exceeds metadata limit")
  let signatureUrl ← (UrlCrate.join releaseBase app.signatureFilename).mapError
    fun error => .download s!"invalid signature URL: {error}"
  let response ← downloader 1 signatureUrl maxMetadataSize
  validateResponseTransport response
  rejectCrossReleaseRedirects app response version
  let verifiedSignature ← verifyTrusted V app trustedKeys manifestBytes response.bytes
  let signature ← SignatureEnvelope.fromBytes V response.bytes
  let manifest ← ReleaseManifest.fromBytes app manifestBytes
  manifest.ensureNotExpired (Crates.readTime V) now
  let got := SemVer.toText manifest.version
  let want := SemVer.toText version
  check (manifest.version = version)
    (.download s!"release manifest version {got} differs from resolved version {want}")
  return ⟨version, manifestBytes, manifest, response.bytes, signature, verifiedSignature,
    releaseBase⟩

def resolveLatestResponse (app : App) (downloader : Downloader U) (now : Int)
    (response : DownloadResponse U) (trustedKeys : Option (List TrustedKey)) :
    Except ReleaseError (ReleaseMetadata V U) := do
  validateResponseTransport response
  let candidates ← versionedManifestCandidates V app (responseHistory response)
  let versions := (candidates.map fun candidate => SemVer.toText candidate.1).eraseDups
  check (versions.length = 1)
    (.download "latest metadata redirect history names multiple release versions")
  let (version, releaseUrl) ← orError candidates.head?
    (.download "latest metadata did not resolve to a versioned release URL")
  let releaseBase ← releaseBaseFromManifestUrl V app releaseUrl
  fetchVerifiedMetadata app downloader now response.bytes releaseBase version trustedKeys

def fetchLatestMetadata (app : App) (downloader : Downloader U) (now : Int) (repository : U)
    (trustedKeys : Option (List TrustedKey)) : Except ReleaseError (ReleaseMetadata V U) := do
  let response ← downloader 0 (← latestMetadataUrl app repository) maxMetadataSize
  resolveLatestResponse app downloader now response trustedKeys

def fetchExactMetadata (app : App) (downloader : Downloader U) (now : Int) (repository : U)
    (version : V) (trustedKeys : Option (List TrustedKey)) :
    Except ReleaseError (ReleaseMetadata V U) := do
  let response ← downloader 0 (← exactMetadataUrl app repository version) maxMetadataSize
  validateResponseTransport response
  rejectCrossReleaseRedirects app response version
  let base ← repositoryBase repository
  let text := SemVer.toText version
  let releaseBase ← (UrlCrate.join base ("releases/download/v" ++ text ++ "/")).mapError
    fun error => .download s!"invalid release base URL: {error}"
  fetchVerifiedMetadata app downloader now response.bytes releaseBase version trustedKeys

/-- Download and verify the archive selected for a target, the third fetch. -/
def downloadArchive (app : App) (downloader : Downloader U) (metadata : ReleaseMetadata V U)
    (target : Target) : Except ReleaseError DownloadedArchive := do
  let selected ← metadata.manifest.assetFor (Crates.readTime V) app target
  let url ← (UrlCrate.join metadata.releaseBase selected.asset.archive).mapError
    fun error => .download s!"invalid archive URL: {error}"
  let response ← downloader 2 url maxArchiveSize
  validateResponseTransport response
  rejectCrossReleaseRedirects app response metadata.version
  verifyArchiveBytes V app response.bytes selected.asset
  return ⟨target, selected.asset.archive, response.bytes⟩

end

end Relswap
