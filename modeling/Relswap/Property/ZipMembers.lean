import Relswap.Proof.Zip
import Relswap.Property.AssetNames

/-!
# The ZIP member policy

The member loop accepts exactly the lists of entries that obey the policy, and
returns the data of the payload and of the launcher. The policy does not speak
about the order of the entries.
-/

namespace Relswap

open Durable

variable {V : Type} [SemVer V] [Crates V]
variable {app : App} {asset : ReleaseAsset} {launcher : LauncherInfo} {root : String} {v : V}
variable {target : Target} {entry : ZipEntry} {done listed : List ZipEntry} {seen next : ZipSeen}

/-- Two entries do not denote the same path. -/
def DistinctNames (root : String) (a b : ZipEntry) : Prop :=
  ∀ path, InsideRoot root a.nameRaw path → ¬ InsideRoot root b.nameRaw path

/-- Some entry is a file of the given path and data. -/
def FileIn (root : String) (entries : List ZipEntry) (path : String) (data : Bytes) : Prop :=
  ∃ entry ∈ entries, entry.isDir = false ∧ InsideRoot root entry.nameRaw path ∧
    Delivers entry data

/-- The declared sizes of the files. -/
def fileTotal (entries : List ZipEntry) : Nat :=
  (entries.map fun entry => if entry.isDir then 0 else entry.size).sum

variable (V) in
/-- What a list of entries must satisfy. -/
structure ZipPolicy (asset : ReleaseAsset) (launcher : LauncherInfo) (root : String)
    (entries : List ZipEntry) : Prop where
  named : ∀ entry ∈ entries, ∃ path, InsideRoot root entry.nameRaw path
  distinct : entries.Pairwise (DistinctNames root)
  plain : ∀ entry ∈ entries, PlainEntry entry
  directories : ∀ entry ∈ entries, entry.isDir = true → entry.size = 0
  files : ∀ entry ∈ entries, entry.isDir = false →
    entry.size ≤ maxMemberSize ∧ ∃ data, Delivers entry data
  total : fileTotal entries ≤ maxUncompressedSize
  rootListed : ∃ entry ∈ entries, entry.isDir = true ∧ InsideRoot root entry.nameRaw root
  payload : ∃ data, FileIn root entries asset.payload.path data ∧
    HasDigest V data asset.payload.size asset.payload.sha256
  launcher : ∃ data, FileIn root entries launcher.path data ∧
    HasDigest V data launcher.size launcher.sha256

/-- The data of the two expected files. -/
structure ZipResult (asset : ReleaseAsset) (launcher : LauncherInfo) (root : String)
    (entries : List ZipEntry) (release : ExtractedRelease) : Prop where
  payload : release.payload.path = asset.payload.path ∧
    FileIn root entries asset.payload.path release.payload.data
  launcher : ∃ member, release.launcher = some member ∧ member.path = launcher.path ∧
    FileIn root entries launcher.path member.data

/-! ## The policy and its prefixes -/

variable (V) in
/-- The part of the policy that every prefix of the list satisfies too. -/
structure Admissible (asset : ReleaseAsset) (launcher : LauncherInfo) (root : String)
    (entries : List ZipEntry) : Prop where
  named : ∀ entry ∈ entries, ∃ path, InsideRoot root entry.nameRaw path
  distinct : entries.Pairwise (DistinctNames root)
  plain : ∀ entry ∈ entries, PlainEntry entry
  directories : ∀ entry ∈ entries, entry.isDir = true → entry.size = 0
  files : ∀ entry ∈ entries, entry.isDir = false →
    entry.size ≤ maxMemberSize ∧ ¬ InsideRoot root entry.nameRaw root ∧ ∃ data,
      Delivers entry data ∧ ∀ path, InsideRoot root entry.nameRaw path →
        Expected V asset launcher path data
  total : fileTotal entries ≤ maxUncompressedSize

instance (root : String) : Std.Symm (DistinctNames root) where
  symm := by
    intro a b different path here there
    exact different path there here

/-- Two entries of one path are the same entry. -/
theorem entry_unique (distinct : listed.Pairwise (DistinctNames root)) {a b : ZipEntry}
    (first : a ∈ listed) (second : b ∈ listed) {path : String}
    (here : InsideRoot root a.nameRaw path) (there : InsideRoot root b.nameRaw path) : a = b := by
  by_contra different
  exact distinct.forall first second different path here there

theorem Delivers.unique {data other : Bytes} (h : Delivers entry data)
    (h' : Delivers entry other) : data = other :=
  Except.ok.inj (h.complete.symm.trans h'.complete)

theorem FileIn.unique (distinct : listed.Pairwise (DistinctNames root)) {path : String}
    {data other : Bytes} (h : FileIn root listed path data) (h' : FileIn root listed path other) :
    data = other := by
  obtain ⟨a, first, _, here, delivers⟩ := h
  obtain ⟨b, second, _, there, delivers'⟩ := h'
  obtain rfl := entry_unique distinct first second here there
  exact delivers.unique delivers'

theorem ZipPolicy.admissible (h : ZipPolicy V asset launcher root listed) :
    Admissible V asset launcher root listed := by
  refine ⟨h.named, h.distinct, h.plain, h.directories, fun entry member file => ?_, h.total⟩
  obtain ⟨bounded, data, delivers⟩ := h.files entry member file
  refine ⟨bounded, fun inside => ?_, data, delivers, fun path inside => ⟨?_, ?_⟩⟩
  · obtain ⟨directory, member', isDir, inside'⟩ := h.rootListed
    obtain rfl := entry_unique h.distinct member member' inside inside'
    rw [file] at isDir
    cases isDir
  · intro same
    obtain ⟨data', found, digest⟩ := h.payload
    subst same
    rw [FileIn.unique h.distinct ⟨entry, member, file, inside, delivers⟩ found]
    exact digest
  · intro same
    obtain ⟨data', found, digest⟩ := h.launcher
    subst same
    rw [FileIn.unique h.distinct ⟨entry, member, file, inside, delivers⟩ found]
    exact digest

theorem fileTotal_append (done : List ZipEntry) (entry : ZipEntry) :
    fileTotal (done ++ [entry]) = fileTotal done + if entry.isDir then 0 else entry.size := by
  simp [fileTotal]

/-- A prefix of admissible entries is admissible. -/
theorem Admissible.left (h : Admissible V asset launcher root (done ++ listed)) :
    Admissible V asset launcher root done := by
  have inside : ∀ entry ∈ done, entry ∈ done ++ listed :=
    fun entry member => List.mem_append_left _ member
  refine ⟨fun e m => h.named e (inside e m), (List.pairwise_append.mp h.distinct).1,
    fun e m => h.plain e (inside e m), fun e m => h.directories e (inside e m),
    fun e m => h.files e (inside e m), ?_⟩
  have total := h.total
  simp only [fileTotal, List.map_append, List.sum_append] at total ⊢
  omega

/-! ## The loop -/

variable (V) in
/-- What the loop knows after the entries `done`. -/
structure Scanned (asset : ReleaseAsset) (launcher : LauncherInfo) (root : String)
    (done : List ZipEntry) (seen : ZipSeen) : Prop where
  admissible : Admissible V asset launcher root done
  names : ∀ path, path ∈ seen.names ↔ ∃ entry ∈ done, InsideRoot root entry.nameRaw path
  total : seen.totalUncompressed = fileTotal done
  rootSeen : seen.rootSeen = true ↔
    ∃ entry ∈ done, entry.isDir = true ∧ InsideRoot root entry.nameRaw root
  payload : ∀ member, seen.payload = some member ↔
    member.path = asset.payload.path ∧ FileIn root done asset.payload.path member.data
  launcher : ∀ member, seen.launcher = some member ↔
    member.path = launcher.path ∧ FileIn root done launcher.path member.data

theorem scanned_start : Scanned V asset launcher root [] .start := by
  refine ⟨⟨by simp, .nil, by simp, by simp, by simp, Nat.zero_le _⟩, ?_, rfl, ?_, ?_, ?_⟩
  · simp [ZipSeen.start]
  · simp [ZipSeen.start]
  · simp [ZipSeen.start, FileIn]
  · simp [ZipSeen.start, FileIn]

/-- A file seen at an expected path is the one remembered for it. -/
theorem remembers {expected path : String} {data : Bytes} {before : Option VerifiedMember}
    (old : ∀ member, before = some member ↔
      member.path = expected ∧ FileIn root done expected member.data)
    (inside : InsideRoot root entry.nameRaw path)
    (fresh : ¬ ∃ entry ∈ done, InsideRoot root entry.nameRaw path)
    (delivers : entry.isDir = false → Delivers entry data) (member : VerifiedMember) :
    (if entry.isDir = false ∧ path = expected then some ⟨path, data⟩ else before) = some member ↔
      member.path = expected ∧ FileIn root (done ++ [entry]) expected member.data := by
  by_cases here : entry.isDir = false ∧ path = expected
  · obtain ⟨file, rfl⟩ := here
    rw [if_pos ⟨file, rfl⟩, Option.some.injEq]
    constructor
    · intro same
      rw [← same]
      exact ⟨rfl, entry, by simp, file, inside, delivers file⟩
    · intro h
      obtain ⟨name, e, member', file', inside', delivers'⟩ := h
      rw [List.mem_append, List.mem_singleton] at member'
      obtain before' | rfl := member'
      · exact absurd ⟨e, before', inside'⟩ fresh
      · obtain ⟨memberPath, memberData⟩ := member
        cases name
        rw [(delivers file).unique delivers']
  · rw [if_neg here, old]
    constructor
    · intro h
      obtain ⟨name, e, member', found⟩ := h
      exact ⟨name, e, List.mem_append_left _ member', found⟩
    · intro h
      obtain ⟨name, e, member', file', inside', delivers'⟩ := h
      rw [List.mem_append, List.mem_singleton] at member'
      obtain before' | rfl := member'
      · exact ⟨name, e, before', file', inside', delivers'⟩
      · exact absurd ⟨file', inside.unique inside'⟩ here

theorem mem_append_singleton {p : ZipEntry → Prop} :
    (∀ e ∈ done ++ [entry], p e) ↔ (∀ e ∈ done, p e) ∧ p entry := by
  simp only [List.mem_append, List.mem_singleton, or_imp, forall_and, forall_eq]

/-- The loop's step extends what is known by one entry. -/
theorem Scanned.record (h : Scanned V asset launcher root done seen) {path : String} {data : Bytes}
    (inside : InsideRoot root entry.nameRaw path) (unused : path ∉ seen.names)
    (plain : PlainEntry entry) (directory : entry.isDir = true → entry.size = 0)
    (file : entry.isDir = false → path ≠ root ∧ entry.size ≤ maxMemberSize ∧
      seen.totalUncompressed + entry.size ≤ maxUncompressedSize ∧ Delivers entry data ∧
      Expected V asset launcher path data) :
    Scanned V asset launcher root (done ++ [entry])
      (record asset launcher root entry path data seen) := by
  have fresh : ¬ ∃ e ∈ done, InsideRoot root e.nameRaw path := by
    rw [← h.names]
    exact unused
  have known := h.admissible
  constructor
  · constructor
    · exact mem_append_singleton.mpr ⟨known.named, path, inside⟩
    · refine List.pairwise_append.mpr ⟨known.distinct, List.pairwise_singleton _ _, ?_⟩
      intro e member other single path' here there
      rw [List.mem_singleton] at single
      subst single
      rw [inside.unique there] at fresh
      exact fresh ⟨e, member, here⟩
    · exact mem_append_singleton.mpr ⟨known.plain, plain⟩
    · exact mem_append_singleton.mpr ⟨known.directories, directory⟩
    · refine mem_append_singleton.mpr ⟨known.files, fun isFile => ?_⟩
      obtain ⟨other, bounded, _, delivers, expected⟩ := file isFile
      refine ⟨bounded, fun atRoot => other (inside.unique atRoot), data, delivers, ?_⟩
      intro path' inside'
      rw [← inside.unique inside']
      exact expected
    · rw [fileTotal_append]
      cases isDir : entry.isDir with
      | true => simpa using known.total
      | false =>
        obtain ⟨_, _, fits, _⟩ := file isDir
        rw [← h.total]
        simpa using fits
  · intro other
    change other ∈ path :: seen.names ↔ _
    rw [List.mem_cons, h.names]
    constructor
    · intro either
      obtain rfl | ⟨e, member, there⟩ := either
      · exact ⟨entry, by simp, inside⟩
      · exact ⟨e, List.mem_append_left _ member, there⟩
    · intro found
      obtain ⟨e, member, there⟩ := found
      rw [List.mem_append, List.mem_singleton] at member
      obtain before | rfl := member
      · exact .inr ⟨e, before, there⟩
      · exact .inl (there.unique inside)
  · rw [fileTotal_append, ← h.total]
    rfl
  · change (seen.rootSeen || (entry.isDir && path == root)) = true ↔ _
    rw [Bool.or_eq_true, h.rootSeen, Bool.and_eq_true, beq_iff_eq]
    constructor
    · intro either
      obtain ⟨e, member, found⟩ | ⟨isDir, rfl⟩ := either
      · exact ⟨e, List.mem_append_left _ member, found⟩
      · exact ⟨entry, by simp, isDir, inside⟩
    · intro found
      obtain ⟨e, member, isDir, there⟩ := found
      rw [List.mem_append, List.mem_singleton] at member
      obtain before | rfl := member
      · exact .inl ⟨e, before, isDir, there⟩
      · exact .inr ⟨isDir, inside.unique there⟩
  · exact remembers h.payload inside fresh fun isFile => (file isFile).2.2.2.1
  · exact remembers h.launcher inside fresh fun isFile => (file isFile).2.2.2.1

section Run

variable (isListed : asset.launcher = some launcher)
  (different : launcher.path ≠ asset.payload.path)

include isListed different

/-- Whatever entries the loop gets through, they are presented and admissible. -/
theorem scanned_of_run {entries : List (Except String ZipEntry)} {index : Nat}
    (h : Scanned V asset launcher root done seen)
    (run : inspectZipEntries V asset root (some launcher.path) index entries seen = .ok next) :
    ∃ listed, entries = listed.map .ok ∧ Scanned V asset launcher root (done ++ listed) next := by
  induction entries generalizing done seen index with
  | nil =>
    cases run
    exact ⟨[], rfl, by rw [List.append_nil]; exact h⟩
  | cons first rest ih =>
    simp only [inspectZipEntries, bind_eq_ok, mapError_eq_ok] at run
    obtain ⟨entry, rfl, middle, step, run⟩ := run
    obtain ⟨path, data, inside, unused, plain, directory, file, rfl⟩ :=
      (inspectZipEntry_eq_ok isListed different).mp step
    have further := h.record inside unused plain (fun isDir => (directory isDir).1) file
    obtain ⟨listed, rfl, scanned⟩ := ih further run
    exact ⟨entry :: listed, rfl, by rw [List.append_assoc] at scanned; exact scanned⟩

/-- The loop gets through every admissible list. -/
theorem run_of_admissible {index : Nat} (h : Scanned V asset launcher root done seen)
    (admissible : Admissible V asset launcher root (done ++ listed)) :
    ∃ next, inspectZipEntries V asset root (some launcher.path) index (listed.map .ok) seen =
      .ok next := by
  induction listed generalizing done seen index with
  | nil => exact ⟨seen, rfl⟩
  | cons entry rest ih =>
    rw [List.append_cons] at admissible
    have here := admissible.left
    have member : entry ∈ done ++ [entry] := by simp
    obtain ⟨path, inside⟩ := here.named entry member
    have unused : path ∉ seen.names := by
      rw [h.names]
      intro found
      obtain ⟨e, before, there⟩ := found
      exact (List.pairwise_append.mp here.distinct).2.2 e before entry (by simp) path there inside
    have step : ∃ data, (entry.isDir = true → entry.size = 0 ∧ data = []) ∧
        (entry.isDir = false → path ≠ root ∧ entry.size ≤ maxMemberSize ∧
          seen.totalUncompressed + entry.size ≤ maxUncompressedSize ∧ Delivers entry data ∧
          Expected V asset launcher path data) := by
      cases isDir : entry.isDir with
      | true => exact ⟨[], by simp [here.directories entry member isDir], by simp⟩
      | false =>
        obtain ⟨bounded, notRoot, data, delivers, expected⟩ := here.files entry member isDir
        have total := here.total
        rw [fileTotal_append, ← h.total, isDir] at total
        refine ⟨data, by simp, fun _ => ⟨?_, bounded, by simpa using total, delivers,
          expected path inside⟩⟩
        intro same
        exact notRoot (same ▸ inside)
    obtain ⟨data, directory, file⟩ := step
    have plain := here.plain entry member
    have further := h.record inside unused plain (fun isDir => (directory isDir).1) file
    obtain ⟨next, run⟩ : ∃ next, inspectZipEntries V asset root (some launcher.path) (index + 1)
        (rest.map .ok) (record asset launcher root entry path data seen) = .ok next :=
      ih further admissible
    refine ⟨next, ?_⟩
    simp only [List.map_cons, inspectZipEntries, bind_eq_ok, mapError_eq_ok]
    exact ⟨entry, rfl, _, (inspectZipEntry_eq_ok isListed different).mpr
      ⟨path, data, inside, unused, plain, directory, file, rfl⟩, run⟩

end Run

/-! ## The policy as a whole -/

/-- What a complete scan with a root directory, a payload and a launcher establishes. -/
theorem Scanned.policy (h : Scanned V asset launcher root listed seen)
    (rootSeen : seen.rootSeen = true) {payload member : VerifiedMember} (first : seen.payload = some payload)
    (second : seen.launcher = some member) :
    ZipPolicy V asset launcher root listed ∧
      ZipResult asset launcher root listed ⟨payload, some member⟩ := by
  have known := h.admissible
  have expected : ∀ path data, FileIn root listed path data → Expected V asset launcher path data := by
    intro path data found
    obtain ⟨entry, inside, isFile, named, delivers⟩ := found
    obtain ⟨_, _, data', delivers', expected⟩ := known.files entry inside isFile
    rw [delivers.unique delivers']
    exact expected path named
  obtain ⟨payloadPath, payloadFile⟩ := (h.payload payload).mp first
  obtain ⟨launcherPath, launcherFile⟩ := (h.launcher member).mp second
  refine ⟨⟨known.named, known.distinct, known.plain, known.directories, fun entry inside isFile => ?_,
    known.total, h.rootSeen.mp rootSeen, ?_, ?_⟩, ?_⟩
  · obtain ⟨bounded, _, data, delivers, _⟩ := known.files entry inside isFile
    exact ⟨bounded, data, delivers⟩
  · exact ⟨_, payloadFile, (expected _ _ payloadFile).payload rfl⟩
  · exact ⟨_, launcherFile, (expected _ _ launcherFile).launcher rfl⟩
  · exact ⟨⟨payloadPath, payloadFile⟩, member, rfl, launcherPath, launcherFile⟩

/-- A policy determines what the scan has found at its end. -/
theorem Scanned.found (h : Scanned V asset launcher root listed seen)
    (policy : ZipPolicy V asset launcher root listed) {release : ExtractedRelease}
    (result : ZipResult asset launcher root listed release) :
    seen.rootSeen = true ∧ seen.payload = some release.payload ∧
      ∃ member, release.launcher = some member ∧ seen.launcher = some member := by
  obtain ⟨member, named, found⟩ := result.launcher
  exact ⟨h.rootSeen.mpr policy.rootListed, (h.payload _).mpr result.payload, member, named,
    (h.launcher member).mpr found⟩

theorem ZipPolicy.result (h : ZipPolicy V asset launcher root listed) :
    ∃ release, ZipResult asset launcher root listed release := by
  obtain ⟨payload, found, _⟩ := h.payload
  obtain ⟨member, found', _⟩ := h.launcher
  exact ⟨⟨⟨asset.payload.path, payload⟩, some ⟨launcher.path, member⟩⟩, ⟨rfl, found⟩,
    ⟨launcher.path, member⟩, rfl, rfl, found'⟩

theorem CanonicalAsset.inspectZipMembers_eq_ok (h : CanonicalAsset app v target asset)
    (canonical : CanonicalLauncher app v target asset launcher)
    {entries : List (Except String ZipEntry)} {release : ExtractedRelease} :
    inspectZipMembers V app asset entries = .ok release ↔
      ∃ seen, inspectZipEntries V asset (target.rootName app v) (some launcher.path) 0 entries
          .start = .ok seen ∧ seen.rootSeen = true ∧ seen.payload = some release.payload ∧
        ∃ member, release.launcher = some member ∧ seen.launcher = some member := by
  have named : targetFromAsset V app asset = .ok target := targetFromAsset_eq_ok.mpr ⟨v, h.archive⟩
  simp only [inspectZipMembers, named, h.canonicalVersion, canonical.path, finishMembers,
    canonical.windows, bind_eq_ok, mapError_eq_ok, orError_eq_ok, check_eq_ok, pure_eq_ok,
    Except.ok.injEq, exists_eq_left', true_and, Bool.true_eq_false, false_and, not_false_eq_true]
  constructor
  · intro run
    obtain ⟨seen, scanned, _, rootSeen, payload, first, _, some, _, rfl⟩ := run
    obtain ⟨member, second⟩ := Option.ne_none_iff_exists'.mp some
    exact ⟨seen, scanned, rootSeen, first, member, second, second⟩
  · intro run
    obtain ⟨seen, scanned, rootSeen, first, member, second, third⟩ := run
    refine ⟨seen, scanned, (), rootSeen, release.payload, first, (), by simp [third], (), ?_⟩
    rw [third, ← second]

/-- Acceptance and the result of the member loop, by the policy. -/
theorem CanonicalAsset.inspectZipMembers_iff (h : CanonicalAsset app v target asset)
    (canonical : CanonicalLauncher app v target asset launcher)
    (entries : List (Except String ZipEntry)) (release : ExtractedRelease) :
    inspectZipMembers V app asset entries = .ok release ↔
      ∃ listed, entries = listed.map .ok ∧
        ZipPolicy V asset launcher (target.rootName app v) listed ∧
        ZipResult asset launcher (target.rootName app v) listed release := by
  rw [h.inspectZipMembers_eq_ok canonical]
  constructor
  · intro accepted
    obtain ⟨seen, run, rootSeen, first, member, second, third⟩ := accepted
    obtain ⟨listed, rfl, scanned⟩ :=
      scanned_of_run canonical.listed canonical.distinct scanned_start run
    rw [List.nil_append] at scanned
    have both := scanned.policy rootSeen first third
    rw [← second] at both
    exact ⟨listed, rfl, both⟩
  · intro accepted
    obtain ⟨listed, rfl, policy, result⟩ := accepted
    obtain ⟨seen, run⟩ : ∃ seen, inspectZipEntries V asset (target.rootName app v)
        (some launcher.path) 0 (listed.map .ok) .start = .ok seen :=
      run_of_admissible canonical.listed canonical.distinct scanned_start policy.admissible
    obtain ⟨listed', same, scanned⟩ :=
      scanned_of_run canonical.listed canonical.distinct scanned_start run
    have injective : Function.Injective (Except.ok : ZipEntry → Except String ZipEntry) :=
      fun _ _ => Except.ok.inj
    obtain rfl := List.map_injective_iff.mpr injective same
    exact ⟨seen, run, scanned.found policy result⟩

/-! ## Order and panics -/

theorem fileTotal_perm {other : List ZipEntry} (perm : listed.Perm other) :
    fileTotal listed = fileTotal other := (perm.map _).sum_eq

theorem FileIn.perm {other : List ZipEntry} (perm : listed.Perm other) {path : String}
    {data : Bytes} (h : FileIn root listed path data) : FileIn root other path data := by
  obtain ⟨entry, member, found⟩ := h
  exact ⟨entry, perm.mem_iff.mp member, found⟩

theorem ZipPolicy.perm {other : List ZipEntry} (perm : listed.Perm other)
    (h : ZipPolicy V asset launcher root listed) : ZipPolicy V asset launcher root other := by
  have back : ∀ entry ∈ other, entry ∈ listed := fun entry member => perm.mem_iff.mpr member
  obtain ⟨directory, member, found⟩ := h.rootListed
  obtain ⟨payload, first, digest⟩ := h.payload
  obtain ⟨data, second, digest'⟩ := h.launcher
  exact ⟨fun e m => h.named e (back e m), h.distinct.perm perm fun same => Std.Symm.symm _ _ same,
    fun e m => h.plain e (back e m), fun e m => h.directories e (back e m),
    fun e m => h.files e (back e m), fileTotal_perm perm ▸ h.total,
    ⟨directory, perm.mem_iff.mp member, found⟩, ⟨payload, first.perm perm, digest⟩,
    ⟨data, second.perm perm, digest'⟩⟩

theorem ZipResult.perm {other : List ZipEntry} (perm : listed.Perm other)
    {release : ExtractedRelease} (h : ZipResult asset launcher root listed release) :
    ZipResult asset launcher root other release := by
  obtain ⟨member, some, path, found⟩ := h.launcher
  exact ⟨⟨h.payload.1, h.payload.2.perm perm⟩, member, some, path, found.perm perm⟩

/-- A permutation of presented entries consists of presented entries. -/
theorem presented_perm {entries : List (Except String ZipEntry)}
    (perm : (listed.map Except.ok).Perm entries) :
    ∃ other : List ZipEntry, entries = other.map .ok ∧ listed.Perm other := by
  have presented : ∀ entries : List (Except String ZipEntry),
      (∀ next ∈ entries, ∃ entry, next = .ok entry) →
        ∃ other : List ZipEntry, entries = other.map .ok := by
    intro entries all
    induction entries with
    | nil => exact ⟨[], rfl⟩
    | cons first rest ih =>
      obtain ⟨entry, rfl⟩ := all first List.mem_cons_self
      obtain ⟨other, rfl⟩ := ih fun next member => all next (List.mem_cons_of_mem _ member)
      exact ⟨entry :: other, rfl⟩
  obtain ⟨other, rfl⟩ := presented entries fun next member => by
    obtain ⟨entry, _, same⟩ := List.mem_map.mp (perm.mem_iff.mpr member)
    exact ⟨entry, same.symm⟩
  exact ⟨other, rfl, (List.map_perm_map_iff fun _ _ => Except.ok.inj).mp perm⟩

/-- A computation that ends without a panic. -/
def Calm {α : Type} (x : Except ZipFailure α) : Prop := x ≠ .error .panicked

theorem Calm.bind {α β : Type} {x : Except ZipFailure α} {f : α → Except ZipFailure β}
    (first : Calm x) (next : ∀ a, x = .ok a → Calm (f a)) : Calm (x >>= f) := by
  cases x with
  | error e => exact fun same => first (by rw [← Except.error.inj same])
  | ok a => exact next a rfl

theorem calm_ok {α : Type} (a : α) : Calm (.ok a : Except ZipFailure α) := by simp [Calm]

theorem calm_check {condition : Prop} [Decidable condition] (message : String) :
    Calm (check condition (archiveError message)) := by
  rw [check, archiveError, Calm]
  split
  · simp
  · simp

theorem calm_mapError {ε α : Type} (x : Except ε α) (f : ε → ReleaseError) :
    Calm (x.mapError fun e => .error (f e)) := by
  cases x <;> simp [Calm, Except.mapError]

theorem calm_readMemberData (declared : Nat) (collect : Bool) (path : String) (actual : Nat)
    (data : Bytes) (stream : List (Except IoError Bytes)) :
    Calm (readMemberData declared collect path actual data stream) := by
  induction stream generalizing actual data with
  | nil => exact (calm_check _).bind fun _ _ => calm_ok _
  | cons next stream ih =>
    match next with
    | .error error => simp [Calm, readMemberData]
    | .ok [] => exact (calm_check _).bind fun _ _ => calm_ok _
    | .ok (byte :: piece) =>
      exact (calm_check _).bind fun _ _ => (calm_check _).bind fun _ _ => ih _ _

theorem calm_inspectZipEntries (isListed : asset.launcher = some launcher) (index : Nat)
    (entries : List (Except String ZipEntry)) (seen : ZipSeen) :
    Calm (inspectZipEntries V asset root (some launcher.path) index entries seen) := by
  induction entries generalizing index seen with
  | nil => exact calm_ok _
  | cons first rest ih =>
    refine (calm_mapError first _).bind fun entry _ => Calm.bind ?_ fun _ _ => ih _ _
    rw [inspectZipEntry]
    refine (calm_mapError _ _).bind fun path _ => (calm_check _).bind fun _ _ =>
      (calm_check _).bind fun _ _ => (calm_check _).bind fun _ _ => (calm_check _).bind fun _ _ =>
      Calm.bind ?_ fun _ _ => (calm_check _).bind fun _ _ => ?_
    · rw [checkMode]
      split
      · exact calm_ok _
      · exact (calm_check _).bind fun _ _ => calm_check _
    · split
      · exact (calm_check _).bind fun _ _ => calm_ok _
      · refine (calm_check _).bind fun _ _ => ?_
        rw [inspectZipFile]
        refine (calm_check _).bind fun _ _ => (calm_check _).bind fun _ _ => ?_
        rw [expectedFile_eq isListed]
        refine (calm_ok _).bind fun expected _ => (calm_readMemberData _ _ _ _ _ _).bind
          fun data _ => ?_
        split
        · exact calm_ok _
        · refine (calm_mapError _ _).bind fun _ _ => ?_
          split
          · exact calm_ok _
          · exact calm_ok _

/-- The ZIP member policy. For a validated Windows asset the loop accepts a list of entries
exactly when it obeys the policy, and then returns the data of its two expected files; it
never reaches the panic on missing launcher metadata; and neither acceptance nor the
result depends on the order of the entries. -/
theorem zip_member_policy (valid : asset.validate app v target = .ok ())
    (windows : target.isWindows = true) :
    ∃ launcher, asset.launcher = some launcher ∧
      (∀ entries release, inspectZipMembers V app asset entries = .ok release ↔
        ∃ listed, entries = listed.map .ok ∧
          ZipPolicy V asset launcher (target.rootName app v) listed ∧
          ZipResult asset launcher (target.rootName app v) listed release) ∧
      (∀ listed, ZipPolicy V asset launcher (target.rootName app v) listed →
        ∃! release, inspectZipMembers V app asset (listed.map .ok) = .ok release) ∧
      (∀ entries, inspectZipMembers V app asset entries ≠ .error .panicked) ∧
      ∀ entries others, List.Perm entries others → ∀ release,
        inspectZipMembers V app asset entries = .ok release ↔
          inspectZipMembers V app asset others = .ok release := by
  have canonical := validate_eq_ok.mp valid
  have named : targetFromAsset V app asset = .ok target :=
    targetFromAsset_eq_ok.mpr ⟨v, canonical.archive⟩
  obtain ⟨unix, _⟩ | ⟨launcher, launches⟩ := canonical.launcher
  · rw [windows] at unix
    cases unix
  have iff := canonical.inspectZipMembers_iff launches
  refine ⟨launcher, launches.listed, iff, ?_, ?_, ?_⟩
  · intro listed policy
    obtain ⟨release, result⟩ := policy.result
    have accepted := (iff _ _).mpr ⟨listed, rfl, policy, result⟩
    refine ⟨release, accepted, ?_⟩
    intro other accepted'
    exact Except.ok.inj (accepted'.symm.trans accepted)
  · intro entries
    change Calm _
    refine (calm_mapError _ _).bind fun found same => ?_
    obtain rfl : target = found := Except.ok.inj (named.symm.trans (mapError_eq_ok.mp same))
    refine (calm_mapError _ _).bind fun version same => ?_
    obtain rfl : v = version :=
      Except.ok.inj (canonical.canonicalVersion.symm.trans (mapError_eq_ok.mp same))
    dsimp only
    rw [launches.path]
    exact (calm_inspectZipEntries launches.listed 0 entries .start).bind fun _ _ =>
      (calm_check _).bind fun _ _ => calm_mapError _ _
  · have permute : ∀ entries others : List (Except String ZipEntry), entries.Perm others →
        ∀ release, inspectZipMembers V app asset entries = .ok release →
          inspectZipMembers V app asset others = .ok release := by
      intro entries others perm release accepted
      obtain ⟨listed, rfl, policy, result⟩ := (iff entries release).mp accepted
      obtain ⟨other, rfl, same⟩ := presented_perm perm
      exact (iff _ _).mpr ⟨other, rfl, policy.perm same, result.perm same⟩
    intro entries others perm release
    exact ⟨permute entries others perm release, permute others entries perm.symm release⟩

/-! ## A case -/

section Sample

open Sample

/-- The policy at a Windows asset of a release with a pre-release part. -/
theorem zip_member_policy_windows :
    ∃ launcher, (Sample.asset windowsTarget longRelease).launcher = some launcher ∧
      ∀ entries, inspectZipMembers Edition (Sample.app windowsTarget)
        (Sample.asset windowsTarget longRelease) entries ≠ .error .panicked := by
  have valid : (Sample.asset windowsTarget longRelease).validate (Sample.app windowsTarget) longRelease
      windowsTarget = .ok () := by
    obtain ⟨_, passes⟩ := ok_of_isSome (r := (Sample.asset windowsTarget longRelease).validate
      (Sample.app windowsTarget) longRelease windowsTarget) (by decide +kernel)
    exact passes
  obtain ⟨launcher, listed, _, _, calm, _⟩ := zip_member_policy valid (by decide)
  exact ⟨launcher, listed, calm⟩

end Sample

end Relswap
