import Relswap.Install.Launcher
import Relswap.Install.UnixSelector
import Relswap.Proof.Selector
import Relswap.Sample.World

/-!
# The Unix selector decodes what it encodes

A version text and a safe application name are single components, so a payload
path has the components of the root and three more. The decoder accepts exactly
the absolute texts with these components.

The disk of the installation manager has this selector as a path of components. Where
the two models show the same command they read the same version, and a switch of the one
is a switch of the other.
-/

namespace Relswap

open Durable Durable.Program

/-! ## Plain names -/

theorem PlainName.plain {name : String} (h : PlainName name) :
    UnixPath.Plain (encodeUtf8 name) where
  nonempty empty := h.1 (encodeUtf8_injective (b := "") empty)
  noDot same := h.2.1 (encodeUtf8_injective (b := ".") same)
  noDots same := h.2.2.1 (encodeUtf8_injective (b := "..") same)
  noSlash mem := h.2.2.2.1 (mem_of_byte (c := '/') (by decide) mem)

theorem plain_versions : UnixPath.Plain (encodeUtf8 "versions") :=
  PlainName.plain ⟨by decide, by decide, by decide, by decide, by decide, by decide⟩

/-! ## Switching -/

namespace FileHost

variable {H : FileHost} {path : EntryPath} {target : Bytes} {s : Folders}

/-- A call that failed stays failed. -/
theorem guards_settle {temporary : EntryPath} {result : Except IoError Unit}
    {Q : Unit → Folders → Prop} (ended : result = .ok () → Q () s) :
    Guards true (fun _ _ => True) Q (H.settle temporary result) s := by
  cases result with
  | ok done => exact Guards.pure (ended rfl)
  | error error => exact Guards.bind (Guards.ignore trivial) fun _ _ _ => Guards.throw error

/-- A rename that succeeds leaves the renamed entry at its destination. -/
theorem rename_destination {source destination : EntryPath} {t : Folders} {node : FsNode}
    (there : s.entries source = some node)
    (moved : s.rename source destination = .ok t) : t.entries destination = some node := by
  have result : t = s.move source destination node := by
    unfold Folders.rename at moved
    rw [there] at moved
    cases old : s.entries destination with
    | none =>
      rw [old] at moved
      cases node <;> exact (Except.ok.inj moved).symm
    | some entry =>
      rw [old] at moved
      cases node <;> cases entry <;> first | exact (Except.ok.inj moved).symm | cases moved
  rw [result, Folders.move, Folders.set_entries, Function.update_self]

/-- An operation that succeeds has its effect. -/
theorem guards_operate {effect : Folders → Except IoError Folders} {Q : Unit → Folders → Prop}
    (h : ∀ t, effect s = .ok t → Q () t) :
    Guards true (fun _ _ => True) Q (operate effect) s :=
  Guards.bind_mark (Guards.write fun t done => ⟨trivial, h t done⟩)

theorem guards_syncDir {Q : Unit → Folders → Prop} (h : Q () s) :
    Guards true (fun _ _ => True) Q H.syncDir s :=
  Guards.onlyIf (fun _ => Guards.mark h) fun _ => h

theorem guards_atomicSwitchSymlink :
    Guards true (fun _ _ => True) (fun _ t => t.entries path = some (.symlink target))
      (H.atomicSwitchSymlink path target) s := by
  apply Guards.bind_require
  intro absolute
  apply Guards.bind (Guards.ignore trivial)
  intro _ s₁ _
  apply Guards.bind (Guards.ignore trivial)
  intro found s₂ _
  have create : Guards true (fun _ _ => True) (fun _ t => t.entries path = some (.symlink target))
      (do
        let temporary ← H.temporaryPath path "symlink"
        operate (Folders.createSymlink temporary target)
        let result ← attempt do
          replaceExisting temporary path
          H.syncDir
        H.settle temporary result) s₂ := by
    apply Guards.bind (Guards.ignore trivial)
    intro temporary s₃ _
    apply Guards.bind (M := fun _ t => Folders.createSymlink temporary target s₃ = .ok t)
      (guards_operate fun t created => created)
    intro _ s₄ created
    have there : s₄.entries temporary = some (.symlink target) := by
      unfold Folders.createSymlink at created
      split at created
      · cases created
      · cases created
        rw [Folders.set_entries, Function.update_self]
    have renamed : Guards true (fun _ _ => True) (fun _ t => t.entries path = some (.symlink target))
        (do
          replaceExisting temporary path
          H.syncDir) s₄ := by
      apply Guards.bind (M := fun _ t => t.entries path = some (.symlink target))
        (guards_operate fun t moved => rename_destination there moved)
      intro _ s₅ here
      exact guards_syncDir here
    apply Guards.bind (Guards.attempt renamed)
    intro result s₅ here
    apply guards_settle
    intro succeeded
    rw [succeeded] at here
    exact here
  match found with
  | none => exact create
  | some (.symlink old) => exact create
  | some (.file _ _) => exact Guards.throw _
  | some (.directory _) => exact Guards.throw _

end FileHost

/-! ## Reading back -/

namespace UnixSelector

variable {V : Type} [SemVer V] {I : UnixSelector}

/-- The components of a payload path. -/
theorem components_payloadPath (safe : isSafeBasename I.app.name false = true) (v : V) :
    UnixPath.components (I.payloadPath v) = UnixPath.components I.root ++
      [.normal (encodeUtf8 "versions"), .normal (encodeUtf8 (SemVer.toText v)),
        .normal (encodeUtf8 I.app.name)] := by
  have name : UnixPath.Plain I.payloadName := (plainName_of_safe safe).plain
  rw [payloadPath, UnixPath.components_join _ name, versionDir,
    UnixPath.components_join _ (plainName_toText v).plain, versionsDir,
    UnixPath.components_join _ plain_versions]
  simp [payloadName, App.payloadName]

/-- A pointer is parsed to a version when its components are those of the payload. -/
theorem parsePointerVersion_eq_ok {pointer : Bytes} {v : V} :
    I.parsePointerVersion pointer = .ok v ↔ UnixPath.components pointer =
      UnixPath.components I.versionsDir ++
        [.normal (encodeUtf8 (SemVer.toText v)), .normal I.payloadName] := by
  simp only [parsePointerVersion, bind_eq_ok, orError_eq_ok, UnixPath.stripPrefix_eq_some]
  constructor
  · intro parsed
    obtain ⟨relative, whole, parsed⟩ := parsed
    rw [whole]
    split at parsed
    · simp only [bind_eq_ok, check_eq_ok, orError_eq_ok, parseCanonicalVersion_eq_ok] at parsed
      obtain ⟨_, ⟨rfl, rfl⟩, text, decoded, rfl⟩ := parsed
      rw [encodeUtf8_of_decodeUtf8 decoded]
    · cases parsed
    · cases parsed
  · intro whole
    refine ⟨_, whole, ?_⟩
    simp [check_pass, orError, decodeUtf8_encodeUtf8]

theorem isAbsolute_payloadPath (absolute : UnixPath.isAbsolute I.root = true) (v : V) :
    UnixPath.isAbsolute (I.payloadPath v) = true :=
  UnixPath.isAbsolute_join (UnixPath.isAbsolute_join (UnixPath.isAbsolute_join absolute))

/-- What a symlink at the command path is read as. -/
theorem readPointerUnlocked_symlink {H : FileHost} {s : Folders} {target : Bytes} {v : V}
    (safe : isSafeBasename I.app.name false = true)
    (link : s.entries I.commandPath = some (.symlink target)) :
    I.readPointerUnlocked H s = .ok (some v) ↔ UnixPath.isAbsolute target = true ∧
      UnixPath.components target = UnixPath.components I.root ++
        [.normal (encodeUtf8 "versions"), .normal (encodeUtf8 (SemVer.toText v)),
          .normal (encodeUtf8 I.app.name)] := by
  rw [← components_payloadPath safe, readPointerUnlocked, link]
  simp only [bind_eq_ok, check_eq_ok, pure_eq_ok, Option.some.injEq]
  constructor
  · intro read
    obtain ⟨_, absolute, w, _, _, inside, rfl⟩ := read
    exact ⟨absolute, inside⟩
  · intro read
    obtain ⟨absolute, inside⟩ := read
    refine ⟨(), absolute, v, parsePointerVersion_eq_ok.mpr ?_, (), inside, rfl⟩
    rw [inside, components_payloadPath safe, versionsDir, UnixPath.components_join _ plain_versions,
      List.append_assoc]
    rfl

theorem payloadPath_injective (safe : isSafeBasename I.app.name false = true) :
    Function.Injective (I.payloadPath : V → Bytes) := by
  intro v w same
  have parts := congrArg UnixPath.components same
  rw [components_payloadPath safe, components_payloadPath safe] at parts
  have names := List.append_cancel_left parts
  simp only [List.cons.injEq, UnixPath.Part.normal.injEq, true_and, and_true] at names
  exact SemVer.toText_injective (encodeUtf8_injective names)

/-- A switch that succeeds has put the symlink there. -/
theorem guards_switchPointer {H : FileHost} {v : V} {s : Folders} :
    Guards true (fun _ _ => True)
      (fun _ t => t.entries I.commandPath = some (.symlink (I.payloadPath v)))
      (I.switchPointer H v) s :=
  Guards.bind (Guards.ignore trivial) fun _ _ _ => FileHost.guards_atomicSwitchSymlink

/-- A successful switch is read back as the version it was made for. A symlink is
read as a version exactly when its target is absolute and has the components of the
payload of that version, and different versions have different payload paths. -/
theorem unix_selector_decodes {V : Type} [SemVer V] (I : UnixSelector)
    (absolute : UnixPath.isAbsolute I.root = true)
    (safe : isSafeBasename I.app.name false = true) :
    (∀ (H : FileHost) (v : V) s t, (I.switchPointer H v).Reaches s (.pure ()) t →
      I.readPointerUnlocked H t = .ok (some v)) ∧
    (∀ (H : FileHost) (s : Folders) target, s.entries I.commandPath = some (.symlink target) →
      ∀ v : V, I.readPointerUnlocked H s = .ok (some v) ↔ UnixPath.isAbsolute target = true ∧
        UnixPath.components target = UnixPath.components I.root ++
          [.normal (encodeUtf8 "versions"), .normal (encodeUtf8 (SemVer.toText v)),
            .normal (encodeUtf8 I.app.name)]) ∧
    Function.Injective (I.payloadPath : V → Bytes) := by
  refine ⟨?_, ?_, payloadPath_injective safe⟩
  · intro H v s t run
    have link : t.entries I.commandPath = some (.symlink (I.payloadPath v)) :=
      (WP.reaches guards_switchPointer run).1
    apply (readPointerUnlocked_symlink safe link).mpr
    exact ⟨isAbsolute_payloadPath absolute v, components_payloadPath safe v⟩
  · intro H s target link v
    exact readPointerUnlocked_symlink safe link

/-! ## The selector of the disk -/

/-- A component and its bytes. -/
def SamePart : Component → UnixPath.Part → Prop
  | .rootDir, .rootDir | .curDir, .curDir | .parentDir, .parentDir => True
  | .normal name, .normal bytes => encodeUtf8 name = bytes
  | _, _ => False

/-- The bytes have these components. -/
def Spells (text : Bytes) (path : FsPath) : Prop :=
  List.Forall₂ SamePart path (UnixPath.components text)

theorem samePart_biUnique : Relator.BiUnique SamePart := by
  constructor
  · intro a b c first second
    cases a <;> cases b <;> cases c <;>
      first
      | rfl
      | exact (first : False).elim
      | exact (second : False).elim
      | exact congrArg _ (encodeUtf8_injective (Eq.trans first (Eq.symm second)))
  · intro a b c first second
    cases a <;> cases b <;> cases c <;>
      first
      | rfl
      | exact (first : False).elim
      | exact (second : False).elim
      | exact congrArg _ (Eq.trans (Eq.symm first) second)

theorem head_components_iff {text : Bytes} :
    (UnixPath.components text).head? = some .rootDir ↔ UnixPath.isAbsolute text = true := by
  have plain : UnixPath.Part.rootDir ∉ (text.splitOn UnixPath.slash).filterMap UnixPath.part := by
    intro mem
    obtain ⟨piece, _, same⟩ := List.mem_filterMap.mp mem
    unfold UnixPath.part at same
    split at same
    · cases same
    · split at same <;> cases same
  unfold UnixPath.components
  dsimp only
  split
  · simpa using ‹_›
  · rename_i relative
    refine iff_of_false (fun head => ?_) relative
    split at head
    · cases head
    · exact plain (List.mem_of_head? head)

theorem Spells.isAbsolute {text : Bytes} {path : FsPath} (h : Spells text path) :
    path.isAbsolute .unix = true ↔ UnixPath.isAbsolute text = true := by
  rw [← head_components_iff]
  unfold Spells at h
  generalize UnixPath.components text = parts at h
  cases h with
  | nil => simp [FsPath.isAbsolute]
  | @cons c part path parts same rest =>
    cases c <;> cases part <;>
      first
      | exact (same : False).elim
      | simp [FsPath.isAbsolute]

variable {S : UnixSelector} {M : Installation} {f g : Folders} {s : Disk V} {H : FileHost}

/-- The command of the disk is this entry. -/
inductive SameCommand : CommandEntry → Option FsNode → Prop where
  | absent : SameCommand .absent none
  | «symlink» {path : FsPath} {target : Bytes} (spells : Spells target path) :
    SameCommand (.symlink path) (some (.symlink target))
  | file (bytes : Bytes) (synced : Bool) : SameCommand (.file bytes) (some (.file bytes synced))
  | directory (id : Nat) : SameCommand .other (some (.directory id))

/-- The disk shows the installation and the entry at its command path. -/
structure Depicts (S : UnixSelector) (M : Installation) (f : Folders) (s : Disk V) : Prop where
  unix : M.platform = .unix
  app : S.app = M.app
  root : Spells S.root M.root
  command : SameCommand s.command (f.entries S.commandPath)

theorem Depicts.payloadPath (h : Depicts S M f s) (safe : isSafeBasename S.app.name false = true)
    (v : V) : Spells (S.payloadPath v) (M.payloadPath v) := by
  have name : M.hostPayloadName = S.app.name := by
    simp [Layout.hostPayloadName, Layout.windows, h.unix, App.payloadName, h.app]
  rw [Spells]
  rw [components_payloadPath safe, M.payloadPath_eq, Layout.versionsDir, FsPath.join, name,
    List.append_assoc]
  exact List.rel_append h.root (.cons rfl (.cons rfl (.cons rfl .nil)))

/-- Both models read the same selector. -/
theorem Depicts.readPointerUnlocked (h : Depicts S M f s)
    (safe : isSafeBasename S.app.name false = true) (pointer : Option V) :
    S.readPointerUnlocked H f = .ok pointer ↔ M.readPointerUnlocked s = .ok pointer := by
  have shown := h.command
  generalize entry : f.entries S.commandPath = node at shown
  generalize command : s.command = found at shown
  cases pointer with
  | none =>
    have selects : M.Selects s none ↔ s.command = .absent := by
      simp only [Installation.Selects, h.unix]
    rw [M.readPointerUnlocked_eq_none, selects, UnixSelector.readPointerUnlocked, entry, command]
    cases shown <;> simp [bind_eq_ok]
  | some v =>
    have selects : M.Selects s (some v) ∧ M.Readable v ↔
        s.command = .symlink (M.payloadPath v) ∧ (M.payloadPath v).isAbsolute .unix = true := by
      simp only [Installation.Selects, Installation.Readable, h.unix]
    rw [M.readPointerUnlocked_eq_some, selects, command]
    have target := h.payloadPath safe v
    cases shown with
    | @«symlink» path text spells =>
      rw [readPointerUnlocked_symlink safe entry, ← components_payloadPath safe,
        CommandEntry.symlink.injEq]
      constructor
      · rintro ⟨absolute, parts⟩
        have same : path = M.payloadPath v := by
          unfold Spells at target
          rw [← parts] at target
          exact samePart_biUnique.forall₂.left spells target
        exact ⟨same, same ▸ spells.isAbsolute.mpr absolute⟩
      · rintro ⟨rfl, absolute⟩
        exact ⟨spells.isAbsolute.mp absolute, samePart_biUnique.forall₂.right spells target⟩
    | absent => simp [UnixSelector.readPointerUnlocked, entry]
    | file => simp [UnixSelector.readPointerUnlocked, entry]
    | directory => simp [UnixSelector.readPointerUnlocked, entry]

/-- A switch of the entry is a switch of the disk. -/
theorem Depicts.switchPointer (h : Depicts S M f s)
    (safe : isSafeBasename S.app.name false = true) {v : V}
    (run : (S.switchPointer H v).Reaches f (.pure ()) g) : Depicts S M g (M.select v s) := by
  refine ⟨h.unix, h.app, h.root, ?_⟩
  have link : g.entries S.commandPath = some (.symlink (S.payloadPath v)) :=
    (WP.reaches guards_switchPointer run).1
  have made : (M.select v s).command = .symlink (M.payloadPath v) := by
    rw [Installation.select, h.unix]
  rw [link, made]
  exact .symlink (h.payloadPath safe v)

/-! ## One installation -/

section Sample

open Sample

def installed : UnixSelector where
  app := Sample.app unixTarget
  root := encodeUtf8 "/opt//./app"
  commandPath := ⟨0, encodeUtf8 "app"⟩
  entryAt path := ⟨1, path⟩

def process : FileHost where
  platform := .unix
  pid := 1
  chunks bytes := [bytes]
  chunks_flatten _ := List.flatten_singleton
  removes := true
  display _ := "/usr/local/bin/app"
  displayParent _ := "/usr/local/bin"

/-- The payloads of two releases are there, and the second is selected. -/
def twoReleases : Folders where
  entries path :=
    if path = installed.commandPath then some (.symlink (installed.payloadPath secondRelease))
    else if path = installed.entryAt (installed.payloadPath firstRelease) ∨
        path = installed.entryAt (installed.payloadPath secondRelease) then
      some (.file (encodeUtf8 "payload") true)
    else none
  parents _ := .real
  counter := 0

/-- A switch to the first release, and the selector it leaves. -/
theorem unix_selector_decodes_installed :
    installed.readPointerUnlocked process twoReleases = .ok (some secondRelease) ∧
    ∃ t, (installed.switchPointer process firstRelease).Reaches twoReleases (.pure ()) t ∧
      installed.readPointerUnlocked process t = .ok (some firstRelease) := by
  have absolute : UnixPath.isAbsolute installed.root = true := by decide +kernel
  have safe : isSafeBasename installed.app.name false = true := by decide +kernel
  obtain ⟨switched, decodes, _⟩ := unix_selector_decodes (V := Edition) installed absolute safe
  have run := exec_reaches (installed.switchPointer process firstRelease) twoReleases
  have succeeds : ((installed.switchPointer process firstRelease).exec twoReleases).1 = .ok () := by
    decide +kernel
  rw [succeeds] at run
  refine ⟨(decodes process twoReleases _ rfl secondRelease).mpr ?_, _, run, switched _ _ _ _ run⟩
  exact ⟨isAbsolute_payloadPath absolute _, components_payloadPath safe _⟩

end Sample

end UnixSelector

end Relswap
