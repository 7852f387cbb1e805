import Relswap.Proof.Interleaving
import Relswap.Sample.World

/-!
# One installation id

Whatever the managers of one root do, every `version.json` and `install.json`
they leave carry one id, also when they are read at different moments. Checking
that id in a verification therefore never refuses a version.
-/

namespace Relswap

open Durable Durable.Program Disk

namespace Installation

variable {V U : Type} [SemVer V] [Crates V] [UrlCrate U] (I : Installation)

/-- A document on the disk carries the id: some `version.json` under the versions
directory, or `install.json`. -/
inductive Carries (s : Disk V) : String → Prop where
  | version {name : String} {dir : VersionDir} {bytes : Bytes} {state : VersionState V}
      (entry : s.versionEntry name = some (.directory dir))
      (file : dir.members.lookup versionFile = some (.file bytes))
      (decoded : Crates.decodeVersionState bytes = .ok state) : Carries s state.installationId
  | install {i : InstallState V} (recorded : s.install = .value i) : Carries s i.installationId

variable {I} {s t : Disk V} {id : String}

/-- In a reachable state an id is always that of a retained version. -/
theorem Inv.carries (h : I.Inv s) (carried : Carries s id) :
    ∃ v state, I.Retained s v state ∧ state.installationId = id := by
  cases carried with
  | @version name dir bytes state entry file decoded =>
    obtain ⟨v, dir', named, same, isPrivate, complete | empty⟩ := h.entries name _ entry
    · obtain ⟨state', c, complete, version⟩ := complete
      cases same
      have recordFile := complete.record_at
      rw [file] at recordFile
      cases recordFile
      have sameState := complete.record
      rw [decoded] at sameState
      cases sameState
      exact ⟨v, state, ⟨dir, c, named ▸ entry, isPrivate, complete, version⟩, rfl⟩
    · cases same
      rw [empty.1] at file
      cases file
  | @install i recorded =>
    have described := h.described i recorded
    obtain ⟨v, state, _, retained⟩ := described.active
    exact ⟨v, state, retained, described.owner v state retained⟩

theorem Retained.later {v : V} {state : VersionState V} (h : I.Retained s v state)
    (later : Later s t) : I.Retained t v state := by
  obtain ⟨dir, c, entry, rest⟩ := h
  exact ⟨dir, c, later.entries _ _ entry, rest⟩

/-- The rely relation bounds a whole run. -/
theorem Reached.later {w w' : Managers V U} (h : I.Reached w)
    (run : World.Reachable I.starts w w') : I.Reached w' ∧ Later w.state w'.state := by
  induction run with
  | refl => exact ⟨h, Later.refl _⟩
  | tail _ last ih =>
    obtain ⟨label, next⟩ := last
    exact ⟨(ih.1.step next).1, ih.2.trans (ih.1.sound.step obliged next).2.1⟩

theorem carries_of_read {name : String} {path : FsPath} {dir : VersionDir}
    {state : VersionState V} (entry : s.versionEntry name = some (.directory dir))
    (read : I.readVersionState path dir = .ok (some state)) : Carries s state.installationId := by
  obtain ⟨bytes, file, _, decoded⟩ := I.readVersionState_eq_some.mp read
  exact .version entry file decoded

/-- Checking an id that the record carries refuses nothing. -/
theorem verifyVersionFiles_id {path : FsPath} {dir : VersionDir}
    (carried : ∀ state : VersionState V, I.readVersionState path dir = .ok (some state) →
      state.installationId = id) :
    I.verifyVersionFiles path dir (some id) = I.verifyVersionFiles (V := V) path dir none := by
  simp only [verifyVersionFiles]
  cases read : I.readVersionState (V := V) path dir with
  | error e => rfl
  | ok found =>
    cases found with
    | none => rfl
    | some state =>
      have same := carried state read
      simp only [ok_bind, orError, same, reduceCtorEq, false_or, true_or]

theorem verifyFinalVersion_id {v : V} (one : ∀ id', Carries s id' → id' = id) :
    (I.verifyFinalVersion v (some id)).exec s = (I.verifyFinalVersion v none).exec s := by
  have directory : ((I.ensureVersionDir v).exec s).1 = .ok () →
      ∀ dir, ((I.ensureVersionDir v).exec s).2.versionEntry (SemVer.toText v) =
          some (.directory dir) →
        s.versionEntry (SemVer.toText v) = some (.directory dir) ∨ dir.members = ∅ := by
    have step : WP false (fun _ _ => True)
        (fun r t => r = .ok () → ∀ dir, t.versionEntry (SemVer.toText v) = some (.directory dir) →
          s.versionEntry (SemVer.toText v) = some (.directory dir) ∨ dir.members = ∅)
        (I.ensureVersionDir v) s := by
      refine I.wp_ensureVersionDir ?_ (fun _ _ _ => ⟨trivial, fun _ _ entry => .inl entry⟩)
        fun _ => nofun
      intro t added
      refine ⟨trivial, fun _ dir entry => .inr ?_⟩
      rw [added.entry, if_pos rfl] at entry
      cases entry
      rfl
    exact step.exec
  simp only [verifyFinalVersion]
  rw [exec_bind, exec_bind]
  generalize (I.ensureVersionDir v).exec s = made at directory
  obtain ⟨r, t⟩ := made
  cases r with
  | error e => rfl
  | ok =>
    simp only [exec_reads, Prod.mk.injEq, and_true]
    simp only [finalVersionState]
    cases entry : t.versionEntry (SemVer.toText v) with
    | none => rfl
    | some found =>
      cases found with
      | foreign => rfl
      | directory dir =>
        dsimp only
        rw [verifyVersionFiles_id]
        intro state read
        rcases directory rfl dir entry with kept | empty
        · exact one _ (carries_of_read kept read)
        · obtain ⟨bytes, file, _⟩ := I.readVersionState_eq_some.mp read
          rw [empty] at file
          cases file

/-- One installation id. In every interleaving that starts with nothing installed,
the documents of any two moments carry one id, and a verification that checks it
behaves as one that does not. -/
theorem one_installation_id {w w' : Managers V U} (reached : I.Reached w)
    (later : World.Reachable I.starts w w') (carried : Carries w.state id) :
    (∀ id', Carries w'.state id' → id' = id) ∧
      ∀ v, (I.verifyFinalVersion v (some id)).exec w'.state =
        (I.verifyFinalVersion v none).exec w'.state := by
  obtain ⟨reached', moved⟩ := reached.later later
  have one : ∀ id', Carries w'.state id' → id' = id := by
    intro id' carried'
    obtain ⟨v, state, retained, rfl⟩ := reached.sound.inv.carries carried
    obtain ⟨v', state', retained', rfl⟩ := reached'.sound.inv.carries carried'
    exact reached'.sound.inv.common _ _ _ _ retained' (retained.later moved)
  exact ⟨one, fun v => verifyFinalVersion_id one⟩

open Sample in
theorem one_installation_id_updated :
    (unixHost.verifyFinalVersion (1 : Edition) (some sampleId)).exec unixDisk =
      (unixHost.verifyFinalVersion (1 : Edition) none).exec unixDisk :=
  (one_installation_id unixDisk_quiet .refl (.install rfl)).2 1

end Installation

end Relswap
