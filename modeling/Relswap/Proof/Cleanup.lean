import Relswap.Proof.Effect

/-!
# Layout and staging cleanup

The effects of preparing the private directories and of emptying the staging
directory. Cleanup leaves documents, selector and versions alone; the launcher
can only go when nothing is selected or recorded.
-/

namespace Relswap

open Durable Durable.Program Disk

section Layout

variable {V : Type}

theorem Place.ensurePrivate_eq_ok {place made : Place} {path : String} :
    (place.ensurePrivate path : Except (InstallError V) Place) = .ok made ↔
      made = .directory true ∧ (place = .absent ∨ place = .directory true) := by
  simp only [Place.ensurePrivate]
  rcases place with _ | ⟨_ | _⟩ | _ | _ <;> simp [eq_comm]

theorem Place.ensureReal_eq_ok {place made : Place} {path : String} :
    (place.ensureReal path : Except (InstallError V) Place) = .ok made ↔
      (place = .absent ∧ made = .directory true) ∨
        ∃ p, place = .directory p ∧ made = .directory p := by
  simp only [Place.ensureReal]
  rcases place with _ | p | _ | _ <;> simp [eq_comm]

theorem Folder.ensurePrivate_eq_ok {α : Type} {folder made : Folder α} {path : String} :
    (folder.ensurePrivate path : Except (InstallError V) (Folder α)) = .ok made ↔
      (folder = .absent ∧ made = .directory true ∅) ∨
        ∃ entries, folder = .directory true entries ∧ made = .directory true entries := by
  simp only [Folder.ensurePrivate]
  rcases folder with _ | ⟨_ | _, entries⟩ | _ <;> simp [eq_comm]

end Layout

namespace Installation

variable {V : Type} [SemVer V] [Crates V] (I : Installation)

/-- The private directories are in place. -/
structure Laid (s : Disk V) : Prop where
  root : s.root = .directory true
  versions : ∃ entries, s.versions = .directory true entries
  staging : ∃ entries, s.staging = .directory true entries
  bin : I.platform = .windows → s.commandParent = .directory true

section Guards

variable {I} {solo : Bool} {kind : Kind V} {s₀ s : Disk V}

theorem guards_ensureRoot :
    Guards solo (I.Effect kind s₀) (fun _ t => Scaffold s t ∧ t = { s with root := .directory true })
      I.ensureRoot s := by
  refine Guards.write fun t ht => ?_
  simp only [bind_eq_ok, pure_eq_ok, Place.ensurePrivate_eq_ok] at ht
  obtain ⟨_, ⟨rfl, before⟩, rfl⟩ := ht
  have step : Scaffold s { s with root := .directory true } :=
    ⟨before.elim (fun h => .inr ⟨h, rfl⟩) fun h => .inl h.symm, .inl rfl, .inl rfl, .inl rfl,
      .inl rfl, rfl, rfl, rfl, rfl⟩
  exact ⟨.scaffold step, step, rfl⟩

theorem guards_ensureVersionsDir :
    Guards solo (I.Effect kind s₀) (fun _ t => Scaffold s t ∧ t = { s with versions := t.versions } ∧
      ∃ entries, t.versions = .directory true entries) I.ensureVersionsDir s := by
  refine Guards.write fun t ht => ?_
  simp only [bind_eq_ok, pure_eq_ok, Folder.ensurePrivate_eq_ok] at ht
  obtain ⟨made, before, rfl⟩ := ht
  have step : Scaffold s { s with versions := made } := by
    refine ⟨.inl rfl, .inl rfl, ?_, .inl rfl, .inl rfl, rfl, rfl, rfl, rfl⟩
    rcases before with ⟨absent, rfl⟩ | ⟨entries, present, rfl⟩
    · exact .inr ⟨absent, rfl⟩
    · exact .inl present.symm
  refine ⟨.scaffold step, step, rfl, ?_⟩
  rcases before with ⟨_, rfl⟩ | ⟨entries, _, rfl⟩
  · exact ⟨_, rfl⟩
  · exact ⟨_, rfl⟩

theorem guards_ensureStagingDir :
    Guards solo (I.Effect kind s₀) (fun _ t => Scaffold s t ∧ t = { s with staging := t.staging } ∧
      ∃ entries, t.staging = .directory true entries) I.ensureStagingDir s := by
  refine Guards.write fun t ht => ?_
  simp only [bind_eq_ok, pure_eq_ok, Folder.ensurePrivate_eq_ok] at ht
  obtain ⟨made, before, rfl⟩ := ht
  have step : Scaffold s { s with staging := made } := by
    refine ⟨.inl rfl, .inl rfl, .inl rfl, ?_, .inl rfl, rfl, rfl, rfl, rfl⟩
    rcases before with ⟨absent, rfl⟩ | ⟨entries, present, rfl⟩
    · exact .inr ⟨absent, rfl⟩
    · exact .inl present.symm
  refine ⟨.scaffold step, step, rfl, ?_⟩
  rcases before with ⟨_, rfl⟩ | ⟨entries, _, rfl⟩
  · exact ⟨_, rfl⟩
  · exact ⟨_, rfl⟩

theorem guards_ensureBinDir :
    Guards solo (I.Effect kind s₀) (fun _ t => Scaffold s t ∧
      t = { s with commandParent := .directory true }) I.ensureBinDir s := by
  refine Guards.write fun t ht => ?_
  simp only [bind_eq_ok, pure_eq_ok, Place.ensurePrivate_eq_ok] at ht
  obtain ⟨_, ⟨rfl, before⟩, rfl⟩ := ht
  have step : Scaffold s { s with commandParent := .directory true } :=
    ⟨.inl rfl, .inl rfl, .inl rfl, .inl rfl,
      before.elim (fun h => .inr ⟨h, rfl⟩) fun h => .inl h.symm, rfl, rfl, rfl, rfl⟩
  exact ⟨.scaffold step, step, rfl⟩

theorem guards_ensurePrivateLayout :
    Guards solo (I.Effect kind s₀) (fun _ t => Scaffold s t ∧ I.Laid t) I.ensurePrivateLayout s := by
  rw [ensurePrivateLayout]
  refine guards_ensureRoot.bind fun _ a ⟨h1, ha⟩ => ?_
  refine guards_ensureVersionsDir.bind fun _ b ⟨h2, hb, versions⟩ => ?_
  refine guards_ensureStagingDir.bind fun _ c ⟨h3, hc, staging⟩ => ?_
  have root : c.root = .directory true := by rw [hc, hb, ha]
  have kept : ∃ entries, c.versions = .directory true entries := by rw [hc]; exact versions
  refine Guards.onlyIf (fun _ => ?_) fun unix => ?_
  · refine guards_ensureBinDir.mono_post fun _ d ⟨h4, hd⟩ => ?_
    refine ⟨h1.trans (h2.trans (h3.trans h4)), ?_⟩
    rw [hd]
    exact ⟨root, kept, staging, fun _ => rfl⟩
  · exact ⟨h1.trans (h2.trans h3), root, kept, staging, fun windows => absurd windows unix⟩

theorem guards_ensureCommandParent :
    Guards solo (I.Effect kind s₀) (fun _ t => Scaffold s t ∧
      t = { s with commandParent := t.commandParent }) I.ensureCommandParent s := by
  rw [ensureCommandParent]
  split
  · exact Guards.throw _
  · exact guards_ensureBinDir.mono_post fun _ t ⟨h, ht⟩ => ⟨h, by rw [ht]⟩
  · refine Guards.write fun t ht => ?_
    simp only [bind_eq_ok, pure_eq_ok, Place.ensureReal_eq_ok] at ht
    obtain ⟨made, before, rfl⟩ := ht
    have step : Scaffold s { s with commandParent := made } := by
      refine ⟨.inl rfl, .inl rfl, .inl rfl, .inl rfl, ?_, rfl, rfl, rfl, rfl⟩
      rcases before with ⟨absent, rfl⟩ | ⟨p, present, rfl⟩
      · exact .inr ⟨absent, rfl⟩
      · exact .inl present.symm
    exact ⟨.scaffold step, step, rfl⟩

end Guards

/-! ## Removing a transaction -/

omit [SemVer V] [Crates V] in
theorem transaction_staging {s : Disk V} {id : String} {transaction : Transaction}
    (h : s.transaction id = some transaction) :
    ∃ p entries, s.staging = .directory p entries ∧
      entries.lookup id = some (.transaction transaction) := by
  unfold Disk.transaction at h
  split at h
  · rename_i found
    cases h
    cases hs : s.staging with
    | absent => simp [hs] at found
    | foreign => simp [hs, Folder.entries] at found
    | directory p entries => exact ⟨p, entries, rfl, by simpa [hs] using found⟩
  · cases h

omit [SemVer V] [Crates V] in
theorem transaction_put {s : Disk V} {id : String} {old new : Transaction}
    (h : s.transaction id = some old) : (s.putTransaction id new).transaction id = some new := by
  obtain ⟨p, entries, present, _⟩ := transaction_staging h
  simp [Disk.transaction, Disk.putTransaction, present, Folder.insert]

omit [SemVer V] [Crates V] in
/-- What is found where a transaction was put is that transaction. -/
theorem eq_of_transaction_put {s : Disk V} {id : String} {new found : Transaction}
    (h : (s.putTransaction id new).transaction id = some found) : found = new := by
  obtain ⟨p, entries, present, lookup⟩ := transaction_staging h
  unfold Disk.putTransaction at present
  cases hs : s.staging with
  | absent => rw [hs] at present; cases present
  | foreign => rw [hs] at present; cases present
  | directory q old =>
    rw [hs] at present
    cases present
    rw [AList.lookup_insert] at lookup
    exact (StagingEntry.transaction.inj (Option.some.inj lookup)).symm

omit [SemVer V] [Crates V] in
@[simp] theorem put_put (s : Disk V) (id : String) (x y : Transaction) :
    (s.putTransaction id x).putTransaction id y = s.putTransaction id y := by
  simp [Disk.putTransaction]

theorem MarkerFree.put {I : Installation} {s : Disk V} (h : I.MarkerFree s) (id : String)
    (x : Transaction) : I.MarkerFree (s.putTransaction id x) := h

/-- The transaction has been rewritten, and only its own contents differ. -/
def Rewritten (s : Disk V) (id : String) (t : Disk V) : Prop :=
  ∃ x, t.transaction id = some x ∧ (t = s ∨ t = s.putTransaction id x)

omit [SemVer V] [Crates V] in
theorem Rewritten.erase {s t : Disk V} {id : String} (h : Rewritten s id t) :
    { t with staging := t.staging.erase id } = { s with staging := s.staging.erase id } := by
  obtain ⟨x, _, rfl | rfl⟩ := h
  · rfl
  · simp [Disk.putTransaction]

omit [SemVer V] [Crates V] in
theorem Rewritten.map {s t : Disk V} {id : String} {f : Transaction → Transaction}
    (h : Rewritten s id t) : Rewritten s id (t.mapTransaction id f) := by
  obtain ⟨x, found, same⟩ := h
  refine ⟨f x, ?_, .inr ?_⟩
  · rw [Disk.mapTransaction, found]
    exact transaction_put found
  · rw [Disk.mapTransaction, found]
    rcases same with rfl | same
    · rfl
    · rw [same]
      exact put_put s id x (f x)

section Guards

variable {I} {solo : Bool} {kind : Kind V} {s₀ s : Disk V}

theorem guards_mapTransaction {id : String} {t : Disk V} {f : Transaction → Transaction}
    (h : Rewritten s id t) (marker : ∀ old, t.transaction id = some old → I.MarkerFrom t id (f old)) :
    Guards (ε := InstallError V) solo (I.Effect kind s₀) (fun _ u => u = t.mapTransaction id f)
      (write fun s => .ok (s.mapTransaction id f)) t := by
  refine Guards.write fun u hu => ?_
  cases hu
  refine ⟨?_, rfl⟩
  obtain ⟨x, found, _⟩ := h
  rw [Disk.mapTransaction, found]
  exact .stage (.put id (f x) (marker x found))

/-- A transaction under removal, whose marker is not needed any more. -/
def Removing (I : Installation) (s : Disk V) (id : String) (t : Disk V) : Prop :=
  Rewritten s id t ∧ I.MarkerRemovable t id

theorem Removing.step {id : String} {t : Disk V} {f : Transaction → Transaction}
    (h : Removing I s id t)
    (marker : ∀ old, (f old).files.lookup launcherCreatedMarker = none ∨
      (f old).files.lookup launcherCreatedMarker = old.files.lookup launcherCreatedMarker) :
    Guards (ε := InstallError V) solo (I.Effect kind s₀) (fun _ u => Removing I s id u)
      (write fun s => .ok (s.mapTransaction id f)) t := by
  obtain ⟨rewritten, removable⟩ := h
  refine (guards_mapTransaction rewritten fun old present => ?_).mono_post fun _ u hu => ?_
  · exact (marker old).imp (fun gone => ⟨gone, removable⟩) fun same => .inl ⟨old, present, same⟩
  · subst hu
    refine ⟨rewritten.map, fun x found => ?_⟩
    obtain ⟨old, present, _⟩ := rewritten
    rw [Disk.mapTransaction, present] at found ⊢
    rw [transaction_put present] at found
    cases found
    rcases removable old present with none | free
    · exact .inl ((marker old).elim (fun gone => gone) fun same => same.trans none)
    · exact .inr (free.put id _)

theorem guards_removeTransaction {id : String} (removable : I.MarkerRemovable s id) :
    Guards solo (I.Effect kind s₀) (fun _ t => t = { s with staging := s.staging.erase id })
      (removeTransaction id) s := by
  apply Guards.bind_get
  cases found : s.transaction id with
  | none => exact Guards.throw _
  | some transaction =>
    have start : Removing I s id s := ⟨⟨transaction, found, .inl rfl⟩, removable⟩
    refine (Guards.forEach (Removing I s id) start fun name _ t ht => ?_).bind fun _ a ha => ?_
    · refine ht.step fun old => ?_
      by_cases same : launcherCreatedMarker = name
      · exact .inl (by rw [Transaction.eraseFile, same]; exact AList.lookup_erase _ _)
      · exact .inr (by rw [Transaction.eraseFile, AList.lookup_erase_ne same])
    refine (Guards.forEach (Removing I s id) ha fun name _ t ht => ?_).bind fun _ b hb => ?_
    · exact ht.step fun old => .inr rfl
    refine (hb.step (f := Transaction.dropStaged) fun old => .inr rfl).bind fun _ c hc => ?_
    refine Guards.write fun t ht => ?_
    cases ht
    exact ⟨.stage (.erase id hc.2), hc.1.erase⟩

end Guards

/-! ## Emptying the staging directory -/

/-- Orphan removal is enabled only while nothing is selected or recorded. -/
def OrphanMode (s : Disk V) : Prop :=
  I.platform = .windows ∧ s.active = .absent ∧ s.install = .absent

/-- Only staging differs, and at most an orphaned launcher is gone. -/
structure Swept (s t : Disk V) : Prop where
  shape : t = { s with staging := t.staging, command := t.command }
  command : t.command = s.command ∨ (I.OrphanMode s ∧ t.command = .absent)

namespace Swept

variable {I} {s t u : Disk V}

omit [SemVer V] [Crates V] in
theorem orphanMode (h : I.Swept s t) : I.OrphanMode t ↔ I.OrphanMode s := by
  simp only [OrphanMode]
  rw [h.shape]

omit [SemVer V] [Crates V] in
theorem trans (h : I.Swept s t) (h' : I.Swept t u) : I.Swept s u := by
  refine ⟨?_, ?_⟩
  · rw [h'.shape, h.shape]
  · rcases h'.command with same | ⟨mode, absent⟩
    · rw [same]
      exact h.command
    · exact .inr ⟨h.orphanMode.mp mode, absent⟩

omit [SemVer V] [Crates V] in
theorem core (h : I.Swept s t) : I.Core s t := by
  refine ⟨by rw [h.shape], by rw [h.shape], ?_, fun name => by rw [h.shape]; rfl⟩
  have active : t.active = s.active := by rw [h.shape]
  rcases h.command with same | ⟨⟨windows, _⟩, _⟩
  · rw [SameSelector]
    cases I.platform with
    | unix => exact same
    | windows => exact active
  · rw [SameSelector]
    rw [windows]
    exact active

omit [SemVer V] [Crates V] in
/-- Once something is selected, the command stays. -/
theorem frame (h : I.Swept s t) (selected : ¬ I.OrphanMode s) : I.Frame s t :=
  ⟨h.core, h.command.elim (fun same => same) fun ⟨mode, _⟩ => absurd mode selected⟩

end Swept

/-- What cleanup leaves: the staging directory is empty. -/
structure Cleaned (s t : Disk V) : Prop extends I.Swept s t where
  staging : (s.staging = .absent ∧ t.staging = .absent) ∨ t.staging = .directory true ∅

omit [Crates V] in
theorem orphanMode_selects {s : Disk V} (h : I.OrphanMode s) : I.Selects s none := by
  simp only [Selects]
  rw [h.1]
  exact h.2.1

omit [Crates V] in
theorem not_orphanMode {s : Disk V} {v : V} (h : I.Selects s (some v)) : ¬ I.OrphanMode s :=
  fun mode => nomatch Selects.unique I (I.orphanMode_selects mode) h

omit [SemVer V] [Crates V] in
theorem markerDigest_eq_ok {id : String} {marker : Member} {digest : String} :
    (I.markerDigest id marker : Except (InstallError V) String) = .ok digest ↔
      ∃ bytes, marker = .file bytes ∧ bytes.length ≤ 128 ∧ decodeUtf8 bytes = some digest ∧
        lowerSha256 digest = true := by
  simp only [markerDigest, bind_eq_ok, readRegularLimited_eq_ok, orError_eq_ok, check_eq_ok,
    pure_eq_ok, Option.some.injEq]
  constructor
  · rintro ⟨bytes, ⟨rfl, short⟩, raw, decoded, _, lower, rfl⟩
    exact ⟨bytes, rfl, short, decoded, lower⟩
  · rintro ⟨bytes, rfl, short, decoded, lower⟩
    exact ⟨bytes, ⟨rfl, short⟩, digest, decoded, (), lower, rfl⟩

omit [SemVer V] [Crates V] in
theorem commandFile_eq_ok {s : Disk V} {bytes : Bytes} :
    I.commandFile s = .ok bytes ↔ s.command = .file bytes := by
  rw [commandFile]
  cases s.command <;> simp

omit [SemVer V] [Crates V] in
theorem lexistsCommand_false {s : Disk V} (h : I.lexistsCommand s = .ok false) :
    s.command = .absent ∨ s.command = .unreachable := by
  unfold lexistsCommand at h
  cases hc : s.command <;> simp_all

section Guards

variable {I} {solo : Bool} {kind : Kind V} {s₀ s : Disk V}

theorem guards_removeOrphanLauncher {id : String} {marker : Member} {transaction : Transaction}
    (mode : I.OrphanMode s) (present : s.transaction id = some transaction)
    (marked : transaction.files.lookup launcherCreatedMarker = some marker) :
    Guards solo (I.Effect kind s₀)
      (fun _ t => (t = s ∨ t = { s with command := .absent }) ∧ I.MarkerFree t)
      (I.removeOrphanLauncher id marker) s := by
  rw [removeOrphanLauncher]
  refine Guards.bind_ofExcept fun expected hmarker => ?_
  obtain ⟨raw, rfl, _, decoded, _⟩ := I.markerDigest_eq_ok.mp hmarker
  refine Guards.bind_reads fun present_ hpresent => ?_
  split
  · refine Guards.bind_reads fun bytes hbytes => ?_
    have command := I.commandFile_eq_ok.mp hbytes
    refine Guards.bind_require fun digest => ?_
    refine Guards.bind_reads fun retained hretained => ?_
    split
    · rename_i yes
      refine Guards.pure ⟨.inl rfl, fun _ _ _ bytes' here => ?_⟩
      rw [command] at here
      cases here
      rw [digest, hretained, yes]
    · rename_i no
      refine Guards.write fun t ht => ?_
      cases ht
      refine ⟨.removeLauncher bytes ?_, .inr rfl, fun _ _ _ _ here => nomatch here⟩
      refine ⟨mode.1, command, mode.2.1, mode.2.2, ⟨id, transaction, raw, present, marked, ?_⟩, ?_⟩
      · rw [decoded, digest]
      · rw [digest, hretained, Bool.not_eq_true] at *
        rw [no]
  · rename_i gone
    rw [Bool.not_eq_true] at gone
    subst gone
    refine Guards.pure ⟨.inl rfl, fun _ _ _ bytes here => ?_⟩
    rcases I.lexistsCommand_false hpresent with absent | unreachable
    · rw [absent] at here; cases here
    · rw [unreachable] at here; cases here

theorem guards_cleanupMarker {removeOrphans : Bool} {id : String} {transaction : Transaction}
    (mode : removeOrphans = true ↔ I.OrphanMode s)
    (present : s.transaction id = some transaction) :
    Guards solo (I.Effect kind s₀)
      (fun _ t => (t = s ∨ (I.OrphanMode s ∧ t = { s with command := .absent })) ∧
        I.MarkerRemovable t id)
      (I.cleanupMarker removeOrphans id transaction) s := by
  simp only [cleanupMarker]
  split
  · rename_i marker marked
    apply (guards_removeOrphanLauncher (mode.mp rfl) present marked).mono_post
    rintro _ t ⟨moved, free⟩
    exact ⟨moved.imp (fun same => same) fun gone => ⟨mode.mp rfl, gone⟩, fun _ _ => .inr free⟩
  · rename_i removeOrphans' found other
    refine Guards.pure ⟨.inl rfl, fun x hx => ?_⟩
    rw [present] at hx
    cases hx
    cases hm : transaction.files.lookup launcherCreatedMarker with
    | none => exact .inl rfl
    | some marker =>
      right
      intro windows active install
      exact (other marker (mode.mpr ⟨windows, active, install⟩) hm).elim

/-- The loop of the cleanup, with the remaining entries as its variant. -/
theorem guards_cleanupEntries {removeOrphans : Bool}
    {rest : List (Sigma fun _ : String => StagingEntry)}
    (mode : removeOrphans = true ↔ I.OrphanMode s)
    (entries : ∃ es, s.staging = .directory true es ∧ es.entries = rest) :
    Guards solo (I.Effect kind s₀) (fun _ t => I.Swept s t ∧ t.staging = .directory true ∅)
      (I.cleanupEntries removeOrphans rest) s := by
  induction rest generalizing s with
  | nil =>
    obtain ⟨es, present, whole⟩ := entries
    refine Guards.pure ⟨⟨rfl, .inl rfl⟩, ?_⟩
    rw [present, show es = ∅ from AList.ext whole]
  | cons entry rest ih =>
    obtain ⟨es, present, whole⟩ := entries
    obtain ⟨id, entry⟩ := entry
    cases entry with
    | foreign => exact Guards.throw _
    | transaction transaction =>
      have lookup : es.lookup id = some (.transaction transaction) := by
        rw [AList.lookup, whole]
        simp
      have found : s.transaction id = some transaction := by
        simp [Disk.transaction, present, lookup]
      rw [cleanupEntries]
      refine (guards_cleanupMarker mode found).bind fun _ a found => ?_
      obtain ⟨ha, removable⟩ := found
      refine (guards_removeTransaction removable).bind fun _ b hb => ?_
      have swept : I.Swept s b := by
        rw [hb]
        rcases ha with rfl | ⟨orphan, rfl⟩
        · exact ⟨rfl, .inl rfl⟩
        · exact ⟨rfl, .inr ⟨orphan, rfl⟩⟩
      have next : ∃ es, b.staging = .directory true es ∧ es.entries = rest := by
        have same : a.staging = s.staging := by rcases ha with rfl | ⟨_, rfl⟩ <;> rfl
        refine ⟨es.erase id, ?_, ?_⟩
        · rw [hb, same, present]
          rfl
        · change List.kerase id es.entries = rest
          rw [whole]
          simp
      apply (ih (mode.trans swept.orphanMode.symm) next).mono_post
      exact fun _ t found => ⟨swept.trans found.1, found.2⟩

theorem guards_removesOrphans :
    Guards solo (I.Effect kind s₀)
      (fun removeOrphans t => t = s ∧ (removeOrphans = true ↔ I.OrphanMode s))
      I.removesOrphans s := by
  unfold removesOrphans
  split
  · rename_i windows
    refine Guards.bind_reads fun pointer hp => ?_
    split
    · rename_i v
      refine Guards.pure ⟨rfl, nofun, fun mode => ?_⟩
      exact absurd mode (I.not_orphanMode (I.selects_of_read hp))
    · have active := I.readPointerUnlocked_eq_none.mp hp
      unfold Selects at active
      rw [windows] at active
      refine Guards.bind_reads fun install hi => ?_
      have read := Document.readJson_eq_ok.mp hi
      refine Guards.pure ⟨rfl, ?_⟩
      unfold OrphanMode
      rw [read]
      cases install with
      | none => simp [windows, active]
      | some i => simp
  · rename_i unix
    exact Guards.pure ⟨rfl, nofun, fun mode => absurd mode.1 unix⟩

theorem guards_cleanupStaging :
    Guards solo (I.Effect kind s₀) (fun _ t => I.Cleaned s t) I.cleanupStaging s := by
  apply Guards.bind_get
  cases hs : s.staging with
  | absent => exact Guards.pure ⟨⟨rfl, .inl rfl⟩, .inl ⟨hs, hs⟩⟩
  | _ =>
    refine guards_ensureStagingDir.bind fun _ a ⟨_, shape, entries⟩ => ?_
    refine guards_removesOrphans.bind fun removeOrphans b ⟨same, mode⟩ => ?_
    subst same
    apply Guards.bind_get
    obtain ⟨es, present⟩ := entries
    have made : I.Swept s b := by
      rw [shape]
      exact ⟨rfl, .inl rfl⟩
    apply (guards_cleanupEntries mode ⟨es, present, by rw [present]; rfl⟩).mono_post
    exact fun _ t ⟨swept, done⟩ => ⟨made.trans swept, .inr done⟩

end Guards

end Installation

end Relswap
