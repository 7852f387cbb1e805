import Relswap.Durable.Handover
import Relswap.Proof.Progress
import Relswap.Sample.World

/-!
# Activations hand the selector over

The journal, the selector and the active version of `install.json` carry out the
journalled handover: whatever managers do, one of the three changes at a time, and in
its order. What the handover keeps is thus kept at every moment of every run.
-/

namespace Relswap

open Durable Durable.Program Disk

namespace Installation

variable {V U : Type} [SemVer V] [Crates V] [UrlCrate U] (I : Installation)

/-- What the journal announces: the version left and the version taken up. -/
def announcedOn (s : Disk V) : Option (Option V × V) :=
  match s.pending with
  | .value p => some (p.fromVersion, p.toVersion)
  | _ => none

/-- The handover that a disk is in. -/
structure Shows (s : Disk V) (a : Handover.State V) : Prop where
  pointer : I.Selects s a.pointer
  record : a.record = activeOf s
  journal : a.journal = announcedOn s

variable {I} {s t s₀ : Disk V} {kind : Kind V} {a b : Handover.State V}

omit [SemVer V] [Crates V] in
theorem announcedOn_value {p : PendingActivation V} (h : s.pending = .value p) :
    announcedOn s = some (p.fromVersion, p.toVersion) := by
  rw [announcedOn, h]

omit [SemVer V] [Crates V] in
theorem announcedOn_absent (h : s.pending = .absent) : announcedOn s = none := by
  rw [announcedOn, h]

omit [SemVer V] [Crates V] in
theorem announcedOn_congr (h : t.pending = s.pending) : announcedOn t = announcedOn s := by
  rw [announcedOn, announcedOn, h]

omit [Crates V] in
theorem Shows.same (h : I.Shows s a) (install : t.install = s.install)
    (pending : t.pending = s.pending) (selector : I.SameSelector s t) : I.Shows t a :=
  ⟨h.pointer.same I selector, h.record.trans (activeOf_congr install).symm,
    h.journal.trans (announcedOn_congr pending).symm⟩

/-- A journal is written only about the version that is selected and recorded. -/
theorem Shows.announce (h : I.Shows s a) {p : PendingActivation V} (activates : I.Activates kind s₀ s p)
    (after : I.Journalled { s with pending := .value p } p) :
    I.Shows { s with pending := .value p } { a with journal := some (a.pointer, p.toVersion) } ∧
      Handover.Step a { a with journal := some (a.pointer, p.toVersion) } := by
  have source : a.pointer = p.fromVersion :=
    Selects.unique I h.pointer (I.selects_of_read activates.readable)
  have moves : p.fromVersion ≠ some p.toVersion := (validatePending_eq_ok.mp activates.valid).2
  have selector : I.SameSelector { s with pending := .value p } s := by
    rw [SameSelector]
    cases I.platform <;> rfl
  have recorded : activeOf s = p.fromVersion := by
    rcases after.selector with ⟨_, recorded⟩ | ⟨switched, _⟩
    · exact recorded
    · have there := Selects.unique I h.pointer (switched.same I selector)
      exact absurd (source.symm.trans there) moves
  refine ⟨⟨h.pointer.of_same I selector, h.record, ?_⟩, ?_⟩
  · change some (a.pointer, p.toVersion) = some (p.fromVersion, p.toVersion)
    rw [source]
  · refine .announce p.toVersion ?_ ?_
    · rw [h.record, recorded, source]
    · rw [source]
      exact moves

theorem Shows.switched (h : I.Shows s a) {p : PendingActivation V}
    (activates : I.Activates kind s₀ s p) (journalled : s.pending = .value p) :
    I.Shows (I.select p.toVersion s) { a with pointer := some p.toVersion } ∧
      Handover.Step a { a with pointer := some p.toVersion } := by
  have source : a.pointer = p.fromVersion :=
    Selects.unique I h.pointer (I.selects_of_read activates.readable)
  obtain ⟨install, pending, _⟩ := I.select_fields p.toVersion s
  refine ⟨⟨I.selects_select p.toVersion s, ?_, ?_⟩, .switch ?_⟩
  · exact h.record.trans (activeOf_congr install).symm
  · exact h.journal.trans (announcedOn_congr pending).symm
  · rw [h.journal, announcedOn_value journalled, source]

/-- `install.json` is rewritten to take up the announced version, or without one to
repair a record that already names the selected version. -/
theorem Shows.recorded (h : I.Shows s a) (inv : I.Inv s) {inst : InstallState V}
    (records : I.Records s inst) :
    I.Shows { s with install := .value inst } { a with record := inst.active } ∧
      ({ a with record := inst.active } = a ∨
        Handover.Step a { a with record := inst.active }) := by
  obtain ⟨v, state, active, selects, _, _, reason⟩ := records.selected
  have selector : I.SameSelector { s with install := .value inst } s := by
    rw [SameSelector]
    cases I.platform <;> rfl
  have pointer : a.pointer = some v := Selects.unique I h.pointer selects
  refine ⟨⟨h.pointer.of_same I selector, rfl, h.journal⟩, ?_⟩
  rcases reason with ⟨p, pending, target, _⟩ | ⟨absent, _⟩
  · right
    have announced : a.journal = some (p.fromVersion, v) := by
      rw [h.journal, announcedOn_value pending, target]
    rw [active]
    exact .record announced pointer
  · left
    have kept : a.record = inst.active := by
      rw [h.record, active]
      exact Selects.unique I (inv.settled absent) selects
    rw [← kept]

/-- The journal goes when the announced version is recorded, or before it is selected. -/
theorem Shows.dropped (h : I.Shows s a) (drops : I.Drops s)
    (after : I.Inv { s with pending := .absent }) :
    I.Shows { s with pending := .absent } { a with journal := none } ∧
      Handover.Step a { a with journal := none } := by
  have selector : I.SameSelector { s with pending := .absent } s := by
    rw [SameSelector]
    cases I.platform <;> rfl
  refine ⟨⟨h.pointer.of_same I selector, h.record, rfl⟩, ?_⟩
  obtain ⟨p, pending, ⟨selects, i, install, active, _⟩ | ⟨selects, _⟩⟩ := drops
  · have announced : a.journal = some (p.fromVersion, p.toVersion) := by
      rw [h.journal, announcedOn_value pending]
    refine .finish announced (Selects.unique I h.pointer selects) ?_
    rw [h.record, activeOf_value install, active]
  · have source : a.pointer = p.fromVersion := Selects.unique I h.pointer selects
    have announced : a.journal = some (a.pointer, p.toVersion) := by
      rw [h.journal, announcedOn_value pending, source]
    have settled : I.Selects s (activeOf s) := (after.settled rfl).same I selector
    refine .abandon announced ?_
    rw [h.record]
    exact Selects.unique I settled h.pointer

/-- One write of an operation is a step of the handover, or does not take part in it. -/
theorem Effect.hands (step : I.Effect kind s₀ s t) (before : I.Inv s) (after : I.Inv t)
    (h : I.Shows s a) : ∃ b, I.Shows t b ∧ (b = a ∨ Handover.Step a b) := by
  have apart : ∀ t' : Disk V, t'.install = s.install → t'.pending = s.pending →
      I.SameSelector s t' → ∃ b, I.Shows t' b ∧ (b = a ∨ Handover.Step a b) :=
    fun _ install pending selector => ⟨a, h.same install pending selector, .inl rfl⟩
  cases step with
  | scaffold scaffold =>
    have frame := Scaffold.frame I scaffold
    exact apart _ frame.install frame.pending frame.selector
  | emptyVersion v _ added =>
    refine apart _ ?_ ?_ (AddsEmpty.selector added)
    · rw [added.shape]
    · rw [added.shape]
  | stage staged =>
    have frame := StageStep.frame I staged
    exact apart _ frame.install frame.pending frame.selector
  | createLauncher bytes fresh =>
    refine apart _ rfl rfl ?_
    rw [SameSelector]
    rw [fresh.windows]
  | removeLauncher bytes orphan =>
    refine apart _ rfl rfl ?_
    rw [SameSelector]
    rw [orphan.windows]
  | publish =>
    refine apart _ rfl rfl ?_
    rw [SameSelector]
    cases I.platform <;> rfl
  | journal p activates =>
    obtain ⟨shows, step⟩ := h.announce activates (after.journal p rfl)
    exact ⟨_, shows, .inr step⟩
  | «switch» p activates journalled =>
    obtain ⟨shows, step⟩ := h.switched activates journalled
    exact ⟨_, shows, .inr step⟩
  | record inst records => exact ⟨_, h.recorded before records⟩
  | dropJournal drops =>
    obtain ⟨shows, step⟩ := h.dropped drops after
    exact ⟨_, shows, .inr step⟩

theorem Reached.hands {w w' : Managers V U} {label : Option (Operation V U)} (h : I.Reached w)
    (next : World.Step I.starts w label w') (shows : I.Shows w.state a) :
    ∃ b, I.Shows w'.state b ∧ (b = a ∨ Handover.Step a b) := by
  obtain ⟨reached, same | ⟨op, _, kind, s₀, _, _, effect⟩⟩ := h.step next
  · exact ⟨a, same ▸ shows, .inl rfl⟩
  · exact effect.hands h.sound.inv.toInv reached.sound.inv.toInv shows

theorem Reached.runs {w w' : Managers V U} (h : I.Reached w)
    (run : World.Reachable I.starts w w') (shows : I.Shows w.state a) :
    I.Reached w' ∧ ∃ b, I.Shows w'.state b ∧ Handover.Run a b := by
  induction run with
  | refl => exact ⟨h, a, shows, .refl⟩
  | tail _ last ih =>
    obtain ⟨reached, b, shows, sofar⟩ := ih
    obtain ⟨label, next⟩ := last
    refine ⟨(reached.step next).1, ?_⟩
    obtain ⟨c, shows', rfl | step⟩ := reached.hands next shows
    · exact ⟨_, shows', sofar⟩
    · exact ⟨c, shows', sofar.tail step⟩

omit [Crates V] in
theorem Fresh.shows (h : I.Fresh s) : I.Shows s .initial :=
  ⟨h.selects, by rw [activeOf, h.install]; rfl, (announcedOn_absent h.pending).symm⟩

/-- Every run of managers, with operations cut off anywhere, carries out the journalled
handover: a disk shows exactly one state of it, which is reached from the initial one,
and every later disk shows a state that is reached from there. -/
theorem managers_hand_over {w : Managers V U} (reached : I.Reached w) :
    ∃ a, (∀ b, I.Shows w.state b ↔ b = a) ∧ Handover.Run .initial a ∧ Handover.Consistent a ∧
      ∀ w', World.Reachable I.starts w w' → ∃ b, I.Shows w'.state b ∧ Handover.Run a b := by
  obtain ⟨s, fresh, run⟩ := id reached
  have start : I.Reached (World.initial s : Managers V U) := ⟨s, fresh, .refl⟩
  obtain ⟨_, a, shows, sofar⟩ := start.runs run fresh.shows
  refine ⟨a, ?_, sofar, sofar.consistent .initial, fun w' later => (reached.runs later shows).2⟩
  intro b
  constructor
  · intro other
    obtain ⟨pointer, record, journal⟩ := a
    obtain ⟨pointer', record', journal'⟩ := b
    have samePointer : pointer' = pointer := Selects.unique I other.pointer shows.pointer
    have sameRecord : record' = record := other.record.trans shows.record.symm
    have sameJournal : journal' = journal := other.journal.trans shows.journal.symm
    rw [samePointer, sameRecord, sameJournal]
  · rintro rfl
    exact shows

open Sample in
theorem updated_hands_over : ∃ a, (∀ b, unixHost.Shows unixDisk b ↔ b = a) ∧
    Handover.Run .initial a := by
  obtain ⟨a, shows, run, _⟩ := managers_hand_over unixDisk_quiet
  exact ⟨a, shows, run⟩

end Installation

end Relswap
