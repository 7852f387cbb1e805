import Relswap.Proof.Interleaving
import Relswap.Sample.World

/-!
# Downgrade protection

Among any number of managers the selected version only ever rises, except in a
rollback, which lowers it to a retained version.
-/

namespace Relswap

open Durable Durable.Program Disk

/-- The selector rises strictly; one that is absent counts as lowest. -/
def Raises {V : Type} [SemVer V] : Option V → Option V → Prop
  | none, some _ => True
  | some f, some v => f < v
  | _, none => False

theorem Raises.trans {V : Type} [SemVer V] {p q r : Option V} (h : Raises p q)
    (h' : Raises q r) : Raises p r := by
  cases r with
  | none => cases q <;> exact h'.elim
  | some w =>
    cases q with
    | none => cases p <;> exact h.elim
    | some v =>
      cases p with
      | none => trivial
      | some f => exact lt_trans h h'

/-- The operations that may lower the selected version. -/
def Operation.lowers {V U : Type} : Operation V U → Bool
  | .rollback _ | .rollbackTo .. => true
  | .installVersion .. | .update _ | .recoverIfManaged | .checkLatest _ => false

namespace Installation

variable {V U : Type} [SemVer V] [Crates V] [UrlCrate U] (I : Installation)

/-- How a step of an operation may move the selector. A download raises it, and a
rollback lowers it to a version that is retained at that moment. -/
def MovesSelector (op : Operation V U) (s : Disk V) (p p' : Option V) : Prop :=
  match op with
  | .installVersion .. | .update _ => Raises p p'
  | .rollback _ => ∃ f v, p = some f ∧ p' = some v ∧ v < f ∧ ∃ state, I.Retained s v state
  | .rollbackTo _ v => ∃ f, p = some f ∧ p' = some v ∧ v < f ∧ ∃ state, I.Retained s v state
  | .recoverIfManaged | .checkLatest _ => False

/-- A run in which no rollback takes a step. -/
def RunsUpwards (w w' : Managers V U) : Prop :=
  Relation.ReflTransGen (fun a b => ∃ label, World.Step I.starts a label b ∧
    ∀ op, label = some op → op.lowers = false) w w'

variable {I} {s t : Disk V} {op : Operation V U}

/-- What a write of an operation does to the selector. -/
theorem Acts.moves (step : I.Acts op s t) {p p' : Option V} (before : I.Selects s p)
    (after : I.Selects t p') (changed : p ≠ p') : I.MovesSelector op s p p' := by
  obtain ⟨kind, s₀, performs, h₀, effect⟩ := step
  rcases effect.moves with same | ⟨j, activates, _, rfl⟩
  · exact absurd (Selects.unique I before (after.of_same I same)) changed
  have fromIs := Selects.unique I before (I.selects_of_read activates.readable)
  have toIs := Selects.unique I after (I.selects_select j.toVersion s)
  obtain ⟨dir, c, state, entry, isPrivate, complete, named, ordered, _⟩ := activates.target
  have retained : ∃ state, I.Retained s j.toVersion state :=
    ⟨state, dir, c, entry, isPrivate, complete, named⟩
  -- the version a download starts from is recorded, so it has been compared
  have raised : ∀ {v now fresh}, kind = .download v now fresh → Raises p p' := by
    rintro v now fresh rfl
    rw [fromIs, toIs]
    cases hf : j.fromVersion with
    | none => trivial
    | some f =>
      rcases activates.owner f hf with ⟨i, install, _⟩ | orphaned
      · exact ordered.1 ▸ ordered.2.2 f i hf install
      · exact absurd orphaned h₀.not_orphaned
  have lowered : ∀ {v}, kind = .existing v →
      ∃ f, p = some f ∧ p' = some v ∧ v < f ∧ ∃ state, I.Retained s v state := by
    rintro v rfl
    obtain ⟨target, f, from_, older⟩ := ordered
    exact ⟨f, fromIs.trans from_, toIs.trans (congrArg some target), older, target ▸ retained⟩
  rcases performs with rfl | performs
  · exact ordered.elim
  · cases op with
    | installVersion inputs v => exact raised performs
    | update inputs =>
      obtain ⟨metadata, _, same⟩ := performs
      exact raised same
    | rollback inputs =>
      obtain ⟨target, same⟩ := performs
      obtain ⟨f, rest⟩ := lowered same
      exact ⟨f, target, rest⟩
    | rollbackTo inputs target => exact lowered performs
    | recoverIfManaged => exact performs.elim
    | checkLatest => exact performs.elim

theorem Reached.moves {w w' : Managers V U} {label : Option (Operation V U)} (h : I.Reached w)
    (next : World.Step I.starts w label w') {p p' : Option V} (before : I.Selects w.state p)
    (after : I.Selects w'.state p') (changed : p ≠ p') :
    ∃ op, label = some op ∧ I.MovesSelector op w.state p p' := by
  rcases (h.step next).2 with same | ⟨op, labelled, acts⟩
  · rw [same] at after
    exact absurd (Selects.unique I before after) changed
  · exact ⟨op, labelled, acts.moves before after changed⟩

omit [UrlCrate U] in
theorem MovesSelector.raises {p p' : Option V} (h : I.MovesSelector op s p p')
    (upwards : op.lowers = false) : Raises p p' := by
  cases op with
  | installVersion => exact h
  | update => exact h
  | rollback => cases upwards
  | rollbackTo => cases upwards
  | recoverIfManaged => exact h.elim
  | checkLatest => exact h.elim

/-- A run without rollbacks never lowers the selector. -/
theorem RunsUpwards.raises {w w' : Managers V U} (h : I.Reached w) (run : I.RunsUpwards w w') :
    I.Reached w' ∧ ∀ p p', I.Selects w.state p → I.Selects w'.state p' → p = p' ∨ Raises p p' := by
  induction run with
  | refl => exact ⟨h, fun p p' before after => .inl (Selects.unique I before after)⟩
  | @tail a b _ last ih =>
    obtain ⟨reachedA, before⟩ := ih
    obtain ⟨label, next, upwards⟩ := last
    refine ⟨(reachedA.step next).1, fun p p' hp hp' => ?_⟩
    obtain ⟨q, hq⟩ := reachedA.sound.inv.selects
    by_cases same : q = p'
    · exact same ▸ before p q hp hq
    · obtain ⟨op, labelled, moves⟩ := reachedA.moves next hq hp' same
      have raised := moves.raises (upwards op labelled)
      rcases before p q hp hq with rfl | earlier
      · exact .inr raised
      · exact .inr (earlier.trans raised)

/-- Downgrade protection. In every interleaving the selector is absent or names a
version; a step that changes it raises it strictly, unless the step belongs to a
rollback, which lowers it to a version retained at that moment; and a run without
rollbacks never lowers it. -/
theorem selected_version_lowered_only_by_rollback {w : Managers V U} (reached : I.Reached w) :
    (∃ p, I.Selects w.state p) ∧
    (∀ label w', World.Step I.starts w label w' →
      ∀ p p', I.Selects w.state p → I.Selects w'.state p' → p ≠ p' →
        ∃ op, label = some op ∧ I.MovesSelector op w.state p p') ∧
    (∀ w', I.RunsUpwards w w' →
      ∀ p p', I.Selects w.state p → I.Selects w'.state p' → p = p' ∨ Raises p p') :=
  ⟨reached.sound.inv.selects,
    fun _ _ next _ _ before after changed => reached.moves next before after changed,
    fun _ run => (run.raises reached).2⟩

open Sample in
theorem selected_version_of_updated : ∃ p, unixHost.Selects unixDisk p :=
  (selected_version_lowered_only_by_rollback unixDisk_quiet).1

end Installation

end Relswap
