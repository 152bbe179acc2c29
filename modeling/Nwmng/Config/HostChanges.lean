/-
Module: Nwmng.Config.HostChanges
Purpose: The elementary changes that the work of a slot makes to the shared data, and the changes
that the end of a slot makes.
Trusted boundary: none
Main exports:
  HostChange, HostWork, HostWork.of_changes, EventStep.work, ExceptionStep.work, endEntry_host,
  rmendEntry_kept
-/
import Mathlib.Logic.Relation
import Nwmng.Config.EngineRun

namespace Nwmng

open Fallible

/-- A change of a record that the work on its node makes.  There are two of them: the lights that
the composition data tells of, and the feature that a status acknowledges. -/
inductive Node.Worked : (Node → Node) → Prop where
  | func (func : BitVec 8) : Worked fun node => { node with func := func }
  | feature (which : Nat) : Worked (onFeatureConfigured which)

/-- What a slot logs while it works.  Each entry carries the slot, so that the commands of the
slots can be told apart in one log. -/
inductive Effect.OfWork (slot : Slot) : Effect → Prop where
  | sent (command : Command) (answer : CmdRsp) : OfWork slot (.sent slot command answer)
  | completed (uuid : Uuid) (addr : UInt16) (state : AccState) :
      OfWork slot (.completed uuid addr state)

/-- One change of the shared data in the work of a slot.  The callbacks make chains of such
changes; what a property needs is that each link keeps it. -/
inductive HostChange (slot : Slot) (host : Host) : Host → Prop where
  | counted (stat : Stat) : HostChange slot host { host with stat := stat }
  | logged {effect : Effect} (own : effect.OfWork slot) :
      HostChange slot host (host.record effect)
  | written {change : Node → Node} (record : NodeId) (worked : Node.Worked change) :
      HostChange slot host { host with db := host.db.update record change }

/-- The work of a slot, as a chain of changes. -/
abbrev HostWork (slot : Slot) := Relation.ReflTransGen (HostChange slot)

/-- What no change breaks, the work of a slot does not break.  It is the induction over the
chains of changes, done once. -/
theorem HostWork.of_changes {slot : Slot} {relation : Host → Host → Prop} {before after : Host}
    (work : HostWork slot before after) (refl : ∀ host, relation host host)
    (trans : ∀ {first second third}, relation first second → relation second third →
      relation first third)
    (changes : ∀ {host next}, HostChange slot host next → relation host next) :
    relation before after := by
  induction work with
  | refl => exact refl before
  | tail _ change hypothesis => exact trans hypothesis (changes change)

section

variable {state : AccState} {slot : Slot} {answer : CmdRsp} {cache after : ConfigCache}
  {host host' : Host} {out : Outcome}

theorem Attempt.work (attempt : Attempt state slot answer cache host out) :
    HostWork slot host out.host := by
  cases attempt with
  | unknown _ => exact .refl
  | accepted command _ _ _ _ => exact .single (.logged (.sent command answer))
  | outOfMemory command _ _ _ _ => exact .single (.logged (.sent command answer))
  | refused command _ _ _ _ => exact .single (.logged (.sent command answer))

theorem Retried.work {reason : RetryReason}
    (retried : Retried state reason slot answer cache host out) : HostWork slot host out.host := by
  cases retried with
  | unsent attempt _ => exact attempt.work
  | resent attempt _ _ => exact attempt.work

theorem work_countRetry (manager : MngState) (slot : Slot) (host : Host) :
    HostWork slot host (countRetry manager host) := by
  unfold countRetry
  split
  · exact .single (.counted _)
  · exact .single (.counted _)

theorem ExceptionStep.work {manager : MngState} {input : RoundInput}
    (exception : ExceptionStep manager slot input cache host after host') :
    HostWork slot host host' := by
  cases exception with
  | quiet _ => exact .refl
  | expired _ _ retried => exact retried.work.trans (work_countRetry manager slot _)
  | memory _ _ _ _ retried => exact retried.work.trans (work_countRetry manager slot _)

theorem FeatureStep.work (slot : Slot) (features : FeatureStep state cache host host') :
    HostWork slot host host' := by
  rcases features with rfl | ⟨_, id, which, _, rfl⟩
  · exact .refl
  · exact .single (.written id (.feature which))

theorem storePage_work (slot : Slot) {data : Bytes.Memory} {len : UInt8}
    (stored : storePage data len cache host = .ok (after, host')) : HostWork slot host host' := by
  simp only [storePage, bind_ok] at stored
  obtain ⟨⟨id, node⟩, _, stored⟩ := stored
  cases decoded : dcdStore 256 data len node.func with
  | none => simp [decoded] at stored
  | some read =>
      simp only [decoded] at stored
      have own : HostWork slot host
          { host with db := host.db.update id fun node => { node with func := read.2 } } :=
        .single (.written id (.func read.2))
      by_cases empty : read.1.elementCnt = 0
      · simp only [empty, if_true, bind_ok, Except.ok.injEq, Prod.mk.injEq] at stored
        obtain ⟨_, rfl, _, rfl⟩ := stored
        exact own
      · simp only [empty, if_false, bind_ok, Except.ok.injEq, Prod.mk.injEq] at stored
        obtain ⟨_, writes, _, rfl⟩ := stored
        obtain ⟨record, _, rfl⟩ := CfgDb.nodeset_eq writes
        exact own.tail (.written record (.func read.2))

theorem Handled.work {event : ConfigEvent}
    (handled : Handled state slot event answer cache host out) : HostWork slot host out.host := by
  cases handled with
  | page _ _ stored => exact storePage_work slot stored
  | finished _ _ _ _ _ _ features _ _ =>
      exact (features.work slot).tail (.logged (.completed _ _ _))
  | continued _ _ _ _ _ features _ attempt _ => exact (features.work slot).trans attempt.work
  | _ => exact .refl

theorem TakesEvent.work {event : ConfigEvent}
    (takes : TakesEvent slot event answer cache host out) : HostWork slot host out.host := by
  cases takes with
  | handled _ _ handled => exact handled.work
  | ignored _ => exact .refl

theorem EventStep.work {manager : MngState} {event : ConfigEvent} {input : EventInput}
    (step : EventStep manager slot event input cache host after host') :
    HostWork slot host host' := by
  cases step with
  | settled takes _ => exact takes.work
  | resent takes _ _ _ _ retried =>
      exact (takes.work.trans retried.work).trans (work_countRetry manager slot _)

/-!
## The end of a slot

The end of a slot writes to a record through the address of its node, not through the slot.  The
record that is written need not be that of the node, unless the two lead to each other.
-/

/-- The end of a slot writes to the record that the address of its node finds.  This need not be
the record of the node, which is why the database must be filed by address. -/
theorem endEntry_host {guard : Option GuardFn}
    (entered : endEntry guard slot answer cache host = .ok out) :
    ∃ id record, cache.node = some id ∧
      host.db.cfgdbNodeGet (host.db.heap id).addr = some record ∧
      out.host =
        if cache.failed then
          { host with
            stat := host.stat.configOneDev
            db := host.db.update record fun node => { node with err := cache.errBits } }
        else
          Host.record
            { host with
              stat := host.stat.configOneDev
              db := (host.db.update record fun node => { node with err := 0 }).update record
                fun node => { node with done := 1 } }
            (.configured (host.db.heap id).uuid (host.db.heap id).addr
              (host.db.heap id).config) := by
  simp only [endEntry, bind_ok] at entered
  obtain ⟨⟨id, node⟩, found, entered⟩ := entered
  obtain ⟨here, rfl⟩ := nodeOf_eq found
  by_cases failed : cache.failed = true
  · simp only [failed, if_true, bind_ok, Except.ok.injEq] at entered
    obtain ⟨db, writes, rfl⟩ := entered
    obtain ⟨record, filed, rfl⟩ := CfgDb.nodeset_eq writes
    exact ⟨id, record, here, filed, by rw [if_pos failed]⟩
  · simp only [failed, bind_ok, Bool.false_eq_true, if_false, Except.ok.injEq] at entered
    obtain ⟨cleared, clears, db, writes, rfl⟩ := entered
    obtain ⟨record, filed, rfl⟩ := CfgDb.nodeset_eq clears
    obtain ⟨other, again, rfl⟩ := CfgDb.nodeset_eq writes
    have same : other = record := by
      unfold CfgDb.cfgdbNodeGet at filed again
      rw [CfgDb.get_update] at again
      exact Option.some.inj (again.symm.trans filed)
    exact ⟨id, record, here, filed, by rw [if_neg failed, same]⟩

/-- What the removal of a node keeps of every record: a failed one stores its mask. -/
theorem rmendEntry_kept {relation : Node → Node → Prop} {guard : Option GuardFn}
    (refl : ∀ node, relation node node)
    (trans : ∀ {first second third}, relation first second → relation second third →
      relation first third)
    (failed : cache.failed = true → ∀ node : Node, relation node { node with err := cache.errBits })
    (cleared : ∀ node : Node, relation node { node with err := 0 })
    (undone : ∀ node : Node, relation node { node with done := 0 })
    (func : ∀ node : Node, relation node { node with func := 0 })
    (addr : ∀ node : Node, relation node { node with addr := 0 })
    (entered : rmendEntry guard slot answer cache host = .ok out) :
    host.db.Kept relation out.host.db := by
  simp only [rmendEntry, bind_ok] at entered
  obtain ⟨⟨id, node⟩, found, entered⟩ := entered
  by_cases fails : cache.failed = true
  · simp only [fails, if_true, bind_ok, Except.ok.injEq] at entered
    obtain ⟨db, writes, rfl⟩ := entered
    exact .nodeset refl (failed fails) writes
  · simp only [fails, bind_ok, Bool.false_eq_true, if_false, Except.ok.injEq] at entered
    obtain ⟨first, clears, second, undoes, third, forgets, db, removes, rfl⟩ := entered
    have one := CfgDb.Kept.nodeset refl cleared clears
    have two := CfgDb.Kept.nodeset refl undone undoes
    have three := CfgDb.Kept.nodeset refl func forgets
    have four := CfgDb.Kept.nodesRm refl addr removes
    have cleaned : host.db.Kept relation second := one.trans trans two
    have reset : host.db.Kept relation third := cleaned.trans trans three
    exact reset.trans trans four

end

end Nwmng
