/-
Module: Nwmng.Mng.ReferenceRounds
Purpose: What the work of the slots does to the records that are pointed to, and that a call of
the engine leaves every pointer with its record.
Trusted boundary: none
Main exports:
  HostWork.keeps, ExceptionStep.unfailed, Arrived.keeps, Thinner, EngineHeld, EngineHeld.moved,
  EngineHeld.accLoop, EngineHeld.devConfigHdr
-/
import Nwmng.Mng.References

namespace Nwmng

open Fallible

/-!
## The records behind a slot

A slot writes to records while it works, and at its end.  Only the removal of a node moves a
record, and only a removal without an error.
-/

section

variable {refs : List NodeId} {slot : Slot} {answer : CmdRsp} {cache after : ConfigCache}
  {host host' : Host} {out : Outcome} {db written : CfgDb} {addr : UInt16}

theorem Node.Worked.home {change : Node → Node} (worked : Node.Worked change) (node : Node) :
    (change node).home = node.home := by
  cases worked with
  | func _ => rfl
  | feature _ => rfl

theorem HostChange.keeps (refs : List NodeId) (change : HostChange slot host host') :
    CfgDb.Keeps refs host.db host'.db := by
  cases change with
  | counted _ => exact .refl refs host.db
  | logged _ => exact .refl refs host.db
  | written record worked => exact .update refs host.db record worked.home

theorem HostWork.keeps (refs : List NodeId) (work : HostWork slot host host') :
    CfgDb.Keeps refs host.db host'.db := by
  apply @HostWork.of_changes slot (fun one two => CfgDb.Keeps refs one.db two.db) _ _ work
  · exact fun between => .refl refs between.db
  · exact fun one two => one.trans two
  · exact fun change => change.keeps refs

theorem endEntry_keeps (refs : List NodeId) {guard : Option GuardFn}
    (entered : endEntry guard slot answer cache host = .ok out) :
    CfgDb.Keeps refs host.db out.host.db := by
  obtain ⟨_, record, _, _, result⟩ := endEntry_host entered
  have stored : ∀ err (node : Node), ({ node with err := err } : Node).home = node.home :=
    fun _ _ => rfl
  have done : ∀ node : Node, ({ node with done := 1 } : Node).home = node.home := fun _ => rfl
  rw [result]
  split
  · exact .update refs host.db record (stored cache.errBits)
  · have cleared := CfgDb.Keeps.update refs host.db record (stored 0)
    exact cleared.trans (.update refs _ record done)

/-- Where a node goes that loses its address does not depend on its other fields. -/
theorem CfgDb.RetireSpares.nodeset {place : UInt16} {change : Node → Node}
    (spares : db.RetireSpares refs addr) (sameUuid : ∀ node : Node, node.SameUuid (change node))
    (writes : db.nodeset place change = .ok written) : written.RetireSpares refs addr := by
  have uuids := (CfgDb.Kept.nodeset Node.SameUuid.refl sameUuid writes).records
  obtain ⟨other, _, rfl⟩ := CfgDb.nodeset_eq writes
  intro record found holder held
  unfold CfgDb.cfgdbNodeGet at found
  rw [CfgDb.get_update] at found held
  rw [uuids record] at held
  exact spares record found holder held

/-- The removal of a node.  A node that failed stays where it is. -/
theorem rmendEntry_keeps {guard : Option GuardFn}
    (spares : cache.failed = false → ∀ record, cache.node = some record →
      host.db.RetireSpares refs (host.db.heap record).addr)
    (entered : rmendEntry guard slot answer cache host = .ok out) :
    CfgDb.Keeps refs host.db out.host.db := by
  simp only [rmendEntry, bind_ok] at entered
  obtain ⟨⟨record, node⟩, found, entered⟩ := entered
  obtain ⟨here, rfl⟩ := nodeOf_eq found
  have stored : ∀ err (node : Node), ({ node with err := err } : Node).home = node.home :=
    fun _ _ => rfl
  have undone : ∀ node : Node, ({ node with done := 0 } : Node).home = node.home := fun _ => rfl
  have func : ∀ node : Node, ({ node with func := 0 } : Node).home = node.home := fun _ => rfl
  by_cases failed : cache.failed = true
  · simp only [failed, if_true, bind_ok, Except.ok.injEq] at entered
    obtain ⟨db, writes, rfl⟩ := entered
    exact .nodeset refs (stored cache.errBits) writes
  · simp only [failed, bind_ok, Bool.false_eq_true, if_false, Except.ok.injEq] at entered
    obtain ⟨first, clears, second, undoes, third, forgets, db, removes, rfl⟩ := entered
    have errUuid : ∀ node : Node, node.SameUuid { node with err := 0 } := fun _ => rfl
    have doneUuid : ∀ node : Node, node.SameUuid { node with done := 0 } := fun _ => rfl
    have funcUuid : ∀ node : Node, node.SameUuid { node with func := 0 } := fun _ => rfl
    have one := CfgDb.Keeps.nodeset refs (stored 0) clears
    have two := CfgDb.Keeps.nodeset refs undone undoes
    have three := CfgDb.Keeps.nodeset refs func forgets
    -- the fields that are cleared do not tell where the node goes
    have spared : host.db.RetireSpares refs (host.db.heap record).addr :=
      spares (by simpa using failed) record here
    have still := ((spared.nodeset errUuid clears).nodeset doneUuid undoes).nodeset funcUuid
      forgets
    exact ((one.trans two).trans three).trans (.nodesRm still removes)

/-! ## Whether a slot has failed -/

theorem Attempt.unfailed {state : AccState} (attempt : Attempt state slot answer cache host out)
    (clean : out.cache.failed = false) :
    cache.failed = false ∧ out.cache.nextState = cache.nextState := by
  cases attempt with
  | refused _ _ _ _ _ =>
      rw [ConfigCache.errSetTo_failed] at clean
      cases clean
  | _ => exact ⟨clean, rfl⟩

theorem Retried.unfailed {state : AccState} {reason : RetryReason}
    (retried : Retried state reason slot answer cache host out)
    (clean : out.cache.failed = false) :
    cache.failed = false ∧ out.cache.nextState = cache.nextState := by
  cases retried with
  | unsent attempt _ => exact attempt.unfailed clean
  | @resent sent last attempt _ finishes =>
      have same : last.failed = sent.cache.failed ∧ last.nextState = sent.cache.nextState := by
        cases reason with
        | onTimeoutEm =>
            obtain ⟨_, _, rfl⟩ := finishes
            exact ⟨rfl, rfl⟩
        | onOomEm | onGuardTimerExpiredEm =>
            obtain ⟨_, rfl⟩ := finishes
            exact ⟨rfl, rfl⟩
      obtain ⟨before, next⟩ := attempt.unfailed (same.1.symm.trans clean)
      exact ⟨before, same.2.trans next⟩

/-- A resend that leaves no error goes on to where the slot was going. -/
theorem ExceptionStep.unfailed {manager : MngState} {input : RoundInput}
    (exception : ExceptionStep manager slot input cache host after host')
    (clean : after.failed = false) :
    cache.failed = false ∧ firstOpen after host' = firstOpen cache host := by
  have before : cache.failed = false ∧ after.nextState = cache.nextState := by
    cases exception with
    | quiet _ => exact ⟨clean, rfl⟩
    | expired _ _ retried => exact retried.unfailed clean
    | memory _ _ _ _ retried => exact retried.unfailed clean
  exact ⟨before.1, firstOpen_congr exception.sameWork before.2 exception.db_eq⟩

/-- A change of state keeps the records.  It is a removal if that is the first state that is
open. -/
theorem Arrived.keeps {targets : List AccStateOps}
    (arrived : Arrived targets slot answer cache host after host')
    (leaves : leaveTargets cache = .ok targets)
    (spares : cache.failed = false → firstOpen cache host = some .rmendEm →
      ∀ record, cache.node = some record →
        host.db.RetireSpares refs (host.db.heap record).addr) :
    CfgDb.Keeps refs host.db host'.db := by
  cases arrived with
  | nowhere _ => exact .refl refs host.db
  | @entered _ _ ops _ split skipped entry ret =>
      cases entry with
      | skipped _ => rcases ret with ret | ret <;> cases ret
      | attempted _ _ _ attempt _ => exact attempt.work.keeps refs
      | noCommand _ _ _ => exact .refl refs host.db
      | ended _ conclusion => exact endEntry_keeps refs conclusion
      | removed final conclusion =>
          apply rmendEntry_keeps _ conclusion
          intro clean record here
          apply spares clean _ record here
          rw [← final]
          apply firstOpen_of_skipped leaves here split skipped
          rw [final]
          rfl
  | refused _ _ entry ret conclusion =>
      cases entry with
      | attempted _ _ _ attempt _ =>
          exact (attempt.work.keeps refs).trans (endEntry_keeps refs conclusion)
      | _ => cases ret

end

/-!
## The records behind the engine

Work on a slot leaves the pointers where they are, or drops them: a node that leaves its slot is
forgotten, or goes to the list of failures.  Nothing the engine does makes a new pointer.
-/

/-- The engine has each node at one place, and every record that it points to, or that others
point to, is in the trees. -/
structure EngineHeld (others : List NodeId) (engine : Engine) : Prop where
  housed : engine.Housed
  once : engine.managed.Nodup
  lodged : Lodged engine.host.db
  known : ∀ record ∈ engine.references ++ others, engine.host.db.Known record

/-- Lists that have lost entries. -/
structure Thinner (before after : Lists) : Prop where
  add : after.add ⊆ before.add
  config : after.config.Sublist before.config
  bl : after.bl ⊆ before.bl
  rm : after.rm.Sublist before.rm
  fail : after.fail ⊆ before.fail

theorem Thinner.refl (lists : Lists) : Thinner lists lists :=
  ⟨fun _ => id, .refl _, fun _ => id, .refl _, fun _ => id⟩

theorem Thinner.empty (lists : Lists) : Thinner lists Lists.empty :=
  ⟨List.nil_subset _, List.nil_sublist _, List.nil_subset _, List.nil_sublist _,
    List.nil_subset _⟩

/-- The records in the slots and in the lists. -/
theorem Engine.mem_references {engine : Engine} {record : NodeId} :
    record ∈ engine.references ↔ record ∈ engine.managed ∨ record ∈ engine.lists.add ∨
      record ∈ engine.lists.bl ∨ record ∈ engine.lists.fail := by
  simp only [Engine.references, List.mem_append, or_assoc]

/-- A record in a slot. -/
theorem Engine.mem_held {engine : Engine} {slot : Slot} {record : NodeId}
    (here : (engine.cache slot).node = some record) : record ∈ engine.held :=
  List.mem_filterMap.mpr ⟨slot, List.mem_finRange slot, here⟩

namespace EngineHeld

variable {others : List NodeId} {engine after : Engine} {slot : Slot}

/-- A step that keeps the records, and no more pointers than there were. -/
theorem of_subset (held : EngineHeld others engine) (housed : after.Housed)
    (once : after.managed.Nodup) {fewer : List NodeId}
    (fewerRefs : ∀ record ∈ after.references ++ fewer, record ∈ engine.references ++ others)
    (keeps : CfgDb.Keeps (engine.references ++ others) engine.host.db after.host.db) :
    EngineHeld fewer after := by
  obtain ⟨lodged, stays⟩ := keeps held.lodged
  refine ⟨housed, once, lodged, ?_⟩
  intro record member
  have before := fewerRefs record member
  exact stays record before (held.known record before)

/-- The work of the slots, by its account. -/
theorem of_conserves (held : EngineHeld others engine) (housed : after.Housed)
    {departures : List Departure} (account : Conserves engine [] departures after)
    (add : after.lists.add = engine.lists.add) (bl : after.lists.bl = engine.lists.bl)
    (keeps : CfgDb.Keeps (engine.references ++ others) engine.host.db after.host.db) :
    EngineHeld others after := by
  have nodes := account.nodes
  rw [List.append_nil] at nodes
  have distinct := nodes.nodup_iff.mp held.once
  apply held.of_subset housed (List.nodup_append.mp distinct).1 _ keeps
  intro record member
  rw [List.mem_append, Engine.mem_references] at member ⊢
  rcases member with (managed | isAdd | isBl | failed) | other
  · exact .inl (.inl (nodes.mem_iff.mpr (List.mem_append_left _ managed)))
  · exact .inl (.inr (.inl (add ▸ isAdd)))
  · exact .inl (.inr (.inr (.inl (bl ▸ isBl))))
  · rw [account.fail, List.mem_append] at failed
    rcases failed with before | departed
    · exact .inl (.inr (.inr (.inr before)))
    · left; left
      apply nodes.mem_iff.mpr
      apply List.mem_append_right
      obtain ⟨departure, isFailed, same⟩ := List.mem_map.mp departed
      have member := List.mem_reverse.mp (List.mem_filter.mp isFailed).1
      exact List.mem_map.mpr ⟨departure, member, same⟩
  · exact .inr other

/-- The records may be written, and lists may lose entries. -/
theorem moved (held : EngineHeld others engine)
    (keeps : CfgDb.Keeps (engine.references ++ others) engine.host.db after.host.db)
    (used : after.used = engine.used) (cache : after.cache = engine.cache)
    (thinner : Thinner engine.lists after.lists) {fewer : List NodeId}
    (fewerOthers : fewer ⊆ others) :
    EngineHeld fewer after := by
  have sameHeld : after.held = engine.held := by rw [Engine.held, cache, Engine.held]
  have managed : after.managed.Sublist engine.managed := by
    rw [Engine.managed, sameHeld]
    exact (thinner.config.append thinner.rm).append_right _
  refine held.of_subset ⟨?_, ?_⟩ (held.once.sublist managed) ?_ keeps
  · rw [used, cache]
    exact held.housed.bits
  · unfold Engine.occupied
    rw [used, cache]
    exact held.housed.working
  · intro record member
    rw [List.mem_append, Engine.mem_references] at member ⊢
    rcases member with (inside | isAdd | isBl | failed) | other
    · exact .inl (.inl (managed.subset inside))
    · exact .inl (.inr (.inl (thinner.add isAdd)))
    · exact .inl (.inr (.inr (.inl (thinner.bl isBl))))
    · exact .inl (.inr (.inr (.inr (thinner.fail failed))))
    · exact .inr (fewerOthers other)

/-- The round of a slot. -/
theorem round (held : EngineHeld others engine) {input : RoundInput}
    (occupied : engine.occupied slot = true) (spares : engine.RemovalSpares others slot)
    (step : RoundStep input engine slot after) : EngineHeld others after := by
  obtain ⟨housed, departures, account⟩ := step.conserves held.housed occupied
  -- the first half of the round does not decide anew where the slot goes, unless it fails
  have arrives : ∀ {middle cache : ConfigCache} {between host : Host}
      {targets : List AccStateOps},
      ExceptionStep engine.state slot input (engine.cache slot) engine.host middle between →
      leaveTargets middle = .ok targets →
      Arrived targets slot input.entry middle between cache host →
      CfgDb.Keeps (engine.references ++ others) engine.host.db host.db := by
    intro middle cache between host targets exception leaves arrived
    refine (exception.work.keeps _).trans (arrived.keeps leaves ?_)
    intro clean opened record here
    obtain ⟨before, same⟩ := exception.unfailed clean
    rw [exception.db_eq]
    exact spares before (same.symm.trans opened) record (exception.sameWork.2.symm.trans here)
  cases step with
  | stays exception _ =>
      exact held.of_conserves housed account rfl rfl (exception.work.keeps _)
  | moves exception _ leaves arrived _ =>
      exact held.of_conserves housed account rfl rfl (arrives exception leaves arrived)
  | ends exception _ leaves arrived _ =>
      have keeps := arrives exception leaves arrived
      exact held.of_conserves housed account rfl rfl keeps

/-- One call of `acc_loop`. -/
theorem accLoop {now : Nat} {input : Slot → RoundInput} (held : EngineHeld others engine)
    (guarded : ∀ prepared, accPrepare now engine = some prepared →
      LoopGuarded (fun engine slot => engine.RemovalSpares others slot)
        (fun engine slot => engineSlot (input slot) engine slot) prepared
        (usedSlots prepared.used))
    (done : Nwmng.accLoop now input engine = .ok after) : EngineHeld others after := by
  refine @accLoop_guarded (EngineHeld others)
    (fun _ engine slot => engine.RemovalSpares others slot) ?_ ?_ ?_ _ _ _ _ held guarded done
  · intro input middle slot last kept occupied spares step
    exact kept.round occupied spares step
  · intro middle type node rest slot kept pending vacant
    have account := Conserves.load kept.housed pending vacant
    apply kept.of_conserves (kept.housed.load node type _) account
    · cases type <;> rfl
    · cases type <;> rfl
    · cases type <;> exact .refl _ _
  · intro middle stat kept
    exact ⟨kept.housed.around _ _ _, kept.once, kept.lodged, kept.known⟩

/-- A device that joins comes to the end of the list of nodes to configure.  Its record is the one
that was found under its UUID. -/
theorem onProvSuccess {uuid : Uuid} {addr : UInt16} (held : EngineHeld others engine)
    (nonzero : addr ≠ 0)
    (templated : ∀ record, engine.host.db.cfgdbUnprovDevGet uuid = some record →
      (engine.host.db.heap record).hasTemplate = true)
    (unmanaged : ∀ record, engine.host.db.cfgdbUnprovDevGet uuid = some record →
      record ∉ engine.managed)
    (spares : engine.host.db.Spares (engine.references ++ others) (.nodes addr))
    (done : engine.onProvSuccess uuid addr = .ok after) : EngineHeld others after := by
  obtain ⟨housed, account⟩ := onProvSuccess_conserves held.housed done
  simp only [Engine.onProvSuccess, bind_ok] at done
  obtain ⟨db, moves, done⟩ := done
  cases found : db.cfgdbNodeGet addr with
  | none => simp [found] at done
  | some record =>
      simp only [found, Except.ok.injEq] at done
      subst done
      have device := CfgDb.device_of_uplNodesetAddr nonzero moves found
      obtain ⟨lodged, stays⟩ :=
        CfgDb.Keeps.uplNodesetAddr nonzero templated spares moves held.lodged
      have arrival : (WorkOp.provisioned uuid addr).arrivals engine = [record] := by
        simp [WorkOp.arrivals, moves, found]
      have nodes := account.nodes
      rw [arrival, List.map_nil, List.append_nil] at nodes
      refine ⟨housed, ?_, lodged, ?_⟩
      · apply nodes.nodup_iff.mp
        refine List.nodup_append.mpr ⟨held.once, List.nodup_singleton record, ?_⟩
        rintro other member _ single rfl
        rw [List.mem_singleton.mp single] at member
        exact unmanaged record device member
      · intro other member
        by_cases same : other = record
        · subst same
          refine ⟨.nodes addr, ?_, found⟩
          intro backlog
          cases backlog
        · have before : other ∈ engine.references ++ others := by
            rw [List.mem_append, Engine.mem_references] at member ⊢
            rcases member with (managed | isAdd | isBl | failed) | remains
            · have either := List.mem_append.mp (nodes.mem_iff.mpr managed)
              exact .inl (.inl (either.resolve_right fun single =>
                same (List.mem_singleton.mp single)))
            · exact .inl (.inr (.inl (List.mem_of_mem_erase isAdd)))
            · exact .inl (.inr (.inr (.inl isBl)))
            · exact .inl (.inr (.inr (.inr failed)))
            · exact .inr remains
          exact stays other before (held.known other before)

/-- An event of the configuration client. -/
theorem devConfigHdr {packet : ConfigEvent} {input : EventInput} (held : EngineHeld others engine)
    (done : Nwmng.devConfigHdr packet input engine = .ok after) : EngineHeld others after := by
  obtain ⟨housed, departures, account⟩ := devConfigHdr_settled held.housed done
  obtain ⟨slot, cache, host, _, step, rfl⟩ := devConfigHdr_step done
  exact held.of_conserves housed account rfl rfl (step.work.keeps _)

end EngineHeld

end Nwmng
