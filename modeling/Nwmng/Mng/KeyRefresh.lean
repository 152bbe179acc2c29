/-
Module: Nwmng.Mng.KeyRefresh
Purpose: Which nodes the database records as blacklisted over whole runs, and what a
key refresh that fails changes.
Trusted boundary: the NCP completes a key refresh only while one is running
Main exports:
  blacklistNodes_heap, BlOp.Recorded, BlOp.Clean, recorded_guarded,
  failed_refresh_blacklists
-/
import Nwmng.Mng.Cursors

namespace Nwmng

open Transition Fallible

/-! ## What the end of a batch writes -/

/-- An addition to the unprovisioned devices adds nothing to the nodes. -/
theorem CfgDb.get_of_get_cfgdbAdd {db : CfgDb} {record other : NodeId} {addr : UInt16}
    (found : (db.cfgdbAdd record .unprovDevs).get (.nodes addr) = some other) :
    db.get (.nodes addr) = some other := by
  have elsewhere : (db.heap record).spotIn .unprovDevs ≠ .nodes addr := by
    rw [Node.spotIn]
    simp
  rcases db.cfgdbAdd_cases record .unprovDevs with same | ⟨spot, same⟩ | same <;>
    rw [same] at found
  · exact found
  · rw [CfgDb.get_set, if_neg elsewhere] at found
    exact (CfgDb.get_of_get_erase found).2
  · rw [CfgDb.get_set, if_neg elsewhere] at found
    exact found

/-- Blacklisting an address writes the record that is found under it, and no other;
it puts no record among the nodes. -/
theorem CfgDb.nodesBl_ok {db after : CfgDb} {addr : UInt16}
    (blacklists : db.nodesBl addr = .ok after) :
    ∃ record, db.cfgdbNodeGet addr = some record ∧
      (∀ other, other ≠ record → after.heap other = db.heap other) ∧
      ∀ place other, after.get (.nodes place) = some other →
        db.get (.nodes place) = some other := by
  unfold CfgDb.nodesBl at blacklists
  split at blacklists
  case h_2 => cases blacklists
  case h_1 record found =>
    cases blacklists
    refine ⟨record, found, fun other different => ?_, fun place other kept => ?_⟩
    · rw [CfgDb.heap_cfgdbAdd, CfgDb.heap_update_of_ne _ _ different]
      simp [CfgDb.cfgdbRemove]
    · have before := CfgDb.get_of_get_cfgdbAdd kept
      rw [CfgDb.get_update, CfgDb.cfgdbRemove] at before
      exact (CfgDb.get_of_get_erase before).2

/-- The nodes are distinct, and none of them finds another record under its address.  The machine
records a node by its address, so two nodes with one address would be recorded together. -/
structure CfgDb.Distinguished (db : CfgDb) (nodes : List NodeId) : Prop where
  nodup : nodes.Nodup
  own : ∀ node ∈ nodes, ∀ found ∈ db.cfgdbNodeGet (db.heap node).addr, found = node

instance (db : CfgDb) (nodes : List NodeId) : Decidable (db.Distinguished nodes) :=
  decidable_of_iff
    (nodes.Nodup ∧
      ∀ node ∈ nodes, ∀ found ∈ db.cfgdbNodeGet (db.heap node).addr, found = node)
    ⟨fun both => ⟨both.1, both.2⟩, fun both => ⟨both.nodup, both.own⟩⟩

/-- The loop writes no record but those of its nodes.  Each is found by its address. -/
theorem blacklistNodes_heap {nodes : List NodeId} {db after : CfgDb}
    (distinguished : db.Distinguished nodes)
    (blacklists : blacklistNodes nodes db = .ok after) :
    ∀ record, record ∉ nodes → after.heap record = db.heap record := by
  induction nodes generalizing db with
  | nil =>
      cases blacklists
      intro record _
      rfl
  | cons node rest hypothesis =>
      rw [blacklistNodes, List.foldlM_cons] at blacklists
      obtain ⟨middle, first, later⟩ := bind_ok.mp blacklists
      obtain ⟨found, lookup, others, places⟩ := CfgDb.nodesBl_ok first
      obtain ⟨fresh, nodup⟩ := List.nodup_cons.mp distinguished.nodup
      have self : found = node := distinguished.own node List.mem_cons_self found lookup
      subst self
      have still : middle.Distinguished rest := by
        refine ⟨nodup, fun later member other under => ?_⟩
        have different : later ≠ found := by
          rintro rfl
          exact fresh member
        rw [others later different] at under
        exact distinguished.own later (List.mem_cons_of_mem _ member) other
          (places _ _ under)
      intro record absent
      obtain ⟨different, outside⟩ := not_or.mp fun member => absent (List.mem_cons.mpr member)
      rw [hypothesis still later record outside, others record different]

/-!
## Which nodes are recorded

A record may be written as blacklisted when its node was pushed and the key refresh behind the
push succeeded.  The machine does not look at the result, so the invariant has to carry it.
-/

/-- The step is one of the machine. -/
def BlOp.internal : BlOp → Bool
  | .outside _ => false
  | _ => true

/-- What a step of the machine may write: the record of a node only if the node was
pushed and a key refresh started behind the push has completed with result 0, and
neither a record nor a key at the end of a key refresh that failed. -/
structure BlOp.Recorded (move : Move Mng BlOp) : Prop where
  written : move.label.internal = true →
    ∀ record, move.target.db.heap record ≠ move.source.db.heap record →
      Covered move.source.history 0 record
  failed : ∀ key result rsp, move.label = .receive (.complete key result) rsp →
    result ≠ 0 → move.target.db = move.source.db ∧ move.target.cfg = move.source.cfg

/-- The key refresh succeeds, and the nodes between the cursors are still found under
their addresses when it is over. -/
def BlOp.Clean (mng : Mng) : BlOp → Prop
  | .iterate _ => mng.bl.state = .done → mng.db.Distinguished mng.batch
  | .receive (.complete _ result) _ => result = 0
  | _ => True

instance (mng : Mng) : (op : BlOp) → Decidable (op.Clean mng)
  | .iterate _ =>
      inferInstanceAs (Decidable (mng.bl.state = .done → mng.db.Distinguished mng.batch))
  | .receive (.complete _ result) _ => inferInstanceAs (Decidable (result = 0))
  | .receive (.nodeUpdate ..) _ => isTrue trivial
  | .receive (.phaseUpdate ..) _ => isTrue trivial
  | .outside _ => isTrue trivial

instance (history : List BlEffect) (result : UInt16) (node : NodeId) :
    Decidable (Covered history result node) :=
  inferInstanceAs (Decidable (List.Sublist _ _))

/-- The key refresh that the machine is about to record has succeeded.  The machine goes to
`done` when a procedure ends, and only then looks at how it ended. -/
structure Succeeded (mng : Mng) : Prop extends BlInvariant mng where
  last : mng.bl.state = .done → (procedure mng.history).head? = some (.completed 0)

theorem Mng.batch_subset (mng : Mng) :
    ∀ node ∈ mng.batch, node ∈ mng.lists.bl.take mng.bl.offset := by
  intro node member
  exact List.mem_of_mem_drop member

/-- The nodes between the cursors are covered by the key refresh that has succeeded. -/
theorem Succeeded.covered {mng : Mng} (succeeded : Succeeded mng)
    (state : mng.bl.state = .done) : ∀ node ∈ mng.batch, Covered mng.history 0 node := by
  intro node member
  have stage := succeeded.stage
  simp only [Stage, state] at stage
  obtain ⟨-, -, -, result, history⟩ := stage
  have last := succeeded.last state
  rw [history] at last
  cases last
  have push : BlEffect.pushed node ∈ mng.passed := by
    rw [Mng.passed, List.mem_reverse]
    exact List.mem_map_of_mem (mng.batch_subset node member)
  rw [Covered, history]
  exact ((List.singleton_sublist.mpr push).cons_cons _).cons_cons _

theorem Succeeded.iterate {input : BlInput} {before after : Mng}
    (succeeded : Succeeded before) (step : BlStep input before after) :
    Succeeded after := by
  refine ⟨succeeded.toBlInvariant.iterate step, fun done => ?_⟩
  cases step with
  | inactive state => exact succeeded.last done
  | waits state => exact succeeded.last done
  | begins rem sent state =>
      simp only [Mng.setBlState] at done
      split at done <;> cases done
  | pushes sent state =>
      simp only [Mng.setBlState] at done
      split at done <;> cases done
  | starts => cases done
  | more => cases done
  | ends => cases done

/-- Every clean step keeps the invariant. -/
theorem Succeeded.step {before after : Mng} {op : BlOp} (succeeded : Succeeded before)
    (clean : op.Clean before) (taken : op.Step before after) : Succeeded after := by
  have inv := succeeded.toBlInvariant.step taken
  obtain ⟨possible, runs⟩ := taken
  cases op with
  | iterate input => exact succeeded.iterate (blLoop_step runs)
  | receive packet rsp =>
      refine ⟨inv, fun done => ?_⟩
      rcases blHdr_cases runs with ⟨rem, rfl⟩ | ⟨key, result, cfg, rfl, rfl, -⟩
      · exact succeeded.last done
      · have zero : result = 0 := clean
        rw [zero]
        rfl
  | outside outcome =>
      cases runs
      obtain ⟨machine, history, -⟩ := possible
      refine ⟨inv, fun done => ?_⟩
      rw [machine] at done
      rw [history]
      exact succeeded.last done

/-- A call of the loop writes the records of nodes that are covered. -/
theorem Succeeded.writes {input : BlInput} {before after : Mng}
    (succeeded : Succeeded before) (clean : (BlOp.iterate input).Clean before)
    (step : BlStep input before after) (record : NodeId)
    (written : after.db.heap record ≠ before.db.heap record) :
    Covered before.history 0 record := by
  have covers : ∀ db, before.bl.state = .done →
      blacklistNodes before.batch before.db = .ok db →
      db.heap record ≠ before.db.heap record → Covered before.history 0 record := by
    intro db state blacklists written
    apply succeeded.covered state
    by_contra absent
    exact written (blacklistNodes_heap (clean state) blacklists record absent)
  cases step with
  | more db state blacklists => exact covers db state blacklists written
  | ends db state blacklists => exact covers db state blacklists written
  | inactive => exact absurd rfl written
  | begins => exact absurd rfl written
  | pushes => exact absurd rfl written
  | starts => exact absurd rfl written
  | waits => exact absurd rfl written

/-- An event writes no record, and no key if it reports a failure. -/
theorem blHdr_frame {packet : BlEvent} {rsp : KeyRsp} {before after : Mng}
    (handled : blHdr packet rsp before = .ok after) :
    after.db = before.db ∧
      ∀ key result, packet = .complete key result → result ≠ 0 → after.cfg = before.cfg := by
  rcases blHdr_cases handled with ⟨rem, rfl⟩ | ⟨_, _, cfg, rfl, rfl, unchanged⟩
  · exact ⟨rfl, fun _ _ _ _ => rfl⟩
  · refine ⟨rfl, ?_⟩
    rintro key result same failed
    cases same
    exact unchanged failed

theorem Succeeded.recorded {move : Move Mng BlOp} (succeeded : Succeeded move.source)
    (clean : move.label.Clean move.source)
    (taken : move.label.Step move.source move.target) : BlOp.Recorded move := by
  obtain ⟨source, op, target⟩ := move
  have runs : BlOp.run source op = .ok target := taken.2
  refine ⟨fun internal record written => ?_, ?_⟩
  · cases op with
    | iterate input => exact succeeded.writes clean (blLoop_step runs) record written
    | receive packet rsp =>
        have same : target.db = source.db := (blHdr_frame runs).1
        exact absurd (congrArg (fun db => CfgDb.heap db record) same) written
    | outside outcome => cases internal
  · intro key result rsp label failed
    cases label
    have handled : blHdr (.complete key result) rsp source = .ok target := runs
    obtain ⟨records, keys⟩ := blHdr_frame handled
    exact ⟨records, keys key result rfl failed⟩

theorem Mng.BlFresh.succeeded {mng : Mng} (fresh : mng.BlFresh) : Succeeded mng where
  toBlInvariant := fresh.invariant
  last := by
    intro done
    rw [fresh.1] at done
    cases done

/-- In a run in which no key refresh fails, a node is recorded as blacklisted only behind the key
refresh that covers it.  The condition is on the events, since the program records the nodes
whatever the result was. -/
theorem recorded_guarded {initial final : Mng} {past : List (Move Mng BlOp)}
    (run : BlRun initial past final) (fresh : initial.BlFresh)
    (clean : Guarded (fun source op => op.Clean source) past) :
    ∀ move ∈ past, BlOp.Recorded move := by
  have kept : ∀ source op target, Succeeded source → op.Clean source →
      BlOp.Step source op target → Succeeded target := by
    intro source op target succeeded clean taken
    exact succeeded.step clean taken
  intro move member
  have sides := (run.guarded_invariant kept fresh.succeeded clean).1 move member
  exact sides.1.recorded (clean move member) (run.steps_taken move member)

/-- A key refresh that succeeds. -/
theorem recorded_guarded_success :
    ∃ past final, BlRun Mng.listing past final ∧ (final.db.heap 0).addr = 0 ∧
      ∀ move ∈ past, BlOp.Recorded move := by
  have passed : replays BlOp.run Mng.listing
      [.iterate (.all bgErrSuccess), .iterate (.all bgErrSuccess),
        .receive (.complete 1 0) .found, .iterate (.all bgErrSuccess)]
      (fun past final =>
        decide (Guarded (fun source op => BlOp.Possible source op) past) &&
          decide (Guarded (fun source op => BlOp.Clean source op) past ∧
            (final.db.heap 0).addr = 0)) = true := by
    decide +kernel
  obtain ⟨past, final, run, -, reached⟩ := blRun_of_replays passed
  obtain ⟨clean, cleared⟩ := of_decide_eq_true reached
  exact ⟨past, final, run, cleared, recorded_guarded run Mng.listing_fresh clean⟩

/-- A key refresh that fails: the node is recorded as blacklisted all the same. -/
theorem failed_refresh_blacklists :
    ∃ past final, BlRun Mng.listing past final ∧ (final.db.heap 0).addr = 0 ∧
      final.db.get (.nodes 2) = none ∧ ¬ ∀ move ∈ past, BlOp.Recorded move := by
  have passed : replays BlOp.run Mng.listing
      [.iterate (.all bgErrSuccess), .iterate (.all bgErrSuccess),
        .receive (.complete 1 bgErrTimeout) .found, .iterate (.all bgErrSuccess)]
      (fun past final =>
        decide (Guarded (fun source op => BlOp.Possible source op) past) &&
          decide ((final.db.heap 0).addr = 0 ∧ final.db.get (.nodes 2) = none ∧
            ∃ move ∈ past, move.label.internal = true ∧
              move.target.db.heap 0 ≠ move.source.db.heap 0 ∧
              ¬ Covered move.source.history 0 0)) = true := by
    decide +kernel
  obtain ⟨past, final, run, same, reached⟩ := blRun_of_replays passed
  obtain ⟨cleared, gone, move, member, internal, written, uncovered⟩ :=
    of_decide_eq_true reached
  refine ⟨past, final, run, cleared, gone, fun every => uncovered ?_⟩
  exact (every move member).written internal 0 written

end Nwmng
