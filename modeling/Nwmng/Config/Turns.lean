/-
Module: Nwmng.Config.Turns
Purpose: What the success of a command and the entry of a state lead to in two slots that do the
same work, under different answers of the NCP.
Trusted boundary: none
Main exports:
  CmdRsp.Fine, ConfigCache.Calm, Turned, inprg_turned, Entering, entry_entering
-/
import Mathlib
import Nwmng.Config.Asking

namespace Nwmng

open Fallible

/-!
## What a success leads to

Two slots do the same work and have waited for the same status.  A success leads them to the same
next command or the same next state; what differs are the answers that they get on the way.
-/

/-- The NCP takes the command, or has no memory for it.  A refusal is not among the answers: a
refused command is given up, and cannot be made up for by a retry. -/
def CmdRsp.Fine (answer : CmdRsp) : Prop :=
  answer.result = bgErrSuccess ∨ answer.result = bgErrOutOfMemory

instance fineDecidable (answer : CmdRsp) : Decidable answer.Fine :=
  inferInstanceAs (Decidable (_ ∨ _))

/-- The slot waits for nothing, and nothing is to be sent again.  In such a slot two runs meet
again, whatever the one of them went through before. -/
structure ConfigCache.Calm (cache : ConfigCache) : Prop where
  idle : cache.waitResponse = false
  fresh : cache.everRetried = false
  memory : cache.oom = false

/-- Two outcomes of the same step of the work, under different answers: both send the command of
the place they are at, in the state they were in, or both send nothing. -/
inductive Turned (state : AccState) (slot : Slot) (before : ConfigCache) (answer easy : CmdRsp) :
    Outcome → Outcome → Prop where
  | asks {command : Command} {cache other : ConfigCache} {host between : Host} {vnm vnm' : Vnm}
      (alike : Alike cache other host between)
      (request : requestOf state cache host = .ok (some command))
      (calm : cache.Calm) (calm' : other.Calm) (same : cache.state = before.state)
      (next : cache.nextState = before.nextState) :
      Turned state slot before answer easy
        (send (finalOf state) slot command answer { cache with vnm := vnm } host)
        (send (finalOf state) slot command easy { other with vnm := vnm' } between)
  | silent {cache other : ConfigCache} {host between : Host}
      (alike : Alike cache other host between) (calm : cache.Calm) (calm' : other.Calm) :
      Turned state slot before answer easy { ret := .suc, cache := cache, host := host }
        { ret := .suc, cache := other, host := between }

section

variable {state : AccState} {slot : Slot} {answer easy : CmdRsp} {cache other : ConfigCache}
variable {host between : Host} {out : Outcome} {before : ConfigCache}

theorem send_known {command : Command} :
    (send (finalOf state) slot command answer cache host).ret ≠ .notfnd := by
  unfold send
  split
  · split
    · intro impossible
      cases impossible
    · intro impossible
      cases impossible
  · intro impossible
    cases impossible

/-- A slot that sends, and one that does the same work. -/
theorem once_turned (sends : isCommandState state = true) (other_ : state ≠ .setconfigEm)
    (alike : Alike cache other host between) (calm : cache.Calm) (calm' : other.Calm)
    (same : cache.state = before.state) (next : cache.nextState = before.nextState)
    (taken : onceOf state slot answer cache host = .ok out) :
    ∃ out', onceOf state slot easy other between = .ok out' ∧
      Turned state slot before answer easy out out' := by
  obtain ⟨request, asked⟩ := request_of_once taken
  obtain ⟨command, rfl⟩ := request_some sends other_ asked
  obtain ⟨vnm, first⟩ := once_asks asked slot answer
  have again : requestOf state other between = .ok (some command) :=
    (alike.request state).trans asked
  obtain ⟨vnm', second⟩ := once_asks again slot easy
  rw [first] at taken
  cases taken
  exact ⟨_, second, .asks alike asked calm calm' same next⟩

/-- Finishing a state records the same completion. -/
theorem finish_alike (alike : Alike cache other host between) (calm : cache.Calm)
    (calm' : other.Calm) (taken : finish cache host = .ok out) :
    ∃ out', finish other between = .ok out' ∧ Turned state slot before answer easy out out' := by
  simp only [finish, bind_ok] at taken
  obtain ⟨⟨id, node⟩, found, taken⟩ := taken
  cases taken
  refine ⟨_, by simp only [finish, alike.nodeOf, found, ok_bind]; rfl, ?_⟩
  refine .silent ⟨?_, alike.shared⟩ ⟨calm.idle, calm.fresh, calm.memory⟩
    ⟨calm'.idle, calm'.fresh, calm'.memory⟩
  exact congrArg (fun slot : ConfigCache => { slot with nextState := none }) alike.slot

theorem Alike.answered (alike : Alike cache other host between) :
    Alike cache.answered other.answered host between :=
  ⟨alike.slot, alike.shared⟩

theorem Alike.cleared (alike : Alike cache other host between) :
    Alike cache.answered.retryClear other.answered.retryClear host between :=
  ⟨alike.slot, alike.shared⟩

theorem ConfigCache.cleared_calm (memory : cache.oom = false) : cache.answered.retryClear.Calm :=
  ⟨rfl, rfl, memory⟩

/-- A success in a state that goes through a list. -/
theorem statusInprg_turned {ops : StatusOps} (regular : ops.Regular) (lawful : ops.Lawful state)
    (sends : isCommandState state = true) (once : ops.once = onceOf state) {handle : UInt32}
    (alike : Alike cache other host between) (memory : cache.oom = false)
    (memory' : other.oom = false)
    (taken : statusInprg ops slot (.status ops.kind handle bgErrSuccess) answer cache host =
      .ok out) :
    ∃ out', statusInprg ops slot (.status ops.kind handle bgErrSuccess) easy other between =
      .ok out' ∧ Turned state slot cache answer easy out out' := by
  simp only [statusInprg, ne_eq, not_true, if_false, bind_ok] at taken
  obtain ⟨accepted, accepts, taken⟩ := taken
  cases accepted with
  | none => exact absurd accepts lawful.rejects
  | some after =>
      obtain ⟨rfl, acceptsToo⟩ := regular.accepts accepts
      have second :
          ops.accept bgErrSuccess { other.timerClear with waitResponse := false } between =
            .ok (some other.answered.retryClear) := acceptsToo alike.answered
      simp only [bind_ok] at taken
      obtain ⟨⟨finished, iterated⟩, iterates, taken⟩ := taken
      have iteratesToo := regular.iterates iterates alike.cleared
      have same := lawful.iter iterates
      have moved := alike.cleared.advanced iterated.iterators
      simp only [statusInprg, ne_eq, not_true, if_false, second, iteratesToo, ok_bind]
      rw [same] at taken
      cases finished with
      | true =>
          simp only [if_true] at taken ⊢
          exact finish_alike moved ⟨rfl, rfl, memory⟩ ⟨rfl, rfl, memory'⟩ taken
      | false =>
          simp only [Bool.false_eq_true, if_false] at taken ⊢
          rw [once] at taken ⊢
          exact once_turned sends lawful.iterates.2.2 moved ⟨rfl, rfl, memory⟩
            ⟨rfl, rfl, memory'⟩ rfl rfl taken

theorem Alike.db (alike : Alike cache other host between) : between.db = host.db :=
  @Alike.reads _ _ _ _ _ alike (fun _ host => host.db) fun _ _ => rfl

theorem Alike.cfg (alike : Alike cache other host between) : between.cfg = host.cfg :=
  @Alike.reads _ _ _ _ _ alike (fun _ host => host.cfg) fun _ _ => rfl

/-- The same change of the records. -/
theorem Alike.written (alike : Alike cache other host between) (db : CfgDb) :
    Alike cache other { host with db := db } { between with db := db } where
  slot := alike.slot
  shared := congrArg (fun shared : Host => { shared with db := db }) alike.shared

/-- A success while the features are set. -/
theorem setconfigInprg_turned {kind : StatusKind} {which : Nat} {handle : UInt32}
    (speaks : featureOf kind = some which) (alike : Alike cache other host between)
    (memory : cache.oom = false) (memory' : other.oom = false)
    (taken : setconfigInprg slot (.status kind handle bgErrSuccess) answer cache host = .ok out) :
    ∃ out', setconfigInprg slot (.status kind handle bgErrSuccess) easy other between = .ok out' ∧
      Turned .setconfigEm slot cache answer easy out out' := by
  simp only [setconfigInprg, speaks, if_true, bind_ok] at taken
  obtain ⟨⟨id, node⟩, found, _, told, ⟨id', node'⟩, again, taken⟩ := taken
  let db := host.db.update id (onFeatureConfigured which)
  have set : Alike cache.answered.retryClear other.answered.retryClear { host with db := db }
      { between with db := db } := alike.cleared.written db
  have calm : cache.answered.retryClear.Calm := ConfigCache.cleared_calm memory
  have calm' : other.answered.retryClear.Calm := ConfigCache.cleared_calm memory'
  have foundToo : between.nodeOf { other.timerClear with waitResponse := false } =
      .ok (id, node) := alike.answered.nodeOf.trans found
  have againToo : ({ between with db := db } : Host).nodeOf
      ({ other.timerClear with waitResponse := false } : ConfigCache).retryClear =
        .ok (id', node') := set.nodeOf.trans again
  simp only [setconfigInprg, speaks, if_true, foundToo, told, ok_bind, alike.db]
  change ∃ out', ((({ between with db := db } : Host).nodeOf _ >>= fun _ => _) :
    Except Abort Outcome) = _ ∧ _
  rw [againToo, ok_bind]
  dsimp only
  by_cases done : nextConfigItem node'.config.features = none
  · rw [if_pos done] at taken ⊢
    exact finish_alike set calm calm' taken
  · rw [if_neg done] at taken ⊢
    obtain ⟨middle, sent, taken⟩ := bind_ok.mp taken
    change onceOf .setconfigEm slot answer cache.answered.retryClear { host with db := db } =
      .ok middle at sent
    change ∃ out', ((onceOf .setconfigEm slot easy other.answered.retryClear
      { between with db := db } >>= fun _ => _) : Except Abort Outcome) = _ ∧ _
    obtain ⟨request, asked⟩ := request_of_once sent
    have askedToo := (set.request .setconfigEm).trans asked
    cases request with
    | none =>
        rw [once_silent asked] at sent
        cases sent
        rw [once_silent askedToo, ok_bind]
        simp only [if_true] at taken ⊢
        exact finish_alike set calm calm' taken
    | some command =>
        obtain ⟨vnm, first⟩ := once_asks asked slot answer
        obtain ⟨vnm', second⟩ := once_asks askedToo slot easy
        rw [first] at sent
        cases sent
        rw [second, ok_bind]
        rw [if_neg send_known] at taken ⊢
        cases taken
        exact ⟨_, rfl, .asks set asked calm calm' rfl rfl⟩

theorem afterDcd_bare (err : BitVec 32) (cache : ConfigCache) :
    (afterDcd err cache).bare = afterDcd err cache.bare := by
  unfold afterDcd
  split
  · split
    · rfl
    · rfl
  · rfl

theorem afterDcd_calm {err : BitVec 32} (calm : cache.Calm) : (afterDcd err cache).Calm := by
  unfold afterDcd
  split
  · split
    · exact ⟨calm.idle, calm.fresh, calm.memory⟩
    · exact calm
  · exact ⟨calm.idle, calm.fresh, calm.memory⟩

/-- The end of the composition data. -/
theorem getdcdInprg_turned {handle : UInt32} (alike : Alike cache other host between)
    (memory : cache.oom = false) (memory' : other.oom = false)
    (taken : getdcdInprg slot (.dcdDataEnd handle bgErrSuccess) answer cache host = .ok out) :
    ∃ out', getdcdInprg slot (.dcdDataEnd handle bgErrSuccess) easy other between = .ok out' ∧
      Turned .getDcdEm slot cache answer easy out out' := by
  simp only [getdcdInprg, if_true, bind_ok] at taken
  obtain ⟨⟨id, node⟩, found, taken⟩ := taken
  have foundToo : between.nodeOf { other.timerClear with waitResponse := false } =
      .ok (id, node) := alike.answered.nodeOf.trans found
  cases taken
  refine ⟨_, by simp only [getdcdInprg, if_true, foundToo, ok_bind]; rfl, ?_⟩
  refine .silent ⟨?_, alike.shared⟩ (afterDcd_calm ⟨rfl, rfl, memory⟩)
    (afterDcd_calm ⟨rfl, rfl, memory'⟩)
  rw [afterDcd_bare, afterDcd_bare]
  exact congrArg (afterDcd node.err) alike.cleared.slot

/-- The answer of a node that was reset. -/
theorem rmInprg_turned {handle : UInt32} (alike : Alike cache other host between)
    (memory : cache.oom = false) (memory' : other.oom = false)
    (taken : rmInprg slot (.status .reset handle bgErrSuccess) answer cache host = .ok out) :
    ∃ out', rmInprg slot (.status .reset handle bgErrSuccess) easy other between = .ok out' ∧
      Turned .rmEm slot cache answer easy out out' := by
  simp only [rmInprg, if_true, Except.ok.injEq] at taken
  rw [← taken]
  refine ⟨_, by simp only [rmInprg, if_true]; rfl, ?_⟩
  refine .silent ⟨?_, alike.shared⟩ ⟨rfl, rfl, memory⟩ ⟨rfl, rfl, memory'⟩
  exact congrArg (fun slot : ConfigCache => { slot with nextState := none }) alike.slot

/-- The status event that a state of the usual kind waits for. -/
theorem StatusOps.Lawful.packet {ops : StatusOps} (lawful : ops.Lawful state)
    {packet : ConfigEvent} {result : UInt16} (own : ownStatus state packet = some result) :
    ∃ handle, packet = .status ops.kind handle result := by
  by_cases known : ∃ handle other, packet = .status ops.kind handle other
  · obtain ⟨handle, other, rfl⟩ := known
    have same := lawful.own handle other
    rw [own] at same
    cases same
    exact ⟨handle, rfl⟩
  · have foreign := (lawful.foreign packet fun handle other same => known ⟨handle, other, same⟩).1
    rw [own] at foreign
    cases foreign

/-- Whatever the state, the success of its command leads to the same turn of the work.  One case
for each state of the table, with the work in the lemmas about each. -/
theorem inprg_turned {ops : AccStateOps} (member : ops ∈ accStates)
    {inprg : Slot → ConfigEvent → CmdRsp → ConfigCache → Host → Except Abort Outcome}
    (callback : ops.inprg = some inprg) {packet : ConfigEvent}
    (own : ownStatus ops.state packet = some bgErrSuccess)
    (alike : Alike cache other host between) (memory : cache.oom = false)
    (memory' : other.oom = false) (taken : inprg slot packet answer cache host = .ok out) :
    ∃ out', inprg slot packet easy other between = .ok out' ∧
      Turned ops.state slot cache answer easy out out' := by
  have usual : ∀ {sops : StatusOps} {state : AccState}, sops.Regular → sops.Lawful state →
      isCommandState state = true → sops.once = onceOf state →
      ownStatus state packet = some bgErrSuccess →
      statusInprg sops slot packet answer cache host = .ok out →
      ∃ out', statusInprg sops slot packet easy other between = .ok out' ∧
        Turned state slot cache answer easy out out' := by
    intro sops state regular lawful sends once speaks taken
    obtain ⟨handle, rfl⟩ := lawful.packet speaks
    exact statusInprg_turned regular lawful sends once alike memory memory' taken
  simp only [accStates, List.mem_cons, List.not_mem_nil, or_false] at member
  rcases member with rfl | rfl | rfl | rfl | rfl | rfl | rfl | rfl | rfl
  · cases callback
    cases packet with
    | dcdDataEnd handle result =>
        cases own
        exact getdcdInprg_turned alike memory memory' taken
    | _ => cases own
  · cases callback
    exact usual addappkeyOps_regular addappkeyOps_lawful rfl rfl own taken
  · cases callback
    exact usual bindappkeyOps_regular bindappkeyOps_lawful rfl rfl own taken
  · cases callback
    exact usual setpubOps_regular setpubOps_lawful rfl rfl own taken
  · cases callback
    exact usual addsubOps_regular addsubOps_lawful rfl rfl own taken
  · cases callback
    cases packet with
    | status kind handle result =>
        obtain ⟨which, speaks, same⟩ := Option.map_eq_some_iff.mp own
        subst same
        exact setconfigInprg_turned speaks alike memory memory' taken
    | _ => cases own
  · cases callback
  · cases callback
    cases packet with
    | status kind handle result =>
        cases kind with
        | reset =>
            cases own
            exact rmInprg_turned alike memory memory' taken
        | _ => cases own
    | _ => cases own
  · cases callback

/-! ## Entering a state -/

/-- Two entries of the same state: both are closed, or both do the same work.  Whether the guard
of a state is open depends on the record and on the composition data only, and both slots have
the same. -/
inductive Entering (state : AccState) (slot : Slot) (answer easy : CmdRsp)
    (cache other : ConfigCache) (host between : Host) : Outcome → Outcome → Prop where
  | skipped : Entering state slot answer easy cache other host between
      { ret := .tonext, cache := cache, host := host }
      { ret := .tonext, cache := other, host := between }
  | turned {out out' : Outcome} (turned : Turned state slot cache answer easy out out') :
      Entering state slot answer easy cache other host between out out'

theorem entryWith_entering {guard : GuardFn}
    (reads : ∀ cache host, guard cache.bare host.bare = guard cache host)
    (sends : isCommandState state = true) (other_ : state ≠ .setconfigEm)
    (alike : Alike cache other host between) (calm : cache.Calm) (calm' : other.Calm)
    (taken : entryWith (onceOf state) (some guard) slot answer cache host = .ok out) :
    ∃ out', entryWith (onceOf state) (some guard) slot easy other between = .ok out' ∧
      Entering state slot answer easy cache other host between out out' := by
  simp only [entryWith, bind_ok] at taken
  obtain ⟨opened, decided, taken⟩ := taken
  have decidedToo : guard other between = .ok opened := (alike.reads reads).trans decided
  simp only [entryWith, decidedToo, ok_bind]
  cases opened with
  | true =>
      simp only [if_true] at taken ⊢
      obtain ⟨out', second, turned⟩ := once_turned sends other_ alike calm calm' rfl rfl taken
      exact ⟨out', second, .turned turned⟩
  | false =>
      simp only [Bool.false_eq_true, if_false, Except.ok.injEq] at taken ⊢
      rw [← taken]
      exact ⟨_, rfl, .skipped⟩

theorem setconfigEntry_entering (alike : Alike cache other host between) (calm : cache.Calm)
    (calm' : other.Calm)
    (taken : setconfigEntry (some setconfigGuard) slot answer cache host = .ok out) :
    ∃ out', setconfigEntry (some setconfigGuard) slot easy other between = .ok out' ∧
      Entering .setconfigEm slot answer easy cache other host between out out' := by
  simp only [setconfigEntry, entryWith, bind_ok] at taken
  obtain ⟨middle, ⟨opened, decided, tried⟩, taken⟩ := taken
  have reads : ∀ cache host, setconfigGuard cache.bare host.bare = setconfigGuard cache host :=
    fun _ _ => rfl
  have decidedToo : setconfigGuard other between = .ok opened := (alike.reads reads).trans decided
  simp only [setconfigEntry, entryWith, decidedToo, ok_bind]
  cases opened with
  | false =>
      simp only [Bool.false_eq_true, if_false, Except.ok.injEq] at tried
      rw [← tried] at taken
      simp only [reduceCtorEq, if_false, Except.ok.injEq] at taken
      rw [← taken]
      refine ⟨_, rfl, .skipped⟩
  | true =>
      simp only [if_true] at tried ⊢
      change onceOf .setconfigEm slot answer cache host = .ok middle at tried
      change ∃ out', ((onceOf .setconfigEm slot easy other between >>= fun _ => _) :
        Except Abort Outcome) = _ ∧ _
      obtain ⟨request, asked⟩ := request_of_once tried
      have askedToo := (alike.request .setconfigEm).trans asked
      cases request with
      | none =>
          rw [once_silent asked] at tried
          cases tried
          rw [once_silent askedToo, ok_bind]
          simp only [if_true, Except.ok.injEq] at taken ⊢
          rw [← taken]
          refine ⟨_, rfl, .turned (.silent ⟨?_, alike.shared⟩
            ⟨calm.idle, calm.fresh, calm.memory⟩ ⟨calm'.idle, calm'.fresh, calm'.memory⟩)⟩
          exact congrArg (fun slot : ConfigCache => { slot with nextState := none }) alike.slot
      | some command =>
          obtain ⟨vnm, first⟩ := once_asks asked slot answer
          obtain ⟨vnm', second⟩ := once_asks askedToo slot easy
          rw [first] at tried
          cases tried
          rw [second, ok_bind]
          rw [if_neg send_known] at taken ⊢
          cases taken
          exact ⟨_, rfl, .turned (.asks alike asked calm calm' rfl rfl)⟩

theorem Alike.failed (alike : Alike cache other host between) : other.failed = cache.failed :=
  @Alike.reads _ _ _ _ _ alike (fun cache _ => cache.failed) fun _ _ => rfl

theorem Alike.errBits (alike : Alike cache other host between) : other.errBits = cache.errBits :=
  @Alike.reads _ _ _ _ _ alike (fun cache _ => cache.errBits) fun _ _ => rfl

/-- The same change of the records, whatever is logged and counted. -/
theorem Alike.recorded (alike : Alike cache other host between) (db : CfgDb) (stat stat' : Stat)
    (log log' : List Effect) :
    Alike cache other { host with db := db, stat := stat, log := log }
      { between with db := db, stat := stat', log := log' } where
  slot := alike.slot
  shared := congrArg (fun shared : Host => { shared with db := db }) alike.shared

theorem endEntry_entering (alike : Alike cache other host between) (calm : cache.Calm)
    (calm' : other.Calm) (taken : endEntry none slot answer cache host = .ok out) :
    ∃ out', endEntry none slot easy other between = .ok out' ∧
      Entering .endEm slot answer easy cache other host between out out' := by
  simp only [endEntry, bind_ok] at taken
  obtain ⟨⟨id, node⟩, found, taken⟩ := taken
  have foundToo : ({ between with stat := between.stat.configOneDev } : Host).nodeOf other =
      .ok (id, node) := alike.nodeOf.trans found
  rw [endEntry]
  dsimp only
  rw [foundToo, ok_bind, alike.failed]
  dsimp only
  rw [alike.errBits, alike.db]
  by_cases failed : cache.failed = true
  · rw [if_pos failed] at taken ⊢
    obtain ⟨db, writes, made⟩ := bind_ok.mp taken
    cases made
    refine ⟨_, bind_ok.mpr ⟨db, writes, rfl⟩, .turned (.silent ?_ calm calm')⟩
    exact alike.recorded db _ _ _ _
  · rw [if_neg failed] at taken ⊢
    obtain ⟨first, clears, later⟩ := bind_ok.mp taken
    obtain ⟨db, writes, made⟩ := bind_ok.mp later
    cases made
    refine ⟨_, bind_ok.mpr ⟨first, clears, bind_ok.mpr ⟨db, writes, rfl⟩⟩,
      .turned (.silent ?_ calm calm')⟩
    exact alike.recorded db _ _ _ _

theorem rmendEntry_entering (alike : Alike cache other host between) (calm : cache.Calm)
    (calm' : other.Calm) (taken : rmendEntry none slot answer cache host = .ok out) :
    ∃ out', rmendEntry none slot easy other between = .ok out' ∧
      Entering .rmendEm slot answer easy cache other host between out out' := by
  simp only [rmendEntry, bind_ok] at taken
  obtain ⟨⟨id, node⟩, found, taken⟩ := taken
  have foundToo : ({ between with stat := between.stat.rmOneDev } : Host).nodeOf other =
      .ok (id, node) := alike.nodeOf.trans found
  rw [rmendEntry]
  dsimp only
  rw [foundToo, ok_bind, alike.failed]
  dsimp only
  rw [alike.errBits, alike.db]
  by_cases failed : cache.failed = true
  · rw [if_pos failed] at taken ⊢
    obtain ⟨db, writes, made⟩ := bind_ok.mp taken
    cases made
    refine ⟨_, bind_ok.mpr ⟨db, writes, rfl⟩, .turned (.silent ?_ calm calm')⟩
    exact alike.recorded db _ _ _ _
  · rw [if_neg failed] at taken ⊢
    obtain ⟨first, clears, later⟩ := bind_ok.mp taken
    obtain ⟨second, undoes, later'⟩ := bind_ok.mp later
    obtain ⟨third, forgets, last⟩ := bind_ok.mp later'
    obtain ⟨db, removes, made⟩ := bind_ok.mp last
    cases made
    refine ⟨_, bind_ok.mpr ⟨first, clears, bind_ok.mpr ⟨second, undoes, bind_ok.mpr ⟨third, forgets,
      bind_ok.mpr ⟨db, removes, rfl⟩⟩⟩⟩, .turned (.silent ?_ calm calm')⟩
    exact alike.recorded db _ _ _ _

/-- Whatever the state, its entry does the same work.  The guards read the record and the
composition data, which are the same. -/
theorem entry_entering {ops : AccStateOps} (member : ops ∈ accStates)
    (alike : Alike cache other host between) (calm : cache.Calm) (calm' : other.Calm)
    (taken : ops.entry ops.guard slot answer cache host = .ok out) :
    ∃ out', ops.entry ops.guard slot easy other between = .ok out' ∧
      Entering ops.state slot answer easy cache other host between out out' := by
  simp only [accStates, List.mem_cons, List.not_mem_nil, or_false] at member
  rcases member with rfl | rfl | rfl | rfl | rfl | rfl | rfl | rfl | rfl
  · exact @entryWith_entering .getDcdEm _ _ _ _ _ _ _ _ getdcdGuard (fun _ _ => rfl) rfl
      (by decide) alike calm calm' taken
  · exact @entryWith_entering .addappkeyEm _ _ _ _ _ _ _ _ addappkeyGuard (fun _ _ => rfl) rfl
      (by decide) alike calm calm' taken
  · exact @entryWith_entering .bindappkeyEm _ _ _ _ _ _ _ _ bindappkeyGuard (fun _ _ => rfl) rfl
      (by decide) alike calm calm' taken
  · exact @entryWith_entering .setpubEm _ _ _ _ _ _ _ _ setpubGuard (fun _ _ => rfl) rfl
      (by decide) alike calm calm' taken
  · exact @entryWith_entering .addsubEm _ _ _ _ _ _ _ _ addsubGuard (fun _ _ => rfl) rfl
      (by decide) alike calm calm' taken
  · exact setconfigEntry_entering alike calm calm' taken
  · exact endEntry_entering alike calm calm' taken
  · exact @entryWith_entering .rmEm _ _ _ _ _ _ _ _ rmGuard (fun _ _ => rfl) rfl
      (by decide) alike calm calm' taken
  · exact rmendEntry_entering alike calm calm' taken

end

end Nwmng
