/-
Module: Nwmng.Config.Asserts
Purpose: The callbacks of the states never fail the assertions about the flags and the
retry budget of a slot; a retry does so only for a slot that they are not true of.
Trusted boundary: none
Main exports:
  Abort.OfData, Abort.OfWork, AccStateOps.Calm, accStates_calm, slotRound_fails,
  slotEvent_fails, engineSlot_steady, devConfigHdr_steady
-/
import Nwmng.Config.Rounds

namespace Nwmng

open Fallible

/-- An abort that has nothing to do with the flags of a slot.  Such an abort comes from the data:
composition data that does not fit, a record without a template, a key that is not there. -/
def Abort.OfData (failure : Abort) : Prop :=
  failure ≠ .waitingWhileOom ∧ failure ≠ .retryWithoutOom

instance (failure : Abort) : Decidable failure.OfData :=
  inferInstanceAs (Decidable (_ ∧ _))

/-- A computation that keeps the assertions about the flags. -/
abbrev Steady {α : Type} (computation : Except Abort α) : Prop :=
  FailsOnly Abort.OfData computation

/-- An abort that has nothing to do with the flags or the retry budget of a slot.  It is all that
remains once the flags are kept apart and the budget is respected. -/
def Abort.OfWork (failure : Abort) : Prop :=
  failure.OfData ∧ failure ≠ .retryBudget

instance (failure : Abort) : Decidable failure.OfWork :=
  inferInstanceAs (Decidable (_ ∧ _))

/-- A computation that keeps the assertions about the retry budget as well. -/
abbrev Calm {α : Type} (computation : Except Abort α) : Prop :=
  FailsOnly Abort.OfWork computation

/-! ## Reading the shared data -/

section

variable (host : Host) (cache : ConfigCache)

@[simp] theorem subnet_calm : Calm host.subnet := by
  unfold Host.subnet
  cases host.cfg.subnets <;> simp [Abort.OfWork, Abort.OfData]

@[simp] theorem netkeyId_calm : Calm host.netkeyId := by
  simp [Host.netkeyId, failsOnly_bind]

@[simp] theorem nodeOf_calm : Calm (host.nodeOf cache) := by
  unfold Host.nodeOf
  cases cache.node <;> simp [Abort.OfWork, Abort.OfData]

@[simp] theorem appkeyByRefid_calm (refid : UInt16) :
    Calm (host.appkeyByRefid refid) := by
  simp [Host.appkeyByRefid, failsOnly_bind]

@[simp] theorem present_calm {α : Type} (field : Option α) : Calm (present field) := by
  cases field <;> simp [present, Abort.OfWork, Abort.OfData]

@[simp] theorem arrayAt_calm {α : Type} (values : List α) (index : Int) :
    Calm (arrayAt values index) := by
  unfold arrayAt
  split
  · simp [Abort.OfWork, Abort.OfData]
  · split <;> simp [Abort.OfWork, Abort.OfData]

@[simp] theorem nodeset_calm (db : CfgDb) (addr : UInt16) (change : Node → Node) :
    Calm (db.nodeset addr change) := by
  unfold CfgDb.nodeset
  cases db.cfgdbNodeGet addr <;> simp [Abort.OfWork, Abort.OfData]

@[simp] theorem nodesRm_calm (db : CfgDb) (addr : UInt16) :
    Calm (db.nodesRm addr) := by
  unfold CfgDb.nodesRm
  cases db.cfgdbNodeGet addr <;> simp [Abort.OfWork, Abort.OfData]

@[simp] theorem bindingAt_calm (index : Int) (node : Node) :
    Calm (bindingAt index node) := by
  simp [bindingAt, failsOnly_bind]

@[simp] theorem appkeyOf_calm (refid : UInt16) : Calm (appkeyOf host refid) := by
  simp only [appkeyOf, failsOnly_bind, appkeyByRefid_calm, true_and]
  intro found _
  cases found <;> simp [Abort.OfWork, Abort.OfData]

@[simp] theorem elementAt_calm : Calm (elementAt cache) := by
  simp [elementAt, failsOnly_bind]

@[simp] theorem modelAt_calm (elem : Elem) (index : Int) :
    Calm (modelAt elem index) := by
  simp [modelAt, failsOnly_ite, failsOnly_bind]

@[simp] theorem noteModel_calm : Calm (noteModel cache) := by
  simp [noteModel, failsOnly_bind]

/-! ## Iterating -/

@[simp] theorem nextResolved_calm (bindings : Uint16List) (fuel : Nat) (index : Int) :
    Calm (nextResolved host bindings fuel index) := by
  induction fuel generalizing index with
  | zero => simp [nextResolved, Abort.OfWork, Abort.OfData]
  | succ fuel hypothesis =>
      simp only [nextResolved, failsOnly_ite, failsOnly_ok, failsOnly_bind, arrayAt_calm,
        appkeyByRefid_calm, implies_true, true_and]
      intro _ _ _ found _
      cases found <;> simp [hypothesis]

@[simp] theorem nextModel_calm (elem : Elem) (supported : UInt16 → Bool) (fuel : Nat)
    (index : Int) : Calm (nextModel elem supported fuel index) := by
  induction fuel generalizing index with
  | zero => simp [nextModel, Abort.OfWork, Abort.OfData]
  | succ fuel hypothesis =>
      simp [nextModel, failsOnly_ite, failsOnly_bind, hypothesis]

@[simp] theorem iterAppkey_calm : Calm (iterAppkey cache host) := by
  simp [iterAppkey, failsOnly_ite, failsOnly_bind]

@[simp] theorem iterBindings_calm : Calm (iterBindings cache host) := by
  simp [iterBindings, failsOnly_ite, failsOnly_bind]

@[simp] theorem iterModels_calm (supported : UInt16 → Bool) :
    Calm (iterModels supported cache) := by
  simp only [iterModels, failsOnly_bind, elementAt_calm, nextModel_calm, true_and]
  intro elem _ next _
  cases next <;> simp

@[simp] theorem iterAddsub_calm : Calm (iterAddsub cache host) := by
  simp [iterAddsub, failsOnly_ite, failsOnly_bind]

@[simp] theorem finish_calm : Calm (finish cache host) := by
  simp [finish, failsOnly_bind]

end

/-!
## Sending

An assertion of the source is an abort of the model.  The callbacks abort for many reasons; that
none of these is an assertion about the flags or the retry budget is shown from the callbacks
upwards.
-/

/-- The sending function of a state keeps the assertions. -/
def SendFn.Calm (once : SendFn) : Prop :=
  ∀ slot answer cache host, Nwmng.Calm (once slot answer cache host)

theorem dcdGet_calm : SendFn.Calm dcdGet := by
  intro slot answer cache host
  simp [dcdGet, failsOnly_bind]

theorem addAppkey_calm : SendFn.Calm addAppkey := by
  intro slot answer cache host
  simp [addAppkey, failsOnly_bind]

theorem bindAppkey_calm : SendFn.Calm bindAppkey := by
  intro slot answer cache host
  simp [bindAppkey, failsOnly_bind]

theorem setpub_calm : SendFn.Calm setpub := by
  intro slot answer cache host
  simp [setpub, failsOnly_bind]

theorem addsub_calm : SendFn.Calm addsub := by
  intro slot answer cache host
  simp [addsub, failsOnly_bind]

theorem rm_calm : SendFn.Calm rm := by
  intro slot answer cache host
  simp [rm, failsOnly_bind]

theorem setconfigCommand_calm (netkey : UInt16) (node : Node) (which : Option Nat) :
    Calm (setconfigCommand netkey node which) := by
  simp [setconfigCommand, failsOnly_ite, failsOnly_bind]

theorem setconfig_calm : SendFn.Calm setconfig := by
  intro slot answer cache host
  simp only [setconfig, failsOnly_bind, netkeyId_calm, nodeOf_calm,
    setconfigCommand_calm, true_and]
  intro netkey _ found _ command _
  cases command <;> simp

/-- What a retry can fail with: its own assertions, for a slot that they are not true of.  Each
case names the field that the assertion reads, and with it what an invariant has to say about the
slot. -/
def RetryFailure (reason : RetryReason) (cache : ConfigCache) (failure : Abort) : Prop :=
  failure.OfWork ∨
    (reason = .onTimeoutEm ∧ failure = .retryBudget ∧
      (cache.everRetried = false ∨ cache.remainingRetry = 0)) ∨
    (reason = .onOomEm ∧ failure = .retryWithoutOom ∧ cache.oom = false)

theorem retryWith_fails {state : AccState} {once : SendFn} (sends : SendsFor state once)
    (calm : SendFn.Calm once) (reason : RetryReason) (slot : Slot) (answer : CmdRsp)
    (cache : ConfigCache) (host : Host) :
    FailsOnly (RetryFailure reason cache)
      (retryWith once reason slot answer cache host) := by
  simp only [retryWith, failsOnly_bind, failsOnly_ite, failsOnly_ok, implies_true, true_and]
  refine ⟨fun failure failed => .inl (calm slot answer cache host failure failed), ?_⟩
  intro out sent success
  have same : out.ret = .suc := by simpa using success
  -- a command that was taken leaves flags and budget as they were
  have kept : out.cache.everRetried = cache.everRetried ∧
      out.cache.remainingRetry = cache.remainingRetry ∧ out.cache.oom = cache.oom := by
    cases sends sent with
    | accepted _ _ _ _ => exact ⟨rfl, rfl, rfl⟩
    | _ => cases same
  obtain ⟨ever, remaining, memory⟩ := kept
  unfold afterResend
  cases reason with
  | onTimeoutEm =>
      simp only [failsOnly_ite, failsOnly_ok, failsOnly_error, implies_true, and_true, ever,
        remaining]
      exact fun spent => .inr (.inl ⟨rfl, rfl, spent⟩)
  | onOomEm =>
      simp only [failsOnly_ite, failsOnly_ok, failsOnly_error, implies_true, and_true, memory]
      exact fun none_ => .inr (.inr ⟨rfl, rfl, none_⟩)
  | onGuardTimerExpiredEm =>
      simp only [failsOnly_ite, failsOnly_ok, failsOnly_error, implies_true, and_true]
      exact fun _ => .inl (by decide)

/-! ## Events -/

theorem storePage_calm (data : Bytes.Memory) (len : UInt8) (cache : ConfigCache)
    (host : Host) : Calm (storePage data len cache host) := by
  simp only [storePage, failsOnly_bind, nodeOf_calm, true_and]
  intro found _
  cases dcdStore 256 data len found.2.func with
  | none => simp [Abort.OfWork, Abort.OfData]
  | some read => simp [failsOnly_ite, failsOnly_bind, CfgDb.nodesetFunc]

/-- What a state does with events keeps the assertions. -/
def InprgCalm
    (inprg : Slot → ConfigEvent → CmdRsp → ConfigCache → Host → Except Abort Outcome) :
    Prop :=
  ∀ slot packet answer cache host, Calm (inprg slot packet answer cache host)

theorem getdcdInprg_calm : InprgCalm getdcdInprg := by
  intro slot packet answer cache host
  cases packet <;>
    simp [getdcdInprg, failsOnly_ite, failsOnly_bind, storePage_calm]

theorem rmInprg_calm : InprgCalm rmInprg := by
  intro slot packet answer cache host
  unfold rmInprg
  split <;> simp [failsOnly_ite]

/-- The operations of a state that handles status events keep the assertions. -/
structure StatusOps.Calm (ops : StatusOps) : Prop where
  accept : ∀ result cache host, Nwmng.Calm (ops.accept result cache host)
  failure : ∀ cache host, Nwmng.Calm (ops.failure cache host)
  iter : ∀ cache host, Nwmng.Calm (ops.iter cache host)
  once : ops.once.Calm

theorem statusInprg_calm {ops : StatusOps} (calm : ops.Calm) :
    InprgCalm (statusInprg ops) := by
  intro slot packet answer cache host
  cases packet with
  | status kind handle result =>
      simp only [statusInprg, failsOnly_ite, failsOnly_ok, failsOnly_bind, calm.accept,
        implies_true, true_and]
      intro _ accepted _
      cases accepted with
      | none => simp [failsOnly_ite, failsOnly_bind, calm.failure]
      | some after =>
          simp only [failsOnly_bind, calm.iter, true_and, failsOnly_ite]
          intro iterated _
          exact ⟨fun _ => finish_calm _ _, fun _ => calm.once _ _ _ _⟩
  | _ => simp [statusInprg]

theorem addappkeyOps_calm : addappkeyOps.Calm where
  accept _ _ _ := failsOnly_ok
  failure _ _ := failsOnly_ok
  iter cache host := iterAppkey_calm host cache
  once := addAppkey_calm

theorem bindappkeyOps_calm : bindappkeyOps.Calm where
  accept _ _ _ := failsOnly_ok
  failure _ _ := failsOnly_ok
  iter cache host := iterBindings_calm host cache
  once := bindAppkey_calm

theorem pubMessage_calm (cache : ConfigCache) (host : Host) :
    Calm (pubMessage cache host) := by
  simp [pubMessage, failsOnly_bind]

theorem setpubOps_calm : setpubOps.Calm where
  accept result cache host := by
    simp [setpubOps, acceptPub, failsOnly_ite, failsOnly_bind, pubMessage_calm]
  failure := pubMessage_calm
  iter cache _ := iterModels_calm cache pubSupported
  once := setpub_calm

theorem subMessage_calm (cache : ConfigCache) (host : Host) :
    Calm (subMessage cache host) := by
  simp [subMessage, failsOnly_bind]

theorem addsubOps_calm : addsubOps.Calm where
  accept result cache host := by
    simp [addsubOps, acceptSub, failsOnly_ite, failsOnly_bind, subMessage_calm]
  failure := subMessage_calm
  iter cache host := iterAddsub_calm host cache
  once := addsub_calm

theorem featureMessage_calm (which : Nat) (config : MeshConfig) :
    Calm (featureMessage which config) := by
  simp [featureMessage, failsOnly_ite, failsOnly_bind]

theorem setconfigInprg_calm : InprgCalm setconfigInprg := by
  intro slot packet answer cache host
  cases packet with
  | status kind handle result =>
      simp only [setconfigInprg]
      cases featureOf kind with
      | none => simp
      | some which =>
          simp [failsOnly_ite, failsOnly_bind, featureMessage_calm,
            setconfig_calm slot answer]
  | _ => simp [setconfigInprg]

/-! ## Entering -/

/-- The entry function of a state, given its guard, keeps the assertions. -/
theorem entryWith_calm {once : SendFn} (calm : SendFn.Calm once) {guard : GuardFn}
    (guards : ∀ cache host, Calm (guard cache host)) :
    SendFn.Calm (entryWith once (some guard)) := by
  intro slot answer cache host
  simp [entryWith, failsOnly_bind, failsOnly_ite, guards, calm slot answer cache host]

theorem configGuard_calm (test : MeshConfig → Bool) (cache : ConfigCache) (host : Host) :
    Calm (configGuard test cache host) := by
  simp [configGuard, failsOnly_bind]

theorem setconfigEntry_calm : SendFn.Calm (setconfigEntry (some setconfigGuard)) := by
  intro slot answer cache host
  simp [setconfigEntry, failsOnly_bind, failsOnly_ite,
    entryWith_calm setconfig_calm (configGuard_calm featuresDiffer) slot answer
      cache host, setconfigGuard]

theorem endEntry_calm (guard : Option GuardFn) : SendFn.Calm (endEntry guard) := by
  intro slot answer cache host
  simp [endEntry, failsOnly_bind, failsOnly_ite, CfgDb.nodesetErrbits, CfgDb.nodesetDone]

theorem rmendEntry_calm (guard : Option GuardFn) : SendFn.Calm (rmendEntry guard) := by
  intro slot answer cache host
  simp [rmendEntry, failsOnly_bind, failsOnly_ite, CfgDb.nodesetErrbits,
    CfgDb.nodesetDone, CfgDb.nodesetFunc]

/-! ## The list of states -/

/-- A state of the list keeps the assertions.  Entries and events cannot fail the assertions on
the flags at all; retries fail them only for a slot that the round should not have come to. -/
structure AccStateOps.Calm (ops : AccStateOps) : Prop where
  entry : SendFn.Calm (ops.entry ops.guard)
  inprg : ∀ inprg, ops.inprg = some inprg → InprgCalm inprg
  retry : ∀ retry reason slot answer cache host, ops.retry = some retry →
    FailsOnly (RetryFailure reason cache) (retry reason slot answer cache host)

theorem steady_of_send {state : AccState} {once : SendFn} {guard : GuardFn}
    {entry : Option GuardFn → SendFn}
    {inprg : Slot → ConfigEvent → CmdRsp → ConfigCache → Host → Except Abort Outcome}
    (sends : SendsFor state once) (calm : SendFn.Calm once)
    (enters : SendFn.Calm (entry (some guard))) (handles : InprgCalm inprg) :
    AccStateOps.Calm ⟨state, some guard, entry, some inprg, some (retryWith once)⟩ where
  entry := enters
  inprg other same := by
    cases same
    exact handles
  retry retry reason slot answer cache host same := by
    cases same
    exact retryWith_fails sends calm reason slot answer cache host

theorem steady_of_final {state : AccState} {entry : Option GuardFn → SendFn}
    (enters : SendFn.Calm (entry none)) :
    AccStateOps.Calm ⟨state, none, entry, none, none⟩ where
  entry := enters
  inprg other same := by cases same
  retry retry reason slot answer cache host same := by cases same

theorem accStates_calm : ∀ ops ∈ accStates, ops.Calm := by
  have getdcd : ∀ cache host, Calm (getdcdGuard cache host) := by
    intro cache host
    unfold getdcdGuard
    cases cache.node <;> simp
  have removes : ∀ cache host, Calm (rmGuard cache host) := by
    intro cache host
    simp [rmGuard, failsOnly_bind]
  intro ops member
  simp only [accStates, List.mem_cons, List.not_mem_nil, or_false] at member
  rcases member with rfl | rfl | rfl | rfl | rfl | rfl | rfl | rfl | rfl
  · exact steady_of_send dcdGet_sends dcdGet_calm
      (entryWith_calm dcdGet_calm getdcd) getdcdInprg_calm
  · exact steady_of_send addAppkey_sends addAppkey_calm
      (entryWith_calm addAppkey_calm (configGuard_calm _))
      (statusInprg_calm addappkeyOps_calm)
  · exact steady_of_send bindAppkey_sends bindAppkey_calm
      (entryWith_calm bindAppkey_calm (configGuard_calm _))
      (statusInprg_calm bindappkeyOps_calm)
  · exact steady_of_send setpub_sends setpub_calm
      (entryWith_calm setpub_calm (configGuard_calm _))
      (statusInprg_calm setpubOps_calm)
  · exact steady_of_send addsub_sends addsub_calm
      (entryWith_calm addsub_calm (configGuard_calm _))
      (statusInprg_calm addsubOps_calm)
  · exact steady_of_send setconfig_sends setconfig_calm setconfigEntry_calm
      setconfigInprg_calm
  · exact steady_of_final (endEntry_calm none)
  · exact steady_of_send rm_sends rm_calm (entryWith_calm rm_calm removes)
      rmInprg_calm
  · exact steady_of_final (rmendEntry_calm none)

/-- The states found from a code on keep the assertions. -/
theorem asGet_calm {state : AccState} {ops : AccStateOps} (member : ops ∈ asGet state) :
    ops.Calm :=
  accStates_calm ops (mem_accStates_of_asGet member)

/-!
## The engine

What is left are the assertions of the engine itself.  They fail in few situations, which the
invariants of the runs exclude.
-/

theorem leaveTargets_calm (cache : ConfigCache) : Calm (leaveTargets cache) := by
  unfold leaveTargets
  cases asGet cache.state <;> cases cache.nextState with
  | none => simp [Abort.OfWork, Abort.OfData]
  | some next => dsimp only; split <;> simp [Abort.OfWork, Abort.OfData]

theorem enterStates_calm {targets : List AccStateOps}
    (calm : ∀ ops ∈ targets, ops.Calm) (slot : Slot) (answer : CmdRsp)
    (cache : ConfigCache) (host : Host) :
    Calm (enterStates slot answer targets cache host) := by
  induction targets generalizing cache host with
  | nil => simp [enterStates]
  | cons ops rest hypothesis =>
      have later := hypothesis fun other member => calm other (List.mem_cons_of_mem _ member)
      have first := (calm ops List.mem_cons_self).entry slot answer cache host
      simp only [enterStates, failsOnly_bind, first, true_and]
      intro out _
      cases out.ret <;>
        simp [later, failsOnly_bind, asEnd, endEntry_calm none slot answer out.cache]

theorem toNextState_calm (slot : Slot) (answer : CmdRsp) (cache : ConfigCache)
    (host : Host) : Calm (toNextState slot answer cache host) := by
  simp only [toNextState, failsOnly_bind, leaveTargets_calm, true_and]
  intro targets leaves
  apply enterStates_calm
  intro ops member
  exact accStates_calm ops (leaveTargets_mem leaves ops member)

/-- What a round can fail with: the assertion about waiting slots, for one that is out of
memory. -/
def RoundFailure (cache : ConfigCache) (failure : Abort) : Prop :=
  failure.OfWork ∨
    (failure = .waitingWhileOom ∧ cache.oom = true ∧ cache.waitResponse = true)

theorem retryException_fails (state : MngState) (slot : Slot) (input : RoundInput)
    (cache : ConfigCache) (host : Host) :
    FailsOnly (RoundFailure cache) (retryException state slot input cache host) := by
  unfold retryException
  cases found : asGet cache.state with
  | nil =>
      simp only [failsOnly_ite, failsOnly_ok, failsOnly_error, implies_true, and_true]
      exact fun _ => .inl (by decide)
  | cons ops rest =>
      have calm : ops.Calm := asGet_calm (by rw [found]; exact List.mem_cons_self)
      cases resends : ops.retry with
      | none => simp [resends]
      | some retry =>
          simp only [resends, failsOnly_ite, failsOnly_bind, failsOnly_ok, implies_true,
            and_true, failsOnly_error]
          refine ⟨fun _ failure failed => ?_, fun _ memory =>
            ⟨fun waiting => .inr ⟨rfl, memory, waiting⟩, fun _ failure failed => ?_⟩⟩
          · rcases calm.retry retry _ slot _ cache host resends failure failed with
              work | ⟨other, _⟩ | ⟨other, _⟩
            · exact .inl work
            · cases other
            · cases other
          · rcases calm.retry retry _ slot _ cache host resends failure failed with
              work | ⟨other, _⟩ | ⟨_, _, enough⟩
            · exact .inl work
            · cases other
            · rw [memory] at enough
              cases enough

theorem slotRound_fails (state : MngState) (slot : Slot) (input : RoundInput)
    (cache : ConfigCache) (host : Host) :
    FailsOnly (RoundFailure cache) (slotRound state slot input cache host) := by
  simp only [slotRound, failsOnly_bind, failsOnly_ite, failsOnly_ok, implies_true, and_true,
    true_and]
  refine ⟨retryException_fails state slot input cache host, fun resent _ _ => ?_⟩
  intro failure failed
  exact .inl (toNextState_calm slot _ _ _ failure failed)

/-- The round of a slot keeps the assertions when it does not wait while it is out of
memory. -/
theorem engineSlot_steady (input : RoundInput) {engine : Engine} {slot : Slot}
    (apart : (engine.cache slot).oom = true → (engine.cache slot).waitResponse = false) :
    Steady (engineSlot input engine slot) := by
  simp only [engineSlot_eq, failsOnly_bind, failsOnly_ite, failsOnly_ok, implies_true,
    and_true]
  intro failure failed
  rcases slotRound_fails _ slot input _ _ failure failed with work | ⟨_, memory, waits⟩
  · exact work.1
  · rw [apart memory] at waits
    cases waits

/-- An event that goes wrong has failed on the data, or drives a retry without budget.  The
assertions on the flags are out of reach of an event. -/
theorem slotEvent_fails (state : MngState) (slot : Slot) (event : ConfigEvent)
    (input : EventInput) (cache : ConfigCache) (host : Host) :
    FailsOnly (fun failure => failure.OfWork ∨
        (failure = .retryBudget ∧ ∃ out, TakesEvent slot event input.inprg cache host out ∧
          out.ret = .suc ∧ out.cache.waitResponse = false ∧ out.cache.everRetried = true ∧
          out.cache.remainingRetry = 0))
      (slotEvent state slot event input cache host) := by
  unfold slotEvent
  cases found : asGet cache.state with
  | nil =>
      simp only [failsOnly_error]
      exact .inl (by decide)
  | cons ops rest =>
      obtain ⟨same, lawful⟩ := asGet_cons found
      have calm : ops.Calm := asGet_calm (by rw [found]; exact List.mem_cons_self)
      simp only [failsOnly_bind]
      constructor
      · unfold eventInprg
        cases handles : ops.inprg with
        | none => simp
        | some inprg =>
            simp only [failsOnly_ite, failsOnly_ok, implies_true, and_true]
            intro _ failure failed
            exact .inl (calm.inprg inprg handles slot event _ _ _ failure failed)
      · intro out taken
        have takes := eventInprg_takes lawful same taken
        unfold eventRetry
        cases resends : ops.retry with
        | none => simp
        | some retry =>
            simp only [failsOnly_ite, failsOnly_ok, implies_true, and_true, failsOnly_bind]
            intro drives failure failed
            simp only [Bool.and_eq_true, decide_eq_true_eq, Bool.not_eq_true'] at drives
            rcases calm.retry retry _ slot _ _ _ resends failure failed with
              work | ⟨_, budget, spent⟩ | ⟨other, _⟩
            · exact .inl work
            · refine .inr ⟨budget, out, takes, drives.1.1, drives.1.2, drives.2, ?_⟩
              rw [drives.2] at spent
              exact spent.resolve_left (by decide)
            · cases other

/-- An event keeps the assertions in every state.  No condition on the slots is needed, since
these assertions stand in the rounds. -/
theorem devConfigHdr_steady (packet : ConfigEvent) (input : EventInput)
    (engine : Engine) : Steady (devConfigHdr packet input engine) := by
  have routes : Steady (cacheFromCchandle engine packet) := by
    unfold cacheFromCchandle
    split
    · simp [Abort.OfData]
    · split
      · simp
      · simp [failsOnly_ite, Abort.OfData]
  simp only [devConfigHdr_eq, failsOnly_bind, routes, true_and, failsOnly_ok, implies_true,
    and_true]
  intro slot _ failure failed
  rcases slotEvent_fails _ slot packet input _ _ failure failed with work | ⟨rfl, _⟩
  · exact work.1
  · decide

end Nwmng
