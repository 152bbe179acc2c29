/-
Module: Nwmng.Config.IteratorReads
Purpose: The callbacks of the states read no array outside of its bounds, while the iterators
stand at their places.
Trusted boundary: none
Main exports:
  Abort.InBounds, Inside, Listings.Allocated, SendFn.Reads, AccStateOps.Reads, accStates_reads
-/
import Nwmng.Config.IteratorPlaces

namespace Nwmng

open Fallible Enumeration

/-- An abort that is not a read outside of an array. -/
def Abort.InBounds (failure : Abort) : Prop :=
  failure ≠ .outOfBounds

instance (failure : Abort) : Decidable failure.InBounds :=
  inferInstanceAs (Decidable (_ ≠ _))

/-- A computation that reads no array outside of its bounds.  It may abort for another reason. -/
abbrev Inside {α : Type} (computation : Except Abort α) : Prop :=
  FailsOnly Abort.InBounds computation

/-- The arrays of the lists are as long as the lists announce.  The loaders allocate them so. -/
def Listings.Allocated (listings : Listings) : Prop :=
  (∀ bindings, listings.bindings = some bindings →
      bindings.len.toNat ≤ bindings.data.length) ∧
    ∀ sublist, listings.sublist = some sublist → sublist.len.toNat ≤ sublist.data.length

instance (listings : Listings) : Decidable listings.Allocated :=
  inferInstanceAs (Decidable (_ ∧ _))

/-! ## What has no index

Records, keys and features are read without an iterator.
-/

section

variable (host : Host) (cache : ConfigCache)

@[simp] theorem subnet_inside : Inside host.subnet := by
  unfold Host.subnet
  cases host.cfg.subnets <;> simp [Abort.InBounds]

@[simp] theorem netkeyId_inside : Inside host.netkeyId := by
  simp [Host.netkeyId, failsOnly_bind]

@[simp] theorem nodeOf_inside : Inside (host.nodeOf cache) := by
  unfold Host.nodeOf
  cases cache.node <;> simp [Abort.InBounds]

@[simp] theorem appkeyByRefid_inside (refid : UInt16) : Inside (host.appkeyByRefid refid) := by
  simp [Host.appkeyByRefid, failsOnly_bind]

@[simp] theorem present_inside {α : Type} (field : Option α) : Inside (present field) := by
  cases field <;> simp [present, Abort.InBounds]

@[simp] theorem appkeyOf_inside (refid : UInt16) : Inside (appkeyOf host refid) := by
  simp only [appkeyOf, failsOnly_bind, appkeyByRefid_inside, true_and]
  intro found _
  cases found <;> simp [Abort.InBounds]

@[simp] theorem nodeset_inside (db : CfgDb) (addr : UInt16) (change : Node → Node) :
    Inside (db.nodeset addr change) := by
  unfold CfgDb.nodeset
  cases db.cfgdbNodeGet addr <;> simp [Abort.InBounds]

@[simp] theorem nodesRm_inside (db : CfgDb) (addr : UInt16) : Inside (db.nodesRm addr) := by
  unfold CfgDb.nodesRm
  cases db.cfgdbNodeGet addr <;> simp [Abort.InBounds]

@[simp] theorem finish_inside : Inside (finish cache host) := by
  simp [finish, failsOnly_bind]

@[simp] theorem setconfigCommand_inside (netkey : UInt16) (node : Node) (which : Option Nat) :
    Inside (setconfigCommand netkey node which) := by
  simp [setconfigCommand, failsOnly_ite, failsOnly_bind]

@[simp] theorem setconfig_inside (slot : Slot) (answer : CmdRsp) :
    Inside (setconfig slot answer cache host) := by
  simp only [setconfig, failsOnly_bind, netkeyId_inside, nodeOf_inside, setconfigCommand_inside,
    true_and]
  intro netkey _ found _ command _
  cases command <;> simp

@[simp] theorem featureMessage_inside (which : Nat) (config : MeshConfig) :
    Inside (featureMessage which config) := by
  simp [featureMessage, failsOnly_ite, failsOnly_bind]

@[simp] theorem storePage_inside (data : Bytes.Memory) (len : UInt8) :
    Inside (storePage data len cache host) := by
  simp only [storePage, failsOnly_bind, nodeOf_inside, true_and]
  intro found _
  cases dcdStore 256 data len found.2.func with
  | none => simp [Abort.InBounds]
  | some read => simp [failsOnly_ite, failsOnly_bind, CfgDb.nodesetFunc]

theorem afterResend_inside (reason : RetryReason) (out : Outcome) :
    Inside (afterResend reason out) := by
  cases reason <;> simp [afterResend, failsOnly_ite, Abort.InBounds]

theorem endEntry_inside (guard : Option GuardFn) (slot : Slot) (answer : CmdRsp) :
    Inside (endEntry guard slot answer cache host) := by
  simp [endEntry, failsOnly_bind, failsOnly_ite, CfgDb.nodesetErrbits, CfgDb.nodesetDone]

theorem rmendEntry_inside (guard : Option GuardFn) (slot : Slot) (answer : CmdRsp) :
    Inside (rmendEntry guard slot answer cache host) := by
  simp [rmendEntry, failsOnly_bind, failsOnly_ite, CfgDb.nodesetErrbits, CfgDb.nodesetDone,
    CfgDb.nodesetFunc]

end

/-!
## What is read with an iterator

A place of an iterator is an index of the array that it is used for, since the arrays are as long
as their counts say.
-/

theorem arrayAt_inside {α : Type} {values : List α} {index : Int} {length : Nat}
    (inside : Within index length) (long : length ≤ values.length) :
    Inside (arrayAt values index) := by
  obtain ⟨atLeast, below⟩ := inside
  have listed : index.toNat < values.length := by omega
  rw [arrayAt, if_neg (Int.not_lt.mpr atLeast), List.getElem?_eq_getElem listed]
  exact failsOnly_ok

section

variable {cache : ConfigCache} {host : Host} {listings : Listings}

theorem bindingAt_inside {index : Int} {node : Node} (same : node.listings = listings)
    (allocated : listings.Allocated) (listed : AtEntry listings.bindings index) :
    Inside (bindingAt index node) := by
  simp only [bindingAt, failsOnly_bind, present_inside, true_and]
  intro bindings there
  have here : listings.bindings = some bindings := by
    rw [← same]
    exact present_eq there
  exact arrayAt_inside (listed.within here) (allocated.1 bindings here)

/-- A model is noted from composition data that is there. -/
theorem noteModel_stored {noted : ConfigCache} (noting : noteModel cache = .ok noted) :
    cache.dcd.elems.isSome = true := by
  simp only [noteModel, elementAt, bind_ok] at noting
  obtain ⟨_, ⟨elems, there, _⟩, _⟩ := noting
  rw [present_eq there]
  rfl

/-- A model is noted, unless there is no composition data. -/
theorem noteModel_inside (populated : cache.dcd.Populated)
    (holds : cache.dcd.elems.isSome = true → cache.dcd.Holds cache.iterators) :
    Inside (noteModel cache) := by
  cases stored : cache.dcd.elems with
  | none => simp [noteModel, elementAt, stored, present, error_bind, Abort.InBounds]
  | some elems =>
      obtain ⟨elem, here, inside, sized⟩ := (holds (by rw [stored]; rfl)).elementAt
      obtain ⟨model, same⟩ := Int.eq_ofNat_of_zero_le inside.1
      have listed : model < elem.vnms.length := by
        have below := inside.2
        rw [(sized populated).length_vnms]
        omega
      rw [noteModel, here, ok_bind, same]
      rw [modelAt_eq (sized populated) model, List.getElem?_eq_getElem listed, cell_some, ok_bind]
      exact failsOnly_ok

/-- Nothing but the model changes. -/
theorem noteModel_worksOn {noted : ConfigCache} (own : cache.WorksOn host listings)
    (noting : noteModel cache = .ok noted) :
    noted.WorksOn host listings ∧ noted.iterators = cache.iterators ∧
      cache.dcd.elems.isSome = true := by
  refine ⟨?_, ?_, noteModel_stored noting⟩
  · rw [noteModel_eq noting]
    exact own
  · rw [noteModel_eq noting]

theorem nextResolved_inside {bindings : Uint16List} {fuel : Nat} {index : Int}
    (allocated : bindings.len.toNat ≤ bindings.data.length)
    (inside : Within index bindings.len.toNat) (enough : bindings.len.toNat ≤ index + fuel) :
    Inside (nextResolved host bindings fuel index) := by
  obtain ⟨atLeast, below⟩ := inside
  induction fuel generalizing index with
  | zero => omega
  | succ fuel hypothesis =>
      simp only [nextResolved, failsOnly_ite, failsOnly_ok, implies_true, true_and,
        failsOnly_bind, appkeyByRefid_inside]
      intro last
      have within : Within (index + 1) bindings.len.toNat := ⟨by omega, by omega⟩
      refine ⟨arrayAt_inside within allocated, fun refid _ key _ => ?_⟩
      cases key with
      | some id => exact failsOnly_ok
      | none => exact hypothesis (by omega) (by omega) (by omega)

theorem iterModels_inside {supported : UInt16 → Bool} (populated : cache.dcd.Populated)
    (holds : cache.dcd.Holds cache.iterators) : Inside (iterModels supported cache) := by
  obtain ⟨elem, here, ⟨atLeast, below⟩, sized⟩ := holds.elementAt
  obtain ⟨model, same⟩ := Int.eq_ofNat_of_zero_le atLeast
  rw [same] at below
  rw [iterModels, here, ok_bind, same]
  dsimp only
  rw [nextModel_eq (sized populated) supported (by omega) (by omega), ok_bind]
  split <;> exact failsOnly_ok

theorem iterAppkey_inside (own : cache.WorksOn host listings) (allocated : listings.Allocated)
    (placed : cache.iterators.Placed .addappkeyEm cache.dcd listings) :
    Inside (iterAppkey cache host) := by
  simp only [iterAppkey, failsOnly_bind, nodeOf_inside, present_inside, true_and, failsOnly_ite,
    failsOnly_ok, implies_true, and_true]
  intro found here bindings there
  have same : listings.bindings = some bindings := by
    rw [← own.listings_eq here]
    exact present_eq there
  have long := allocated.1 bindings same
  have inside := placed.1.within same
  exact nextResolved_inside long inside (by have := inside.1; omega)

theorem iterBindings_inside (own : cache.WorksOn host listings) (allocated : listings.Allocated)
    (placed : cache.iterators.Placed .bindappkeyEm cache.dcd listings) :
    Inside (iterBindings cache host) := by
  simp only [iterBindings, failsOnly_bind, nodeOf_inside, present_inside, true_and, failsOnly_ite,
    failsOnly_ok, implies_true, and_true]
  intro found here bindings there
  have same : listings.bindings = some bindings := by
    rw [← own.listings_eq here]
    exact present_eq there
  have long := allocated.1 bindings same
  have inside := placed.2.within same
  refine ⟨nextResolved_inside long inside (by have := inside.1; omega), fun _ _ _ => ?_⟩
  obtain ⟨elem, read, _⟩ := placed.1.elementAt
  change Inside (elementAt cache)
  rw [read]
  exact failsOnly_ok

theorem iterAddsub_inside (populated : cache.dcd.Populated)
    (placed : cache.iterators.Placed .addsubEm cache.dcd listings) :
    Inside (iterAddsub cache host) := by
  simp only [iterAddsub, failsOnly_bind, nodeOf_inside, present_inside, true_and, failsOnly_ite,
    failsOnly_ok, implies_true, and_true]
  intro _ _ _ _ _
  exact @iterModels_inside { cache with iterators := { cache.iterators with two := 0 } } _
    populated placed.1

/-! ## Sending -/

/-- The iterators stand at a place, unless the composition data is missing.  A state that reads
models without it stops for another reason. -/
def Iterators.Ready (iterators : Iterators) (state : AccState) (dcd : Dcd)
    (listings : Listings) : Prop :=
  (state ≠ .addappkeyEm → dcd.elems.isSome = true) → iterators.Placed state dcd listings

/-- A function that sends the command of a state reads inside of the arrays. -/
def SendFn.Reads (once : SendFn) (state : AccState) : Prop :=
  ∀ {slot answer cache host listings}, cache.WorksOn host listings → listings.Allocated →
    cache.dcd.Populated → cache.iterators.Ready state cache.dcd listings →
    Inside (once slot answer cache host)

theorem dcdGet_reads : SendFn.Reads dcdGet .getDcdEm := by
  intro slot answer cache host listings _ _ _ _
  simp [dcdGet, failsOnly_bind]

theorem rm_reads : SendFn.Reads rm .rmEm := by
  intro slot answer cache host listings _ _ _ _
  simp [rm, failsOnly_bind]

theorem setconfig_reads : SendFn.Reads setconfig .setconfigEm := by
  intro slot answer cache host listings _ _ _ _
  exact setconfig_inside host cache slot answer

theorem addAppkey_reads : SendFn.Reads addAppkey .addappkeyEm := by
  intro slot answer cache host listings own allocated _ ready
  have placed := ready fun other => absurd rfl other
  simp only [addAppkey, failsOnly_bind, nodeOf_inside, appkeyOf_inside, netkeyId_inside, true_and,
    failsOnly_ok, implies_true, and_true]
  intro found here
  exact bindingAt_inside (own.listings_eq here) allocated placed.1

theorem bindAppkey_reads : SendFn.Reads bindAppkey .bindappkeyEm := by
  intro slot answer cache host listings own allocated populated ready
  have noted := noteModel_inside populated fun stored => (ready fun _ => stored).1
  simp only [bindAppkey, failsOnly_bind, noted, nodeOf_inside, appkeyOf_inside, netkeyId_inside,
    true_and, failsOnly_ok, implies_true, and_true]
  intro after noting found here
  obtain ⟨own', same, stored⟩ := noteModel_worksOn own noting
  rw [same]
  exact bindingAt_inside (own'.listings_eq here) allocated (ready fun _ => stored).2

theorem setpub_reads : SendFn.Reads setpub .setpubEm := by
  intro slot answer cache host listings _ _ populated ready
  have noted := noteModel_inside populated fun stored => (ready fun _ => stored).1
  simp [setpub, failsOnly_bind, noted]

theorem addsub_reads : SendFn.Reads addsub .addsubEm := by
  intro slot answer cache host listings own allocated populated ready
  have noted := noteModel_inside populated fun stored => (ready fun _ => stored).1
  simp only [addsub, failsOnly_bind, noted, nodeOf_inside, present_inside, netkeyId_inside,
    true_and, failsOnly_ok, implies_true, and_true]
  intro after noting found here sublist there
  obtain ⟨own', same, stored⟩ := noteModel_worksOn own noting
  have listed : listings.sublist = some sublist := by
    rw [← own'.listings_eq here]
    exact present_eq there
  rw [same]
  exact arrayAt_inside ((ready fun _ => stored).2.within listed) (allocated.2 sublist listed)

end

/-!
## The list of states

Each state of the list reads inside of the arrays in its entry, for an event and in a retry.  An
entry relies on iterators at zero, the other two on iterators at a place of the state.
-/

/-- The handling of events reads inside of the arrays. -/
def InprgReads (state : AccState)
    (inprg : Slot → ConfigEvent → CmdRsp → ConfigCache → Host → Except Abort Outcome) : Prop :=
  ∀ {slot packet answer cache host listings}, cache.WorksOn host listings →
    listings.Allocated → cache.dcd.Populated →
    cache.iterators.Placed state cache.dcd listings →
    Inside (inprg slot packet answer cache host)

theorem getdcdInprg_reads : InprgReads .getDcdEm getdcdInprg := by
  intro slot packet answer cache host listings _ _ _ _
  cases packet <;> simp [getdcdInprg, failsOnly_ite, failsOnly_bind]

theorem setconfigInprg_reads : InprgReads .setconfigEm setconfigInprg := by
  intro slot packet answer cache host listings _ _ _ _
  cases packet with
  | status kind handle result =>
      simp only [setconfigInprg]
      cases featureOf kind with
      | none => simp
      | some which => simp [failsOnly_ite, failsOnly_bind]
  | _ => simp [setconfigInprg]

theorem rmInprg_reads : InprgReads .rmEm rmInprg := by
  intro slot packet answer cache host listings _ _ _ _
  unfold rmInprg
  split <;> simp [failsOnly_ite]

/-- The operations of a state that goes through a list read inside of the arrays. -/
structure StatusOps.Reads (ops : StatusOps) (state : AccState) : Prop where
  accept : ∀ result cache host, Inside (ops.accept result cache host)
  failure : ∀ cache host, Inside (ops.failure cache host)
  iter : ∀ {cache host listings}, cache.WorksOn host listings → listings.Allocated →
    cache.dcd.Populated → cache.iterators.Placed state cache.dcd listings →
    Inside (ops.iter cache host)
  once : ops.once.Reads state

theorem addappkeyOps_reads : addappkeyOps.Reads .addappkeyEm where
  accept _ _ _ := failsOnly_ok
  failure _ _ := failsOnly_ok
  iter own allocated _ placed := iterAppkey_inside own allocated placed
  once := addAppkey_reads

theorem bindappkeyOps_reads : bindappkeyOps.Reads .bindappkeyEm where
  accept _ _ _ := failsOnly_ok
  failure _ _ := failsOnly_ok
  iter own allocated _ placed := iterBindings_inside own allocated placed
  once := bindAppkey_reads

theorem setpubOps_reads : setpubOps.Reads .setpubEm where
  accept result cache host := by
    simp [setpubOps, acceptPub, pubMessage, failsOnly_ite, failsOnly_bind]
  failure cache host := by simp [setpubOps, pubMessage, failsOnly_bind]
  iter _ _ populated placed := iterModels_inside populated placed.1
  once := setpub_reads

theorem addsubOps_reads : addsubOps.Reads .addsubEm where
  accept result cache host := by
    simp [addsubOps, acceptSub, subMessage, failsOnly_ite, failsOnly_bind]
  failure cache host := by simp [addsubOps, subMessage, failsOnly_bind]
  iter _ _ populated placed := iterAddsub_inside populated placed
  once := addsub_reads

theorem statusInprg_reads {ops : StatusOps} {state : AccState} (lawful : ops.Lawful state)
    (walks : ops.Walks state) (reads : ops.Reads state) : InprgReads state (statusInprg ops) := by
  intro slot packet answer cache host listings own allocated populated placed
  cases packet with
  | status kind handle result =>
      simp only [statusInprg, failsOnly_ite, failsOnly_ok, failsOnly_bind, reads.accept,
        implies_true, true_and]
      intro _ accepted accepts
      cases accepted with
      | none => simp [failsOnly_ite, failsOnly_bind, reads.failure]
      | some passed =>
          have own' : cache.answered.WorksOn host listings := own
          obtain ⟨places, _⟩ := walks.accepts own' placed accepts
          obtain ⟨_, iterators, ever, remaining, same, _⟩ := lawful.accepts accepts
          have page : passed.dcd = cache.dcd := by rw [same]; rfl
          have taken : passed.WorksOn host listings := by rw [same]; exact own
          have full : passed.dcd.Populated := by rw [page]; exact populated
          have here : passed.iterators.Placed state passed.dcd listings := by
            rw [page]
            exact places
          simp only [failsOnly_bind]
          refine ⟨reads.iter taken allocated full here, fun moved moves => ?_⟩
          have ends := walks.iter taken full here moves
          have going := lawful.iter moves
          simp only [failsOnly_ite, finish_inside, implies_true, true_and]
          intro more
          rw [Iterators.Ends, if_neg more] at ends
          rw [going]
          exact @reads.once slot answer { passed with iterators := moved.2.iterators } host listings
            taken allocated full fun _ => ends
  | _ => simp [statusInprg]

theorem retryWith_reads {once : SendFn} {state : AccState} (reads : once.Reads state)
    (reason : RetryReason) : SendFn.Reads (retryWith once reason) state := by
  intro slot answer cache host listings own allocated populated ready
  simp only [retryWith, failsOnly_bind, failsOnly_ite, failsOnly_ok, implies_true, true_and]
  exact ⟨reads own allocated populated ready, fun out _ _ => afterResend_inside reason out⟩

/-- The entry of a state reads inside of the arrays, if it finds the iterators at zero. -/
def EntryReads (state : AccState) (entry : SendFn) : Prop :=
  ∀ {slot answer cache host listings}, cache.WorksOn host listings → listings.Allocated →
    cache.dcd.Populated → (state.iterates = true → cache.iterators = .home) →
    Inside (entry slot answer cache host)

theorem entryWith_reads {once : SendFn} {state : AccState} {guard : GuardFn}
    (reads : once.Reads state) (decides : DecidesGuard state guard)
    (guards : ∀ cache host, Inside (guard cache host)) :
    EntryReads state (entryWith once (some guard)) := by
  intro slot answer cache host listings own allocated populated home
  simp only [entryWith, failsOnly_bind, guards, true_and, failsOnly_ite, failsOnly_ok,
    implies_true, and_true]
  intro opened decided holds
  obtain ⟨id, here, opens⟩ := (decides decided).1 holds
  obtain ⟨other, there, same⟩ := own
  rw [here] at there
  cases there
  refine reads ⟨id, here, same⟩ allocated populated fun stored => ?_
  cases iterates : state.iterates with
  | true =>
      rw [home iterates, ← same]
      exact home_placed opens populated stored
  | false => exact .other iterates

theorem configGuard_inside (test : MeshConfig → Bool) (cache : ConfigCache) (host : Host) :
    Inside (configGuard test cache host) := by
  simp [configGuard, failsOnly_bind]

/-- A state of the list reads inside of the arrays. -/
structure AccStateOps.Reads (ops : AccStateOps) : Prop where
  entry : EntryReads ops.state (ops.entry ops.guard)
  inprg : ∀ inprg, ops.inprg = some inprg → InprgReads ops.state inprg
  retry : ∀ retry reason, ops.retry = some retry → SendFn.Reads (retry reason) ops.state

theorem reads_of_send {state : AccState} {once : SendFn} {guard : GuardFn}
    {entry : Option GuardFn → SendFn}
    {inprg : Slot → ConfigEvent → CmdRsp → ConfigCache → Host → Except Abort Outcome}
    (reads : once.Reads state) (enters : EntryReads state (entry (some guard)))
    (handles : InprgReads state inprg) :
    AccStateOps.Reads ⟨state, some guard, entry, some inprg, some (retryWith once)⟩ where
  entry := enters
  inprg other same := by
    cases same
    exact handles
  retry other reason same := by
    cases same
    exact retryWith_reads reads reason

theorem reads_of_final {state : AccState} {entry : Option GuardFn → SendFn}
    (enters : EntryReads state (entry none)) :
    AccStateOps.Reads ⟨state, none, entry, none, none⟩ where
  entry := enters
  inprg other same := by cases same
  retry other reason same := by cases same

theorem setconfigEntry_reads :
    EntryReads .setconfigEm (setconfigEntry (some setconfigGuard)) := by
  intro slot answer cache host listings own allocated populated home
  have first := @entryWith_reads setconfig .setconfigEm setconfigGuard setconfig_reads
    (configGuard_decides fun _ => rfl) (configGuard_inside featuresDiffer) slot answer cache host
    listings own allocated populated home
  simp [setconfigEntry, failsOnly_bind, failsOnly_ite, first]

theorem accStates_reads : ∀ ops ∈ accStates, ops.Reads := by
  have getdcd : ∀ cache host, Inside (getdcdGuard cache host) := by
    intro cache host
    unfold getdcdGuard
    cases cache.node <;> simp
  have removes : ∀ cache host, Inside (rmGuard cache host) := by
    intro cache host
    simp [rmGuard, failsOnly_bind]
  have guards := configGuard_inside
  intro ops member
  simp only [accStates, List.mem_cons, List.not_mem_nil, or_false] at member
  rcases member with rfl | rfl | rfl | rfl | rfl | rfl | rfl | rfl | rfl
  · exact reads_of_send dcdGet_reads (entryWith_reads dcdGet_reads getdcdGuard_decides getdcd)
      getdcdInprg_reads
  · exact reads_of_send addAppkey_reads
      (entryWith_reads addAppkey_reads (configGuard_decides fun _ => rfl) (guards _))
      (statusInprg_reads addappkeyOps_lawful addappkeyOps_walks addappkeyOps_reads)
  · exact reads_of_send bindAppkey_reads
      (entryWith_reads bindAppkey_reads (configGuard_decides fun _ => rfl) (guards _))
      (statusInprg_reads bindappkeyOps_lawful bindappkeyOps_walks bindappkeyOps_reads)
  · exact reads_of_send setpub_reads
      (entryWith_reads setpub_reads (configGuard_decides fun _ => rfl) (guards _))
      (statusInprg_reads setpubOps_lawful setpubOps_walks setpubOps_reads)
  · exact reads_of_send addsub_reads
      (entryWith_reads addsub_reads (configGuard_decides fun _ => rfl) (guards _))
      (statusInprg_reads addsubOps_lawful addsubOps_walks addsubOps_reads)
  · exact reads_of_send setconfig_reads setconfigEntry_reads setconfigInprg_reads
  · exact reads_of_final fun {slot answer cache host _} _ _ _ _ =>
      endEntry_inside host cache none slot answer
  · exact reads_of_send rm_reads (entryWith_reads rm_reads rmGuard_decides removes)
      rmInprg_reads
  · exact reads_of_final fun {slot answer cache host _} _ _ _ _ =>
      rmendEntry_inside host cache none slot answer

end Nwmng
