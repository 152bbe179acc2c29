/-
Module: Nwmng.Config.Lawful
Purpose: Every state of the list follows the specification of the callbacks.
Trusted boundary: none
Main exports:
  Entered, AccStateOps.Lawful, accStates_lawful, asGet_cons
-/
import Nwmng.Config.Spec

namespace Nwmng

open Fallible

/-!
## The states that share the status handling

Most states handle their status by one function with parameters.  Each of them owes a small
record of facts about its parameters, and the specification follows for all at once.
-/

theorem acceptSuccess_some {state : AccState} {result : UInt16}
    {cache after : ConfigCache} (host : Host)
    (accepts : acceptSuccess result cache host = .ok (some after)) :
    result ≠ bgErrTimeout ∧ ∃ iterators ever remaining,
      after = { cache with
        iterators := iterators, everRetried := ever, remainingRetry := remaining } ∧
      BudgetStep state result cache ever remaining := by
  unfold acceptSuccess at accepts
  by_cases success : result = bgErrSuccess
  · simp only [success, if_true, Except.ok.injEq, Option.some.injEq] at accepts
    refine ⟨by rw [success]; decide, cache.iterators, false, 0, ?_, .inl ⟨rfl, rfl⟩⟩
    rw [← accepts]
    rfl
  · simp [success] at accepts

theorem acceptSuccess_rejects {cache : ConfigCache} (host : Host) :
    acceptSuccess bgErrSuccess cache host ≠ .ok none := by
  simp [acceptSuccess]

theorem iterAppkey_eq {cache after : ConfigCache} {host : Host} {finished : Bool}
    (iterates : iterAppkey cache host = .ok (finished, after)) :
    after = { cache with iterators := after.iterators } := by
  simp only [iterAppkey, bind_ok] at iterates
  obtain ⟨_, _, bindings, _, index, _, iterates⟩ := iterates
  by_cases last : index = bindings.len.toNat
  · simp only [last, if_true, Except.ok.injEq, Prod.mk.injEq] at iterates
    rw [← iterates.2]
  · simp only [last, if_false, Except.ok.injEq, Prod.mk.injEq] at iterates
    rw [← iterates.2]

theorem nextElement_eq {cache after : ConfigCache} {finished : Bool}
    (iterates : nextElement cache = (finished, after)) :
    after = { cache with iterators := after.iterators } := by
  unfold nextElement at iterates
  by_cases last : cache.iterators.zero + 1 = cache.dcd.elementCnt.toNat
  · simp only [last, if_true, Prod.mk.injEq] at iterates
    rw [← iterates.2]
  · simp only [last, if_false, Prod.mk.injEq] at iterates
    rw [← iterates.2]

theorem iterModels_eq {supported : UInt16 → Bool} {cache after : ConfigCache}
    {finished : Bool} (iterates : iterModels supported cache = .ok (finished, after)) :
    after = { cache with iterators := after.iterators } := by
  simp only [iterModels, bind_ok] at iterates
  obtain ⟨_, _, index, _, iterates⟩ := iterates
  cases index with
  | some index =>
      simp only [Except.ok.injEq, Prod.mk.injEq] at iterates
      rw [← iterates.2]
  | none =>
      simp only [Except.ok.injEq] at iterates
      have advanced := nextElement_eq iterates
      exact advanced

theorem iterBindings_eq {cache after : ConfigCache} {host : Host} {finished : Bool}
    (iterates : iterBindings cache host = .ok (finished, after)) :
    after = { cache with iterators := after.iterators } := by
  simp only [iterBindings, bind_ok] at iterates
  obtain ⟨_, _, bindings, _, index, _, iterates⟩ := iterates
  by_cases last : index = bindings.len.toNat
  · simp only [last, if_true, bind_ok] at iterates
    obtain ⟨elem, _, iterates⟩ := iterates
    by_cases lastModel : cache.iterators.one + 1 = elem.modelCount
    · simp only [lastModel, if_true, Except.ok.injEq] at iterates
      have advanced := nextElement_eq iterates
      exact advanced
    · simp only [lastModel, if_false, Except.ok.injEq, Prod.mk.injEq] at iterates
      rw [← iterates.2]
  · simp only [last, if_false, Except.ok.injEq, Prod.mk.injEq] at iterates
    rw [← iterates.2]

theorem iterAddsub_eq {cache after : ConfigCache} {host : Host} {finished : Bool}
    (iterates : iterAddsub cache host = .ok (finished, after)) :
    after = { cache with iterators := after.iterators } := by
  simp only [iterAddsub, bind_ok] at iterates
  obtain ⟨_, _, sublist, _, iterates⟩ := iterates
  by_cases last : cache.iterators.two + 1 = sublist.len.toNat
  · simp only [last, if_true] at iterates
    rw [iterModels_eq iterates]
  · simp only [last, if_false, Except.ok.injEq, Prod.mk.injEq] at iterates
    rw [← iterates.2]

theorem acceptPub_some {state : AccState} {result : UInt16} {cache after : ConfigCache}
    {host : Host} (accepts : acceptPub result cache host = .ok (some after)) :
    result ≠ bgErrTimeout ∧ ∃ iterators ever remaining,
      after = { cache with
        iterators := iterators, everRetried := ever, remainingRetry := remaining } ∧
      BudgetStep state result cache ever remaining := by
  unfold acceptPub at accepts
  by_cases success : result = bgErrSuccess ∨ result = bgErrMeshNotInitialized
  · simp only [success, if_true, bind_ok, Except.ok.injEq, Option.some.injEq] at accepts
    obtain ⟨_, _, rfl⟩ := accepts
    refine ⟨?_, cache.iterators, false, 0, rfl, .inl ⟨rfl, rfl⟩⟩
    rcases success with rfl | rfl <;> decide
  · simp [success] at accepts

theorem acceptPub_rejects {cache : ConfigCache} {host : Host} :
    acceptPub bgErrSuccess cache host ≠ .ok none := by
  simp [acceptPub, bind_ok]

theorem acceptSub_some {result : UInt16} {cache after : ConfigCache} {host : Host}
    (accepts : acceptSub result cache host = .ok (some after)) :
    result ≠ bgErrTimeout ∧ ∃ iterators ever remaining,
      after = { cache with
        iterators := iterators, everRetried := ever, remainingRetry := remaining } ∧
      BudgetStep .addsubEm result cache ever remaining := by
  unfold acceptSub at accepts
  by_cases success : result = bgErrSuccess
  · simp only [success, if_true, bind_ok, Except.ok.injEq, Option.some.injEq] at accepts
    obtain ⟨_, _, rfl⟩ := accepts
    refine ⟨by rw [success]; decide, cache.iterators, false, 0, rfl, .inl ⟨rfl, rfl⟩⟩
  · by_cases crowded : result = bgErrMeshFoundationInsufficientResources
    · rw [if_neg success, if_pos crowded] at accepts
      simp only [bind_ok, Except.ok.injEq, Option.some.injEq] at accepts
      obtain ⟨_, _, _, _, rfl⟩ := accepts
      exact ⟨by rw [crowded]; decide, _, cache.everRetried, cache.remainingRetry, rfl,
        .inr ⟨rfl, crowded, rfl, rfl⟩⟩
    · simp [success, crowded] at accepts

theorem acceptSub_rejects {cache : ConfigCache} {host : Host} :
    acceptSub bgErrSuccess cache host ≠ .ok none := by
  simp [acceptSub, bind_ok]

theorem addappkeyOps_lawful : addappkeyOps.Lawful .addappkeyEm where
  own := by intro handle result; rfl
  foreign := by
    intro event other
    cases event with
    | status kind handle result =>
        cases kind with
        | appkey => exact False.elim (other handle result rfl)
        | _ => exact ⟨rfl, rfl⟩
    | _ => exact ⟨rfl, rfl⟩
  iterates := by decide
  budget := rfl
  accepts {_ _ host _} accepts := acceptSuccess_some host accepts
  rejects {_ host} := acceptSuccess_rejects host
  iter := iterAppkey_eq
  sends := addAppkey_sends

theorem bindappkeyOps_lawful : bindappkeyOps.Lawful .bindappkeyEm where
  own := by intro handle result; rfl
  foreign := by
    intro event other
    cases event with
    | status kind handle result =>
        cases kind with
        | binding => exact False.elim (other handle result rfl)
        | _ => exact ⟨rfl, rfl⟩
    | _ => exact ⟨rfl, rfl⟩
  iterates := by decide
  budget := rfl
  accepts {_ _ host _} accepts := acceptSuccess_some host accepts
  rejects {_ host} := acceptSuccess_rejects host
  iter := iterBindings_eq
  sends := bindAppkey_sends

theorem setpubOps_lawful : setpubOps.Lawful .setpubEm where
  own := by intro handle result; rfl
  foreign := by
    intro event other
    cases event with
    | status kind handle result =>
        cases kind with
        | modelPub => exact False.elim (other handle result rfl)
        | _ => exact ⟨rfl, rfl⟩
    | _ => exact ⟨rfl, rfl⟩
  iterates := by decide
  budget := rfl
  accepts := acceptPub_some
  rejects := acceptPub_rejects
  iter := iterModels_eq
  sends := setpub_sends

theorem addsubOps_lawful : addsubOps.Lawful .addsubEm where
  own := by intro handle result; rfl
  foreign := by
    intro event other
    cases event with
    | status kind handle result =>
        cases kind with
        | modelSub => exact False.elim (other handle result rfl)
        | _ => exact ⟨rfl, rfl⟩
    | _ => exact ⟨rfl, rfl⟩
  iterates := by decide
  budget := rfl
  accepts := acceptSub_some
  rejects := acceptSub_rejects
  iter := iterAddsub_eq
  sends := addsub_sends

/-! ## The states with a body of their own -/

theorem getdcdInprg_handled {slot : Slot} {event : ConfigEvent} {answer : CmdRsp}
    {cache : ConfigCache} {host : Host} {out : Outcome}
    (handled : getdcdInprg slot event answer cache host = .ok out) :
    Handled .getDcdEm slot event answer cache host out := by
  cases event with
  | dcdData handle page data len =>
      by_cases first : page = 0
      · simp only [getdcdInprg, first, if_true, bind_ok, Except.ok.injEq] at handled
        obtain ⟨⟨after, host'⟩, stored, rfl⟩ := handled
        exact .page rfl (by rw [first]) stored
      · simp only [getdcdInprg, first, if_false, Except.ok.injEq] at handled
        rw [← handled]
        exact .otherPage rfl
  | dcdDataEnd handle result =>
      by_cases success : result = bgErrSuccess
      · subst success
        simp only [getdcdInprg, if_true, bind_ok, Except.ok.injEq] at handled
        obtain ⟨⟨id, node⟩, found, rfl⟩ := handled
        obtain ⟨here, rfl⟩ := nodeOf_eq found
        exact .resumed rfl here rfl
      · by_cases timeout : result = bgErrTimeout
        · subst timeout
          simp only [getdcdInprg, success, if_true, if_false, Except.ok.injEq] at handled
          rw [← handled]
          exact .timeout rfl
        · simp only [getdcdInprg, success, timeout, if_false, Except.ok.injEq] at handled
          rw [← handled]
          exact .failed bgErrTimeout rfl ⟨success, timeout⟩
  | status kind handle result =>
      simp only [getdcdInprg, Except.ok.injEq] at handled
      rw [← handled]
      exact .unexpected rfl rfl
  | other id =>
      simp only [getdcdInprg, Except.ok.injEq] at handled
      rw [← handled]
      exact .unexpected rfl rfl

theorem rmInprg_handled {slot : Slot} {event : ConfigEvent} {answer : CmdRsp}
    {cache : ConfigCache} {host : Host} {out : Outcome}
    (handled : rmInprg slot event answer cache host = .ok out) :
    Handled .rmEm slot event answer cache host out := by
  have unexpected : ownStatus .rmEm event = none →
      isPageFor .rmEm event = false →
      (.ok { ret := .unspec, cache := cache.timerClear, host := host } :
        Except Abort Outcome) = .ok out →
      Handled .rmEm slot event answer cache host out := by
    intro foreign noPage same
    rw [← Except.ok.inj same]
    exact .unexpected foreign noPage
  cases event with
  | dcdData handle page data len => exact unexpected rfl rfl handled
  | dcdDataEnd handle result => exact unexpected rfl rfl handled
  | other id => exact unexpected rfl rfl handled
  | status kind handle result =>
      cases kind with
      | reset =>
          by_cases success : result = bgErrSuccess
          · subst success
            simp only [rmInprg, if_true, Except.ok.injEq] at handled
            rw [← handled]
            exact .removed rfl rfl
          · by_cases timeout : result = bgErrTimeout
            · subst timeout
              simp only [rmInprg, success, if_true, if_false, Except.ok.injEq] at handled
              rw [← handled]
              exact .timeout rfl
            · simp only [rmInprg, success, timeout, if_false, Except.ok.injEq] at handled
              rw [← handled]
              exact .failed bgErrTimeout rfl ⟨success, timeout⟩
      | _ => exact unexpected rfl rfl handled

theorem setconfigInprg_handled {slot : Slot} {event : ConfigEvent} {answer : CmdRsp}
    {cache : ConfigCache} {host : Host} {out : Outcome}
    (handled : setconfigInprg slot event answer cache host = .ok out) :
    Handled .setconfigEm slot event answer cache host out := by
  have unexpected : ownStatus .setconfigEm event = none →
      isPageFor .setconfigEm event = false →
      (.ok { ret := .unspec, cache := cache.timerClear, host := host } :
        Except Abort Outcome) = .ok out →
      Handled .setconfigEm slot event answer cache host out := by
    intro foreign noPage same
    rw [← Except.ok.inj same]
    exact .unexpected foreign noPage
  cases event with
  | dcdData handle page data len => exact unexpected rfl rfl handled
  | dcdDataEnd handle result => exact unexpected rfl rfl handled
  | other id => exact unexpected rfl rfl handled
  | status kind handle result =>
      cases feature : featureOf kind with
      | none =>
          simp only [setconfigInprg, feature] at handled
          exact unexpected (by simp [ownStatus, feature]) rfl handled
      | some which =>
          have own : ownStatus .setconfigEm (.status kind handle result) = some result := by
            simp [ownStatus, feature]
          simp only [setconfigInprg, feature, bind_ok] at handled
          obtain ⟨⟨id, node⟩, found, handled⟩ := handled
          obtain ⟨here, rfl⟩ := nodeOf_eq found
          by_cases success : result = bgErrSuccess
          · simp only [success, if_true, bind_ok] at handled
            obtain ⟨_, _, ⟨id', node⟩, found', handled⟩ := handled
            have fine : result ≠ bgErrTimeout := by rw [success]; decide
            let after : Host :=
              { host with db := host.db.update id (onFeatureConfigured which) }
            have features : FeatureStep .setconfigEm cache host after :=
              .inr ⟨rfl, id, which, here, rfl⟩
            have finishes : ∀ {last : ConfigCache} {end_ : Host},
                last = cache.going cache.iterators false 0 → end_ = after →
                finish last end_ = .ok out →
                Handled .setconfigEm slot (.status kind handle result) answer cache host
                  out := by
              rintro last end_ rfl rfl finished
              obtain ⟨id'', there, rfl⟩ := finish_eq finished
              have sameNode : id'' = id := Option.some.inj (there.symm.trans here)
              subst sameNode
              exact .finished cache.iterators false 0 own fine here features
                (.inl ⟨rfl, rfl⟩) (by decide)
            by_cases done : nextConfigItem node.config.features = none
            · simp only [done, if_true] at handled
              exact finishes rfl rfl handled
            · simp only [done, if_false, bind_ok] at handled
              obtain ⟨middle, sent, handled⟩ := handled
              have attempt := setconfig_sends sent
              by_cases unknown : middle.ret = .notfnd
              · simp only [unknown, if_true] at handled
                cases attempt with
                | unknown _ => exact finishes rfl rfl handled
                | _ => cases unknown
              · simp only [unknown, if_false, Except.ok.injEq] at handled
                rw [← handled]
                exact .continued cache.iterators false 0 own fine features
                  (.inl ⟨rfl, rfl⟩) attempt unknown
          · by_cases timeout : result = bgErrTimeout
            · subst timeout
              simp only [success, if_true, if_false, Except.ok.injEq] at handled
              rw [← handled]
              exact .timeout own
            · simp only [success, timeout, if_false, bind_ok, Except.ok.injEq] at handled
              obtain ⟨_, _, rfl⟩ := handled
              exact .failed bgErrTimeout own ⟨success, timeout⟩

/-! ## Entering -/

/-- What the entry function of a state can do.  A state whose guard is closed is skipped.
Otherwise its command is attempted, unless there is nothing to be sent for it. -/
inductive Entered (state : AccState) (slot : Slot) (answer : CmdRsp)
    (cache : ConfigCache) (host : Host) : Outcome → Prop where
  | skipped (closed : ∀ id, cache.node = some id →
        guardHolds state (host.db.heap id) = false) :
      Entered state slot answer cache host
        { ret := .tonext, cache := cache, host := host }
  | attempted {id : NodeId} {out : Outcome} (commands : isCommandState state = true)
      (here : cache.node = some id) (opened : guardHolds state (host.db.heap id) = true)
      (attempt : Attempt state slot answer cache host out) (known : out.ret ≠ .notfnd) :
      Entered state slot answer cache host out
  | noCommand {id : NodeId} (here : cache.node = some id)
      (opened : guardHolds state (host.db.heap id) = true)
      (none_left : NoCommand state cache host) :
      Entered state slot answer cache host
        { ret := .suc, cache := { cache with nextState := none }, host := host }
  | ended {after : Host} (final : state = .endEm)
      (conclusion : endEntry none slot answer cache host =
        .ok { ret := .suc, cache := cache, host := after }) :
      Entered state slot answer cache host
        { ret := .suc, cache := cache, host := after }
  | removed {after : Host} (final : state = .rmendEm)
      (conclusion : rmendEntry none slot answer cache host =
        .ok { ret := .suc, cache := cache, host := after }) :
      Entered state slot answer cache host
        { ret := .suc, cache := cache, host := after }

/-- An entry leaves the iterators, the composition data and the node alone. -/
theorem Entered.frame {state : AccState} {slot : Slot} {answer : CmdRsp} {cache : ConfigCache}
    {host : Host} {out : Outcome} (entered : Entered state slot answer cache host out) :
    out.cache.iterators = cache.iterators ∧ out.cache.dcd = cache.dcd ∧
      out.cache.node = cache.node := by
  cases entered with
  | attempted _ _ _ attempt _ =>
      cases attempt with
      | refused _ _ _ _ _ => exact ⟨rfl, rfl, rfl⟩
      | _ => exact ⟨rfl, rfl, rfl⟩
  | _ => exact ⟨rfl, rfl, rfl⟩

/-- A guard function that decides the guard property, on slots with a node. -/
def DecidesGuard (state : AccState) (guard : GuardFn) : Prop :=
  ∀ {cache host opened}, guard cache host = .ok opened →
    (opened = true → ∃ id, cache.node = some id ∧
      guardHolds state (host.db.heap id) = true) ∧
    (opened = false → ∀ id, cache.node = some id →
      guardHolds state (host.db.heap id) = false)

theorem configGuard_decides {state : AccState} {test : MeshConfig → Bool}
    (same : ∀ node, guardHolds state node = test node.config) :
    DecidesGuard state (configGuard test) := by
  intro cache host opened decided
  simp only [configGuard, bind_ok, Except.ok.injEq] at decided
  obtain ⟨⟨id, node⟩, found, rfl⟩ := decided
  obtain ⟨here, rfl⟩ := nodeOf_eq found
  refine ⟨fun holds => ⟨id, here, by rw [same]; exact holds⟩, fun fails other there => ?_⟩
  rw [here] at there
  rw [same, ← Option.some.inj there]
  exact fails

theorem getdcdGuard_decides : DecidesGuard .getDcdEm getdcdGuard := by
  intro cache host opened decided
  unfold getdcdGuard at decided
  cases here : cache.node with
  | none =>
      simp only [here, Except.ok.injEq] at decided
      rw [← decided]
      exact ⟨(fun impossible => nomatch impossible), (fun _ _ none => nomatch none)⟩
  | some id =>
      simp only [here, Except.ok.injEq] at decided
      refine ⟨fun holds => ⟨id, rfl, by rw [← decided] at holds; exact holds⟩, ?_⟩
      intro fails other there
      rw [← Option.some.inj there]
      rw [← decided] at fails
      exact fails

theorem rmGuard_decides : DecidesGuard .rmEm rmGuard := by
  intro cache host opened decided
  simp only [rmGuard, bind_ok, Except.ok.injEq] at decided
  obtain ⟨⟨id, node⟩, found, rfl⟩ := decided
  obtain ⟨here, rfl⟩ := nodeOf_eq found
  refine ⟨fun holds => ⟨id, here, holds⟩, fun fails other there => ?_⟩
  rw [here] at there
  rw [← Option.some.inj there]
  exact fails

theorem entryWith_entered {state : AccState} {once : SendFn} {guard : GuardFn}
    (sends : SendsFor state once) (decides : DecidesGuard state guard)
    (commands : isCommandState state = true) {slot : Slot} {answer : CmdRsp}
    {cache : ConfigCache} {host : Host} {out : Outcome}
    (entered : entryWith once (some guard) slot answer cache host = .ok out)
    (known : out.ret ≠ .notfnd) : Entered state slot answer cache host out := by
  simp only [entryWith, bind_ok] at entered
  obtain ⟨opened, decided, entered⟩ := entered
  obtain ⟨holds, fails⟩ := decides decided
  cases opened with
  | true =>
      obtain ⟨id, here, opened⟩ := holds rfl
      exact .attempted commands here opened (sends entered) known
  | false =>
      simp only [Bool.false_eq_true, if_false, Except.ok.injEq] at entered
      rw [← entered]
      exact .skipped (fails rfl)

/-- Entries of the states whose commands always exist. -/
theorem entryWith_known {state : AccState} {once : SendFn} {guard : GuardFn}
    (sends : SendsFor state once) (other : state ≠ .setconfigEm) {slot : Slot}
    {answer : CmdRsp} {cache : ConfigCache} {host : Host} {out : Outcome}
    (entered : entryWith once (some guard) slot answer cache host = .ok out) :
    out.ret ≠ .notfnd := by
  simp only [entryWith, bind_ok] at entered
  obtain ⟨opened, _, entered⟩ := entered
  cases opened with
  | true => exact (sends entered).known other
  | false =>
      simp only [Bool.false_eq_true, if_false, Except.ok.injEq] at entered
      rw [← entered]
      intro impossible
      cases impossible

theorem setconfigEntry_entered {slot : Slot} {answer : CmdRsp} {cache : ConfigCache}
    {host : Host} {out : Outcome}
    (entered : setconfigEntry (some setconfigGuard) slot answer cache host = .ok out) :
    Entered .setconfigEm slot answer cache host out := by
  have decides : DecidesGuard .setconfigEm setconfigGuard :=
    configGuard_decides fun _ => rfl
  simp only [setconfigEntry, bind_ok] at entered
  obtain ⟨middle, tried, entered⟩ := entered
  by_cases unknown : middle.ret = .notfnd
  · simp only [unknown, if_true, Except.ok.injEq] at entered
    simp only [entryWith, bind_ok] at tried
    obtain ⟨opened, decided, tried⟩ := tried
    cases opened with
    | true =>
        obtain ⟨id, here, opened⟩ := (decides decided).1 rfl
        cases setconfig_sends tried with
        | unknown none_left =>
            rw [← entered]
            exact .noCommand here opened none_left
        | _ => cases unknown
    | false =>
        simp only [Bool.false_eq_true, if_false, Except.ok.injEq] at tried
        rw [← tried] at unknown
        cases unknown
  · simp only [unknown, if_false, Except.ok.injEq] at entered
    rw [← entered]
    exact entryWith_entered setconfig_sends decides rfl tried unknown

/-- The entry of a final state always succeeds, and leaves the slot alone. -/
theorem endEntry_shape {guard : Option GuardFn} {slot : Slot} {answer : CmdRsp}
    {cache : ConfigCache} {host : Host} {out : Outcome}
    (entered : endEntry guard slot answer cache host = .ok out) :
    out = { ret := .suc, cache := cache, host := out.host } := by
  simp only [endEntry, bind_ok] at entered
  obtain ⟨_, _, entered⟩ := entered
  by_cases failed : cache.failed = true
  · simp only [failed, if_true, bind_ok, Except.ok.injEq] at entered
    obtain ⟨_, _, rfl⟩ := entered
    rfl
  · simp only [failed, bind_ok, Bool.false_eq_true, if_false, Except.ok.injEq] at entered
    obtain ⟨_, _, _, _, rfl⟩ := entered
    rfl

theorem endEntry_entered (guard : Option GuardFn) {slot : Slot} {answer : CmdRsp}
    {cache : ConfigCache} {host : Host} {out : Outcome}
    (entered : endEntry guard slot answer cache host = .ok out) :
    Entered .endEm slot answer cache host out := by
  have shape := endEntry_shape entered
  rw [shape] at entered
  rw [shape]
  exact .ended rfl entered

/-- The entry of a final state always succeeds, and leaves the slot alone. -/
theorem rmendEntry_shape {guard : Option GuardFn} {slot : Slot} {answer : CmdRsp}
    {cache : ConfigCache} {host : Host} {out : Outcome}
    (entered : rmendEntry guard slot answer cache host = .ok out) :
    out = { ret := .suc, cache := cache, host := out.host } := by
  simp only [rmendEntry, bind_ok] at entered
  obtain ⟨_, _, entered⟩ := entered
  by_cases failed : cache.failed = true
  · simp only [failed, if_true, bind_ok, Except.ok.injEq] at entered
    obtain ⟨_, _, rfl⟩ := entered
    rfl
  · simp only [failed, bind_ok, Bool.false_eq_true, if_false, Except.ok.injEq] at entered
    obtain ⟨_, _, _, _, _, _, _, _, rfl⟩ := entered
    rfl

theorem rmendEntry_entered (guard : Option GuardFn) {slot : Slot} {answer : CmdRsp}
    {cache : ConfigCache} {host : Host} {out : Outcome}
    (entered : rmendEntry guard slot answer cache host = .ok out) :
    Entered .rmendEm slot answer cache host out := by
  have shape := rmendEntry_shape entered
  rw [shape] at entered
  rw [shape]
  exact .removed rfl entered

/-!
## The list of states

From here on no proof unfolds a callback.  What is known of a state of the list is its
specification and its place in the list.
-/

/-- A state of the list follows the specification.  The list of states is a table of function
pointers in the source.  The engine is proved correct for any table whose members are lawful, and
the members are judged one by one. -/
structure AccStateOps.Lawful (ops : AccStateOps) : Prop where
  entry : ∀ {slot answer cache host out},
    ops.entry ops.guard slot answer cache host = .ok out →
      Entered ops.state slot answer cache host out
  inprg : ∀ {inprg slot event answer cache host out}, ops.inprg = some inprg →
    inprg slot event answer cache host = .ok out →
      Handled ops.state slot event answer cache host out
  retry : ∀ {retry reason slot answer cache host out}, ops.retry = some retry →
    retry reason slot answer cache host = .ok out →
      Retried ops.state reason slot answer cache host out
  waits : ops.inprg.isSome = isCommandState ops.state
  resends : ops.retry.isSome = isCommandState ops.state

theorem lawful_of_send {state : AccState} {once : SendFn} {guard : GuardFn}
    {inprg : Slot → ConfigEvent → CmdRsp → ConfigCache → Host → Except Abort Outcome}
    (sends : SendsFor state once) (decides : DecidesGuard state guard)
    (commands : isCommandState state = true) (other : state ≠ .setconfigEm)
    (handled : ∀ {slot event answer cache host out},
      inprg slot event answer cache host = .ok out →
        Handled state slot event answer cache host out) :
    AccStateOps.Lawful
      ⟨state, some guard, entryWith once, some inprg, some (retryWith once)⟩ where
  entry entered :=
    entryWith_entered sends decides commands entered
      (entryWith_known sends other entered)
  inprg same taken := by
    cases same
    exact handled taken
  retry same taken := by
    cases same
    exact retryWith_retried sends taken
  waits := commands.symm
  resends := commands.symm

theorem asGetDcd_lawful : asGetDcd.Lawful :=
  lawful_of_send dcdGet_sends getdcdGuard_decides rfl (by decide) getdcdInprg_handled

theorem asAddappkey_lawful : asAddappkey.Lawful :=
  lawful_of_send addAppkey_sends (configGuard_decides fun _ => rfl) rfl (by decide)
    (statusInprg_handled addappkeyOps_lawful)

theorem asBindappkey_lawful : asBindappkey.Lawful :=
  lawful_of_send bindAppkey_sends (configGuard_decides fun _ => rfl) rfl (by decide)
    (statusInprg_handled bindappkeyOps_lawful)

theorem asSetpub_lawful : asSetpub.Lawful :=
  lawful_of_send setpub_sends (configGuard_decides fun _ => rfl) rfl (by decide)
    (statusInprg_handled setpubOps_lawful)

theorem asAddsub_lawful : asAddsub.Lawful :=
  lawful_of_send addsub_sends (configGuard_decides fun _ => rfl) rfl (by decide)
    (statusInprg_handled addsubOps_lawful)

theorem asRm_lawful : asRm.Lawful :=
  lawful_of_send rm_sends rmGuard_decides rfl (by decide) rmInprg_handled

theorem asSetconfig_lawful : asSetconfig.Lawful where
  entry entered := setconfigEntry_entered entered
  inprg same taken := by
    cases same
    exact setconfigInprg_handled taken
  retry same taken := by
    cases same
    exact retryWith_retried setconfig_sends taken
  waits := rfl
  resends := rfl

theorem asEnd_lawful : asEnd.Lawful where
  entry entered := endEntry_entered none entered
  inprg same := by cases same
  retry same := by cases same
  waits := rfl
  resends := rfl

theorem asRmend_lawful : asRmend.Lawful where
  entry entered := rmendEntry_entered none entered
  inprg same := by cases same
  retry same := by cases same
  waits := rfl
  resends := rfl

theorem accStates_lawful : ∀ ops ∈ accStates, ops.Lawful := by
  intro ops member
  simp only [accStates, List.mem_cons, List.not_mem_nil, or_false] at member
  rcases member with rfl | rfl | rfl | rfl | rfl | rfl | rfl | rfl | rfl
  · exact asGetDcd_lawful
  · exact asAddappkey_lawful
  · exact asBindappkey_lawful
  · exact asSetpub_lawful
  · exact asAddsub_lawful
  · exact asSetconfig_lawful
  · exact asEnd_lawful
  · exact asRm_lawful
  · exact asRmend_lawful

theorem mem_accStates_of_asGet {state : AccState} {ops : AccStateOps}
    (member : ops ∈ asGet state) : ops ∈ accStates :=
  (List.dropWhile_sublist _).mem member

/-- `as_get` finds the state it is asked for. -/
theorem asGet_cons {state : AccState} {ops : AccStateOps} {rest : List AccStateOps}
    (found : asGet state = ops :: rest) : ops.state = state ∧ ops.Lawful := by
  have head : (ops.state != state) = false := by
    have nonempty : asGet state ≠ [] := by simp [found]
    have stops := List.head_dropWhile_not (fun ops : AccStateOps => ops.state != state)
      nonempty
    unfold asGet at found nonempty
    simp only [found, List.head_cons] at stops
    exact stops
  refine ⟨by simpa using head, accStates_lawful ops ?_⟩
  have member : ops ∈ asGet state := by
    rw [found]
    exact List.mem_cons_self
  exact mem_accStates_of_asGet member

/-- The states to try are behind the own one, or begin with the one that the slot names. -/
theorem leaveTargets_cases {cache : ConfigCache} {targets : List AccStateOps}
    (leaves : leaveTargets cache = .ok targets) :
    (∃ own, asGet cache.state = own :: targets) ∨
      ∃ state, cache.nextState = some state ∧ asGet state = targets ∧ targets ≠ [] := by
  unfold leaveTargets at leaves
  cases own : asGet cache.state with
  | nil =>
      cases next : cache.nextState with
      | none => simp [next, own] at leaves
      | some state =>
          cases found : asGet state with
          | nil => simp [next, own, found] at leaves
          | cons head rest =>
              simp only [next, found, Except.ok.injEq] at leaves
              exact .inr ⟨state, rfl, by rw [found, leaves], by simp [← leaves]⟩
  | cons ops behind =>
      cases next : cache.nextState with
      | none =>
          simp only [next, own, Except.ok.injEq] at leaves
          exact .inl ⟨ops, by rw [leaves]⟩
      | some state =>
          cases found : asGet state with
          | nil =>
              simp only [next, own, found, Except.ok.injEq] at leaves
              exact .inl ⟨ops, by rw [leaves]⟩
          | cons head rest =>
              simp only [next, found, Except.ok.injEq] at leaves
              exact .inr ⟨state, rfl, by rw [found, leaves], by simp [← leaves]⟩

theorem leaveTargets_mem {cache : ConfigCache} {targets : List AccStateOps}
    (leaves : leaveTargets cache = .ok targets) : ∀ ops ∈ targets, ops ∈ accStates := by
  intro other member
  rcases leaveTargets_cases leaves with ⟨own, found⟩ | ⟨state, _, found, _⟩
  · apply mem_accStates_of_asGet
    rw [found]
    exact List.mem_cons_of_mem own member
  · apply mem_accStates_of_asGet
    rw [found]
    exact member

theorem leaveTargets_lawful {cache : ConfigCache} {targets : List AccStateOps}
    (leaves : leaveTargets cache = .ok targets) : ∀ ops ∈ targets, ops.Lawful := by
  intro ops member
  exact accStates_lawful ops (leaveTargets_mem leaves ops member)

end Nwmng
