/-
Module: Nwmng.Config.Asking
Purpose: The command that a slot would send in its state, and that neither it nor the next place
of the iterators depends on the link to the NCP.
Trusted boundary: none
Main exports:
  ConfigCache.bare, Host.bare, Alike, requestOf, onceOf, once_asks, StatusOps.Regular
-/
import Mathlib
import Nwmng.Config.SlotRun

namespace Nwmng

open Fallible

/-!
## The work without the link

Two slots that differ in handles, timers and retries only are to ask for the same command.
`requestOf` computes it from what they have in common, apart from the functions of the source,
which compute and send at once.
-/

/-- A slot without its link to the NCP: what it waits for, its timer and its retries. -/
def ConfigCache.bare (cache : ConfigCache) : ConfigCache :=
  { cache with
    expired := 0, waitResponse := false, everRetried := false, oom := false, remainingRetry := 0
    ccHandle := 0, vnm := { vd := 0, md := 0 } }

/-- The records and the keys, without log and statistics. -/
def Host.bare (host : Host) : Host :=
  { host with stat := .zeroed, log := [] }

/-- Two slots that do the same work on the same records.  They may differ in everything that a
retry leaves behind: the timer, the stored handle, the budget, the counts of the statistics and
the log. -/
structure Alike (cache other : ConfigCache) (host between : Host) : Prop where
  slot : other.bare = cache.bare
  shared : between.bare = host.bare

/-- The command that a slot sends in a state; `none` where there is none. -/
def requestOf (state : AccState) (cache : ConfigCache) (host : Host) :
    Except Abort (Option Command) :=
  match state with
  | .getDcdEm => do
      let netkey ← host.netkeyId
      let (_, node) ← host.nodeOf cache
      .ok (some (.getDcd netkey node.addr 0))
  | .addappkeyEm => do
      let (_, node) ← host.nodeOf cache
      let refid ← bindingAt cache.iterators.zero node
      let appkey ← appkeyOf host refid
      let netkey ← host.netkeyId
      .ok (some (.addAppkey netkey node.addr appkey netkey))
  | .bindappkeyEm => do
      let elem ← elementAt cache
      let model ← modelAt elem cache.iterators.one
      let (_, node) ← host.nodeOf cache
      let refid ← bindingAt cache.iterators.two node
      let appkey ← appkeyOf host refid
      let netkey ← host.netkeyId
      .ok (some (.bindModel netkey node.addr cache.elementByte appkey model.vd model.md))
  | .setpubEm => do
      let elem ← elementAt cache
      let model ← modelAt elem cache.iterators.one
      let (_, node) ← host.nodeOf cache
      let pub ← present node.config.pub
      let appkey ← appkeyOf host pub.aki
      let netkey ← host.netkeyId
      let interval := if pub.txp.intv = 0 then 50 else pub.txp.intv
      .ok (some (.setModelPub netkey node.addr cache.elementByte model.vd model.md
        pub.addr appkey 0 pub.ttl pub.period pub.txp.cnt interval))
  | .addsubEm => do
      let elem ← elementAt cache
      let model ← modelAt elem cache.iterators.one
      let (_, node) ← host.nodeOf cache
      let sublist ← present node.config.sublist
      let address ← arrayAt sublist.data cache.iterators.two
      let netkey ← host.netkeyId
      .ok (some (if cache.iterators.two = 0 then
        .setModelSub netkey node.addr cache.elementByte model.vd model.md address
      else
        .addModelSub netkey node.addr cache.elementByte model.vd model.md address))
  | .setconfigEm => do
      let netkey ← host.netkeyId
      let (_, node) ← host.nodeOf cache
      setconfigCommand netkey node (nextConfigItem node.config.features)
  | .rmEm => do
      let netkey ← host.netkeyId
      let (_, node) ← host.nodeOf cache
      .ok (some (.resetNode netkey node.addr))
  | _ => .ok none

/-- The function that sends the command of a state. -/
def onceOf : AccState → SendFn
  | .getDcdEm => dcdGet
  | .addappkeyEm => addAppkey
  | .bindappkeyEm => bindAppkey
  | .setpubEm => setpub
  | .addsubEm => addsub
  | .setconfigEm => setconfig
  | .rmEm => rm
  | _ => fun _ _ cache host => .ok { ret := .notfnd, cache := cache, host := host }

theorem requestOf_bare (state : AccState) (cache : ConfigCache) (host : Host) :
    requestOf state cache.bare host.bare = requestOf state cache host := by
  cases state <;> rfl

theorem Alike.request {cache other : ConfigCache} {host between : Host}
    (alike : Alike cache other host between) (state : AccState) :
    requestOf state other between = requestOf state cache host := by
  rw [← requestOf_bare, alike.slot, alike.shared, requestOf_bare]

section

variable {state : AccState} {cache : ConfigCache} {host : Host} {command : Command}

/-- What is requested is sent; the slot notes at most the model. -/
theorem once_asks (asks : requestOf state cache host = .ok (some command)) (slot : Slot)
    (answer : CmdRsp) :
    ∃ vnm, onceOf state slot answer cache host =
      .ok (send (finalOf state) slot command answer { cache with vnm := vnm } host) := by
  cases state with
  | getDcdEm =>
      simp only [requestOf, bind_ok, Except.ok.injEq, Option.some.injEq] at asks
      obtain ⟨netkey, keys, ⟨id, node⟩, found, rfl⟩ := asks
      refine ⟨cache.vnm, ?_⟩
      simp only [onceOf, dcdGet, keys, found, ok_bind]
      rfl
  | addappkeyEm =>
      simp only [requestOf, bind_ok, Except.ok.injEq, Option.some.injEq] at asks
      obtain ⟨⟨id, node⟩, found, refid, bound, appkey, resolves, netkey, keys, rfl⟩ := asks
      refine ⟨cache.vnm, ?_⟩
      simp only [onceOf, addAppkey, keys, found, bound, resolves, ok_bind]
      rfl
  | bindappkeyEm =>
      simp only [requestOf, bind_ok, Except.ok.injEq, Option.some.injEq] at asks
      obtain ⟨elem, inside, model, noted, ⟨id, node⟩, found, refid, bound, appkey, resolves,
        netkey, keys, rfl⟩ := asks
      refine ⟨model, ?_⟩
      have here : host.nodeOf { cache with vnm := model } = .ok (id, node) := found
      simp only [onceOf, bindAppkey, noteModel, inside, noted, here, bound, resolves, keys, ok_bind]
      rfl
  | setpubEm =>
      simp only [requestOf, bind_ok, Except.ok.injEq, Option.some.injEq] at asks
      obtain ⟨elem, inside, model, noted, ⟨id, node⟩, found, pub, publishes, appkey, resolves,
        netkey, keys, rfl⟩ := asks
      refine ⟨model, ?_⟩
      have here : host.nodeOf { cache with vnm := model } = .ok (id, node) := found
      simp only [onceOf, setpub, noteModel, inside, noted, here, publishes, resolves, keys, ok_bind]
      rfl
  | addsubEm =>
      simp only [requestOf, bind_ok, Except.ok.injEq, Option.some.injEq] at asks
      obtain ⟨elem, inside, model, noted, ⟨id, node⟩, found, sublist, subscribes, address, listed,
        netkey, keys, rfl⟩ := asks
      refine ⟨model, ?_⟩
      have here : host.nodeOf { cache with vnm := model } = .ok (id, node) := found
      simp only [onceOf, addsub, noteModel, inside, noted, here, subscribes, listed, keys, ok_bind]
      rfl
  | setconfigEm =>
      simp only [requestOf, bind_ok] at asks
      obtain ⟨netkey, keys, ⟨id, node⟩, found, chosen⟩ := asks
      refine ⟨cache.vnm, ?_⟩
      simp only [onceOf, setconfig, keys, found, chosen, ok_bind]
      rfl
  | rmEm =>
      simp only [requestOf, bind_ok, Except.ok.injEq, Option.some.injEq] at asks
      obtain ⟨netkey, keys, ⟨id, node⟩, found, rfl⟩ := asks
      refine ⟨cache.vnm, ?_⟩
      simp only [onceOf, rm, keys, found, ok_bind]
      rfl
  | _ => cases asks

/-- Where there is no command, nothing is sent. -/
theorem once_silent (silent : requestOf state cache host = .ok none) (slot : Slot)
    (answer : CmdRsp) :
    onceOf state slot answer cache host = .ok { ret := .notfnd, cache := cache, host := host } := by
  cases state with
  | setconfigEm =>
      simp only [requestOf, bind_ok] at silent
      obtain ⟨netkey, keys, ⟨id, node⟩, found, chosen⟩ := silent
      simp only [onceOf, setconfig, keys, found, chosen, ok_bind]
  | provisioningEm => rfl
  | provisionedEm => rfl
  | endEm => rfl
  | rmendEm => rfl
  | _ =>
      simp only [requestOf, bind_ok, Except.ok.injEq, reduceCtorEq, and_false, exists_false]
        at silent

/-- A function that sends has read what it sends. -/
theorem request_of_once {slot : Slot} {answer : CmdRsp} {out : Outcome}
    (sent : onceOf state slot answer cache host = .ok out) :
    ∃ request, requestOf state cache host = .ok request := by
  cases state with
  | getDcdEm =>
      simp only [onceOf, dcdGet, bind_ok] at sent
      obtain ⟨netkey, keys, ⟨id, node⟩, found, _⟩ := sent
      simp only [requestOf, keys, found, ok_bind]
      exact ⟨_, rfl⟩
  | addappkeyEm =>
      simp only [onceOf, addAppkey, bind_ok] at sent
      obtain ⟨⟨id, node⟩, found, refid, bound, appkey, resolves, netkey, keys, _⟩ := sent
      simp only [requestOf, keys, found, bound, resolves, ok_bind]
      exact ⟨_, rfl⟩
  | bindappkeyEm =>
      simp only [onceOf, bindAppkey, noteModel, bind_ok, Except.ok.injEq] at sent
      obtain ⟨_, ⟨elem, inside, model, noted, rfl⟩, ⟨id, node⟩, found, refid, bound, appkey,
        resolves, netkey, keys, _⟩ := sent
      have here : host.nodeOf cache = .ok (id, node) := found
      simp only [requestOf, inside, noted, keys, here, bound, resolves, ok_bind]
      exact ⟨_, rfl⟩
  | setpubEm =>
      simp only [onceOf, setpub, noteModel, bind_ok, Except.ok.injEq] at sent
      obtain ⟨_, ⟨elem, inside, model, noted, rfl⟩, ⟨id, node⟩, found, pub, publishes, appkey,
        resolves, netkey, keys, _⟩ := sent
      have here : host.nodeOf cache = .ok (id, node) := found
      simp only [requestOf, inside, noted, keys, here, publishes, resolves, ok_bind]
      exact ⟨_, rfl⟩
  | addsubEm =>
      simp only [onceOf, addsub, noteModel, bind_ok, Except.ok.injEq] at sent
      obtain ⟨_, ⟨elem, inside, model, noted, rfl⟩, ⟨id, node⟩, found, sublist, subscribes, address,
        listed, netkey, keys, _⟩ := sent
      have here : host.nodeOf cache = .ok (id, node) := found
      simp only [requestOf, inside, noted, keys, here, subscribes, listed, ok_bind]
      exact ⟨_, rfl⟩
  | setconfigEm =>
      simp only [onceOf, setconfig, bind_ok] at sent
      obtain ⟨netkey, keys, ⟨id, node⟩, found, command, chosen, _⟩ := sent
      simp only [requestOf, keys, found, chosen, ok_bind]
      exact ⟨_, rfl⟩
  | rmEm =>
      simp only [onceOf, rm, bind_ok] at sent
      obtain ⟨netkey, keys, ⟨id, node⟩, found, _⟩ := sent
      simp only [requestOf, keys, found, ok_bind]
      exact ⟨_, rfl⟩
  | _ => exact ⟨none, rfl⟩

/-- Only setting features can find nothing to send. -/
theorem request_some {request : Option Command} (commands : isCommandState state = true)
    (other : state ≠ .setconfigEm) (asks : requestOf state cache host = .ok request) :
    ∃ command, request = some command := by
  cases request with
  | some command => exact ⟨command, rfl⟩
  | none =>
      have attempt := once_silent asks 0 default
      cases state with
      | setconfigEm => exact absurd rfl other
      | getDcdEm => exact absurd rfl ((dcdGet_sends attempt).known other)
      | addappkeyEm => exact absurd rfl ((addAppkey_sends attempt).known other)
      | bindappkeyEm => exact absurd rfl ((bindAppkey_sends attempt).known other)
      | setpubEm => exact absurd rfl ((setpub_sends attempt).known other)
      | addsubEm => exact absurd rfl ((addsub_sends attempt).known other)
      | rmEm => exact absurd rfl ((rm_sends attempt).known other)
      | _ => cases commands

end

/-! ## The iterations -/

section

variable {cache other : ConfigCache} {host between : Host}

/-- What reads neither the link nor the log is read alike. -/
theorem Alike.reads {α : Type} (alike : Alike cache other host between)
    {read : ConfigCache → Host → α}
    (bare : ∀ cache host, read cache.bare host.bare = read cache host) :
    read other between = read cache host := by
  rw [← bare other, alike.slot, alike.shared, bare]

theorem Alike.state (alike : Alike cache other host between) : other.state = cache.state :=
  @Alike.reads _ _ _ _ _ alike (fun cache _ => cache.state) fun _ _ => rfl

theorem Alike.nodeOf (alike : Alike cache other host between) :
    between.nodeOf other = host.nodeOf cache :=
  @Alike.reads _ _ _ _ _ alike (fun cache host => host.nodeOf cache) fun _ _ => rfl

theorem Alike.elementAt (alike : Alike cache other host between) :
    elementAt other = Nwmng.elementAt cache :=
  @Alike.reads _ _ _ _ _ alike (fun cache _ => Nwmng.elementAt cache) fun _ _ => rfl

theorem Alike.iterators (alike : Alike cache other host between) :
    other.iterators = cache.iterators :=
  @Alike.reads _ _ _ _ _ alike (fun cache _ => cache.iterators) fun _ _ => rfl

theorem Alike.dcd (alike : Alike cache other host between) : other.dcd = cache.dcd :=
  @Alike.reads _ _ _ _ _ alike (fun cache _ => cache.dcd) fun _ _ => rfl

/-- The slots stay alike when the iterators of both are set. -/
theorem Alike.advanced (alike : Alike cache other host between) (iterators : Iterators) :
    Alike { cache with iterators := iterators } { other with iterators := iterators } host
      between where
  slot := by
    have same :=
      congrArg (fun slot : ConfigCache => { slot with iterators := iterators }) alike.slot
    exact same
  shared := alike.shared

/-- A success is accepted, and the next place found, whatever the link went through.  Neither
function looks at the fields in which two alike slots differ, so what is found for the one is
found for the other. -/
structure StatusOps.Regular (ops : StatusOps) : Prop where
  accepts : ∀ {cache host after}, ops.accept bgErrSuccess cache host = .ok (some after) →
    after = cache.retryClear ∧ ∀ {other between}, Alike cache other host between →
      ops.accept bgErrSuccess other between = .ok (some other.retryClear)
  iterates : ∀ {cache host finished after}, ops.iter cache host = .ok (finished, after) →
    ∀ {other between}, Alike cache other host between →
      ops.iter other between = .ok (finished, { other with iterators := after.iterators })

theorem nextElement_alike (alike : Alike cache other host between) :
    nextElement other =
      ((nextElement cache).1, { other with iterators := (nextElement cache).2.iterators }) := by
  by_cases last : cache.iterators.zero + 1 = cache.dcd.elementCnt.toNat
  · simp only [nextElement, alike.iterators, alike.dcd, last, if_true]
  · simp only [nextElement, alike.iterators, alike.dcd, last, if_false]

theorem iterModels_alike {supported : UInt16 → Bool} {finished : Bool} {after : ConfigCache}
    (iterates : iterModels supported cache = .ok (finished, after))
    (alike : Alike cache other host between) :
    iterModels supported other = .ok (finished, { other with iterators := after.iterators }) := by
  simp only [iterModels, bind_ok] at iterates
  obtain ⟨elem, inside, index, searched, iterates⟩ := iterates
  simp only [iterModels, alike.elementAt, inside, alike.iterators, searched, ok_bind]
  cases index with
  | some index =>
      simp only [Except.ok.injEq, Prod.mk.injEq] at iterates
      obtain ⟨rfl, rfl⟩ := iterates
      rfl
  | none =>
      have again := nextElement_alike
        (alike.advanced { cache.iterators with one := 0 })
      simp only [Except.ok.injEq] at iterates
      rw [iterates] at again
      simp only
      rw [again]

theorem Alike.nextResolved (alike : Alike cache other host between) (bindings : Uint16List)
    (fuel : Nat) (index : Int) :
    nextResolved between bindings fuel index = Nwmng.nextResolved host bindings fuel index := by
  have resolves : ∀ refid, between.appkeyByRefid refid = host.appkeyByRefid refid := by
    intro refid
    exact @Alike.reads _ _ _ _ _ alike (fun _ host => host.appkeyByRefid refid) fun _ _ => rfl
  induction fuel generalizing index with
  | zero => rfl
  | succ fuel hypothesis => simp only [Nwmng.nextResolved, resolves, hypothesis]

/-- Only success is accepted as such. -/
theorem acceptSuccess_regular {after : ConfigCache}
    (accepts : acceptSuccess bgErrSuccess cache host = .ok (some after)) :
    after = cache.retryClear ∧ ∀ {other between}, Alike cache other host between →
      acceptSuccess bgErrSuccess other between = .ok (some other.retryClear) := by
  simp only [acceptSuccess, if_true, Except.ok.injEq, Option.some.injEq] at accepts
  exact ⟨accepts.symm, fun _ => rfl⟩

theorem addappkeyOps_regular : addappkeyOps.Regular where
  accepts := acceptSuccess_regular
  iterates := by
    intro cache host finished after iterates other between alike
    simp only [addappkeyOps, iterAppkey, bind_ok] at iterates
    obtain ⟨⟨id, node⟩, found, bindings, binds, index, searched, iterates⟩ := iterates
    simp only [addappkeyOps, iterAppkey, alike.nodeOf, found, binds, alike.iterators,
      alike.nextResolved, searched, ok_bind]
    by_cases last : index = bindings.len.toNat
    · simp only [last, if_true, Except.ok.injEq, Prod.mk.injEq] at iterates ⊢
      rw [← iterates.1, ← iterates.2]
      exact ⟨rfl, rfl⟩
    · simp only [last, if_false, Except.ok.injEq, Prod.mk.injEq] at iterates ⊢
      rw [← iterates.1, ← iterates.2]
      exact ⟨rfl, rfl⟩

theorem bindappkeyOps_regular : bindappkeyOps.Regular where
  accepts := acceptSuccess_regular
  iterates := by
    intro cache host finished after iterates other between alike
    simp only [bindappkeyOps, iterBindings, bind_ok] at iterates
    obtain ⟨⟨id, node⟩, found, bindings, binds, index, searched, iterates⟩ := iterates
    simp only [bindappkeyOps, iterBindings, alike.nodeOf, found, binds, alike.iterators,
      alike.nextResolved, searched, ok_bind]
    by_cases last : index = bindings.len.toNat
    · simp only [last, if_true, bind_ok] at iterates ⊢
      obtain ⟨elem, inside, iterates⟩ := iterates
      have here := (alike.advanced { cache.iterators with two := 0 }).elementAt
      refine ⟨elem, here.trans inside, ?_⟩
      by_cases behind : cache.iterators.one + 1 = elem.modelCount
      · simp only [behind, if_true, Except.ok.injEq] at iterates ⊢
        have again := nextElement_alike
          (alike.advanced { cache.iterators with one := 0, two := 0 })
        rw [iterates] at again
        exact again
      · simp only [behind, if_false, Except.ok.injEq, Prod.mk.injEq] at iterates ⊢
        rw [← iterates.1, ← iterates.2]
        exact ⟨rfl, rfl⟩
    · simp only [last, if_false, Except.ok.injEq, Prod.mk.injEq] at iterates ⊢
      rw [← iterates.1, ← iterates.2]
      exact ⟨rfl, rfl⟩

theorem setpubOps_regular : setpubOps.Regular where
  accepts := by
    intro cache host after accepts
    simp only [setpubOps, acceptPub, true_or, if_true, bind_ok, Except.ok.injEq, Option.some.injEq]
      at accepts
    obtain ⟨_, told, rfl⟩ := accepts
    refine ⟨rfl, fun {other between} alike => ?_⟩
    have again : pubMessage other between = pubMessage cache host :=
      alike.reads fun _ _ => rfl
    simp only [setpubOps, acceptPub, true_or, if_true, again, told, ok_bind]
  iterates iterates := iterModels_alike iterates

theorem addsubOps_regular : addsubOps.Regular where
  accepts := by
    intro cache host after accepts
    simp only [addsubOps, acceptSub, if_true, bind_ok, Except.ok.injEq, Option.some.injEq]
      at accepts
    obtain ⟨_, told, rfl⟩ := accepts
    refine ⟨rfl, fun {other between} alike => ?_⟩
    have again : subMessage other between = subMessage cache host :=
      alike.reads fun _ _ => rfl
    simp only [addsubOps, acceptSub, if_true, again, told, ok_bind]
  iterates := by
    intro cache host finished after iterates other between alike
    simp only [addsubOps, iterAddsub, bind_ok] at iterates
    obtain ⟨⟨id, node⟩, found, sublist, subscribes, iterates⟩ := iterates
    simp only [addsubOps, iterAddsub, alike.nodeOf, found, subscribes, alike.iterators, ok_bind]
    by_cases last : cache.iterators.two + 1 = sublist.len.toNat
    · simp only [last, if_true] at iterates ⊢
      exact iterModels_alike iterates (alike.advanced { cache.iterators with two := 0 })
    · simp only [last, if_false, Except.ok.injEq, Prod.mk.injEq] at iterates ⊢
      rw [← iterates.1, ← iterates.2]
      exact ⟨rfl, rfl⟩

end

end Nwmng
