/-
Module: Nwmng.Config.IteratorRuns
Purpose: The iterators that the states share, over whole runs of a slot: they are at zero when a
state begins that uses them, and never leave the arrays.
Trusted boundary: none
Main exports:
  ConfigCache.Tidy, SlotOp.Undisturbed, SlotOp.NotAgain, enteredWith, iterators_clean_guarded,
  repeated_list_leaves_iterators
-/
import Nwmng.Config.HostChanges
import Nwmng.Config.IteratorReads

/-!
No state sets the iterators when it is entered.  Each relies on the one before it, which leaves
them at zero when its list is done.  The weak point is a slot that is through with its list and is
given its command once more: it goes through the list again, but no longer stays to its end.
-/

namespace Nwmng

open Transition Fallible

/-! ## The order in which the iterators are handed on -/

namespace AccState

/-- The states behind which another one may begin that uses the iterators. -/
def handsOn : AccState → Bool
  | addappkeyEm | bindappkeyEm | setpubEm => true
  | _ => false

/-- The states that begin no list, and lead to none that does. -/
def closing : AccState → Bool
  | endEm | rmEm | rmendEm => true
  | _ => false

/-- The states behind which no other begins that uses the iterators. -/
def late : AccState → Bool
  | addsubEm | setconfigEm | endEm | rmEm | rmendEm => true
  | _ => false

/-- The states that are entered with the iterators at zero. -/
def beginsHome : AccState → Bool
  | setconfigEm | endEm | rmEm | rmendEm => false
  | _ => true

end AccState

/-- A slot that is about to leave its state: through with the list, with the iterators at zero, or
failed.  Only the lack of memory that was left behind makes it send again. -/
structure ConfigCache.Concluded (cache : ConfigCache) : Prop where
  idle : cache.waitResponse = false
  fresh : cache.everRetried = false
  disarmed : cache.expired = 0
  leads : (cache.nextState = none ∧ cache.iterators = .home) ∨
    (cache.nextState = some .endEm ∧ cache.oom = false)

/-- The iterators of a slot are in order: untouched before the first list, at a place of the
present state, and back at zero where another list may follow. -/
structure ConfigCache.Tidy (cache : ConfigCache) (listings : Listings) : Prop where
  early : cache.state.handsOn = false → cache.state.late = false → cache.iterators = .home
  placed : cache.iterators.Placed cache.state cache.dcd listings
  concluded : cache.state.handsOn = true → cache.nextState ≠ some cache.state → cache.Concluded
  late : cache.state.late = true → ∀ next, cache.nextState = some next →
    next = cache.state ∨ next.closing = true
  populated : cache.dcd.Populated

/-- Every element of composition data has a model. -/
def Dcd.NoEmpty (dcd : Dcd) : Prop :=
  ∀ elem ∈ dcd.elems.getD [], 0 < elem.modelCount

instance (dcd : Dcd) : Decidable dcd.NoEmpty :=
  inferInstanceAs (Decidable (∀ elem ∈ dcd.elems.getD [], 0 < elem.modelCount))

/-- The lists of the node are not loaded anew, and the composition data that arrives has a model
in each of its elements. -/
def SlotOp.Undisturbed (source : SlotState) : SlotOp → Prop
  | .outside db _ _ _ => ∀ id, source.cache.node = some id →
      (db.heap id).listings = (source.host.db.heap id).listings
  | .event _ (.dcdData _ page data len) _ => page = 0 → ∀ id, source.cache.node = some id →
      ∀ read, dcdStore 256 data len (source.host.db.heap id).func = some read → read.1.NoEmpty
  | _ => True

instance slotOpUndisturbedDecidable (source : SlotState) :
    (op : SlotOp) → Decidable (op.Undisturbed source)
  | .outside db _ _ _ =>
      inferInstanceAs (Decidable (∀ id, source.cache.node = some id →
        (db.heap id).listings = (source.host.db.heap id).listings))
  | .event _ (.dcdData _ page data len) _ =>
      inferInstanceAs (Decidable (page = 0 → ∀ id, source.cache.node = some id →
        ∀ read, dcdStore 256 data len (source.host.db.heap id).func = some read →
          read.1.NoEmpty))
  | .event _ (.dcdDataEnd _ _) _ => isTrue trivial
  | .event _ (.status _ _ _) _ => isTrue trivial
  | .event _ (.other _) _ => isTrue trivial
  | .round .. => isTrue trivial

/-- A slot that is through with its list is not given the command again that a lack of memory has
left behind. -/
def SlotOp.NotAgain (source : SlotState) : SlotOp → Prop
  | .round _ input => source.cache.state.handsOn = true → source.cache.nextState = none →
      source.cache.oom = true → input.retry.result ≠ bgErrSuccess
  | _ => True

instance slotOpNotAgainDecidable (source : SlotState) :
    (op : SlotOp) → Decidable (op.NotAgain source)
  | .round _ input =>
      inferInstanceAs (Decidable (source.cache.state.handsOn = true →
        source.cache.nextState = none → source.cache.oom = true →
          input.retry.result ≠ bgErrSuccess))
  | .event .. => isTrue trivial
  | .outside .. => isTrue trivial

/-- The state that `to_next_state` enters in a round, with the iterators it is entered with. -/
def enteredWith (manager : MngState) (slot : Slot) (input : RoundInput) (cache : ConfigCache)
    (host : Host) : Option (AccState × Iterators) :=
  match retryException manager slot input cache host with
  | .error _ => none
  | .ok (middle, between) =>
      if middle.stays then none
      else (firstOpen middle between).map fun state => (state, middle.iterators)

section

variable {cache after : ConfigCache} {host host' : Host} {listings : Listings} {slot : Slot}
variable {answer : CmdRsp} {out : Outcome}

/-! ## What keeps the order -/

/-- A slot that stays at its list may change in everything but its place. -/
theorem ConfigCache.Tidy.moved (tidy : cache.Tidy listings) (state : after.state = cache.state)
    (next : after.nextState = cache.nextState) (dcd : after.dcd = cache.dcd)
    (iterators : after.iterators = cache.iterators)
    (onward : cache.state.handsOn = true → cache.nextState = some cache.state) :
    after.Tidy listings where
  early hands late := by
    rw [iterators]
    rw [state] at hands late
    exact tidy.early hands late
  placed := by
    rw [iterators, state, dcd]
    exact tidy.placed
  concluded hands leaves := by
    rw [state] at hands leaves
    rw [next] at leaves
    exact absurd (onward hands) leaves
  late late following same := by
    rw [state] at late ⊢
    rw [next] at same
    exact tidy.late late following same
  populated := by
    rw [dcd]
    exact tidy.populated

/-- Noting a model. -/
theorem ConfigCache.Tidy.noted (tidy : cache.Tidy listings) (vnm : Vnm) :
    ({ cache with vnm := vnm } : ConfigCache).Tidy listings where
  early := tidy.early
  placed := tidy.placed
  concluded hands leaves :=
    let before := tidy.concluded hands leaves
    ⟨before.idle, before.fresh, before.disarmed, before.leads⟩
  late := tidy.late
  populated := tidy.populated

theorem finalOf_closing (state : AccState) : (finalOf state).closing = true := by
  rcases finalOf_final state with final | final
  · rw [final]
    rfl
  · rw [final]
    rfl

/-- A slot that fails leaves for a final state, with nothing left to send. -/
theorem ConfigCache.Tidy.failing (tidy : cache.Tidy listings) (code : UInt16)
    (origin : BgerrType) : (errSetTo (finalOf cache.state) cache code origin).Tidy listings := by
  have same : (errSetTo (finalOf cache.state) cache code origin).state = cache.state :=
    errSetTo_state _ cache code origin
  have iterators : (errSetTo (finalOf cache.state) cache code origin).iterators =
      cache.iterators := by cases origin <;> rfl
  have dcd : (errSetTo (finalOf cache.state) cache code origin).dcd = cache.dcd := by
    cases origin <;> rfl
  refine ⟨?_, ?_, ?_, ?_, ?_⟩
  · rw [same, iterators]
    exact tidy.early
  · rw [same, iterators, dcd]
    exact tidy.placed
  · rw [same]
    intro hands _
    have final : finalOf cache.state = .endEm := by
      unfold finalOf
      rw [if_neg]
      intro removes
      rw [removes] at hands
      cases hands
    exact ⟨rfl, rfl, rfl, .inr ⟨congrArg some final, rfl⟩⟩
  · intro _ next leads
    cases leads
    exact .inr (finalOf_closing cache.state)
  · rw [dcd]
    exact tidy.populated

/-- A slot that sends its command in its present state: it is not through with its list, or the
NCP does not take the command. -/
def Sends (cache : ConfigCache) (answer : CmdRsp) : Prop :=
  cache.state.handsOn = true → cache.nextState = some cache.state ∨
    (cache.Concluded ∧ cache.nextState = none ∧ answer.result ≠ bgErrSuccess)

theorem Sends.onward {cache : ConfigCache} {answer : CmdRsp} (sends : Sends cache answer)
    (success : answer.result = bgErrSuccess) (hands : cache.state.handsOn = true) :
    cache.nextState = some cache.state := by
  rcases sends hands with own | ⟨_, _, refused⟩
  · exact own
  · exact absurd success refused

/-- An attempt moves no iterator. -/
theorem Attempt.tidy (attempt : Attempt cache.state slot answer cache host out)
    (tidy : cache.Tidy listings) (sends : Sends cache answer) : out.cache.Tidy listings := by
  cases attempt with
  | accepted command vnm success _ _ =>
      exact tidy.moved rfl rfl rfl rfl (sends.onward success)
  | outOfMemory command vnm full _ _ =>
      refine ⟨tidy.early, tidy.placed, fun hands leaves => ?_, tidy.late, tidy.populated⟩
      rcases sends hands with own | ⟨done, through, _⟩
      · exact absurd own leaves
      · refine ⟨done.idle, done.fresh, done.disarmed, .inl ⟨through, ?_⟩⟩
        rcases done.leads with ⟨_, home⟩ | ⟨ends, _⟩
        · exact home
        · rw [through] at ends
          cases ends
  | refused command vnm _ _ _ =>
      exact (tidy.noted vnm).failing answer.result .bgapiEm
  | unknown _ => exact tidy

theorem Retried.tidy {reason : RetryReason}
    (retried : Retried cache.state reason slot answer cache host out)
    (tidy : cache.Tidy listings) (sends : Sends cache answer) : out.cache.Tidy listings := by
  cases retried with
  | unsent attempt _ => exact attempt.tidy tidy sends
  | resent attempt sent finishes =>
      cases attempt with
      | accepted command vnm success _ _ =>
          have onward := sends.onward success
          cases reason with
          | onTimeoutEm =>
              obtain ⟨_, _, rfl⟩ := finishes
              exact tidy.moved rfl rfl rfl rfl onward
          | onOomEm =>
              obtain ⟨_, rfl⟩ := finishes
              exact tidy.moved rfl rfl rfl rfl onward
          | onGuardTimerExpiredEm =>
              obtain ⟨_, rfl⟩ := finishes
              exact tidy.moved rfl rfl rfl rfl onward
      | _ => cases sent

/-! ## Rounds -/

/-- The first half of a round sends again for a slot that is at its list.  One that is through
with it has no timer left, and what a lack of memory makes it send is not taken. -/
theorem ExceptionStep.tidy {manager : MngState} {input : RoundInput}
    (exception : ExceptionStep manager slot input cache host after host')
    (tidy : cache.Tidy listings)
    (again : cache.state.handsOn = true → cache.nextState = none → cache.oom = true →
      input.retry.result ≠ bgErrSuccess) : after.Tidy listings := by
  cases exception with
  | quiet _ => exact tidy
  | expired _ late retried =>
      apply retried.tidy tidy
      intro hands
      by_contra neither
      have leaves : cache.nextState ≠ some cache.state := fun own => neither (.inl own)
      have disarmed := (tidy.concluded hands leaves).disarmed
      simp [ConfigCache.guardExpired, disarmed] at late
  | memory _ _ memory _ retried =>
      apply retried.tidy tidy
      intro hands
      by_cases own : cache.nextState = some cache.state
      · exact .inl own
      · have done := tidy.concluded hands own
        rcases done.leads with ⟨through, _⟩ | ⟨_, none_⟩
        · exact .inr ⟨done, through, again hands through memory⟩
        · rw [memory] at none_
          cases none_

/-- A state that goes through a list is entered with the iterators at zero. -/
theorem iterates_begins {state : AccState} (iterates : state.iterates = true) :
    state.beginsHome = true := by
  revert iterates
  cases state <;> decide

theorem closing_targets {state : AccState} (closes : state.closing = true) :
    asGet state ≠ [] ∧ ∀ ops ∈ asGet state, ops.state.beginsHome = false := by
  cases state with
  | endEm =>
      refine ⟨List.cons_ne_nil asEnd [asRm, asRmend], fun ops member => ?_⟩
      change ops ∈ [asEnd, asRm, asRmend] at member
      simp only [List.mem_cons, List.not_mem_nil, or_false] at member
      rcases member with rfl | rfl | rfl <;> rfl
  | rmEm =>
      refine ⟨List.cons_ne_nil asRm [asRmend], fun ops member => ?_⟩
      change ops ∈ [asRm, asRmend] at member
      simp only [List.mem_cons, List.not_mem_nil, or_false] at member
      rcases member with rfl | rfl <;> rfl
  | rmendEm =>
      refine ⟨List.cons_ne_nil asRmend [], fun ops member => ?_⟩
      change ops ∈ [asRmend] at member
      rw [List.mem_singleton.mp member]
      rfl
  | _ => cases closes

/-- Behind a late state no list begins. -/
theorem late_targets {state : AccState} (isLate : state.late = true) {own : AccStateOps}
    {rest : List AccStateOps} (found : asGet state = own :: rest) :
    ∀ ops ∈ rest, ops.state.beginsHome = false := by
  intro ops member
  cases state with
  | addsubEm =>
      change [asAddsub, asSetconfig, asEnd, asRm, asRmend] = own :: rest at found
      cases found
      simp only [List.mem_cons, List.not_mem_nil, or_false] at member
      rcases member with rfl | rfl | rfl | rfl <;> rfl
  | setconfigEm =>
      change [asSetconfig, asEnd, asRm, asRmend] = own :: rest at found
      cases found
      simp only [List.mem_cons, List.not_mem_nil, or_false] at member
      rcases member with rfl | rfl | rfl <;> rfl
  | endEm =>
      change [asEnd, asRm, asRmend] = own :: rest at found
      cases found
      simp only [List.mem_cons, List.not_mem_nil, or_false] at member
      rcases member with rfl | rfl <;> rfl
  | rmEm =>
      change [asRm, asRmend] = own :: rest at found
      cases found
      rw [List.mem_singleton.mp member]
      rfl
  | rmendEm =>
      change [asRmend] = own :: rest at found
      cases found
      cases member
  | _ => cases isLate

/-- A slot that leaves its state for one that begins a list has the iterators at zero. -/
theorem ConfigCache.Tidy.leaves_home (tidy : cache.Tidy listings) (leaving : cache.stays = false)
    {targets : List AccStateOps} (leads : leaveTargets cache = .ok targets) {ops : AccStateOps}
    (member : ops ∈ targets) (begins : ops.state.beginsHome = true) :
    cache.iterators = .home := by
  have other : cache.nextState ≠ some cache.state := by
    intro own
    simp [ConfigCache.stays, own] at leaving
  -- a final state is not followed by one that begins a list
  have closes : ∀ next, cache.nextState = some next → next.closing = true → False := by
    intro next same closing
    obtain ⟨found, none_⟩ := closing_targets closing
    have targeted : targets = asGet next := by
      rw [leaveTargets, same] at leads
      dsimp only at leads
      split at leads
      · rename_i absent
        exact absurd absent found
      · cases leads
        rfl
    rw [targeted] at member
    rw [none_ ops member] at begins
    cases begins
  cases hands : cache.state.handsOn with
  | true =>
      rcases (tidy.concluded hands other).leads with ⟨_, home⟩ | ⟨ends, _⟩
      · exact home
      · exact (closes _ ends rfl).elim
  | false =>
      cases isLate : cache.state.late with
      | false => exact tidy.early hands isLate
      | true =>
          exfalso
          cases next : cache.nextState with
          | some following =>
              rcases tidy.late isLate following next with own | closing
              · exact other (by rw [next, own])
              · exact closes following next closing
          | none =>
              rcases leaveTargets_cases leads with ⟨own, found⟩ | ⟨_, named, _⟩
              · rw [late_targets isLate found ops member] at begins
                cases begins
              · rw [next] at named
                cases named

/-! ## Entering a state -/

/-- The entry of a state that reads models has found composition data. -/
theorem entry_stored {ops : AccStateOps} (member : ops ∈ accStates)
    (iterates : ops.state.iterates = true) (other : ops.state ≠ .addappkeyEm)
    (entered : ops.entry ops.guard slot answer cache host = .ok out) (ret : out.ret ≠ .tonext) :
    cache.dcd.elems.isSome = true := by
  have sent : ∀ {once : SendFn} {guard : GuardFn},
      entryWith once (some guard) slot answer cache host = .ok out →
      once slot answer cache host = .ok out := by
    intro once guard taken
    simp only [entryWith, bind_ok] at taken
    obtain ⟨opened, _, taken⟩ := taken
    cases opened with
    | true => exact taken
    | false =>
        simp only [Bool.false_eq_true, if_false, Except.ok.injEq] at taken
        rw [← taken] at ret
        exact absurd rfl ret
  simp only [accStates, List.mem_cons, List.not_mem_nil, or_false] at member
  rcases member with rfl | rfl | rfl | rfl | rfl | rfl | rfl | rfl | rfl
  · cases iterates
  · exact absurd rfl other
  · have taken := sent entered
    simp only [bindAppkey, bind_ok] at taken
    obtain ⟨noted, noting, _⟩ := taken
    exact noteModel_stored noting
  · have taken := sent entered
    simp only [setpub, bind_ok] at taken
    obtain ⟨noted, noting, _⟩ := taken
    exact noteModel_stored noting
  · have taken := sent entered
    simp only [addsub, bind_ok] at taken
    obtain ⟨noted, noting, _⟩ := taken
    exact noteModel_stored noting
  · cases iterates
  · cases iterates
  · cases iterates
  · cases iterates

/-- A state that is entered finds the iterators at zero, where it may read. -/
theorem entry_tidy {ops : AccStateOps} (member : ops ∈ accStates)
    (own : cache.WorksOn host listings) (populated : cache.dcd.Populated)
    (home : ops.state.beginsHome = true → cache.iterators = .home)
    (entered : ops.entry ops.guard slot answer cache host = .ok out) (ret : out.ret ≠ .tonext) :
    ({ out.cache with state := ops.state, nextState := some ops.state } : ConfigCache).Tidy
      listings := by
  have step := (accStates_lawful ops member).entry entered
  obtain ⟨iterators, dcd, _⟩ := step.frame
  refine ⟨fun hands late => ?_, ?_, fun _ leaves => absurd rfl leaves, ?_, ?_⟩
  · change out.cache.iterators = .home
    rw [iterators]
    apply home
    change ops.state.handsOn = false at hands
    change ops.state.late = false at late
    revert hands late
    cases ops.state <;> decide
  · change out.cache.iterators.Placed ops.state out.cache.dcd listings
    rw [iterators, dcd]
    cases iterates : ops.state.iterates with
    | false => exact .other iterates
    | true =>
        rw [home (iterates_begins iterates)]
        have stored : ops.state ≠ .addappkeyEm → cache.dcd.elems.isSome = true :=
          fun other => entry_stored member iterates other entered ret
        obtain ⟨id, here, same⟩ := own
        have opened : guardHolds ops.state (host.db.heap id) = true := by
          cases step with
          | skipped _ => exact absurd rfl ret
          | attempted _ there opened _ _ =>
              rw [here] at there
              cases there
              exact opened
          | noCommand _ _ none_left =>
              rw [none_left.1] at iterates
              cases iterates
          | ended final _ =>
              rw [final] at iterates
              cases iterates
          | removed final _ =>
              rw [final] at iterates
              cases iterates
        rw [← same]
        exact home_placed opened populated stored
  · intro _ next same
    cases same
    exact .inl rfl
  · change out.cache.dcd.Populated
    rw [dcd]
    exact populated

/-- What the entry loop ends with: nothing was entered, or a final state after a refusal, or the
entry of one of the targets. -/
theorem enterStates_entry {targets : List AccStateOps} (lawful : ∀ ops ∈ targets, ops.Lawful)
    {moved : Bool}
    (taken : enterStates slot answer targets cache host = .ok (moved, after, host')) :
    (after = cache ∧ host' = host) ∨ after.state = .endEm ∨
      ∃ ops ∈ targets, ∃ out, ops.entry ops.guard slot answer cache host = .ok out ∧
        out.ret ≠ .tonext ∧ host' = out.host ∧
        after = { out.cache with state := ops.state, nextState := some ops.state } := by
  induction targets with
  | nil =>
      simp only [enterStates, Except.ok.injEq, Prod.mk.injEq] at taken
      obtain ⟨_, rfl, rfl⟩ := taken
      exact .inl ⟨rfl, rfl⟩
  | cons ops rest hypothesis =>
      simp only [enterStates, bind_ok] at taken
      obtain ⟨out, entered, taken⟩ := taken
      have step := (lawful ops List.mem_cons_self).entry entered
      have arrives : out.ret ≠ .tonext →
          (.ok (true, { out.cache with state := ops.state, nextState := some ops.state },
            out.host) : Except Abort _) = .ok (moved, after, host') →
          ∃ other ∈ ops :: rest, ∃ out,
            other.entry other.guard slot answer cache host = .ok out ∧ out.ret ≠ .tonext ∧
              host' = out.host ∧
              after = { out.cache with state := other.state, nextState := some other.state } := by
        intro ret same
        cases same
        exact ⟨ops, List.mem_cons_self, out, entered, ret, rfl, rfl⟩
      have ends : (do
          let last ← asEnd.entry asEnd.guard slot answer out.cache out.host
          .ok (true, { last.cache with state := .endEm, nextState := some .endEm }, last.host) :
            Except Abort (Bool × ConfigCache × Host)) = .ok (moved, after, host') →
          after.state = .endEm := by
        intro last
        obtain ⟨final, _, same⟩ := bind_ok.mp last
        cases same
        rfl
      cases ret : out.ret with
      | suc =>
          rw [ret] at taken
          exact .inr (.inr (arrives (by rw [ret]; decide) taken))
      | oom =>
          rw [ret] at taken
          exact .inr (.inr (arrives (by rw [ret]; decide) taken))
      | tonext =>
          rw [ret] at taken
          dsimp only at taken
          cases step with
          | skipped _ =>
              rcases hypothesis (fun other inside => lawful other (List.mem_cons_of_mem ops inside))
                taken with nothing | final | ⟨other, inside, entry⟩
              · exact .inl nothing
              · exact .inr (.inl final)
              · exact .inr (.inr ⟨other, List.mem_cons_of_mem ops inside, entry⟩)
          | attempted _ _ _ attempt _ =>
              cases attempt <;> cases ret
          | _ => cases ret
      | bgapi =>
          rw [ret] at taken
          exact .inr (.inl (ends taken))
      | unspec =>
          rw [ret] at taken
          exact .inr (.inl (ends taken))
      | notfnd =>
          rw [ret] at taken
          exact .inr (.inl (ends taken))

/-! ## The lists of the record -/

/-- The work of a slot leaves the lists of every record alone. -/
theorem work_listings (work : HostWork slot host host') (id : NodeId) :
    (host'.db.heap id).listings = (host.db.heap id).listings := by
  have refl : ∀ db : CfgDb, db.Kept (fun node after => after.listings = node.listings) db :=
    fun db => ⟨fun _ => rfl, rfl⟩
  have kept : host.db.Kept (fun node after => after.listings = node.listings) host'.db := by
    apply @HostWork.of_changes slot
      (fun before after =>
        before.db.Kept (fun node after => after.listings = node.listings) after.db) _ _ work
    · intro host
      exact refl host.db
    · intro first second third one two
      exact one.trans (fun before after => after.trans before) two
    · intro host next change
      cases change with
      | counted stat => exact refl host.db
      | logged own => exact refl host.db
      | @written change record worked =>
          apply @CfgDb.Kept.update (fun node after => after.listings = node.listings)
            (fun _ => rfl) change
          intro node
          cases worked with
          | func func => rfl
          | feature which => rfl
  exact kept.records id

theorem ConfigCache.WorksOn.carried (own : cache.WorksOn host listings)
    (node : after.node = cache.node) (work : HostWork slot host host') :
    after.WorksOn host' listings := by
  obtain ⟨id, here, same⟩ := own
  exact ⟨id, node.trans here, (work_listings work id).trans same⟩

/-!
## Events

A status moves the iterators of a state that goes through a list, from one place to the next or
home.  What a slot waits for is always a command of the list it is at.
-/

/-- A slot that waits is at its list. -/
theorem ConfigCache.Tidy.onward (tidy : cache.Tidy listings) (waits : cache.waitResponse = true)
    (hands : cache.state.handsOn = true) : cache.nextState = some cache.state := by
  by_contra leaves
  have idle := (tidy.concluded hands leaves).idle
  rw [waits] at idle
  cases idle

/-- A timeout keeps the place; the last one gives up. -/
theorem timedOut_tidy (tidy : cache.Tidy listings) (waits : cache.waitResponse = true)
    (final : finalOf cache.state = .endEm) (retryTimes : UInt8) :
    (timedOut retryTimes giveUpToEnd cache.answered).Tidy listings := by
  have onward := tidy.onward waits
  rcases timedOut_cases retryTimes giveUpToEnd cache.answered with
    ⟨_, same⟩ | ⟨_, _, same⟩ | ⟨_, _, same⟩
  · rw [same]
    exact tidy.moved rfl rfl rfl rfl onward
  · have cleared : cache.answered.retryClear.Tidy listings := tidy.moved rfl rfl rfl rfl onward
    have fails := cleared.failing bgErrTimeout .bgeventEm
    rw [same]
    change (ConfigCache.errSetTo (finalOf cache.state) _ _ _).Tidy listings at fails
    rw [final] at fails
    exact fails
  · rw [same]
    exact tidy.moved rfl rfl rfl rfl onward

/-- What is recorded as an error of an event. -/
theorem errSetToEnd_tidy (tidy : cache.Tidy listings) (waits : cache.waitResponse = true)
    (final : finalOf cache.state = .endEm) (code : UInt16) :
    (cache.answered.errSetToEnd code .bgeventEm).Tidy listings := by
  have answered : cache.answered.Tidy listings :=
    tidy.moved rfl rfl rfl rfl (tidy.onward waits)
  have fails := answered.failing code .bgeventEm
  change (ConfigCache.errSetTo (finalOf cache.state) _ _ _).Tidy listings at fails
  rw [final] at fails
  exact fails

/-- What an accepted status makes of the slot, before the next command is sent. -/
theorem accepted_going {ops : StatusOps} (lawful : ops.Lawful cache.state)
    (walks : ops.Walks cache.state) (own : cache.WorksOn host listings)
    (tidy : cache.Tidy listings) {result : UInt16} {passed moved : ConfigCache} {finished : Bool}
    (accepts : ops.accept result cache.answered host = .ok (some passed))
    (moves : ops.iter passed host = .ok (finished, moved)) :
    ∃ iterators ever remaining, moved = cache.going iterators ever remaining ∧
      iterators.Ends cache.state cache.dcd listings finished ∧
      (cache.state.handsOn = true → ever = false) := by
  have answered : cache.answered.WorksOn host listings := own
  obtain ⟨places, fresh⟩ := walks.accepts answered tidy.placed accepts
  obtain ⟨_, iterators, ever, remaining, rfl, _⟩ := lawful.accepts accepts
  have passed : (cache.going iterators ever remaining).WorksOn host listings := own
  have ends := walks.iter passed tidy.populated places moves
  have shape := lawful.iter moves
  refine ⟨moved.iterators, ever, remaining, shape, ends, fun hands => fresh fun subscribes => ?_⟩
  rw [subscribes] at hands
  cases hands

/-- A state that goes through a list is not one in front of all lists. -/
theorem iterates_begun {state : AccState} (iterates : state.iterates = true)
    (hands : state.handsOn = false) : state.late = true := by
  revert iterates hands
  cases state <;> decide

/-- On to the next command, at the place that the iterators have come to. -/
theorem going_tidy (tidy : cache.Tidy listings) (waits : cache.waitResponse = true)
    (iterates : cache.state.iterates = true) {iterators : Iterators} {ever : Bool}
    {remaining : UInt8} (placed : iterators.Placed cache.state cache.dcd listings) :
    (cache.going iterators ever remaining).Tidy listings where
  early hands late := by
    have begun : cache.state.late = true := iterates_begun iterates hands
    exact absurd (begun.symm.trans late) (by decide)
  placed := placed
  concluded hands leaves := absurd (tidy.onward waits hands) leaves
  late := tidy.late
  populated := tidy.populated

/-- The list is done, and the iterators are back at zero. -/
theorem through_tidy (tidy : cache.Tidy listings) {ever : Bool} {remaining : UInt8}
    (fresh : cache.state.handsOn = true → ever = false) :
    ({ cache.going .home ever remaining with nextState := none } : ConfigCache).Tidy listings where
  early _ _ := rfl
  placed := tidy.placed.home tidy.populated
  concluded hands _ := ⟨rfl, fresh hands, rfl, .inl ⟨rfl, rfl⟩⟩
  late _ next same := by cases same
  populated := tidy.populated

/-- An event for a state that goes through a list. -/
theorem statusInprg_tidy {ops : StatusOps} {state : AccState} (lawful : ops.Lawful state)
    (walks : ops.Walks state) (same : cache.state = state) (iterates : state.iterates = true)
    (own : cache.WorksOn host listings) (tidy : cache.Tidy listings)
    (waits : cache.waitResponse = true) {packet : ConfigEvent}
    (taken : statusInprg ops slot packet answer cache host = .ok out) :
    out.cache.Tidy listings := by
  subst same
  have onward := tidy.onward waits
  have final : finalOf cache.state = .endEm := by simp [finalOf, lawful.iterates.2.1]
  have cleared : cache.timerClear.Tidy listings := tidy.moved rfl rfl rfl rfl onward
  cases packet with
  | status kind handle result =>
      by_cases kinds : kind = ops.kind
      · subst kinds
        simp only [statusInprg, ne_eq, not_true_eq_false, if_false, bind_ok] at taken
        obtain ⟨accepted, accepts, taken⟩ := taken
        cases accepted with
        | none =>
            dsimp only at taken
            by_cases timeout : result = bgErrTimeout
            · rw [if_pos timeout] at taken
              cases taken
              exact timedOut_tidy tidy waits final ops.retryTimes
            · rw [if_neg timeout] at taken
              simp only [bind_ok] at taken
              obtain ⟨_, _, made⟩ := taken
              cases made
              exact errSetToEnd_tidy tidy waits final _
        | some passed =>
            simp only [bind_ok] at taken
            obtain ⟨⟨finished, moved⟩, moves, taken⟩ := taken
            obtain ⟨iterators, ever, remaining, rfl, ends, fresh⟩ :=
              accepted_going lawful walks own tidy accepts moves
            cases finished with
            | true =>
                obtain ⟨id, _, rfl⟩ := finish_eq taken
                rw [Iterators.Ends, if_pos rfl] at ends
                rw [ends]
                exact through_tidy tidy fresh
            | false =>
                rw [Iterators.Ends, if_neg (by decide)] at ends
                have attempt := lawful.sends taken
                exact Attempt.tidy attempt (going_tidy tidy waits iterates ends)
                  fun hands => .inl (onward hands)
      · simp only [statusInprg, ne_eq, kinds, not_false_eq_true, if_true, Except.ok.injEq]
          at taken
        rw [← taken]
        exact cleared
  | dcdData handle page data len =>
      cases taken
      exact cleared
  | dcdDataEnd handle result =>
      cases taken
      exact cleared
  | other id =>
      cases taken
      exact cleared

/-- In the states behind all lists only the next state matters. -/
theorem ConfigCache.Tidy.of_late (late : cache.state.late = true)
    (iterates : cache.state.iterates = false)
    (leads : ∀ next, cache.nextState = some next → next = cache.state ∨ next.closing = true)
    (populated : cache.dcd.Populated) : cache.Tidy listings where
  early _ other := absurd (late.symm.trans other) (by decide)
  placed := .other iterates
  concluded hands _ := by
    exfalso
    revert late hands
    cases cache.state <;> decide
  late _ := leads
  populated := populated

/-- An event for a state behind all lists. -/
theorem Handled.tidy {packet : ConfigEvent}
    (handled : Handled cache.state slot packet answer cache host out)
    (commands : cache.state = .setconfigEm ∨ cache.state = .rmEm) (tidy : cache.Tidy listings) :
    out.cache.Tidy listings := by
  have isLate : cache.state.late = true := by
    rcases commands with same | same <;> rw [same] <;> rfl
  have iterates : cache.state.iterates = false := by
    rcases commands with same | same <;> rw [same] <;> rfl
  have reads : cache.state ≠ .getDcdEm := by
    rcases commands with same | same <;> rw [same] <;> decide
  have hands : cache.state.handsOn = false := by
    rcases commands with same | same <;> rw [same] <;> rfl
  have onward : cache.state.handsOn = true → cache.nextState = some cache.state := by
    intro other
    rw [hands] at other
    cases other
  have quiet : ∀ {after : ConfigCache}, after.state = cache.state →
      after.nextState = cache.nextState → after.dcd = cache.dcd →
      after.iterators = cache.iterators → after.Tidy listings :=
    fun state next dcd iterators => tidy.moved state next dcd iterators onward
  have open_ : ∀ {after : ConfigCache}, after.state = cache.state → after.nextState = none →
      after.dcd = cache.dcd → after.Tidy listings := by
    intro after state next dcd
    refine .of_late (by rw [state]; exact isLate) (by rw [state]; exact iterates) ?_
      (by rw [dcd]; exact tidy.populated)
    intro following same
    rw [next] at same
    cases same
  have answered : cache.answered.Tidy listings := quiet rfl rfl rfl rfl
  cases handled with
  | unexpected _ _ => exact quiet rfl rfl rfl rfl
  | page first _ _ => exact absurd first reads
  | otherPage _ => exact quiet rfl rfl rfl rfl
  | timeout _ =>
      rcases timedOut_cases (retryTimesOf cache.state) (giveUpOf cache.state) cache.answered with
        ⟨_, same⟩ | ⟨_, _, same⟩ | ⟨_, _, same⟩
      · rw [same]
        exact quiet rfl rfl rfl rfl
      · rw [same]
        rcases commands with sets | removes
        · have cleared : cache.answered.retryClear.Tidy listings := quiet rfl rfl rfl rfl
          have fails := cleared.failing bgErrTimeout .bgeventEm
          change (ConfigCache.errSetTo (finalOf cache.state) _ _ _).Tidy listings at fails
          rw [sets] at fails ⊢
          exact fails
        · rw [removes]
          exact open_ rfl rfl rfl
      · rw [same]
        exact quiet rfl rfl rfl rfl
  | failed code _ _ => exact answered.failing code .bgeventEm
  | resumed first _ _ => exact absurd first reads
  | removed _ _ => exact open_ rfl rfl rfl
  | finished iterators ever remaining _ _ _ _ _ _ => exact open_ rfl rfl rfl
  | continued iterators ever remaining _ _ _ _ attempt _ =>
      have going : (cache.going iterators ever remaining).Tidy listings :=
        .of_late isLate iterates (tidy.late isLate) tidy.populated
      refine Attempt.tidy attempt going fun other => ?_
      change cache.state.handsOn = true at other
      rw [hands] at other
      cases other

/-- In front of the first list the iterators are at zero. -/
theorem ConfigCache.Tidy.of_getDcd (reads : cache.state = .getDcdEm)
    (home : cache.iterators = .home) (populated : cache.dcd.Populated) :
    cache.Tidy listings where
  early _ _ := home
  placed := by
    rw [reads]
    trivial
  concluded hands _ := by
    rw [reads] at hands
    cases hands
  late late _ _ := by
    rw [reads] at late
    cases late
  populated := populated

/-- What `__dcd_store` stores has elements, and each of them a model if the page has one there. -/
theorem storePage_populated {data : Bytes.Memory} {len : UInt8}
    (full : ∀ id, cache.node = some id →
      ∀ read, dcdStore 256 data len (host.db.heap id).func = some read → read.1.NoEmpty)
    (stored : storePage data len cache host = .ok (after, host')) : after.dcd.Populated := by
  simp only [storePage, bind_ok] at stored
  obtain ⟨⟨id, node⟩, found, stored⟩ := stored
  obtain ⟨here, rfl⟩ := nodeOf_eq found
  cases decoded : dcdStore 256 data len (host.db.heap id).func with
  | none => simp [decoded] at stored
  | some read =>
      simp only [decoded] at stored
      have same : after.dcd = read.1 := by
        by_cases empty : read.1.elementCnt = 0
        · rw [if_pos empty] at stored
          obtain ⟨db, _, made⟩ := bind_ok.mp stored
          cases made
          rfl
        · rw [if_neg empty] at stored
          obtain ⟨db, _, made⟩ := bind_ok.mp stored
          cases made
          rfl
      obtain ⟨elems, there⟩ := dcdStore_stored decoded
      have models := full id here read decoded
      intro others present
      rw [same] at present ⊢
      have equal : others = elems := Option.some.inj (present.symm.trans there.present)
      rw [equal]
      refine ⟨there, fun elem member => models elem ?_⟩
      rw [there.present]
      exact member

/-- Composition data and its end leave the iterators alone. -/
theorem getdcdInprg_tidy (reads : cache.state = .getDcdEm) (tidy : cache.Tidy listings)
    {packet : ConfigEvent} {manager : MngState} {input : EventInput} {spent : Nat}
    (undisturbed : (SlotOp.event manager packet input).Undisturbed
      { cache := cache, host := host, spent := spent, freed := false })
    (taken : getdcdInprg slot packet answer cache host = .ok out) : out.cache.Tidy listings := by
  have home : cache.iterators = .home := by
    apply tidy.early
    · rw [reads]
      rfl
    · rw [reads]
      rfl
  have kept : ∀ {after : ConfigCache}, after.state = cache.state →
      after.iterators = cache.iterators → after.dcd = cache.dcd → after.Tidy listings := by
    intro after state iterators dcd
    refine .of_getDcd (state.trans reads) (iterators.trans home) ?_
    rw [dcd]
    exact tidy.populated
  cases packet with
  | dcdData handle page data len =>
      by_cases first : page = 0
      · simp only [getdcdInprg, first, if_true, bind_ok, Except.ok.injEq] at taken
        obtain ⟨⟨after, host'⟩, stored, rfl⟩ := taken
        have shape := storePage_eq stored
        have populated :=
          @storePage_populated cache.timerClear after host host' _ _ (undisturbed first) stored
        refine .of_getDcd ?_ ?_ populated
        · rw [shape]
          exact reads
        · rw [shape]
          exact home
      · simp only [getdcdInprg, first, if_false, Except.ok.injEq] at taken
        rw [← taken]
        exact kept rfl rfl rfl
  | dcdDataEnd handle result =>
      simp only [getdcdInprg] at taken
      by_cases success : result = bgErrSuccess
      · rw [if_pos success] at taken
        obtain ⟨⟨id, node⟩, _, made⟩ := bind_ok.mp taken
        cases made
        unfold afterDcd
        split
        · split
          · exact kept rfl rfl rfl
          · exact kept rfl rfl rfl
        · exact kept rfl rfl rfl
      · rw [if_neg success] at taken
        by_cases timeout : result = bgErrTimeout
        · rw [if_pos timeout] at taken
          cases taken
          change (timedOut getDcdRetryTimes giveUpToEnd cache.answered).Tidy listings
          rcases timedOut_cases getDcdRetryTimes giveUpToEnd cache.answered with
            ⟨_, same⟩ | ⟨_, _, same⟩ | ⟨_, _, same⟩
          · rw [same]
            exact kept rfl rfl rfl
          · rw [same]
            exact kept rfl rfl rfl
          · rw [same]
            exact kept rfl rfl rfl
        · rw [if_neg timeout] at taken
          cases taken
          exact kept rfl rfl rfl
  | status kind handle result =>
      cases taken
      exact kept rfl rfl rfl
  | other id =>
      cases taken
      exact kept rfl rfl rfl

/-- The first half of the event handling. -/
theorem eventInprg_tidy {ops : AccStateOps} {packet : ConfigEvent} {manager : MngState}
    {input : EventInput} (spent : Nat) (member : ops ∈ accStates)
    (same : ops.state = cache.state) (own : cache.WorksOn host listings)
    (tidy : cache.Tidy listings)
    (undisturbed : (SlotOp.event manager packet input).Undisturbed
      { cache := cache, host := host, spent := spent, freed := false })
    (taken : eventInprg slot packet input ops cache host = .ok out) : out.cache.Tidy listings := by
  have step := eventInprg_takes (accStates_lawful ops member) same taken
  cases step with
  | ignored _ => exact tidy
  | handled commands waits handled =>
      have usual : ∀ {sops : StatusOps} {guard : GuardFn} {state : AccState},
          ops = sops.toState state guard → sops.Lawful state → sops.Walks state →
          state.iterates = true → out.cache.Tidy listings := by
        rintro sops guard state rfl lawful walks iterates
        simp only [eventInprg, StatusOps.toState, waits, if_true] at taken
        exact statusInprg_tidy lawful walks same.symm iterates own tidy waits taken
      simp only [accStates, List.mem_cons, List.not_mem_nil, or_false] at member
      rcases member with rfl | rfl | rfl | rfl | rfl | rfl | rfl | rfl | rfl
      · simp only [eventInprg, asGetDcd, waits, if_true] at taken
        exact getdcdInprg_tidy same.symm tidy undisturbed taken
      · exact @usual addappkeyOps addappkeyGuard .addappkeyEm rfl addappkeyOps_lawful
          addappkeyOps_walks rfl
      · exact @usual bindappkeyOps bindappkeyGuard .bindappkeyEm rfl bindappkeyOps_lawful
          bindappkeyOps_walks rfl
      · exact @usual setpubOps setpubGuard .setpubEm rfl setpubOps_lawful setpubOps_walks rfl
      · exact @usual addsubOps addsubGuard .addsubEm rfl addsubOps_lawful addsubOps_walks rfl
      · exact handled.tidy (.inl same.symm) tidy
      · rw [← same] at commands
        cases commands
      · exact handled.tidy (.inr same.symm) tidy
      · rw [← same] at commands
        cases commands

/-- A slot that was retried is at its list, and may be sent for again. -/
theorem ConfigCache.Tidy.sends_again (tidy : cache.Tidy listings)
    (ever : cache.everRetried = true) : Sends cache answer := by
  intro hands
  by_contra neither
  have leaves : cache.nextState ≠ some cache.state := fun own => neither (.inl own)
  have fresh := (tidy.concluded hands leaves).fresh
  rw [ever] at fresh
  cases fresh

/-- An event keeps the iterators in order. -/
theorem slotEvent_tidy {manager : MngState} {packet : ConfigEvent} {input : EventInput}
    (spent : Nat) (own : cache.WorksOn host listings) (tidy : cache.Tidy listings)
    (undisturbed : (SlotOp.event manager packet input).Undisturbed
      { cache := cache, host := host, spent := spent, freed := false })
    (taken : slotEvent manager slot packet input cache host = .ok (after, host')) :
    after.Tidy listings := by
  unfold slotEvent at taken
  cases found : asGet cache.state with
  | nil => simp [found] at taken
  | cons ops rest =>
      obtain ⟨same, lawful⟩ := asGet_cons found
      have member : ops ∈ accStates :=
        mem_accStates_of_asGet (by rw [found]; exact List.mem_cons_self)
      simp only [found, bind_ok] at taken
      obtain ⟨out, takes, resends⟩ := taken
      have first := eventInprg_tidy spent member same own tidy undisturbed takes
      have work := (eventInprg_takes lawful same takes).sameWork
      unfold eventRetry at resends
      cases retry : ops.retry with
      | none =>
          simp only [retry, Except.ok.injEq, Prod.mk.injEq] at resends
          rw [← resends.1]
          exact first
      | some callback =>
          simp only [retry] at resends
          by_cases drives : (decide (out.ret = .suc) && !out.cache.waitResponse &&
              out.cache.everRetried) = true
          · simp only [drives, if_true, bind_ok, Except.ok.injEq, Prod.mk.injEq] at resends
            obtain ⟨last, retried, rfl, _⟩ := resends
            have again := lawful.retry retry retried
            rw [same, ← work.1] at again
            simp only [Bool.and_eq_true] at drives
            exact again.tidy first (first.sends_again drives.2)
          · rw [if_neg drives] at resends
            simp only [Except.ok.injEq, Prod.mk.injEq] at resends
            rw [← resends.1]
            exact first

end

/-!
## Runs

A run begins with the iterators at zero, and each step that meets the two conditions keeps them in
order.
-/

/-- The iterators of a slot that works are in order, and its record has kept its lists. -/
def SlotState.Orderly (listings : Listings) (source : SlotState) : Prop :=
  source.freed = false →
    source.cache.WorksOn source.host listings ∧ source.cache.Tidy listings

section

variable {slot : Slot} {listings : Listings} {source target : SlotState} {op : SlotOp}

/-- The round of a slot, as the code computes it. -/
theorem slotRound_parts {manager : MngState} {input : RoundInput} {cache after : ConfigCache}
    {host host' : Host} {left : Bool}
    (taken : slotRound manager slot input cache host = .ok (left, after, host')) :
    ∃ middle between, retryException manager slot input cache host = .ok (middle, between) ∧
      ((left = false ∧ after = middle ∧ host' = between) ∨
        (left = true ∧ middle.stays = false ∧ ∃ targets moved,
          leaveTargets middle = .ok targets ∧
            enterStates slot input.entry targets middle between = .ok (moved, after, host'))) := by
  simp only [slotRound, bind_ok] at taken
  obtain ⟨⟨middle, between⟩, resent, taken⟩ := taken
  refine ⟨middle, between, resent, ?_⟩
  by_cases still : middle.stays = true
  · rw [if_pos still] at taken
    cases taken
    exact .inl ⟨rfl, rfl, rfl⟩
  · rw [if_neg still] at taken
    simp only [bind_ok, toNextState] at taken
    obtain ⟨⟨moved, last, final⟩, ⟨targets, leads, enters⟩, made⟩ := taken
    cases made
    exact .inr ⟨rfl, by simpa using still, targets, moved, leads, enters⟩

theorem orderly_step (orderly : source.Orderly listings) (undisturbed : op.Undisturbed source)
    (again : op.NotAgain source) (taken : op.run slot source = .ok target) :
    target.Orderly listings := by
  intro working'
  have working : source.freed = false := by
    cases freed : source.freed with
    | false => rfl
    | true =>
        simp only [SlotOp.run, freed, if_true, Except.ok.injEq] at taken
        rw [← taken, freed] at working'
        cases working'
  obtain ⟨own, tidy⟩ := orderly working
  simp only [SlotOp.run, working, Bool.false_eq_true, if_false] at taken
  cases op with
  | round manager input =>
      obtain ⟨⟨left, after, host'⟩, round, made⟩ := bind_ok.mp taken
      cases made
      obtain ⟨middle, between, resent, parts⟩ := slotRound_parts round
      have exception := retryException_step resent
      have first := exception.tidy tidy again
      have own' := own.carried exception.sameWork.2 exception.work
      rcases parts with ⟨rfl, rfl, rfl⟩ | ⟨rfl, leaving, targets, moved, leads, enters⟩
      · exact ⟨own', first⟩
      · have unended : after.ended = false := by simpa using working'
        rcases enterStates_entry (leaveTargets_lawful leads) enters with
          ⟨rfl, rfl⟩ | final | ⟨ops, inside, out, entered, ret, rfl, rfl⟩
        · exact ⟨own', first⟩
        · simp [ConfigCache.ended, final] at unended
        · have member := leaveTargets_mem leads ops inside
          have home := fun begins => first.leaves_home leaving leads inside begins
          have step := (accStates_lawful ops member).entry entered
          refine ⟨?_, entry_tidy member own' first.populated home entered ret⟩
          obtain ⟨id, here, same⟩ := own'
          refine ⟨id, step.frame.2.2.trans here, ?_⟩
          rw [← same]
          cases step with
          | skipped _ => rfl
          | attempted _ _ _ attempt _ => rw [attempt.db_eq]
          | noCommand _ _ _ => rfl
          | ended final _ => simp [ConfigCache.ended, final] at unended
          | removed final _ => simp [ConfigCache.ended, final] at unended
  | event manager packet input =>
      obtain ⟨⟨after, host'⟩, handled, made⟩ := bind_ok.mp taken
      cases made
      have step := slotEvent_step handled
      exact ⟨own.carried step.sameNode step.work,
        slotEvent_tidy 0 own tidy undisturbed handled⟩
  | outside db cfg stat effects =>
      cases taken
      obtain ⟨id, here, same⟩ := own
      exact ⟨⟨id, here, (undisturbed id here).trans same⟩, tidy⟩

/-! ## Reading -/

theorem retryException_inside {manager : MngState} {input : RoundInput} {cache : ConfigCache}
    {host : Host} (own : cache.WorksOn host listings) (allocated : listings.Allocated)
    (tidy : cache.Tidy listings) :
    Inside (retryException manager slot input cache host) := by
  unfold retryException
  cases found : asGet cache.state with
  | nil => simp [failsOnly_ite, Abort.InBounds]
  | cons ops rest =>
      obtain ⟨same, _⟩ := asGet_cons found
      have member : ops ∈ accStates :=
        mem_accStates_of_asGet (by rw [found]; exact List.mem_cons_self)
      cases resends : ops.retry with
      | none => simp [resends]
      | some retry =>
          have ready : cache.iterators.Ready ops.state cache.dcd listings := by
            intro _
            rw [same]
            exact tidy.placed
          have reads : ∀ reason, Inside (retry reason slot input.retry cache host) := fun reason =>
            (accStates_reads ops member).retry retry reason resends own allocated
              tidy.populated ready
          simp [resends, failsOnly_ite, failsOnly_bind, reads, Abort.InBounds]

theorem enterStates_inside {targets : List AccStateOps} {answer : CmdRsp} {cache : ConfigCache}
    {host : Host} (members : ∀ ops ∈ targets, ops ∈ accStates)
    (own : cache.WorksOn host listings) (allocated : listings.Allocated)
    (populated : cache.dcd.Populated)
    (home : ∀ ops ∈ targets, ops.state.beginsHome = true → cache.iterators = .home) :
    Inside (enterStates slot answer targets cache host) := by
  induction targets with
  | nil => simp [enterStates]
  | cons ops rest hypothesis =>
      have member := members ops List.mem_cons_self
      have later := hypothesis
        (fun other inside => members other (List.mem_cons_of_mem ops inside))
        (fun other inside => home other (List.mem_cons_of_mem ops inside))
      have first : Inside (ops.entry ops.guard slot answer cache host) :=
        (accStates_reads ops member).entry own allocated populated
          fun iterates => home ops List.mem_cons_self (iterates_begins iterates)
      simp only [enterStates, failsOnly_bind, first, true_and]
      intro out entered
      have step := (accStates_lawful ops member).entry entered
      cases ret : out.ret with
      | tonext =>
          cases step with
          | skipped _ => exact later
          | attempted _ _ _ attempt _ =>
              cases attempt <;> cases ret
          | _ => cases ret
      | _ => simp [failsOnly_bind, asEnd, endEntry_inside]

theorem leaveTargets_inside (cache : ConfigCache) : Inside (leaveTargets cache) := by
  unfold leaveTargets
  cases asGet cache.state <;> cases cache.nextState with
  | none => simp [Abort.InBounds]
  | some next =>
      dsimp only
      split <;> simp [Abort.InBounds]

theorem eventInprg_inside {ops : AccStateOps} {packet : ConfigEvent} {input : EventInput}
    {cache : ConfigCache} {host : Host} (member : ops ∈ accStates)
    (same : ops.state = cache.state) (own : cache.WorksOn host listings)
    (allocated : listings.Allocated) (tidy : cache.Tidy listings) :
    Inside (eventInprg slot packet input ops cache host) := by
  unfold eventInprg
  cases handles : ops.inprg with
  | none => simp
  | some inprg =>
      have placed : cache.iterators.Placed ops.state cache.dcd listings := by
        rw [same]
        exact tidy.placed
      have inside : Inside (inprg slot packet input.inprg cache host) :=
        (accStates_reads ops member).inprg inprg handles own allocated tidy.populated placed
      simp [failsOnly_ite, inside]

theorem eventRetry_inside {ops : AccStateOps} {manager : MngState} {input : EventInput}
    {out : Outcome} (member : ops ∈ accStates) (same : ops.state = out.cache.state)
    (own : out.cache.WorksOn out.host listings) (allocated : listings.Allocated)
    (tidy : out.cache.Tidy listings) : Inside (eventRetry manager slot input ops out) := by
  unfold eventRetry
  cases resends : ops.retry with
  | none => simp
  | some retry =>
      have ready : out.cache.iterators.Ready ops.state out.cache.dcd listings := by
        intro _
        rw [same]
        exact tidy.placed
      have inside : Inside (retry .onTimeoutEm slot input.retry out.cache out.host) :=
        (accStates_reads ops member).retry retry .onTimeoutEm resends own allocated
          tidy.populated ready
      simp [failsOnly_ite, failsOnly_bind, inside]

/-- An event is handled inside of the arrays, and so is the retry behind it: the handling leaves
the iterators in order. -/
theorem slotEvent_inside {manager : MngState} {packet : ConfigEvent} {input : EventInput}
    {cache : ConfigCache} {host : Host} (spent : Nat) (own : cache.WorksOn host listings)
    (allocated : listings.Allocated) (tidy : cache.Tidy listings)
    (undisturbed : (SlotOp.event manager packet input).Undisturbed
      { cache := cache, host := host, spent := spent, freed := false }) :
    Inside (slotEvent manager slot packet input cache host) := by
  unfold slotEvent
  cases found : asGet cache.state with
  | nil => simp [Abort.InBounds]
  | cons ops rest =>
      obtain ⟨same, lawful⟩ := asGet_cons found
      have member : ops ∈ accStates :=
        mem_accStates_of_asGet (by rw [found]; exact List.mem_cons_self)
      simp only [failsOnly_bind]
      refine ⟨eventInprg_inside member same own allocated tidy, fun out takes => ?_⟩
      have first := eventInprg_tidy spent member same own tidy undisturbed takes
      have taking := eventInprg_takes lawful same takes
      have own' := own.carried taking.sameWork.2 taking.work
      exact eventRetry_inside member (same.trans taking.sameWork.1.symm) own' allocated first

/-- A round works inside of the arrays: what it enters behind the retry finds the iterators at
zero. -/
theorem slotRound_inside {manager : MngState} {input : RoundInput} {cache : ConfigCache}
    {host : Host} (own : cache.WorksOn host listings) (allocated : listings.Allocated)
    (tidy : cache.Tidy listings)
    (again : cache.state.handsOn = true → cache.nextState = none → cache.oom = true →
      input.retry.result ≠ bgErrSuccess) :
    Inside (slotRound manager slot input cache host) := by
  simp only [failsOnly_bind, slotRound, failsOnly_ite, failsOnly_ok, implies_true, true_and]
  refine ⟨retryException_inside own allocated tidy, ?_⟩
  rintro ⟨middle, between⟩ retried leaving
  have exception := retryException_step retried
  have first := exception.tidy tidy again
  have own' := own.carried exception.sameWork.2 exception.work
  have leaves : middle.stays = false := by simpa using leaving
  simp only [toNextState, failsOnly_bind, and_true]
  refine ⟨leaveTargets_inside middle, fun targets leads => ?_⟩
  exact enterStates_inside (leaveTargets_mem leads) own' allocated first.populated
    fun ops inside begins => first.leaves_home leaves leads inside begins

/-- No step of a slot in order reads an array outside of its bounds. -/
theorem run_inside (orderly : source.Orderly listings) (allocated : listings.Allocated)
    (undisturbed : op.Undisturbed source) (again : op.NotAgain source) :
    Inside (op.run slot source) := by
  unfold SlotOp.run
  cases freed : source.freed with
  | true => exact failsOnly_ok
  | false =>
      obtain ⟨own, tidy⟩ := orderly freed
      rw [if_neg (by decide)]
      cases op with
      | round manager input =>
          simp only [failsOnly_bind, failsOnly_ok, implies_true, and_true]
          exact slotRound_inside own allocated tidy again
      | event manager packet input =>
          simp only [failsOnly_bind, failsOnly_ok, implies_true, and_true]
          exact slotEvent_inside 0 own allocated tidy undisturbed
      | outside db cfg stat effects => exact failsOnly_ok

end

/-- The state that a slot would enter is one of its targets. -/
theorem firstOpen_target {cache : ConfigCache} {host : Host} {state : AccState}
    (first : firstOpen cache host = some state) :
    ∃ targets ops, leaveTargets cache = .ok targets ∧ ops ∈ targets ∧ ops.state = state := by
  unfold firstOpen at first
  cases leads : leaveTargets cache with
  | error failure => simp [leads] at first
  | ok targets =>
      cases here : cache.node with
      | none => simp [leads, here] at first
      | some id =>
          simp only [leads, here] at first
          obtain ⟨ops, found, same⟩ := Option.map_eq_some_iff.mp first
          exact ⟨targets, ops, rfl, List.mem_of_find?_eq_some found, same⟩

/-- A slot that a node was just loaded into is in order. -/
theorem loaded_orderly (node : NodeId) (type : LoadType) (host : Host) :
    (SlotState.loaded node type host).Orderly (host.db.heap node).listings := by
  intro _
  have empty : Dcd.zeroed.Populated := by
    intro elems stored
    cases stored
  cases type with
  | typeConfig =>
      refine ⟨⟨node, rfl, rfl⟩, fun _ _ => rfl, trivial, fun hands => ?_, fun late => ?_, empty⟩
      · cases hands
      · cases late
  | typeRm =>
      refine ⟨⟨node, rfl, rfl⟩, fun _ late => ?_, trivial, fun hands => ?_, ?_, empty⟩
      · cases late
      · cases hands
      · intro _ next same
        cases same
        exact .inr rfl

/-- Every state of a run that meets the two conditions is in order. -/
theorem orderly_of_run {slot : Slot} {node : NodeId} {type : LoadType} {host : Host}
    {past : List (Move SlotState SlotOp)} {final : SlotState}
    (run : SlotRun slot (.loaded node type host) past final)
    (undisturbed : Guarded SlotOp.Undisturbed past) (once : Guarded SlotOp.NotAgain past) :
    final.Orderly (host.db.heap node).listings := by
  have both : Guarded (fun source op => op.Undisturbed source ∧ op.NotAgain source) past :=
    fun move member => ⟨undisturbed move member, once move member⟩
  have step : ∀ (source : SlotState) (op : SlotOp) (target : SlotState),
      source.Orderly (host.db.heap node).listings →
      (op.Undisturbed source ∧ op.NotAgain source) →
      Succeeds (SlotOp.run slot) source op target →
      target.Orderly (host.db.heap node).listings := by
    intro source op target orderly admitted taken
    exact orderly_step orderly admitted.1 admitted.2 taken
  exact (run.guarded_invariant step (loaded_orderly node type host) both).2

/-- The next state that goes through a list finds the iterators at zero. -/
theorem enteredWith_home {slot : Slot} {manager : MngState} {input : RoundInput}
    {source : SlotState} {listings : Listings} {state : AccState} {iterators : Iterators}
    (tidy : source.cache.Tidy listings) (again : (SlotOp.round manager input).NotAgain source)
    (enters : enteredWith manager slot input source.cache source.host = some (state, iterators))
    (iterates : state.iterates = true) : iterators = .home := by
  unfold enteredWith at enters
  cases resent : retryException manager slot input source.cache source.host with
  | error failure => simp [resent] at enters
  | ok pair =>
      obtain ⟨middle, between⟩ := pair
      have first := (retryException_step resent).tidy tidy again
      simp only [resent] at enters
      by_cases stays : middle.stays = true
      · simp [stays] at enters
      · have leaving : middle.stays = false := by simpa using stays
        rw [if_neg stays] at enters
        obtain ⟨entered, open_, same⟩ := Option.map_eq_some_iff.mp enters
        cases same
        obtain ⟨targets, ops, leads, inside, rfl⟩ := firstOpen_target open_
        exact first.leaves_home leaving leads inside (iterates_begins iterates)

/-- A round that ends in another state which goes through a list ends with the iterators at zero:
the first command of the list is sent with them, and nothing moves them before its answer. -/
theorem round_ends_home {slot : Slot} {manager : MngState} {input : RoundInput}
    {source target : SlotState} {listings : Listings} (tidy : source.cache.Tidy listings)
    (working : source.freed = false) (again : (SlotOp.round manager input).NotAgain source)
    (taken : (SlotOp.round manager input).run slot source = .ok target)
    (other : target.cache.state ≠ source.cache.state)
    (iterates : target.cache.state.iterates = true) : target.cache.iterators = .home := by
  simp only [SlotOp.run, working, Bool.false_eq_true, if_false] at taken
  obtain ⟨⟨left, after, host'⟩, round, made⟩ := bind_ok.mp taken
  cases made
  change after.state ≠ source.cache.state at other
  change after.state.iterates = true at iterates
  change after.iterators = .home
  obtain ⟨middle, between, resent, parts⟩ := slotRound_parts round
  have exception := retryException_step resent
  have first := exception.tidy tidy again
  have stays : middle.state = source.cache.state := exception.sameWork.1
  rcases parts with ⟨_, rfl, _⟩ | ⟨_, leaving, targets, moved, leads, enters⟩
  · exact absurd stays other
  · rcases enterStates_entry (leaveTargets_lawful leads) enters with
      ⟨rfl, _⟩ | final | ⟨ops, inside, out, entered, _, _, rfl⟩
    · exact absurd stays other
    · rw [final] at iterates
      cases iterates
    · have member := leaveTargets_mem leads ops inside
      have frame := ((accStates_lawful ops member).entry entered).frame
      have begins : ops.state.beginsHome = true := iterates_begins iterates
      exact frame.1.trans (first.leaves_home leaving leads inside begins)

/-- **The shared iterators start clean** in a run whose lists stay and in which no list that is
through is begun again.  In every state of the run they stand at places of the present state.  The
next state that goes through a list is entered with all of them at zero, whether its first command
is taken or not, and a round that ends in it ends with them at zero.  And no step reads an array
outside of its bounds, if the arrays are as long as announced. -/
theorem iterators_clean_guarded {slot : Slot} {node : NodeId} {type : LoadType} {host : Host}
    {past : List (Move SlotState SlotOp)} {final : SlotState}
    (run : SlotRun slot (.loaded node type host) past final)
    (undisturbed : Guarded SlotOp.Undisturbed past) (once : Guarded SlotOp.NotAgain past) :
    final.freed = false →
      final.cache.iterators.Placed final.cache.state final.cache.dcd
          (host.db.heap node).listings ∧
        (∀ manager input, (SlotOp.round manager input).NotAgain final →
          (∀ state iterators,
            enteredWith manager slot input final.cache final.host = some (state, iterators) →
            state.iterates = true → iterators = .home) ∧
          ∀ target, (SlotOp.round manager input).run slot final = .ok target →
            target.cache.state ≠ final.cache.state → target.cache.state.iterates = true →
            target.cache.iterators = .home) ∧
        ((host.db.heap node).listings.Allocated →
          ∀ op : SlotOp, op.Undisturbed final → op.NotAgain final →
            op.run slot final ≠ .error .outOfBounds) := by
  intro working
  obtain ⟨own, tidy⟩ := orderly_of_run run undisturbed once working
  refine ⟨tidy.placed, fun manager input again => ⟨?_, ?_⟩, ?_⟩
  · intro state iterators enters iterates
    exact enteredWith_home tidy again enters iterates
  · intro target taken other iterates
    exact round_ends_home tidy working again taken other iterates
  · intro allocated op following again fails
    have orderly := orderly_of_run run undisturbed once
    exact run_inside orderly allocated following again .outOfBounds fails rfl

/-! ## A list that is gone through twice -/

/-- Composition data of two elements, with three models and one. -/
def threeAndOnePage : Bytes.Memory := fun place =>
  if place = 12 then 3 else if place = 15 then 0x10 else if place = 17 then 0x13
  else if place = 18 then 3 else if place = 19 then 0x13 else if place = 22 then 1
  else if place = 25 then 0x10 else 0

/-- A network with two application keys, and a device that is to be bound to both. -/
def Host.twoKeys : Host :=
  let node : Node :=
    { Node.plain 2 with config := { (Node.plain 2).config with
        bindings := some { len := 2, data := [1, 2] } } }
  { (Engine.small node).host with
    cfg := { (Engine.small node).host.cfg with
      subnets :=
        [{ appkeyNum := 2, activeAppkeyNum := 2
           netkey := { refid := 0, id := 0, done := 1, val := Vector.replicate 16 0 }
           appkey :=
             [{ refid := 1, id := 7, done := 1, val := Vector.replicate 16 0 },
              { refid := 2, id := 8, done := 1, val := Vector.replicate 16 1 }] }] } }

/-- The guard timer of the first key expires twice.  There is no memory for the first resend, the
second one is taken, and both keys are acknowledged.  The lack of memory stays noted. -/
def bothKeysAdded : List SlotOp :=
  [.round .configuringDevicesEm { now := 0, retry := .taken 1 0, entry := .taken 1 0 },
    .event .configuringDevicesEm (.dcdData 1 0 threeAndOnePage 26)
      { inprg := .taken 1 0, retry := .taken 1 0 },
    .event .configuringDevicesEm (.dcdDataEnd 1 bgErrSuccess)
      { inprg := .taken 1 0, retry := .taken 1 0 },
    .round .configuringDevicesEm { now := 0, retry := .taken 2 0, entry := .taken 2 0 },
    .round .configuringDevicesEm { now := 9, retry := .outOfMemory 9, entry := .taken 2 9 },
    .round .configuringDevicesEm { now := 10, retry := .taken 3 10, entry := .taken 3 10 },
    .event .configuringDevicesEm (.status .appkey 3 bgErrSuccess)
      { inprg := .taken 4 10, retry := .taken 4 10 },
    .event .configuringDevicesEm (.status .appkey 4 bgErrSuccess)
      { inprg := .taken 5 10, retry := .taken 5 10 }]

/-- The round in which the slot leaves: there is no memory for a resend. -/
def leavingRound : RoundInput :=
  { now := 12, retry := .outOfMemory 12, entry := .taken 7 12 }

/-- The list is through, and not begun again: the next state is entered with the iterators at
zero. -/
theorem iterators_clean_guarded_twoKeys :
    ∃ past final,
      SlotRun 0 (.loaded 0 .typeConfig Host.twoKeys) past final ∧
      past.map Move.label = bothKeysAdded ∧ final.cache.oom = true ∧
      final.cache.iterators.Placed final.cache.state final.cache.dcd
        (Host.twoKeys.db.heap 0).listings ∧
      (∃ iterators, enteredWith .configuringDevicesEm 0 leavingRound final.cache final.host =
        some (.bindappkeyEm, iterators) ∧ iterators = .home) ∧
      (∃ target, (SlotOp.round .configuringDevicesEm leavingRound).run 0 final = .ok target ∧
        target.cache.state = .bindappkeyEm ∧ target.cache.iterators = .home) := by
  have replayed : replays (SlotOp.run 0) (.loaded 0 .typeConfig Host.twoKeys) bothKeysAdded
      (fun past final => decide (Guarded SlotOp.Undisturbed past) &&
        decide (Guarded SlotOp.NotAgain past) && !final.freed && final.cache.oom &&
        decide ((enteredWith .configuringDevicesEm 0 leavingRound final.cache final.host).map
          Prod.fst = some .bindappkeyEm) &&
        decide (((SlotOp.round .configuringDevicesEm leavingRound).run 0 final).toOption.map
          (fun target => (target.cache.state, decide (final.cache.state = .addappkeyEm))) =
            some (.bindappkeyEm, true))) = true := by
    decide +kernel
  obtain ⟨past, final, run, same, tested⟩ := execution_of_replays replayed
  simp only [Bool.and_eq_true, decide_eq_true_eq, Bool.not_eq_true'] at tested
  obtain ⟨⟨⟨⟨⟨undisturbed, once⟩, working⟩, memory⟩, enters⟩, leaves⟩ := tested
  obtain ⟨⟨state, iterators⟩, entered, isState⟩ := Option.map_eq_some_iff.mp enters
  cases isState
  obtain ⟨target, taken, values⟩ := Option.map_eq_some_iff.mp leaves
  obtain ⟨bound, added⟩ := Prod.mk.inj values
  have added : final.cache.state = .addappkeyEm := of_decide_eq_true added
  have ran := ok_of_toOption taken
  obtain ⟨placed, clean, inside⟩ := iterators_clean_guarded run undisturbed once working
  have again : (SlotOp.round .configuringDevicesEm leavingRound).NotAgain final :=
    fun _ _ _ => by decide
  obtain ⟨starts, ends⟩ := clean .configuringDevicesEm leavingRound again
  have moves : target.cache.state ≠ final.cache.state := by
    rw [bound, added]
    decide
  refine ⟨past, final, run, same, memory, placed, ⟨iterators, entered, ?_⟩, target, ran, bound, ?_⟩
  · exact starts _ _ entered rfl
  · exact ends target ran moves (by rw [bound]; rfl)

/-- The first key is sent once more, since the lack of memory is still noted.  The list is gone
through again, but the slot no longer stays to its end: with the second key still to come, it
begins to bind keys at the second element. -/
theorem repeated_list_leaves_iterators :
    ∃ past final target,
      SlotRun 0 (.loaded 0 .typeConfig Host.twoKeys) past final ∧
      Guarded SlotOp.Undisturbed past ∧
      past.map Move.label = bothKeysAdded ++
        [.round .configuringDevicesEm { now := 11, retry := .taken 6 11, entry := .taken 6 11 },
          .event .configuringDevicesEm (.status .appkey 6 bgErrSuccess)
            { inprg := .outOfMemory 11, retry := .taken 6 11 }] ∧
      enteredWith .configuringDevicesEm 0 leavingRound final.cache final.host =
        some (.bindappkeyEm, { zero := 1, one := 0, two := 0 }) ∧
      (SlotOp.round .configuringDevicesEm leavingRound).run 0 final = .ok target ∧
      target.cache.state = .bindappkeyEm ∧ target.cache.iterators.zero = 1 := by
  have replayed : replays (SlotOp.run 0) (.loaded 0 .typeConfig Host.twoKeys)
      (bothKeysAdded ++
        [.round .configuringDevicesEm { now := 11, retry := .taken 6 11, entry := .taken 6 11 },
          .event .configuringDevicesEm (.status .appkey 6 bgErrSuccess)
            { inprg := .outOfMemory 11, retry := .taken 6 11 }])
      (fun past final => decide (Guarded SlotOp.Undisturbed past) &&
        decide (enteredWith .configuringDevicesEm 0 leavingRound final.cache final.host =
          some (.bindappkeyEm, { zero := 1, one := 0, two := 0 })) &&
        decide (((SlotOp.round .configuringDevicesEm leavingRound).run 0 final).toOption.map
          (fun target => (target.cache.state, target.cache.iterators.zero)) =
            some (.bindappkeyEm, 1))) = true := by
    decide +kernel
  obtain ⟨past, final, run, same, tested⟩ := execution_of_replays replayed
  simp only [Bool.and_eq_true, decide_eq_true_eq] at tested
  obtain ⟨⟨undisturbed, enters⟩, leaves⟩ := tested
  obtain ⟨target, taken, values⟩ := Option.map_eq_some_iff.mp leaves
  obtain ⟨state, zero⟩ := Prod.mk.inj values
  exact ⟨past, final, target, run, undisturbed, same, enters, ok_of_toOption taken, state, zero⟩

end Nwmng
