/-
Module: Nwmng.Mng.CursorRuns
Purpose: The cursors of the blacklisting while commands clear and rebuild the list that they
point into.
Trusted boundary: the NCP completes a key refresh only while one is running
Main exports:
  pushes, Mng.CursorsRight, BlacklistOp, BlacklistRun, BlacklistOp.ListStays,
  cursors_right_guarded, cursors_pass_the_end
-/
import Nwmng.Mng.Cursors
import Nwmng.Mng.Requests

namespace Nwmng

open Transition Fallible

/-!
## What the cursors promise

The cursors are positions in a list that the machine does not own.  What they promise is only as
good as the list: a command that clears it leaves them behind its end.
-/

/-- The node that an effect is about. -/
def BlEffect.node? : BlEffect → Option NodeId
  | .pushed node => some node
  | _ => none

/-- The nodes pushed since the blacklisting began, oldest first. -/
def pushes (history : List BlEffect) : List NodeId :=
  ((procedure history).filterMap BlEffect.node?).reverse

/-- The cursors are in order and inside the list, the nodes before the second one are those
that were pushed, and where `bl_till_oom` reads there is a node. -/
structure Mng.CursorsRight (mng : Mng) : Prop where
  order : mng.bl.state ≠ .idle →
    mng.bl.tail ≤ mng.bl.offset ∧ mng.bl.offset ≤ mng.lists.bl.length
  pushed : mng.bl.state ≠ .idle → mng.lists.bl.take mng.bl.offset = pushes mng.history
  reads : mng.bl.state = .idle ∨ mng.bl.state = .prepare → mng.lists.bl ≠ [] →
    mng.bl.offset < mng.lists.bl.length

theorem pushes_pushed (sent : List NodeId) (history : List BlEffect) :
    pushes ((sent.map BlEffect.pushed).reverse ++ history) = pushes history ++ sent := by
  have nodes : (sent.map BlEffect.pushed).filterMap BlEffect.node? = sent := by
    induction sent with
    | nil => rfl
    | cons node rest hypothesis =>
        have first : BlEffect.node? (.pushed node) = some node := rfl
        rw [List.map_cons, List.filterMap_cons_some first, hypothesis]
  unfold pushes
  rw [procedure_pushed, List.filterMap_append, List.reverse_append, List.filterMap_reverse,
    List.reverse_reverse, nodes]

/-! ## The blacklisting among the commands -/

/-- A step of the blacklisting, or of the program around it.  The commands are among them,
because some of them clear the list that the cursors go through. -/
inductive BlacklistOp where
  /-- one call of `bl_loop` -/
  | blLoop (input : BlInput)
  /-- one call of `bl_hdr` -/
  | blHdr (packet : BlEvent) (rsp : KeyRsp)
  | sync (start : Bool)
  | seqset (seq : List Char)
  | freemode (on : Bool) (result : UInt16)
  /-- the commands and the step that load the nodes file, whatever the file is by then -/
  | rmall (input : FileInput) (nw : NwCfg) (file : SavedFile)
  | rmblclr (input : FileInput) (nw : NwCfg) (file : SavedFile)
  | starting (input : FileInput) (nw : NwCfg) (file : SavedFile)
  | setMngState (input : PhaseInput)
  /-- anything else: the other loops, the other events, and `info` -/
  | work (outcome : Mng)

def BlacklistOp.run (mng : Mng) : BlacklistOp → Except Abort Mng
  | .blLoop input => Nwmng.blLoop input mng
  | .blHdr packet rsp => Nwmng.blHdr packet rsp mng
  | .sync start => .ok (clicbSync start mng)
  | .seqset seq => .ok (clicbSeqset seq mng)
  | .freemode on result => .ok (clicbFreemode on result mng)
  | .rmall input nw file => do
      let host ← clicbRmall input { mng := mng, nw := nw, file := file }
      .ok host.mng
  | .rmblclr input nw file => do
      let host ← clicbRmblclr input { mng := mng, nw := nw, file := file }
      .ok host.mng
  | .starting input nw file => do
      let (_, host) ← startSync input { mng := mng, nw := nw, file := file }
      .ok host.mng
  | .setMngState input => .ok (Nwmng.setMngState input mng)
  | .work outcome => .ok outcome

/-- The loops run in their states, the NCP completes a key refresh only while one is running,
and the rest of the program leaves the machine, its list and the phase alone. -/
def BlacklistOp.Possible (mng : Mng) : BlacklistOp → Prop
  | .blLoop _ => mng.state = .blacklistingDevicesEm
  | .blHdr (.complete _ _) _ => refreshing mng.history = true
  | .starting _ _ _ => mng.state = .starting
  | .work outcome => outcome.bl = mng.bl ∧ outcome.history = mng.history ∧
      outcome.lists.bl = mng.lists.bl ∧ outcome.state = mng.state
  | _ => True

def BlacklistOp.Step (source : Mng) (op : BlacklistOp) (target : Mng) : Prop :=
  op.Possible source ∧ Succeeds BlacklistOp.run source op target

abbrev BlacklistRun := Execution BlacklistOp.Step

/-- No command clears the list, or builds it again, once a node of it was pushed. -/
def BlacklistOp.ListStays (source : Mng) : BlacklistOp → Prop
  | .sync start => start = false → source.bl.offset = 0
  | .rmblclr _ _ _ => source.bl.offset = 0
  | _ => True

/-!
## The invariant

In its own phase the machine follows the stages below; outside of it there is nothing to keep,
and the list may be any.
-/

/-- The cursors are right, and a blacklisting happens in its phase.  Outside that phase the
machine is idle with both cursors at zero, so that a new list cannot be entered in its middle. -/
structure CursorsKept (mng : Mng) : Prop where
  right : mng.CursorsRight
  idle : mng.bl.state = .idle → mng.bl.offset = 0 ∧ mng.bl.tail = 0
  quiet : mng.bl.state ≠ .busy → refreshing mng.history = false
  phase : mng.bl.state ≠ .idle → mng.state = .blacklistingDevicesEm

namespace CursorsKept

variable {source target : Mng}

/-- A step that leaves the machine, and the list if a node of it was pushed. -/
theorem congr (kept : CursorsKept source) (machine : target.bl = source.bl)
    (history : target.history = source.history)
    (phase : source.bl.state ≠ .idle → target.state = source.state)
    (list : source.bl.offset ≠ 0 → target.lists.bl = source.lists.bl) :
    CursorsKept target := by
  refine ⟨⟨?_, ?_, ?_⟩, ?_, ?_, ?_⟩
  · rw [machine]
    intro active
    obtain ⟨order, within⟩ := kept.right.order active
    by_cases none_ : source.bl.offset = 0
    · rw [none_] at order ⊢
      exact ⟨order, Nat.zero_le _⟩
    · rw [list none_]
      exact ⟨order, within⟩
  · rw [machine, history]
    intro active
    have pushed := kept.right.pushed active
    by_cases none_ : source.bl.offset = 0
    · rw [none_] at pushed ⊢
      exact pushed
    · rw [list none_]
      exact pushed
  · rw [machine]
    intro state some_
    by_cases none_ : source.bl.offset = 0
    · rw [none_]
      exact List.length_pos_iff.mpr some_
    · rw [list none_] at some_ ⊢
      exact kept.right.reads state some_
  · rw [machine]
    exact kept.idle
  · rw [machine, history]
    exact kept.quiet
  · rw [machine]
    intro active
    rw [phase active]
    exact kept.phase active

/-- Behind some pushes, the machine is ready for more, or to start. -/
theorem behind_pushes {sent : List NodeId} (through : Prop) [Decidable through]
    (order : source.bl.tail ≤ source.bl.offset)
    (within : source.bl.offset ≤ source.lists.bl.length)
    (listed : sent <+: source.lists.bl.drop source.bl.offset)
    (pushed : source.lists.bl.take source.bl.offset = pushes source.history)
    (quiet : refreshing source.history = false)
    (phase : source.state = .blacklistingDevicesEm)
    (whole : source.bl.offset + sent.length = source.lists.bl.length → through) :
    CursorsKept ((source.pushed sent).setBlState (if through then .starting else .prepare)) := by
  have bound := Mng.offset_pushed listed within
  have taken : source.lists.bl.take (source.bl.offset + sent.length) =
      source.lists.bl.take source.bl.offset ++ sent := by
    rw [List.take_add, ← List.prefix_iff_eq_take.mp listed]
  have grown : source.bl.tail ≤ source.bl.offset + sent.length :=
    Nat.le_trans order (Nat.le_add_right _ _)
  refine ⟨⟨fun _ => ⟨grown, bound⟩, fun _ => ?_, ?_⟩, ?_, fun _ => ?_, fun _ => phase⟩
  · change source.lists.bl.take (source.bl.offset + sent.length) =
      pushes ((sent.map BlEffect.pushed).reverse ++ source.history)
    rw [taken, pushed, pushes_pushed]
  · intro state _
    by_cases ends : through
    · change (if through then BlState.starting else .prepare) = .idle ∨ _ = _ at state
      simp [Mng.setBlState, if_pos ends] at state
    · exact Nat.lt_of_le_of_ne bound fun equal => ends (whole equal)
  · intro state
    by_cases ends : through
    · simp [Mng.setBlState, if_pos ends] at state
    · simp [Mng.setBlState, if_neg ends] at state
  · exact (refreshing_pushed sent source.history).trans quiet

/-- A call of the loop. -/
theorem blLoop {input : BlInput} (kept : CursorsKept source)
    (phase : source.state = .blacklistingDevicesEm) (step : BlStep input source target) :
    CursorsKept target := by
  cases step with
  | inactive state => exact kept
  | waits state => exact kept
  | begins rem sent state some_ listed first =>
      obtain ⟨offset, tail⟩ := kept.idle state
      have quiet := kept.quiet (by rw [state]; exact (nomatch ·))
      let begun := ((source.measure (·.blStart input.now)).remember .began).setRem rem
      have order : begun.bl.tail ≤ begun.bl.offset := by
        change source.bl.tail ≤ source.bl.offset
        rw [tail]
        exact Nat.zero_le _
      have within : begun.bl.offset ≤ begun.lists.bl.length := by
        change source.bl.offset ≤ _
        rw [offset]
        exact Nat.zero_le _
      have pushed : begun.lists.bl.take begun.bl.offset = pushes begun.history := by
        change source.lists.bl.take source.bl.offset = []
        rw [offset]
        rfl
      have ahead : sent <+: begun.lists.bl.drop begun.bl.offset := listed
      exact behind_pushes _ order within ahead pushed quiet phase (fun whole => whole)
  | pushes sent state listed first =>
      have active : source.bl.state ≠ .idle := by rw [state]; exact (nomatch ·)
      have quiet := kept.quiet (by rw [state]; exact (nomatch ·))
      obtain ⟨order, within⟩ := kept.right.order active
      exact behind_pushes _ order within listed (kept.right.pushed active) quiet phase .inr
  | starts state apart =>
      have active : source.bl.state ≠ .idle := by rw [state]; exact (nomatch ·)
      have right : ((source.remember .started).setBlState .busy).CursorsRight := by
        refine ⟨fun _ => kept.right.order active, fun _ => kept.right.pushed active, ?_⟩
        rintro (impossible | impossible)
        · cases impossible
        · cases impossible
      exact ⟨right, (nomatch ·), fun other => absurd rfl other, fun _ => phase⟩
  | more db state blacklists left =>
      have active : source.bl.state ≠ .idle := by rw [state]; exact (nomatch ·)
      have quiet := kept.quiet (by rw [state]; exact (nomatch ·))
      obtain ⟨_, within⟩ := kept.right.order active
      have right : Mng.CursorsRight { source.setDb db with
          bl := { source.bl with state := .starting, tail := source.bl.offset } } := by
        refine ⟨fun _ => ⟨Nat.le_refl _, within⟩, fun _ => kept.right.pushed active, ?_⟩
        rintro (impossible | impossible)
        · cases impossible
        · cases impossible
      exact ⟨right, (nomatch ·), fun _ => quiet, fun _ => phase⟩
  | ends db state blacklists whole =>
      have quiet := kept.quiet (by rw [state]; exact (nomatch ·))
      refine ⟨⟨?_, ?_, fun _ some_ => absurd rfl some_⟩, fun _ => ⟨rfl, rfl⟩, fun _ => quiet, ?_⟩
      · exact fun active => absurd rfl active
      · exact fun active => absurd rfl active
      · exact fun active => absurd rfl active

/-- An event of the key refresh. -/
theorem blHdr {packet : BlEvent} {rsp : KeyRsp} (kept : CursorsKept source)
    (possible : (BlacklistOp.blHdr packet rsp).Possible source)
    (handled : blHdr packet rsp source = .ok target) : CursorsKept target := by
  rcases blHdr_cases handled with ⟨rem, rfl⟩ | ⟨key, result, cfg, rfl, rfl, -⟩
  · exact ⟨⟨kept.right.order, kept.right.pushed, kept.right.reads⟩, kept.idle, kept.quiet,
      kept.phase⟩
  · have running : refreshing source.history = true := possible
    have state : source.bl.state = .busy := by
      by_contra other
      rw [kept.quiet other] at running
      cases running
    have active : source.bl.state ≠ .idle := by rw [state]; exact (nomatch ·)
    refine ⟨⟨fun _ => kept.right.order active, fun _ => kept.right.pushed active, ?_⟩,
      (nomatch ·), fun _ => rfl, fun _ => kept.phase active⟩
    rintro (impossible | impossible)
    · cases impossible
    · cases impossible

end CursorsKept

/-- What the machine knows, beside its list. -/
def Mng.blView (mng : Mng) : BlCache × List BlEffect × MngState :=
  (mng.bl, mng.history, mng.state)

theorem loadFrame_blView : LoadFrame Mng.blView :=
  ⟨fun _ _ => rfl, fun _ _ => rfl, fun _ _ => rfl⟩

theorem CursorsKept.of_view {source target : Mng} (kept : CursorsKept source)
    (same : target.blView = source.blView)
    (list : source.bl.offset ≠ 0 → target.lists.bl = source.lists.bl) : CursorsKept target := by
  obtain ⟨machine, rest⟩ := Prod.mk.inj same
  obtain ⟨history, state⟩ := Prod.mk.inj rest
  exact kept.congr machine history (fun _ => state) list

/-- Outside its phase, the machine is idle, and the list may be any. -/
theorem CursorsKept.outside {source target : Mng} (kept : CursorsKept source)
    (phase : source.state ≠ .blacklistingDevicesEm) (machine : target.bl = source.bl)
    (history : target.history = source.history) : CursorsKept target := by
  have idle : source.bl.state = .idle := by
    by_contra active
    exact phase (kept.phase active)
  apply kept.congr machine history
  · exact fun active => absurd idle active
  · exact fun some_ => absurd (kept.idle idle).1 some_

theorem CursorsKept.outside_view {source target : Mng} (kept : CursorsKept source)
    (phase : source.state ≠ .blacklistingDevicesEm) (same : target.blView = source.blView) :
    CursorsKept target :=
  kept.outside phase (congrArg Prod.fst same) (congrArg (fun view => view.2.1) same)

theorem phaseFrame_bl : PhaseFrame Mng.bl :=
  ⟨fun _ _ => rfl, fun _ _ => rfl, fun _ _ => rfl, fun _ _ => rfl⟩

theorem phaseFrame_history : PhaseFrame Mng.history :=
  ⟨fun _ _ => rfl, fun _ _ => rfl, fun _ _ => rfl, fun _ _ => rfl⟩

/-- While a blacklisting is going on, the phase stays. -/
theorem setMngState_blacklisting (input : PhaseInput) {mng : Mng}
    (phase : mng.state = .blacklistingDevicesEm) (active : mng.bl.state ≠ .idle) :
    setMngState input mng = mng := by
  rw [setMngState, phase]
  exact if_pos (.inr active)

theorem MngState.ne_blacklisting_of_idle {state : MngState} (idle : state.busy = false) :
    state ≠ .blacklistingDevicesEm := by
  intro blacklisting
  rw [blacklisting] at idle
  cases idle

/-- A step that leaves the list alone once a node was pushed keeps the invariant. -/
theorem BlacklistOp.cursorsKept {source target : Mng} {op : BlacklistOp}
    (kept : CursorsKept source) (stays : op.ListStays source) (step : op.Step source target) :
    CursorsKept target := by
  obtain ⟨possible, done⟩ := step
  cases op with
  | blLoop input => exact kept.blLoop possible (blLoop_step done)
  | blHdr packet rsp => exact kept.blHdr possible done
  | sync start =>
      cases done
      rw [clicbSync_eq]
      split
      · split
        · exact kept
        · rename_i stops
          have none_ := stays (Bool.eq_false_of_not_eq_true stops)
          exact kept.of_view rfl (fun some_ => absurd none_ some_)
      · rename_i idle
        have outside := MngState.ne_blacklisting_of_idle (Bool.eq_false_of_not_eq_true idle)
        split
        · exact kept.outside outside rfl rfl
        · exact kept
  | seqset seq =>
      cases done
      obtain ⟨prios, same⟩ := clicbSeqset_eq seq source
      rw [same]
      exact kept.of_view rfl (fun _ => rfl)
  | freemode on result =>
      cases done
      rw [clicbFreemode, clmSetScan_eq]
      exact kept.of_view rfl (fun _ => rfl)
  | rmall input nw file =>
      obtain ⟨host, marks, result⟩ := bind_ok.mp done
      cases result
      by_cases busy : source.state.busy = true
      · have same : clicbRmall input { mng := source, nw := nw, file := file } =
            .ok { mng := source, nw := nw, file := file } := if_pos busy
        rw [same] at marks
        cases marks
        exact kept
      · have outside := MngState.ne_blacklisting_of_idle (Bool.eq_false_of_not_eq_true busy)
        rcases loadFrame_blView.clicbRmall marks with same | ⟨_, mng, same, starts⟩
        · exact kept.outside_view outside same
        · have machine : mng.blView = source.blView := same
          rw [starts]
          exact kept.outside outside (congrArg Prod.fst machine)
            (congrArg (fun view => view.2.1) machine)
  | rmblclr input nw file =>
      obtain ⟨host, clears, result⟩ := bind_ok.mp done
      cases result
      have same := loadFrame_blView.clicbRmblclr clears
      exact kept.of_view same (fun some_ => absurd stays some_)
  | starting input nw file =>
      obtain ⟨⟨loaded, host⟩, loads, result⟩ := bind_ok.mp done
      cases result
      have same := loadFrame_blView.startSync loads
      apply kept.outside_view _ same
      rw [possible]
      exact (nomatch ·)
  | setMngState input =>
      cases done
      by_cases active : source.bl.state = .idle
      · apply kept.congr (phaseFrame_bl.setMngState input source)
          (phaseFrame_history.setMngState input source)
        · exact fun working => absurd active working
        · exact fun some_ => absurd (kept.idle active).1 some_
      · rw [setMngState_blacklisting input (kept.phase active) active]
        exact kept
  | work outcome =>
      cases done
      obtain ⟨machine, history, list, state⟩ := possible
      exact kept.congr machine history (fun _ => state) (fun _ => list)

/-! ## Every run -/

theorem Mng.BlFresh.cursorsKept {mng : Mng} (fresh : mng.BlFresh) : CursorsKept mng := by
  obtain ⟨machine, history⟩ := fresh
  have idle : mng.bl.state = .idle := congrArg BlCache.state machine
  have offset : mng.bl.offset = 0 := congrArg BlCache.offset machine
  refine ⟨⟨fun active => absurd idle active, fun active => absurd idle active, ?_⟩, ?_, ?_,
    fun active => absurd idle active⟩
  · intro _ some_
    rw [offset]
    exact List.length_pos_iff.mpr some_
  · exact fun _ => ⟨offset, congrArg BlCache.tail machine⟩
  · intro _
    rw [history]
    rfl

/-- In every run in which no command clears the list, or builds it again, once a node of it was
pushed, the cursors are right in every state.  The commands are accepted at any time, and clear
the list without the cursors that lead into it. -/
theorem cursors_right_guarded {initial final : Mng} {past : List (Move Mng BlacklistOp)}
    (run : BlacklistRun initial past final) (fresh : initial.BlFresh)
    (stays : Guarded BlacklistOp.ListStays past) :
    (∀ move ∈ past, move.source.CursorsRight ∧ move.target.CursorsRight) ∧
      final.CursorsRight := by
  have kept := run.guarded_invariant
    (fun source op target before admitted step =>
      BlacklistOp.cursorsKept before admitted step) fresh.cursorsKept stays
  refine ⟨fun move member => ?_, kept.2.right⟩
  obtain ⟨source, target⟩ := kept.1 move member
  exact ⟨source.right, target.right⟩

instance BlacklistOp.decidablePossible (mng : Mng) :
    (op : BlacklistOp) → Decidable (op.Possible mng)
  | .blLoop _ => inferInstanceAs (Decidable (mng.state = .blacklistingDevicesEm))
  | .blHdr (.complete _ _) _ => inferInstanceAs (Decidable (refreshing mng.history = true))
  | .blHdr (.nodeUpdate ..) _ => isTrue trivial
  | .blHdr (.phaseUpdate ..) _ => isTrue trivial
  | .starting _ _ _ => inferInstanceAs (Decidable (mng.state = .starting))
  | .work outcome => inferInstanceAs (Decidable (outcome.bl = mng.bl ∧
      outcome.history = mng.history ∧ outcome.lists.bl = mng.lists.bl ∧
      outcome.state = mng.state))
  | .sync _ => isTrue trivial
  | .seqset _ => isTrue trivial
  | .freemode _ _ => isTrue trivial
  | .rmall _ _ _ => isTrue trivial
  | .rmblclr _ _ _ => isTrue trivial
  | .setMngState _ => isTrue trivial

instance BlacklistOp.decidableListStays (source : Mng) :
    (op : BlacklistOp) → Decidable (op.ListStays source)
  | .sync start => inferInstanceAs (Decidable (start = false → source.bl.offset = 0))
  | .rmblclr _ _ _ => inferInstanceAs (Decidable (source.bl.offset = 0))
  | .blLoop _ => isTrue trivial
  | .blHdr _ _ => isTrue trivial
  | .seqset _ => isTrue trivial
  | .freemode _ _ => isTrue trivial
  | .rmall _ _ _ => isTrue trivial
  | .starting _ _ _ => isTrue trivial
  | .setMngState _ => isTrue trivial
  | .work _ => isTrue trivial

/-- A replay in which every step is possible is a run. -/
theorem blacklistRun_of_replays {initial : Mng} {labels : List BlacklistOp}
    {test : List (Move Mng BlacklistOp) → Mng → Bool}
    (passed : replays BlacklistOp.run initial labels (fun past final =>
      decide (Guarded (fun source op => op.Possible source) past) && test past final) =
        true) :
    ∃ past final, BlacklistRun initial past final ∧ test past final = true := by
  obtain ⟨past, final, run, _, reached⟩ := execution_of_replays passed
  obtain ⟨possible, tested⟩ := Bool.and_eq_true_iff.mp reached
  refine ⟨past, final, run.of_moves fun move member => ?_, tested⟩
  exact ⟨of_decide_eq_true possible move member, run.steps_taken move member⟩

/-- The only node of a network is pushed, a synchronization is asked for again, the list is
cleared when it is done, and the cursors are right throughout. -/
theorem cursors_right_guarded_through :
    ∃ past final, BlacklistRun Mng.listing past final ∧ final.state = .configured ∧
      (∀ move ∈ past, move.source.CursorsRight ∧ move.target.CursorsRight) ∧
      final.CursorsRight := by
  have passed : replays BlacklistOp.run Mng.listing
      [.blLoop (.all bgErrSuccess), .sync true, .blLoop (.all bgErrSuccess),
        .blHdr (.complete 1 0) .found, .blLoop (.all bgErrSuccess), .sync false,
        .setMngState default]
      (fun past final =>
        decide (Guarded (fun source op => BlacklistOp.Possible source op) past) &&
          decide (Guarded (fun source op => BlacklistOp.ListStays source op) past ∧
            final.state = .configured)) = true := by
    decide +kernel
  obtain ⟨past, final, run, shown⟩ := blacklistRun_of_replays passed
  obtain ⟨stays, idle⟩ := of_decide_eq_true shown
  exact ⟨past, final, run, idle, cursors_right_guarded run Mng.listing_fresh stays⟩

/-- `sync 0` clears the list during a key refresh; the cursor is then behind its end, and when
the refresh is complete the loop follows a null pointer. -/
theorem cursors_pass_the_end :
    ∃ past final, BlacklistRun Mng.listing past final ∧ final.bl.state = .done ∧
      ¬ final.CursorsRight ∧ ∀ input, blLoop input final = .error .recordMissing := by
  have passed : replays BlacklistOp.run Mng.listing
      [.blLoop (.all bgErrSuccess), .blLoop (.all bgErrSuccess), .sync false,
        .blHdr (.complete 1 0) .found]
      (fun past final =>
        decide (Guarded (fun source op => BlacklistOp.Possible source op) past) &&
          decide (final.bl.state = .done ∧ final.bl.tail = 0 ∧ final.bl.offset = 1 ∧
            final.lists.bl = [])) = true := by
    decide +kernel
  obtain ⟨past, final, run, shown⟩ := blacklistRun_of_replays passed
  obtain ⟨state, tail, offset, empty⟩ := of_decide_eq_true shown
  refine ⟨past, final, run, state, fun right => ?_, fun input => ?_⟩
  · have active : final.bl.state ≠ .idle := by rw [state]; exact (nomatch ·)
    obtain ⟨_, within⟩ := right.order active
    rw [offset, empty] at within
    exact absurd within (by decide)
  · have none_ : final.batch = [] := by
      rw [Mng.batch, empty, List.take_nil, List.drop_nil]
    have behind : final.bl.tail < final.bl.offset ∧ final.lists.bl.length < final.bl.offset := by
      rw [tail, offset, empty]
      decide
    rw [blLoop, state]
    dsimp only
    rw [onBlDone, none_]
    exact if_pos behind

end Nwmng
