/-
Module: Nwmng.Config.Progress
Purpose: What a turn of a slot leaves of the history and of the records: what has been completed
stays completed, and every record keeps its task.
Trusted boundary: none
Main exports:
  MeshConfig.asksFor, completedSince, DoneSound, resumesAt, Node.SameTask, Continues, OnlyWorks,
  HostWork.onlyWorks, rmendEntry_onlyWorks
-/
import Nwmng.Config.HostChanges
import Nwmng.Config.SlotRun

namespace Nwmng

open Transition Fallible

/-!
## The history of a device

The log is a history from which it can be read when a device got its address, which states it has
completed since, and when it was found configured.
-/

/-- The guard of a state that configures a node, as it reads the configuration. -/
def MeshConfig.asksFor (config : MeshConfig) : AccState → Bool
  | .addappkeyEm | .bindappkeyEm => hasBindings config
  | .setpubEm => publishesBoundKey config
  | .addsubEm => hasSublist config
  | .setconfigEm => featuresDiffer config
  | _ => false

/-- The device has run the state to completion since it last received an address. -/
def completedSince (device : Uuid) (state : AccState) : List Effect → Bool
  | [] => false
  | .completed uuid _ which :: older =>
      (uuid == device && which == state) || completedSince device state older
  | .addressed uuid _ :: older => uuid != device && completedSince device state older
  | _ :: older => completedSince device state older

/-- A device is found configured only when it has completed, by then, the states that its
configuration asks for. -/
def Effect.Justified (older : List Effect) : Effect → Prop
  | .configured device _ config =>
      ∀ state, config.asksFor state = true → completedSince device state older = true
  | _ => True

/-- Every device that was found configured had completed its states. -/
def DoneSound : List Effect → Prop
  | [] => True
  | effect :: older => effect.Justified older ∧ DoneSound older

/-- The state that an error mask leads to behind the composition data. -/
def resumesAt (err : BitVec 32) : Option AccState :=
  if AccState.getDcdEm.errorBit < err && err < AccState.endEm.errorBit then resumeState err
  else none

/-- The effects of the turns of a slot. -/
def Effect.OfTurn (slot : Slot) : Effect → Prop
  | .sent sender _ _ => sender = slot
  | .addressed _ _ => False
  | _ => True

/-- All states. -/
def AccState.all : List AccState :=
  [.provisioningEm, .provisionedEm, .getDcdEm, .addappkeyEm, .bindappkeyEm, .setpubEm, .addsubEm,
    .setconfigEm, .endEm, .rmEm, .rmendEm]

theorem AccState.mem_all (state : AccState) : state ∈ AccState.all := by
  cases state <;> decide

instance {property : AccState → Prop} [DecidablePred property] :
    Decidable (∀ state, property state) :=
  decidable_of_iff (∀ state ∈ AccState.all, property state)
    ⟨fun every state => every state state.mem_all, fun every state _ => every state⟩

instance (older : List Effect) : (effect : Effect) → Decidable (effect.Justified older)
  | .configured device _ config =>
      inferInstanceAs (Decidable (∀ state, config.asksFor state = true →
        completedSince device state older = true))
  | .sent .. => isTrue trivial
  | .answered _ => isTrue trivial
  | .released _ => isTrue trivial
  | .completed .. => isTrue trivial
  | .addressed .. => isTrue trivial
  | .removed .. => isTrue trivial
  | .blacklisted .. => isTrue trivial
  | .ddbDelete _ => isTrue trivial

instance doneSoundDecidable : (log : List Effect) → Decidable (DoneSound log)
  | [] => isTrue trivial
  | effect :: older =>
      have := doneSoundDecidable older
      inferInstanceAs (Decidable (effect.Justified older ∧ DoneSound older))

/-- A device is found configured. -/
def Effect.isConfigured : Effect → Bool
  | .configured .. => true
  | _ => false

theorem Effect.OfTurn.foreign {slot other : Slot} {effect : Effect} (own : effect.OfTurn slot)
    (different : other ≠ slot) : effect.sentBy other = none := by
  cases effect with
  | sent sender command answer =>
      have apart : sender ≠ other := fun same => different (same.symm.trans own)
      simp [Effect.sentBy, apart]
  | _ => rfl

/-- Turns of slots take back no completion. -/
theorem completedSince_mono {slot : Slot} {news : List Effect} {log : List Effect}
    {device : Uuid} {state : AccState} (turns : ∀ effect ∈ news, effect.OfTurn slot)
    (completed : completedSince device state log = true) :
    completedSince device state (news ++ log) = true := by
  induction news with
  | nil => exact completed
  | cons effect news hypothesis =>
      have before := hypothesis fun other member => turns other (List.mem_cons_of_mem _ member)
      have own := turns effect List.mem_cons_self
      cases effect with
      | addressed uuid addr => exact own.elim
      | completed uuid addr which =>
          simp only [List.cons_append, completedSince, before, Bool.or_true]
      | _ => exact before

theorem doneSound_append {news log : List Effect}
    (none_ : ∀ effect ∈ news, effect.isConfigured = false) (sound : DoneSound log) :
    DoneSound (news ++ log) := by
  induction news with
  | nil => exact sound
  | cons effect news hypothesis =>
      have before := hypothesis fun other member => none_ other (List.mem_cons_of_mem _ member)
      have own := none_ effect List.mem_cons_self
      refine ⟨?_, before⟩
      cases effect with
      | configured uuid addr config => cases own
      | _ => trivial

/-! ## Records -/

/-- A record keeps its device, and what its configuration asks for; only the features can be
seen to be set. -/
structure Node.SameTask (node after : Node) : Prop where
  uuid : after.uuid = node.uuid
  asks : ∀ state, state ≠ .setconfigEm →
    after.config.asksFor state = node.config.asksFor state

theorem Node.SameTask.refl (node : Node) : node.SameTask node :=
  ⟨rfl, fun _ _ => rfl⟩

theorem Node.SameTask.trans {first second third : Node} (one : first.SameTask second)
    (two : second.SameTask third) : first.SameTask third :=
  ⟨two.uuid.trans one.uuid, fun state other =>
    (two.asks state other).trans (one.asks state other)⟩

instance (node after : Node) : Decidable (node.SameTask after) :=
  decidable_of_iff (after.uuid = node.uuid ∧
    ∀ state ∈ [AccState.addappkeyEm, .bindappkeyEm, .setpubEm, .addsubEm],
      after.config.asksFor state = node.config.asksFor state)
    ⟨fun ⟨uuid, asks⟩ => ⟨uuid, fun state other => by
        cases state <;> first
          | rfl
          | exact absurd rfl other
          | exact asks _ (by decide)⟩,
      fun same => ⟨same.uuid, fun state member => same.asks state fun isLast => by
        rw [isLast] at member
        exact absurd member (by decide)⟩⟩

theorem Node.SameTask.of_config {node after : Node} (uuid : after.uuid = node.uuid)
    (config : after.config = node.config) : node.SameTask after :=
  ⟨uuid, fun _ _ => by rw [config]⟩

theorem onFeatureConfigured_sameTask (which : Nat) (node : Node) :
    node.SameTask (onFeatureConfigured which node) := by
  refine ⟨rfl, ?_⟩
  intro state other
  cases state with
  | setconfigEm => exact (other rfl).elim
  | _ => rfl

/-- A record keeps its task, and its error mask, unless it gets one that leads nowhere.  A mask
that leads nowhere is that of a node whose configuration starts from the beginning, so it skips
nothing. -/
structure Node.Steady (node after : Node) : Prop extends node.SameTask after where
  err : after.err = node.err ∨ resumesAt after.err = none

theorem Node.Steady.refl (node : Node) : node.Steady node :=
  ⟨.refl node, .inl rfl⟩

theorem Node.Steady.trans {first second third : Node} (one : first.Steady second)
    (two : second.Steady third) : first.Steady third where
  toSameTask := one.toSameTask.trans two.toSameTask
  err := by
    rcases two.err with same | cleared
    · rw [same]
      exact one.err
    · exact .inr cleared

theorem Node.Steady.of_fields {node after : Node} (uuid : after.uuid = node.uuid)
    (config : after.config = node.config)
    (err : after.err = node.err ∨ resumesAt after.err = none) :
    node.Steady after :=
  ⟨.of_config uuid config, err⟩

/-!
## Turns of slots

The turns of a slot change the history and the records in a few ways only.  They are collected
here, so that the invariants below need not look at the callbacks again.
-/

/-- A turn of a slot adds its effects to the log, and leaves every record its task.  Nothing is
taken out of the log, so a state that was completed before the turn still is. -/
structure Continues (slot : Slot) (before after : Host) : Prop where
  log : ∃ news : List Effect, (∀ effect ∈ news, effect.OfTurn slot) ∧
    after.log = news ++ before.log
  records : before.db.Kept Node.SameTask after.db

/-- The work of a slot reports no node as configured, and leaves every mask, or one that leads
nowhere. -/
structure OnlyWorks (slot : Slot) (before after : Host) : Prop extends
    Continues slot before after where
  done : DoneSound before.log → DoneSound after.log
  masks : ∀ record, (after.db.heap record).err = (before.db.heap record).err ∨
    resumesAt (after.db.heap record).err = none

namespace Continues

variable {slot other : Slot} {before after : Host}

theorem refl (slot : Slot) (host : Host) : Continues slot host host :=
  ⟨⟨[], by simp, rfl⟩, .refl Node.SameTask.refl host.db⟩

theorem trans {third : Host} (one : Continues slot before after)
    (two : Continues slot after third) : Continues slot before third where
  log := by
    obtain ⟨early, earlyTurns, first⟩ := one.log
    obtain ⟨late, lateTurns, second⟩ := two.log
    refine ⟨late ++ early, ?_, by rw [second, first, List.append_assoc]⟩
    intro effect member
    rcases List.mem_append.mp member with new | old
    · exact lateTurns effect new
    · exact earlyTurns effect old
  records := one.records.trans Node.SameTask.trans two.records

theorem completed (continues : Continues slot before after) {device : Uuid} {state : AccState}
    (done : completedSince device state before.log = true) :
    completedSince device state after.log = true := by
  obtain ⟨news, turns, log⟩ := continues.log
  rw [log]
  exact completedSince_mono turns done

/-- What another slot has sent last is not touched. -/
theorem lastSentBy (continues : Continues slot before after) (different : other ≠ slot) :
    after.lastSentBy other = before.lastSentBy other := by
  obtain ⟨news, turns, log⟩ := continues.log
  have foreign : ∀ effect ∈ news, effect.sentBy other = none :=
    fun effect member => (turns effect member).foreign different
  calc after.lastSentBy other
      = ({ after with log := news ++ before.log } : Host).lastSentBy other :=
        Host.lastSentBy_congr other log
    _ = before.lastSentBy other := Host.lastSentBy_others foreign

end Continues

namespace OnlyWorks

variable {slot : Slot} {before after : Host}

theorem refl (slot : Slot) (host : Host) : OnlyWorks slot host host :=
  ⟨.refl slot host, id, fun _ => .inl rfl⟩

theorem trans {third : Host} (one : OnlyWorks slot before after)
    (two : OnlyWorks slot after third) : OnlyWorks slot before third where
  toContinues := one.toContinues.trans two.toContinues
  done sound := two.done (one.done sound)
  masks record := by
    rcases two.masks record with same | cleared
    · rw [same]
      exact one.masks record
    · exact .inr cleared

/-- Logging an effect of a turn other than a node being configured. -/
theorem logged (host : Host) {effect : Effect} (own : effect.OfTurn slot)
    (other : effect.isConfigured = false) : OnlyWorks slot host (host.record effect) where
  log := ⟨[effect], by simpa using own, rfl⟩
  records := .refl Node.SameTask.refl host.db
  done := @doneSound_append [effect] host.log (by simpa using other)
  masks _ := .inl rfl

/-- Changes of the records that are steady. -/
theorem of_records {host : Host} {db : CfgDb} (stat : Stat) (kept : host.db.Kept Node.Steady db) :
    OnlyWorks slot host { host with stat := stat, db := db } where
  log := ⟨[], by simp, rfl⟩
  records := ⟨fun record => (kept.records record).toSameTask, kept.next⟩
  done := id
  masks record := (kept.records record).err

end OnlyWorks

theorem Node.Worked.steady {change : Node → Node} (worked : Node.Worked change) (node : Node) :
    node.Steady (change node) := by
  cases worked with
  | func func => exact .of_fields rfl rfl (.inl rfl)
  | feature which => exact ⟨onFeatureConfigured_sameTask which node, .inl rfl⟩

theorem HostChange.onlyWorks {slot : Slot} {host next : Host} (change : HostChange slot host next) :
    OnlyWorks slot host next := by
  cases change with
  | counted stat => exact .of_records stat (.refl Node.Steady.refl host.db)
  | logged own =>
      cases own with
      | sent command answer => exact .logged host rfl rfl
      | completed uuid addr state => exact .logged host trivial rfl
  | written record worked =>
      exact .of_records host.stat (.update Node.Steady.refl worked.steady host.db record)

/-- The work of a slot is steady. -/
theorem HostWork.onlyWorks {slot : Slot} {before after : Host}
    (work : HostWork slot before after) : OnlyWorks slot before after :=
  work.of_changes (OnlyWorks.refl slot) OnlyWorks.trans HostChange.onlyWorks

/-- So is the removal of a node. -/
theorem rmendEntry_onlyWorks {guard : Option GuardFn} {slot : Slot} {answer : CmdRsp}
    {cache : ConfigCache} {host : Host} {out : Outcome} (clean : cache.failed = false)
    (entered : rmendEntry guard slot answer cache host = .ok out) :
    OnlyWorks slot host out.host := by
  have failing : cache.failed = true → ∀ node : Node,
      node.Steady { node with err := cache.errBits } := by
    intro failed
    rw [clean] at failed
    cases failed
  have kept : host.db.Kept Node.Steady out.host.db :=
    rmendEntry_kept Node.Steady.refl Node.Steady.trans failing
      (fun _ => .of_fields rfl rfl (.inr rfl)) (fun _ => .of_fields rfl rfl (.inl rfl))
      (fun _ => .of_fields rfl rfl (.inl rfl)) (fun _ => .of_fields rfl rfl (.inl rfl)) entered
  simp only [rmendEntry, bind_ok, clean, Bool.false_eq_true, if_false, Except.ok.injEq] at entered
  obtain ⟨⟨id, node⟩, found, first, clears, second, undone, third, forgets, db, removes, rfl⟩ :=
    entered
  let moved : Host := { host with stat := host.stat.rmOneDev, db := db }
  have changed : OnlyWorks slot host moved := .of_records host.stat.rmOneDev kept
  have reported : OnlyWorks slot moved (moved.record (.removed node.uuid node.addr)) :=
    .logged moved trivial rfl
  exact (changed.trans reported).trans (.logged _ trivial rfl)

end Nwmng
