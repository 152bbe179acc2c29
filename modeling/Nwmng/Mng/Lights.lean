/-
Module: Nwmng.Mng.Lights
Purpose: The commands that set lights, and the loop that sends what they ask for, over whole
runs of both.
Trusted boundary: none
Main exports:
  ModelSet, clicbOnoff, clicbLightness, clicbCt, modelsLoop, LightOp, LightRun, LightOrder,
  lights_set_once
-/
import Nwmng.Cfg.Addresses
import Nwmng.Config.Host
import Nwmng.Lib.Delivery
import Nwmng.Lib.Execution
import Nwmng.Lib.Fallible
import Nwmng.Utils.Numbers

namespace Nwmng

open Transition Fallible

/-! ## The commands -/

/-- `model_set`: what is to be sent, and the addresses that it is still to be sent to.  A new
command replaces it as a whole, so what an earlier one had still to send is given up. -/
structure ModelSet where
  type : UInt8
  value : UInt8
  nodes : List UInt16
deriving Repr, DecidableEq

def ModelSet.zeroed : ModelSet := { type := 0, value := 0, nodes := [] }

/-- What a command returns. -/
inductive CliErr where
  | success
  | state
  | paramInvalid
deriving Repr, DecidableEq

/-- The addresses among the arguments of a command; those that are no numbers are passed
over. -/
def addrArgs : List (List Char) → Except Abort (List UInt16)
  | [] => .ok []
  | arg :: args => do
      let number ← str2uint arg
      let rest ← addrArgs args
      match number with
      | none => .ok rest
      | some number => .ok (UInt16.ofNat number :: rest)

/-- The addresses that a command names: its arguments, or all lights of a kind. -/
def targetAddrs (db : CfgDb) (kind : UInt8) (args : List (List Char)) :
    Except Abort (List UInt16) :=
  match args with
  | [] =>
      match db.getLightsAddrs kind with
      | none => .ok []
      | some addrs => .ok (addrs.data.take addrs.len.toNat)
  | args => addrArgs args

/-- The end of both commands: the addresses are appended, and the type is set when there are
any. -/
def ModelSet.append (set : ModelSet) (type : UInt8) (addrs : List UInt16) : ModelSet :=
  let nodes := set.nodes ++ addrs
  { set with nodes := nodes, type := if nodes ≠ [] then type else set.type }

/-- `clicb_onoff`, on its arguments. -/
def clicbOnoff (db : CfgDb) (argv : List (List Char)) (set : ModelSet) :
    Except Abort (CliErr × ModelSet) :=
  if set.type ≠ 0 then .ok (.state, set)
  else
    match argv with
    | [] => .ok (.paramInvalid, set)
    | word :: args =>
        if word = "on".toList then do
          let addrs ← targetAddrs db onoffSvBit args
          .ok (.success, { set with value := 1 }.append onoffSvBit addrs)
        else if word = "off".toList then do
          let addrs ← targetAddrs db onoffSvBit args
          .ok (.success, { set with value := 0 }.append onoffSvBit addrs)
        else .ok (.paramInvalid, set)

/-- `clicb_perc_set`: the value is written before it is checked. -/
def clicbPercSet (db : CfgDb) (type : UInt8) (argv : List (List Char)) (set : ModelSet) :
    Except Abort (CliErr × ModelSet) :=
  if set.type ≠ 0 then .ok (.state, set)
  else
    match argv with
    | [] => .ok (.paramInvalid, set)
    | word :: args => do
        match ← str2uint word with
        | none => .ok (.paramInvalid, set)
        | some number =>
            let set := { set with value := UInt8.ofNat number }
            if set.value > 100 then .ok (.paramInvalid, set)
            else do
              let addrs ← targetAddrs db lightnessSvBit args
              .ok (.success, set.append type addrs)

def clicbLightness (db : CfgDb) : List (List Char) → ModelSet →
    Except Abort (CliErr × ModelSet) :=
  clicbPercSet db lightnessSvBit

def clicbCt (db : CfgDb) : List (List Char) → ModelSet → Except Abort (CliErr × ModelSet) :=
  clicbPercSet db ctlSvBit

/-!
## The loop

`models_loop` sends one command in each turn, to the first address of the list, and takes the
address off the list unless the NCP had no memory for the command.  The kind of the command comes
from the type that the last accepted command left, and its payload from the value.
-/

/-- The kinds of requests of `mesh_generic_client_set`. -/
inductive SetRequest where
  | onOff
  | lightnessActual
  | ctlTemperature
deriving Repr, DecidableEq

/-- `mesh_generic_client_set`, with the parameters that are not fixed.  The transition time, the
delay and the flags are the same constants for every message. -/
structure ClientSet where
  model : UInt16
  server : UInt16
  tid : UInt8
  request : SetRequest
  payload : List UInt8
deriving Repr, DecidableEq

/-- A number of two bytes, the low one first. -/
def levelBytes (lvl : UInt16) : List UInt8 := [lvl.toUInt8, (lvl >>> 8).toUInt8]

def sendOnoff (tid : UInt8) (addr : UInt16) (onoff : UInt8) : ClientSet :=
  { model := 0x1001, server := addr, tid := tid, request := .onOff, payload := [onoff] }

def sendLightness (tid : UInt8) (addr : UInt16) (lightness : UInt8) : ClientSet :=
  let lvl := UInt16.ofNat (lightness.toNat * 0xffff / 100)
  { model := 0x1302, server := addr, tid := tid, request := .lightnessActual
    payload := levelBytes lvl }

def temperatureMin : Nat := 0x0320
def temperatureMax : Nat := 0x4e20

def sendCtl (tid : UInt8) (addr : UInt16) (ctl : UInt8) : ClientSet :=
  let lvl := UInt16.ofNat (temperatureMin +
    (ctl.toNat * ctl.toNat / 100) * (temperatureMax - temperatureMin) / 100)
  { model := 0x1305, server := addr, tid := tid, request := .ctlTemperature
    payload := levelBytes lvl ++ [0, 0] }

/-- The function that `models_loop` selects by the type. -/
def sendModel (type : UInt8) (tid : UInt8) (addr : UInt16) (value : UInt8) : ClientSet :=
  if type = onoffSvBit then sendOnoff tid addr value
  else if type = lightnessSvBit then sendLightness tid addr value
  else sendCtl tid addr value

/-- The cache, the transaction id of the file, and the commands sent with their answers,
oldest first. -/
structure LightState where
  set : ModelSet
  tid : UInt8
  sent : List (ClientSet × UInt16)

def LightState.zeroed : LightState := { set := .zeroed, tid := 0, sent := [] }

/-- `models_loop`, given the answer to its command; it returns whether it is busy. -/
def modelsLoop (result : UInt16) (state : LightState) : Bool × LightState :=
  match state.set.nodes with
  | [] => (false, state)
  | addr :: rest =>
      let sends := sendModel state.set.type state.tid addr state.set.value
      let state := { state with
        tid := state.tid + 1, sent := state.sent ++ [(sends, result)] }
      if result = bgErrOutOfMemory then (true, state)
      else
        (false, { state with set := { state.set with
          nodes := rest, type := if rest = [] then 0 else state.set.type } })

/-! ## Runs -/

/-- A command of the user, with the database at that time. -/
inductive LightCmd where
  | onoff (db : CfgDb) (argv : List (List Char))
  | lightness (db : CfgDb) (argv : List (List Char))
  | colortemp (db : CfgDb) (argv : List (List Char))

def LightCmd.call (set : ModelSet) : LightCmd → Except Abort (CliErr × ModelSet)
  | .onoff db argv => clicbOnoff db argv set
  | .lightness db argv => clicbLightness db argv set
  | .colortemp db argv => clicbCt db argv set

/-- A command, or a call of the loop with the answer that it gets.  The loop sends one message
for each call, and keeps the address when the NCP has no memory. -/
inductive LightOp where
  | command (cmd : LightCmd)
  | loop (result : UInt16)

def LightOp.run (state : LightState) : LightOp → Except Abort LightState
  | .command cmd => do
      let (_, set) ← cmd.call state.set
      .ok { state with set := set }
  | .loop result => .ok (modelsLoop result state).2

abbrev LightRun := Execution (Succeeds LightOp.run)

/-!
## What a command asks for

The purpose of the two halves together: a light is to get the message of the command that named
it.  The messages are stated here by themselves, in terms of what the mesh models expect, and the
functions above are shown to make them.
-/

/-- The kinds of commands, by what is sent for them.  The kind decides the client model, the
request, and the bytes that the value is sent as. -/
inductive LightKind where
  | onoff
  | lightness
  | ctl
deriving Repr, DecidableEq

def LightKind.type : LightKind → UInt8
  | .onoff => onoffSvBit
  | .lightness => lightnessSvBit
  | .ctl => ctlSvBit

/-- What a command asks for by itself.  It is worked out from the words and from the database,
without what the program keeps of earlier commands. -/
structure LightOrder where
  kind : LightKind
  value : UInt8
  addrs : List UInt16

/-- A value that is a percentage is one. -/
def LightKind.Allows (kind : LightKind) (value : UInt8) : Prop :=
  kind = .onoff ∨ value ≤ 100

/-- The percentage of a command, and its addresses. -/
def percentOrder (db : CfgDb) (kind : LightKind) (argv : List (List Char)) :
    Except Abort (Option LightOrder) :=
  match argv with
  | [] => .ok none
  | word :: args => do
      match ← str2uint word with
      | none => .ok none
      | some number =>
          if UInt8.ofNat number > 100 then .ok none
          else do
            let addrs ← targetAddrs db lightnessSvBit args
            .ok (some { kind := kind, value := UInt8.ofNat number, addrs := addrs })

/-- The order of a command; `none` for one that is invalid. -/
def LightCmd.order : LightCmd → Except Abort (Option LightOrder)
  | .onoff _ [] => .ok none
  | .onoff db (word :: args) =>
      if word = "on".toList then do
        let addrs ← targetAddrs db onoffSvBit args
        .ok (some { kind := .onoff, value := 1, addrs := addrs })
      else if word = "off".toList then do
        let addrs ← targetAddrs db onoffSvBit args
        .ok (some { kind := .onoff, value := 0, addrs := addrs })
      else .ok none
  | .lightness db argv => percentOrder db .lightness argv
  | .colortemp db argv => percentOrder db .ctl argv

/-- Setting one light.  It is what the user expects of a command: this light gets this value, by
one message of the model that belongs to it. -/
structure LightDelivery where
  kind : LightKind
  value : UInt8
  addr : UInt16
deriving Repr, DecidableEq

/-- The client model that sets a light: generic on/off, light lightness, and light CTL. -/
def LightKind.client : LightKind → UInt16
  | .onoff => 0x1001
  | .lightness => 0x1302
  | .ctl => 0x1305

def LightKind.request : LightKind → SetRequest
  | .onoff => .onOff
  | .lightness => .lightnessActual
  | .ctl => .ctlTemperature

/-- The message that stands for a value: the value itself; the part of the full lightness, in two
bytes with the low one first; a temperature from 800 to 20000 kelvin, which grows with the square
of the value, in two such bytes and two zeros behind them. -/
def LightKind.Message (kind : LightKind) (value : UInt8) (payload : List UInt8) : Prop :=
  match kind with
  | .onoff => payload = [value]
  | .lightness => ∃ low high, payload = [low, high] ∧
      low.toNat + 256 * high.toNat = value.toNat * 65535 / 100
  | .ctl => ∃ low high, payload = [low, high, 0, 0] ∧
      low.toNat + 256 * high.toNat =
        800 + value.toNat * value.toNat / 100 * (20000 - 800) / 100

/-- A command to the NCP sets the light as it should be: it is of the kind that was asked for,
goes to the address, and its payload stands for the value. -/
structure LightDelivery.Carried (delivery : LightDelivery) (sent : ClientSet × UInt16) :
    Prop where
  client : sent.1.model = delivery.kind.client
  request : sent.1.request = delivery.kind.request
  server : sent.1.server = delivery.addr
  payload : delivery.kind.Message delivery.value sent.1.payload

/-- The NCP had no memory for the command. -/
def OutOfMemory (sent : ClientSet × UInt16) : Prop := sent.2 = bgErrOutOfMemory

instance : DecidablePred OutOfMemory :=
  fun sent => inferInstanceAs (Decidable (sent.2 = bgErrOutOfMemory))

/-- What a command that is accepted adds, light by light in its order. -/
def LightCmd.deliveries (set : ModelSet) (cmd : LightCmd) : List LightDelivery :=
  match cmd.call set, cmd.order with
  | .ok (.success, _), .ok (some order) =>
      order.addrs.map fun addr => { kind := order.kind, value := order.value, addr := addr }
  | _, _ => []

def LightOp.deliveries (state : LightState) : LightOp → List LightDelivery
  | .command cmd => cmd.deliveries state.set
  | .loop _ => []

/-- What the commands of a run have asked for. -/
def accepted (past : List (Move LightState LightOp)) : List LightDelivery :=
  past.flatMap fun move => move.label.deliveries move.source

/-! ## What a step does -/

/-- An order is carried out by the handler of its command. -/
theorem clicbPercSet_cases {db : CfgDb} {kind : LightKind} {argv : List (List Char)}
    {set set' : ModelSet} {e : CliErr}
    (calls : clicbPercSet db kind.type argv set = .ok (e, set')) :
    (set.type ≠ 0 ∧ e = .state ∧ set' = set) ∨
      (set.type = 0 ∧ e = .paramInvalid ∧ ∃ value, set' = { set with value := value }) ∨
      (set.type = 0 ∧ e = .success ∧ ∃ order, percentOrder db kind argv = .ok (some order) ∧
        order.kind.Allows order.value ∧
        set' = { set with value := order.value }.append order.kind.type order.addrs) := by
  unfold clicbPercSet at calls
  by_cases idle : set.type = 0
  · rw [if_neg (not_not_intro idle)] at calls
    cases argv with
    | nil =>
        cases calls
        exact .inr (.inl ⟨idle, rfl, set.value, rfl⟩)
    | cons word args =>
        obtain ⟨number, reads, calls⟩ := bind_ok.mp calls
        cases number with
        | none =>
            cases calls
            exact .inr (.inl ⟨idle, rfl, set.value, rfl⟩)
        | some number =>
            dsimp only at calls
            by_cases large : UInt8.ofNat number > 100
            · rw [if_pos large] at calls
              cases calls
              exact .inr (.inl ⟨idle, rfl, UInt8.ofNat number, rfl⟩)
            · rw [if_neg large] at calls
              obtain ⟨addrs, targets, calls⟩ := bind_ok.mp calls
              cases calls
              refine .inr (.inr ⟨idle, rfl, ⟨kind, UInt8.ofNat number, addrs⟩, ?_,
                .inr (UInt8.not_lt.mp large), rfl⟩)
              simp only [percentOrder, reads, ok_bind, if_neg large, targets]
  · rw [if_pos idle] at calls
    cases calls
    exact .inl ⟨idle, rfl, rfl⟩

/-- A command is rejected when the last one is not worked off, or when it is invalid; else it
is carried out. -/
theorem LightCmd.call_cases {cmd : LightCmd} {set set' : ModelSet} {e : CliErr}
    (calls : cmd.call set = .ok (e, set')) :
    (set.type ≠ 0 ∧ e = .state ∧ set' = set) ∨
      (set.type = 0 ∧ e = .paramInvalid ∧ ∃ value, set' = { set with value := value }) ∨
      (set.type = 0 ∧ e = .success ∧ ∃ order, cmd.order = .ok (some order) ∧
        order.kind.Allows order.value ∧
        set' = { set with value := order.value }.append order.kind.type order.addrs) := by
  cases cmd with
  | lightness db argv => exact @clicbPercSet_cases db .lightness argv set set' e calls
  | colortemp db argv => exact @clicbPercSet_cases db .ctl argv set set' e calls
  | onoff db argv =>
      simp only [LightCmd.call] at calls
      unfold clicbOnoff at calls
      by_cases idle : set.type = 0
      · rw [if_neg (not_not_intro idle)] at calls
        cases argv with
        | nil =>
            cases calls
            exact .inr (.inl ⟨idle, rfl, set.value, rfl⟩)
        | cons word args =>
            dsimp only at calls
            by_cases isOn : word = "on".toList
            · rw [if_pos isOn] at calls
              obtain ⟨addrs, targets, calls⟩ := bind_ok.mp calls
              cases calls
              refine .inr (.inr ⟨idle, rfl, ⟨.onoff, 1, addrs⟩, ?_, .inl rfl, rfl⟩)
              simp only [LightCmd.order, if_pos isOn, targets, ok_bind]
            · rw [if_neg isOn] at calls
              by_cases isOff : word = "off".toList
              · rw [if_pos isOff] at calls
                obtain ⟨addrs, targets, calls⟩ := bind_ok.mp calls
                cases calls
                refine .inr (.inr ⟨idle, rfl, ⟨.onoff, 0, addrs⟩, ?_, .inl rfl, rfl⟩)
                simp only [LightCmd.order, if_neg isOn, if_pos isOff, targets, ok_bind]
              · rw [if_neg isOff] at calls
                cases calls
                exact .inr (.inl ⟨idle, rfl, set.value, rfl⟩)
      · rw [if_pos idle] at calls
        cases calls
        exact .inl ⟨idle, rfl, rfl⟩

/-- The two bytes of a level, the low one first. -/
theorem levelBytes_eq {level : Nat} (small : level < 65536) :
    ∃ low high, levelBytes (UInt16.ofNat level) = [low, high] ∧
      low.toNat + 256 * high.toNat = level := by
  refine ⟨_, _, rfl, ?_⟩
  simp only [UInt16.toNat_toUInt8, UInt16.toNat_shiftRight, UInt16.toNat_ofNat',
    Nat.shiftRight_eq_div_pow, Nat.mod_eq_of_lt small]
  have eight : (8 : UInt16).toNat % 16 = 8 := by decide
  rw [eight]
  omega

/-- The loop sends what the type stands for, with a payload that stands for the value. -/
theorem sendModel_carried {delivery : LightDelivery} (tid : UInt8) (result : UInt16)
    (allows : delivery.kind.Allows delivery.value) :
    delivery.Carried (sendModel delivery.kind.type tid delivery.addr delivery.value, result) := by
  obtain ⟨kind, value, addr⟩ := delivery
  cases kind with
  | onoff => exact ⟨rfl, rfl, rfl, rfl⟩
  | lightness =>
      have percent := UInt8.le_iff_toNat_le.mp (allows.resolve_left (fun other => by cases other))
      have hundred : (100 : UInt8).toNat = 100 := rfl
      dsimp only at percent
      refine ⟨rfl, rfl, rfl, ?_⟩
      have small : value.toNat * 65535 / 100 < 65536 := by omega
      exact levelBytes_eq small
  | ctl =>
      have percent := UInt8.le_iff_toNat_le.mp (allows.resolve_left (fun other => by cases other))
      have hundred : (100 : UInt8).toNat = 100 := rfl
      dsimp only at percent
      have square : value.toNat * value.toNat ≤ 100 * 100 := by
        rw [hundred] at percent
        exact Nat.mul_le_mul percent percent
      refine ⟨rfl, rfl, rfl, ?_⟩
      obtain ⟨low, high, bytes, level⟩ := @levelBytes_eq
        (temperatureMin + value.toNat * value.toNat / 100 * (temperatureMax - temperatureMin) / 100)
        (by unfold temperatureMin temperatureMax; omega)
      exact ⟨low, high, congrArg (· ++ [0, 0]) bytes, level⟩

theorem LightKind.type_ne_zero (kind : LightKind) : kind.type ≠ 0 := by
  cases kind <;> decide

/-- What was sent delivers what was asked for; the cache holds what remains of it, and has a
type exactly when something remains. -/
structure LightInvariant (asked : List LightDelivery) (state : LightState) : Prop where
  once : ∃ rest, Delivers LightDelivery.Carried OutOfMemory asked state.sent rest ∧
    state.set.nodes = rest.map (·.addr) ∧
    ∀ delivery ∈ rest, delivery.kind.type = state.set.type ∧
      delivery.value = state.set.value ∧ delivery.kind.Allows delivery.value
  typed : state.set.type = 0 ↔ state.set.nodes = []

namespace LightInvariant

variable {asked : List LightDelivery} {state : LightState}

/-- A call of the loop sends to the first of the addresses that remain. -/
theorem loop (invariant : LightInvariant asked state) (result : UInt16) :
    LightInvariant asked (modelsLoop result state).2 := by
  obtain ⟨rest, delivers, isRest, own⟩ := invariant.once
  unfold modelsLoop
  cases rest with
  | nil =>
      rw [isRest]
      exact ⟨⟨[], delivers, isRest, own⟩, invariant.typed⟩
  | cons delivery rest =>
      obtain ⟨isType, isValue, allows⟩ := own delivery List.mem_cons_self
      rw [isRest, List.map_cons]
      have carried : LightDelivery.Carried delivery
          (sendModel state.set.type state.tid delivery.addr state.set.value, result) := by
        rw [← isType, ← isValue]
        exact sendModel_carried state.tid result allows
      dsimp only
      by_cases again : result = bgErrOutOfMemory
      · rw [if_pos again]
        exact ⟨⟨delivery :: rest, delivers.repeated carried again, isRest, own⟩,
          invariant.typed⟩
      · rw [if_neg again]
        refine ⟨⟨rest, delivers.completed carried again, rfl, ?_⟩, ?_⟩
        · intro other member
          obtain ⟨otherType, otherValues⟩ := own other (List.mem_cons_of_mem _ member)
          have some_ : rest.map (·.addr) ≠ [] := by
            simpa using List.ne_nil_of_mem member
          exact ⟨otherType.trans (if_neg some_).symm, otherValues⟩
        · by_cases none : rest.map (·.addr) = []
          · exact iff_of_true (if_pos none) none
          · refine iff_of_false ?_ none
            dsimp only
            rw [if_neg none, ← isType]
            exact delivery.kind.type_ne_zero

/-- A command that is rejected changes at most a value that nothing uses; one that is accepted
finds nothing that remains. -/
theorem command (invariant : LightInvariant asked state) {cmd : LightCmd} {e : CliErr}
    {set : ModelSet} (calls : cmd.call state.set = .ok (e, set)) :
    LightInvariant (asked ++ cmd.deliveries state.set) { state with set := set } := by
  obtain ⟨rest, delivers, isRest, own⟩ := invariant.once
  rcases LightCmd.call_cases calls with
    ⟨_, rfl, rfl⟩ | ⟨idle, rfl, value, rfl⟩ | ⟨idle, rfl, order, isOrder, allows, rfl⟩
  · rw [LightCmd.deliveries, calls, List.append_nil]
    exact invariant
  · rw [LightCmd.deliveries, calls, List.append_nil]
    have none := invariant.typed.mp idle
    rw [none] at isRest
    have empty := List.map_eq_nil_iff.mp isRest.symm
    refine ⟨⟨rest, delivers, ?_, ?_⟩, invariant.typed⟩
    · rw [empty]
      exact none
    · rw [empty]
      exact fun _ member => absurd member List.not_mem_nil
  · rw [LightCmd.deliveries, calls, isOrder]
    have none := invariant.typed.mp idle
    rw [none] at isRest
    have empty := List.map_eq_nil_iff.mp isRest.symm
    rw [empty] at delivers
    refine ⟨⟨_, delivers.accept _, ?_, ?_⟩, ?_⟩
    · simp [ModelSet.append, none, Function.comp_def]
    · intro delivery member
      obtain ⟨addr, listed, rfl⟩ := List.mem_map.mp member
      have some_ : state.set.nodes ++ order.addrs ≠ [] := by
        rw [none, List.nil_append]
        exact List.ne_nil_of_mem listed
      exact ⟨(if_pos some_).symm, rfl, allows⟩
    · by_cases listed : state.set.nodes ++ order.addrs = []
      · exact iff_of_true ((if_neg (not_not_intro listed)).trans idle) listed
      · refine iff_of_false ?_ listed
        intro isZero
        exact order.kind.type_ne_zero ((if_pos listed).symm.trans isZero)

theorem step (invariant : LightInvariant asked state) {op : LightOp} {target : LightState}
    (runs : op.run state = .ok target) :
    LightInvariant (asked ++ op.deliveries state) target := by
  cases op with
  | loop result =>
      cases runs
      rw [LightOp.deliveries, List.append_nil]
      exact invariant.loop result
  | command cmd =>
      obtain ⟨⟨e, set⟩, calls, result⟩ := bind_ok.mp runs
      cases result
      exact invariant.command calls

end LightInvariant

theorem lightInvariant_run {past : List (Move LightState LightOp)} {state : LightState}
    (run : LightRun .zeroed past state) : LightInvariant (accepted past) state := by
  induction run with
  | start =>
      exact ⟨⟨[], .start, rfl, fun _ member => absurd member List.not_mem_nil⟩,
        iff_of_true rfl rfl⟩
  | extend earlier taken hypothesis =>
      rw [accepted, List.flatMap_append, List.flatMap_singleton]
      exact hypothesis.step taken

/-- The type is zero exactly when nothing remains, in every state of a run. -/
theorem typed_at {past : List (Move LightState LightOp)} {state : LightState}
    (run : LightRun .zeroed past state) {move : Move LightState LightOp} (member : move ∈ past) :
    move.source.set.type = 0 ↔ move.source.set.nodes = [] := by
  have preserved : ∀ source label target,
      (∃ asked, LightInvariant asked source) → Succeeds LightOp.run source label target →
      ∃ asked, LightInvariant asked target :=
    fun source label target ⟨asked, invariant⟩ taken => ⟨_, invariant.step taken⟩
  obtain ⟨_, invariant⟩ := ((run.invariant preserved ⟨_, lightInvariant_run .start⟩).1
    move member).1
  exact invariant.typed

/-! ## Once and in order -/

/-- What the lights get in a run: what the accepted commands asked for, light by light, each
sent until it is answered with something other than out of memory. -/
structure LightsRight (past : List (Move LightState LightOp)) (state : LightState) : Prop
    extends LightInvariant (accepted past) state where
  /-- a call of the loop sends once, to the first address that remains -/
  sends : ∀ move ∈ past, ∀ result, move.label = .loop result → move.source.set.nodes ≠ [] →
    ∃ command, move.target.sent = move.source.sent ++ [(command, result)]
  /-- a command sends nothing, and one that is rejected leaves what remains to be sent -/
  rejected : ∀ move ∈ past, ∀ cmd e set, move.label = .command cmd →
    cmd.call move.source.set = .ok (e, set) →
    move.target.sent = move.source.sent ∧
      (e ≠ .success → move.target.set.nodes = move.source.set.nodes ∧
        move.target.set.type = move.source.set.type ∧
        (move.source.set.nodes ≠ [] → move.target.set.value = move.source.set.value))

/-- In every run, the lights of an accepted command are set one after the other, each by a
message that is repeated only while the NCP has no memory for it; commands that are rejected
disturb nothing. -/
theorem lights_set_once {past : List (Move LightState LightOp)} {state : LightState}
    (run : LightRun .zeroed past state) : LightsRight past state := by
  have steps := run.steps_taken
  refine ⟨lightInvariant_run run, ?_, ?_⟩
  · intro move member result isLoop remains
    have taken := steps move member
    rw [isLoop] at taken
    obtain ⟨addr, rest, isNodes⟩ := List.exists_cons_of_ne_nil remains
    rw [← Except.ok.inj taken, modelsLoop, isNodes]
    dsimp only
    by_cases again : result = bgErrOutOfMemory
    · rw [if_pos again]
      exact ⟨_, rfl⟩
    · rw [if_neg again]
      exact ⟨_, rfl⟩
  · intro move member cmd e set isCommand calls
    have taken := steps move member
    rw [isCommand, Succeeds, LightOp.run, calls, ok_bind] at taken
    rw [← Except.ok.inj taken]
    refine ⟨rfl, ?_⟩
    intro refused
    rcases LightCmd.call_cases calls with
      ⟨_, _, rfl⟩ | ⟨idle, _, value, rfl⟩ | ⟨_, accepted, _⟩
    · exact ⟨rfl, rfl, fun _ => rfl⟩
    · exact ⟨rfl, rfl, fun remains => absurd ((typed_at run member).mp idle) remains⟩
    · exact absurd accepted refused

/-- Two lights are switched on; the NCP has no memory at first, and a percentage that comes
before the second light is set is rejected. -/
theorem lights_set_once_two :
    ∃ past state, LightRun .zeroed past state ∧ LightsRight past state ∧
      state.sent = [(sendOnoff 0 0xC021 1, bgErrOutOfMemory), (sendOnoff 1 0xC021 1, 0),
        (sendOnoff 2 0xC022 1, 0)] ∧ state.set.nodes = [] := by
  obtain ⟨past, state, run, _, reached⟩ :=
    execution_of_replays (show replays LightOp.run .zeroed
      [.command (.onoff .cfgdbInit ["on".toList, "0xc021".toList, "0xc022".toList]),
        .loop bgErrOutOfMemory, .loop 0,
        .command (.lightness .cfgdbInit ["50".toList, "0xc023".toList]), .loop 0]
      (fun _ state => decide (state.sent = [(sendOnoff 0 0xC021 1, bgErrOutOfMemory),
        (sendOnoff 1 0xC021 1, 0), (sendOnoff 2 0xC022 1, 0)] ∧ state.set.nodes = [])) = true by
        decide +kernel)
  exact ⟨past, state, run, lights_set_once run, of_decide_eq_true reached⟩

end Nwmng
