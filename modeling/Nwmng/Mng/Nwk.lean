/-
Module: Nwmng.Mng.Nwk
Purpose: The start of the network, which creates the keys and records them in the
provisioner's file, and what that file gives back after a restart.
Trusted boundary: saving a file succeeds
Main exports:
  CreateRsp, newNetkey, newAppkeys, onInitializedConfig, krFinishProv, ProvCall,
  runCalls, prov_file_round_trip
-/
import Mathlib.Data.List.Nodup
import Nwmng.Cfg.ProvRoundTrip
import Nwmng.Mng.Blacklist

namespace Nwmng

open Json Fallible

def bgErrMeshAlreadyExists : UInt16 := 0xC01
def bgErrMeshAlreadyInitialized : UInt16 := 0xC06

/-! ## The functions -/

/-- The response to the creation of a key: the network id, or the index of the
application key. -/
structure CreateRsp where
  result : UInt16
  index : UInt16
deriving Repr, DecidableEq

/-- The key is there, whether it was before or not.  The program takes a key that exists already
for its own, whatever the key is. -/
def CreateRsp.Created (rsp : CreateRsp) : Prop :=
  rsp.result = bgErrSuccess ∨ rsp.result = bgErrMeshAlreadyExists

instance (rsp : CreateRsp) : Decidable rsp.Created :=
  inferInstanceAs (Decidable (rsp.result = bgErrSuccess ∨ rsp.result = bgErrMeshAlreadyExists))

namespace ProvState

/-- `mng->cfg->subnets[0]`. -/
def subnet (prov : ProvState) : Except Abort Subnet :=
  match prov.cfg.subnets with
  | subnet :: _ => .ok subnet
  | [] => .error .fieldMissing

/-- Assign to the first subnet; the file is not written. -/
def assign (change : Subnet → Subnet) (prov : ProvState) : ProvState :=
  { prov with cfg := { prov.cfg with
      subnets :=
        match prov.cfg.subnets with
        | subnet :: others => change subnet :: others
        | [] => [] } }

/-- Two writes in a row, where the first error ends the function. -/
def writeBoth (clock : Bool → SaveClock) (first second : ProvWrite) (prov : ProvState) :
    Except Abort (Bool × ProvState) := do
  let (fine, prov) ← prov.write (clock false) first
  if fine then prov.write (clock true) second else .ok (false, prov)

end ProvState

/-- The network key under its new id. -/
def Subnet.nameNetkey (id : UInt16) (subnet : Subnet) : Subnet :=
  { subnet with netkey := { subnet.netkey with id := id, done := 1 } }

/-- An application key under its new id. -/
def Subnet.nameAppkey (index : Nat) (id : UInt16) (subnet : Subnet) : Subnet :=
  { subnet with
    appkey := subnet.appkey.modify index fun key => { key with id := id, done := 1 } }

/-- `new_netkey`: a key that is marked as created is left alone, whatever the NCP has. -/
def newNetkey (clock : Bool → SaveClock) (rsp : CreateRsp) (prov : ProvState) :
    Except Abort (Bool × ProvState) := do
  let subnet ← prov.subnet
  if subnet.netkey.done ≠ 0 then .ok (true, prov)
  else if rsp.Created then
    (prov.assign (·.nameNetkey rsp.index)).writeBoth clock (.netkeyId rsp.index) (.netkeyDone 1)
  else .ok (false, prov)

/-- The loop of `new_appkeys` from an index on, with the keys counted so far; `none` stands
for an error. -/
def newAppkeysFrom (clock : Nat → Bool → SaveClock) (rsp : Nat → CreateRsp) :
    Nat → Nat → Nat → ProvState → Except Abort (Option Nat × ProvState)
  | 0, _, count, prov => .ok (some count, prov)
  | left + 1, index, count, prov => do
      let subnet ← prov.subnet
      match subnet.appkey[index]? with
      | none => .error .outOfBounds
      | some appkey =>
          if appkey.done ≠ 0 then newAppkeysFrom clock rsp left (index + 1) (count + 1) prov
          else if (rsp index).Created then do
            let (fine, prov) ←
              (prov.assign (·.nameAppkey index (rsp index).index)).writeBoth (clock index)
                (.appkeyId appkey.refid (rsp index).index) (.appkeyDone appkey.refid 1)
            if fine then newAppkeysFrom clock rsp left (index + 1) (count + 1) prov
            else .ok (none, prov)
          else newAppkeysFrom clock rsp left (index + 1) count prov

/-- `new_appkeys`: keys that cannot be created are passed over, and the number of the others is
kept. -/
def newAppkeys (clock : Nat → Bool → SaveClock) (rsp : Nat → CreateRsp) (prov : ProvState) :
    Except Abort (Bool × ProvState) := do
  let subnet ← prov.subnet
  if subnet.netkey.done = 0 then .ok (false, prov)
  else do
    let (counted, prov) ← newAppkeysFrom clock rsp subnet.appkeyNum.toNat 0 0 prov
    match counted with
    | none => .ok (false, prov)
    | some count =>
        .ok (true, prov.assign fun subnet =>
          { subnet with activeAppkeyNum := UInt8.ofNat count })

/-- What the NCP reports when it is initialized, its responses, and the clock of each
save. -/
structure InitInput where
  networks : UInt8
  address : UInt16
  ivi : UInt32
  created : UInt16
  netkey : CreateRsp
  appkey : Nat → CreateRsp
  eventClock : Bool → SaveClock
  netkeyClock : Bool → SaveClock
  appkeyClock : Nat → Bool → SaveClock

/-- The address of the network, where the NCP has another. -/
def adoptAddr (clock : SaveClock) (addr : UInt16) (prov : ProvState) :
    Except Abort (Bool × ProvState) :=
  if addr ≠ prov.cfg.addr then
    let adopted : ProvState := { prov with cfg := { prov.cfg with addr := addr } }
    adopted.write clock (.addr addr)
  else .ok (true, prov)

/-- The IV index of the network, where the NCP has another. -/
def adoptIvi (clock : SaveClock) (ivi : UInt32) (prov : ProvState) :
    Except Abort (Bool × ProvState) :=
  if ivi ≠ prov.cfg.ivi then
    let adopted : ProvState := { prov with cfg := { prov.cfg with ivi := ivi } }
    adopted.write clock (.ivi ivi)
  else .ok (true, prov)

/-- The part of `on_initialized_config` before the keys are created. -/
def checkNetwork (input : InitInput) (prov : ProvState) : Except Abort (Bool × ProvState) :=
  if input.networks = 0 then
    if prov.cfg.addr ≠ 0 ∨ prov.cfg.ivi ≠ 0 then
      .ok (input.created = bgErrSuccess ∨ input.created = bgErrMeshAlreadyInitialized,
        prov)
    else .ok (true, prov)
  else
    match prov.cfg.subnets with
    | [] => .ok (false, prov)
    | subnet :: _ =>
        if subnet.netkey.done = 0 then .ok (false, prov)
        else do
          let (fine, prov) ← adoptAddr (input.eventClock false) input.address prov
          if fine then adoptIvi (input.eventClock true) input.ivi prov else .ok (false, prov)

/-- `on_initialized_config`; the commands of `self_config` change nothing here. -/
def onInitializedConfig (input : InitInput) (prov : ProvState) :
    Except Abort (Bool × ProvState) := do
  let (fine, prov) ← checkNetwork input prov
  if fine then
    let (fine, prov) ← newNetkey input.netkeyClock input.netkey prov
    if fine then newAppkeys input.appkeyClock input.appkey prov else .ok (false, prov)
  else .ok (false, prov)

/-- `kr_finish`, as far as the provisioner's file is concerned.  The errors of the writes
are passed over. -/
def krFinishProv (clock : Bool → SaveClock) (key result : UInt16) (rsp : KeyRsp)
    (prov : ProvState) : Except Abort ProvState :=
  if result ≠ 0 then .ok prov
  else do
    let _ ← prov.subnet
    let renamed := prov.assign fun subnet =>
      { subnet with netkey := { subnet.netkey with id := key } }
    let (_, prov) ← renamed.write (clock false) (.netkeyId key)
    if rsp.result ≠ bgErrSuccess then .ok prov
    else do
      let refreshed := prov.assign fun subnet =>
        { subnet with netkey := { subnet.netkey with val := rsp.key } }
      let (_, prov) ← refreshed.write (clock true) (.netkeyVal rsp.key)
      .ok prov

/-!
## Assigning what is written next

The source assigns some fields and writes them afterwards.  Since a write goes by the reference
of a key, an assignment before it is harmless as long as the references differ.
-/

/-- The references of the application keys differ. -/
def ProvCfg.RefidsDistinct (cfg : ProvCfg) : Prop :=
  ∀ subnet ∈ cfg.subnets, (subnet.appkey.map (·.refid)).Nodup

instance (cfg : ProvCfg) : Decidable cfg.RefidsDistinct :=
  inferInstanceAs (Decidable (∀ subnet ∈ cfg.subnets, (subnet.appkey.map (·.refid)).Nodup))

/-- The announced number of application keys and their references, which nothing here
changes. -/
def ProvCfg.refids (cfg : ProvCfg) : List (UInt8 × List UInt16) :=
  cfg.subnets.map fun subnet => (subnet.appkeyNum, subnet.appkey.map (·.refid))

theorem ProvCfg.RefidsDistinct.of_same {before after : ProvCfg}
    (distinct : before.RefidsDistinct) (same : after.refids = before.refids) :
    after.RefidsDistinct := by
  intro subnet member
  have listed : (subnet.appkeyNum, subnet.appkey.map (·.refid)) ∈ after.refids :=
    List.mem_map_of_mem member
  rw [same] at listed
  obtain ⟨other, isOther, pair⟩ := List.mem_map.mp listed
  rw [← (Prod.mk.inj pair).2]
  exact distinct other isOther

/-- A change that keeps the reference keeps all the references. -/
theorem map_refid_modify {change : Meshkey → Meshkey}
    (keeps : ∀ key, (change key).refid = key.refid) (keys : List Meshkey) (index : Nat) :
    (keys.modify index change).map (·.refid) = keys.map (·.refid) := by
  induction keys generalizing index with
  | nil => rw [List.modify_nil]
  | cons key keys hypothesis =>
      cases index with
      | zero => rw [List.modify_zero_cons, List.map_cons, List.map_cons, keeps]
      | succ index =>
          rw [List.modify_succ_cons, List.map_cons, List.map_cons, hypothesis]

/-- The search for a reference looks at the references alone. -/
theorem findIdx?_refid (keys : List Meshkey) (count : Nat) (refid : UInt16) :
    (keys.take count).findIdx? (·.refid == refid) =
      ((keys.map (·.refid)).take count).findIdx? (· == refid) := by
  rw [← List.map_take, List.findIdx?_map]
  rfl

/-- With distinct references a key is found where it stands. -/
theorem findIdx?_of_distinct {keys : List Meshkey} {count index : Nat} {appkey : Meshkey}
    (distinct : (keys.map (·.refid)).Nodup) (inside : index < count)
    (here : keys[index]? = some appkey) :
    (keys.take count).findIdx? (·.refid == appkey.refid) = some index := by
  obtain ⟨bound, isKey⟩ := List.getElem?_eq_some_iff.mp here
  apply List.findIdx?_eq_some_iff_getElem.mpr
  refine ⟨by rw [List.length_take]; omega, ?_, ?_⟩
  · rw [List.getElem_take, isKey]
    exact beq_self_eq_true _
  · intro earlier before
    rw [List.getElem_take, beq_iff_eq]
    intro same
    have sooner : earlier < (keys.map (·.refid)).length := by rw [List.length_map]; omega
    have later : index < (keys.map (·.refid)).length := by rw [List.length_map]; exact bound
    have places : (keys.map (·.refid))[earlier] = (keys.map (·.refid))[index] := by
      rw [List.getElem_map, List.getElem_map, same, isKey]
    have equal := (List.Nodup.getElem_inj_iff distinct).mp places
    omega

theorem refids_provselfSetnetkey {change : Meshkey → Meshkey} {key : String}
    {text : List Char} {cfg cfg' : ProvCfg} {root root' : Value}
    (sets : provselfSetnetkey change key text cfg root = .ok (cfg', root')) :
    cfg'.refids = cfg.refids := by
  unfold provselfSetnetkey at sets
  split at sets
  case h_1 => cases sets
  case h_2 subnet others single =>
    cases sets
    simp only [ProvCfg.refids, single, List.map_cons]

theorem refids_provselfSetappkey {refid : UInt16} {change : Meshkey → Meshkey} {key : String}
    {text : List Char} {cfg cfg' : ProvCfg} {root root' : Value}
    (sets : provselfSetappkey refid change key text cfg root = .ok (cfg', root'))
    (keeps : ∀ key, (change key).refid = key.refid) : cfg'.refids = cfg.refids := by
  unfold provselfSetappkey at sets
  split at sets
  case h_1 => cases sets
  case h_2 subnet others single =>
    split at sets
    case h_1 =>
      cases sets
      rfl
    case h_2 index found =>
      cases sets
      simp only [ProvCfg.refids, single, List.map_cons, map_refid_modify keeps]

theorem ProvWrite.run_refids {write : ProvWrite} {cfg cfg' : ProvCfg} {root root' : Value}
    (runs : write.run cfg root = .ok (cfg', root')) : cfg'.refids = cfg.refids := by
  cases write with
  | addr value =>
      cases runs
      rfl
  | ivi value =>
      cases runs
      rfl
  | netkeyId value =>
      simp only [ProvWrite.run, provselfSetnetkeyid] at runs
      exact refids_provselfSetnetkey runs
  | netkeyVal value =>
      simp only [ProvWrite.run, provselfSetnetkeyval] at runs
      exact refids_provselfSetnetkey runs
  | netkeyDone value =>
      simp only [ProvWrite.run, provselfSetnetkeydone] at runs
      exact refids_provselfSetnetkey runs
  | appkeyId refid value =>
      simp only [ProvWrite.run, provselfSetappkeyid] at runs
      exact refids_provselfSetappkey runs fun _ => rfl
  | appkeyDone refid value =>
      simp only [ProvWrite.run, provselfSetappkeydone] at runs
      exact refids_provselfSetappkey runs fun _ => rfl

/-- The file follows the configuration, whose application keys can be told apart.  An object of a
key is found by its reference, so two keys with one reference could not both be written. -/
structure ProvState.Good (prov : ProvState) : Prop where
  inStep : prov.InStep
  distinct : prov.cfg.RefidsDistinct

namespace ProvState

variable {prov : ProvState}

theorem Good.write (good : prov.Good) (clock : SaveClock) (write : ProvWrite) :
    ∃ after, prov.write clock write = .ok (true, after) ∧ after.Good ∧
      after.cfg.refids = prov.cfg.refids := by
  obtain ⟨after, writes, inStep, changes⟩ := good.inStep.write clock write
  obtain ⟨root, isRoot, _⟩ := good.inStep.holds
  obtain ⟨root', runs⟩ := changes root isRoot
  have same := ProvWrite.run_refids runs
  exact ⟨after, writes, ⟨inStep, good.distinct.of_same same⟩, same⟩

theorem Good.writeBoth (good : prov.Good) (clock : Bool → SaveClock)
    (first second : ProvWrite) :
    ∃ after, prov.writeBoth clock first second = .ok (true, after) ∧ after.Good ∧
      after.cfg.refids = prov.cfg.refids := by
  obtain ⟨middle, writes, goodMiddle, same⟩ := good.write (clock false) first
  obtain ⟨after, writes', goodAfter, same'⟩ := goodMiddle.write (clock true) second
  refine ⟨after, ?_, goodAfter, same'.trans same⟩
  simp only [ProvState.writeBoth, writes, ok_bind, if_true, writes']

/-- The first subnet is there. -/
theorem Good.subnet (good : prov.Good) : ∃ subnet, prov.cfg.subnets = [subnet] ∧
    prov.subnet = .ok subnet ∧ (subnet.appkey.map (·.refid)).Nodup ∧
    subnet.appkeyNum.toNat ≤ subnet.appkey.length := by
  obtain ⟨root, _, _, holds⟩ := good.inStep.holds
  obtain ⟨subnet, primary, others, keys, single, inTree⟩ := holds.subnet
  refine ⟨subnet, single, ?_, ?_, ?_⟩
  · rw [ProvState.subnet, single]
  · apply good.distinct
    rw [single]
    exact List.mem_singleton_self subnet
  · rw [inTree.count, ← inTree.appkey.length_eq, UInt8.toNat_ofNat']
    exact Nat.mod_le _ _

/-- How many application keys are in use is not in the file. -/
theorem Good.assignActive (good : prov.Good) (count : UInt8) :
    (prov.assign fun subnet => { subnet with activeAppkeyNum := count }).Good := by
  obtain ⟨root, isRoot, isFile, holds⟩ := good.inStep.holds
  obtain ⟨subnet, primary, others, keys, single, inTree⟩ := holds.subnet
  have assigned : (prov.assign fun subnet => { subnet with activeAppkeyNum := count }).cfg =
      { prov.cfg with subnets := [{ subnet with activeAppkeyNum := count }] } := by
    simp only [assign, single]
  refine ⟨⟨⟨root, isRoot, isFile, ?_⟩, good.inStep.autoflush⟩, ?_⟩
  · rw [assigned]
    exact ⟨holds.addr, holds.stamp, holds.ivi, holds.ttl, holds.txp, holds.timeout,
      _, primary, others, keys, rfl, inTree.subnets, inTree.appkeys, inTree.count,
      inTree.netkey, inTree.appkey⟩
  · rw [assigned]
    apply good.distinct.of_same
    simp only [ProvCfg.refids, single, List.map_cons, List.map_nil]

/-! A field that is assigned before it is written is written all the same. -/

theorem writeBoth_assign_netkey (good : prov.Good) (clock : Bool → SaveClock) (id : UInt16) :
    (prov.assign (·.nameNetkey id)).writeBoth clock (.netkeyId id) (.netkeyDone 1) =
      prov.writeBoth clock (.netkeyId id) (.netkeyDone 1) := by
  obtain ⟨root, isRoot, _, _⟩ := good.inStep.holds
  obtain ⟨subnet, single, _⟩ := good.subnet
  obtain ⟨⟨addr, ivi, subnets, ttl, txp, timeout⟩, ⟨tree, synctime, autoflush⟩, file⟩ := prov
  cases isRoot
  cases single
  cases good.inStep.autoflush
  rfl

theorem write_assign_netkeyId (good : prov.Good) (clock : SaveClock) (id : UInt16) :
    (prov.assign fun subnet => { subnet with netkey := { subnet.netkey with id := id } }).write
        clock (.netkeyId id) = prov.write clock (.netkeyId id) := by
  obtain ⟨root, isRoot, _, _⟩ := good.inStep.holds
  obtain ⟨subnet, single, _⟩ := good.subnet
  obtain ⟨⟨addr, ivi, subnets, ttl, txp, timeout⟩, ⟨tree, synctime, autoflush⟩, file⟩ := prov
  cases isRoot
  cases single
  rfl

theorem write_assign_netkeyVal (good : prov.Good) (clock : SaveClock)
    (val : Vector UInt8 16) :
    (prov.assign fun subnet =>
        { subnet with netkey := { subnet.netkey with val := val } }).write
        clock (.netkeyVal val) = prov.write clock (.netkeyVal val) := by
  obtain ⟨root, isRoot, _, _⟩ := good.inStep.holds
  obtain ⟨subnet, single, _⟩ := good.subnet
  obtain ⟨⟨addr, ivi, subnets, ttl, txp, timeout⟩, ⟨tree, synctime, autoflush⟩, file⟩ := prov
  cases isRoot
  cases single
  rfl

/-- A change of an application key that was found. -/
theorem setappkey_found {refid : UInt16} {change : Meshkey → Meshkey} {key : String}
    {text : List Char} {cfg : ProvCfg} {root : Value} {subnet : Subnet} {index : Nat}
    (single : cfg.subnets = [subnet])
    (found : (subnet.appkey.take subnet.appkeyNum.toNat).findIdx? (·.refid == refid) =
      some index) :
    provselfSetappkey refid change key text cfg root =
      .ok ({ cfg with
          subnets := [{ subnet with appkey := subnet.appkey.modify index change }] },
        root.amend (appkeyPath index) (kvReplace key text)) := by
  simp only [provselfSetappkey, single, found]

/-- The key stays where it is found when it gets another id. -/
theorem findIdx?_modify {keys : List Meshkey} {count index place : Nat} {refid : UInt16}
    {change : Meshkey → Meshkey} (keeps : ∀ key, (change key).refid = key.refid)
    (found : (keys.take count).findIdx? (·.refid == refid) = some index) :
    ((keys.modify place change).take count).findIdx? (·.refid == refid) = some index := by
  rw [findIdx?_refid, map_refid_modify keeps, ← findIdx?_refid]
  exact found

/-- The state after a configuration and a tree were saved. -/
def savedAs (cfg : ProvCfg) (root : Value) (clock : SaveClock) : ProvState :=
  let stamped := kvReplace strSyncTime (uint32ToStr (UInt32.ofNat clock.time)) root
  { cfg := cfg
    json := { root := some stamped, synctime := UInt32.ofNat clock.time, autoflush := true }
    file := { content := some stamped, mtime := clock.mtime } }

theorem write_savedAs {write : ProvWrite} {cfg' : ProvCfg} {root root' : Value}
    (isRoot : prov.json.root = some root) (autoflush : prov.json.autoflush = true)
    (runs : write.run prov.cfg root = .ok (cfg', root')) (clock : SaveClock) :
    prov.write clock write = .ok (true, savedAs cfg' root' clock) := by
  obtain ⟨cfg, ⟨tree, synctime, autoflush⟩, file⟩ := prov
  cases isRoot
  cases autoflush
  simp only at runs
  simp only [ProvState.write, runs, ok_bind, if_true]
  rfl

/-- Both writes of an application key, where it is found. -/
theorem writeBoth_appkey {subnet : Subnet} {root : Value} {index : Nat} {refid : UInt16}
    (single : prov.cfg.subnets = [subnet]) (isRoot : prov.json.root = some root)
    (autoflush : prov.json.autoflush = true)
    (found : (subnet.appkey.take subnet.appkeyNum.toNat).findIdx? (·.refid == refid) =
      some index) (clock : Bool → SaveClock) (id : UInt16) :
    prov.writeBoth clock (.appkeyId refid id) (.appkeyDone refid 1) =
      .ok (true, savedAs { prov.cfg with subnets := [subnet.nameAppkey index id] }
        ((kvReplace strSyncTime (uint32ToStr (UInt32.ofNat (clock false).time))
          (root.amend (appkeyPath index) (kvReplace strId (uint16ToStr id)))).amend
          (appkeyPath index) (kvReplace strDone (uint8ToStr 1))) (clock true)) := by
  let renamed : Subnet :=
    { subnet with appkey := subnet.appkey.modify index fun key => { key with id := id } }
  let cfg' : ProvCfg := { prov.cfg with subnets := [renamed] }
  let root' := root.amend (appkeyPath index) (kvReplace strId (uint16ToStr id))
  have first : (ProvWrite.appkeyId refid id).run prov.cfg root = .ok (cfg', root') :=
    setappkey_found single found
  have middle := write_savedAs isRoot autoflush first (clock false)
  have moved : (renamed.appkey.take renamed.appkeyNum.toNat).findIdx? (·.refid == refid) =
      some index := findIdx?_modify (fun _ => rfl) found
  have second := @setappkey_found refid (fun key => { key with done := 1 }) strDone
    (uint8ToStr 1) cfg' (kvReplace strSyncTime
      (uint32ToStr (UInt32.ofNat (clock false).time)) root') renamed index rfl moved
  have after := @write_savedAs (savedAs cfg' root' (clock false)) (.appkeyDone refid 1) _ _ _
    rfl rfl second (clock true)
  have twice : renamed.appkey.modify index (fun key => { key with done := 1 }) =
      (subnet.nameAppkey index id).appkey := by
    simp only [renamed, Subnet.nameAppkey, List.modify_modify_eq]
    rfl
  simp only [ProvState.writeBoth, middle, ok_bind, if_true, after, twice]
  rfl

/-- The fields of an application key that are assigned before they are written. -/
theorem writeBoth_assign_appkey (good : prov.Good) {subnet : Subnet}
    (single : prov.cfg.subnets = [subnet]) (clock : Bool → SaveClock) {index : Nat}
    {refid : UInt16} (id : UInt16)
    (found : (subnet.appkey.take subnet.appkeyNum.toNat).findIdx? (·.refid == refid) =
      some index) :
    (prov.assign (·.nameAppkey index id)).writeBoth clock (.appkeyId refid id)
        (.appkeyDone refid 1) =
      prov.writeBoth clock (.appkeyId refid id) (.appkeyDone refid 1) := by
  obtain ⟨root, isRoot, _, _⟩ := good.inStep.holds
  have autoflush := good.inStep.autoflush
  have assigned : (prov.assign (·.nameAppkey index id)).cfg.subnets =
      [subnet.nameAppkey index id] := by
    simp only [assign, single]
  have found' : ((subnet.nameAppkey index id).appkey.take
      (subnet.nameAppkey index id).appkeyNum.toNat).findIdx? (·.refid == refid) =
      some index := findIdx?_modify (fun _ => rfl) found
  have again : (subnet.nameAppkey index id).nameAppkey index id =
      subnet.nameAppkey index id := by
    simp only [Subnet.nameAppkey, List.modify_modify_eq]
    rfl
  rw [writeBoth_appkey single isRoot autoflush found,
    writeBoth_appkey assigned isRoot autoflush found', again]
  rfl

/-!
## Each function keeps the file in step

The file holds the configuration after every function that returns, whether it succeeded or not:
what was written was also saved.
-/

theorem Good.newNetkey (good : prov.Good) (clock : Bool → SaveClock) (rsp : CreateRsp) :
    ∃ fine after, newNetkey clock rsp prov = .ok (fine, after) ∧ after.Good := by
  obtain ⟨subnet, single, isSubnet, _⟩ := good.subnet
  simp only [Nwmng.newNetkey, isSubnet, ok_bind]
  split
  · exact ⟨true, prov, rfl, good⟩
  · split
    · rw [writeBoth_assign_netkey good]
      obtain ⟨after, writes, goodAfter, _⟩ :=
        good.writeBoth clock (.netkeyId rsp.index) (.netkeyDone 1)
      exact ⟨true, after, writes, goodAfter⟩
    · exact ⟨false, prov, rfl, good⟩

/-- The announced number of application keys is as before. -/
theorem appkeyNum_of_refids {before after : ProvCfg} {subnet subnet' : Subnet}
    (single : before.subnets = [subnet]) (single' : after.subnets = [subnet'])
    (same : after.refids = before.refids) : subnet'.appkeyNum = subnet.appkeyNum := by
  simp only [ProvCfg.refids, single, single', List.map_cons, List.map_nil, List.cons.injEq,
    Prod.mk.injEq, and_true] at same
  exact same.1

/-- By induction on the keys that are left, which stay within the array. -/
theorem Good.newAppkeysFrom (clock : Nat → Bool → SaveClock) (rsp : Nat → CreateRsp)
    (left : Nat) : ∀ {prov : ProvState} (_ : prov.Good) (index count : Nat)
      (_ : ∀ subnet, prov.cfg.subnets = [subnet] → index + left ≤ subnet.appkeyNum.toNat),
    ∃ counted after, newAppkeysFrom clock rsp left index count prov = .ok (counted, after) ∧
      after.Good := by
  induction left with
  | zero =>
      intro prov good index count _
      exact ⟨some count, prov, rfl, good⟩
  | succ left hypothesis =>
      intro prov good index count bounded
      obtain ⟨subnet, single, isSubnet, distinct, room⟩ := good.subnet
      have inside := bounded subnet single
      have next : ∀ subnet', prov.cfg.subnets = [subnet'] →
          index + 1 + left ≤ subnet'.appkeyNum.toNat := by
        intro subnet' single'
        have bound := bounded subnet' single'
        omega
      have present : index < subnet.appkey.length := by omega
      have here : subnet.appkey[index]? = some subnet.appkey[index] :=
        List.getElem?_eq_getElem present
      simp only [Nwmng.newAppkeysFrom, isSubnet, ok_bind, here]
      split
      · exact hypothesis good (index + 1) (count + 1) next
      · split
        · have found : (subnet.appkey.take subnet.appkeyNum.toNat).findIdx?
              (·.refid == subnet.appkey[index].refid) = some index :=
            findIdx?_of_distinct distinct (by omega) here
          obtain ⟨after, writes, goodAfter, same⟩ := good.writeBoth (clock index)
            (.appkeyId subnet.appkey[index].refid (rsp index).index)
            (.appkeyDone subnet.appkey[index].refid 1)
          rw [writeBoth_assign_appkey good single (clock index) (rsp index).index found]
          simp only [writes, ok_bind, if_true]
          apply hypothesis goodAfter (index + 1) (count + 1)
          intro subnet' single'
          rw [appkeyNum_of_refids single single' same]
          omega
        · exact hypothesis good (index + 1) count next

theorem Good.newAppkeys (good : prov.Good) (clock : Nat → Bool → SaveClock)
    (rsp : Nat → CreateRsp) :
    ∃ fine after, newAppkeys clock rsp prov = .ok (fine, after) ∧ after.Good := by
  obtain ⟨subnet, single, isSubnet, _⟩ := good.subnet
  have bounded : ∀ subnet', prov.cfg.subnets = [subnet'] →
      0 + subnet.appkeyNum.toNat ≤ subnet'.appkeyNum.toNat := by
    intro subnet' single'
    rw [single] at single'
    cases single'
    omega
  obtain ⟨counted, after, loops, goodAfter⟩ :=
    Good.newAppkeysFrom clock rsp subnet.appkeyNum.toNat good 0 0 bounded
  simp only [Nwmng.newAppkeys, isSubnet, ok_bind]
  split
  · exact ⟨false, prov, rfl, good⟩
  · simp only [loops, ok_bind]
    cases counted with
    | none => exact ⟨false, after, rfl, goodAfter⟩
    | some count => exact ⟨true, _, rfl, goodAfter.assignActive (UInt8.ofNat count)⟩

theorem Good.adoptAddr (good : prov.Good) (clock : SaveClock) (addr : UInt16) :
    ∃ after, adoptAddr clock addr prov = .ok (true, after) ∧ after.Good := by
  unfold Nwmng.adoptAddr
  split
  · obtain ⟨after, writes, goodAfter, _⟩ := good.write clock (.addr addr)
    have same : ({ prov with cfg := { prov.cfg with addr := addr } } : ProvState).write clock
        (.addr addr) = prov.write clock (.addr addr) := by
      obtain ⟨root, isRoot, _⟩ := good.inStep.holds
      simp only [ProvState.write, isRoot]
      rfl
    exact ⟨after, same.trans writes, goodAfter⟩
  · exact ⟨prov, rfl, good⟩

theorem Good.adoptIvi (good : prov.Good) (clock : SaveClock) (ivi : UInt32) :
    ∃ after, adoptIvi clock ivi prov = .ok (true, after) ∧ after.Good := by
  unfold Nwmng.adoptIvi
  split
  · obtain ⟨after, writes, goodAfter, _⟩ := good.write clock (.ivi ivi)
    have same : ({ prov with cfg := { prov.cfg with ivi := ivi } } : ProvState).write clock
        (.ivi ivi) = prov.write clock (.ivi ivi) := by
      obtain ⟨root, isRoot, _⟩ := good.inStep.holds
      simp only [ProvState.write, isRoot]
      rfl
    exact ⟨after, same.trans writes, goodAfter⟩
  · exact ⟨prov, rfl, good⟩

theorem Good.checkNetwork (good : prov.Good) (input : InitInput) :
    ∃ fine after, checkNetwork input prov = .ok (fine, after) ∧ after.Good := by
  obtain ⟨subnet, single, _⟩ := good.subnet
  unfold Nwmng.checkNetwork
  split
  · split
    · exact ⟨_, prov, rfl, good⟩
    · exact ⟨true, prov, rfl, good⟩
  · simp only [single]
    split
    · exact ⟨false, prov, rfl, good⟩
    · obtain ⟨middle, adopts, goodMiddle⟩ :=
        good.adoptAddr (input.eventClock false) input.address
      obtain ⟨after, adopts', goodAfter⟩ :=
        goodMiddle.adoptIvi (input.eventClock true) input.ivi
      simp only [adopts, ok_bind, if_true]
      exact ⟨true, after, adopts', goodAfter⟩

theorem Good.onInitializedConfig (good : prov.Good) (input : InitInput) :
    ∃ fine after, onInitializedConfig input prov = .ok (fine, after) ∧ after.Good := by
  obtain ⟨fine, checked, checks, goodChecked⟩ := good.checkNetwork input
  simp only [Nwmng.onInitializedConfig, checks, ok_bind]
  cases fine with
  | false => exact ⟨false, checked, rfl, goodChecked⟩
  | true =>
      obtain ⟨fine, named, names, goodNamed⟩ :=
        goodChecked.newNetkey input.netkeyClock input.netkey
      simp only [names, ok_bind, if_true]
      cases fine with
      | false => exact ⟨false, named, rfl, goodNamed⟩
      | true => exact goodNamed.newAppkeys input.appkeyClock input.appkey

theorem Good.krFinishProv (good : prov.Good) (clock : Bool → SaveClock) (key result : UInt16)
    (rsp : KeyRsp) :
    ∃ after, krFinishProv clock key result rsp prov = .ok after ∧ after.Good := by
  obtain ⟨subnet, single, isSubnet, _⟩ := good.subnet
  unfold Nwmng.krFinishProv
  split
  · exact ⟨prov, rfl, good⟩
  · obtain ⟨named, names, goodNamed, _⟩ := good.write (clock false) (.netkeyId key)
    simp only [isSubnet, ok_bind, write_assign_netkeyId good, names]
    split
    · exact ⟨named, rfl, goodNamed⟩
    · obtain ⟨after, writes, goodAfter, _⟩ := goodNamed.write (clock true) (.netkeyVal rsp.key)
      simp only [write_assign_netkeyVal goodNamed, writes, ok_bind]
      exact ⟨after, rfl, goodAfter⟩

end ProvState

/-! ## Runs -/

/-- What changes the provisioner's configuration: the functions that do so, and any single
write. -/
inductive ProvCall where
  | write (clock : SaveClock) (field : ProvWrite)
  | initialized (input : InitInput)
  | keyRefreshed (clock : Bool → SaveClock) (key result : UInt16) (rsp : KeyRsp)

def ProvCall.run (prov : ProvState) : ProvCall → Except Abort ProvState
  | .write clock field => do
      let (_, prov) ← prov.write clock field
      .ok prov
  | .initialized input => do
      let (_, prov) ← onInitializedConfig input prov
      .ok prov
  | .keyRefreshed clock key result rsp => krFinishProv clock key result rsp prov

def runCalls (calls : List ProvCall) (prov : ProvState) : Except Abort ProvState :=
  calls.foldlM ProvCall.run prov

/-- A write of the network key, as the configuration sees it. -/
theorem ProvState.Good.setNetkey {prov : ProvState} (good : prov.Good) {subnet : Subnet}
    (single : prov.cfg.subnets = [subnet]) {clock : SaveClock} {field : ProvWrite}
    {change : Meshkey → Meshkey} {key : String} {text : List Char}
    (isNetkey : ∀ cfg root, field.run cfg root = provselfSetnetkey change key text cfg root) :
    ∃ after, prov.write clock field = .ok (true, after) ∧ after.Good ∧
      after.cfg = { prov.cfg with
        subnets := [{ subnet with netkey := change subnet.netkey }] } := by
  obtain ⟨root, isRoot, _⟩ := good.inStep.holds
  obtain ⟨after, writes, goodAfter, _⟩ := good.write clock field
  have runs : field.run prov.cfg root =
      .ok ({ prov.cfg with subnets := [{ subnet with netkey := change subnet.netkey }] },
        root.amend netkeyPath (kvReplace key text)) := by
    rw [isNetkey, provselfSetnetkey, single]
  have saved := write_savedAs isRoot good.inStep.autoflush runs clock
  rw [saved] at writes
  cases writes
  exact ⟨_, saved, goodAfter, rfl⟩

/-- A key refresh leaves the configuration that the manager works with. -/
theorem krFinishProv_cfg {prov after : ProvState} {mng mng' : Mng} (good : prov.Good)
    (same : mng.cfg = prov.cfg) {clock : Bool → SaveClock} {key result : UInt16} {rsp : KeyRsp}
    (saves : krFinishProv clock key result rsp prov = .ok after)
    (finishes : krFinish key result rsp mng = .ok mng') : mng'.cfg = after.cfg := by
  obtain ⟨subnet, single, isSubnet, _⟩ := good.subnet
  have single' : ((mng.setBlState .done).remember (.completed result)).cfg.subnets =
      [subnet] := by
    rw [← single, ← same]
    rfl
  unfold krFinish at finishes
  unfold krFinishProv at saves
  by_cases failed : result ≠ 0
  · rw [if_pos failed] at finishes saves
    cases finishes
    cases saves
    exact same
  · simp only [if_neg failed, single', Except.ok.injEq] at finishes
    simp only [if_neg failed, isSubnet, ok_bind,
      ProvState.write_assign_netkeyId good] at saves
    obtain ⟨named, names, goodNamed, isNamed⟩ :=
      @ProvState.Good.setNetkey prov good subnet single (clock false) (.netkeyId key)
        (fun netkey => { netkey with id := key }) strId (uint16ToStr key) fun _ _ => rfl
    simp only [names, ok_bind] at saves
    subst finishes
    by_cases unread : rsp.result ≠ bgErrSuccess
    · rw [if_pos unread] at saves
      cases saves
      rw [isNamed, ← same]
      simp only [Mng.setCfg, Mng.cfg, if_pos unread]
      rfl
    · obtain ⟨refreshed, writes, _, isRefreshed⟩ :=
        @ProvState.Good.setNetkey named goodNamed _ (by rw [isNamed]) (clock true)
          (.netkeyVal rsp.key) (fun netkey => { netkey with val := rsp.key }) strValue
          (cbuf2str rsp.key) fun _ _ => rfl
      simp only [if_neg unread, ProvState.write_assign_netkeyVal goodNamed, writes,
        ok_bind, Except.ok.injEq] at saves
      subst saves
      rw [isRefreshed, isNamed, ← same]
      simp only [Mng.setCfg, Mng.cfg, if_neg unread]
      rfl

theorem ProvState.Good.call {prov : ProvState} (good : prov.Good) (call : ProvCall) :
    ∃ after, call.run prov = .ok after ∧ after.Good := by
  cases call with
  | write clock field =>
      obtain ⟨after, writes, goodAfter, _⟩ := good.write clock field
      exact ⟨after, by simp only [ProvCall.run, writes, ok_bind], goodAfter⟩
  | initialized input =>
      obtain ⟨fine, after, runs, goodAfter⟩ := good.onInitializedConfig input
      exact ⟨after, by simp only [ProvCall.run, runs, ok_bind], goodAfter⟩
  | keyRefreshed clock key result rsp => exact good.krFinishProv clock key result rsp

theorem ProvState.Good.runCalls {prov : ProvState} (good : prov.Good)
    (calls : List ProvCall) : ∃ after, runCalls calls prov = .ok after ∧ after.Good := by
  induction calls generalizing prov with
  | nil => exact ⟨prov, rfl, good⟩
  | cons call calls hypothesis =>
      obtain ⟨middle, runs, goodMiddle⟩ := good.call call
      obtain ⟨after, runs', goodAfter⟩ := hypothesis goodMiddle
      refine ⟨after, ?_, goodAfter⟩
      rw [Nwmng.runCalls, List.foldlM_cons, runs, ok_bind]
      exact runs'

/-- The provisioner's file after a restart: whatever a run has written since the file was loaded,
loading it again gives the address, the IV index, the network key and every application key as
they are in memory.  Both the writes and the load are shown to succeed. -/
theorem prov_file_round_trip {file : SavedFile} {clock : SaveClock} {prov : ProvState}
    (accepted : (ProvState.zeroed file).loadCfgFile clock = .ok (true, prov))
    (distinct : prov.cfg.RefidsDistinct) (calls : List ProvCall) (clock' : SaveClock) :
    ∃ after reloaded, runCalls calls prov = .ok after ∧
      (ProvState.zeroed after.file).loadCfgFile clock' = .ok (true, reloaded) ∧
      reloaded.cfg.addr = after.cfg.addr ∧
      reloaded.cfg.ivi = after.cfg.ivi ∧
      reloaded.cfg.subnets.map (·.netkey) = after.cfg.subnets.map (·.netkey) ∧
      reloaded.cfg.subnets.map (·.appkey) = after.cfg.subnets.map (·.appkey) := by
  have good : prov.Good := ⟨ProvState.inStep_of_loadCfgFile accepted, distinct⟩
  obtain ⟨after, runs, goodAfter⟩ := good.runCalls calls
  obtain ⟨reloaded, loads, saved⟩ := goodAfter.inStep.loadCfgFile clock'
  refine ⟨after, reloaded, runs, loads, ?_, ?_, ?_, ?_⟩
  · rw [saved]
    rfl
  · rw [saved]
    rfl
  · rw [saved, ProvCfg.saved, List.map_map]
    rfl
  · rw [saved, ProvCfg.saved, List.map_map]
    rfl

/-- The file that is saved when there is none is accepted, and its keys differ. -/
def newProvFileLoads (clock : SaveClock) : Bool :=
  match (ProvState.zeroed { content := some newProvFile, mtime := 0 }).loadCfgFile clock with
  | .ok (true, prov) => decide prov.cfg.RefidsDistinct
  | _ => false

theorem loads_of_newProvFileLoads {clock : SaveClock} (loads : newProvFileLoads clock = true) :
    ∃ prov, (ProvState.zeroed { content := some newProvFile, mtime := 0 }).loadCfgFile clock =
      .ok (true, prov) ∧ prov.cfg.RefidsDistinct := by
  unfold newProvFileLoads at loads
  split at loads
  case h_1 prov opens => exact ⟨prov, opens, of_decide_eq_true loads⟩
  case h_2 => cases loads

theorem prov_file_round_trip_new :
    ∃ prov after reloaded,
      (ProvState.zeroed { content := some newProvFile, mtime := 0 }).loadCfgFile ⟨1, 1⟩ =
        .ok (true, prov) ∧
      runCalls [.keyRefreshed (fun _ => ⟨2, 2⟩) 7 0 ⟨0, Vector.replicate 16 0xA5⟩,
        .write ⟨3, 3⟩ (.appkeyDone 0 1)] prov = .ok after ∧
      (ProvState.zeroed after.file).loadCfgFile ⟨4, 4⟩ = .ok (true, reloaded) ∧
      reloaded.cfg.subnets.map (·.netkey) = after.cfg.subnets.map (·.netkey) ∧
      reloaded.cfg.subnets.map (·.appkey) = after.cfg.subnets.map (·.appkey) := by
  obtain ⟨prov, opens, distinct⟩ :=
    loads_of_newProvFileLoads (show newProvFileLoads ⟨1, 1⟩ = true by decide +kernel)
  obtain ⟨after, reloaded, runs, loads, _, _, netkey, appkey⟩ :=
    prov_file_round_trip opens distinct
      [.keyRefreshed (fun _ => ⟨2, 2⟩) 7 0 ⟨0, Vector.replicate 16 0xA5⟩,
        .write ⟨3, 3⟩ (.appkeyDone 0 1)] ⟨4, 4⟩
  exact ⟨prov, after, reloaded, opens, runs, loads, netkey, appkey⟩

end Nwmng
