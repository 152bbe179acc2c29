/-
Module: Nwmng.Cfg.ProvRoundTrip
Purpose: What the provisioner's file has to hold for a configuration to be read back from
it, and that every write keeps it so.
Trusted boundary: none
Main exports:
  KeyHolds, TreeHolds, holds_of_loadProvself, loadProvself_of_holds, TreeHolds.run,
  ProvState.InStep, ProvState.InStep.write
-/
import Mathlib.Data.List.Forall2
import Nwmng.Cfg.ProvFile

namespace Nwmng

open Json Fallible

/-! ## Members of a changed object -/

theorem memberUint_kvReplace {α : Type} {cut : Nat → α} {obj : Value}
    (isObject : obj.isObject = true) (key : String) {text : List Char} {number : Nat}
    (parsed : str2uint text = .ok (some number)) :
    memberUint cut (kvReplace key text obj) key = .ok (some (cut number)) :=
  memberUint_set_self cut key isObject parsed

theorem memberUint_kvReplace_other {α : Type} {cut : Nat → α} {key other : String}
    (different : other ≠ key) (text : List Char) (obj : Value) :
    memberUint cut (kvReplace key text obj) other = memberUint cut obj other :=
  memberUint_set_other different obj (.string text)

theorem memberKey_kvReplace_other {key : String} (different : strValue ≠ key)
    (text : List Char) (buffer : Vector UInt8 16) (obj : Value) :
    memberKey buffer (kvReplace key text obj) = memberKey buffer obj := by
  simp only [memberKey, kvReplace, Value.get_set_other different]

/-- An object is where a number was found. -/
theorem isObject_of_memberUint {α : Type} {cut : Nat → α} {obj : Value} {key : String}
    {result : Option α} (found : memberUint cut obj key = .ok result) :
    obj.isObject = true := by
  unfold memberUint memberText at found
  split at found
  case h_1 value here => exact Value.isObject_of_get here
  case h_2 => cases found

/-! ## Keys -/

/-- The object of a key holds its four fields. -/
structure KeyHolds (obj : Value) (key : Meshkey) : Prop where
  refid : memberUint UInt16.ofNat obj strRefid = .ok (some key.refid)
  id : memberUint UInt16.ofNat obj strId = .ok (some key.id)
  val : memberKey Meshkey.zeroed.val obj = some key.val
  done : memberUint UInt8.ofNat obj strDone = .ok (some key.done)

/-- A key that is loaded over a cleared one is what its object holds. -/
theorem loadKey_zeroed_iff {obj : Value} {key : Meshkey} :
    loadKey obj .zeroed = .ok (some key) ↔ KeyHolds obj key := by
  constructor
  · intro loads
    simp only [loadKey, bind_ok] at loads
    obtain ⟨refid, isRefid, loads⟩ := loads
    cases refid with
    | none => cases loads
    | some refid =>
        simp only [bind_ok] at loads
        obtain ⟨id, isId, loads⟩ := loads
        cases id with
        | none => cases loads
        | some id =>
            cases isVal : memberKey Meshkey.zeroed.val obj with
            | none =>
                rw [isVal] at loads
                cases loads
            | some val =>
                simp only [isVal, bind_ok] at loads
                obtain ⟨done, isDone, loads⟩ := loads
                cases done with
                | none => cases loads
                | some done =>
                    cases loads
                    exact ⟨isRefid, isId, isVal, isDone⟩
  · intro holds
    simp only [loadKey, holds.refid, holds.id, holds.val, holds.done, ok_bind]

/-- The loop over the application keys reads each key from its object. -/
theorem loadKeys_zeroed_iff {items : List Value} {keys : List Meshkey} :
    loadKeys items (List.replicate items.length .zeroed) = .ok (some keys) ↔
      List.Forall₂ KeyHolds items keys := by
  induction items generalizing keys with
  | nil =>
      rw [List.forall₂_nil_left_iff]
      constructor
      · intro loads
        cases loads
        rfl
      · intro empty
        subst empty
        rfl
  | cons item items hypothesis =>
      rw [List.length_cons, List.replicate_succ, loadKeys]
      constructor
      · intro loads
        simp only [bind_ok] at loads
        obtain ⟨first, isFirst, loads⟩ := loads
        cases first with
        | none => cases loads
        | some first =>
            simp only [bind_ok] at loads
            obtain ⟨rest, isRest, loads⟩ := loads
            cases rest with
            | none => cases loads
            | some rest =>
                cases loads
                exact .cons (loadKey_zeroed_iff.mp isFirst) (hypothesis.mp isRest)
      · intro holds
        cases holds with
        | @cons _ first _ rest isFirst isRest =>
            have loadsFirst := loadKey_zeroed_iff.mpr isFirst
            have loadsRest := hypothesis.mpr isRest
            simp only [loadsFirst, loadsRest, ok_bind, Option.map_some]

namespace KeyHolds

variable {obj : Value} {key : Meshkey}

theorem isObject (holds : KeyHolds obj key) : obj.isObject = true :=
  isObject_of_memberUint holds.refid

theorem writeId (holds : KeyHolds obj key) (value : UInt16) :
    KeyHolds (kvReplace strId (uint16ToStr value) obj) { key with id := value } where
  refid := by
    rw [memberUint_kvReplace_other (of_decide_eq_true rfl)]
    exact holds.refid
  id := by
    rw [memberUint_kvReplace holds.isObject strId (str2uint_uint16ToStr value),
      UInt16.ofNat_toNat]
  val := by
    rw [memberKey_kvReplace_other (of_decide_eq_true rfl)]
    exact holds.val
  done := by
    rw [memberUint_kvReplace_other (of_decide_eq_true rfl)]
    exact holds.done

theorem writeVal (holds : KeyHolds obj key) (value : Vector UInt8 16) :
    KeyHolds (kvReplace strValue (cbuf2str value) obj) { key with val := value } where
  refid := by
    rw [memberUint_kvReplace_other (of_decide_eq_true rfl)]
    exact holds.refid
  id := by
    rw [memberUint_kvReplace_other (of_decide_eq_true rfl)]
    exact holds.id
  val := by
    simp only [memberKey, kvReplace, Value.get_set_self holds.isObject, Option.bind_some,
      Value.text_string, str2cbuf_cbuf2str]
  done := by
    rw [memberUint_kvReplace_other (of_decide_eq_true rfl)]
    exact holds.done

theorem writeDone (holds : KeyHolds obj key) (value : UInt8) :
    KeyHolds (kvReplace strDone (uint8ToStr value) obj) { key with done := value } where
  refid := by
    rw [memberUint_kvReplace_other (of_decide_eq_true rfl)]
    exact holds.refid
  id := by
    rw [memberUint_kvReplace_other (of_decide_eq_true rfl)]
    exact holds.id
  val := by
    rw [memberKey_kvReplace_other (of_decide_eq_true rfl)]
    exact holds.val
  done := by
    rw [memberUint_kvReplace holds.isObject strDone (str2uint_uint8ToStr value),
      UInt8.ofNat_toNat]

end KeyHolds

/-!
## The whole tree

`TreeHolds` says of a tree what a load has to find in it for a given configuration.  It is
exactly what a load reads (`holds_of_loadProvself` and `loadProvself_of_holds`), so that a round
trip is the preservation of one relation by the writes.
-/

/-- The time to live that a tree holds. -/
def savedTtl (root : Value) : Except Abort (Option UInt8) :=
  match root.get strTtl with
  | none => .ok none
  | some value => uint8Loader value

/-- The transmission parameters that a tree holds. -/
def savedTxp (root : Value) : Except Abort (Option Txparam) :=
  match root.get strTxp with
  | none => .ok none
  | some value => loadTxparam value .zeroed

/-- The timeouts that a tree holds. -/
def savedTimeout (root : Value) : Except Abort (Option Timeout) :=
  match root.get strTimeout with
  | none => .ok none
  | some value => do
      match ← timeoutMember value strTimeoutNormal Timeout.zeroed.normal with
      | none => .ok none
      | some normal =>
          let lpn ← timeoutMember value strTimeoutLpn Timeout.zeroed.lpn
          .ok (lpn.map fun lpn => { normal := normal, lpn := lpn })

theorem loadProvTtl_eq (root : Value) (cfg : ProvCfg) :
    loadProvTtl root cfg = (savedTtl root >>= fun ttl => .ok { cfg with ttl := ttl }) := by
  unfold loadProvTtl savedTtl
  cases root.get strTtl with
  | none => rfl
  | some value => rfl

theorem loadProvTxp_eq (root : Value) {cfg : ProvCfg} (cleared : cfg.netTxp = none) :
    loadProvTxp root cfg = (savedTxp root >>= fun txp => .ok { cfg with netTxp := txp }) := by
  unfold loadProvTxp savedTxp
  rw [cleared]
  cases root.get strTxp with
  | none => rfl
  | some value => rfl

theorem loadTimeout_eq (root : Value) {cfg : ProvCfg} (cleared : cfg.timeout = none) :
    loadTimeout root cfg =
      (savedTimeout root >>= fun timeout => .ok { cfg with timeout := timeout }) := by
  unfold loadTimeout savedTimeout
  rw [cleared]
  cases root.get strTimeout with
  | none => rfl
  | some value =>
      simp only [Option.getD_none]
      cases timeoutMember value strTimeoutNormal Timeout.zeroed.normal with
      | error abort => rfl
      | ok normal =>
          cases normal with
          | none => rfl
          | some normal =>
              simp only [ok_bind]
              cases timeoutMember value strTimeoutLpn Timeout.zeroed.lpn with
              | error abort => rfl
              | ok lpn => rfl

/-- The first subnet of a tree holds the keys of a subnet.  The count of the keys is a byte, so
it is compared with the length of the array modulo 256. -/
structure SubnetHolds (root : Value) (subnet : Subnet) (primary : Value)
    (others keys : List Value) : Prop where
  subnets : root.get strSubnets = some (.array (primary :: others))
  appkeys : primary.get strAppkey = some (.array keys)
  count : subnet.appkeyNum = UInt8.ofNat keys.length
  netkey : KeyHolds primary subnet.netkey
  appkey : List.Forall₂ KeyHolds keys subnet.appkey

/-- The tree of a provisioner's file holds a configuration.  Every field is compared with what
the loader reads from the tree, so a load returns the configuration. -/
structure TreeHolds (root : Value) (cfg : ProvCfg) : Prop where
  addr : memberUint UInt16.ofNat root strAddr = .ok (some cfg.addr)
  stamp : ∃ stamp, memberUint UInt32.ofNat root strSyncTime = .ok (some stamp)
  ivi : memberUint UInt32.ofNat root strIvi = .ok (some cfg.ivi)
  ttl : savedTtl root = .ok cfg.ttl
  txp : savedTxp root = .ok cfg.netTxp
  timeout : savedTimeout root = .ok cfg.timeout
  subnet : ∃ subnet primary others keys, cfg.subnets = [subnet] ∧
    SubnetHolds root subnet primary others keys

/-- What a load finds of a configuration: how many application keys are in use is counted
anew. -/
def ProvCfg.saved (cfg : ProvCfg) : ProvCfg :=
  { cfg with subnets := cfg.subnets.map fun subnet => { subnet with activeAppkeyNum := 0 } }

/-- A file that is accepted holds what was loaded.  Each loader is inverted once, on the member
that it read. -/
theorem holds_of_loadProvself {root : Value} {cfg : ProvCfg}
    (accepted : loadProvself root .zeroed = .ok (some cfg)) : TreeHolds root cfg := by
  simp only [loadProvself, bind_ok] at accepted
  obtain ⟨addr, isAddr, accepted⟩ := accepted
  cases addr with
  | none => cases accepted
  | some addr =>
      simp only [bind_ok] at accepted
      obtain ⟨stamp, isStamp, accepted⟩ := accepted
      cases stamp with
      | none => cases accepted
      | some stamp =>
          simp only [bind_ok] at accepted
          obtain ⟨ivi, isIvi, accepted⟩ := accepted
          cases ivi with
          | none => cases accepted
          | some ivi =>
              simp only [bind_ok] at accepted
              obtain ⟨withTtl, loadsTtl, withTxp, loadsTxp, withTimeout, loadsTimeout,
                accepted⟩ := accepted
              rw [loadProvTtl_eq, bind_ok] at loadsTtl
              obtain ⟨ttl, isTtl, same⟩ := loadsTtl
              cases same
              rw [loadProvTxp_eq root rfl, bind_ok] at loadsTxp
              obtain ⟨txp, isTxp, same⟩ := loadsTxp
              cases same
              rw [loadTimeout_eq root rfl, bind_ok] at loadsTimeout
              obtain ⟨timeout, isTimeout, same⟩ := loadsTimeout
              cases same
              split at accepted
              case h_1 => cases accepted
              case h_3 => cases accepted
              case h_2 primary others isSubnets =>
                split at accepted
                case h_2 => cases accepted
                case h_1 keys isAppkeys =>
                  simp only [bind_ok, loadSubnet] at accepted
                  obtain ⟨subnet, ⟨netkey, isNetkey, loadsSubnet⟩, accepted⟩ := accepted
                  cases netkey with
                  | none =>
                      cases loadsSubnet
                      cases accepted
                  | some netkey =>
                      simp only [bind_ok] at loadsSubnet
                      obtain ⟨appkey, isAppkey, loadsSubnet⟩ := loadsSubnet
                      cases appkey with
                      | none =>
                          cases loadsSubnet
                          cases accepted
                      | some appkey =>
                          cases loadsSubnet
                          cases accepted
                          refine ⟨isAddr, ⟨stamp, isStamp⟩, isIvi, isTtl, isTxp, isTimeout,
                            _, primary, others, keys, rfl, ?_⟩
                          exact ⟨isSubnets, isAppkeys, rfl, loadKey_zeroed_iff.mp isNetkey,
                            loadKeys_zeroed_iff.mp isAppkey⟩

/-- What a tree holds is loaded from it.  The loaders are run forwards here, from a zeroed
configuration. -/
theorem loadProvself_of_holds {root : Value} {cfg : ProvCfg} (holds : TreeHolds root cfg) :
    loadProvself root .zeroed = .ok (some cfg.saved) := by
  obtain ⟨stamp, isStamp⟩ := holds.stamp
  obtain ⟨subnet, primary, others, keys, single, inTree⟩ := holds.subnet
  have ttl := holds.ttl
  have txp := holds.txp
  have timeout := holds.timeout
  have netkey := loadKey_zeroed_iff.mpr inTree.netkey
  have appkey := loadKeys_zeroed_iff.mpr inTree.appkey
  have loadsSubnet : loadSubnet primary keys (.zeroed keys.length) =
      .ok (some { subnet with activeAppkeyNum := 0 }) := by
    simp only [loadSubnet, Subnet.zeroed, netkey, appkey, ok_bind, inTree.count]
  simp only [loadProvself, holds.addr, isStamp, holds.ivi, ok_bind]
  rw [loadProvTtl_eq, ttl]
  simp only [ok_bind]
  rw [loadProvTxp_eq root rfl, txp]
  simp only [ok_bind]
  rw [loadTimeout_eq root rfl, timeout]
  simp only [ok_bind, inTree.subnets, inTree.appkeys, ProvCfg.zeroed, allocSubnet,
    loadsSubnet, ProvCfg.saved, single]
  rfl

namespace TreeHolds

variable {root : Value} {cfg : ProvCfg}

theorem isObject (holds : TreeHolds root cfg) : root.isObject = true :=
  isObject_of_memberUint holds.addr

/-- Changing a member that is none of the settings changes none of them. -/
theorem settings_set (holds : TreeHolds root cfg) (key : String) (value : Value)
    (ttl : strTtl ≠ key) (txp : strTxp ≠ key) (timeout : strTimeout ≠ key) :
    savedTtl (root.set key value) = .ok cfg.ttl ∧
      savedTxp (root.set key value) = .ok cfg.netTxp ∧
      savedTimeout (root.set key value) = .ok cfg.timeout := by
  have sameTtl := holds.ttl
  have sameTxp := holds.txp
  have sameTimeout := holds.timeout
  unfold savedTtl at sameTtl ⊢
  unfold savedTxp at sameTxp ⊢
  unfold savedTimeout at sameTimeout ⊢
  rw [Value.get_set_other ttl, Value.get_set_other txp, Value.get_set_other timeout]
  exact ⟨sameTtl, sameTxp, sameTimeout⟩

/-- Changing a member of the root that is not the array of subnets. -/
theorem subnet_set (holds : TreeHolds root cfg) {key : String} (value : Value)
    (subnets : strSubnets ≠ key) :
    ∃ subnet primary others keys, cfg.subnets = [subnet] ∧
      SubnetHolds (root.set key value) subnet primary others keys := by
  obtain ⟨subnet, primary, others, keys, single, inTree⟩ := holds.subnet
  refine ⟨subnet, primary, others, keys, single, ?_⟩
  have same : (root.set key value).get strSubnets = some (.array (primary :: others)) := by
    rw [Value.get_set_other subnets]
    exact inTree.subnets
  exact ⟨same, inTree.appkeys, inTree.count, inTree.netkey, inTree.appkey⟩

theorem writeAddr (holds : TreeHolds root cfg) (value : UInt16) :
    TreeHolds (kvReplace strAddr (uint16ToStr value) root) { cfg with addr := value } := by
  obtain ⟨ttl, txp, timeout⟩ := holds.settings_set strAddr
    (.string (uint16ToStr value)) (of_decide_eq_true rfl) (of_decide_eq_true rfl)
    (of_decide_eq_true rfl)
  obtain ⟨stamp, isStamp⟩ := holds.stamp
  refine ⟨?_, ⟨stamp, ?_⟩, ?_, ttl, txp, timeout,
    holds.subnet_set _ (of_decide_eq_true rfl)⟩
  · rw [memberUint_kvReplace holds.isObject strAddr (str2uint_uint16ToStr value),
      UInt16.ofNat_toNat]
  · rw [memberUint_kvReplace_other (of_decide_eq_true rfl)]
    exact isStamp
  · rw [memberUint_kvReplace_other (of_decide_eq_true rfl)]
    exact holds.ivi

theorem writeIvi (holds : TreeHolds root cfg) (value : UInt32) :
    TreeHolds (kvReplace strIvi (uint32ToStr value) root) { cfg with ivi := value } := by
  obtain ⟨ttl, txp, timeout⟩ := holds.settings_set strIvi
    (.string (uint32ToStr value)) (of_decide_eq_true rfl) (of_decide_eq_true rfl)
    (of_decide_eq_true rfl)
  obtain ⟨stamp, isStamp⟩ := holds.stamp
  refine ⟨?_, ⟨stamp, ?_⟩, ?_, ttl, txp, timeout,
    holds.subnet_set _ (of_decide_eq_true rfl)⟩
  · rw [memberUint_kvReplace_other (of_decide_eq_true rfl)]
    exact holds.addr
  · rw [memberUint_kvReplace_other (of_decide_eq_true rfl)]
    exact isStamp
  · rw [memberUint_kvReplace holds.isObject strIvi (str2uint_uint32ToStr value),
      UInt32.ofNat_toNat]

theorem writeStamp (holds : TreeHolds root cfg) (value : UInt32) :
    TreeHolds (kvReplace strSyncTime (uint32ToStr value) root) cfg := by
  obtain ⟨ttl, txp, timeout⟩ := holds.settings_set strSyncTime
    (.string (uint32ToStr value)) (of_decide_eq_true rfl) (of_decide_eq_true rfl)
    (of_decide_eq_true rfl)
  refine ⟨?_, ⟨value, ?_⟩, ?_, ttl, txp, timeout,
    holds.subnet_set _ (of_decide_eq_true rfl)⟩
  · rw [memberUint_kvReplace_other (of_decide_eq_true rfl)]
    exact holds.addr
  · rw [memberUint_kvReplace holds.isObject strSyncTime (str2uint_uint32ToStr value),
      UInt32.ofNat_toNat]
  · rw [memberUint_kvReplace_other (of_decide_eq_true rfl)]
    exact holds.ivi

/-- Replacing the first subnet by one that holds other keys. -/
theorem writeSubnet (holds : TreeHolds root cfg) {subnet : Subnet} {primary : Value}
    {others keys : List Value} (appkeys : primary.get strAppkey = some (.array keys))
    (count : subnet.appkeyNum = UInt8.ofNat keys.length)
    (netkey : KeyHolds primary subnet.netkey)
    (appkey : List.Forall₂ KeyHolds keys subnet.appkey) :
    TreeHolds (root.set strSubnets (.array (primary :: others)))
      { cfg with subnets := [subnet] } := by
  obtain ⟨ttl, txp, timeout⟩ := holds.settings_set strSubnets
    (.array (primary :: others)) (of_decide_eq_true rfl) (of_decide_eq_true rfl)
    (of_decide_eq_true rfl)
  obtain ⟨stamp, isStamp⟩ := holds.stamp
  refine ⟨?_, ⟨stamp, ?_⟩, ?_, ttl, txp, timeout, subnet, primary, others, keys, rfl, ?_⟩
  · rw [memberUint_set_other (of_decide_eq_true rfl)]
    exact holds.addr
  · rw [memberUint_set_other (of_decide_eq_true rfl)]
    exact isStamp
  · rw [memberUint_set_other (of_decide_eq_true rfl)]
    exact holds.ivi
  · exact ⟨Value.get_set_self holds.isObject strSubnets _, appkeys, count, netkey, appkey⟩

end TreeHolds

/-! ## Changes of the keys in the tree -/

/-- Changing the object of the network key. -/
theorem amend_netkey {root primary : Value} {others : List Value}
    (subnets : root.get strSubnets = some (.array (primary :: others)))
    (change : Value → Value) :
    root.amend netkeyPath change = root.set strSubnets (.array (change primary :: others)) := by
  simp only [netkeyPath, Value.amend, Value.child, subnets, List.getElem?_cons_zero,
    Value.putChild, List.set_cons_zero]

/-- Changing the object of an application key. -/
theorem amend_appkey {root primary : Value} {others keys : List Value}
    (subnets : root.get strSubnets = some (.array (primary :: others)))
    (appkeys : primary.get strAppkey = some (.array keys)) {index : Nat} {item : Value}
    (here : keys[index]? = some item) (change : Value → Value) :
    root.amend (appkeyPath index) change =
      root.set strSubnets
        (.array (primary.set strAppkey (.array (keys.modify index change)) :: others)) := by
  have same : keys.modify index change = keys.set index (change item) := by
    apply List.ext_getElem?
    intro place
    by_cases here' : index = place
    · subst here'
      rw [List.getElem?_modify_eq, here,
        List.getElem?_set_self (List.getElem?_eq_some_iff.mp here).1]
      rfl
    · simp only [List.getElem?_modify, if_neg here', id_map', List.getElem?_set_ne here']
  simp only [appkeyPath, netkeyPath, List.cons_append, List.nil_append, Value.amend,
    Value.child, subnets, List.getElem?_cons_zero, appkeys, here, Value.putChild,
    List.set_cons_zero, same]

/-- A member of the object of a key that is not the array of application keys. -/
theorem KeyHolds.setAppkey {obj : Value} {key : Meshkey} (holds : KeyHolds obj key)
    (value : Value) : KeyHolds (obj.set strAppkey value) key where
  refid := by
    rw [memberUint_set_other (of_decide_eq_true rfl)]
    exact holds.refid
  id := by
    rw [memberUint_set_other (of_decide_eq_true rfl)]
    exact holds.id
  val := by
    have other : strValue ≠ strAppkey := of_decide_eq_true rfl
    rw [memberKey, Value.get_set_other other]
    exact holds.val
  done := by
    rw [memberUint_set_other (of_decide_eq_true rfl)]
    exact holds.done

/-- What is related place by place stays so when both sides change at one place. -/
theorem forall₂_modify {α β : Type} {related : α → β → Prop} {left : List α} {right : List β}
    (every : List.Forall₂ related left right) {change : α → α} {change' : β → β}
    (keeps : ∀ one two, related one two → related (change one) (change' two)) (index : Nat) :
    List.Forall₂ related (left.modify index change) (right.modify index change') := by
  induction every generalizing index with
  | nil =>
      rw [List.modify_nil, List.modify_nil]
      exact .nil
  | @cons one two left right first rest hypothesis =>
      cases index with
      | zero =>
          rw [List.modify_zero_cons, List.modify_zero_cons]
          exact .cons (keeps one two first) rest
      | succ index =>
          rw [List.modify_succ_cons, List.modify_succ_cons]
          exact .cons first (hypothesis index)

/-!
## The writes

For each write, the change of the configuration is matched by the change of one member of the
tree.  What is left to show is that no other member that the load reads has changed.
-/

namespace TreeHolds

variable {root : Value} {cfg : ProvCfg}

/-- A change of the network key that its object follows. -/
theorem setNetkey (holds : TreeHolds root cfg) {change : Meshkey → Meshkey} {key : String}
    {text : List Char} (other : strAppkey ≠ key)
    (keeps : ∀ obj before, KeyHolds obj before →
      KeyHolds (kvReplace key text obj) (change before)) :
    ∃ cfg' root', provselfSetnetkey change key text cfg root = .ok (cfg', root') ∧
      TreeHolds root' cfg' := by
  obtain ⟨subnet, primary, others, keys, single, inTree⟩ := holds.subnet
  have appkeys : (kvReplace key text primary).get strAppkey = some (.array keys) := by
    rw [kvReplace, Value.get_set_other other]
    exact inTree.appkeys
  have netkey := keeps primary subnet.netkey inTree.netkey
  simp only [provselfSetnetkey, single]
  refine ⟨_, _, rfl, ?_⟩
  rw [amend_netkey inTree.subnets]
  exact @writeSubnet root cfg holds { subnet with netkey := change subnet.netkey } _ _ _
    appkeys inTree.count netkey inTree.appkey

/-- A change of an application key that its object follows. -/
theorem setAppkey (holds : TreeHolds root cfg) (refid : UInt16) {change : Meshkey → Meshkey}
    {key : String} {text : List Char}
    (keeps : ∀ obj before, KeyHolds obj before →
      KeyHolds (kvReplace key text obj) (change before)) :
    ∃ cfg' root', provselfSetappkey refid change key text cfg root = .ok (cfg', root') ∧
      TreeHolds root' cfg' := by
  obtain ⟨subnet, primary, others, keys, single, inTree⟩ := holds.subnet
  simp only [provselfSetappkey, single]
  cases found : (subnet.appkey.take subnet.appkeyNum.toNat).findIdx? (·.refid == refid) with
  | none => exact ⟨cfg, root, rfl, holds⟩
  | some index =>
      refine ⟨_, _, rfl, ?_⟩
      have inside : index < keys.length := by
        obtain ⟨bound, _⟩ := List.findIdx?_eq_some_iff_getElem.mp found
        have long := inTree.appkey.length_eq
        rw [List.length_take] at bound
        omega
      have modified := forall₂_modify inTree.appkey keeps index
      have count : subnet.appkeyNum =
          UInt8.ofNat (keys.modify index (kvReplace key text)).length := by
        rw [List.length_modify]
        exact inTree.count
      rw [amend_appkey inTree.subnets inTree.appkeys (List.getElem?_eq_getElem inside)]
      exact @writeSubnet root cfg holds
        { subnet with appkey := subnet.appkey.modify index change } _ _ _
        (Value.get_set_self inTree.netkey.isObject strAppkey _) count
        (inTree.netkey.setAppkey _) modified

/-- Every write succeeds, and the tree holds the configuration afterwards.  By induction on the
calls. -/
theorem run (holds : TreeHolds root cfg) (write : ProvWrite) :
    ∃ cfg' root', write.run cfg root = .ok (cfg', root') ∧ TreeHolds root' cfg' := by
  cases write with
  | addr value => exact ⟨_, _, rfl, holds.writeAddr value⟩
  | ivi value => exact ⟨_, _, rfl, holds.writeIvi value⟩
  | netkeyId value =>
      exact holds.setNetkey (of_decide_eq_true rfl) fun _ _ before => before.writeId value
  | netkeyVal value =>
      exact holds.setNetkey (of_decide_eq_true rfl) fun _ _ before => before.writeVal value
  | netkeyDone value =>
      exact holds.setNetkey (of_decide_eq_true rfl) fun _ _ before => before.writeDone value
  | appkeyId refid value =>
      exact holds.setAppkey refid fun _ _ before => before.writeId value
  | appkeyDone refid value =>
      exact holds.setAppkey refid fun _ _ before => before.writeDone value

end TreeHolds

/-! ## The program -/

/-- The tree in memory and the file on the disk are one, and hold the configuration.  This is the
invariant of the writes: each of them changes the tree, saves it, and changes the configuration. -/
structure ProvState.InStep (prov : ProvState) : Prop where
  holds : ∃ root, prov.json.root = some root ∧ prov.file.content = some root ∧
    TreeHolds root prov.cfg
  autoflush : prov.json.autoflush = true

namespace ProvState

variable {prov : ProvState}

/-- Saving a tree that holds the configuration. -/
theorem inStep_jsonCfgFlush (clock : SaveClock) {root : Value}
    (isRoot : prov.json.root = some root) (holds : TreeHolds root prov.cfg)
    (autoflush : prov.json.autoflush = true) :
    (prov.jsonCfgFlush clock).InStep ∧ (prov.jsonCfgFlush clock).cfg = prov.cfg := by
  unfold jsonCfgFlush
  rw [isRoot]
  exact ⟨⟨⟨_, rfl, rfl, holds.writeStamp _⟩, autoflush⟩, rfl⟩

/-- A write succeeds and is saved. -/
theorem InStep.write (inStep : prov.InStep) (clock : SaveClock) (write : ProvWrite) :
    ∃ after, prov.write clock write = .ok (true, after) ∧ after.InStep ∧
      ∀ root, prov.json.root = some root →
        ∃ root', write.run prov.cfg root = .ok (after.cfg, root') := by
  obtain ⟨root, isRoot, _, holds⟩ := inStep.holds
  obtain ⟨cfg', root', runs, holds'⟩ := holds.run write
  have flushed := @inStep_jsonCfgFlush
    { prov with cfg := cfg', json := { prov.json with root := some root' } } clock root' rfl
    holds' inStep.autoflush
  refine ⟨_, ?_, flushed.1, fun root'' isRoot'' => ⟨root', ?_⟩⟩
  · simp only [ProvState.write, isRoot, runs, ok_bind, inStep.autoflush, if_true]
  · rw [isRoot] at isRoot''
    cases isRoot''
    rw [flushed.2]
    exact runs

/-- A file that is loaded first of all is in step. -/
theorem inStep_of_loadCfgFile {file : SavedFile} {clock : SaveClock}
    (opens : (ProvState.zeroed file).loadCfgFile clock = .ok (true, prov)) : prov.InStep := by
  simp only [loadCfgFile, bind_ok] at opens
  obtain ⟨⟨loaded, opened⟩, opens, flushes⟩ := opens
  simp only [Except.ok.injEq, Prod.mk.injEq] at flushes
  obtain ⟨rfl, rfl⟩ := flushes
  simp only [jsonCfgOpen, ProvState.zeroed] at opens
  split at opens
  case h_1 => cases opens
  case h_2 => cases opens
  case h_3 root notNull isRoot =>
    simp only [bind_ok] at opens
    obtain ⟨synctime, _, result, loads, opens⟩ := opens
    cases result with
    | none => cases opens
    | some cfg =>
        cases opens
        rw [if_pos rfl]
        exact (inStep_jsonCfgFlush clock rfl (holds_of_loadProvself loads) rfl).1

/-- A stamp that the load accepts is read when the file is opened. -/
theorem loadSynctime_of_stamp {root : Value} {stamp : UInt32} (before : UInt32)
    (isStamp : memberUint UInt32.ofNat root strSyncTime = .ok (some stamp)) :
    loadSynctime root before = .ok stamp := by
  unfold memberUint memberText at isStamp
  unfold loadSynctime
  cases here : root.get strSyncTime with
  | none =>
      rw [here] at isStamp
      cases isStamp
  | some value =>
      rw [here] at isStamp
      have loaded : uint32Loader value = .ok (some stamp) := isStamp
      simp only [loaded, ok_bind, Option.getD_some]

/-- Loading the saved file again gives the configuration back. -/
theorem InStep.loadCfgFile (inStep : prov.InStep) (clock : SaveClock) :
    ∃ reloaded, (ProvState.zeroed prov.file).loadCfgFile clock = .ok (true, reloaded) ∧
      reloaded.cfg = prov.cfg.saved := by
  obtain ⟨root, _, isFile, holds⟩ := inStep.holds
  obtain ⟨stamp, isStamp⟩ := holds.stamp
  have loads := loadProvself_of_holds holds
  have opens : (ProvState.zeroed prov.file).jsonCfgOpen =
      .ok (true,
        { cfg := prov.cfg.saved
          json := { root := some root, synctime := stamp, autoflush := true }
          file := prov.file }) := by
    cases root with
    | object members =>
        simp only [jsonCfgOpen, ProvState.zeroed, isFile, loadSynctime_of_stamp 0 isStamp,
          loads, ok_bind]
    | _ => cases holds.isObject
  simp only [ProvState.loadCfgFile, opens, ok_bind, if_true]
  exact ⟨_, rfl, rfl⟩

end ProvState

end Nwmng
