/-
Module: Nwmng.Cfg.Clrctl
Purpose: The factory reset of the configuration, and what it makes of the provisioner's
file: each application key is cleared by a search for its reference.
Trusted boundary: none
Main exports:
  ProvState.loadCfg, provselfClrctl, ProvState.clrctl, cfgClrctl, KeyedTree,
  clearAppkeys_spec, ProvState.clrctl_spec
-/
import Nwmng.Cfg.ProvRoundTrip
import Nwmng.Cfg.NodesWrites

namespace Nwmng

open Json Fallible

/-! ## The functions -/

/-- `load_cfg_file`, for the provisioner's file, without a forced load. -/
def ProvState.loadCfg (clock : SaveClock) (prov : ProvState) :
    Except Abort (Bool × ProvState) :=
  if prov.json.synctime != 0 && decide (prov.file.mtime ≤ prov.json.synctime.toNat) then
    .ok (true, prov.jsonCfgFlush clock)
  else prov.loadCfgFile clock

/-- `__provself_setsynctime`; the stamp of the configuration is not kept in this model. -/
def provselfSetsynctime (value : UInt32) (root : Value) : Value :=
  kvReplace strSyncTime (uint32ToStr value) root

/-- The loop of `__provself_clrctl`, from an index on. -/
def clearAppkeys : Nat → Nat → ProvCfg → Value → Except Abort (ProvCfg × Value)
  | 0, _, cfg, root => .ok (cfg, root)
  | remaining + 1, index, cfg, root =>
      match cfg.subnets.head?.bind fun subnet => subnet.appkey[index]? with
      | none => .error .outOfBounds
      | some key => do
          let (cfg, root) ← provselfSetappkeyid key.refid 0 cfg root
          let (cfg, root) ← provselfSetappkeydone key.refid 0 cfg root
          clearAppkeys remaining (index + 1) cfg root

/-- `__provself_clrctl`: each field is cleared in memory and in the tree by the function that
otherwise writes it. -/
def provselfClrctl (cfg : ProvCfg) (root : Value) : Except Abort (ProvCfg × Value) := do
  let (cfg, root) ← provselfSetaddr 0 cfg root
  let (cfg, root) ← provselfSetivi 0 cfg root
  let root := provselfSetsynctime 0 root
  let (cfg, root) ← provselfSetnetkeydone 0 cfg root
  let (cfg, root) ← provselfSetnetkeyid 0 cfg root
  match cfg.subnets with
  | [] => .error .fieldMissing
  | subnet :: _ => clearAppkeys subnet.appkeyNum.toNat 0 cfg root

/-- `prov_clrctl`. -/
def ProvState.clrctl (clock : SaveClock) (prov : ProvState) :
    Except Abort (Bool × ProvState) :=
  match prov.json.root with
  | none => .ok (false, prov)
  | some root => do
      let (cfg, root) ← provselfClrctl prov.cfg root
      let prov := { prov with cfg := cfg, json := { prov.json with root := some root } }
      .ok (true, if prov.json.autoflush then prov.jsonCfgFlush clock else prov)

/-- `load_cfg_file`, for the nodes file, without the lists of the manager. -/
def NodesState.loadCfg (env : LoadEnv) (force : Bool) (clock : SaveClock)
    (nodes : NodesState) : Except Abort (Bool × NodesState) := do
  let (loaded, nodes) ← nodes.jsonCfgOpen env force
  .ok (loaded, if loaded then nodes.flush clock else nodes)

/-- Both files, with the configuration and the records. -/
structure CfgState where
  prov : ProvState
  nodes : NodesState

/-- What a reset meets: the clocks of its saves, and the places of the new cells of its
two loads. -/
structure ClrInput where
  openProv : SaveClock
  openNodes : SaveClock
  clearProv : SaveClock
  clearNodes : SaveClock
  reload : SaveClock
  first : LoadEnv
  second : LoadEnv

/-- `cfg_clrctl`: both files are loaded before anything is cleared, so that a file that is
refused leaves the other as it was. -/
def cfgClrctl (input : ClrInput) (state : CfgState) : Except Abort (Bool × CfgState) := do
  let (loaded, prov) ← state.prov.loadCfg input.openProv
  if !loaded then .ok (false, { state with prov := prov })
  else do
    let (loaded, nodes) ← state.nodes.loadCfg input.first false input.openNodes
    if !loaded then .ok (false, { prov := prov, nodes := nodes })
    else do
      let (cleared, prov) ← prov.clrctl input.clearProv
      if !cleared then .ok (false, { prov := prov, nodes := nodes })
      else do
        let (cleared, nodes) ← nodes.nodesClrctl input.second input.clearNodes input.reload
        .ok (cleared, { prov := prov, nodes := nodes })

/-!
## The keys in the tree

The keys in memory and the objects of the file correspond by their places, although the reset
finds an object by its reference.  `KeyedTree` states the correspondence, which every load
establishes and every write of the reset keeps.
-/

/-- The object of a key holds its numbers.  The value of the key is left out: a reset does not
touch it. -/
structure KeyNumbers (obj : Value) (key : Meshkey) : Prop where
  refid : memberUint UInt16.ofNat obj strRefid = .ok (some key.refid)
  id : memberUint UInt16.ofNat obj strId = .ok (some key.id)
  done : memberUint UInt8.ofNat obj strDone = .ok (some key.done)

theorem loadKey_numbers {obj : Value} {before key : Meshkey}
    (loads : loadKey obj before = .ok (some key)) : KeyNumbers obj key := by
  simp only [loadKey, bind_ok] at loads
  obtain ⟨refid, isRefid, loads⟩ := loads
  cases refid with
  | none => cases loads
  | some refid =>
      simp only [bind_ok] at loads
      obtain ⟨id, isId, loads⟩ := loads
      cases id with
      | none => cases loads
      | some id =>
          cases isVal : memberKey before.val obj with
          | none =>
              rw [isVal] at loads
              cases loads
          | some val =>
              simp only [isVal, bind_ok] at loads
              obtain ⟨done, isDone, loads⟩ := loads
              cases done with
              | none => cases loads
              | some done =>
                  cases loads
                  exact ⟨isRefid, isId, isDone⟩

/-- Each object holds the numbers of the key in its place.  There may be more keys in memory than
objects in the file. -/
def KeysHold (items : List Value) (keys : List Meshkey) : Prop :=
  ∀ (index : Nat) (item : Value), items[index]? = some item →
    ∃ key, keys[index]? = some key ∧ KeyNumbers item key

theorem loadKeys_hold {items : List Value} {before keys : List Meshkey}
    (loads : loadKeys items before = .ok (some keys)) : KeysHold items keys := by
  induction items generalizing before keys with
  | nil =>
      intro index item inside
      cases inside
  | cons first rest hypothesis =>
      cases before with
      | nil => cases loads
      | cons key before =>
          simp only [loadKeys, bind_ok] at loads
          obtain ⟨loaded, firstLoads, loads⟩ := loads
          cases loaded with
          | none => cases loads
          | some loaded =>
              obtain ⟨others, restLoads, same⟩ := bind_ok.mp loads
              cases others with
              | none => cases same
              | some others =>
                  cases same
                  intro index item inside
                  cases index with
                  | zero =>
                      cases inside
                      exact ⟨loaded, rfl, loadKey_numbers firstLoads⟩
                  | succ index => exact hypothesis restLoads index item inside

/-- The tree has a first subnet with keys, and the configuration holds their numbers.  A load
establishes it, and it is all that the reset needs to know about the file. -/
structure KeyedTree (root : Value) (cfg : ProvCfg) (subnet : Subnet) (primary : Value)
    (rest items : List Value) : Prop where
  isObject : root.isObject = true
  held : cfg.subnets.head? = some subnet
  subnets : root.get strSubnets = some (.array (primary :: rest))
  appkeys : primary.get strAppkey = some (.array items)
  count : subnet.appkeyNum = UInt8.ofNat items.length
  netkey : KeyNumbers primary subnet.netkey
  keys : KeysHold items subnet.appkey

/-- A load of the provisioner's file, over whatever was loaded before. -/
theorem keyedTree_of_load {root : Value} {before cfg : ProvCfg}
    (loads : loadProvself root before = .ok (some cfg)) :
    ∃ subnet primary rest items, KeyedTree root cfg subnet primary rest items := by
  simp only [loadProvself, bind_ok] at loads
  obtain ⟨addr, isAddr, loads⟩ := loads
  cases addr with
  | none => cases loads
  | some addr =>
  simp only [bind_ok] at loads
  obtain ⟨stamp, _, loads⟩ := loads
  cases stamp with
  | none => cases loads
  | some stamp =>
  simp only [bind_ok] at loads
  obtain ⟨ivi, _, loads⟩ := loads
  cases ivi with
  | none => cases loads
  | some ivi =>
  simp only [bind_ok] at loads
  obtain ⟨withTtl, _, withTxp, _, withTimeout, _, loads⟩ := loads
  split at loads
  case h_1 => cases loads
  case h_3 => cases loads
  case h_2 primary rest subnets =>
    split at loads
    case h_2 => cases loads
    case h_1 items appkeys =>
      simp only [bind_ok, loadSubnet] at loads
      obtain ⟨subnet, ⟨netkey, netkeyLoads, loadsSubnet⟩, loads⟩ := loads
      cases netkey with
      | none =>
          cases loadsSubnet
          cases loads
      | some netkey =>
          simp only [bind_ok] at loadsSubnet
          obtain ⟨keys, keysLoad, loadsSubnet⟩ := loadsSubnet
          cases keys with
          | none =>
              cases loadsSubnet
              cases loads
          | some keys =>
              cases loadsSubnet
              cases loads
              exact ⟨_, primary, rest, items, isObject_of_memberUint isAddr, rfl, subnets,
                appkeys, rfl, loadKey_numbers netkeyLoads, loadKeys_hold keysLoad⟩

/-! ## One write -/

namespace KeyNumbers

variable {obj : Value} {key : Meshkey}

theorem writeId (numbers : KeyNumbers obj key) (value : UInt16) :
    KeyNumbers (kvReplace strId (uint16ToStr value) obj) { key with id := value } where
  refid := by
    rw [memberUint_kvReplace_other (of_decide_eq_true rfl)]
    exact numbers.refid
  id := by
    rw [memberUint_kvReplace (isObject_of_memberUint numbers.refid) strId
      (str2uint_uint16ToStr value), UInt16.ofNat_toNat]
  done := by
    rw [memberUint_kvReplace_other (of_decide_eq_true rfl)]
    exact numbers.done

theorem writeDone (numbers : KeyNumbers obj key) (value : UInt8) :
    KeyNumbers (kvReplace strDone (uint8ToStr value) obj) { key with done := value } where
  refid := by
    rw [memberUint_kvReplace_other (of_decide_eq_true rfl)]
    exact numbers.refid
  id := by
    rw [memberUint_kvReplace_other (of_decide_eq_true rfl)]
    exact numbers.id
  done := by
    rw [memberUint_kvReplace (isObject_of_memberUint numbers.refid) strDone
      (str2uint_uint8ToStr value), UInt8.ofNat_toNat]

theorem writeVal (numbers : KeyNumbers obj key) (value : Vector UInt8 16) :
    KeyNumbers (kvReplace strValue (cbuf2str value) obj) { key with val := value } where
  refid := by
    rw [memberUint_kvReplace_other (of_decide_eq_true rfl)]
    exact numbers.refid
  id := by
    rw [memberUint_kvReplace_other (of_decide_eq_true rfl)]
    exact numbers.id
  done := by
    rw [memberUint_kvReplace_other (of_decide_eq_true rfl)]
    exact numbers.done

theorem setAppkey (numbers : KeyNumbers obj key) (value : Value) :
    KeyNumbers (obj.set strAppkey value) key where
  refid := by
    rw [memberUint_set_other (of_decide_eq_true rfl)]
    exact numbers.refid
  id := by
    rw [memberUint_set_other (of_decide_eq_true rfl)]
    exact numbers.id
  done := by
    rw [memberUint_set_other (of_decide_eq_true rfl)]
    exact numbers.done

end KeyNumbers

theorem KeysHold.modify {items : List Value} {keys : List Meshkey} (hold : KeysHold items keys)
    {change : Value → Value} {change' : Meshkey → Meshkey}
    (keeps : ∀ obj key, KeyNumbers obj key → KeyNumbers (change obj) (change' key))
    (place : Nat) : KeysHold (items.modify place change) (keys.modify place change') := by
  intro index item inside
  rw [List.getElem?_modify] at inside
  obtain ⟨before, found, same⟩ := Option.map_eq_some_iff.mp inside
  obtain ⟨key, held, numbers⟩ := hold index before found
  rw [List.getElem?_modify, held, Option.map_eq_map, Option.map_some]
  by_cases here : place = index
  · rw [if_pos here] at same ⊢
    exact ⟨change' key, rfl, by rw [← same]; exact keeps before key numbers⟩
  · rw [if_neg here] at same ⊢
    exact ⟨key, rfl, by rw [← same]; exact numbers⟩

/-- Where the first key with a reference is, among those that are announced. -/
def keyPlace (refid : UInt16) (subnet : Subnet) : Option Nat :=
  (subnet.appkey.take subnet.appkeyNum.toNat).findIdx? (·.refid == refid)

theorem keyPlace_congr {first second : Subnet} (count : first.appkeyNum = second.appkeyNum)
    (refids : first.appkey.map (·.refid) = second.appkey.map (·.refid)) (refid : UInt16) :
    keyPlace refid first = keyPlace refid second := by
  have search : ∀ subnet : Subnet, keyPlace refid subnet =
      ((subnet.appkey.map (·.refid)).take subnet.appkeyNum.toNat).findIdx? (· == refid) := by
    intro subnet
    rw [← List.map_take, List.findIdx?_map]
    rfl
  rw [search, search, count, refids]

namespace KeyedTree

variable {root primary : Value} {cfg : ProvCfg} {subnet : Subnet} {rest items : List Value}

/-- A key that is announced has an object. -/
theorem place_lt (tree : KeyedTree root cfg subnet primary rest items) {refid : UInt16}
    {place : Nat} (found : keyPlace refid subnet = some place) :
    place < subnet.appkeyNum.toNat ∧ place < items.length := by
  obtain ⟨bound, _⟩ := List.findIdx?_eq_some_iff_getElem.mp found
  have announced : place < subnet.appkeyNum.toNat := by
    rw [List.length_take] at bound
    omega
  refine ⟨announced, ?_⟩
  rw [tree.count, UInt8.toNat_ofNat'] at announced
  have less := Nat.mod_le items.length (2 ^ 8)
  omega

/-- A change of the first key with a reference. -/
theorem setAppkey (tree : KeyedTree root cfg subnet primary rest items) {refid : UInt16}
    {place : Nat} (found : keyPlace refid subnet = some place) {change : Meshkey → Meshkey}
    {key : String} {text : List Char}
    (keeps : ∀ obj before, KeyNumbers obj before →
      KeyNumbers (kvReplace key text obj) (change before)) :
    ∃ root', provselfSetappkey refid change key text cfg root =
        .ok ({ cfg with subnets :=
          { subnet with appkey := subnet.appkey.modify place change } :: cfg.subnets.tail },
          root') ∧
      (∀ name, name ≠ strSubnets → root'.get name = root.get name) ∧
      KeyedTree root'
        { cfg with subnets :=
          { subnet with appkey := subnet.appkey.modify place change } :: cfg.subnets.tail }
        { subnet with appkey := subnet.appkey.modify place change }
        (primary.set strAppkey (.array (items.modify place (kvReplace key text)))) rest
        (items.modify place (kvReplace key text)) := by
  obtain ⟨others, isCfg⟩ : ∃ others, cfg.subnets = subnet :: others :=
    ⟨_, List.head?_eq_some_iff.mp tree.held |>.choose_spec⟩
  have inside := (tree.place_lt found).2
  unfold keyPlace at found
  have run : provselfSetappkey refid change key text cfg root =
      .ok ({ cfg with subnets :=
          { subnet with appkey := subnet.appkey.modify place change } :: cfg.subnets.tail },
        root.amend (appkeyPath place) (kvReplace key text)) := by
    simp only [provselfSetappkey, isCfg, found, List.tail_cons]
  have amended := amend_appkey tree.subnets tree.appkeys (List.getElem?_eq_getElem inside)
    (kvReplace key text)
  rw [amended] at run
  refine ⟨_, run, fun name other => Value.get_set_other other root _, ?_⟩
  constructor
  · rw [Value.isObject_set]
    exact tree.isObject
  · rfl
  · exact Value.get_set_self tree.isObject strSubnets _
  · exact Value.get_set_self (isObject_of_memberUint tree.netkey.refid) strAppkey _
  · rw [List.length_modify]
    exact tree.count
  · exact tree.netkey.setAppkey _
  · exact tree.keys.modify keeps place

end KeyedTree

/-!
## The loop

The search ends at the first key with the reference.  A key whose reference also belongs to an
earlier one is therefore never reached: the earlier one is cleared again in its place.
-/

/-- Keys, and their objects, of which some were cleared.  The two are cleared together or not at
all; which ones is the argument of the predicate. -/
structure KeysCleared (cleared : Nat → Prop) (keys keys' : List Meshkey)
    (items items' : List Value) : Prop where
  keysLength : keys'.length = keys.length
  itemsLength : items'.length = items.length
  key : ∀ (index : Nat) (key : Meshkey), keys[index]? = some key →
    ∃ key', keys'[index]? = some key' ∧ key'.refid = key.refid ∧ key'.val = key.val ∧
      (cleared index → key'.id = 0 ∧ key'.done = 0) ∧ (¬ cleared index → key' = key)
  item : ∀ (index : Nat) (item : Value), items[index]? = some item →
    ∃ item', items'[index]? = some item' ∧
      (∀ name, name ≠ strId → name ≠ strDone → item'.get name = item.get name) ∧
      (¬ cleared index → item' = item)

theorem KeysCleared.refl (keys : List Meshkey) (items : List Value) :
    KeysCleared (fun _ => False) keys keys items items where
  keysLength := rfl
  itemsLength := rfl
  key := fun _ key found => ⟨key, found, rfl, rfl, False.elim, fun _ => rfl⟩
  item := fun _ item found => ⟨item, found, fun _ _ _ => rfl, fun _ => rfl⟩

/-- One more key is cleared. -/
theorem KeysCleared.clear {cleared : Nat → Prop} {keys keys' : List Meshkey}
    {items items' : List Value} (before : KeysCleared cleared keys keys' items items')
    (place : Nat) :
    KeysCleared (fun index => cleared index ∨ index = place) keys
      ((keys'.modify place fun key => { key with id := 0 }).modify place
        fun key => { key with done := 0 })
      items
      ((items'.modify place (kvReplace strId (uint16ToStr 0))).modify place
        (kvReplace strDone (uint8ToStr 0))) := by
  constructor
  · rw [List.length_modify, List.length_modify]
    exact before.keysLength
  · rw [List.length_modify, List.length_modify]
    exact before.itemsLength
  · intro index key found
    obtain ⟨key', held, refid, val, isCleared, isKept⟩ := before.key index key found
    rw [List.getElem?_modify, List.getElem?_modify, held]
    simp only [Option.map_eq_map, Option.map_some]
    by_cases here : place = index
    · rw [if_pos here, if_pos here]
      exact ⟨_, rfl, refid, val, fun _ => ⟨rfl, rfl⟩,
        fun other => absurd (.inr here.symm) other⟩
    · rw [if_neg here, if_neg here]
      refine ⟨key', rfl, refid, val, ?_, fun other => isKept fun earlier => other (.inl earlier)⟩
      rintro (earlier | same)
      · exact isCleared earlier
      · exact absurd same.symm here
  · intro index item found
    obtain ⟨item', held, beside, isKept⟩ := before.item index item found
    rw [List.getElem?_modify, List.getElem?_modify, held]
    simp only [Option.map_eq_map, Option.map_some]
    by_cases here : place = index
    · rw [if_pos here, if_pos here]
      refine ⟨_, rfl, fun name notId notDone => ?_, fun other => absurd (.inr here.symm) other⟩
      rw [kvReplace, Value.get_set_other notDone, kvReplace, Value.get_set_other notId]
      exact beside name notId notDone
    · rw [if_neg here, if_neg here]
      exact ⟨item', rfl, beside, fun other => isKept fun earlier => other (.inl earlier)⟩

/-- No reference before is the same. -/
def FirstRef (refids : List UInt16) (index : Nat) : Prop :=
  ∀ earlier, earlier < index → refids[earlier]? ≠ refids[index]?

theorem KeysCleared.congr {cleared other : Nat → Prop} {keys keys' : List Meshkey}
    {items items' : List Value} (before : KeysCleared cleared keys keys' items items')
    (same : ∀ index, index < keys.length → (cleared index ↔ other index))
    (long : items.length ≤ keys.length) : KeysCleared other keys keys' items items' where
  keysLength := before.keysLength
  itemsLength := before.itemsLength
  key := by
    intro index key found
    have inside := (List.getElem?_eq_some_iff.mp found).1
    rw [← same index inside]
    exact before.key index key found
  item := by
    intro index item found
    have inside := (List.getElem?_eq_some_iff.mp found).1
    rw [← same index (Nat.lt_of_lt_of_le inside long)]
    exact before.item index item found

theorem KeysCleared.refids {cleared : Nat → Prop} {keys keys' : List Meshkey}
    {items items' : List Value} (before : KeysCleared cleared keys keys' items items') :
    keys'.map (·.refid) = keys.map (·.refid) := by
  apply List.ext_getElem?
  intro index
  rw [List.getElem?_map, List.getElem?_map]
  cases found : keys[index]? with
  | none =>
      have outside := List.getElem?_eq_none_iff.mp found
      rw [← before.keysLength] at outside
      rw [List.getElem?_eq_none outside]
  | some key =>
      obtain ⟨key', held, refid, _⟩ := before.key index key found
      rw [held, Option.map_some, Option.map_some, refid]

theorem KeysHold.length_le {items : List Value} {keys : List Meshkey}
    (hold : KeysHold items keys) : items.length ≤ keys.length := by
  by_contra longer
  have inside : keys.length < items.length := Nat.lt_of_not_le longer
  obtain ⟨key, found, _⟩ := hold keys.length _ (List.getElem?_eq_getElem inside)
  exact Nat.lt_irrefl _ (List.getElem?_eq_some_iff.mp found).1

/-- The search for the reference of a key ends at that key or before it. -/
theorem keyPlace_of_index {subnet : Subnet} {index : Nat} {key : Meshkey}
    (announced : index < subnet.appkeyNum.toNat) (found : subnet.appkey[index]? = some key) :
    ∃ place, keyPlace key.refid subnet = some place ∧ place ≤ index ∧
      (subnet.appkey.map (·.refid))[place]? = (subnet.appkey.map (·.refid))[index]? ∧
      FirstRef (subnet.appkey.map (·.refid)) place := by
  obtain ⟨inside, isKey⟩ := List.getElem?_eq_some_iff.mp found
  have bound : index < (subnet.appkey.take subnet.appkeyNum.toNat).length := by
    rw [List.length_take]
    omega
  have present : (keyPlace key.refid subnet).isSome = true := by
    unfold keyPlace
    rw [List.findIdx?_isSome, List.any_eq_true]
    refine ⟨key, ?_, by simp⟩
    rw [List.mem_iff_getElem]
    exact ⟨index, bound, by rw [List.getElem_take, isKey]⟩
  obtain ⟨place, here⟩ := Option.isSome_iff_exists.mp present
  have search := here
  unfold keyPlace at search
  obtain ⟨placeBound, matches_, before⟩ := List.findIdx?_eq_some_iff_getElem.mp search
  have placeInside : place < subnet.appkey.length := by
    rw [List.length_take] at placeBound
    omega
  have refidOf : ∀ (other : Nat) (less : other < subnet.appkey.length),
      (subnet.appkey.map (·.refid))[other]? = some subnet.appkey[other].refid := by
    intro other less
    rw [List.getElem?_map, List.getElem?_eq_getElem less]
    rfl
  have isRefid : subnet.appkey[place].refid = key.refid := by
    rw [List.getElem_take] at matches_
    simpa using matches_
  refine ⟨place, here, ?_, ?_, ?_⟩
  · by_contra later
    have other := before index (Nat.lt_of_not_le later)
    rw [List.getElem_take, isKey] at other
    simp at other
  · rw [refidOf place placeInside, refidOf index inside, isRefid, isKey]
  · intro earlier less same
    rw [refidOf place placeInside, refidOf earlier (Nat.lt_trans less placeInside), isRefid]
      at same
    have other := before earlier less
    rw [List.getElem_take] at other
    simp only [beq_iff_eq] at other
    exact other (Option.some.inj same)

theorem refids_modify (keys : List Meshkey) (place : Nat) {change : Meshkey → Meshkey}
    (keeps : ∀ key, (change key).refid = key.refid) :
    (keys.modify place change).map (·.refid) = keys.map (·.refid) := by
  apply List.ext_getElem?
  intro index
  rw [List.getElem?_map, List.getElem?_map, List.getElem?_modify]
  cases keys[index]? with
  | none => rfl
  | some key =>
      simp only [Option.map_eq_map, Option.map_some]
      by_cases here : place = index
      · rw [if_pos here, keeps]
      · rw [if_neg here]

/-- The loop clears, of the keys with one reference, the first one.  By induction on the keys
that are left; what was cleared before is the first part of the relation. -/
theorem clearAppkeys_spec {root primary : Value} {cfg : ProvCfg} {subnet : Subnet}
    {rest items : List Value} (tree : KeyedTree root cfg subnet primary rest items)
    {keys : List Meshkey} {objects : List Value} {index remaining : Nat}
    (so : KeysCleared (fun place => place < index ∧ FirstRef (keys.map (·.refid)) place)
      keys subnet.appkey objects items)
    (long : objects.length ≤ keys.length)
    (whole : index + remaining = subnet.appkeyNum.toNat) :
    ∃ root' primary' keys' items',
      clearAppkeys remaining index cfg root =
        .ok ({ cfg with subnets := { subnet with appkey := keys' } :: cfg.subnets.tail }, root') ∧
      (∀ name, name ≠ strSubnets → root'.get name = root.get name) ∧
      (∀ name, name ≠ strAppkey → primary'.get name = primary.get name) ∧
      KeyedTree root'
        { cfg with subnets := { subnet with appkey := keys' } :: cfg.subnets.tail }
        { subnet with appkey := keys' } primary' rest items' ∧
      KeysCleared
        (fun place => place < subnet.appkeyNum.toNat ∧ FirstRef (keys.map (·.refid)) place)
        keys keys' objects items' := by
  induction remaining generalizing index root primary cfg subnet items with
  | zero =>
      rw [Nat.add_zero] at whole
      rw [whole] at so
      have same : cfg = { cfg with subnets := subnet :: cfg.subnets.tail } := by
        obtain ⟨tail, isCfg⟩ := List.head?_eq_some_iff.mp tree.held
        rw [isCfg, List.tail_cons, ← isCfg]
      refine ⟨root, primary, subnet.appkey, items, ?_, fun _ _ => rfl, fun _ _ => rfl, ?_, so⟩
      · rw [clearAppkeys, ← same]
      · rw [← same]
        exact tree
  | succ remaining hypothesis =>
      have announced : index < subnet.appkeyNum.toNat := by omega
      have inItems : index < items.length := by
        rw [tree.count, UInt8.toNat_ofNat'] at announced
        have less := Nat.mod_le items.length (2 ^ 8)
        omega
      have inKeys := Nat.lt_of_lt_of_le inItems tree.keys.length_le
      have found := List.getElem?_eq_getElem inKeys
      obtain ⟨place, here, before, sameRef, isFirst⟩ := keyPlace_of_index announced found
      obtain ⟨root₁, run₁, beside₁, tree₁⟩ := tree.setAppkey here
        (fun _ _ numbers => numbers.writeId 0)
      have refids₁ : (subnet.appkey.modify place fun key => { key with id := 0 }).map (·.refid) =
          subnet.appkey.map (·.refid) := by
        apply refids_modify
        intro key
        rfl
      have here₁ : keyPlace subnet.appkey[index].refid
          { subnet with appkey := subnet.appkey.modify place fun key => { key with id := 0 } } =
            some place := by
        rw [← here]
        apply keyPlace_congr
        · rfl
        · exact refids₁
      obtain ⟨root₂, run₂, beside₂, tree₂⟩ := tree₁.setAppkey here₁
        (fun _ _ numbers => numbers.writeDone 0)
      have cleared : KeysCleared
          (fun place => place < index + 1 ∧ FirstRef (keys.map (·.refid)) place) keys
          ((subnet.appkey.modify place fun key => { key with id := 0 }).modify place
            fun key => { key with done := 0 })
          objects
          ((items.modify place (kvReplace strId (uint16ToStr 0))).modify place
            (kvReplace strDone (uint8ToStr 0))) := by
        apply (so.clear place).congr _ long
        intro other inside
        rw [so.refids] at isFirst sameRef
        constructor
        · rintro (⟨earlier, first⟩ | rfl)
          · exact ⟨Nat.lt_succ_of_lt earlier, first⟩
          · exact ⟨Nat.lt_succ_of_le before, isFirst⟩
        · rintro ⟨less, first⟩
          -- the place is new exactly when the key is the first one with its reference
          rcases Nat.lt_or_eq_of_le (Nat.le_of_lt_succ less) with earlier | rfl
          · exact .inl ⟨earlier, first⟩
          · right
            rcases Nat.lt_or_eq_of_le before with earlier | same
            · exact absurd sameRef (first place earlier)
            · exact same.symm
      obtain ⟨root', primary', keys', items', run, beside, besidePrimary, treeAfter, after⟩ :=
        hypothesis tree₂ cleared (by rw [← whole]; omega)
      refine ⟨root', primary', keys', items', ?_, ?_, ?_, treeAfter, after⟩
      · rw [clearAppkeys, tree.held, Option.bind_some, found]
        dsimp only
        rw [provselfSetappkeyid, run₁, ok_bind, provselfSetappkeydone]
        dsimp only
        rw [run₂, ok_bind]
        exact run
      · intro name other
        rw [beside name other, beside₂ name other, beside₁ name other]
      · intro name other
        rw [besidePrimary name other, Value.get_set_other other, Value.get_set_other other]

/-! ## The provisioner's file -/

theorem memberUint_get_congr {α : Type} {cut : Nat → α} {first second : Value} {key : String}
    (same : first.get key = second.get key) :
    memberUint cut first key = memberUint cut second key := by
  unfold memberUint memberText
  rw [same]

namespace KeyedTree

variable {root primary : Value} {cfg : ProvCfg} {subnet : Subnet} {rest items : List Value}

/-- A member beside the subnets is written. -/
theorem set_beside (tree : KeyedTree root cfg subnet primary rest items) {name : String}
    (other : strSubnets ≠ name) (value : Value) {cfg' : ProvCfg}
    (same : cfg'.subnets = cfg.subnets) :
    KeyedTree (root.set name value) cfg' subnet primary rest items where
  isObject := by
    rw [Value.isObject_set]
    exact tree.isObject
  held := by
    rw [same]
    exact tree.held
  subnets := by
    rw [Value.get_set_other other]
    exact tree.subnets
  appkeys := tree.appkeys
  count := tree.count
  netkey := tree.netkey
  keys := tree.keys

/-- A change of the network key. -/
theorem setNetkey (tree : KeyedTree root cfg subnet primary rest items)
    {change : Meshkey → Meshkey} {key : String} {text : List Char} (other : strAppkey ≠ key)
    (keeps : ∀ obj before, KeyNumbers obj before →
      KeyNumbers (kvReplace key text obj) (change before)) :
    ∃ root', provselfSetnetkey change key text cfg root =
        .ok ({ cfg with subnets :=
          { subnet with netkey := change subnet.netkey } :: cfg.subnets.tail }, root') ∧
      (∀ name, name ≠ strSubnets → root'.get name = root.get name) ∧
      KeyedTree root'
        { cfg with subnets :=
          { subnet with netkey := change subnet.netkey } :: cfg.subnets.tail }
        { subnet with netkey := change subnet.netkey } (kvReplace key text primary) rest
        items := by
  obtain ⟨tail, isCfg⟩ := List.head?_eq_some_iff.mp tree.held
  have run : provselfSetnetkey change key text cfg root =
      .ok ({ cfg with subnets :=
          { subnet with netkey := change subnet.netkey } :: cfg.subnets.tail },
        root.amend netkeyPath (kvReplace key text)) := by
    simp only [provselfSetnetkey, isCfg, List.tail_cons]
  rw [amend_netkey tree.subnets] at run
  refine ⟨_, run, fun name apart => Value.get_set_other apart root _, ?_⟩
  constructor
  · rw [Value.isObject_set]
    exact tree.isObject
  · rfl
  · exact Value.get_set_self tree.isObject strSubnets _
  · rw [kvReplace, Value.get_set_other other]
    exact tree.appkeys
  · exact tree.count
  · exact keeps _ _ tree.netkey
  · exact tree.keys

end KeyedTree

/-- The members of the root that a reset writes. -/
def resetMembers : List String := [strAddr, strIvi, strSyncTime, strSubnets]

/-- The members of the network key that a reset writes, or changes within. -/
def resetKeyMembers : List String := [strId, strDone, strAppkey]

/-- What a reset makes of the configuration and of its tree.  A key is cleared when it is
among the announced ones and the first one with its reference. -/
structure ProvCleared (cfg : ProvCfg) (root : Value) (subnet : Subnet) (primary : Value)
    (rest items : List Value) (cfg' : ProvCfg) (root' : Value) : Prop where
  addr : cfg'.addr = 0
  ivi : cfg'.ivi = 0
  savedAddr : memberUint UInt16.ofNat root' strAddr = .ok (some 0)
  savedIvi : memberUint UInt32.ofNat root' strIvi = .ok (some 0)
  settings : cfg'.ttl = cfg.ttl ∧ cfg'.netTxp = cfg.netTxp ∧ cfg'.timeout = cfg.timeout
  beside : ∀ name, name ∉ resetMembers → root'.get name = root.get name
  keyed : ∃ keys' primary' items',
    cfg'.subnets =
      { subnet with
        netkey := { subnet.netkey with id := 0, done := 0 }, appkey := keys' } ::
        cfg.subnets.tail ∧
    KeyedTree root' cfg'
      { subnet with
        netkey := { subnet.netkey with id := 0, done := 0 }, appkey := keys' }
      primary' rest items' ∧
    (∀ name, name ∉ resetKeyMembers → primary'.get name = primary.get name) ∧
    KeysCleared
      (fun place => place < subnet.appkeyNum.toNat ∧
        FirstRef (subnet.appkey.map (·.refid)) place)
      subnet.appkey keys' items items'

theorem provselfClrctl_spec {root primary : Value} {cfg : ProvCfg} {subnet : Subnet}
    {rest items : List Value} (tree : KeyedTree root cfg subnet primary rest items) :
    ∃ cfg' root', provselfClrctl cfg root = .ok (cfg', root') ∧
      ProvCleared cfg root subnet primary rest items cfg' root' := by
  let stamped := kvReplace strSyncTime (uint32ToStr 0)
    (kvReplace strIvi (uint32ToStr 0) (kvReplace strAddr (uint16ToStr 0) root))
  let plain : ProvCfg := { cfg with addr := 0, ivi := 0 }
  have tree₁ : KeyedTree stamped plain subnet primary rest items := by
    have first := @KeyedTree.set_beside _ _ _ _ _ _ tree strAddr (of_decide_eq_true rfl)
      (.string (uint16ToStr 0)) cfg rfl
    have second := @KeyedTree.set_beside _ _ _ _ _ _ first strIvi (of_decide_eq_true rfl)
      (.string (uint32ToStr 0)) cfg rfl
    exact second.set_beside (of_decide_eq_true rfl) (.string (uint32ToStr 0)) rfl
  obtain ⟨root₂, run₂, beside₂, tree₂⟩ := tree₁.setNetkey (of_decide_eq_true rfl)
    (fun _ _ numbers => numbers.writeDone 0)
  obtain ⟨root₃, run₃, beside₃, tree₃⟩ := tree₂.setNetkey (of_decide_eq_true rfl)
    (fun _ _ numbers => numbers.writeId 0)
  have none_ := KeysCleared.refl subnet.appkey items
  have start : KeysCleared
      (fun place => place < 0 ∧ FirstRef (subnet.appkey.map (·.refid)) place)
      subnet.appkey subnet.appkey items items := by
    apply none_.congr _ tree.keys.length_le
    intro index _
    constructor
    · exact False.elim
    · rintro ⟨impossible, _⟩
      exact Nat.not_lt_zero _ impossible
  obtain ⟨root', primary', keys', items', run, beside, besidePrimary, treeAfter, after⟩ :=
    clearAppkeys_spec tree₃ start tree.keys.length_le (Nat.zero_add _)
  refine ⟨{ plain with subnets :=
    { subnet with netkey := { subnet.netkey with id := 0, done := 0 }, appkey := keys' } ::
      cfg.subnets.tail }, root', ?_, ?_⟩
  · unfold provselfClrctl provselfSetaddr provselfSetivi provselfSetsynctime
    rw [ok_bind]
    dsimp only
    rw [ok_bind]
    dsimp only
    rw [provselfSetnetkeydone, run₂, ok_bind]
    dsimp only
    rw [provselfSetnetkeyid, run₃, ok_bind]
    exact run
  · have besides : ∀ name, name ≠ strSubnets → root'.get name = stamped.get name := by
      intro name other
      rw [beside name other, beside₃ name other, beside₂ name other]
    have isObject := tree.isObject
    constructor
    · rfl
    · rfl
    · rw [memberUint_get_congr (besides strAddr (of_decide_eq_true rfl)),
        memberUint_kvReplace_other (of_decide_eq_true rfl),
        memberUint_kvReplace_other (of_decide_eq_true rfl),
        memberUint_kvReplace isObject strAddr (str2uint_uint16ToStr 0)]
      rfl
    · rw [memberUint_get_congr (besides strIvi (of_decide_eq_true rfl)),
        memberUint_kvReplace_other (of_decide_eq_true rfl),
        memberUint_kvReplace (by rw [kvReplace, Value.isObject_set]; exact isObject) strIvi
          (str2uint_uint32ToStr 0)]
      rfl
    · exact ⟨rfl, rfl, rfl⟩
    · intro name other
      simp only [resetMembers, List.mem_cons, List.not_mem_nil, or_false, not_or] at other
      obtain ⟨notAddr, notIvi, notStamp, notSubnets⟩ := other
      rw [besides name notSubnets]
      exact (Value.get_set_other notStamp _ _).trans
        ((Value.get_set_other notIvi _ _).trans (Value.get_set_other notAddr _ _))
    · refine ⟨keys', primary', items', rfl, treeAfter, ?_, after⟩
      intro name other
      simp only [resetKeyMembers, List.mem_cons, List.not_mem_nil, or_false, not_or] at other
      obtain ⟨notId, notDone, notAppkey⟩ := other
      rw [besidePrimary name notAppkey]
      exact (Value.get_set_other notId _ _).trans (Value.get_set_other notDone _ _)

/-- A reset of the configuration is saved with it. -/
theorem ProvState.clrctl_spec {prov : ProvState} {root : Value}
    (held : prov.json.root = some root) (autoflush : prov.json.autoflush = true)
    {subnet : Subnet} {primary : Value} {rest items : List Value}
    (tree : KeyedTree root prov.cfg subnet primary rest items) (clock : SaveClock) :
    ∃ after root', prov.clrctl clock = .ok (true, after) ∧ after.json.root = some root' ∧
      after.file.content = some root' ∧
      ProvCleared prov.cfg root subnet primary rest items after.cfg root' := by
  obtain ⟨cfg', root', run, cleared⟩ := provselfClrctl_spec tree
  have isSaved : ∀ stamp, ProvCleared prov.cfg root subnet primary rest items cfg'
      (kvReplace strSyncTime (uint32ToStr stamp) root') := by
    intro stamp
    obtain ⟨addr, ivi, savedAddr, savedIvi, settings, beside, keys', primary', items', same,
      treeAfter, besidePrimary, after⟩ := cleared
    refine ⟨addr, ivi, ?_, ?_, settings, ?_, keys', primary', items', same,
      treeAfter.set_beside (of_decide_eq_true rfl) _ rfl, besidePrimary, after⟩
    · rw [memberUint_kvReplace_other (of_decide_eq_true rfl)]
      exact savedAddr
    · rw [memberUint_kvReplace_other (of_decide_eq_true rfl)]
      exact savedIvi
    · intro name other
      have notStamp : name ≠ strSyncTime := by
        rintro rfl
        exact other (by simp [resetMembers])
      rw [kvReplace, Value.get_set_other notStamp]
      exact beside name other
  unfold ProvState.clrctl
  rw [held]
  dsimp only
  rw [run, ok_bind]
  dsimp only
  rw [autoflush, if_pos rfl]
  exact ⟨_, _, rfl, rfl, rfl, isSaved _⟩

end Nwmng
