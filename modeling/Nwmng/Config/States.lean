/-
Module: Nwmng.Config.States
Purpose: The callbacks of the states that configure and remove a node, one group
for each state module of the source, and the list of states.
Trusted boundary: none
Main exports:
  dcdGet, addAppkey, bindAppkey, setpub, addsub, setconfig, rm, AccStateOps,
  accStates
-/
import Nwmng.Config.Callbacks
import Nwmng.Cfg.Loaders
import Nwmng.Utils.Bitmap

namespace Nwmng

/-! ## Get DCD -/

/-- `__dcd_get`. -/
def dcdGet : SendFn := fun slot answer cache host => do
  let netkey ← host.netkeyId
  let (_, node) ← host.nodeOf cache
  .ok (send .endEm slot (.getDcd netkey node.addr 0) answer cache host)

def getdcdGuard : GuardFn := fun cache host =>
  match cache.node with
  | some id => .ok ((host.db.heap id).addr != 0)
  | none => .ok false

def getdcdEntry : Option GuardFn → SendFn := entryWith dcdGet

/-- Composition data page 0 goes to the slot, and what it says about the kind of
device to the node record, and to the record found under the node's address. -/
def storePage (data : Bytes.Memory) (len : UInt8) (cache : ConfigCache)
    (host : Host) : Except Abort (ConfigCache × Host) := do
  let (id, node) ← host.nodeOf cache
  match dcdStore 256 data len node.func with
  | none => .error .endlessLoop
  | some (dcd, func) =>
      let db := host.db.update id fun node => { node with func := func }
      let db ← if dcd.elementCnt = 0 then .ok db else db.nodesetFunc node.addr func
      .ok ({ cache with dcd := dcd }, { host with db := db })

/-- The state to resume from: the last one among those that configure whose bit
is set. -/
def resumeState (err : BitVec 32) : Option AccState :=
  [AccState.setconfigEm, .addsubEm, .setpubEm, .bindappkeyEm, .addappkeyEm].find?
    fun state => err &&& state.errorBit != 0

/-- The choice of the next state after composition data: resume, or go on. -/
def afterDcd (err : BitVec 32) (cache : ConfigCache) : ConfigCache :=
  if AccState.getDcdEm.errorBit < err && err < AccState.endEm.errorBit then
    match resumeState err with
    | some state => { cache with nextState := some state }
    | none => cache
  else { cache with nextState := none }

/-- `GET_DCD_RETRY_TIMES`. -/
def getDcdRetryTimes : UInt8 := 5

def getdcdInprg (_slot : Slot) (event : ConfigEvent) (_answer : CmdRsp)
    (cache : ConfigCache) (host : Host) : Except Abort Outcome :=
  let cache := cache.timerClear
  match event with
  | .dcdData _ page data len =>
      if page = 0 then do
        let (cache, host) ← storePage data len cache host
        .ok { ret := .suc, cache := cache, host := host }
      else .ok { ret := .suc, cache := cache, host := host }
  | .dcdDataEnd _ result => do
      let cache := { cache with waitResponse := false }
      if result = bgErrSuccess then
        let (_, node) ← host.nodeOf cache
        .ok { ret := .suc, cache := afterDcd node.err cache.retryClear, host := host }
      else if result = bgErrTimeout then
        .ok { ret := .suc
              cache := timedOut getDcdRetryTimes giveUpToEnd cache
              host := host }
      else
        .ok { ret := .suc
              cache := cache.errSetToEnd bgErrTimeout .bgeventEm
              host := host }
  | _ => .ok { ret := .unspec, cache := cache, host := host }

def getdcdRetry : RetryReason → SendFn := retryWith dcdGet

/-! ## Add application keys -/

/-- The binding an iterator stands at. -/
def bindingAt (index : Int) (node : Node) : Except Abort UInt16 := do
  let bindings ← present node.config.bindings
  arrayAt bindings.data index

/-- `ASSERT(asr_suc == appkey_by_refid(..))`. -/
def appkeyOf (host : Host) (refid : UInt16) : Except Abort UInt16 := do
  match ← host.appkeyByRefid refid with
  | some id => .ok id
  | none => .error .appkeyMissing

/-- `__add_appkey`: the application key at the place of the iterator in the list of bindings,
which is resolved by its reference. -/
def addAppkey : SendFn := fun slot answer cache host => do
  let (_, node) ← host.nodeOf cache
  let refid ← bindingAt cache.iterators.zero node
  let appkey ← appkeyOf host refid
  let netkey ← host.netkeyId
  .ok (send .endEm slot (.addAppkey netkey node.addr appkey netkey) answer cache host)

/-- There are bindings: the guard of the states that add and bind keys. -/
def hasBindings (config : MeshConfig) : Bool :=
  match config.bindings with
  | some bindings => bindings.len != 0
  | none => false

/-- A guard that looks at the configuration of the node only. -/
def configGuard (test : MeshConfig → Bool) : GuardFn := fun cache host => do
  let (_, node) ← host.nodeOf cache
  .ok (test node.config)

def addappkeyGuard : GuardFn := configGuard hasBindings

def addappkeyEntry : Option GuardFn → SendFn := entryWith addAppkey

/-- The next index whose key can be resolved, or the announced length. -/
def nextResolved (host : Host) (bindings : Uint16List) : Nat → Int → Except Abort Int
  | 0, _ => .error .outOfBounds
  | fuel + 1, index =>
      let index := index + 1
      if index = bindings.len.toNat then .ok index
      else do
        let refid ← arrayAt bindings.data index
        match ← host.appkeyByRefid refid with
        | some _ => .ok index
        | none => nextResolved host bindings fuel index

/-- `iter_appkey`: on to the next reference that can be resolved.  The first one is not looked
for this way. -/
def iterAppkey (cache : ConfigCache) (host : Host) :
    Except Abort (Bool × ConfigCache) := do
  let (_, node) ← host.nodeOf cache
  let bindings ← present node.config.bindings
  let index ← nextResolved host bindings (bindings.data.length + 1) cache.iterators.zero
  if index = bindings.len.toNat then
    .ok (true, { cache with iterators := { cache.iterators with zero := 0 } })
  else
    .ok (false, { cache with iterators := { cache.iterators with zero := index } })

/-- Only success lets an iteration go on. -/
def acceptSuccess (result : UInt16) (cache : ConfigCache) (_host : Host) :
    Except Abort (Option ConfigCache) :=
  .ok (if result = bgErrSuccess then some cache.retryClear else none)

/-- `ADD_APP_KEY_RETRY_TIMES`. -/
def addAppKeyRetryTimes : UInt8 := 5

def addappkeyOps : StatusOps where
  kind := .appkey
  retryTimes := addAppKeyRetryTimes
  accept := acceptSuccess
  failure := fun _ _ => .ok ()
  errcode := fun _ => bgErrTimeout
  iter := iterAppkey
  once := addAppkey

def addappkeyInprg := statusInprg addappkeyOps

def addappkeyRetry : RetryReason → SendFn := retryWith addAppkey

/-!
## The models of the composition data

Three states go through the models.  Their iterators live in the slot, are shared with the other
states, and come back to zero behind the last model only: no state sets them when it is entered.
-/

/-- The element an iterator stands at. -/
def elementAt (cache : ConfigCache) : Except Abort Elem := do
  let elems ← present cache.dcd.elems
  arrayAt elems cache.iterators.zero

/-- The model with a given index in an element: SIG models first, then those of
vendors. -/
def modelAt (elem : Elem) (index : Int) : Except Abort Vnm :=
  if elem.sigmCnt.toNat ≤ index then do
    let model ← arrayAt elem.vm (index - elem.sigmCnt.toNat)
    .ok { vd := model.vid, md := model.mid }
  else do
    let model ← arrayAt elem.sigModels index
    .ok { vd := 0xFFFF, md := model }

/-- Note the model the iterators stand at in the slot. -/
def noteModel (cache : ConfigCache) : Except Abort ConfigCache := do
  let elem ← elementAt cache
  let model ← modelAt elem cache.iterators.one
  .ok { cache with vnm := model }

/-- The element number as the commands take it. -/
def ConfigCache.elementByte (cache : ConfigCache) : UInt8 :=
  UInt8.ofInt cache.iterators.zero

/-- Advance the element iterator; `true` behind the last element. -/
def nextElement (cache : ConfigCache) : Bool × ConfigCache :=
  let element := cache.iterators.zero + 1
  if element = cache.dcd.elementCnt.toNat then
    (true, { cache with iterators := { cache.iterators with zero := 0 } })
  else
    (false, { cache with iterators := { cache.iterators with zero := element } })

/-- The number of models of an element. -/
def Elem.modelCount (elem : Elem) : Nat :=
  elem.sigmCnt.toNat + elem.vmCnt.toNat

/-- The index of the next model of the element that is supported, if any. -/
def nextModel (elem : Elem) (supported : UInt16 → Bool) :
    Nat → Int → Except Abort (Option Int)
  | 0, _ => .error .outOfBounds
  | fuel + 1, index =>
      let index := index + 1
      if index = elem.modelCount then .ok none
      else do
        let model ← modelAt elem index
        if supported model.md then .ok (some index)
        else nextModel elem supported fuel index

/-- The model loop that publication and subscription share, and the step to the
next element behind its last model. -/
def iterModels (supported : UInt16 → Bool) (cache : ConfigCache) :
    Except Abort (Bool × ConfigCache) := do
  let elem ← elementAt cache
  let fuel := elem.sigModels.length + elem.vm.length + elem.modelCount + 1
  match ← nextModel elem supported fuel cache.iterators.one with
  | some index =>
      .ok (false, { cache with iterators := { cache.iterators with one := index } })
  | none =>
      .ok (nextElement { cache with iterators := { cache.iterators with one := 0 } })

/-! ## Bind application keys -/

/-- `__bind_appkey`: the model at the place of two iterators, with the key at the place of the
third. -/
def bindAppkey : SendFn := fun slot answer cache host => do
  let cache ← noteModel cache
  let (_, node) ← host.nodeOf cache
  let refid ← bindingAt cache.iterators.two node
  let appkey ← appkeyOf host refid
  let netkey ← host.netkeyId
  .ok (send .endEm slot
    (.bindModel netkey node.addr cache.elementByte appkey cache.vnm.vd cache.vnm.md)
    answer cache host)

def bindappkeyGuard : GuardFn := configGuard hasBindings

def bindappkeyEntry : Option GuardFn → SendFn := entryWith bindAppkey

/-- `iter_bindings`: the keys first, then the models of the element, then the elements. -/
def iterBindings (cache : ConfigCache) (host : Host) :
    Except Abort (Bool × ConfigCache) := do
  let (_, node) ← host.nodeOf cache
  let bindings ← present node.config.bindings
  let index ← nextResolved host bindings (bindings.data.length + 1) cache.iterators.two
  if index = bindings.len.toNat then do
    let cache := { cache with iterators := { cache.iterators with two := 0 } }
    let elem ← elementAt cache
    let model := cache.iterators.one + 1
    if model = elem.modelCount then
      .ok (nextElement { cache with iterators := { cache.iterators with one := 0 } })
    else
      .ok (false, { cache with iterators := { cache.iterators with one := model } })
  else
    .ok (false, { cache with iterators := { cache.iterators with two := index } })

/-- `BIND_APP_KEY_RETRY_TIMES`. -/
def bindAppKeyRetryTimes : UInt8 := 5

def bindappkeyOps : StatusOps where
  kind := .binding
  retryTimes := bindAppKeyRetryTimes
  accept := acceptSuccess
  failure := fun _ _ => .ok ()
  errcode := fun _ => bgErrTimeout
  iter := iterBindings
  once := bindAppkey

def bindappkeyInprg := statusInprg bindappkeyOps

def bindappkeyRetry : RetryReason → SendFn := retryWith bindAppkey

/-! ## Set publications -/

/-- Models that do not support publishing. -/
def notPubModels : List UInt16 :=
  [0x1007, 0x100A, 0x100F, 0x1201, 0x1204, 0x1207, 0x1301, 0x1304, 0x1308, 0x130D]

/-- `__pub_supported`. -/
def pubSupported (model : UInt16) : Bool :=
  !notPubModels.contains model

/-- `__setpub`: an interval of 0 is replaced by the least one that can be sent. -/
def setpub : SendFn := fun slot answer cache host => do
  let cache ← noteModel cache
  let (_, node) ← host.nodeOf cache
  let pub ← present node.config.pub
  let appkey ← appkeyOf host pub.aki
  let netkey ← host.netkeyId
  let interval := if pub.txp.intv = 0 then 50 else pub.txp.intv
  .ok (send .endEm slot
    (.setModelPub netkey node.addr cache.elementByte cache.vnm.vd cache.vnm.md
      pub.addr appkey 0 pub.ttl pub.period pub.txp.cnt interval)
    answer cache host)

/-- There is a publication, and its key is among the bindings. -/
def publishesBoundKey (config : MeshConfig) : Bool :=
  match config.pub, config.bindings with
  | some pub, some bindings =>
      (bindings.data.take bindings.len.toNat).any fun refid => refid == pub.aki
  | _, _ => false

def setpubGuard : GuardFn := configGuard publishesBoundKey

def setpubEntry : Option GuardFn → SendFn := entryWith setpub

/-- `iter_setpub`. -/
def iterSetpub (cache : ConfigCache) (_host : Host) :
    Except Abort (Bool × ConfigCache) :=
  iterModels pubSupported cache

/-- The messages of this state read the publication. -/
def pubMessage (cache : ConfigCache) (host : Host) : Except Abort Unit := do
  let (_, node) ← host.nodeOf cache
  let _ ← present node.config.pub
  .ok ()

/-- A model that cannot publish counts as done. -/
def acceptPub (result : UInt16) (cache : ConfigCache) (host : Host) :
    Except Abort (Option ConfigCache) := do
  if result = bgErrSuccess ∨ result = bgErrMeshNotInitialized then
    pubMessage cache host
    .ok (some cache.retryClear)
  else .ok none

/-- `SET_PUB_RETRY_TIMES`. -/
def setPubRetryTimes : UInt8 := 5

def setpubOps : StatusOps where
  kind := .modelPub
  retryTimes := setPubRetryTimes
  accept := acceptPub
  failure := pubMessage
  errcode := id
  iter := iterSetpub
  once := setpub

def setpubInprg := statusInprg setpubOps

def setpubRetry : RetryReason → SendFn := retryWith setpub

/-! ## Add subscriptions -/

/-- Models that do not support subscribing. -/
def notSubModels : List UInt16 := [0x1201]

/-- `__sub_supported`. -/
def subSupported (model : UInt16) : Bool :=
  !notSubModels.contains model

/-- `__addsub`: the first address of a model replaces its list, the others are
added to it. -/
def addsub : SendFn := fun slot answer cache host => do
  let cache ← noteModel cache
  let (_, node) ← host.nodeOf cache
  let sublist ← present node.config.sublist
  let address ← arrayAt sublist.data cache.iterators.two
  let netkey ← host.netkeyId
  let command :=
    if cache.iterators.two = 0 then
      Command.setModelSub netkey node.addr cache.elementByte cache.vnm.vd
        cache.vnm.md address
    else
      Command.addModelSub netkey node.addr cache.elementByte cache.vnm.vd
        cache.vnm.md address
  .ok (send .endEm slot command answer cache host)

def hasSublist (config : MeshConfig) : Bool :=
  match config.sublist with
  | some sublist => sublist.len != 0
  | none => false

def addsubGuard : GuardFn := configGuard hasSublist

def addsubEntry : Option GuardFn → SendFn := entryWith addsub

/-- `iter_addsub`: all addresses for a model, then the next model that supports subscriptions. -/
def iterAddsub (cache : ConfigCache) (host : Host) :
    Except Abort (Bool × ConfigCache) := do
  let (_, node) ← host.nodeOf cache
  let sublist ← present node.config.sublist
  let address := cache.iterators.two + 1
  if address = sublist.len.toNat then
    iterModels subSupported { cache with iterators := { cache.iterators with two := 0 } }
  else
    .ok (false, { cache with iterators := { cache.iterators with two := address } })

/-- The messages of this state read the list of addresses. -/
def subMessage (cache : ConfigCache) (host : Host) : Except Abort Unit := do
  let (_, node) ← host.nodeOf cache
  let _ ← present node.config.sublist
  .ok ()

/-- A model without room for more addresses is passed over: the iterator jumps
to the last address, and the retry budget stays as it is. -/
def acceptSub (result : UInt16) (cache : ConfigCache) (host : Host) :
    Except Abort (Option ConfigCache) := do
  if result = bgErrSuccess then
    subMessage cache host
    .ok (some cache.retryClear)
  else if result = bgErrMeshFoundationInsufficientResources then
    let (_, node) ← host.nodeOf cache
    let sublist ← present node.config.sublist
    .ok (some { cache with
      iterators := { cache.iterators with two := (sublist.len.toNat : Int) - 1 } })
  else .ok none

/-- `ADD_SUB_RETRY_TIMES`. -/
def addSubRetryTimes : UInt8 := 5

def addsubOps : StatusOps where
  kind := .modelSub
  retryTimes := addSubRetryTimes
  accept := acceptSub
  failure := subMessage
  errcode := fun _ => bgErrTimeout
  iter := iterAddsub
  once := addsub

def addsubInprg := statusInprg addsubOps

def addsubRetry : RetryReason → SendFn := retryWith addsub

/-! ## Set the features -/

/-- `__next_config_item`: the lowest bit in which what is asked for and what is there differ. -/
def nextConfigItem (features : Features) : Option Nat :=
  utilsCtz (features.target ^^^ features.current)

/-- The features that have a command. -/
def knownFeature (which : Nat) : Bool :=
  [relayBitofs, proxyBitofs, friendBitofs, ttlBitofs, nettxBitofs, snbBitofs].contains which

/-- The command that sets a feature; `none` when there is none. -/
def setconfigCommand (netkey : UInt16) (node : Node) (which : Option Nat) :
    Except Abort (Option Command) :=
  let config := node.config
  let on (bit : Nat) : Bool := config.features.target.getLsbD bit
  if which = some relayBitofs then do
    let txp ← present config.features.relayTxp
    let interval := if txp.intv = 0 then 50 else txp.intv
    .ok (some (.setRelay netkey node.addr (on relayBitofs) txp.cnt interval))
  else if which = some proxyBitofs then
    .ok (some (.setGattProxy netkey node.addr (on proxyBitofs)))
  else if which = some friendBitofs then
    .ok (some (.setFriend netkey node.addr (on friendBitofs)))
  else if which = some ttlBitofs then do
    let ttl ← present config.ttl
    .ok (some (.setDefaultTtl netkey node.addr ttl))
  else if which = some nettxBitofs then do
    let txp ← present config.netTxp
    .ok (some (.setNetworkTransmit netkey node.addr txp.cnt txp.intv))
  else if which = some snbBitofs then
    .ok (some (.setBeacon netkey node.addr (on snbBitofs)))
  else .ok none

/-- `__setconfig`. -/
def setconfig : SendFn := fun slot answer cache host => do
  let netkey ← host.netkeyId
  let (_, node) ← host.nodeOf cache
  match ← setconfigCommand netkey node (nextConfigItem node.config.features) with
  | some command => .ok (send .endEm slot command answer cache host)
  | none => .ok { ret := .notfnd, cache := cache, host := host }

def featuresDiffer (config : MeshConfig) : Bool :=
  config.features.current ^^^ config.features.target != 0

def setconfigGuard : GuardFn := configGuard featuresDiffer

/-- A feature without a command counts as success, with the next state open. -/
def setconfigEntry (guard : Option GuardFn) : SendFn :=
  fun slot answer cache host => do
    let out ← entryWith setconfig guard slot answer cache host
    if out.ret = .notfnd then
      .ok { out with ret := .suc, cache := { out.cache with nextState := none } }
    else .ok out

/-- `on_feature_configured`: the bit is copied from what was asked for, so that it differs no
longer. -/
def onFeatureConfigured (which : Nat) (node : Node) : Node :=
  let features := node.config.features
  let current :=
    if features.target.getLsbD which then bitSet features.current which
    else bitClr features.current which
  { node with config := { node.config with
      features := { features with current := current } } }

/-- The feature a status event speaks of. -/
def featureOf : StatusKind → Option Nat
  | .relay => some relayBitofs
  | .friend => some friendBitofs
  | .gattProxy => some proxyBitofs
  | .defaultTtl => some ttlBitofs
  | .networkTransmit => some nettxBitofs
  | .beacon => some snbBitofs
  | _ => none

/-- `set_configs_print_state` reads the value of the feature it speaks of. -/
def featureMessage (which : Nat) (config : MeshConfig) : Except Abort Unit := do
  if which = ttlBitofs then
    let _ ← present config.ttl
    .ok ()
  else if which = nettxBitofs then
    let _ ← present config.netTxp
    .ok ()
  else .ok ()

/-- `SET_CONFIGS_RETRY_TIMES`. -/
def setConfigsRetryTimes : UInt8 := 5

def setconfigInprg (slot : Slot) (event : ConfigEvent) (answer : CmdRsp)
    (cache : ConfigCache) (host : Host) : Except Abort Outcome :=
  let cache := cache.timerClear
  match event with
  | .status kind _ result =>
      match featureOf kind with
      | none => .ok { ret := .unspec, cache := cache, host := host }
      | some which => do
          let cache := { cache with waitResponse := false }
          let (id, node) ← host.nodeOf cache
          if result = bgErrSuccess then
            let cache := cache.retryClear
            featureMessage which node.config
            let host := { host with db := host.db.update id (onFeatureConfigured which) }
            let (_, node) ← host.nodeOf cache
            if nextConfigItem node.config.features = none then finish cache host
            else
              let out ← setconfig slot answer cache host
              if out.ret = .notfnd then finish out.cache out.host else .ok out
          else if result = bgErrTimeout then
            .ok { ret := .suc
                  cache := timedOut setConfigsRetryTimes giveUpToEnd cache
                  host := host }
          else
            featureMessage which node.config
            .ok { ret := .suc
                  cache := cache.errSetToEnd bgErrTimeout .bgeventEm
                  host := host }
  | _ => .ok { ret := .unspec, cache := cache, host := host }

def setconfigRetry : RetryReason → SendFn := retryWith setconfig

/-! ## End -/

/-- `end_entry`: a failed configuration leaves its error mask; the other kind clears the mask and
sets `Done`. -/
def endEntry (_guard : Option GuardFn) : SendFn := fun _slot _answer cache host => do
  let host := { host with stat := host.stat.configOneDev }
  let (_, node) ← host.nodeOf cache
  if cache.failed then
    let db ← host.db.nodesetErrbits node.addr cache.errBits
    .ok { ret := .suc, cache := cache, host := { host with db := db } }
  else
    let db ← host.db.nodesetErrbits node.addr 0
    let db ← db.nodesetDone node.addr 1
    let host := { host with db := db }
    .ok { ret := .suc
          cache := cache
          host := host.record (.configured node.uuid node.addr node.config) }

/-! ## Remove -/

/-- `__rm`. -/
def rm : SendFn := fun slot answer cache host => do
  let netkey ← host.netkeyId
  let (_, node) ← host.nodeOf cache
  .ok (send .rmendEm slot (.resetNode netkey node.addr) answer cache host)

def rmGuard : GuardFn := fun cache host => do
  let (_, node) ← host.nodeOf cache
  .ok (node.addr != 0)

def rmEntry : Option GuardFn → SendFn := entryWith rm

/-- `REMOVE_NODE_RETRY_TIMES`. -/
def removeNodeRetryTimes : UInt8 := 3

/-- A node that never answers is taken for removed. -/
def giveUpRemoving (cache : ConfigCache) : ConfigCache :=
  { cache with nextState := none }

def rmInprg (_slot : Slot) (event : ConfigEvent) (_answer : CmdRsp)
    (cache : ConfigCache) (host : Host) : Except Abort Outcome :=
  let cache := cache.timerClear
  match event with
  | .status .reset _ result =>
      let cache := { cache with waitResponse := false }
      if result = bgErrSuccess then
        .ok { ret := .suc
              cache := { cache.retryClear with nextState := none }
              host := host }
      else if result = bgErrTimeout then
        .ok { ret := .suc
              cache := timedOut removeNodeRetryTimes giveUpRemoving cache
              host := host }
      else
        .ok { ret := .suc
              cache := cache.errSetToRmEnd bgErrTimeout .bgeventEm
              host := host }
  | _ => .ok { ret := .unspec, cache := cache, host := host }

def rmRetry : RetryReason → SendFn := retryWith rm

/-- `rmend_entry`: after a removal that succeeded the record starts anew as an unprovisioned
device, and the device is deleted from the database of the NCP. -/
def rmendEntry (_guard : Option GuardFn) : SendFn := fun _slot _answer cache host => do
  let host := { host with stat := host.stat.rmOneDev }
  let (id, node) ← host.nodeOf cache
  if cache.failed then
    let db ← host.db.nodesetErrbits node.addr cache.errBits
    .ok { ret := .suc, cache := cache, host := { host with db := db } }
  else
    let db ← host.db.nodesetErrbits node.addr 0
    let db ← db.nodesetDone node.addr 0
    let db ← db.nodesetFunc node.addr 0
    let db ← db.nodesRm node.addr
    let host := { host with db := db }
    let host := host.record (.removed node.uuid node.addr)
    .ok { ret := .suc
          cache := cache
          host := host.record (.ddbDelete (db.heap id).uuid) }

/-!
## The list of states

The order of the list is the order of the work.  `as_get` finds a state by its code and returns
the list from there on, through which a slot falls until a guard is open.
-/

/-- `acc_state_t`.  The fields are the function pointers of the table; those that a state leaves
`NULL` are `none`. -/
structure AccStateOps where
  state : AccState
  guard : Option GuardFn
  entry : Option GuardFn → SendFn
  inprg : Option (Slot → ConfigEvent → CmdRsp → ConfigCache → Host → Except Abort Outcome)
  retry : Option (RetryReason → SendFn)

def asGetDcd : AccStateOps :=
  ⟨.getDcdEm, some getdcdGuard, getdcdEntry, some getdcdInprg, some getdcdRetry⟩

def asAddappkey : AccStateOps :=
  ⟨.addappkeyEm, some addappkeyGuard, addappkeyEntry, some addappkeyInprg,
    some addappkeyRetry⟩

def asBindappkey : AccStateOps :=
  ⟨.bindappkeyEm, some bindappkeyGuard, bindappkeyEntry, some bindappkeyInprg,
    some bindappkeyRetry⟩

def asSetpub : AccStateOps :=
  ⟨.setpubEm, some setpubGuard, setpubEntry, some setpubInprg, some setpubRetry⟩

def asAddsub : AccStateOps :=
  ⟨.addsubEm, some addsubGuard, addsubEntry, some addsubInprg, some addsubRetry⟩

def asSetconfig : AccStateOps :=
  ⟨.setconfigEm, some setconfigGuard, setconfigEntry, some setconfigInprg,
    some setconfigRetry⟩

def asEnd : AccStateOps := ⟨.endEm, none, endEntry, none, none⟩

def asRm : AccStateOps :=
  ⟨.rmEm, some rmGuard, rmEntry, some rmInprg, some rmRetry⟩

def asRmend : AccStateOps := ⟨.rmendEm, none, rmendEntry, none, none⟩

/-- The list `__acc_reset` builds. -/
def accStates : List AccStateOps :=
  [asGetDcd, asAddappkey, asBindappkey, asSetpub, asAddsub, asSetconfig, asEnd, asRm,
    asRmend]

/-- `as_get`: the list from the state with the given code on. -/
def asGet (state : AccState) : List AccStateOps :=
  accStates.dropWhile fun ops => ops.state != state

end Nwmng
