/-
Module: Nwmng.Cfg.Loaders
Purpose: The functions that load the configuration of a node or a template from its
JSON object, and the inheritance from a template.
Trusted boundary: none
Main exports:
  setFeatureConfig, loadTtl, loadPub, loadSnb, loadTxp, loadBindings, loadSublist,
  loadFeatures, loadConfig, copyTmplToNode, Templates, loadTmpl, loadToTmplItem,
  loadToNodeItem
-/
import Nwmng.Lib.Json
import Nwmng.Utils.Bitmap
import Nwmng.Utils.Numbers

namespace Nwmng

open Json

/-!
The error codes of the loaders are only logged; what remains of a loader is the
configuration it leaves.
-/

/-! ## Keys -/

def strRefid : String := "RefId"
def strId : String := "Id"
def strAddr : String := "Address"
def strDone : String := "Done"
def strCnt : String := "Count"
def strIntv : String := "Interval"
def strSubnets : String := "Subnets"
def strAppkey : String := "AppKey"
def strTtl : String := "TTL"
def strTxp : String := "TX Parameters"
def strFeatures : String := "Features"
def strTmpl : String := "Template ID"
def strSnb : String := "Secure Network Beacon"
def strLpn : String := "Low Power"
def strProxy : String := "Proxy"
def strFriend : String := "Friend"
def strRelay : String := "Relay"
def strEnable : String := "Enable"
def strPub : String := "Publish To"
def strBind : String := "Bind Appkeys"
def strSub : String := "Subscribe from"
def strPeriod : String := "Period"
def strTemplates : String := "Templates"

/-! ## Single values -/

/-- The text of a value, which is used without a test. -/
def textOf (value : Value) : Except Abort (List Char) :=
  match value.text with
  | some text => .ok text
  | none => .error .textMissing

/-- `uint8_loader`, `uint16_loader` and `uint32_loader`: the number is cut to the
width of its destination. -/
def uintLoader {α : Type} (cut : Nat → α) (value : Value) : Except Abort (Option α) := do
  let text ← textOf value
  let number ← str2uint text
  .ok (number.map cut)

def uint8Loader : Value → Except Abort (Option UInt8) := uintLoader UInt8.ofNat
def uint16Loader : Value → Except Abort (Option UInt16) := uintLoader UInt16.ofNat
def uint32Loader : Value → Except Abort (Option UInt32) := uintLoader UInt32.ofNat

/-- `!strcmp(v, "0x01")`. -/
def isOn (value : Value) : Except Abort Bool := do
  let text ← textOf value
  .ok (text == "0x01".toList)

/-! ## Feature bits -/

def relayBitofs : Nat := 0
def proxyBitofs : Nat := 1
def friendBitofs : Nat := 2
def lpnFeatureBitofs : Nat := 3
def nettxBitofs : Nat := 4
def ttlBitofs : Nat := 5
def snbBitofs : Nat := 6

/-- `__set_feature_config`: the two bits of a feature differ afterwards. -/
def setFeatureConfig (features : Features) (which : Nat) (on : Bool) : Features :=
  if on then
    { features with
      target := bitSet features.target which, current := bitClr features.current which }
  else
    { features with
      current := bitSet features.current which, target := bitClr features.target which }

/-- Without the bits of the `Features` member. -/
def Features.cleared (features : Features) : Features where
  target := features.target &&& 0xFFF0
  current := features.current &&& 0xFFF0
  relayTxp := none

/-! ## Transmission parameters -/

/-- The members of an object with transmission parameters, each if it is there. -/
def loadTxparam (obj : Value) (txp : Txparam) : Except Abort (Option Txparam) := do
  let withCnt ← match obj.get strCnt with
    | some value => do
        let cnt ← uint8Loader value
        .ok (cnt.map fun cnt => { txp with cnt := cnt })
    | none => .ok (some txp)
  match withCnt with
  | none => .ok none
  | some txp =>
      match obj.get strIntv with
      | some value => do
          let intv ← uint16Loader value
          .ok (intv.map fun intv => { txp with intv := intv })
      | none => .ok (some txp)

/-- The valid parameters next to those loaded: the interval has a range and a
resolution, which matter when something is retransmitted. -/
def clampTxparam (least most step : UInt16) (txp : Txparam) : Txparam :=
  if 7 < txp.cnt then { txp with cnt := 7 }
  else if txp.cnt ≠ 0 then
    if txp.intv < least then { txp with intv := least }
    else if most < txp.intv then { txp with intv := most }
    else if txp.intv % step ≠ 0 then
      { txp with intv := (txp.intv + (step - 1)) / step * step }
    else txp
  else { txp with intv := 50 }

def clampPubTxp : Txparam → Txparam := clampTxparam 50 3200 50

def clampRelayTxp : Txparam → Txparam := clampTxparam 10 320 10

/-!
## The loaders

Each loader follows its function in the source, with the tests it makes and those it leaves out:
a member that is absent leaves the record alone, and what is done for a malformed one differs
from loader to loader.
-/

/-- `_load_ttl`, for a node or a template. -/
def loadTtl (obj : Value) (config : MeshConfig) : Except Abort MeshConfig :=
  match obj.get strTtl with
  | none => .ok { config with ttl := none }
  | some value => do
      match ← uint8Loader value with
      | none => .ok { config with ttl := none }
      | some ttl =>
          .ok { config with
            ttl := some ttl
            features := setFeatureConfig config.features ttlBitofs true }

def Publication.zeroed : Publication :=
  { addr := 0, aki := 0, period := 0, ttl := 0, txp := { cnt := 0, intv := 0 } }

/-- One member of the publication; others than these are passed over. -/
def loadPubField (key : String) (value : Value) (pub : Publication) :
    Except Abort (Option Publication) :=
  if key = strAddr then do
    let addr ← uint16Loader value
    .ok (addr.map fun addr => { pub with addr := addr })
  else if key = strAppkey then do
    let aki ← uint16Loader value
    .ok (aki.map fun aki => { pub with aki := aki })
  else if key = strPeriod then do
    let period ← uint32Loader value
    .ok (period.map fun period => { pub with period := period })
  else if key = strTtl then do
    let ttl ← uint8Loader value
    .ok (ttl.map fun ttl => { pub with ttl := ttl })
  else if key = strTxp then do
    let txp ← loadTxparam value pub.txp
    .ok (txp.map fun txp => { pub with txp := clampPubTxp txp })
  else .ok (some pub)

/-- The members in their order, up to the first that is malformed. -/
def loadPubFields : List (String × Value) → Publication → Except Abort (Option Publication)
  | [], pub => .ok (some pub)
  | (key, value) :: rest, pub => do
      match ← loadPubField key value pub with
      | some pub => loadPubFields rest pub
      | none => .ok none

/-- `_load_pub`: without the member the publication is dropped; with it, the fields that are not
given keep the values they had. -/
def loadPub (obj : Value) (config : MeshConfig) : Except Abort MeshConfig :=
  match obj.get strPub with
  | none => .ok { config with pub := none }
  | some (.object members) => do
      let pub ← loadPubFields members (config.pub.getD .zeroed)
      .ok { config with pub := pub }
  | some _ => .error .jsonType

/-- `_load_snb`. -/
def loadSnb (obj : Value) (config : MeshConfig) : Except Abort MeshConfig :=
  match obj.get strSnb with
  | none => .ok { config with snb := none }
  | some value => do
      match ← uint8Loader value with
      | none => .ok { config with snb := none }
      | some snb =>
          .ok { config with
            snb := some snb
            features := setFeatureConfig config.features snbBitofs (snb != 0) }

def Txparam.zeroed : Txparam := { cnt := 0, intv := 0 }

/-- `_load_txp`, for a node or a template. -/
def loadTxp (obj : Value) (config : MeshConfig) : Except Abort MeshConfig :=
  match obj.get strTxp with
  | none => .ok { config with netTxp := none }
  | some value => do
      match ← loadTxparam value (config.netTxp.getD .zeroed) with
      | none => .ok { config with netTxp := none }
      | some txp =>
          .ok { config with
            netTxp := some txp
            features := setFeatureConfig config.features nettxBitofs true }

/-- The items of an array of numbers, up to the first that is malformed. -/
def uint16Items : List Value → Except Abort (Option (List UInt16))
  | [] => .ok (some [])
  | value :: rest => do
      match ← uint16Loader value with
      | some item => do
          let items ← uint16Items rest
          .ok (items.map (item :: ·))
      | none => .ok none

/-- `__load_uint16list`.  The announced length is a byte; cells behind it are never
read, and left out. -/
def loadUint16List (value : Value) : Except Abort (Option Uint16List) :=
  match value with
  | .array values => do
      let items ← uint16Items values
      let len := UInt8.ofNat values.length
      .ok (items.map fun items => { len := len, data := items.take len.toNat })
  | _ => .ok none

/-- `_load_bindings`. -/
def loadBindings (obj : Value) (config : MeshConfig) : Except Abort MeshConfig :=
  match obj.get strBind with
  | none => .ok { config with bindings := none }
  | some value => do
      let bindings ← loadUint16List value
      .ok { config with bindings := bindings }

/-- `_load_sublist`. -/
def loadSublist (obj : Value) (config : MeshConfig) : Except Abort MeshConfig :=
  match obj.get strSub with
  | none => .ok { config with sublist := none }
  | some value => do
      let sublist ← loadUint16List value
      .ok { config with sublist := sublist }

/-- The `Enable` member of the relay feature. -/
def loadEnable (relay : Value) (features : Features) : Except Abort Features :=
  match relay.get strEnable with
  | some value => do
      let on ← isOn value
      .ok (setFeatureConfig features relayBitofs on)
  | none => .ok features

/-- The `Relay` member. -/
def loadRelay (obj : Value) (features : Features) : Except Abort (Option Features) :=
  match obj.get strRelay with
  | some relay => do
      let features ← loadEnable relay features
      let txp ← loadTxparam relay .zeroed
      .ok (txp.map fun txp => { features with relayTxp := some (clampRelayTxp txp) })
  | none => .ok (some features)

/-- The `Friend` and the `Proxy` member. -/
def loadSwitch (key : String) (which : Nat) (obj : Value) (features : Features) :
    Except Abort Features :=
  match obj.get key with
  | some value => do
      let on ← isOn value
      .ok (setFeatureConfig features which on)
  | none => .ok features

/-- The `Low Power` member only informs: both bits say the same. -/
def loadLpn (obj : Value) (features : Features) : Except Abort Features :=
  match obj.get strLpn with
  | some value => do
      if ← isOn value then
        .ok { features with
          current := bitSet features.current lpnFeatureBitofs
          target := bitSet features.target lpnFeatureBitofs }
      else
        .ok { features with
          current := bitClr features.current lpnFeatureBitofs
          target := bitClr features.target lpnFeatureBitofs }
  | none => .ok features

/-- `_load_features`: the bits are cleared first and set again from the members, in the order in
which they are read. -/
def loadFeatures (obj : Value) (config : MeshConfig) : Except Abort MeshConfig :=
  match obj.get strFeatures with
  | none => .ok { config with features := config.features.cleared }
  | some value => do
      match ← loadRelay value config.features.cleared with
      | none => .ok { config with features := config.features.cleared }
      | some features => do
          let features ← loadSwitch strFriend friendBitofs value features
          let features ← loadSwitch strProxy proxyBitofs value features
          let features ← loadLpn value features
          .ok { config with features := features }

/-- The loaders that nodes and templates share, in their order. -/
def loadConfig (obj : Value) (config : MeshConfig) : Except Abort MeshConfig := do
  let config ← loadTtl obj config
  let config ← loadPub obj config
  let config ← loadSnb obj config
  let config ← loadTxp obj config
  let config ← loadBindings obj config
  let config ← loadSublist obj config
  loadFeatures obj config

/-! ## Templates -/

/-- The tree of templates.  A template is what `loadConfig` loads, under its id. -/
abbrev Templates := Std.TreeMap UInt16 MeshConfig

/-- `load_to_tmpl_item`. -/
def loadToTmplItem : Value → MeshConfig → Except Abort MeshConfig := loadConfig

/-- What `calloc` returns for a configuration. -/
def MeshConfig.zeroed : MeshConfig := Node.zeroed.config

/-- `alloc_copy_u16list`, into a field that is `NULL`: an empty list is not copied. -/
def allocCopyU16List (source : Uint16List) : Option Uint16List :=
  if source.len = 0 then none
  else some { len := source.len, data := source.data.take source.len.toNat }

/-- An optional field of a template goes to the node if the node has none, with a
change of the features. -/
def inheritTtl (tmpl config : MeshConfig) : MeshConfig :=
  match tmpl.ttl, config.ttl with
  | some ttl, none =>
      { config with
        ttl := some ttl, features := setFeatureConfig config.features ttlBitofs true }
  | _, _ => config

def inheritSublist (tmpl config : MeshConfig) : MeshConfig :=
  match tmpl.sublist, config.sublist with
  | some sublist, none => { config with sublist := allocCopyU16List sublist }
  | _, _ => config

def inheritSnb (tmpl config : MeshConfig) : MeshConfig :=
  match tmpl.snb, config.snb with
  | some snb, none =>
      { config with
        snb := some snb, features := setFeatureConfig config.features snbBitofs true }
  | _, _ => config

/-- The four lowest bits of both feature maps are clear. -/
def Features.blank (features : Features) : Bool :=
  features.target &&& 0xF == 0 && features.current &&& 0xF == 0

def inheritFeatures (tmpl config : MeshConfig) : Except Abort MeshConfig :=
  if config.features.blank then
    if config.features.relayTxp.isSome then .error .relayPresent
    else
      .ok { config with features :=
        { target := config.features.target ||| (tmpl.features.target &&& 0xF)
          current := config.features.current ||| (tmpl.features.current &&& 0xF)
          relayTxp := tmpl.features.relayTxp } }
  else .ok config

def inheritPub (tmpl config : MeshConfig) : MeshConfig :=
  match tmpl.pub, config.pub with
  | some pub, none => { config with pub := some pub }
  | _, _ => config

def inheritNetTxp (tmpl config : MeshConfig) : MeshConfig :=
  match tmpl.netTxp, config.netTxp with
  | some txp, none =>
      { config with
        netTxp := some txp, features := setFeatureConfig config.features nettxBitofs true }
  | _, _ => config

def inheritBindings (tmpl config : MeshConfig) : MeshConfig :=
  match tmpl.bindings, config.bindings with
  | some bindings, none => { config with bindings := allocCopyU16List bindings }
  | _, _ => config

/-- `__copy_tmpl_to_node`, field by field in its order. -/
def copyTmplToNode (tmpl config : MeshConfig) : Except Abort MeshConfig := do
  let config ← inheritFeatures tmpl
    (inheritSnb tmpl (inheritSublist tmpl (inheritTtl tmpl config)))
  .ok (inheritBindings tmpl (inheritNetTxp tmpl (inheritPub tmpl config)))

/-- What the `Template ID` member holds, given the place of a new cell. -/
def tmplField (fresh : UInt64) (obj : Value) : Except Abort TmplField :=
  match obj.get strTmpl with
  | none | some .null => .ok .absent
  | some value => do
      match ← uint8Loader value with
      | none => .ok .malformed
      | some id => .ok (.present fresh id)

/-- `_load_tmpl`. -/
def loadTmpl (templates : Templates) (fresh : UInt64) (obj : Value) (node : Node) :
    Except Abort Node := do
  let field ← tmplField fresh obj
  let node := { node with tmpl := field.load node.tmpl }
  match field with
  | .present _ id =>
      match templates[id.toUInt16]? with
      | some tmpl => do
          let config ← copyTmplToNode tmpl node.config
          .ok { node with config := config }
      | none => .ok node
  | _ => .ok node

/-- `load_to_node_item`: the members of the node come first, and the template fills in what they
leave. -/
def loadToNodeItem (templates : Templates) (fresh : UInt64) (obj : Value) (node : Node) :
    Except Abort Node := do
  let config ← loadConfig obj node.config
  loadTmpl templates fresh obj { node with config := config }

end Nwmng
