/-
Module: Nwmng.Cfg.ProvFile
Purpose: The provisioner's file: loading the address, the network key and the
application keys, and the functions that write one of their fields.
Trusted boundary: a saved tree is read back as it was
Main exports:
  loadKey, loadProvself, ProvJson, ProvState, ProvWrite, writeProvself, provset,
  provCfgOpen, loadProvFile
-/
import Nwmng.Cfg.NodesFile

namespace Nwmng

open Json Fallible

def strValue : String := "Value"
def strIvi : String := "IVI"
def strTimeout : String := "Config Timeout"
def strTimeoutNormal : String := "Normal"
def strTimeoutLpn : String := "LPN"

/-! ## Loading -/

/-- The value of a key, written into the buffer that it had before. -/
def memberKey (buffer : Vector UInt8 16) (obj : Value) : Option (Vector UInt8 16) :=
  match (obj.get strValue).bind Value.text with
  | some text => str2cbuf text buffer
  | none => none

/-- `load_key`; `none` stands for an error. -/
def loadKey (obj : Value) (key : Meshkey) : Except Abort (Option Meshkey) := do
  match ← memberUint UInt16.ofNat obj strRefid with
  | none => .ok none
  | some refid =>
      match ← memberUint UInt16.ofNat obj strId with
      | none => .ok none
      | some id =>
          match memberKey key.val obj with
          | none => .ok none
          | some val =>
              match ← memberUint UInt8.ofNat obj strDone with
              | none => .ok none
              | some done => .ok (some { refid := refid, id := id, done := done, val := val })

/-- The loop over the application keys, each into its place. -/
def loadKeys : List Value → List Meshkey → Except Abort (Option (List Meshkey))
  | [], keys => .ok (some keys)
  | _ :: _, [] => .error .outOfBounds
  | item :: items, key :: keys => do
      match ← loadKey item key with
      | none => .ok none
      | some loaded =>
          let rest ← loadKeys items keys
          .ok (rest.map (loaded :: ·))

def Meshkey.zeroed : Meshkey :=
  { refid := 0, id := 0, done := 0, val := Vector.replicate 16 0 }

/-- What `calloc` returns for a subnet with room for the application keys. -/
def Subnet.zeroed (appkeyNum : Nat) : Subnet where
  appkeyNum := 0
  activeAppkeyNum := 0
  netkey := .zeroed
  appkey := List.replicate appkeyNum .zeroed

/-- The subnet that is loaded into: a new one when there is none, or when it has no room
for the application keys. -/
def allocSubnet (appkeyNum : Nat) : List Subnet → Subnet
  | [] => .zeroed appkeyNum
  | subnet :: _ => if subnet.appkeyNum.toNat < appkeyNum then .zeroed appkeyNum else subnet

/-- The keys of the primary subnet. -/
def loadSubnet (primary : Value) (keys : List Value) (subnet : Subnet) :
    Except Abort (Option Subnet) := do
  match ← loadKey primary subnet.netkey with
  | none => .ok none
  | some netkey =>
      match ← loadKeys keys subnet.appkey with
      | none => .ok none
      | some appkey =>
          .ok (some { subnet with
            appkeyNum := UInt8.ofNat keys.length, netkey := netkey, appkey := appkey })

/-- `_load_ttl`, for the provisioner. -/
def loadProvTtl (root : Value) (cfg : ProvCfg) : Except Abort ProvCfg :=
  match root.get strTtl with
  | none => .ok { cfg with ttl := none }
  | some value => do
      let ttl ← uint8Loader value
      .ok { cfg with ttl := ttl }

/-- `_load_txp`, for the provisioner. -/
def loadProvTxp (root : Value) (cfg : ProvCfg) : Except Abort ProvCfg :=
  match root.get strTxp with
  | none => .ok { cfg with netTxp := none }
  | some value => do
      let txp ← loadTxparam value (cfg.netTxp.getD .zeroed)
      .ok { cfg with netTxp := txp }

def Timeout.zeroed : Timeout := { normal := 0, lpn := 0 }

/-- One of the timeouts, if it is there. -/
def timeoutMember (obj : Value) (key : String) (before : UInt32) :
    Except Abort (Option UInt32) :=
  match obj.get key with
  | some value => uint32Loader value
  | none => .ok (some before)

/-- `_load_timeout`. -/
def loadTimeout (root : Value) (cfg : ProvCfg) : Except Abort ProvCfg :=
  match root.get strTimeout with
  | none => .ok { cfg with timeout := none }
  | some value => do
      let timeout := cfg.timeout.getD .zeroed
      match ← timeoutMember value strTimeoutNormal timeout.normal with
      | none => .ok { cfg with timeout := none }
      | some normal =>
          let lpn ← timeoutMember value strTimeoutLpn timeout.lpn
          .ok { cfg with timeout := lpn.map fun lpn => { normal := normal, lpn := lpn } }

/-- `load_provself`; `none` stands for an error, after which the array of subnets is freed
and still pointed to.  The stamp is checked here, and kept nowhere in this model. -/
def loadProvself (root : Value) (cfg : ProvCfg) : Except Abort (Option ProvCfg) := do
  match ← memberUint UInt16.ofNat root strAddr with
  | none => .ok none
  | some addr =>
      match ← memberUint UInt32.ofNat root strSyncTime with
      | none => .ok none
      | some _ =>
          match ← memberUint UInt32.ofNat root strIvi with
          | none => .ok none
          | some ivi => do
              let cfg ← loadProvTtl root { cfg with addr := addr, ivi := ivi }
              let cfg ← loadProvTxp root cfg
              let cfg ← loadTimeout root cfg
              match root.get strSubnets with
              | none => .ok none
              | some (.array (primary :: _)) =>
                  match primary.get strAppkey with
                  | some (.array keys) => do
                      let subnet ← loadSubnet primary keys (allocSubnet keys.length cfg.subnets)
                      .ok (subnet.map fun subnet =>
                        { cfg with subnets := subnet :: cfg.subnets.tail })
                  -- the length of what is no array, or not there
                  | _ => .error .jsonType
              | some _ => .error .jsonType

/-- The configuration before anything was loaded. -/
def ProvCfg.zeroed : ProvCfg :=
  { addr := 0, ivi := 0, subnets := [], ttl := none, netTxp := none, timeout := none }

/-!
## Writing

A write changes the configuration and the tree in memory at once, and the save follows.  Keys are
found by their reference in the configuration and by their place in the tree.
-/

/-- The part of `json_cfg_t` for the provisioner's file.  The pointers to the objects of
the keys lead into the tree. -/
structure ProvJson where
  root : Option Value
  synctime : UInt32
  autoflush : Bool

/-- The configuration, the tree in memory, and the file on the disk. -/
structure ProvState where
  cfg : ProvCfg
  json : ProvJson
  file : SavedFile

/-- A field of the provisioner's configuration, with the value that is written.  The application
keys are addressed by their references, as their callers do. -/
inductive ProvWrite where
  | addr (value : UInt16)
  | ivi (value : UInt32)
  | netkeyId (value : UInt16)
  | netkeyVal (value : Vector UInt8 16)
  | netkeyDone (value : UInt8)
  | appkeyId (refid : UInt16) (value : UInt16)
  | appkeyDone (refid : UInt16) (value : UInt8)
deriving Repr, DecidableEq

/-- `jcfg.prov.keys.netkey`. -/
def netkeyPath : List Step := [.member strSubnets, .item 0]

/-- An item of `jcfg.prov.keys.appkey_arr`. -/
def appkeyPath (index : Nat) : List Step := netkeyPath ++ [.member strAppkey, .item index]

/-- A change of the network key, in the configuration and in the tree. -/
def provselfSetnetkey (change : Meshkey → Meshkey) (key : String) (text : List Char)
    (cfg : ProvCfg) (root : Value) : Except Abort (ProvCfg × Value) :=
  match cfg.subnets with
  | [] => .error .fieldMissing
  | subnet :: others =>
      .ok ({ cfg with subnets := { subnet with netkey := change subnet.netkey } :: others },
        root.amend netkeyPath (kvReplace key text))

/-- A change of the first application key with a reference: by its reference in the
configuration, and by its index in the tree. -/
def provselfSetappkey (refid : UInt16) (change : Meshkey → Meshkey) (key : String)
    (text : List Char) (cfg : ProvCfg) (root : Value) : Except Abort (ProvCfg × Value) :=
  match cfg.subnets with
  | [] => .error .fieldMissing
  | subnet :: others =>
      match (subnet.appkey.take subnet.appkeyNum.toNat).findIdx? (·.refid == refid) with
      | none => .ok (cfg, root)
      | some index =>
          .ok ({ cfg with
              subnets := { subnet with appkey := subnet.appkey.modify index change } :: others },
            root.amend (appkeyPath index) (kvReplace key text))

def provselfSetaddr (value : UInt16) (cfg : ProvCfg) (root : Value) :
    Except Abort (ProvCfg × Value) :=
  .ok ({ cfg with addr := value }, kvReplace strAddr (uint16ToStr value) root)

def provselfSetivi (value : UInt32) (cfg : ProvCfg) (root : Value) :
    Except Abort (ProvCfg × Value) :=
  .ok ({ cfg with ivi := value }, kvReplace strIvi (uint32ToStr value) root)

def provselfSetnetkeyid (value : UInt16) : ProvCfg → Value → Except Abort (ProvCfg × Value) :=
  provselfSetnetkey (fun key => { key with id := value }) strId (uint16ToStr value)

def provselfSetnetkeyval (value : Vector UInt8 16) :
    ProvCfg → Value → Except Abort (ProvCfg × Value) :=
  provselfSetnetkey (fun key => { key with val := value }) strValue (cbuf2str value)

def provselfSetnetkeydone (value : UInt8) :
    ProvCfg → Value → Except Abort (ProvCfg × Value) :=
  provselfSetnetkey (fun key => { key with done := value }) strDone (uint8ToStr value)

def provselfSetappkeyid (refid value : UInt16) :
    ProvCfg → Value → Except Abort (ProvCfg × Value) :=
  provselfSetappkey refid (fun key => { key with id := value }) strId (uint16ToStr value)

def provselfSetappkeydone (refid : UInt16) (value : UInt8) :
    ProvCfg → Value → Except Abort (ProvCfg × Value) :=
  provselfSetappkey refid (fun key => { key with done := value }) strDone (uint8ToStr value)

/-- The field that a write selects in `write_provself`. -/
def ProvWrite.run : ProvWrite → ProvCfg → Value → Except Abort (ProvCfg × Value)
  | .addr value => provselfSetaddr value
  | .ivi value => provselfSetivi value
  | .netkeyId value => provselfSetnetkeyid value
  | .netkeyVal value => provselfSetnetkeyval value
  | .netkeyDone value => provselfSetnetkeydone value
  | .appkeyId refid value => provselfSetappkeyid refid value
  | .appkeyDone refid value => provselfSetappkeydone refid value

/-- `json_cfg_flush`, for the provisioner's file. -/
def ProvState.jsonCfgFlush (clock : SaveClock) (prov : ProvState) : ProvState :=
  match prov.json.root with
  | none => prov
  | some root =>
      let stamp := UInt32.ofNat clock.time
      let stamped := kvReplace strSyncTime (uint32ToStr stamp) root
      { prov with
        json := { prov.json with root := some stamped, synctime := stamp }
        file := { content := some stamped, mtime := clock.mtime } }

/-- `write_provself`, behind the test of `json_cfg_write`; `false` stands for an error. -/
def ProvState.write (clock : SaveClock) (write : ProvWrite) (prov : ProvState) :
    Except Abort (Bool × ProvState) :=
  match prov.json.root with
  | none => .ok (false, prov)
  | some root => do
      let (cfg, root) ← write.run prov.cfg root
      let prov := { prov with cfg := cfg, json := { prov.json with root := some root } }
      .ok (true, if prov.json.autoflush then prov.jsonCfgFlush clock else prov)

/-! ## Opening -/

/-- The objects of the keys of `__new_prov_file`, before the application keys are added. -/
def newProvKey : Value :=
  .object
    [(strRefid, .string "0x0000".toList),
      (strId, .string "0x0000".toList),
      (strValue, .string "9ddb055fdbe5e0320b56b5c192cc5683".toList),
      (strDone, .string "0x00".toList)]

/-- `__new_prov_file`: what is saved when there is no file. -/
def newProvFile : Value :=
  .object
    [(strAddr, .string "0x0000".toList),
      (strIvi, .string "0x00000000".toList),
      (strTtl, .string "0x09".toList),
      (strSyncTime, .string "0x00000000".toList),
      (strTxp, .object
        [(strCnt, .string "0x03".toList), (strIntv, .string "0x001E".toList)]),
      (strTimeout, .object
        [(strTimeoutNormal, .string "0x1388".toList),
          (strTimeoutLpn, .string "0x3A98".toList)]),
      (strSubnets, .array [newProvKey.set strAppkey (.array [newProvKey])])]

/-- `json_cfg_open` without the test of the time stamps, for a file that exists.  A file that
cannot be parsed has no root. -/
def ProvState.jsonCfgOpen (prov : ProvState) : Except Abort (Bool × ProvState) :=
  match prov.file.content with
  | none | some .null =>
      .ok (false, { prov with json := { prov.json with root := none, autoflush := true } })
  | some root => do
      let synctime ← loadSynctime root prov.json.synctime
      match ← loadProvself root prov.cfg with
      | none =>
          .ok (false, { prov with
            json := { root := none, synctime := synctime, autoflush := true } })
      | some cfg =>
          .ok (true, { prov with
            cfg := cfg
            json := { root := some root, synctime := synctime, autoflush := true } })

/-- `load_cfg_file`, with a forced load. -/
def ProvState.loadCfgFile (clock : SaveClock) (prov : ProvState) :
    Except Abort (Bool × ProvState) := do
  let (loaded, prov) ← prov.jsonCfgOpen
  .ok (loaded, if loaded then prov.jsonCfgFlush clock else prov)

/-- The program before it has opened a file. -/
def ProvState.zeroed (file : SavedFile) : ProvState where
  cfg := .zeroed
  json := { root := none, synctime := 0, autoflush := false }
  file := file

end Nwmng
