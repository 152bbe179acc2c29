/-
Module: Nwmng.Cfg.Settings
Purpose: What a JSON object asks for, apart from the record it is loaded into, and how
a record takes it.
Trusted boundary: none
Main exports:
  TxpPatch, Settings, Settings.apply, settingsOf, loadConfig_eq
-/
import Nwmng.Lib.Fallible
import Nwmng.Cfg.Loaders

namespace Nwmng

open Json Fallible

/-!
## Settings

What a loader does depends on the object and on the record.  `Settings` holds the part that
depends on the object alone, and `Settings.apply` what a record makes of it.
-/

/-- The transmission parameters that are given.  What is not given keeps the value that the
record had. -/
structure TxpPatch where
  cnt : Option UInt8
  intv : Option UInt16
deriving Repr, DecidableEq

def TxpPatch.apply (patch : TxpPatch) (txp : Txparam) : Txparam where
  cnt := patch.cnt.getD txp.cnt
  intv := patch.intv.getD txp.intv

/-- What an object asks for.  A field that is absent or malformed is `none`; the
publication and the transmission parameters change the values a record has.  The
features are those of the `Features` member, in the four lowest bits. -/
structure Settings where
  ttl : Option UInt8
  pub : Option (Publication → Publication)
  snb : Option UInt8
  netTxp : Option TxpPatch
  bindings : Option Uint16List
  sublist : Option Uint16List
  features : Features

def Features.zeroed : Features := { target := 0, current := 0, relayTxp := none }

/-- The bits of the `Features` member replace those of a record. -/
def Features.merge (own given : Features) : Features where
  target := own.cleared.target ||| given.target
  current := own.cleared.current ||| given.current
  relayTxp := given.relayTxp

/-- Set the bits of a feature when there is something to set. -/
def Features.mark (features : Features) (which : Nat) : Option Bool → Features
  | some on => setFeatureConfig features which on
  | none => features

/-- The features behind the optional fields. -/
def Settings.marked (settings : Settings) (features : Features) : Features :=
  let features := features.mark ttlBitofs (settings.ttl.map fun _ => true)
  let features := features.mark snbBitofs (settings.snb.map (· != 0))
  features.mark nettxBitofs (settings.netTxp.map fun _ => true)

/-- The configuration that a record has afterwards. -/
def Settings.apply (settings : Settings) (config : MeshConfig) : MeshConfig where
  ttl := settings.ttl
  snb := settings.snb
  netTxp := settings.netTxp.map (·.apply (config.netTxp.getD .zeroed))
  features := (settings.marked config.features).merge settings.features
  pub := settings.pub.map (· (config.pub.getD .zeroed))
  bindings := settings.bindings
  sublist := settings.sublist

/-! ## Reading the settings -/

/-- The member `key` of an object, read by a function; absent and malformed members
are the same. -/
def readMember {α : Type} (read : Value → Except Abort (Option α)) (obj : Value)
    (key : String) : Except Abort (Option α) :=
  match obj.get key with
  | some value => read value
  | none => .ok none

/-- An optional member of an object: absent is different from malformed. -/
def readOptional {α : Type} (read : Value → Except Abort (Option α)) (obj : Value)
    (key : String) : Except Abort (Option (Option α)) :=
  match obj.get key with
  | some value => do
      let read ← read value
      .ok (read.map some)
  | none => .ok (some none)

def readTxpPatch (obj : Value) : Except Abort (Option TxpPatch) := do
  match ← readOptional uint8Loader obj strCnt with
  | none => .ok none
  | some cnt => do
      let intv ← readOptional uint16Loader obj strIntv
      .ok (intv.map fun intv => { cnt := cnt, intv := intv })

/-- What one member does to the publication. -/
def readPubField (key : String) (value : Value) :
    Except Abort (Option (Publication → Publication)) :=
  if key = strAddr then do
    let addr ← uint16Loader value
    .ok (addr.map fun addr pub => { pub with addr := addr })
  else if key = strAppkey then do
    let aki ← uint16Loader value
    .ok (aki.map fun aki pub => { pub with aki := aki })
  else if key = strPeriod then do
    let period ← uint32Loader value
    .ok (period.map fun period pub => { pub with period := period })
  else if key = strTtl then do
    let ttl ← uint8Loader value
    .ok (ttl.map fun ttl pub => { pub with ttl := ttl })
  else if key = strTxp then do
    let patch ← readTxpPatch value
    .ok (patch.map fun patch pub => { pub with txp := clampPubTxp (patch.apply pub.txp) })
  else .ok (some id)

def readPubFields :
    List (String × Value) → Except Abort (Option (Publication → Publication))
  | [] => .ok (some id)
  | (key, value) :: rest => do
      match ← readPubField key value with
      | none => .ok none
      | some change => do
          let changes ← readPubFields rest
          .ok (changes.map (· ∘ change))

def readPub : Value → Except Abort (Option (Publication → Publication))
  | .object members => readPubFields members
  | _ => .error .jsonType

/-- The features of a record that had none. -/
def readFeatures (value : Value) : Except Abort (Option Features) := do
  match ← loadRelay value .zeroed with
  | none => .ok none
  | some features => do
      let features ← loadSwitch strFriend friendBitofs value features
      let features ← loadSwitch strProxy proxyBitofs value features
      let features ← loadLpn value features
      .ok (some features)

/-- What an object asks for. -/
def settingsOf (obj : Value) : Except Abort Settings := do
  let ttl ← readMember uint8Loader obj strTtl
  let pub ← readMember readPub obj strPub
  let snb ← readMember uint8Loader obj strSnb
  let netTxp ← readMember readTxpPatch obj strTxp
  let bindings ← readMember loadUint16List obj strBind
  let sublist ← readMember loadUint16List obj strSub
  let features ← readMember readFeatures obj strFeatures
  .ok { ttl := ttl, pub := pub, snb := snb, netTxp := netTxp, bindings := bindings
        sublist := sublist, features := features.getD .zeroed }

/-!
## The loaders apply the settings

That the two together are the loaders of the source is proved here, loader by loader.  From this
point on no proof looks into the loaders again.
-/

section

variable (obj : Value) (config : MeshConfig)

theorem loadTtl_eq :
    loadTtl obj config = readMember uint8Loader obj strTtl >>= fun ttl =>
      .ok { config with
        ttl := ttl
        features := config.features.mark ttlBitofs (ttl.map fun _ => true) } := by
  unfold loadTtl readMember
  cases obj.get strTtl with
  | none => rfl
  | some value =>
      dsimp only
      cases uint8Loader value with
      | error abort => rfl
      | ok ttl => cases ttl <;> rfl

theorem loadSnb_eq :
    loadSnb obj config = readMember uint8Loader obj strSnb >>= fun snb =>
      .ok { config with
        snb := snb
        features := config.features.mark snbBitofs (snb.map (· != 0)) } := by
  unfold loadSnb readMember
  cases obj.get strSnb with
  | none => rfl
  | some value =>
      dsimp only
      cases uint8Loader value with
      | error abort => rfl
      | ok snb => cases snb <;> rfl

theorem loadTxparam_eq (txp : Txparam) :
    loadTxparam obj txp = readTxpPatch obj >>= fun patch =>
      .ok (patch.map (·.apply txp)) := by
  unfold loadTxparam readTxpPatch readOptional
  cases obj.get strCnt with
  | none =>
      cases obj.get strIntv with
      | none => rfl
      | some value =>
          simp only [ok_bind]
          cases uint16Loader value with
          | error abort => rfl
          | ok intv => cases intv <;> rfl
  | some value =>
      simp only
      cases uint8Loader value with
      | error abort => rfl
      | ok cnt =>
          cases cnt with
          | none => rfl
          | some cnt =>
              simp only [ok_bind, Option.map_some]
              cases obj.get strIntv with
              | none => rfl
              | some other =>
                  simp only
                  cases uint16Loader other with
                  | error abort => rfl
                  | ok intv => cases intv <;> rfl

theorem loadTxp_eq :
    loadTxp obj config = readMember readTxpPatch obj strTxp >>= fun patch =>
      .ok { config with
        netTxp := patch.map (·.apply (config.netTxp.getD .zeroed))
        features := config.features.mark nettxBitofs (patch.map fun _ => true) } := by
  unfold loadTxp readMember
  cases obj.get strTxp with
  | none => rfl
  | some value =>
      simp only [loadTxparam_eq]
      cases readTxpPatch value with
      | error abort => rfl
      | ok patch => cases patch <;> rfl

theorem loadPubField_eq (key : String) (value : Value) (pub : Publication) :
    loadPubField key value pub = readPubField key value >>= fun change =>
      .ok (change.map (· pub)) := by
  unfold loadPubField readPubField
  split
  · cases uint16Loader value with
    | error abort => rfl
    | ok addr => cases addr <;> rfl
  · split
    · cases uint16Loader value with
      | error abort => rfl
      | ok aki => cases aki <;> rfl
    · split
      · cases uint32Loader value with
        | error abort => rfl
        | ok period => cases period <;> rfl
      · split
        · cases uint8Loader value with
          | error abort => rfl
          | ok ttl => cases ttl <;> rfl
        · split
          · rw [loadTxparam_eq]
            cases readTxpPatch value with
            | error abort => rfl
            | ok patch => cases patch <;> rfl
          · rfl

theorem loadPubFields_eq (members : List (String × Value)) (pub : Publication) :
    loadPubFields members pub = readPubFields members >>= fun changes =>
      .ok (changes.map (· pub)) := by
  induction members generalizing pub with
  | nil => rfl
  | cons member rest hypothesis =>
      obtain ⟨key, value⟩ := member
      simp only [loadPubFields, readPubFields, loadPubField_eq]
      cases readPubField key value with
      | error abort => rfl
      | ok change =>
          cases change with
          | none => rfl
          | some change =>
              simp only [ok_bind, Option.map_some, hypothesis]
              cases readPubFields rest with
              | error abort => rfl
              | ok changes => cases changes <;> rfl

theorem loadPub_eq :
    loadPub obj config = readMember readPub obj strPub >>= fun pub =>
      .ok { config with pub := pub.map (· (config.pub.getD .zeroed)) } := by
  unfold loadPub readMember
  cases obj.get strPub with
  | none => rfl
  | some value =>
      cases value with
      | object members =>
          simp only [readPub, loadPubFields_eq]
          cases readPubFields members with
          | error abort => rfl
          | ok changes => rfl
      | _ => rfl

theorem loadBindings_eq :
    loadBindings obj config = readMember loadUint16List obj strBind >>= fun bindings =>
      .ok { config with bindings := bindings } := by
  unfold loadBindings readMember
  cases obj.get strBind <;> rfl

theorem loadSublist_eq :
    loadSublist obj config = readMember loadUint16List obj strSub >>= fun sublist =>
      .ok { config with sublist := sublist } := by
  unfold loadSublist readMember
  cases obj.get strSub <;> rfl

end

/-! ## The bits of the `Features` member -/

section

variable (own given : Features)

theorem mask_getLsbD (bit : Nat) :
    (0xFFF0#16).getLsbD bit = (decide (4 ≤ bit) && decide (bit < 16)) := by
  by_cases inside : bit < 16
  · have every : ∀ bit : Fin 16, (0xFFF0#16).getLsbD bit.val =
        (decide (4 ≤ bit.val) && decide (bit.val < 16)) := by
      decide
    exact every ⟨bit, inside⟩
  · rw [BitVec.getLsbD_of_ge _ _ (Nat.le_of_not_lt inside)]
    simp [inside]

theorem bitSet_merge (map bits : BitVec 16) (which : Nat) :
    bitSet (map ||| bits) which = map ||| bitSet bits which := by
  rw [bitSet, bitSet, BitVec.or_assoc]

theorem bitClr_merge {which : Nat} (low : which < 4) (map bits : BitVec 16) :
    bitClr (map &&& 0xFFF0#16 ||| bits) which = map &&& 0xFFF0#16 ||| bitClr bits which := by
  apply BitVec.eq_of_getLsbD_eq
  intro bit inside
  rw [getLsbD_bitClr, BitVec.getLsbD_or, BitVec.getLsbD_or, getLsbD_bitClr,
    BitVec.getLsbD_and, mask_getLsbD]
  by_cases same : which = bit
  · subst same
    have high : ¬ 4 ≤ which := Nat.not_le_of_lt low
    simp [high]
  · simp [same]

theorem merge_zeroed : own.merge .zeroed = own.cleared := by
  simp [Features.merge, Features.zeroed, Features.cleared]

/-- A low feature is set among the given ones. -/
theorem setFeatureConfig_merge {which : Nat} (low : which < 4) (on : Bool) :
    setFeatureConfig (own.merge given) which on =
      own.merge (setFeatureConfig given which on) := by
  cases on with
  | true =>
      simp [setFeatureConfig, Features.merge, Features.cleared, bitSet_merge,
        bitClr_merge low]
  | false =>
      simp [setFeatureConfig, Features.merge, Features.cleared, bitSet_merge,
        bitClr_merge low]

theorem loadEnable_merge (relay : Value) :
    loadEnable relay (own.merge given) = loadEnable relay given >>= fun features =>
      .ok (own.merge features) := by
  unfold loadEnable
  cases relay.get strEnable with
  | none => rfl
  | some value =>
      simp only
      cases isOn value with
      | error abort => rfl
      | ok on =>
          have low : relayBitofs < 4 := by decide
          simp only [ok_bind, setFeatureConfig_merge own given low]

theorem loadRelay_merge (obj : Value) :
    loadRelay obj (own.merge given) = loadRelay obj given >>= fun features =>
      .ok (features.map own.merge) := by
  unfold loadRelay
  cases obj.get strRelay with
  | none => rfl
  | some relay =>
      simp only [loadEnable_merge]
      cases loadEnable relay given with
      | error abort => rfl
      | ok features =>
          simp only [ok_bind]
          cases loadTxparam relay .zeroed with
          | error abort => rfl
          | ok txp => cases txp <;> rfl

theorem loadSwitch_merge {which : Nat} (low : which < 4) (key : String) (obj : Value) :
    loadSwitch key which obj (own.merge given) = loadSwitch key which obj given >>=
      fun features => .ok (own.merge features) := by
  unfold loadSwitch
  cases obj.get key with
  | none => rfl
  | some value =>
      simp only
      cases isOn value with
      | error abort => rfl
      | ok on => simp only [ok_bind, setFeatureConfig_merge own given low]

theorem loadLpn_merge (obj : Value) :
    loadLpn obj (own.merge given) = loadLpn obj given >>= fun features =>
      .ok (own.merge features) := by
  have low : lpnFeatureBitofs < 4 := by decide
  unfold loadLpn
  cases obj.get strLpn with
  | none => rfl
  | some value =>
      simp only
      cases isOn value with
      | error abort => rfl
      | ok on =>
          cases on with
          | true => simp [ok_bind, Features.merge, Features.cleared, bitSet_merge]
          | false => simp [ok_bind, Features.merge, Features.cleared, bitClr_merge low]

theorem loadFeatures_eq (obj : Value) (config : MeshConfig) :
    loadFeatures obj config = readMember readFeatures obj strFeatures >>= fun given =>
      .ok { config with features := config.features.merge (given.getD .zeroed) } := by
  unfold loadFeatures readMember
  cases obj.get strFeatures with
  | none =>
      simp only [ok_bind, Option.getD_none, merge_zeroed]
  | some value =>
      simp only [readFeatures]
      rw [← merge_zeroed, loadRelay_merge]
      cases loadRelay value .zeroed with
      | error abort => rfl
      | ok features =>
          cases features with
          | none => rfl
          | some features =>
              simp only [ok_bind, Option.map_some]
              rw [loadSwitch_merge _ _ (by decide)]
              cases loadSwitch strFriend friendBitofs value features with
              | error abort => rfl
              | ok features =>
                  simp only [ok_bind]
                  rw [loadSwitch_merge _ _ (by decide)]
                  cases loadSwitch strProxy proxyBitofs value features with
                  | error abort => rfl
                  | ok features =>
                      simp only [ok_bind, loadLpn_merge]
                      cases loadLpn value features with
                      | error abort => rfl
                      | ok features => rfl

end

/-- Loading an object applies its settings.  What a load does is thereby split in two: the
reading, which depends on the object only, and the application, which depends on the record. -/
theorem loadConfig_eq (obj : Value) (config : MeshConfig) :
    loadConfig obj config = settingsOf obj >>= fun settings => .ok (settings.apply config) := by
  simp only [loadConfig, settingsOf, loadTtl_eq, loadPub_eq, loadSnb_eq, loadTxp_eq,
    loadBindings_eq, loadSublist_eq, loadFeatures_eq, bind_assoc, ok_bind]
  rfl

/-! ## Inheritance -/

/-- A field that a node without it takes over from its template. -/
def newly {α : Type} (tmpl own : Option α) : Option Bool :=
  if tmpl.isSome && own.isNone then some true else none

/-- The features of a node whose own low bits are clear take over those of the
template. -/
def Features.adopt (own tmpl : Features) : Features where
  target := own.target ||| (tmpl.target &&& 0xF)
  current := own.current ||| (tmpl.current &&& 0xF)
  relayTxp := tmpl.relayTxp

/-- The features of a node when the template's low bits are looked at. -/
def MeshConfig.markedFrom (tmpl config : MeshConfig) : Features :=
  (config.features.mark ttlBitofs (newly tmpl.ttl config.ttl)).mark snbBitofs
    (newly tmpl.snb config.snb)

/-- The configuration of a node next to that of its template. -/
def MeshConfig.inherit (tmpl config : MeshConfig) : MeshConfig where
  ttl := config.ttl.or tmpl.ttl
  snb := config.snb.or tmpl.snb
  netTxp := config.netTxp.or tmpl.netTxp
  features :=
    let marked := tmpl.markedFrom config
    let adopted := if marked.blank then marked.adopt tmpl.features else marked
    adopted.mark nettxBitofs (newly tmpl.netTxp config.netTxp)
  pub := config.pub.or tmpl.pub
  bindings := config.bindings.or (tmpl.bindings.bind allocCopyU16List)
  sublist := config.sublist.or (tmpl.sublist.bind allocCopyU16List)

section

variable (tmpl config : MeshConfig)

theorem inheritTtl_eq :
    inheritTtl tmpl config = { config with
      ttl := config.ttl.or tmpl.ttl
      features := config.features.mark ttlBitofs (newly tmpl.ttl config.ttl) } := by
  rcases config with ⟨ttl, snb, netTxp, features, pub, bindings, sublist⟩
  unfold inheritTtl
  cases tmpl.ttl <;> cases ttl <;> rfl

theorem inheritSnb_eq :
    inheritSnb tmpl config = { config with
      snb := config.snb.or tmpl.snb
      features := config.features.mark snbBitofs (newly tmpl.snb config.snb) } := by
  rcases config with ⟨ttl, snb, netTxp, features, pub, bindings, sublist⟩
  unfold inheritSnb
  cases tmpl.snb <;> cases snb <;> rfl

theorem inheritNetTxp_eq :
    inheritNetTxp tmpl config = { config with
      netTxp := config.netTxp.or tmpl.netTxp
      features := config.features.mark nettxBitofs (newly tmpl.netTxp config.netTxp) } := by
  rcases config with ⟨ttl, snb, netTxp, features, pub, bindings, sublist⟩
  unfold inheritNetTxp
  cases tmpl.netTxp <;> cases netTxp <;> rfl

theorem inheritPub_eq :
    inheritPub tmpl config = { config with pub := config.pub.or tmpl.pub } := by
  rcases config with ⟨ttl, snb, netTxp, features, pub, bindings, sublist⟩
  unfold inheritPub
  cases tmpl.pub <;> cases pub <;> rfl

theorem inheritBindings_eq :
    inheritBindings tmpl config = { config with
      bindings := config.bindings.or (tmpl.bindings.bind allocCopyU16List) } := by
  rcases config with ⟨ttl, snb, netTxp, features, pub, bindings, sublist⟩
  unfold inheritBindings
  cases tmpl.bindings <;> cases bindings <;> rfl

theorem inheritSublist_eq :
    inheritSublist tmpl config = { config with
      sublist := config.sublist.or (tmpl.sublist.bind allocCopyU16List) } := by
  rcases config with ⟨ttl, snb, netTxp, features, pub, bindings, sublist⟩
  unfold inheritSublist
  cases tmpl.sublist <;> cases sublist <;> rfl

theorem relayTxp_mark (features : Features) (which : Nat) (on : Option Bool) :
    (features.mark which on).relayTxp = features.relayTxp := by
  cases on with
  | none => rfl
  | some on => cases on <;> rfl

/-- The assertion fails for a node with relay parameters and no low bit. -/
def MeshConfig.RelayClash : Prop :=
  (tmpl.markedFrom config).blank = true ∧ config.features.relayTxp.isSome = true

instance : Decidable (tmpl.RelayClash config) :=
  inferInstanceAs (Decidable (_ ∧ _))

theorem copyTmplToNode_eq :
    copyTmplToNode tmpl config =
      if tmpl.RelayClash config then .error .relayPresent else .ok (tmpl.inherit config) := by
  unfold copyTmplToNode
  rw [inheritSnb_eq, inheritSublist_eq, inheritTtl_eq]
  unfold inheritFeatures
  dsimp only
  change (if (tmpl.markedFrom config).blank = true then _ else _) >>= _ = _
  by_cases blank : (tmpl.markedFrom config).blank = true
  · rw [if_pos blank]
    have relay : (tmpl.markedFrom config).relayTxp = config.features.relayTxp := by
      rw [MeshConfig.markedFrom, relayTxp_mark, relayTxp_mark]
    by_cases clash : config.features.relayTxp.isSome = true
    · have both : tmpl.RelayClash config := ⟨blank, clash⟩
      rw [if_pos both]
      change (if (tmpl.markedFrom config).relayTxp.isSome = true then _ else _) >>= _ = _
      rw [relay, if_pos clash]
      rfl
    · have apart : ¬ tmpl.RelayClash config := fun both => clash both.2
      rw [if_neg apart]
      change (if (tmpl.markedFrom config).relayTxp.isSome = true then _ else _) >>= _ = _
      rw [relay, if_neg clash, ok_bind, inheritBindings_eq, inheritNetTxp_eq, inheritPub_eq]
      simp only [MeshConfig.inherit, blank, if_true]
      rfl
  · rw [if_neg blank, ok_bind, inheritBindings_eq, inheritNetTxp_eq, inheritPub_eq]
    have apart : ¬ tmpl.RelayClash config := fun both => blank both.1
    rw [if_neg apart]
    simp only [MeshConfig.inherit, if_neg blank]
    rfl

end

/-- The template id of an object; `none` when it is absent or malformed. -/
def templateId (obj : Value) : Option UInt8 :=
  match obj.get strTmpl with
  | some value =>
      match uint8Loader value with
      | .ok id => id
      | .error _ => none
  | none => none

/-- The template that an object names, if it is in the table. -/
def namedTemplate (templates : Templates) (obj : Value) : Option MeshConfig :=
  (templateId obj).bind fun id => templates[id.toUInt16]?

theorem tmplField_ok {fresh : UInt64} {obj : Value} {field : TmplField}
    (read : tmplField fresh obj = .ok field) :
    match templateId obj with
    | some id => field = .present fresh id
    | none => field = .absent ∨ field = .malformed := by
  unfold tmplField at read
  unfold templateId
  cases found : obj.get strTmpl with
  | none =>
      simp only [found, Except.ok.injEq] at read
      exact .inl read.symm
  | some value =>
      simp only [found] at read
      cases number : uint8Loader value with
      | error abort =>
          simp only [number]
          cases value with
          | null => exact .inl (Except.ok.inj read).symm
          | _ => simp only [number, error_bind] at read; cases read
      | ok id =>
          simp only [number]
          cases value with
          | null => cases number
          | _ =>
              simp only [number, ok_bind] at read
              cases id with
              | none => exact .inr (Except.ok.inj read).symm
              | some id => exact (Except.ok.inj read).symm

/-- What a loaded node has: the settings applied, and what the template adds. -/
theorem loadToNodeItem_ok {templates : Templates} {fresh : UInt64} {obj : Value}
    {node after : Node} (loaded : loadToNodeItem templates fresh obj node = .ok after) :
    ∃ settings, settingsOf obj = .ok settings ∧
      match namedTemplate templates obj with
      | none => after.config = settings.apply node.config
      | some tmpl =>
          ¬ tmpl.RelayClash (settings.apply node.config) ∧
            after.config = tmpl.inherit (settings.apply node.config) := by
  simp only [loadToNodeItem, loadConfig_eq, bind_ok, Except.ok.injEq] at loaded
  obtain ⟨config, ⟨settings, read, rfl⟩, loaded⟩ := loaded
  refine ⟨settings, read, ?_⟩
  simp only [loadTmpl, bind_ok] at loaded
  obtain ⟨field, named, loaded⟩ := loaded
  have which := tmplField_ok named
  unfold namedTemplate
  cases id : templateId obj with
  | none =>
      rw [id] at which
      rcases which with rfl | rfl <;>
        · cases loaded
          rfl
  | some id' =>
      rw [id] at which
      subst which
      simp only [Option.bind_some]
      cases found : templates[id'.toUInt16]? with
      | none =>
          simp only [found, Except.ok.injEq] at loaded
          rw [← loaded]
      | some tmpl =>
          simp only [found, bind_ok, copyTmplToNode_eq, Except.ok.injEq] at loaded
          obtain ⟨config, copied, rfl⟩ := loaded
          by_cases clash : tmpl.RelayClash (settings.apply node.config)
          · rw [if_pos clash] at copied
            cases copied
          · rw [if_neg clash] at copied
            exact ⟨clash, (Except.ok.inj copied).symm⟩

end Nwmng
