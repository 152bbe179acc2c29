/-
Module: Nwmng.Cfg.EntryMembers
Purpose: Which members of an entry the loader of a node comes to, and what they must hold
so that it never uses a text that is not there.
Trusted boundary: none
Main exports:
  NumberReadable, NumberMalformed, TxParamsReadable, PubReadable, ListReadable,
  FeaturesReadable, RelayAlone, MembersReadable, loads_iff_members
-/
import Mathlib.Data.Fintype.Option
import Nwmng.Cfg.Reload

namespace Nwmng

open Json Fallible

/-!
A loader takes the text of a member without a test, so a member that is `null` stops the
program; a text that is no number ends the reading of its object and is logged.  The
conditions here say this of the members of the entry alone.  They follow the order in which
the members are read, because what stands behind a malformed one is never looked at.
-/

/-! ## Numbers -/

/-- There is a text, and a number in it has at most 64 bits.  A `null` has no text, and longer
numbers are beyond what the reader is made for. -/
def NumberReadable (value : Value) : Prop :=
  ∃ text, value.text = some text ∧ ∃ number, str2uint text = .ok number

/-- There is a text, which is no number. -/
def NumberMalformed (value : Value) : Prop :=
  ∃ text, value.text = some text ∧ str2uint text = .ok none

theorem uintLoader_verdict {α : Type} (cut : Nat → α) (value : Value) :
    Verdict (NumberReadable value) (NumberMalformed value) (uintLoader cut value) := by
  unfold uintLoader textOf NumberReadable NumberMalformed
  cases value.text with
  | none => exact .fails _ (by simp)
  | some text =>
      simp only [ok_bind, Option.some.injEq]
      cases reads : str2uint text with
      | error abort => exact .fails abort (by simp [reads])
      | ok number =>
          cases number with
          | none => exact .refuses (by simp [reads]) (by simp [reads])
          | some number => exact .takes (cut number) (by simp [reads]) (by simp [reads])

/-- A member that is not there is not read. -/
theorem readOptional_verdict {α : Type} {read : Value → Except Abort (Option α)}
    {readable malformed : Value → Prop}
    (verdict : ∀ value, Verdict (readable value) (malformed value) (read value))
    (obj : Value) (key : String) :
    Verdict (∀ value, obj.get key = some value → readable value)
      (∃ value, obj.get key = some value ∧ malformed value) (readOptional read obj key) := by
  unfold readOptional
  cases obj.get key with
  | none => exact .takes none (by simp) (by simp)
  | some value => exact ((verdict value).map some).congr (by simp) (by simp)

theorem readMember_ok_iff {α : Type} {read : Value → Except Abort (Option α)}
    {readable : Value → Prop}
    (reads : ∀ value, (∃ result, read value = .ok result) ↔ readable value)
    (obj : Value) (key : String) :
    (∃ result, readMember read obj key = .ok result) ↔
      ∀ value, obj.get key = some value → readable value := by
  unfold readMember
  cases obj.get key with
  | none => simp
  | some value => simp [reads]

/-! ## Transmission parameters -/

/-- The count is readable, and so is the interval, which is read after it.  A malformed count
ends the loader before it comes to the interval, which may then be anything. -/
def TxParamsReadable (obj : Value) : Prop :=
  (∀ value, obj.get strCnt = some value → NumberReadable value) ∧
    ((¬ ∃ value, obj.get strCnt = some value ∧ NumberMalformed value) →
      ∀ value, obj.get strIntv = some value → NumberReadable value)

def TxParamsMalformed (obj : Value) : Prop :=
  (∃ value, obj.get strCnt = some value ∧ NumberMalformed value) ∨
    ∃ value, obj.get strIntv = some value ∧ NumberMalformed value

theorem readTxpPatch_verdict (obj : Value) :
    Verdict (TxParamsReadable obj) (TxParamsMalformed obj) (readTxpPatch obj) := by
  have asParts : readTxpPatch obj =
      readOptional uint8Loader obj strCnt >>= fun read => read.elim (.ok none) fun cnt =>
        readOptional uint16Loader obj strIntv >>= fun intv =>
          .ok (intv.map fun intv => { cnt := cnt, intv := intv }) := by
    unfold readTxpPatch
    cases readOptional uint8Loader obj strCnt with
    | error abort => rfl
    | ok cnt => cases cnt <;> rfl
  rw [asParts]
  exact (readOptional_verdict (uintLoader_verdict UInt8.ofNat) obj strCnt).andThen
    fun cnt _ => (readOptional_verdict (uintLoader_verdict UInt16.ofNat) obj strIntv).map _

/-! ## The publication -/

/-- The members of the publication that are numbers. -/
def pubNumbers : List String := [strAddr, strAppkey, strPeriod, strTtl]

/-- A member of the publication that the loader knows is readable; others are passed
over. -/
def PubMemberReadable (member : String × Value) : Prop :=
  (member.1 ∈ pubNumbers → NumberReadable member.2) ∧
    (member.1 = strTxp → TxParamsReadable member.2)

def PubMemberMalformed (member : String × Value) : Prop :=
  (member.1 ∈ pubNumbers ∧ NumberMalformed member.2) ∨
    (member.1 = strTxp ∧ TxParamsMalformed member.2)

theorem readPubField_verdict (key : String) (value : Value) :
    Verdict (PubMemberReadable (key, value)) (PubMemberMalformed (key, value))
      (readPubField key value) := by
  have number {α : Type} (cut : Nat → α) (change : α → Publication → Publication)
      (known : key ∈ pubNumbers) :
      Verdict (PubMemberReadable (key, value)) (PubMemberMalformed (key, value))
        (uintLoader cut value >>= fun read => .ok (read.map change)) := by
    have isOther : key ≠ strTxp := by
      rintro rfl
      exact absurd known (by decide)
    exact ((uintLoader_verdict cut value).map change).congr
      (by simp [PubMemberReadable, known, isOther])
      (by simp [PubMemberMalformed, known, isOther])
  unfold readPubField
  by_cases isAddr : key = strAddr
  · rw [if_pos isAddr]
    exact number UInt16.ofNat _ (by simp [pubNumbers, isAddr])
  by_cases isAppkey : key = strAppkey
  · rw [if_neg isAddr, if_pos isAppkey]
    exact number UInt16.ofNat _ (by simp [pubNumbers, isAppkey])
  by_cases isPeriod : key = strPeriod
  · rw [if_neg isAddr, if_neg isAppkey, if_pos isPeriod]
    exact number UInt32.ofNat _ (by simp [pubNumbers, isPeriod])
  by_cases isTtl : key = strTtl
  · rw [if_neg isAddr, if_neg isAppkey, if_neg isPeriod, if_pos isTtl]
    exact number UInt8.ofNat _ (by simp [pubNumbers, isTtl])
  have isOther : key ∉ pubNumbers := by
    simp [pubNumbers, isAddr, isAppkey, isPeriod, isTtl]
  rw [if_neg isAddr, if_neg isAppkey, if_neg isPeriod, if_neg isTtl]
  by_cases isTxp : key = strTxp
  · subst isTxp
    rw [if_pos rfl]
    exact ((readTxpPatch_verdict value).map _).congr
      (by simp [PubMemberReadable, isOther]) (by simp [PubMemberMalformed, isOther])
  · rw [if_neg isTxp]
    exact .takes id (by simp [PubMemberReadable, isOther, isTxp])
      (by simp [PubMemberMalformed, isOther, isTxp])

/-- The publication is an object, whose members are readable up to the first that is
malformed. -/
def PubReadable (value : Value) : Prop :=
  ∃ members, value = .object members ∧
    UpToFirst PubMemberMalformed PubMemberReadable members

theorem readPubFields_ok_iff (members : List (String × Value)) :
    (∃ result, readPubFields members = .ok result) ↔
      UpToFirst PubMemberMalformed PubMemberReadable members := by
  induction members with
  | nil => simp [readPubFields, UpToFirst]
  | cons member rest hypothesis =>
      obtain ⟨key, value⟩ := member
      have verdict := readPubField_verdict key value
      rw [readPubFields, UpToFirst, ← hypothesis]
      cases reads : readPubField key value with
      | error abort =>
          rw [reads] at verdict
          simp [← verdict.ok_iff, error_bind]
      | ok change =>
          have readable : PubMemberReadable (key, value) :=
            verdict.ok_iff.mp ⟨change, reads⟩
          cases change with
          | none => simp [readable, verdict.malformed_of_none reads, ok_bind]
          | some change =>
              have good := verdict.not_malformed_of_some reads
              simp only [ok_bind, readable, good, true_and, not_false_eq_true, forall_const]
              constructor
              · rintro ⟨result, read⟩
                obtain ⟨changes, later, _⟩ := bind_ok.mp read
                exact ⟨changes, later⟩
              · rintro ⟨changes, later⟩
                rw [later]
                exact ⟨_, rfl⟩

theorem readPub_ok_iff (value : Value) :
    (∃ result, readPub value = .ok result) ↔ PubReadable value := by
  unfold PubReadable
  cases value with
  | object members => simp [readPub, readPubFields_ok_iff]
  | _ => simp [readPub]

/-! ## Lists -/

/-- The items of an array are readable up to the first that is malformed; what is no array
is not read. -/
def ListReadable (value : Value) : Prop :=
  ∀ items, value = .array items → UpToFirst NumberMalformed NumberReadable items

theorem uint16Items_ok_iff (items : List Value) :
    (∃ result, uint16Items items = .ok result) ↔
      UpToFirst NumberMalformed NumberReadable items := by
  induction items with
  | nil => simp [uint16Items, UpToFirst]
  | cons value rest hypothesis =>
      have verdict : Verdict (NumberReadable value) (NumberMalformed value)
          (uint16Loader value) := uintLoader_verdict UInt16.ofNat value
      rw [uint16Items, UpToFirst, ← hypothesis]
      cases reads : uint16Loader value with
      | error abort =>
          rw [reads] at verdict
          simp [← verdict.ok_iff, error_bind]
      | ok item =>
          have readable : NumberReadable value := verdict.ok_iff.mp ⟨item, reads⟩
          cases item with
          | none => simp [readable, verdict.malformed_of_none reads, ok_bind]
          | some item =>
              have good := verdict.not_malformed_of_some reads
              simp only [ok_bind, readable, good, true_and, not_false_eq_true, forall_const]
              constructor
              · rintro ⟨result, read⟩
                obtain ⟨others, later, _⟩ := bind_ok.mp read
                exact ⟨others, later⟩
              · rintro ⟨others, later⟩
                rw [later]
                exact ⟨_, rfl⟩

theorem loadUint16List_ok_iff (value : Value) :
    (∃ result, loadUint16List value = .ok result) ↔ ListReadable value := by
  unfold ListReadable
  cases value with
  | array items =>
      simp only [loadUint16List, Value.array.injEq, forall_eq', ← uint16Items_ok_iff]
      constructor
      · rintro ⟨result, read⟩
        obtain ⟨numbers, reads, _⟩ := bind_ok.mp read
        exact ⟨numbers, reads⟩
      · rintro ⟨numbers, reads⟩
        rw [reads]
        exact ⟨_, rfl⟩
  | _ => simp [loadUint16List]

/-! ## Features

The `Relay` member comes first; its transmission parameters can be malformed, and the other
features are then left out.  A switch is compared with a text, which must be there. -/

/-- The texts that the `Relay` member needs are there. -/
def RelayReadable (relay : Value) : Prop :=
  (∀ enable, relay.get strEnable = some enable → enable ≠ .null) ∧ TxParamsReadable relay

/-- The switches that are read after the relay. -/
def switchKeys : List String := [strFriend, strProxy, strLpn]

def FeaturesReadable (value : Value) : Prop :=
  (∀ relay, value.get strRelay = some relay → RelayReadable relay) ∧
    ((¬ ∃ relay, value.get strRelay = some relay ∧ TxParamsMalformed relay) →
      ∀ key ∈ switchKeys, ∀ switch, value.get key = some switch → switch ≠ .null)

/-- The `Features` member holds transmission parameters of the relay, and no feature: the
relay is neither enabled nor disabled, nothing is said about friend and proxy, and the node
is no low power node. -/
def RelayAlone (value : Value) : Prop :=
  ∃ relay, value.get strRelay = some relay ∧ ¬ TxParamsMalformed relay ∧
    relay.get strEnable = none ∧ value.get strFriend = none ∧ value.get strProxy = none ∧
    ∀ low, value.get strLpn = some low → low.text ≠ some "0x01".toList

/-- What a switch says, if it is there. -/
def switchOf (obj : Value) (key : String) : Option Bool :=
  (obj.get key).map fun switch => switch.text == some "0x01".toList

/-- The low power bits say the same in both maps. -/
def Features.inform (features : Features) : Option Bool → Features
  | some true =>
      { features with
        current := bitSet features.current lpnFeatureBitofs
        target := bitSet features.target lpnFeatureBitofs }
  | some false =>
      { features with
        current := bitClr features.current lpnFeatureBitofs
        target := bitClr features.target lpnFeatureBitofs }
  | none => features

theorem isOn_of_ne {value : Value} (present : value ≠ .null) :
    isOn value = .ok (value.text == some "0x01".toList) := by
  cases value with
  | null => exact absurd rfl present
  | _ => rfl

section

variable {obj : Value} {key : String} {which : Nat} {features : Features}

theorem loadSwitch_eq (fine : ∀ switch, obj.get key = some switch → switch ≠ .null) :
    loadSwitch key which obj features = .ok (features.mark which (switchOf obj key)) := by
  unfold loadSwitch switchOf
  cases found : obj.get key with
  | none => rfl
  | some value =>
      dsimp only
      rw [isOn_of_ne (fine value found), ok_bind]
      rfl

theorem loadSwitch_ok_iff :
    (∃ after, loadSwitch key which obj features = .ok after) ↔
      ∀ switch, obj.get key = some switch → switch ≠ .null := by
  constructor
  · rintro ⟨after, load⟩ switch found rfl
    unfold loadSwitch at load
    rw [found] at load
    cases load
  · intro fine
    exact ⟨_, loadSwitch_eq fine⟩

theorem loadEnable_eq (fine : ∀ enable, obj.get strEnable = some enable → enable ≠ .null) :
    loadEnable obj features = .ok (features.mark relayBitofs (switchOf obj strEnable)) := by
  unfold loadEnable switchOf
  cases found : obj.get strEnable with
  | none => rfl
  | some value =>
      dsimp only
      rw [isOn_of_ne (fine value found), ok_bind]
      rfl

theorem loadEnable_ok_iff :
    (∃ after, loadEnable obj features = .ok after) ↔
      ∀ enable, obj.get strEnable = some enable → enable ≠ .null := by
  constructor
  · rintro ⟨after, load⟩ enable found rfl
    unfold loadEnable at load
    rw [found] at load
    cases load
  · intro fine
    exact ⟨_, loadEnable_eq fine⟩

theorem loadLpn_eq (fine : ∀ low, obj.get strLpn = some low → low ≠ .null) :
    loadLpn obj features = .ok (features.inform (switchOf obj strLpn)) := by
  unfold loadLpn switchOf
  cases found : obj.get strLpn with
  | none => rfl
  | some value =>
      dsimp only
      rw [isOn_of_ne (fine value found), ok_bind, Option.map_some]
      cases value.text == some "0x01".toList <;> rfl

theorem loadLpn_ok_iff :
    (∃ after, loadLpn obj features = .ok after) ↔
      ∀ low, obj.get strLpn = some low → low ≠ .null := by
  constructor
  · rintro ⟨after, load⟩ low found rfl
    unfold loadLpn at load
    rw [found] at load
    cases load
  · intro fine
    exact ⟨_, loadLpn_eq fine⟩

/-- What is read of the `Relay` member. -/
theorem loadRelay_verdict :
    Verdict (∀ relay, obj.get strRelay = some relay → RelayReadable relay)
      (∃ relay, obj.get strRelay = some relay ∧ TxParamsMalformed relay)
      (loadRelay obj features) := by
  unfold loadRelay RelayReadable
  cases obj.get strRelay with
  | none => exact .takes features (by simp) (by simp)
  | some relay =>
      simp only [Option.some.injEq, forall_eq', exists_eq_left']
      have parameters := readTxpPatch_verdict relay
      cases enables : loadEnable relay features with
      | error abort =>
          refine .fails abort fun both => ?_
          rw [loadEnable_eq both.1] at enables
          cases enables
      | ok after =>
          have fine := loadEnable_ok_iff.mp ⟨after, enables⟩
          rw [ok_bind, loadTxparam_eq]
          exact ((parameters.map _).map _).congr (and_iff_right fine).symm Iff.rfl

end

theorem readFeatures_ok_iff (value : Value) :
    (∃ result, readFeatures value = .ok result) ↔ FeaturesReadable value := by
  have verdict := @loadRelay_verdict value .zeroed
  unfold readFeatures FeaturesReadable
  rw [← verdict.ok_iff]
  cases reads : loadRelay value .zeroed with
  | error abort => simp [error_bind]
  | ok relayed =>
      cases relayed with
      | none =>
          have bad := verdict.malformed_of_none reads
          simp [ok_bind, bad]
      | some features =>
          have good := verdict.not_malformed_of_some reads
          simp only [ok_bind, Except.ok.injEq, exists_eq', true_and, good, not_false_eq_true,
            forall_const]
          constructor
          · rintro ⟨result, read⟩
            obtain ⟨friended, friends, read⟩ := bind_ok.mp read
            obtain ⟨proxied, proxies, read⟩ := bind_ok.mp read
            obtain ⟨informed, lows, _⟩ := bind_ok.mp read
            simp only [switchKeys, List.forall_mem_cons, List.not_mem_nil, false_implies,
              implies_true, and_true]
            exact ⟨loadSwitch_ok_iff.mp ⟨_, friends⟩, loadSwitch_ok_iff.mp ⟨_, proxies⟩,
              loadLpn_ok_iff.mp ⟨_, lows⟩⟩
          · intro switches
            rw [loadSwitch_eq (switches strFriend (by decide)), ok_bind,
              loadSwitch_eq (switches strProxy (by decide)), ok_bind,
              loadLpn_eq (switches strLpn (by decide)), ok_bind]
            exact ⟨_, rfl⟩

/-! ## The parameters of the relay alone -/

/-- What the four switches leave in a record that had no features. -/
def switchedFeatures (enable friend proxy low : Option Bool) : Features :=
  (((Features.zeroed.mark relayBitofs enable).mark friendBitofs friend).mark proxyBitofs
    proxy).inform low

theorem switchedFeatures_blank (enable friend proxy low : Option Bool) :
    (switchedFeatures enable friend proxy low).blank = true ↔
      enable = none ∧ friend = none ∧ proxy = none ∧ low ≠ some true := by
  revert enable friend proxy low
  decide

/-- With other parameters of the relay. -/
def Features.withTxp (features : Features) (txp : Option Txparam) : Features :=
  { features with relayTxp := txp }

@[simp] theorem blank_withTxp (features : Features) (txp : Option Txparam) :
    (features.withTxp txp).blank = features.blank := rfl

@[simp] theorem relayTxp_withTxp (features : Features) (txp : Option Txparam) :
    (features.withTxp txp).relayTxp = txp := rfl

theorem mark_withTxp (features : Features) (txp : Option Txparam) (which : Nat)
    (on : Option Bool) :
    (features.withTxp txp).mark which on = (features.mark which on).withTxp txp := by
  cases on with
  | none => rfl
  | some on => cases on <;> rfl

theorem inform_withTxp (features : Features) (txp : Option Txparam) (on : Option Bool) :
    (features.withTxp txp).inform on = (features.inform on).withTxp txp := by
  cases on with
  | none => rfl
  | some on => cases on <;> rfl

theorem switchOf_eq_none {obj : Value} {key : String} :
    switchOf obj key = none ↔ obj.get key = none := by
  simp [switchOf]

theorem switchOf_ne_on {obj : Value} {key : String} :
    switchOf obj key ≠ some true ↔
      ∀ switch, obj.get key = some switch → switch.text ≠ some "0x01".toList := by
  unfold switchOf
  cases obj.get key with
  | none => simp
  | some value => simp

/-- The `Relay` member has parameters, and its switch alone decides about the features. -/
theorem loadRelay_some {obj : Value} {features : Features}
    (read : loadRelay obj .zeroed = .ok (some features)) :
    (obj.get strRelay = none ∧ features = .zeroed) ∨
      ∃ relay txp, obj.get strRelay = some relay ∧ ¬ TxParamsMalformed relay ∧
        features =
          (Features.zeroed.mark relayBitofs (switchOf relay strEnable)).withTxp (some txp) := by
  have good := loadRelay_verdict.not_malformed_of_some read
  unfold loadRelay at read
  cases found : obj.get strRelay with
  | none =>
      rw [found] at read
      cases read
      exact .inl ⟨rfl, rfl⟩
  | some relay =>
      rw [found] at read
      dsimp only at read
      obtain ⟨enabled, enables, read⟩ := bind_ok.mp read
      rw [loadEnable_eq (loadEnable_ok_iff.mp ⟨_, enables⟩)] at enables
      cases enables
      obtain ⟨parameters, _, result⟩ := bind_ok.mp read
      cases parameters with
      | none => cases result
      | some parameters =>
          cases result
          exact .inr ⟨relay, _, rfl, fun bad => good ⟨relay, found, bad⟩, rfl⟩

/-- The `Features` member has parameters of the relay without a feature exactly when the
relay stands alone in it. -/
theorem readFeatures_clash_iff {value : Value} {given : Option Features}
    (read : readFeatures value = .ok given) :
    ((given.getD .zeroed).blank = true ∧ (given.getD .zeroed).relayTxp.isSome = true) ↔
      RelayAlone value := by
  unfold readFeatures at read
  obtain ⟨relayed, reads, read⟩ := bind_ok.mp read
  cases relayed with
  | none =>
      cases read
      obtain ⟨relay, found, bad⟩ := loadRelay_verdict.malformed_of_none reads
      constructor
      · rintro ⟨_, impossible⟩
        cases impossible
      · rintro ⟨other, same, good, _⟩
        rw [found] at same
        cases same
        exact absurd bad good
  | some features =>
      obtain ⟨friended, friends, read⟩ := bind_ok.mp read
      obtain ⟨proxied, proxies, read⟩ := bind_ok.mp read
      obtain ⟨informed, lows, result⟩ := bind_ok.mp read
      rw [loadSwitch_eq (loadSwitch_ok_iff.mp ⟨_, friends⟩)] at friends
      cases friends
      rw [loadSwitch_eq (loadSwitch_ok_iff.mp ⟨_, proxies⟩)] at proxies
      cases proxies
      rw [loadLpn_eq (loadLpn_ok_iff.mp ⟨_, lows⟩)] at lows
      cases lows
      cases result
      rw [Option.getD_some]
      rcases loadRelay_some reads with ⟨absent, rfl⟩ | ⟨relay, txp, found, good, rfl⟩
      · have zeroed : Features.zeroed = Features.zeroed.withTxp none := rfl
        rw [zeroed, mark_withTxp, mark_withTxp, inform_withTxp, relayTxp_withTxp]
        constructor
        · rintro ⟨_, impossible⟩
          cases impossible
        · rintro ⟨relay, found, _⟩
          rw [absent] at found
          cases found
      · rw [mark_withTxp, mark_withTxp, inform_withTxp, blank_withTxp, relayTxp_withTxp]
        have blank := switchedFeatures_blank (switchOf relay strEnable)
          (switchOf value strFriend) (switchOf value strProxy) (switchOf value strLpn)
        rw [switchOf_eq_none, switchOf_eq_none, switchOf_eq_none, switchOf_ne_on] at blank
        refine Iff.trans ⟨fun both => blank.mp both.1, fun alone => ⟨blank.mpr alone, rfl⟩⟩ ?_
        constructor
        · rintro ⟨enable, friend, proxy, low⟩
          exact ⟨relay, found, good, enable, friend, proxy, low⟩
        · rintro ⟨other, same, _, enable, friend, proxy, low⟩
          rw [found] at same
          cases same
          exact ⟨enable, friend, proxy, low⟩

/-!
## The entry

The parts come together in the order in which the loader of a node comes to them.  A malformed
member ends its own loader and nothing else, so each part is judged up to its first malformed
item only.
-/

/-- Every text that `load_to_node_item` uses is there, in the members of the entry that it
comes to, and the assertion of `__copy_tmpl_to_node` holds. -/
structure MembersReadable (templates : Templates) (obj : Value) : Prop where
  /-- a `null` is the same as no template -/
  template : ∀ value, obj.get strTmpl = some value → value ≠ .null → NumberReadable value
  numbers : ∀ key ∈ [strTtl, strSnb], ∀ value, obj.get key = some value → NumberReadable value
  publication : ∀ value, obj.get strPub = some value → PubReadable value
  parameters : ∀ value, obj.get strTxp = some value → TxParamsReadable value
  lists : ∀ key ∈ [strBind, strSub], ∀ value, obj.get key = some value → ListReadable value
  features : ∀ value, obj.get strFeatures = some value → FeaturesReadable value
  /-- relay parameters without a feature are asserted against, under a template -/
  relay : (namedTemplate templates obj).isSome = true →
    ∀ value, obj.get strFeatures = some value → ¬ RelayAlone value

theorem tmplField_of_ne (fresh : UInt64) {obj value : Value}
    (found : obj.get strTmpl = some value) (present : value ≠ .null) :
    tmplField fresh obj =
      uint8Loader value >>= fun id => .ok (id.elim .malformed (.present fresh)) := by
  unfold tmplField
  rw [found]
  cases value with
  | null => exact absurd rfl present
  | _ =>
      dsimp only
      cases uint8Loader _ with
      | error abort => rfl
      | ok id => cases id <;> rfl

theorem tmplField_ok_iff (fresh : UInt64) (obj : Value) :
    (∃ field, tmplField fresh obj = .ok field) ↔
      ∀ value, obj.get strTmpl = some value → value ≠ .null → NumberReadable value := by
  constructor
  · rintro ⟨field, read⟩ value found present
    rw [tmplField_of_ne fresh found present] at read
    obtain ⟨id, read, _⟩ := bind_ok.mp read
    exact (uintLoader_verdict UInt8.ofNat value).ok_iff.mp ⟨id, read⟩
  · intro readable
    cases found : obj.get strTmpl with
    | none => exact ⟨.absent, by rw [tmplField, found]⟩
    | some value =>
        by_cases isNull : value = .null
        · subst isNull
          exact ⟨.absent, by rw [tmplField, found]⟩
        · obtain ⟨id, read⟩ :=
            (uintLoader_verdict UInt8.ofNat value).ok_iff.mpr (readable value found isNull)
          have loads : uint8Loader value = .ok id := read
          rw [tmplField_of_ne fresh found isNull, loads]
          exact ⟨_, rfl⟩

theorem settingsOf_clashes_iff {obj : Value} {settings : Settings}
    (read : settingsOf obj = .ok settings) :
    settings.clashes = true ↔ ∃ value, obj.get strFeatures = some value ∧ RelayAlone value := by
  obtain ⟨features, featuresRead, same⟩ := (settingsOf_reads read).features
  rw [Settings.clashes, same, Bool.and_eq_true]
  unfold readMember at featuresRead
  cases found : obj.get strFeatures with
  | none =>
      rw [found] at featuresRead
      cases featuresRead
      simp [Features.zeroed]
  | some value =>
      rw [found] at featuresRead
      rw [readFeatures_clash_iff featuresRead]
      simp

/-- The members that are loaded into the configuration. -/
theorem settingsOf_ok_iff (obj : Value) :
    (∃ settings, settingsOf obj = .ok settings) ↔
      (∀ key ∈ [strTtl, strSnb], ∀ value, obj.get key = some value → NumberReadable value) ∧
        (∀ value, obj.get strPub = some value → PubReadable value) ∧
        (∀ value, obj.get strTxp = some value → TxParamsReadable value) ∧
        (∀ key ∈ [strBind, strSub], ∀ value, obj.get key = some value → ListReadable value) ∧
        ∀ value, obj.get strFeatures = some value → FeaturesReadable value := by
  have number := fun key => readMember_ok_iff
    (fun value => (uintLoader_verdict UInt8.ofNat value).ok_iff) obj key
  have publication := readMember_ok_iff readPub_ok_iff obj strPub
  have parameters := readMember_ok_iff (fun value => (readTxpPatch_verdict value).ok_iff) obj
    strTxp
  have list := fun key => readMember_ok_iff loadUint16List_ok_iff obj key
  have features := readMember_ok_iff readFeatures_ok_iff obj strFeatures
  simp only [List.forall_mem_cons, List.not_mem_nil, false_implies, implies_true, and_true]
  rw [← number, ← number, ← publication, ← parameters, ← list, ← list, ← features]
  constructor
  · rintro ⟨settings, read⟩
    have reads := settingsOf_reads read
    obtain ⟨given, featuresRead, _⟩ := reads.features
    exact ⟨⟨⟨_, reads.ttl⟩, _, reads.snb⟩, ⟨_, reads.pub⟩, ⟨_, reads.netTxp⟩,
      ⟨⟨_, reads.bindings⟩, _, reads.sublist⟩, _, featuresRead⟩
  · rintro ⟨⟨⟨ttl, ttlReads⟩, snb, snbReads⟩, ⟨pub, pubReads⟩, ⟨txp, txpReads⟩,
      ⟨⟨bindings, bindReads⟩, sublist, subReads⟩, given, featuresRead⟩
    have ttlReads : readMember uint8Loader obj strTtl = .ok ttl := ttlReads
    have snbReads : readMember uint8Loader obj strSnb = .ok snb := snbReads
    unfold settingsOf
    rw [ttlReads, ok_bind, pubReads, ok_bind, snbReads, ok_bind, txpReads, ok_bind, bindReads,
      ok_bind, subReads, ok_bind, featuresRead, ok_bind]
    exact ⟨_, rfl⟩

/-- A load runs through exactly when the members of the object are readable.  It is put together
from one such equivalence for each loader, in the order in which they are called. -/
theorem loads_iff_members (templates : Templates) (obj : Value) :
    Loads templates obj ↔ MembersReadable templates obj := by
  unfold Loads
  simp only [loadOutcome_eq]
  constructor
  · rintro ⟨fresh, after, load⟩
    obtain ⟨settings, read, load⟩ := bind_ok.mp load
    obtain ⟨field, named, load⟩ := bind_ok.mp load
    obtain ⟨numbers, publication, parameters, lists, features⟩ :=
      (settingsOf_ok_iff obj).mp ⟨settings, read⟩
    refine
      { template := (tmplField_ok_iff fresh obj).mp ⟨field, named⟩
        numbers := numbers
        publication := publication
        parameters := parameters
        lists := lists
        features := features
        relay := fun isNamed value found alone => ?_ }
    have clashes := (settingsOf_clashes_iff read).mpr ⟨value, found, alone⟩
    rw [clashes, isNamed] at load
    cases load
  · intro readable
    obtain ⟨settings, read⟩ := (settingsOf_ok_iff obj).mpr
      ⟨readable.numbers, readable.publication, readable.parameters, readable.lists,
        readable.features⟩
    obtain ⟨field, named⟩ := (tmplField_ok_iff 0 obj).mpr readable.template
    have noClash : ¬ (settings.clashes && (namedTemplate templates obj).isSome) = true := by
      rw [Bool.and_eq_true]
      rintro ⟨clashes, isNamed⟩
      obtain ⟨value, found, alone⟩ := (settingsOf_clashes_iff read).mp clashes
      exact readable.relay isNamed value found alone
    refine ⟨0, ?_⟩
    rw [read, ok_bind, named, ok_bind, if_neg noClash]
    exact ⟨_, rfl⟩

end Nwmng
