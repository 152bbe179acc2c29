/-
Module: Nwmng.Cfg.Supplied
Purpose: The feature bits of a record against the optional fields they stand for, over
loads, reloads and configuration results.
Trusted boundary: none
Main exports:
  Features.pending, MeshConfig.Supplied, LoadOp, LoadRun, supplied_iff_guarded
-/
import Nwmng.Lib.Execution
import Nwmng.Lib.Fallible
import Nwmng.Cfg.Keyed
import Nwmng.Cfg.NodeLoad
import Nwmng.Cfg.Settings
import Nwmng.Config.States

namespace Nwmng

open Transition Fallible Json

/-!
## Pending features

A feature is pending when its two bits differ.  The engine sends a command for each pending
feature, with the value of the optional field behind it; the field has to be there by then.
-/

/-- The features that differ from what the files ask for. -/
def Features.pending (features : Features) (which : Nat) : Bool :=
  (features.target ^^^ features.current).getLsbD which

/-- Only features with a command are pending, and those whose command takes a value
have it. -/
structure MeshConfig.Supplied (config : MeshConfig) : Prop where
  known : ∀ which, config.features.pending which = true → knownFeature which = true
  ttl : config.features.pending ttlBitofs = true → config.ttl.isSome = true
  netTxp : config.features.pending nettxBitofs = true → config.netTxp.isSome = true
  relay : config.features.pending relayBitofs = true →
    config.features.relayTxp.isSome = true

section

variable (features : Features)

theorem pending_eq (which : Nat) :
    features.pending which =
      (features.target.getLsbD which ^^ features.current.getLsbD which) := by
  rw [Features.pending, BitVec.getLsbD_xor]

/-- Setting a feature makes it pending, and no other. -/
theorem pending_setFeatureConfig {which : Nat} (inside : which < 16) (on : Bool)
    (other : Nat) :
    (setFeatureConfig features which on).pending other =
      (decide (which = other) || features.pending other) := by
  rw [pending_eq, pending_eq]
  cases on with
  | true =>
      simp only [setFeatureConfig, if_true, getLsbD_bitSet, getLsbD_bitClr]
      by_cases same : which = other
      · subst same
        simp only [inside, decide_true]
        simp
      · simp only [same, decide_false]
        simp
  | false =>
      simp only [setFeatureConfig, Bool.false_eq_true, if_false, getLsbD_bitSet,
        getLsbD_bitClr]
      by_cases same : which = other
      · subst same
        simp only [inside, decide_true]
        simp
      · simp only [same, decide_false]
        simp

theorem relayTxp_setFeatureConfig (which : Nat) (on : Bool) :
    (setFeatureConfig features which on).relayTxp = features.relayTxp := by
  cases on <;> rfl

/-- Clearing the bits of the `Features` member leaves the others. -/
theorem pending_cleared (which : Nat) :
    features.cleared.pending which = (decide (4 ≤ which) && features.pending which) := by
  rw [pending_eq, pending_eq]
  by_cases inside : which < 16
  · have mask : (0xFFF0#16).getLsbD which = decide (4 ≤ which) := by
      have every : ∀ bit : Fin 16, (0xFFF0#16).getLsbD bit.val = decide (4 ≤ bit.val) := by
        decide
      exact every ⟨which, inside⟩
    simp only [Features.cleared, BitVec.getLsbD_and]
    change (features.target.getLsbD which && (0xFFF0#16).getLsbD which ^^
      features.current.getLsbD which && (0xFFF0#16).getLsbD which) = _
    rw [mask]
    cases decide (4 ≤ which) <;> simp
  · have outside : 16 ≤ which := Nat.le_of_not_lt inside
    rw [BitVec.getLsbD_of_ge _ _ outside, BitVec.getLsbD_of_ge _ _ outside,
      BitVec.getLsbD_of_ge _ _ outside, BitVec.getLsbD_of_ge _ _ outside]
    simp

end

/-- A feature that is marked becomes pending. -/
theorem pending_mark (features : Features) {which : Nat} (inside : which < 16)
    (on : Option Bool) (other : Nat) :
    (features.mark which on).pending other =
      (on.isSome && decide (which = other) || features.pending other) := by
  cases on with
  | none => simp [Features.mark]
  | some on => simp [Features.mark, pending_setFeatureConfig features inside on other]

/-! ## What the `Features` member gives -/

/-- The bits are low, the `Low Power` feature is not pending, and the relay feature has
its parameters when it is. -/
structure Features.Given (features : Features) : Prop where
  low : ∀ bit, 4 ≤ bit →
    features.target.getLsbD bit = false ∧ features.current.getLsbD bit = false
  lpn : features.pending lpnFeatureBitofs = false
  relay : features.pending relayBitofs = true → features.relayTxp.isSome = true

theorem Features.Given.zeroed : Features.zeroed.Given where
  low bit _ := by simp [Features.zeroed]
  lpn := by decide
  relay pending := by cases pending

theorem setFeatureConfig_low {features : Features} {which : Nat} (low : which < 4)
    {bit : Nat} (high : 4 ≤ bit) (on : Bool)
    (clear : features.target.getLsbD bit = false ∧ features.current.getLsbD bit = false) :
    (setFeatureConfig features which on).target.getLsbD bit = false ∧
      (setFeatureConfig features which on).current.getLsbD bit = false := by
  have apart : which ≠ bit := by omega
  cases on with
  | true =>
      simp only [setFeatureConfig, if_true, getLsbD_bitSet, getLsbD_bitClr, clear,
        decide_eq_false apart]
      exact ⟨rfl, rfl⟩
  | false =>
      simp only [setFeatureConfig, Bool.false_eq_true, if_false, getLsbD_bitSet,
        getLsbD_bitClr, clear, decide_eq_false apart]
      exact ⟨rfl, rfl⟩

/-- Setting another low feature than these two. -/
theorem Features.Given.set {features : Features} (given : features.Given) {which : Nat}
    (low : which < 4) (other : which ≠ relayBitofs ∧ which ≠ lpnFeatureBitofs) (on : Bool) :
    (setFeatureConfig features which on).Given where
  low bit high := setFeatureConfig_low low high on (given.low bit high)
  lpn := by
    rw [pending_setFeatureConfig features (by omega), decide_eq_false other.2, given.lpn]
    rfl
  relay pending := by
    rw [pending_setFeatureConfig features (by omega), decide_eq_false other.1,
      Bool.false_or] at pending
    rw [relayTxp_setFeatureConfig]
    exact given.relay pending

theorem loadSwitch_given {key : String} {which : Nat} {obj : Value}
    {features after : Features} (given : features.Given) (low : which < 4)
    (other : which ≠ relayBitofs ∧ which ≠ lpnFeatureBitofs)
    (loaded : loadSwitch key which obj features = .ok after) : after.Given := by
  unfold loadSwitch at loaded
  cases found : obj.get key with
  | none =>
      simp only [found, Except.ok.injEq] at loaded
      rw [← loaded]
      exact given
  | some value =>
      simp only [found, bind_ok, Except.ok.injEq] at loaded
      obtain ⟨on, _, rfl⟩ := loaded
      exact given.set low other on

theorem loadLpn_given {obj : Value} {features after : Features} (given : features.Given)
    (loaded : loadLpn obj features = .ok after) : after.Given := by
  unfold loadLpn at loaded
  cases found : obj.get strLpn with
  | none =>
      simp only [found, Except.ok.injEq] at loaded
      rw [← loaded]
      exact given
  | some value =>
      simp only [found, bind_ok] at loaded
      obtain ⟨on, _, loaded⟩ := loaded
      have apart : ∀ bit, 4 ≤ bit → lpnFeatureBitofs ≠ bit := by
        intro bit high
        exact Nat.ne_of_lt (Nat.lt_of_lt_of_le (by decide) high)
      have relayApart : lpnFeatureBitofs ≠ relayBitofs := by decide
      cases on with
      | true =>
          simp only [if_true, Except.ok.injEq] at loaded
          subst loaded
          refine ⟨fun bit high => ?_, ?_, fun pending => given.relay ?_⟩
          · simp only [getLsbD_bitSet, given.low bit high, decide_eq_false (apart bit high)]
            exact ⟨rfl, rfl⟩
          · simp only [pending_eq, getLsbD_bitSet]
            simp [lpnFeatureBitofs]
          · simp only [pending_eq, getLsbD_bitSet, decide_eq_false relayApart,
              Bool.false_and, Bool.or_false] at pending
            rw [pending_eq]
            exact pending
      | false =>
          simp only [Bool.false_eq_true, if_false, Except.ok.injEq] at loaded
          subst loaded
          refine ⟨fun bit high => ?_, ?_, fun pending => given.relay ?_⟩
          · simp only [getLsbD_bitClr, given.low bit high]
            exact ⟨rfl, rfl⟩
          · simp only [pending_eq, getLsbD_bitClr]
            simp
          · simp only [pending_eq, getLsbD_bitClr, decide_eq_false relayApart,
              Bool.not_false, Bool.and_true] at pending
            rw [pending_eq]
            exact pending

/-- The relay feature is the first to be loaded. -/
theorem loadRelay_given {obj : Value} {after : Features}
    (loaded : loadRelay obj .zeroed = .ok (some after)) : after.Given := by
  unfold loadRelay at loaded
  cases found : obj.get strRelay with
  | none =>
      simp only [found, Except.ok.injEq, Option.some.injEq] at loaded
      rw [← loaded]
      exact .zeroed
  | some relay =>
      simp only [found, bind_ok, Except.ok.injEq] at loaded
      obtain ⟨features, enables, txp, _, loaded⟩ := loaded
      cases txp with
      | none => cases loaded
      | some txp =>
          cases loaded
          unfold loadEnable at enables
          cases enable : relay.get strEnable with
          | none =>
              simp only [enable, Except.ok.injEq] at enables
              subst enables
              exact ⟨Features.Given.zeroed.low, Features.Given.zeroed.lpn, fun _ => rfl⟩
          | some value =>
              simp only [enable, bind_ok, Except.ok.injEq] at enables
              obtain ⟨on, _, rfl⟩ := enables
              refine ⟨fun bit high => ?_, ?_, fun _ => rfl⟩
              · exact setFeatureConfig_low (by decide) high on
                  (Features.Given.zeroed.low bit high)
              · have cleared := pending_setFeatureConfig Features.zeroed
                  (by decide : relayBitofs < 16) on lpnFeatureBitofs
                exact cleared

theorem readFeatures_given {value : Value} {after : Features}
    (read : readFeatures value = .ok (some after)) : after.Given := by
  simp only [readFeatures, bind_ok] at read
  obtain ⟨relay, loads, read⟩ := read
  cases relay with
  | none => cases read
  | some features =>
      simp only [bind_ok, Except.ok.injEq, Option.some.injEq] at read
      obtain ⟨friended, friends, proxied, proxies, last, lpn, rfl⟩ := read
      have first := loadSwitch_given (loadRelay_given loads) (by decide) (by decide) friends
      have second := loadSwitch_given first (by decide) (by decide) proxies
      exact loadLpn_given second lpn

theorem settingsOf_given {obj : Value} {settings : Settings}
    (read : settingsOf obj = .ok settings) : settings.features.Given := by
  simp only [settingsOf, bind_ok, Except.ok.injEq] at read
  obtain ⟨_, _, _, _, _, _, _, _, _, _, _, _, features, reads, rfl⟩ := read
  unfold readMember at reads
  cases found : obj.get strFeatures with
  | none =>
      simp only [found, Except.ok.injEq] at reads
      rw [← reads]
      exact .zeroed
  | some value =>
      simp only [found] at reads
      cases features with
      | none => exact .zeroed
      | some features => exact readFeatures_given reads

/-! ## What a load does to the pending features -/

theorem pending_merge {own given : Features} (low : given.Given) (which : Nat) :
    (own.merge given).pending which =
      if which < 4 then given.pending which else own.pending which := by
  have cleared := pending_cleared own which
  rw [pending_eq] at cleared
  rw [pending_eq, pending_eq]
  simp only [Features.merge, BitVec.getLsbD_or]
  by_cases small : which < 4
  · rw [if_pos small]
    have mask : ¬ 4 ≤ which := Nat.not_le_of_lt small
    simp only [Features.cleared, BitVec.getLsbD_and]
    have clear : (0xFFF0 : BitVec 16).getLsbD which = false := by
      have masked := mask_getLsbD which
      rw [decide_eq_false mask] at masked
      exact masked
    rw [clear]
    simp
  · rw [if_neg small, (low.low which (by omega)).1, (low.low which (by omega)).2]
    rw [Bool.or_false, Bool.or_false, cleared, pending_eq]
    simp [Nat.le_of_not_lt small]

theorem pending_marked (settings : Settings) (features : Features) (which : Nat) :
    (settings.marked features).pending which =
      (settings.netTxp.isSome && decide (nettxBitofs = which) ||
        (settings.snb.isSome && decide (snbBitofs = which) ||
          (settings.ttl.isSome && decide (ttlBitofs = which) ||
            features.pending which))) := by
  unfold Settings.marked
  rw [pending_mark _ (by decide), pending_mark _ (by decide), pending_mark _ (by decide)]
  simp

/-- The features of a template whose low bits a node may inherit.  The copy of the bits does not
bring the parameters along, so a relay that is pending must have its own. -/
structure Features.Inheritable (features : Features) : Prop where
  lpn : features.pending lpnFeatureBitofs = false
  relay : features.pending relayBitofs = true → features.relayTxp.isSome = true

theorem Features.Given.inheritable {features : Features} (given : features.Given) :
    features.Inheritable :=
  ⟨given.lpn, given.relay⟩

theorem Settings.inheritable {settings : Settings} (given : settings.features.Given)
    (config : MeshConfig) : (settings.apply config).features.Inheritable where
  lpn := (pending_merge given lpnFeatureBitofs).trans given.lpn
  relay pending :=
    given.relay ((pending_merge given relayBitofs).symm.trans pending)

/-!
## What inheriting does to the pending features

After a load a feature is pending because the object or its template supplies the value, or
because it was pending before and nothing in the file clears it.  Only the second way can leave a
feature without its value.
-/

theorem low_mask (bit : Nat) : (0xF#16).getLsbD bit = decide (bit < 4) := by
  by_cases inside : bit < 16
  · have every : ∀ bit : Fin 16, (0xF#16).getLsbD bit.val = decide (bit.val < 4) := by
      decide
    exact every ⟨bit, inside⟩
  · have high : ¬ bit < 4 := by omega
    rw [BitVec.getLsbD_of_ge _ _ (Nat.le_of_not_lt inside), decide_eq_false high]

/-- A map without low bits. -/
theorem low_clear {map : BitVec 16} (blank : map &&& 0xF#16 = 0#16) {bit : Nat}
    (low : bit < 4) : map.getLsbD bit = false := by
  have same := congrArg (fun map : BitVec 16 => map.getLsbD bit) blank
  simp only [BitVec.getLsbD_and, low_mask, decide_eq_true low, Bool.and_true,
    BitVec.getLsbD_zero] at same
  exact same

theorem pending_adopt {own : Features} (blank : own.blank = true) (tmpl : Features)
    (which : Nat) :
    (own.adopt tmpl).pending which =
      if which < 4 then tmpl.pending which else own.pending which := by
  simp only [Features.blank, Bool.and_eq_true, beq_iff_eq] at blank
  have masked : ∀ map : BitVec 16, (map &&& 0xF).getLsbD which =
      (map.getLsbD which && decide (which < 4)) := by
    intro map
    rw [BitVec.getLsbD_and]
    exact congrArg _ (low_mask which)
  rw [pending_eq, pending_eq, pending_eq]
  simp only [Features.adopt, BitVec.getLsbD_or, masked]
  by_cases low : which < 4
  · rw [if_pos low, low_clear blank.1 low, low_clear blank.2 low, decide_eq_true low]
    simp
  · rw [if_neg low, decide_eq_false low]
    simp

/-- The configuration of a record after its load, under the template it names. -/
def finalConfig (tmpl : Option MeshConfig) (settings : Settings) (config : MeshConfig) :
    MeshConfig :=
  match tmpl with
  | none => settings.apply config
  | some tmpl => tmpl.inherit (settings.apply config)

/-- A field is given by the object or by its template. -/
def supplies {α β : Type} (given : Option α) (field : MeshConfig → Option β)
    (tmpl : Option MeshConfig) : Bool :=
  given.isSome || (tmpl.bind field).isSome

section

variable (tmpl : Option MeshConfig) (settings : Settings) (config : MeshConfig)

theorem ttl_finalConfig :
    (finalConfig tmpl settings config).ttl.isSome =
      supplies settings.ttl (·.ttl) tmpl := by
  cases tmpl with
  | none => simp [finalConfig, supplies, Settings.apply]
  | some tmpl => simp [finalConfig, supplies, Settings.apply, MeshConfig.inherit]

theorem netTxp_finalConfig :
    (finalConfig tmpl settings config).netTxp.isSome =
      supplies settings.netTxp (·.netTxp) tmpl := by
  cases tmpl with
  | none => simp [finalConfig, supplies, Settings.apply]
  | some tmpl => simp [finalConfig, supplies, Settings.apply, MeshConfig.inherit]

theorem newly_isSome {α : Type} (tmpl own : Option α) :
    (newly tmpl own).isSome = (tmpl.isSome && own.isNone) := by
  unfold newly
  cases tmpl.isSome && own.isNone <;> rfl

/-- The features behind the optional fields: pending when supplied, else as before. -/
theorem pending_finalConfig (given : settings.features.Given) {which : Nat}
    (high : 4 ≤ which) :
    (finalConfig tmpl settings config).features.pending which =
      (supplies settings.netTxp (·.netTxp) tmpl && decide (nettxBitofs = which) ||
        (supplies settings.snb (·.snb) tmpl && decide (snbBitofs = which) ||
          (supplies settings.ttl (·.ttl) tmpl && decide (ttlBitofs = which) ||
            config.features.pending which))) := by
  have low : ¬ which < 4 := Nat.not_lt_of_le high
  have applied : (settings.apply config).features.pending which =
      (settings.marked config.features).pending which := by
    have merged : ((settings.marked config.features).merge settings.features).pending which =
        _ := pending_merge given which
    rw [if_neg low] at merged
    exact merged
  cases tmpl with
  | none =>
      rw [finalConfig, applied, pending_marked]
      simp [supplies]
  | some tmpl =>
      have adopted : ∀ own : Features,
          (if own.blank = true then own.adopt tmpl.features else own).pending which =
            own.pending which := by
        intro own
        by_cases blank : own.blank = true
        · rw [if_pos blank, pending_adopt blank, if_neg low]
        · rw [if_neg blank]
      simp only [finalConfig, MeshConfig.inherit]
      rw [pending_mark _ (by decide), adopted, MeshConfig.markedFrom,
        pending_mark _ (by decide), pending_mark _ (by decide), applied, pending_marked,
        newly_isSome, newly_isSome, newly_isSome]
      simp only [supplies, Settings.apply, Option.bind_some, Option.isNone_map]
      cases settings.netTxp <;> cases settings.snb <;> cases settings.ttl <;>
        simp [Bool.or_left_comm]

end

/-- The low features come from the object or, when it gives none, from the template. -/
theorem finalConfig_inheritable {tmpl : Option MeshConfig} {settings : Settings}
    (given : settings.features.Given)
    (inheritable : ∀ source, tmpl = some source → source.features.Inheritable)
    (config : MeshConfig) : (finalConfig tmpl settings config).features.Inheritable := by
  have own := Settings.inheritable given config
  cases tmpl with
  | none => exact own
  | some tmpl =>
      have marked : ∀ which, which < 4 →
          (tmpl.markedFrom (settings.apply config)).pending which =
            (settings.apply config).features.pending which := by
        intro which low
        have snb : snbBitofs ≠ which := fun same => absurd low (by rw [← same]; decide)
        have ttl : ttlBitofs ≠ which := fun same => absurd low (by rw [← same]; decide)
        rw [MeshConfig.markedFrom, pending_mark _ (by decide), pending_mark _ (by decide)]
        simp [snb, ttl]
      have other : ∀ (features : Features) (on : Option Bool) which, which < 4 →
          (features.mark nettxBitofs on).pending which = features.pending which := by
        intro features on which low
        have nettx : nettxBitofs ≠ which := fun same => absurd low (by rw [← same]; decide)
        rw [pending_mark _ (by decide)]
        simp [nettx]
      by_cases blank : (tmpl.markedFrom (settings.apply config)).blank = true
      · have source := inheritable tmpl rfl
        constructor
        · simp only [finalConfig, MeshConfig.inherit, if_pos blank]
          rw [other _ _ _ (by decide), pending_adopt blank, if_pos (by decide)]
          exact source.lpn
        · simp only [finalConfig, MeshConfig.inherit, if_pos blank]
          rw [other _ _ _ (by decide), pending_adopt blank, if_pos (by decide), relayTxp_mark]
          exact source.relay
      · constructor
        · simp only [finalConfig, MeshConfig.inherit, if_neg blank]
          rw [other _ _ _ (by decide), marked _ (by decide)]
          exact own.lpn
        · simp only [finalConfig, MeshConfig.inherit, if_neg blank]
          rw [other _ _ _ (by decide), marked _ (by decide), relayTxp_mark,
            MeshConfig.markedFrom, relayTxp_mark, relayTxp_mark]
          exact own.relay

/-- After a load a record has what its pending features need exactly when the load gives
the values of those that were pending before. -/
theorem finalConfig_supplied_iff {tmpl : Option MeshConfig} {settings : Settings}
    {config : MeshConfig} (given : settings.features.Given)
    (inheritable : ∀ source, tmpl = some source → source.features.Inheritable)
    (supplied : config.Supplied) :
    (finalConfig tmpl settings config).Supplied ↔
      (config.features.pending ttlBitofs = true →
        supplies settings.ttl (·.ttl) tmpl = true) ∧
      (config.features.pending nettxBitofs = true →
        supplies settings.netTxp (·.netTxp) tmpl = true) := by
  have low := finalConfig_inheritable given inheritable config
  have high := fun {which : Nat} (above : 4 ≤ which) =>
    pending_finalConfig tmpl settings config given above
  have ttl := high (by decide : 4 ≤ ttlBitofs)
  have netTxp := high (by decide : 4 ≤ nettxBitofs)
  have ttlFormula : (finalConfig tmpl settings config).features.pending ttlBitofs =
      (supplies settings.ttl (·.ttl) tmpl || config.features.pending ttlBitofs) := by
    rw [ttl]
    simp [nettxBitofs, ttlBitofs, snbBitofs]
  have netTxpFormula : (finalConfig tmpl settings config).features.pending nettxBitofs =
      (supplies settings.netTxp (·.netTxp) tmpl || config.features.pending nettxBitofs) := by
    rw [netTxp]
    simp [nettxBitofs, ttlBitofs, snbBitofs]
  constructor
  · intro final
    have first := final.ttl
    have second := final.netTxp
    rw [ttl_finalConfig, ttlFormula] at first
    rw [netTxp_finalConfig, netTxpFormula] at second
    refine ⟨fun pending => first ?_, fun pending => second ?_⟩
    · rw [pending, Bool.or_true]
    · rw [pending, Bool.or_true]
  · rintro ⟨first, second⟩
    refine ⟨fun which pending => ?_, fun pending => ?_, fun pending => ?_, low.relay⟩
    · by_cases above : 4 ≤ which
      · rw [high above] at pending
        simp only [Bool.or_eq_true, Bool.and_eq_true, decide_eq_true_eq] at pending
        rcases pending with ⟨_, rfl⟩ | ⟨_, rfl⟩ | ⟨_, rfl⟩ | before
        · decide
        · decide
        · decide
        · exact supplied.known which before
      · have notLpn : which ≠ lpnFeatureBitofs := by
          rintro rfl
          rw [low.lpn] at pending
          cases pending
        have small : which < 4 := Nat.lt_of_not_le above
        have every : ∀ which : Fin 4, which.val ≠ lpnFeatureBitofs →
            knownFeature which.val = true := by
          decide
        exact every ⟨which, small⟩ notLpn
    · rw [ttlFormula, Bool.or_eq_true] at pending
      rw [ttl_finalConfig]
      exact pending.elim id first
    · rw [netTxpFormula, Bool.or_eq_true] at pending
      rw [netTxp_finalConfig]
      exact pending.elim id second

/-! ## What setting the features reads -/

/-- The commands that set features never read an absent field, there is one as long as
the guard passes, and the messages about pending features read no absent field. -/
structure FieldsPresent (node : Node) : Prop where
  command : ∀ netkey, ∃ command,
    setconfigCommand netkey node (nextConfigItem node.config.features) = .ok command ∧
      (featuresDiffer node.config = true → command.isSome = true)
  message : ∀ which, node.config.features.pending which = true →
    featureMessage which node.config = .ok ()

theorem present_ok {α : Type} {field : Option α} (isSome : field.isSome = true) :
    ∃ value, present field = .ok value := by
  cases field with
  | none => cases isSome
  | some value => exact ⟨value, rfl⟩

theorem MeshConfig.Supplied.command {node : Node} (supplied : node.config.Supplied)
    (netkey : UInt16) {which : Nat} (pending : node.config.features.pending which = true) :
    ∃ command, setconfigCommand netkey node (some which) = .ok (some command) := by
  have known := supplied.known which pending
  simp only [knownFeature, List.contains_eq_mem, List.mem_cons, List.not_mem_nil, or_false,
    decide_eq_true_eq] at known
  rcases known with rfl | rfl | rfl | rfl | rfl | rfl
  · obtain ⟨txp, found⟩ := present_ok (supplied.relay pending)
    exact ⟨_, by simp only [setconfigCommand, if_true, found]; rfl⟩
  · exact ⟨_, rfl⟩
  · exact ⟨_, rfl⟩
  · obtain ⟨ttl, found⟩ := present_ok (supplied.ttl pending)
    refine ⟨.setDefaultTtl netkey node.addr ttl, ?_⟩
    change (present node.config.ttl >>= fun ttl => _) = _
    rw [found]
    rfl
  · obtain ⟨txp, found⟩ := present_ok (supplied.netTxp pending)
    refine ⟨.setNetworkTransmit netkey node.addr txp.cnt txp.intv, ?_⟩
    change (present node.config.netTxp >>= fun txp => _) = _
    rw [found]
    rfl
  · exact ⟨_, rfl⟩

theorem MeshConfig.Supplied.present {node : Node} (supplied : node.config.Supplied) :
    FieldsPresent node where
  command netkey := by
    cases item : nextConfigItem node.config.features with
    | none =>
        refine ⟨none, rfl, fun differ => ?_⟩
        have same := utilsCtz_eq_none item
        simp only [featuresDiffer, bne_iff_ne] at differ
        rw [BitVec.xor_comm] at differ
        exact absurd same differ
    | some which =>
        have pending := (utilsCtz_eq_some item).1
        obtain ⟨command, chosen⟩ := supplied.command netkey pending
        exact ⟨some command, chosen, fun _ => rfl⟩
  message which pending := by
    unfold featureMessage
    by_cases isTtl : which = ttlBitofs
    · subst isTtl
      obtain ⟨ttl, found⟩ := present_ok (supplied.ttl pending)
      rw [if_pos rfl, found]
      rfl
    · rw [if_neg isTtl]
      by_cases isNettx : which = nettxBitofs
      · subst isNettx
        obtain ⟨txp, found⟩ := present_ok (supplied.netTxp pending)
        rw [if_pos rfl, found]
        rfl
      · rw [if_neg isNettx]

/-!
## Runs

Between loads only results of commands change the features, and they make no feature pending.  So
a run is judged by its loads, one record at a time.
-/

/-- The device records together with the table of templates. -/
structure NodesCfg where
  db : CfgDb
  templates : Templates

/-- What `cfgdb_init` leaves. -/
def NodesCfg.init : NodesCfg := { db := .cfgdbInit, templates := ∅ }

/-- The operations on records that load no configuration. -/
def DbOp.loads : DbOp → Bool
  | .loadNode _ _ => true
  | _ => false

/-- Items are loaded from files, one at a time and with any content; in between,
results of configuration arrive and records move. -/
inductive LoadOp where
  | template (item : Value)
  | node (fresh : UInt64) (backlog : Bool) (item : Value)
  | configured (record : NodeId) (which : Nat)
  | other (op : DbOp) (keeps : op.loads = false)

def LoadOp.run (cfg : NodesCfg) : LoadOp → Except Abort NodesCfg
  | .template item => do
      let templates ← loadTemplateItem item cfg.templates
      .ok { cfg with templates := templates }
  | .node fresh backlog item => do
      let db ← loadNodeItem cfg.templates fresh backlog item cfg.db
      .ok { cfg with db := db }
  | .configured record which =>
      .ok { cfg with db := cfg.db.update record (onFeatureConfigured which) }
  | .other op _ => do
      let db ← op.run cfg.db
      .ok { cfg with db := db }

abbrev LoadRun := Execution (Succeeds LoadOp.run) .init

/-- The object has a well-formed member, or its template has the field.  What the record held
before does not count, as it may stem from an earlier file. -/
def Gives {α β : Type} (read : Value → Except Abort (Option α)) (key : String)
    (field : MeshConfig → Option β) (tmpl : Option MeshConfig) (obj : Value) : Prop :=
  (∃ value, readMember read obj key = .ok (some value)) ∨
    ∃ source, tmpl = some source ∧ (field source).isSome = true

/-- An item that is loaded into a record gives a TTL when the TTL feature of the record
is pending, and transmission parameters when that feature is. -/
def LoadOp.Gives (cfg : NodesCfg) : LoadOp → Prop
  | .node fresh backlog item =>
      ∀ entry, parseEntry fresh item = .ok (some entry) →
        ((cfg.db.loadTarget entry backlog).config.features.pending ttlBitofs = true →
          Nwmng.Gives uint8Loader strTtl (·.ttl) (namedTemplate cfg.templates item) item) ∧
        ((cfg.db.loadTarget entry backlog).config.features.pending nettxBitofs = true →
          Nwmng.Gives readTxpPatch strTxp (·.netTxp) (namedTemplate cfg.templates item) item)
  | _ => True

instance {α β : Type} (read : Value → Except Abort (Option α)) (key : String)
    (field : MeshConfig → Option β) (tmpl : Option MeshConfig) (obj : Value) :
    Decidable (Nwmng.Gives read key field tmpl obj) :=
  have : Decidable (∃ value, readMember read obj key = .ok (some value)) :=
    match readMember read obj key with
    | .ok (some value) => isTrue ⟨value, rfl⟩
    | .ok none => isFalse (by rintro ⟨value, impossible⟩; cases impossible)
    | .error _ => isFalse (by rintro ⟨value, impossible⟩; cases impossible)
  inferInstanceAs (Decidable (_ ∨ _))

instance (cfg : NodesCfg) : (op : LoadOp) → Decidable (op.Gives cfg)
  | .node fresh backlog item =>
      match parses : parseEntry fresh item with
      | .ok (some entry) =>
          decidable_of_iff
            (((cfg.db.loadTarget entry backlog).config.features.pending ttlBitofs = true →
                Nwmng.Gives uint8Loader strTtl (·.ttl) (namedTemplate cfg.templates item) item) ∧
              ((cfg.db.loadTarget entry backlog).config.features.pending nettxBitofs = true →
                Nwmng.Gives readTxpPatch strTxp (·.netTxp) (namedTemplate cfg.templates item) item))
            ⟨fun here other same => by
                rw [parses] at same
                cases same
                exact here,
              fun every => every entry parses⟩
      | .ok none => isTrue fun other same => by rw [parses] at same; cases same
      | .error _ => isTrue fun other same => by rw [parses] at same; cases same
  | .template _ => isTrue trivial
  | .configured _ _ => isTrue trivial
  | .other _ _ => isTrue trivial

/-- Every record in the database has what its pending features need.  The configuration states
read these fields without a test, so it is what keeps them from reading nothing. -/
def NodesCfg.Supplied (cfg : NodesCfg) : Prop :=
  ∀ spot record, cfg.db.get spot = some record →
    (cfg.db.heap record).config.Supplied ∧ FieldsPresent (cfg.db.heap record)

/-- What the loads need besides: records that no tree holds, and the templates. -/
structure SupplyInvariant (cfg : NodesCfg) : Prop where
  records : ∀ record, (cfg.db.heap record).config.Supplied
  templates : ∀ (refid : UInt16) tmpl, cfg.templates[refid]? = some tmpl → tmpl.features.Inheritable

theorem MeshConfig.Supplied.zeroed : MeshConfig.zeroed.Supplied where
  known which pending := by
    rw [pending_eq] at pending
    simp [MeshConfig.zeroed, Node.zeroed] at pending
  ttl pending := by cases pending
  netTxp pending := by cases pending
  relay pending := by cases pending

theorem SupplyInvariant.init : SupplyInvariant .init where
  records _ := .zeroed
  templates refid tmpl found := by simp [NodesCfg.init] at found

theorem SupplyInvariant.supplied {cfg : NodesCfg} (inv : SupplyInvariant cfg) :
    cfg.Supplied :=
  fun _ record _ => ⟨inv.records record, (inv.records record).present⟩

/-- A configured feature is not pending any more, the others stay. -/
theorem pending_onFeatureConfigured (which : Nat) (node : Node) (other : Nat) :
    (onFeatureConfigured which node).config.features.pending other =
      (node.config.features.pending other && !decide (which = other)) := by
  rw [pending_eq, pending_eq]
  by_cases on : node.config.features.target.getLsbD which = true
  · simp only [onFeatureConfigured, if_pos on, getLsbD_bitSet]
    by_cases same : which = other
    · subst same
      have inside : which < 16 := BitVec.lt_of_getLsbD on
      rw [on, decide_eq_true inside]
      simp
    · rw [decide_eq_false same]
      simp
  · simp only [onFeatureConfigured, if_neg on, getLsbD_bitClr]
    by_cases same : which = other
    · subst same
      rw [Bool.not_eq_true] at on
      simp [on]
    · simp [same]

theorem MeshConfig.Supplied.configured {node : Node} (supplied : node.config.Supplied)
    (which : Nat) : (onFeatureConfigured which node).config.Supplied := by
  have before : ∀ other,
      (onFeatureConfigured which node).config.features.pending other = true →
        node.config.features.pending other = true := by
    intro other pending
    rw [pending_onFeatureConfigured, Bool.and_eq_true] at pending
    exact pending.1
  exact
    { known := fun other pending => supplied.known other (before other pending)
      ttl := fun pending => supplied.ttl (before ttlBitofs pending)
      netTxp := fun pending => supplied.netTxp (before nettxBitofs pending)
      relay := fun pending => supplied.relay (before relayBitofs pending) }

/-- The operations that load nothing keep every configuration; a new record has none. -/
theorem config_run {op : DbOp} (keeps : op.loads = false) {db after : CfgDb}
    (run : op.run db = .ok after) (record : NodeId) :
    (after.heap record).config = (db.heap record).config ∨
      (after.heap record).config = .zeroed := by
  have written : ∀ (db : CfgDb) (id : NodeId) (change : Node → Node),
      (∀ node, (change node).config = node.config) →
        ((db.update id change).heap record).config = (db.heap record).config := by
    intro db id change same
    by_cases here : record = id
    · subst here
      rw [CfgDb.heap_update_self, same]
    · rw [CfgDb.heap_update_of_ne db change here]
  have moved : ∀ (id : NodeId) (old new : TreeId) (change : Node → Node),
      (∀ node, (change node).config = node.config) →
        ((((db.cfgdbRemove id old).update id change).cfgdbAdd id new).heap record).config =
          (db.heap record).config := by
    intro id old new change same
    rw [CfgDb.heap_cfgdbAdd, written _ _ _ same, CfgDb.cfgdbRemove, CfgDb.heap_erase]
  have set : ∀ (addr : UInt16) (change : Node → Node),
      (∀ node, (change node).config = node.config) → db.nodeset addr change = .ok after →
        (after.heap record).config = (db.heap record).config := by
    intro addr change same run
    unfold CfgDb.nodeset at run
    cases found : db.cfgdbNodeGet addr with
    | none => simp [found] at run
    | some id =>
        simp only [found, Except.ok.injEq] at run
        rw [← run, written _ _ _ same]
  cases op with
  | loadNode entry backlog => cases keeps
  | backlogNodeAdd uuid =>
      cases run
      rw [CfgDb.backlogNodeAdd, CfgDb.heap_cfgdbAdd, written _ _ _ fun _ => by rfl]
      by_cases new : record = db.next
      · subst new
        rw [CfgDb.heap_alloc_next]
        exact .inr rfl
      · rw [CfgDb.heap_alloc_of_ne db new]
        exact .inl rfl
  | uplNodesetAddr uuid addr =>
      simp only [DbOp.run, CfgDb.uplNodesetAddr] at run
      cases found : db.cfgdbUnprovDevGet uuid with
      | none => simp [found] at run
      | some id =>
          simp only [found, Except.ok.injEq] at run
          subst run
          exact .inl (moved _ _ _ _ fun _ => by rfl)
  | nodesRm addr =>
      simp only [DbOp.run, CfgDb.nodesRm] at run
      cases found : db.cfgdbNodeGet addr with
      | none => simp [found] at run
      | some id =>
          simp only [found, Except.ok.injEq] at run
          subst run
          exact .inl (moved _ _ _ _ fun _ => by rfl)
  | nodesBl addr =>
      simp only [DbOp.run, CfgDb.nodesBl] at run
      cases found : db.cfgdbNodeGet addr with
      | none => simp [found] at run
      | some id =>
          simp only [found, Except.ok.injEq] at run
          subst run
          exact .inl (moved _ _ _ _ fun _ => by rfl)
  | nodesetErrbits addr err => exact .inl (set _ _ (fun _ => by rfl) run)
  | nodesetDone addr done => exact .inl (set _ _ (fun _ => by rfl) run)
  | nodesetFunc addr func => exact .inl (set _ _ (fun _ => by rfl) run)
  | removeAllUpl =>
      cases run
      exact .inl rfl
  | removeAllNodes =>
      cases run
      exact .inl rfl

/-- A template whose features a node may inherit, in a table of such templates. -/
theorem inheritable_loadTemplateItem {item : Value} {templates after : Templates}
    (loaded : loadTemplateItem item templates = .ok after)
    (all : ∀ (refid : UInt16) tmpl, templates[refid]? = some tmpl → tmpl.features.Inheritable)
    (refid : UInt16) (tmpl : MeshConfig) (found : after[refid]? = some tmpl) :
    tmpl.features.Inheritable := by
  unfold loadTemplateItem at loaded
  cases named : item.get strRefid with
  | none =>
      simp only [named, Except.ok.injEq] at loaded
      subst loaded
      exact all refid tmpl found
  | some value =>
      simp only [named, bind_ok] at loaded
      obtain ⟨number, _, loaded⟩ := loaded
      cases number with
      | none =>
          simp only [Except.ok.injEq] at loaded
          subst loaded
          exact all refid tmpl found
      | some id =>
          simp only [loadToTmplItem, loadConfig_eq, bind_ok, Except.ok.injEq] at loaded
          obtain ⟨config, ⟨settings, read, rfl⟩, rfl⟩ := loaded
          rw [Std.TreeMap.getElem?_insert] at found
          split at found
          · rw [← Option.some.inj found]
            exact Settings.inheritable (settingsOf_given read) _
          · exact all refid tmpl found

theorem supplies_iff_gives {α β : Type} {read : Value → Except Abort (Option α)}
    {key : String} {field : MeshConfig → Option β} {tmpl : Option MeshConfig} {obj : Value}
    {given : Option α} (member : readMember read obj key = .ok given) :
    supplies given field tmpl = true ↔ Gives read key field tmpl obj := by
  unfold supplies Gives
  rw [member, Bool.or_eq_true]
  constructor
  · rintro (own | inherited)
    · cases given with
      | none => cases own
      | some value => exact .inl ⟨value, rfl⟩
    · cases tmpl with
      | none => cases inherited
      | some source => exact .inr ⟨source, rfl, inherited⟩
  · rintro (⟨value, same⟩ | ⟨source, rfl, inherited⟩)
    · rw [Except.ok.inj same]
      exact .inl rfl
    · exact .inr inherited

/-- What a load leaves in its record, under the two readings the guard speaks of. -/
theorem loaded_supplied_iff {cfg : NodesCfg} (inv : SupplyInvariant cfg) {fresh : UInt64}
    {item : Value} {node after : Node} (supplied : node.config.Supplied)
    (loaded : loadToNodeItem cfg.templates fresh item node = .ok after) :
    after.config.Supplied ↔
      (node.config.features.pending ttlBitofs = true →
        Gives uint8Loader strTtl (·.ttl) (namedTemplate cfg.templates item) item) ∧
      (node.config.features.pending nettxBitofs = true →
        Gives readTxpPatch strTxp (·.netTxp) (namedTemplate cfg.templates item) item) := by
  obtain ⟨settings, read, config⟩ := loadToNodeItem_ok loaded
  have final : after.config =
      finalConfig (namedTemplate cfg.templates item) settings node.config := by
    cases named : namedTemplate cfg.templates item with
    | none =>
        rw [named] at config
        exact config
    | some tmpl =>
        rw [named] at config
        exact config.2
  have inheritable : ∀ source, namedTemplate cfg.templates item = some source →
      source.features.Inheritable := by
    intro source named
    unfold namedTemplate at named
    obtain ⟨id, _, found⟩ := Option.bind_eq_some_iff.mp named
    exact inv.templates _ source found
  have exactly := finalConfig_supplied_iff (settingsOf_given read) inheritable supplied
  rw [final, exactly]
  simp only [settingsOf, bind_ok, Except.ok.injEq] at read
  obtain ⟨ttl, ttls, _, _, _, _, netTxp, netTxps, _, _, _, _, _, _, rfl⟩ := read
  rw [supplies_iff_gives ttls, supplies_iff_gives netTxps]

/-- The records a load may write are supplied before it. -/
theorem SupplyInvariant.loadTarget {cfg : NodesCfg} (inv : SupplyInvariant cfg)
    (entry : NodeEntry) (backlog : Bool) :
    (cfg.db.loadTarget entry backlog).config.Supplied := by
  unfold CfgDb.loadTarget
  cases cfg.db.get (entry.lookupSpot backlog) with
  | none => exact .zeroed
  | some record => exact inv.records record

/-- One load: the record it writes is the only one that may lack something. -/
theorem SupplyInvariant.node_iff {cfg after : NodesCfg} (inv : SupplyInvariant cfg)
    {fresh : UInt64} {backlog : Bool} {item : Value}
    (run : (LoadOp.node fresh backlog item).run cfg = .ok after) :
    (after.Supplied ↔ (LoadOp.node fresh backlog item).Gives cfg) ∧
      (after.Supplied → SupplyInvariant after) := by
  simp only [LoadOp.run, bind_ok, Except.ok.injEq] at run
  obtain ⟨db, round, rfl⟩ := run
  rcases loadNodeItem_ok round with ⟨refused, rfl⟩ | ⟨entry, loaded, parses, loads, here, held,
    others⟩
  · refine ⟨⟨fun _ entry parsed => ?_, fun _ => inv.supplied⟩, fun _ => inv⟩
    rw [refused] at parsed
    cases parsed
  · have target := inv.loadTarget entry backlog
    have exactly := loaded_supplied_iff inv target loads
    have invariant : loaded.config.Supplied →
        SupplyInvariant { cfg with db := db } := by
      intro supplied
      refine ⟨fun record => ?_, inv.templates⟩
      by_cases written : record = cfg.db.loadRecord entry backlog
      · subst written
        rw [here]
        exact supplied
      · rw [others record written]
        exact inv.records record
    obtain ⟨spot, found⟩ := held
    have supplied : NodesCfg.Supplied { cfg with db := db } → loaded.config.Supplied := by
      intro all
      rw [← here]
      exact (all spot _ found).1
    refine ⟨⟨fun all other parsed => ?_, fun gives => ?_⟩, fun all => invariant (supplied all)⟩
    · rw [parses] at parsed
      cases parsed
      exact exactly.mp (supplied all)
    · exact (invariant (exactly.mpr (gives entry parses))).supplied

/-- The other operations lack nothing. -/
theorem SupplyInvariant.run {cfg after : NodesCfg} (inv : SupplyInvariant cfg) {op : LoadOp}
    (noLoad : ∀ fresh backlog item, op ≠ .node fresh backlog item)
    (run : op.run cfg = .ok after) : SupplyInvariant after := by
  cases op with
  | template item =>
      simp only [LoadOp.run, bind_ok, Except.ok.injEq] at run
      obtain ⟨templates, loaded, rfl⟩ := run
      exact ⟨inv.records, inheritable_loadTemplateItem loaded inv.templates⟩
  | node fresh backlog item => exact absurd rfl (noLoad fresh backlog item)
  | configured record which =>
      cases run
      refine ⟨fun other => ?_, inv.templates⟩
      by_cases same : other = record
      · subst same
        simp only [CfgDb.heap_update_self]
        exact (inv.records other).configured which
      · simp only [CfgDb.heap_update_of_ne cfg.db _ same]
        exact inv.records other
  | other op keeps =>
      simp only [LoadOp.run, bind_ok, Except.ok.injEq] at run
      obtain ⟨db, ran, rfl⟩ := run
      refine ⟨fun record => ?_, inv.templates⟩
      rcases config_run keeps ran record with same | new
      · rw [same]
        exact inv.records record
      · rw [new]
        exact .zeroed

/-- In every run the records have what their pending features need, and nothing absent is read,
exactly as long as the loaded items give what is pending.  A reload can take a field away and
leave the bit that asks for it; that is the case which the condition excludes. -/
theorem supplied_iff_guarded {past : List (Move NodesCfg LoadOp)} {final : NodesCfg}
    (run : LoadRun past final) :
    (∀ move ∈ past, move.target.Supplied) ↔ Guarded (fun cfg op => op.Gives cfg) past := by
  apply run.good_iff_guarded (fun move inv taken => ?_) (fun move inv taken good => ?_)
    SupplyInvariant.init
  · obtain ⟨source, op, target⟩ := move
    cases op with
    | node fresh backlog item => exact (inv.node_iff taken).1
    | template item =>
        exact iff_of_true (inv.run (by rintro _ _ _ ⟨⟩) taken).supplied trivial
    | configured record which =>
        exact iff_of_true (inv.run (by rintro _ _ _ ⟨⟩) taken).supplied trivial
    | other op keeps =>
        exact iff_of_true (inv.run (by rintro _ _ _ ⟨⟩) taken).supplied trivial
  · obtain ⟨source, op, target⟩ := move
    cases op with
    | node fresh backlog item => exact (inv.node_iff taken).2 good
    | template item => exact inv.run (by rintro _ _ _ ⟨⟩) taken
    | configured record which => exact inv.run (by rintro _ _ _ ⟨⟩) taken
    | other op keeps => exact inv.run (by rintro _ _ _ ⟨⟩) taken

/-- A node that is loaded twice with its TTL. -/
theorem supplied_iff_guarded_twice :
    ∃ past final, LoadRun past final ∧ past.length = 2 ∧
      ∀ move ∈ past, move.target.Supplied := by
  let item := nodeObject [(strTtl, .string "0x05".toList)]
  have replay : replays LoadOp.run .init [.node 0 false item, .node 0 false item]
      (fun past _ => decide (Guarded (fun cfg (op : LoadOp) => op.Gives cfg) past)) =
        true := by
    decide +kernel
  obtain ⟨past, final, run, labels, tested⟩ := execution_of_replays replay
  have length := congrArg List.length labels
  rw [List.length_map] at length
  exact ⟨past, final, run, length, (supplied_iff_guarded run).mpr (of_decide_eq_true tested)⟩

/-- A node is loaded with a TTL, and again after the TTL is gone from the file: the
feature is still to be set, and the command for it reads the absent field. -/
theorem reload_without_ttl :
    ∃ past final record, LoadRun past final ∧ final.db.get (.nodes 5) = some record ∧
      (final.db.heap record).config.features.pending ttlBitofs = true ∧
      (final.db.heap record).config.ttl = none ∧
      setconfigCommand 0 (final.db.heap record)
        (nextConfigItem (final.db.heap record).config.features) = .error .fieldMissing ∧
      ¬ final.Supplied := by
  let item := nodeObject [(strTtl, .string "0x05".toList)]
  have replay : replays LoadOp.run .init
      [.node 0 false item, .node 0 false (nodeObject [])]
      (fun _ final => decide (final.db.get (.nodes 5) = some 0 ∧
        (final.db.heap 0).config.features.pending ttlBitofs = true ∧
        (final.db.heap 0).config.ttl = none ∧
        (match setconfigCommand 0 (final.db.heap 0)
            (nextConfigItem (final.db.heap 0).config.features) with
          | .error abort => some abort
          | .ok _ => none) = some .fieldMissing)) = true := by
    decide +kernel
  obtain ⟨past, final, run, _, tested⟩ := execution_of_replays replay
  obtain ⟨found, pending, absent, reads⟩ := of_decide_eq_true tested
  refine ⟨past, final, 0, run, found, pending, absent, ?_, fun all => ?_⟩
  · cases command : setconfigCommand 0 (final.db.heap 0)
        (nextConfigItem (final.db.heap 0).config.features) with
    | error abort =>
        rw [command] at reads
        rw [Option.some.inj reads]
    | ok command' =>
        rw [command] at reads
        cases reads
  · have isSome := (all _ _ found).1.ttl pending
    rw [absent] at isSome
    cases isSome

end Nwmng
