/-
Module: Nwmng.Cfg.FinalConfig
Purpose: The load of a node as one equation, and how its result depends on the record
that it is loaded into.
Trusted boundary: none
Main exports:
  Features.Agree, agree_finalConfig, loadToNodeItem_eq, finalConfig_eq_iff,
  finalConfig_agree_high, loadOutcome, loadOutcome_eq, Settings.Reads
-/
import Nwmng.Cfg.Supplied

namespace Nwmng

open Json Fallible

/-! ## Features bit by bit -/

/-- Two records agree about one feature. -/
def Features.Agree (one other : Features) (bit : Nat) : Prop :=
  one.target.getLsbD bit = other.target.getLsbD bit ∧
    one.current.getLsbD bit = other.current.getLsbD bit

theorem Features.ext_of_agree {one other : Features} (bits : ∀ bit, one.Agree other bit)
    (relay : one.relayTxp = other.relayTxp) : one = other := by
  rcases one with ⟨target, current, relayTxp⟩
  rcases other with ⟨target', current', relayTxp'⟩
  have targets : target = target' := BitVec.eq_of_getLsbD_eq fun bit _ => (bits bit).1
  have currents : current = current' := BitVec.eq_of_getLsbD_eq fun bit _ => (bits bit).2
  cases targets
  cases currents
  cases relay
  rfl

/-- The features of a node next to those of its template. -/
def Features.adopted (own tmpl : Features) : Features :=
  if own.blank then own.adopt tmpl else own

section

variable (one other : Features)

theorem agree_setFeatureConfig (which : Nat) (on : Bool) (bit : Nat) :
    (setFeatureConfig one which on).Agree (setFeatureConfig other which on) bit ↔
      which = bit ∨ one.Agree other bit := by
  by_cases same : which = bit
  · subst same
    refine iff_of_true ?_ (.inl rfl)
    cases on <;>
      simp [Features.Agree, setFeatureConfig]
    all_goals
      by_cases inside : which < 16
      · simp [inside]
      · simp [inside, BitVec.getLsbD_of_ge _ _ (Nat.le_of_not_lt inside)]
  · cases on <;>
      simp [Features.Agree, setFeatureConfig, same]

theorem agree_mark (which : Nat) (on : Option Bool) (bit : Nat) :
    (one.mark which on).Agree (other.mark which on) bit ↔
      (on.isSome = true ∧ which = bit) ∨ one.Agree other bit := by
  cases on with
  | none => simp [Features.mark]
  | some on => simp [Features.mark, agree_setFeatureConfig]

/-- The low bits are those of the object. -/
theorem agree_merge {given : Features} (low : given.Given) (bit : Nat) :
    (one.merge given).Agree (other.merge given) bit ↔ bit < 4 ∨ one.Agree other bit := by
  have mask := mask_getLsbD bit
  simp only [Features.Agree, Features.merge, Features.cleared, BitVec.getLsbD_or,
    BitVec.getLsbD_and]
  change ((_ && (0xFFF0#16).getLsbD bit || _) = (_ && (0xFFF0#16).getLsbD bit || _) ∧
    (_ && (0xFFF0#16).getLsbD bit || _) = (_ && (0xFFF0#16).getLsbD bit || _)) ↔ _
  rw [mask]
  by_cases small : bit < 4
  · simp [small, Nat.not_le_of_lt small]
  · obtain ⟨target, current⟩ := low.low bit (Nat.le_of_not_lt small)
    rw [target, current, decide_eq_true (Nat.le_of_not_lt small)]
    by_cases inside : bit < 16
    · simp [small, inside]
    · simp [small, BitVec.getLsbD_of_ge _ _ (Nat.le_of_not_lt inside)]

theorem agree_adopt (tmpl : Features) {bit : Nat} (high : 4 ≤ bit) :
    (one.adopt tmpl).Agree (other.adopt tmpl) bit ↔ one.Agree other bit := by
  have mask : (0xF#16).getLsbD bit = false := by
    rw [low_mask, decide_eq_false (Nat.not_lt_of_le high)]
  simp only [Features.Agree, Features.adopt, BitVec.getLsbD_or, BitVec.getLsbD_and]
  change (_ || _ && (0xF#16).getLsbD bit) = (_ || _ && (0xF#16).getLsbD bit) ∧
    (_ || _ && (0xF#16).getLsbD bit) = (_ || _ && (0xF#16).getLsbD bit) ↔ _
  rw [mask]
  simp

/-- Adding the low bits of a template to bits that agree. -/
theorem agree_adopt_of_agree (tmpl : Features) {bit : Nat} (agree : one.Agree other bit) :
    (one.adopt tmpl).Agree (other.adopt tmpl) bit := by
  simp only [Features.Agree, Features.adopt, BitVec.getLsbD_or, agree.1, agree.2, and_self]

theorem blank_iff (features : Features) :
    features.blank = true ↔ ∀ bit, bit < 4 →
      features.target.getLsbD bit = false ∧ features.current.getLsbD bit = false := by
  constructor
  · intro blank bit low
    simp only [Features.blank, Bool.and_eq_true, beq_iff_eq] at blank
    exact ⟨low_clear blank.1 low, low_clear blank.2 low⟩
  · intro clear
    have cleared : ∀ map : BitVec 16, (∀ bit, bit < 4 → map.getLsbD bit = false) →
        (map &&& 0xF#16) = 0#16 := by
      intro map none
      apply BitVec.eq_of_getLsbD_eq
      intro bit _
      rw [BitVec.getLsbD_and, low_mask, BitVec.getLsbD_zero]
      by_cases low : bit < 4
      · rw [none bit low]
        rfl
      · simp [low]
    have target := cleared features.target fun bit low => (clear bit low).1
    have current := cleared features.current fun bit low => (clear bit low).2
    simp only [Features.blank, Bool.and_eq_true, beq_iff_eq]
    exact ⟨target, current⟩

variable {one other}

theorem blank_congr (agree : ∀ bit, bit < 4 → one.Agree other bit) :
    one.blank = other.blank := by
  rw [Bool.eq_iff_iff, blank_iff, blank_iff]
  constructor
  · intro blank bit low
    rw [← (agree bit low).1, ← (agree bit low).2]
    exact blank bit low
  · intro blank bit low
    rw [(agree bit low).1, (agree bit low).2]
    exact blank bit low

/-- Features with the same low bits take over the same from a template. -/
theorem agree_adopted (low : ∀ bit, bit < 4 → one.Agree other bit) (tmpl : Features)
    (bit : Nat) : (one.adopted tmpl).Agree (other.adopted tmpl) bit ↔ one.Agree other bit := by
  unfold Features.adopted
  rw [blank_congr low]
  by_cases blank : other.blank = true
  · rw [if_pos blank, if_pos blank]
    by_cases small : bit < 4
    · have agree := low bit small
      exact iff_of_true (agree_adopt_of_agree one other tmpl agree) agree
    · exact agree_adopt one other tmpl (Nat.le_of_not_lt small)
  · rw [if_neg blank, if_neg blank]

end

/-! ## Two loads of one object -/

section

variable (tmpl : Option MeshConfig) (settings : Settings) (given : settings.features.Given)
variable (one other : MeshConfig)

theorem agree_marked (bit : Nat) :
    (settings.marked one.features).Agree (settings.marked other.features) bit ↔
      (settings.netTxp.isSome = true ∧ nettxBitofs = bit) ∨
        (settings.snb.isSome = true ∧ snbBitofs = bit) ∨
          (settings.ttl.isSome = true ∧ ttlBitofs = bit) ∨
            one.features.Agree other.features bit := by
  simp only [Settings.marked, agree_mark, Option.isSome_map]

include given

theorem agree_apply (bit : Nat) :
    (settings.apply one).features.Agree (settings.apply other).features bit ↔
      bit < 4 ∨ (settings.netTxp.isSome = true ∧ nettxBitofs = bit) ∨
        (settings.snb.isSome = true ∧ snbBitofs = bit) ∨
          (settings.ttl.isSome = true ∧ ttlBitofs = bit) ∨
            one.features.Agree other.features bit := by
  have merged := agree_merge (settings.marked one.features)
    (settings.marked other.features) given bit
  rw [agree_marked] at merged
  exact merged

omit given in
theorem agree_markedFrom (source : MeshConfig) (bit : Nat) :
    (source.markedFrom (settings.apply one)).Agree
        (source.markedFrom (settings.apply other)) bit ↔
      ((newly source.snb settings.snb).isSome = true ∧ snbBitofs = bit) ∨
        ((newly source.ttl settings.ttl).isSome = true ∧ ttlBitofs = bit) ∨
          (settings.apply one).features.Agree (settings.apply other).features bit := by
  have ttl := agree_mark (settings.apply one).features (settings.apply other).features
    ttlBitofs (newly source.ttl settings.ttl) bit
  rw [← ttl]
  exact agree_mark _ _ _ _ bit

omit given in
theorem features_inherit (source config : MeshConfig) :
    (source.inherit config).features =
      ((source.markedFrom config).adopted source.features).mark nettxBitofs
        (newly source.netTxp config.netTxp) := rfl

/-- Two loads agree about the features that the object or its template gives, and about
the others as before. -/
theorem agree_finalConfig (bit : Nat) :
    (finalConfig tmpl settings one).features.Agree
        (finalConfig tmpl settings other).features bit ↔
      bit < 4 ∨ (supplies settings.netTxp (·.netTxp) tmpl = true ∧ nettxBitofs = bit) ∨
        (supplies settings.snb (·.snb) tmpl = true ∧ snbBitofs = bit) ∨
          (supplies settings.ttl (·.ttl) tmpl = true ∧ ttlBitofs = bit) ∨
            one.features.Agree other.features bit := by
  have applied := fun bit => agree_apply settings given one other bit
  cases tmpl with
  | none => simpa [finalConfig, supplies] using applied bit
  | some source =>
      have marked := fun bit => agree_markedFrom settings one other source bit
      have low : ∀ bit, bit < 4 → (source.markedFrom (settings.apply one)).Agree
          (source.markedFrom (settings.apply other)) bit := by
        intro bit low
        rw [marked, applied]
        exact .inr (.inr (.inl low))
      have sameNewly : newly source.netTxp (settings.apply other).netTxp =
          newly source.netTxp (settings.apply one).netTxp := by
        simp only [newly, Settings.apply, Option.isNone_map]
      simp only [finalConfig]
      rw [features_inherit, features_inherit, sameNewly, agree_mark, agree_adopted low, marked,
        applied]
      simp only [newly_isSome, supplies, Option.bind_some, Settings.apply, Option.isNone_map]
      by_cases nettx : nettxBitofs = bit
      · subst nettx
        cases settings.netTxp <;> simp [nettxBitofs, snbBitofs, ttlBitofs]
      · by_cases snb : snbBitofs = bit
        · subst snb
          cases settings.snb <;> simp [nettxBitofs, snbBitofs, ttlBitofs]
        · by_cases ttl : ttlBitofs = bit
          · subst ttl
            cases settings.ttl <;> simp [nettxBitofs, snbBitofs, ttlBitofs]
          · simp [nettx, snb, ttl]

end

/-!
## The load as one equation

The source loads member by member into the record, and then from the template.  `finalConfig` is
the same as one value, from which it can be read off what of the old record is left.
-/

/-- The object has relay parameters, and gives none of the four features. -/
def Settings.clashes (settings : Settings) : Bool :=
  settings.features.blank && settings.features.relayTxp.isSome

theorem mark_agree (features : Features) {which bit : Nat} (different : which ≠ bit)
    (on : Option Bool) : (features.mark which on).Agree features bit := by
  cases on with
  | none => exact ⟨rfl, rfl⟩
  | some on => cases on <;> simp [Features.Agree, Features.mark, setFeatureConfig, different]

theorem merge_agree_low (own given : Features) {bit : Nat} (low : bit < 4) :
    (own.merge given).Agree given bit := by
  have mask : (0xFFF0#16).getLsbD bit = false := by
    rw [mask_getLsbD, decide_eq_false (Nat.not_le_of_lt low)]
    rfl
  simp only [Features.Agree, Features.merge, Features.cleared, BitVec.getLsbD_or,
    BitVec.getLsbD_and]
  change (_ && (0xFFF0#16).getLsbD bit || _) = _ ∧ (_ && (0xFFF0#16).getLsbD bit || _) = _
  rw [mask]
  simp

theorem markedFrom_agree_low (source : MeshConfig) (settings : Settings)
    (config : MeshConfig) {bit : Nat} (low : bit < 4) :
    (source.markedFrom (settings.apply config)).Agree settings.features bit := by
  have snb : snbBitofs ≠ bit := by
    rintro rfl
    exact absurd low (by decide)
  have ttl : ttlBitofs ≠ bit := by
    rintro rfl
    exact absurd low (by decide)
  have first := mark_agree (settings.apply config).features ttl
    (newly source.ttl (settings.apply config).ttl)
  have second := mark_agree ((settings.apply config).features.mark ttlBitofs
    (newly source.ttl (settings.apply config).ttl)) snb
    (newly source.snb (settings.apply config).snb)
  have merged := merge_agree_low (settings.marked config.features) settings.features low
  exact ⟨(second.1.trans first.1).trans merged.1, (second.2.trans first.2).trans merged.2⟩

/-- Whether the assertion fails does not depend on the record. -/
theorem relayClash_iff (source : MeshConfig) (settings : Settings) (config : MeshConfig) :
    source.RelayClash (settings.apply config) ↔ settings.clashes = true := by
  have blanks := blank_congr fun bit low =>
    markedFrom_agree_low source settings config low
  unfold MeshConfig.RelayClash Settings.clashes
  rw [blanks, Bool.and_eq_true]
  rfl

/-- The id in a field. -/
def TmplField.id : TmplField → Option UInt8
  | .present _ id => some id
  | _ => none

theorem templateId_of_tmplField {fresh : UInt64} {obj : Value} {field : TmplField}
    (read : tmplField fresh obj = .ok field) : templateId obj = field.id := by
  have which := tmplField_ok read
  cases named : templateId obj with
  | none =>
      rw [named] at which
      rcases which with rfl | rfl <;> rfl
  | some id =>
      rw [named] at which
      subst which
      rfl

theorem loadToNodeItem_eq (templates : Templates) (fresh : UInt64) (obj : Value)
    (node : Node) :
    loadToNodeItem templates fresh obj node =
      settingsOf obj >>= fun settings => tmplField fresh obj >>= fun field =>
        if settings.clashes && (namedTemplate templates obj).isSome then .error .relayPresent
        else
          .ok { node with
            config := finalConfig (namedTemplate templates obj) settings node.config
            tmpl := field.load node.tmpl } := by
  unfold loadToNodeItem
  rw [loadConfig_eq]
  cases read : settingsOf obj with
  | error abort => rfl
  | ok settings =>
      simp only [ok_bind, loadTmpl]
      cases named : tmplField fresh obj with
      | error abort => rfl
      | ok field =>
          have which := templateId_of_tmplField named
          have source : namedTemplate templates obj =
              field.id.bind fun id => templates[id.toUInt16]? := by
            rw [namedTemplate, which]
          rw [ok_bind, ok_bind, source]
          cases field with
          | absent => simp [TmplField.id, finalConfig]
          | malformed => simp [TmplField.id, finalConfig]
          | present place refid =>
              have named : (TmplField.present place refid).id.bind
                  (fun id => templates[id.toUInt16]?) = templates[refid.toUInt16]? := rfl
              rw [named]
              cases held : templates[refid.toUInt16]? with
              | none => simp [held, finalConfig]
              | some source =>
                  have clash := relayClash_iff source settings node.config
                  simp only [held, copyTmplToNode_eq, Option.isSome_some, Bool.and_true, clash]
                  by_cases clashes : settings.clashes = true
                  · rw [if_pos clashes, if_pos clashes]
                    rfl
                  · rw [if_neg clashes, if_neg clashes]
                    rfl

/-- What a load does, when it completes. -/
theorem loadToNodeItem_final {templates : Templates} {fresh : UInt64} {obj : Value}
    {node after : Node} (load : loadToNodeItem templates fresh obj node = .ok after) :
    ∃ settings field, settingsOf obj = .ok settings ∧ tmplField fresh obj = .ok field ∧
      (settings.clashes && (namedTemplate templates obj).isSome) = false ∧
      after.config = finalConfig (namedTemplate templates obj) settings node.config ∧
      after.tmpl = field.load node.tmpl := by
  rw [loadToNodeItem_eq] at load
  simp only [bind_ok] at load
  obtain ⟨settings, read, field, named, load⟩ := load
  by_cases clash : (settings.clashes && (namedTemplate templates obj).isSome) = true
  · rw [if_pos clash] at load
    cases load
  · rw [if_neg clash] at load
    cases load
    exact ⟨settings, field, read, named, Bool.eq_false_iff.mpr clash, rfl, rfl⟩

/-- What a load is about: the configuration and the template id. -/
def Node.loaded (node : Node) : MeshConfig × Option UInt8 :=
  (node.config, node.tmpl.map (·.value))

def loadOutcome (templates : Templates) (fresh : UInt64) (obj : Value) (node : Node) :
    Except Abort (MeshConfig × Option UInt8) := do
  let node ← loadToNodeItem templates fresh obj node
  .ok node.loaded

theorem loadOutcome_eq (templates : Templates) (fresh : UInt64) (obj : Value) (node : Node) :
    loadOutcome templates fresh obj node =
      settingsOf obj >>= fun settings => tmplField fresh obj >>= fun field =>
        if settings.clashes && (namedTemplate templates obj).isSome then .error .relayPresent
        else
          .ok (finalConfig (namedTemplate templates obj) settings node.config,
            (field.load node.tmpl).map (·.value)) := by
  unfold loadOutcome
  rw [loadToNodeItem_eq, bind_assoc]
  cases settingsOf obj with
  | error abort => rfl
  | ok settings =>
      rw [ok_bind, ok_bind, bind_assoc]
      cases tmplField fresh obj with
      | error abort => rfl
      | ok field =>
          rw [ok_bind, ok_bind]
          by_cases clash : (settings.clashes && (namedTemplate templates obj).isSome) = true
          · rw [if_pos clash, if_pos clash]
            rfl
          · rw [if_neg clash, if_neg clash]
            rfl

theorem loadToTmplItem_eq (obj : Value) (config : MeshConfig) :
    loadToTmplItem obj config = settingsOf obj >>= fun settings =>
      .ok (finalConfig none settings config) :=
  loadConfig_eq obj config

/-!
## When two records lead to the same configuration

A member that is given hides what the record had.  So two records lead to the same configuration
exactly when they agree where neither the object nor its template gives anything.
-/

theorem relayTxp_finalConfig (tmpl : Option MeshConfig) (settings : Settings)
    (config : MeshConfig) :
    (finalConfig tmpl settings config).features.relayTxp =
      match tmpl with
      | none => settings.features.relayTxp
      | some source =>
          if settings.features.blank then source.features.relayTxp
          else settings.features.relayTxp := by
  cases tmpl with
  | none => rfl
  | some source =>
      have blanks : (source.markedFrom (settings.apply config)).blank =
          settings.features.blank :=
        blank_congr fun bit low => markedFrom_agree_low source settings config low
      have marked : (source.markedFrom (settings.apply config)).relayTxp =
          settings.features.relayTxp := by
        rw [MeshConfig.markedFrom, relayTxp_mark, relayTxp_mark]
        rfl
      rw [finalConfig, features_inherit, relayTxp_mark, Features.adopted, blanks]
      by_cases blank : settings.features.blank = true
      · simp only [if_pos blank]
        rfl
      · simp only [if_neg blank]
        exact marked

/-- Both records lead to the same configuration.  The comparison is made field by field, and bit
by bit for the features. -/
theorem finalConfig_eq_iff (tmpl : Option MeshConfig) (settings : Settings)
    (one other : MeshConfig) :
    finalConfig tmpl settings one = finalConfig tmpl settings other ↔
      (∀ patch, settings.netTxp = some patch →
        patch.apply (one.netTxp.getD .zeroed) = patch.apply (other.netTxp.getD .zeroed)) ∧
      (∀ change, settings.pub = some change →
        change (one.pub.getD .zeroed) = change (other.pub.getD .zeroed)) ∧
      ∀ bit, (finalConfig tmpl settings one).features.Agree
        (finalConfig tmpl settings other).features bit := by
  constructor
  · intro same
    refine ⟨fun patch gives => ?_, fun change gives => ?_, fun bit => ?_⟩
    · have fields := congrArg MeshConfig.netTxp same
      cases tmpl <;> simpa [finalConfig, Settings.apply, MeshConfig.inherit, gives] using fields
    · have fields := congrArg MeshConfig.pub same
      cases tmpl <;> simpa [finalConfig, Settings.apply, MeshConfig.inherit, gives] using fields
    · rw [same]
      exact ⟨rfl, rfl⟩
  · rintro ⟨netTxp, pub, agree⟩
    have patched : settings.netTxp.map (·.apply (one.netTxp.getD .zeroed)) =
        settings.netTxp.map (·.apply (other.netTxp.getD .zeroed)) := by
      cases gives : settings.netTxp with
      | none => rfl
      | some patch => exact congrArg some (netTxp patch gives)
    have changed : settings.pub.map (· (one.pub.getD .zeroed)) =
        settings.pub.map (· (other.pub.getD .zeroed)) := by
      cases gives : settings.pub with
      | none => rfl
      | some change => exact congrArg some (pub change gives)
    have relay := (relayTxp_finalConfig tmpl settings one).trans
      (relayTxp_finalConfig tmpl settings other).symm
    have features := Features.ext_of_agree agree relay
    cases tmpl with
    | none =>
        simp only [finalConfig, Settings.apply] at features ⊢
        rw [patched, changed, features]
    | some source =>
        simp only [finalConfig, MeshConfig.inherit, Settings.apply] at features ⊢
        rw [features, patched, changed]

theorem merge_agree_high {own given : Features} (low : given.Given) {bit : Nat}
    (high : 4 ≤ bit) : (own.merge given).Agree own bit := by
  obtain ⟨target, current⟩ := low.low bit high
  by_cases inside : bit < 16
  · have mask : (0xFFF0#16).getLsbD bit = true := by
      rw [mask_getLsbD, decide_eq_true high, decide_eq_true inside]
      rfl
    simp only [Features.Agree, Features.merge, Features.cleared, BitVec.getLsbD_or,
      BitVec.getLsbD_and, target, current]
    change (_ && (0xFFF0#16).getLsbD bit || _) = _ ∧ (_ && (0xFFF0#16).getLsbD bit || _) = _
    rw [mask]
    simp
  · have outside : 16 ≤ bit := Nat.le_of_not_lt inside
    simp only [Features.Agree, BitVec.getLsbD_of_ge _ _ outside, and_self]

theorem adopted_agree_high (own tmpl : Features) {bit : Nat} (high : 4 ≤ bit) :
    (own.adopted tmpl).Agree own bit := by
  unfold Features.adopted
  by_cases blank : own.blank = true
  · have mask : (0xF#16).getLsbD bit = false := by
      rw [low_mask, decide_eq_false (Nat.not_lt_of_le high)]
    rw [if_pos blank]
    simp only [Features.Agree, Features.adopt, BitVec.getLsbD_or, BitVec.getLsbD_and]
    change (_ || _ && (0xF#16).getLsbD bit) = _ ∧ (_ || _ && (0xF#16).getLsbD bit) = _
    rw [mask]
    simp
  · rw [if_neg blank]
    exact ⟨rfl, rfl⟩

theorem Features.Agree.trans {one other third : Features} {bit : Nat}
    (first : one.Agree other bit) (second : other.Agree third bit) : one.Agree third bit :=
  ⟨first.1.trans second.1, first.2.trans second.2⟩

/-- No load touches the higher features. -/
theorem finalConfig_agree_high {settings : Settings} (given : settings.features.Given)
    (tmpl : Option MeshConfig) (config : MeshConfig) {bit : Nat} (high : 7 ≤ bit) :
    (finalConfig tmpl settings config).features.Agree config.features bit := by
  have nettx : nettxBitofs ≠ bit := by
    rintro rfl
    exact absurd high (by decide)
  have snb : snbBitofs ≠ bit := by
    rintro rfl
    exact absurd high (by decide)
  have ttl : ttlBitofs ≠ bit := by
    rintro rfl
    exact absurd high (by decide)
  have above : 4 ≤ bit := Nat.le_trans (by decide) high
  have marked : (settings.marked config.features).Agree config.features bit :=
    ((mark_agree _ nettx _).trans (mark_agree _ snb _)).trans (mark_agree _ ttl _)
  have applied : (settings.apply config).features.Agree config.features bit :=
    (merge_agree_high given above).trans marked
  cases tmpl with
  | none => exact applied
  | some source =>
      rw [finalConfig, features_inherit]
      have fromTemplate : (source.markedFrom (settings.apply config)).Agree
          (settings.apply config).features bit :=
        (mark_agree _ snb _).trans (mark_agree _ ttl _)
      exact (((mark_agree _ nettx _).trans (adopted_agree_high _ _ above)).trans
        fromTemplate).trans applied

/-! ## The members behind the settings -/

/-- The members behind the settings.  A member that is malformed is an error of its reader and
leaves its setting absent, as the loader goes on with the next one. -/
structure Settings.Reads (settings : Settings) (obj : Value) : Prop where
  ttl : readMember uint8Loader obj strTtl = .ok settings.ttl
  pub : readMember readPub obj strPub = .ok settings.pub
  snb : readMember uint8Loader obj strSnb = .ok settings.snb
  netTxp : readMember readTxpPatch obj strTxp = .ok settings.netTxp
  bindings : readMember loadUint16List obj strBind = .ok settings.bindings
  sublist : readMember loadUint16List obj strSub = .ok settings.sublist
  features : ∃ features, readMember readFeatures obj strFeatures = .ok features ∧
    settings.features = features.getD .zeroed

theorem settingsOf_reads {obj : Value} {settings : Settings}
    (read : settingsOf obj = .ok settings) : settings.Reads obj := by
  simp only [settingsOf, bind_ok, Except.ok.injEq] at read
  obtain ⟨ttl, ttls, pub, pubs, snb, snbs, netTxp, netTxps, bindings, binds, sublist, subs,
    features, featuress, rfl⟩ := read
  exact ⟨ttls, pubs, snbs, netTxps, binds, subs, features, featuress, rfl⟩

end Nwmng
