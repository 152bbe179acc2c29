/-
Module: Nwmng.Cfg.Inheritance
Purpose: Loading a node that names a template against loading the node with the fields
of the template written into it.
Trusted boundary: none
Main exports:
  expand, settingsOf_expand, MeshConfig.effective, WrittenAlike, inheritance_agrees_iff
-/
import Nwmng.Cfg.FinalConfig

namespace Nwmng

open Json Fallible

/-! ## Writing the fields of a template into a node -/

/-- The keys of the loaders that nodes and templates share. -/
def inheritedKeys : List String :=
  [strTtl, strPub, strSnb, strTxp, strBind, strSub, strFeatures]

/-- A member that is absent is copied. -/
def fillKey (source obj : Value) (key : String) : Value :=
  match obj.get key, source.get key with
  | none, some value => obj.set key value
  | _, _ => obj

/-- The object with each field that is absent from it copied from the other one. -/
def expand (source obj : Value) : Value :=
  inheritedKeys.foldl (fillKey source) obj

section

variable (source : Value)

theorem get_fillKey_self {obj : Value} (isObject : obj.isObject = true) (key : String) :
    (fillKey source obj key).get key = (obj.get key).or (source.get key) := by
  unfold fillKey
  cases own : obj.get key with
  | some value => simp [own]
  | none =>
      cases given : source.get key with
      | none => simp [own]
      | some value => simp [Value.get_set_self isObject]

theorem get_fillKey_other (obj : Value) {key other : String} (different : other ≠ key) :
    (fillKey source obj key).get other = obj.get other := by
  unfold fillKey
  cases obj.get key with
  | some value => rfl
  | none =>
      cases source.get key with
      | none => rfl
      | some value => exact Value.get_set_other different obj value

theorem isObject_fillKey (obj : Value) (key : String) :
    (fillKey source obj key).isObject = obj.isObject := by
  unfold fillKey
  cases obj.get key with
  | some value => rfl
  | none =>
      cases source.get key with
      | none => rfl
      | some value => exact Value.isObject_set obj key value

/-- A list of keys, one after the other. -/
theorem get_foldl_fillKey {obj : Value} (isObject : obj.isObject = true)
    (keys : List String) (key : String) :
    (keys.foldl (fillKey source) obj).get key =
      if key ∈ keys then (obj.get key).or (source.get key) else obj.get key := by
  induction keys generalizing obj with
  | nil => rfl
  | cons first rest hypothesis =>
      rw [List.foldl_cons, hypothesis ((isObject_fillKey source obj first).trans isObject)]
      by_cases same : key = first
      · subst same
        rw [get_fillKey_self source isObject, if_pos List.mem_cons_self]
        by_cases later : key ∈ rest
        · rw [if_pos later]
          cases obj.get key with
          | none => cases source.get key <;> rfl
          | some value => rfl
        · rw [if_neg later]
      · rw [get_fillKey_other source obj same]
        simp only [List.mem_cons, same, false_or]

theorem get_expand {obj : Value} (isObject : obj.isObject = true) {key : String}
    (shared : key ∈ inheritedKeys) :
    (expand source obj).get key = (obj.get key).or (source.get key) := by
  rw [expand, get_foldl_fillKey source isObject, if_pos shared]

theorem get_expand_other {obj : Value} (isObject : obj.isObject = true) {key : String}
    (own : key ∉ inheritedKeys) : (expand source obj).get key = obj.get key := by
  rw [expand, get_foldl_fillKey source isObject, if_neg own]

/-- One member: that of the object when it is there. -/
theorem readMember_expand {source} {α : Type} {read : Value → Except Abort (Option α)}
    {obj : Value} (isObject : obj.isObject = true) {key : String}
    (shared : key ∈ inheritedKeys) {given : Option α}
    (reads : readMember read source key = .ok given) :
    readMember read (expand source obj) key = readMember read obj key >>= fun own =>
      .ok (if (obj.get key).isSome then own else given) := by
  have member := get_expand source isObject shared
  unfold readMember at reads ⊢
  rw [member]
  cases own : obj.get key with
  | none =>
      rw [Option.none_or, reads]
      rfl
  | some value =>
      rw [Option.some_or]
      dsimp only
      cases read value <;> rfl

end

/-- The settings of an object with those of another one behind them. -/
def Settings.fill (own inherited : Settings) (obj : Value) : Settings where
  ttl := if (obj.get strTtl).isSome then own.ttl else inherited.ttl
  pub := if (obj.get strPub).isSome then own.pub else inherited.pub
  snb := if (obj.get strSnb).isSome then own.snb else inherited.snb
  netTxp := if (obj.get strTxp).isSome then own.netTxp else inherited.netTxp
  bindings := if (obj.get strBind).isSome then own.bindings else inherited.bindings
  sublist := if (obj.get strSub).isSome then own.sublist else inherited.sublist
  features := if (obj.get strFeatures).isSome then own.features else inherited.features

theorem settingsOf_expand {source obj : Value} (isObject : obj.isObject = true)
    {inherited : Settings} (read : settingsOf source = .ok inherited) :
    settingsOf (expand source obj) = settingsOf obj >>= fun own =>
      .ok (own.fill inherited obj) := by
  have reads := settingsOf_reads read
  obtain ⟨features, readsFeatures, given⟩ := reads.features
  simp only [settingsOf, bind_assoc, ok_bind,
    readMember_expand isObject (by decide : strTtl ∈ inheritedKeys) reads.ttl,
    readMember_expand isObject (by decide : strPub ∈ inheritedKeys) reads.pub,
    readMember_expand isObject (by decide : strSnb ∈ inheritedKeys) reads.snb,
    readMember_expand isObject (by decide : strTxp ∈ inheritedKeys) reads.netTxp,
    readMember_expand isObject (by decide : strBind ∈ inheritedKeys) reads.bindings,
    readMember_expand isObject (by decide : strSub ∈ inheritedKeys) reads.sublist,
    readMember_expand isObject (by decide : strFeatures ∈ inheritedKeys) readsFeatures]
  refine bind_congr fun ttl => bind_congr fun pub => bind_congr fun snb =>
    bind_congr fun netTxp => bind_congr fun bindings => bind_congr fun sublist =>
    bind_congr fun own => ?_
  simp only [Settings.fill, given]
  cases (obj.get strFeatures).isSome <;> rfl

/-!
## Effective configurations

What a node inherits is stored like what it has, so configurations are compared by what they ask
for: the values, the entries of the lists, and both bits of each feature.
-/

/-- The entries of a list; a list that is not there has none. -/
def Uint16List.entries : Option Uint16List → List UInt16
  | some list => list.data.take list.len.toNat
  | none => []

/-- What the configuration of a node asks for.  Two configurations that agree here are carried
out by the same commands. -/
structure EffectiveConfig where
  ttl : Option UInt8
  snb : Option UInt8
  netTxp : Option Txparam
  features : Features
  pub : Option Publication
  bindings : List UInt16
  sublist : List UInt16
deriving DecidableEq

def MeshConfig.effective (config : MeshConfig) : EffectiveConfig where
  ttl := config.ttl
  snb := config.snb
  netTxp := config.netTxp
  features := config.features
  pub := config.pub
  bindings := Uint16List.entries config.bindings
  sublist := Uint16List.entries config.sublist

/-- The effective configuration and the template id after a load. -/
def effectiveLoad (templates : Templates) (fresh : UInt64) (obj : Value) (node : Node) :
    Except Abort (EffectiveConfig × Option UInt8) := do
  let loaded ← loadOutcome templates fresh obj node
  .ok (loaded.1.effective, loaded.2)

theorem entries_allocCopyU16List (list : Option Uint16List) :
    Uint16List.entries (list.bind allocCopyU16List) = Uint16List.entries list := by
  cases list with
  | none => rfl
  | some list =>
      simp only [Option.bind_some, allocCopyU16List]
      by_cases empty : list.len = 0
      · simp [Uint16List.entries, empty]
      · simp [Uint16List.entries, empty, List.take_take]

/-! ### Features -/

/-- Both bits of a feature. -/
def Features.bits (features : Features) (bit : Nat) : Bool × Bool :=
  (features.target.getLsbD bit, features.current.getLsbD bit)

theorem agree_iff_bits (one other : Features) (bit : Nat) :
    one.Agree other bit ↔ one.bits bit = other.bits bit := by
  simp only [Features.Agree, Features.bits, Prod.mk.injEq]

/-- A feature that is set on or off. -/
def featureBits (on : Bool) : Bool × Bool := (on, !on)

theorem bits_mark (features : Features) {which : Nat} (inside : which < 16)
    (on : Option Bool) (bit : Nat) :
    (features.mark which on).bits bit =
      if which = bit then (on.map featureBits).getD (features.bits bit)
      else features.bits bit := by
  by_cases same : which = bit
  · subst same
    rw [if_pos rfl]
    cases on with
    | none => rfl
    | some on =>
        cases on <;>
          simp only [Features.bits, Features.mark, setFeatureConfig, Bool.false_eq_true,
            if_false, if_true, getLsbD_bitSet, getLsbD_bitClr, decide_true, inside] <;>
          simp [featureBits]
  · rw [if_neg same]
    exact (agree_iff_bits _ _ _).mp (mark_agree features same on)

section

variable (source config : MeshConfig) (settings : Settings)

/-- The low bits are the node's own, unless they are clear. -/
theorem bits_inherit_low {bit : Nat} (low : bit < 4) :
    (finalConfig (some source) settings config).features.bits bit =
      if settings.features.blank then source.features.bits bit
      else settings.features.bits bit := by
  have nettx : nettxBitofs ≠ bit := by
    rintro rfl
    exact absurd low (by decide)
  have own := fun (bit : Nat) (low : bit < 4) =>
    markedFrom_agree_low source settings config low
  have blanks := blank_congr own
  have marked := (agree_iff_bits _ _ _).mp (mark_agree
    ((source.markedFrom (settings.apply config)).adopted source.features) nettx
    (newly source.netTxp (settings.apply config).netTxp))
  rw [finalConfig, features_inherit, marked, Features.adopted, blanks]
  by_cases blank : settings.features.blank = true
  · rw [if_pos blank, if_pos blank]
    have clear := (blank_iff _).mp (blanks.trans blank) bit low
    have mask : (0xF#16).getLsbD bit = true := by
      rw [low_mask, decide_eq_true low]
    simp only [Features.bits, Features.adopt, BitVec.getLsbD_or, BitVec.getLsbD_and, clear]
    change (false || _ && (0xF#16).getLsbD bit, false || _ && (0xF#16).getLsbD bit) = _
    rw [mask]
    simp
  · rw [if_neg blank, if_neg blank]
    exact (agree_iff_bits _ _ _).mp (own bit low)

theorem bits_written_low {bit : Nat} (low : bit < 4) :
    (finalConfig none settings config).features.bits bit = settings.features.bits bit :=
  (agree_iff_bits _ _ _).mp (merge_agree_low (settings.marked config.features) _ low)

variable {settings} (given : settings.features.Given)

include given

theorem bits_written_high {bit : Nat} (high : 4 ≤ bit) :
    (finalConfig none settings config).features.bits bit =
      (settings.marked config.features).bits bit :=
  (agree_iff_bits _ _ _).mp (merge_agree_high given high)

/-- The features of optional fields are set by the node, and then for what it inherits. -/
theorem bits_inherit_high {bit : Nat} (high : 4 ≤ bit) :
    (finalConfig (some source) settings config).features.bits bit =
      ((((settings.marked config.features).mark ttlBitofs
          (newly source.ttl settings.ttl)).mark snbBitofs
            (newly source.snb settings.snb)).mark nettxBitofs
              (newly source.netTxp (settings.apply config).netTxp)).bits bit := by
  have applied := bits_written_high config given high
  have adopted := (agree_iff_bits _ _ _).mp
    (adopted_agree_high (source.markedFrom (settings.apply config)) source.features high)
  rw [finalConfig, features_inherit, bits_mark _ (by decide), adopted,
    MeshConfig.markedFrom, bits_mark _ (by decide), bits_mark _ (by decide)]
  rw [bits_mark _ (by decide), bits_mark _ (by decide), bits_mark _ (by decide)]
  rw [← applied]
  rfl

end

/-!
## When both loads agree

The conditions go field by field.  A field differs when a member of the node is there but yields
nothing, for then the template steps in, which no written field would do; the beacon also when
the template turns it off, since the copy turns on whatever it finds.
-/

/-- The conditions under which inheritance is the same as writing the fields: no member
of the node stands in for a field that only the template has, and the values of the
template mean the same in both places. -/
structure WrittenAlike (obj : Value) (own inherited : Settings) (config : MeshConfig) : Prop where
  ttl : (obj.get strTtl).isSome = true → own.ttl = none → inherited.ttl = none
  snb : (obj.get strSnb).isSome = true → own.snb = none → inherited.snb = none
  netTxp : (obj.get strTxp).isSome = true → own.netTxp = none → inherited.netTxp = none
  pub : (obj.get strPub).isSome = true → own.pub = none → inherited.pub = none
  bindings : (obj.get strBind).isSome = true → own.bindings = none →
    Uint16List.entries inherited.bindings = []
  sublist : (obj.get strSub).isSome = true → own.sublist = none →
    Uint16List.entries inherited.sublist = []
  features : (obj.get strFeatures).isSome = true → own.features.blank = true →
    own.features.relayTxp = none ∧ inherited.features.blank = true ∧
      inherited.features.relayTxp = none
  snbOn : own.snb = none → inherited.snb ≠ some 0
  netTxpFilled : (obj.get strTxp).isSome = false → ∀ patch, inherited.netTxp = some patch →
    patch.apply (config.netTxp.getD .zeroed) = patch.apply .zeroed
  pubFilled : (obj.get strPub).isSome = false → ∀ change, inherited.pub = some change →
    change (config.pub.getD .zeroed) = change .zeroed

theorem or_eq_written {α : Type} {present : Bool} {own tmpl : Option α}
    (absent : present = false → own = none) :
    own.or tmpl = (if present then own else tmpl) ↔
      (present = true → own = none → tmpl = none) := by
  cases present with
  | false =>
      rw [absent rfl]
      simp
  | true => cases own <;> simp

theorem or_map_eq_written {α β : Type} {present : Bool} {own tmpl : Option α} (here new : α → β)
    (absent : present = false → own = none) :
    (own.map here).or (tmpl.map new) = (if present then own else tmpl).map here ↔
      (present = true → own = none → tmpl = none) ∧
        (present = false → ∀ value, tmpl = some value → here value = new value) := by
  cases present with
  | false =>
      rw [absent rfl]
      cases tmpl with
      | none => simp
      | some value => simp [eq_comm]
  | true => cases own <;> simp

theorem entries_or_eq_written {present : Bool} {own tmpl : Option Uint16List}
    (absent : present = false → own = none) :
    Uint16List.entries (own.or (tmpl.bind allocCopyU16List)) =
        Uint16List.entries (if present then own else tmpl) ↔
      (present = true → own = none → Uint16List.entries tmpl = []) := by
  have copied := entries_allocCopyU16List tmpl
  cases present with
  | false =>
      rw [absent rfl]
      simp [copied]
  | true =>
      cases own with
      | none =>
          have empty : Uint16List.entries (if true = true then none else tmpl) = [] := rfl
          rw [Option.none_or, copied, empty]
          simp
      | some list => simp

section

variable {obj : Value} {own inherited : Settings}

/-- A member that is not there is not read. -/
theorem readMember_absent {α : Type} {read : Value → Except Abort (Option α)} {key : String}
    {given : Option α} (reads : readMember read obj key = .ok given)
    (absent : (obj.get key).isSome = false) : given = none := by
  unfold readMember at reads
  cases found : obj.get key with
  | none =>
      rw [found] at reads
      exact (Except.ok.inj reads).symm
  | some value =>
      rw [found] at absent
      cases absent

theorem Settings.Reads.features_absent (reads : own.Reads obj)
    (absent : (obj.get strFeatures).isSome = false) : own.features = .zeroed := by
  obtain ⟨features, read, given⟩ := reads.features
  rw [given, readMember_absent read absent]
  rfl

theorem bits_marks (features : Features) (ttl snb nettx : Option Bool) (bit : Nat) :
    (((features.mark ttlBitofs ttl).mark snbBitofs snb).mark nettxBitofs nettx).bits bit =
      if nettxBitofs = bit then (nettx.map featureBits).getD (features.bits bit)
      else if snbBitofs = bit then (snb.map featureBits).getD (features.bits bit)
      else if ttlBitofs = bit then (ttl.map featureBits).getD (features.bits bit)
      else features.bits bit := by
  rw [bits_mark _ (by decide), bits_mark _ (by decide), bits_mark _ (by decide)]
  by_cases isNettx : nettxBitofs = bit
  · subst isNettx
    rfl
  · rw [if_neg isNettx, if_neg isNettx]
    by_cases isSnb : snbBitofs = bit
    · subst isSnb
      rfl
    · rw [if_neg isSnb, if_neg isSnb]

/-- The values behind the features are the same in both loads.  The features themselves are
compared apart from them, bit by bit. -/
structure SameValues (obj : Value) (own inherited : Settings) : Prop where
  ttl : own.ttl.or inherited.ttl = (own.fill inherited obj).ttl
  snb : own.snb.or inherited.snb = (own.fill inherited obj).snb
  netTxp : (own.netTxp.isSome || inherited.netTxp.isSome) =
    (own.fill inherited obj).netTxp.isSome

/-- A feature that is always on is on when either side has its value. -/
theorem bits_of_isSome {α : Type} {first second written : Option α}
    (values : (first.isSome || second.isSome) = written.isSome) (before : Bool × Bool) :
    ((if second.isSome && first.isNone then some true else none).map featureBits).getD
        (((first.map fun _ => true).map featureBits).getD before) =
      ((written.map fun _ => true).map featureBits).getD before := by
  cases first with
  | some value =>
      cases written with
      | some value' => simp
      | none => cases values
  | none =>
      cases second with
      | some value =>
          cases written with
          | some value' => rfl
          | none => cases values
      | none =>
          cases written with
          | some value' => cases values
          | none => rfl

/-- Only the beacon can differ: a template always turns it on. -/
theorem bits_high_iff (same : SameValues obj own inherited) (given : own.features.Given)
    (givenFill : (own.fill inherited obj).features.Given) (config : MeshConfig) :
    (∀ bit, 4 ≤ bit →
      (finalConfig (some (inherited.apply .zeroed)) own config).features.bits bit =
        (finalConfig none (own.fill inherited obj) config).features.bits bit) ↔
      (own.snb = none → inherited.snb ≠ some 0) := by
  have high := fun (bit : Nat) (above : 4 ≤ bit) =>
    (bits_inherit_high (inherited.apply .zeroed) config given above).trans
      (bits_marks _ _ _ _ bit)
  have marks := fun bit => bits_marks config.features (own.ttl.map fun _ => true)
    (own.snb.map (· != 0)) (own.netTxp.map fun _ => true) bit
  have written := fun (bit : Nat) (above : 4 ≤ bit) =>
    (bits_written_high config givenFill above).trans (bits_marks _ _ _ _ bit)
  have snbWritten : (finalConfig none (own.fill inherited obj) config).features.bits snbBitofs =
      (((own.snb.or inherited.snb).map (· != 0)).map featureBits).getD
        (config.features.bits snbBitofs) := by
    rw [same.snb]
    exact written snbBitofs (by decide)
  have snbInherited :
      (finalConfig (some (inherited.apply .zeroed)) own config).features.bits snbBitofs =
        ((newly inherited.snb own.snb).map featureBits).getD
          (((own.snb.map (· != 0)).map featureBits).getD (config.features.bits snbBitofs)) := by
    have ownBits : (own.marked config.features).bits snbBitofs =
        ((own.snb.map (· != 0)).map featureBits).getD (config.features.bits snbBitofs) :=
      marks snbBitofs
    rw [← ownBits]
    exact high snbBitofs (by decide)
  have snb_iff : (finalConfig (some (inherited.apply .zeroed)) own config).features.bits
        snbBitofs =
      (finalConfig none (own.fill inherited obj) config).features.bits snbBitofs ↔
        (own.snb = none → inherited.snb ≠ some 0) := by
    rw [snbInherited, snbWritten]
    cases own.snb with
    | some value => cases inherited.snb <;> simp [newly]
    | none =>
        cases inherited.snb with
        | none => simp [newly]
        | some value =>
            by_cases zero : value = 0
            · simp [newly, zero, featureBits]
            · have on : (value != 0) = true := bne_iff_ne.mpr zero
              simp [newly, zero, on]
  rw [← snb_iff]
  constructor
  · intro every
    exact every snbBitofs (by decide)
  · intro beacon bit above
    by_cases isSnb : snbBitofs = bit
    · subst isSnb
      exact beacon
    · rw [high bit above, written bit above]
      have marked : (own.marked config.features).bits bit = _ := marks bit
      rw [marked]
      by_cases isNettx : nettxBitofs = bit
      · subst isNettx
        have newer : newly (inherited.apply .zeroed).netTxp (own.apply config).netTxp =
            if inherited.netTxp.isSome && own.netTxp.isNone then some true else none := by
          simp only [newly, Settings.apply, Option.isSome_map, Option.isNone_map]
        rw [if_pos rfl, if_pos rfl, if_pos rfl, newer]
        exact bits_of_isSome same.netTxp _
      · rw [if_neg isNettx, if_neg isNettx, if_neg isNettx, if_neg isSnb, if_neg isSnb,
          if_neg isSnb]
        by_cases isTtl : ttlBitofs = bit
        · subst isTtl
          rw [if_pos rfl, if_pos rfl, if_pos rfl, ← same.ttl]
          have template : (inherited.apply .zeroed).ttl = inherited.ttl := rfl
          rw [template]
          cases own.ttl <;> cases inherited.ttl <;> rfl
        · rw [if_neg isTtl, if_neg isTtl, if_neg isTtl]

/-- The low features differ when the node gives none of them and the template some. -/
theorem bits_low_iff (inherited : Settings) (reads : own.Reads obj) (noClash : own.clashes = false)
    (config : MeshConfig) :
    ((∀ bit, bit < 4 →
      (finalConfig (some (inherited.apply .zeroed)) own config).features.bits bit =
        (finalConfig none (own.fill inherited obj) config).features.bits bit) ∧
      (finalConfig (some (inherited.apply .zeroed)) own config).features.relayTxp =
        (finalConfig none (own.fill inherited obj) config).features.relayTxp) ↔
      ((obj.get strFeatures).isSome = true → own.features.blank = true →
        own.features.relayTxp = none ∧ inherited.features.blank = true ∧
          inherited.features.relayTxp = none) := by
  have low := fun (bit : Nat) (below : bit < 4) =>
    bits_inherit_low (inherited.apply .zeroed) config own below
  have written := fun (bit : Nat) (below : bit < 4) =>
    bits_written_low config (own.fill inherited obj) below
  have template := fun (bit : Nat) (below : bit < 4) =>
    bits_written_low MeshConfig.zeroed inherited below
  have relay := relayTxp_finalConfig (some (inherited.apply .zeroed)) own config
  have relayWritten := relayTxp_finalConfig none (own.fill inherited obj) config
  simp only at relay relayWritten
  rw [relay, relayWritten]
  have templateRelay : (inherited.apply .zeroed).features.relayTxp =
      inherited.features.relayTxp := rfl
  rw [templateRelay]
  have bits : ∀ features : Features, features.blank = true ↔
      ∀ bit, bit < 4 → features.bits bit = (false, false) := by
    intro features
    simp only [blank_iff, Features.bits, Prod.mk.injEq]
  cases present : (obj.get strFeatures).isSome with
  | false =>
      have zeroed := reads.features_absent present
      have blank : own.features.blank = true := by
        rw [zeroed]
        rfl
      have fill : (own.fill inherited obj).features = inherited.features := by
        simp only [Settings.fill, present]
        rfl
      refine iff_of_true ⟨fun bit below => ?_, ?_⟩ (fun impossible => nomatch impossible)
      · rw [low bit below, written bit below, if_pos blank, fill]
        exact template bit below
      · rw [if_pos blank, fill]
  | true =>
      have fill : (own.fill inherited obj).features = own.features := by
        simp only [Settings.fill, present, if_true]
      rw [fill]
      by_cases blank : own.features.blank = true
      · have noRelay : own.features.relayTxp = none := by
          rw [Settings.clashes, blank, Bool.true_and] at noClash
          exact Option.isNone_iff_eq_none.mp (by simpa using noClash)
        rw [if_pos blank, noRelay]
        constructor
        · rintro ⟨every, relays⟩ _ _
          refine ⟨rfl, (bits _).mpr fun bit below => ?_, relays⟩
          have both := every bit below
          rw [low bit below, written bit below, if_pos blank, fill] at both
          have own := (bits _).mp blank bit below
          exact (template bit below).symm.trans (both.trans own)
        · intro clear
          obtain ⟨_, none, relays⟩ := clear rfl blank
          refine ⟨fun bit below => ?_, relays⟩
          rw [low bit below, written bit below, if_pos blank, fill]
          have own := (bits _).mp blank bit below
          exact ((template bit below).trans ((bits _).mp none bit below)).trans own.symm
      · rw [if_neg blank]
        refine iff_of_true ⟨fun bit below => ?_, rfl⟩ fun _ impossible => absurd impossible blank
        rw [low bit below, written bit below, if_neg blank, fill]

/-- The features of both loads, when the values behind them are the same. -/
theorem features_eq_iff (same : SameValues obj own inherited) (reads : own.Reads obj)
    (given : own.features.Given) (givenFill : (own.fill inherited obj).features.Given)
    (noClash : own.clashes = false) (config : MeshConfig) :
    (finalConfig (some (inherited.apply .zeroed)) own config).features =
        (finalConfig none (own.fill inherited obj) config).features ↔
      (own.snb = none → inherited.snb ≠ some 0) ∧
      ((obj.get strFeatures).isSome = true → own.features.blank = true →
        own.features.relayTxp = none ∧ inherited.features.blank = true ∧
          inherited.features.relayTxp = none) := by
  rw [← bits_high_iff same given givenFill config,
    ← bits_low_iff inherited reads noClash config]
  constructor
  · intro equal
    rw [equal]
    exact ⟨fun _ _ => rfl, fun _ _ => rfl, rfl⟩
  · rintro ⟨high, low, relay⟩
    refine Features.ext_of_agree (fun bit => ?_) relay
    rw [agree_iff_bits]
    by_cases below : bit < 4
    · exact low bit below
    · exact high bit (Nat.le_of_not_lt below)

/-- The effective configurations agree exactly when the conditions hold. -/
theorem effective_eq_iff (reads : own.Reads obj) (given : own.features.Given)
    (givenInherited : inherited.features.Given) (noClash : own.clashes = false)
    (config : MeshConfig) :
    (finalConfig (some (inherited.apply .zeroed)) own config).effective =
        (finalConfig none (own.fill inherited obj) config).effective ↔
      WrittenAlike obj own inherited config := by
  have givenFill : (own.fill inherited obj).features.Given := by
    simp only [Settings.fill]
    by_cases present : (obj.get strFeatures).isSome = true
    · rw [if_pos present]
      exact given
    · rw [if_neg present]
      exact givenInherited
  have ttl : (finalConfig (some (inherited.apply .zeroed)) own config).ttl =
      (finalConfig none (own.fill inherited obj) config).ttl ↔ _ :=
    or_eq_written (readMember_absent reads.ttl)
  have snb : (finalConfig (some (inherited.apply .zeroed)) own config).snb =
      (finalConfig none (own.fill inherited obj) config).snb ↔ _ :=
    or_eq_written (readMember_absent reads.snb)
  have netTxp : (finalConfig (some (inherited.apply .zeroed)) own config).netTxp =
      (finalConfig none (own.fill inherited obj) config).netTxp ↔ _ :=
    or_map_eq_written _ _ (readMember_absent reads.netTxp)
  have pub : (finalConfig (some (inherited.apply .zeroed)) own config).pub =
      (finalConfig none (own.fill inherited obj) config).pub ↔ _ :=
    or_map_eq_written _ _ (readMember_absent reads.pub)
  have bindings : Uint16List.entries
        (finalConfig (some (inherited.apply .zeroed)) own config).bindings =
      Uint16List.entries (finalConfig none (own.fill inherited obj) config).bindings ↔ _ :=
    entries_or_eq_written (readMember_absent reads.bindings)
  have sublist : Uint16List.entries
        (finalConfig (some (inherited.apply .zeroed)) own config).sublist =
      Uint16List.entries (finalConfig none (own.fill inherited obj) config).sublist ↔ _ :=
    entries_or_eq_written (readMember_absent reads.sublist)
  have values : (finalConfig (some (inherited.apply .zeroed)) own config).ttl =
        (finalConfig none (own.fill inherited obj) config).ttl →
      (finalConfig (some (inherited.apply .zeroed)) own config).snb =
        (finalConfig none (own.fill inherited obj) config).snb →
      (finalConfig (some (inherited.apply .zeroed)) own config).netTxp =
        (finalConfig none (own.fill inherited obj) config).netTxp →
      SameValues obj own inherited := by
    intro sameTtl sameSnb sameNetTxp
    have isSome := congrArg Option.isSome sameNetTxp
    refine ⟨sameTtl, sameSnb, ?_⟩
    simpa [finalConfig, MeshConfig.inherit, Settings.apply, Option.isSome_or] using isSome
  simp only [MeshConfig.effective, EffectiveConfig.mk.injEq]
  constructor
  · rintro ⟨sameTtl, sameSnb, sameNetTxp, sameFeatures, samePub, sameBindings, sameSublist⟩
    have same := values sameTtl sameSnb sameNetTxp
    obtain ⟨on, low⟩ := (features_eq_iff same reads given givenFill noClash config).mp
      sameFeatures
    exact
      { ttl := ttl.mp sameTtl
        snb := snb.mp sameSnb
        netTxp := (netTxp.mp sameNetTxp).1
        pub := (pub.mp samePub).1
        bindings := bindings.mp sameBindings
        sublist := sublist.mp sameSublist
        features := low
        snbOn := on
        netTxpFilled := (netTxp.mp sameNetTxp).2
        pubFilled := (pub.mp samePub).2 }
  · intro alike
    have sameTtl := ttl.mpr alike.ttl
    have sameSnb := snb.mpr alike.snb
    have sameNetTxp := netTxp.mpr ⟨alike.netTxp, alike.netTxpFilled⟩
    have same := values sameTtl sameSnb sameNetTxp
    exact ⟨sameTtl, sameSnb, sameNetTxp,
      (features_eq_iff same reads given givenFill noClash config).mpr
        ⟨alike.snbOn, alike.features⟩,
      pub.mpr ⟨alike.pub, alike.pubFilled⟩, bindings.mpr alike.bindings,
      sublist.mpr alike.sublist⟩

/-- Where the copy fails its assertion, the conditions do not hold. -/
theorem WrittenAlike.noClash (reads : own.Reads obj) {config : MeshConfig}
    (alike : WrittenAlike obj own inherited config) : own.clashes = false := by
  rw [Settings.clashes, Bool.and_eq_false_iff]
  by_cases blank : own.features.blank = true
  · right
    cases present : (obj.get strFeatures).isSome with
    | true =>
        rw [(alike.features present blank).1]
        rfl
    | false =>
        rw [reads.features_absent present]
        rfl
  · exact .inl (Bool.eq_false_iff.mpr blank)

end

/-! ## Failures of the loaders -/

/-- The failures that are not the assertion of the copy. -/
def NotRelayPresent (abort : Abort) : Prop := abort ≠ .relayPresent

theorem addDigits_fails (value : Char → Option Nat) (base : Nat) (digits : List Char)
    (place sum : Nat) : FailsOnly NotRelayPresent (addDigits value base digits place sum) := by
  induction digits generalizing place sum with
  | nil => exact failsOnly_ok
  | cons char rest hypothesis =>
      unfold addDigits
      cases value char with
      | none => exact failsOnly_ok
      | some digit =>
          refine failsOnly_ite.mpr ⟨fun _ => ?_, fun _ => hypothesis _ _⟩
          exact failsOnly_error.mpr (by rintro ⟨⟩)

theorem uintLoader_fails {α : Type} (cut : Nat → α) (value : Value) :
    FailsOnly NotRelayPresent (uintLoader cut value) := by
  refine failsOnly_bind.mpr ⟨?_, fun text _ => failsOnly_bind.mpr ⟨?_, fun _ _ => failsOnly_ok⟩⟩
  · unfold textOf
    cases value.text with
    | some text => exact failsOnly_ok
    | none => exact failsOnly_error.mpr (by rintro ⟨⟩)
  · unfold str2uint
    split
    · exact failsOnly_ok
    · exact addDigits_fails _ _ _ _ _
    · exact addDigits_fails _ _ _ _ _

theorem readMember_fails {α : Type} {read : Value → Except Abort (Option α)}
    (fails : ∀ value, FailsOnly NotRelayPresent (read value)) (obj : Value) (key : String) :
    FailsOnly NotRelayPresent (readMember read obj key) := by
  unfold readMember
  cases obj.get key with
  | none => exact failsOnly_ok
  | some value => exact fails value

theorem readOptional_fails {α : Type} {read : Value → Except Abort (Option α)}
    (fails : ∀ value, FailsOnly NotRelayPresent (read value)) (obj : Value) (key : String) :
    FailsOnly NotRelayPresent (readOptional read obj key) := by
  unfold readOptional
  cases obj.get key with
  | none => exact failsOnly_ok
  | some value => exact failsOnly_bind.mpr ⟨fails value, fun _ _ => failsOnly_ok⟩

theorem readTxpPatch_fails (obj : Value) : FailsOnly NotRelayPresent (readTxpPatch obj) := by
  refine failsOnly_bind.mpr ⟨readOptional_fails (uintLoader_fails _) obj _, fun cnt _ => ?_⟩
  cases cnt with
  | none => exact failsOnly_ok
  | some cnt =>
      exact failsOnly_bind.mpr
        ⟨readOptional_fails (uintLoader_fails _) obj _, fun _ _ => failsOnly_ok⟩

theorem readPubField_fails (key : String) (value : Value) :
    FailsOnly NotRelayPresent (readPubField key value) := by
  unfold readPubField
  have number := fun {α : Type} (cut : Nat → α) (field : α → Publication → Publication) =>
    failsOnly_bind.mpr
      ⟨uintLoader_fails cut value, fun given _ =>
        (failsOnly_ok : FailsOnly NotRelayPresent (.ok (given.map field)))⟩
  refine failsOnly_ite.mpr ⟨fun _ => number _ _, fun _ => ?_⟩
  refine failsOnly_ite.mpr ⟨fun _ => number _ _, fun _ => ?_⟩
  refine failsOnly_ite.mpr ⟨fun _ => number _ _, fun _ => ?_⟩
  refine failsOnly_ite.mpr ⟨fun _ => number _ _, fun _ => ?_⟩
  exact failsOnly_ite.mpr
    ⟨fun _ => failsOnly_bind.mpr ⟨readTxpPatch_fails value, fun _ _ => failsOnly_ok⟩,
      fun _ => failsOnly_ok⟩

theorem readPub_fails (value : Value) : FailsOnly NotRelayPresent (readPub value) := by
  have members : ∀ members, FailsOnly NotRelayPresent (readPubFields members) := by
    intro members
    induction members with
    | nil => exact failsOnly_ok
    | cons first rest hypothesis =>
        obtain ⟨key, value⟩ := first
        refine failsOnly_bind.mpr ⟨readPubField_fails key value, fun change _ => ?_⟩
        cases change with
        | none => exact failsOnly_ok
        | some change => exact failsOnly_bind.mpr ⟨hypothesis, fun _ _ => failsOnly_ok⟩
  cases value with
  | object list => exact members list
  | _ => exact failsOnly_error.mpr (by rintro ⟨⟩)

theorem loadUint16List_fails (value : Value) :
    FailsOnly NotRelayPresent (loadUint16List value) := by
  have items : ∀ values, FailsOnly NotRelayPresent (uint16Items values) := by
    intro values
    induction values with
    | nil => exact failsOnly_ok
    | cons value rest hypothesis =>
        refine failsOnly_bind.mpr ⟨uintLoader_fails _ value, fun item _ => ?_⟩
        cases item with
        | none => exact failsOnly_ok
        | some item => exact failsOnly_bind.mpr ⟨hypothesis, fun _ _ => failsOnly_ok⟩
  cases value with
  | array values => exact failsOnly_bind.mpr ⟨items values, fun _ _ => failsOnly_ok⟩
  | _ => exact failsOnly_ok

theorem isOn_fails (value : Value) : FailsOnly NotRelayPresent (isOn value) := by
  refine failsOnly_bind.mpr ⟨?_, fun _ _ => failsOnly_ok⟩
  unfold textOf
  cases value.text with
  | some text => exact failsOnly_ok
  | none => exact failsOnly_error.mpr (by rintro ⟨⟩)

theorem loadSwitch_fails (key : String) (which : Nat) (obj : Value) (features : Features) :
    FailsOnly NotRelayPresent (loadSwitch key which obj features) := by
  unfold loadSwitch
  cases obj.get key with
  | none => exact failsOnly_ok
  | some value => exact failsOnly_bind.mpr ⟨isOn_fails value, fun _ _ => failsOnly_ok⟩

theorem loadRelay_fails (obj : Value) (features : Features) :
    FailsOnly NotRelayPresent (loadRelay obj features) := by
  unfold loadRelay
  cases obj.get strRelay with
  | none => exact failsOnly_ok
  | some relay =>
      refine failsOnly_bind.mpr ⟨?_, fun _ _ => failsOnly_bind.mpr ⟨?_, fun _ _ => failsOnly_ok⟩⟩
      · unfold loadEnable
        cases relay.get strEnable with
        | none => exact failsOnly_ok
        | some value => exact failsOnly_bind.mpr ⟨isOn_fails value, fun _ _ => failsOnly_ok⟩
      · rw [loadTxparam_eq]
        exact failsOnly_bind.mpr ⟨readTxpPatch_fails relay, fun _ _ => failsOnly_ok⟩

theorem loadLpn_fails (obj : Value) (features : Features) :
    FailsOnly NotRelayPresent (loadLpn obj features) := by
  unfold loadLpn
  cases obj.get strLpn with
  | none => exact failsOnly_ok
  | some value =>
      refine failsOnly_bind.mpr ⟨isOn_fails value, fun on _ => ?_⟩
      cases on <;> exact failsOnly_ok

theorem readFeatures_fails (value : Value) :
    FailsOnly NotRelayPresent (readFeatures value) := by
  refine failsOnly_bind.mpr ⟨loadRelay_fails value _, fun features _ => ?_⟩
  cases features with
  | none => exact failsOnly_ok
  | some features =>
      refine failsOnly_bind.mpr ⟨loadSwitch_fails _ _ value features, fun _ _ => ?_⟩
      refine failsOnly_bind.mpr ⟨loadSwitch_fails _ _ value _, fun _ _ => ?_⟩
      exact failsOnly_bind.mpr ⟨loadLpn_fails value _, fun _ _ => failsOnly_ok⟩

theorem settingsOf_fails (obj : Value) : FailsOnly NotRelayPresent (settingsOf obj) := by
  refine failsOnly_bind.mpr ⟨readMember_fails (uintLoader_fails _) obj _, fun _ _ => ?_⟩
  refine failsOnly_bind.mpr ⟨readMember_fails readPub_fails obj _, fun _ _ => ?_⟩
  refine failsOnly_bind.mpr ⟨readMember_fails (uintLoader_fails _) obj _, fun _ _ => ?_⟩
  refine failsOnly_bind.mpr ⟨readMember_fails readTxpPatch_fails obj _, fun _ _ => ?_⟩
  refine failsOnly_bind.mpr ⟨readMember_fails loadUint16List_fails obj _, fun _ _ => ?_⟩
  refine failsOnly_bind.mpr ⟨readMember_fails loadUint16List_fails obj _, fun _ _ => ?_⟩
  exact failsOnly_bind.mpr ⟨readMember_fails readFeatures_fails obj _, fun _ _ => failsOnly_ok⟩

/-! ## Inheritance -/

theorem effectiveLoad_eq (templates : Templates) (fresh : UInt64) (obj : Value)
    (node : Node) :
    effectiveLoad templates fresh obj node =
      settingsOf obj >>= fun settings => tmplField fresh obj >>= fun field =>
        if settings.clashes && (namedTemplate templates obj).isSome then .error .relayPresent
        else
          .ok ((finalConfig (namedTemplate templates obj) settings node.config).effective,
            (field.load node.tmpl).map (·.value)) := by
  unfold effectiveLoad
  rw [loadOutcome_eq, bind_assoc]
  refine bind_congr fun settings => ?_
  rw [bind_assoc]
  refine bind_congr fun field => ?_
  by_cases clash : (settings.clashes && (namedTemplate templates obj).isSome) = true
  · rw [if_pos clash, if_pos clash]
    rfl
  · rw [if_neg clash, if_neg clash]
    rfl

theorem tmplField_of_templateId {obj : Value} {id : UInt8}
    (named : templateId obj = some id) (fresh : UInt64) :
    tmplField fresh obj = .ok (.present fresh id) := by
  unfold templateId at named
  unfold tmplField
  cases member : obj.get strTmpl with
  | none =>
      rw [member] at named
      cases named
  | some value =>
      rw [member] at named
      dsimp only at named
      cases number : uint8Loader value with
      | error abort =>
          rw [number] at named
          cases named
      | ok given =>
          rw [number] at named
          dsimp only at named
          subst named
          cases value with
          | null => cases number
          | _ =>
              simp only [number]
              rfl

/-- The load of a node is that of the node with the fields of its template written into
it and no template around, and does not fail the assertion of the copy. -/
def InheritsAsWritten (templates : Templates) (source obj : Value) (node : Node) : Prop :=
  ∀ fresh,
    loadToNodeItem templates fresh obj node ≠ .error .relayPresent ∧
      effectiveLoad templates fresh obj node =
        effectiveLoad ∅ fresh (expand source obj) node

/-- Inheritance agrees with writing the fields exactly under the conditions.  The conditions name
the ways in which the two differ, such as a malformed member of the node beside a value of its
template, or a template whose beacon is 0. -/
theorem inheritance_agrees_iff {templates : Templates} {source obj : Value} {id : UInt8}
    {tmpl : MeshConfig} (named : templateId obj = some id)
    (found : templates[id.toUInt16]? = some tmpl)
    (template : loadToTmplItem source .zeroed = .ok tmpl) (node : Node) :
    InheritsAsWritten templates source obj node ↔
      ∀ own inherited, settingsOf obj = .ok own → settingsOf source = .ok inherited →
        WrittenAlike obj own inherited node.config := by
  have isObject : obj.isObject = true := by
    unfold templateId at named
    cases member : obj.get strTmpl with
    | none =>
        rw [member] at named
        cases named
    | some value => exact Value.isObject_of_get member
  rw [loadToTmplItem_eq] at template
  obtain ⟨inherited, readSource, same⟩ := bind_ok.mp template
  cases same
  have template_ : namedTemplate templates obj = some (inherited.apply .zeroed) := by
    rw [namedTemplate, named, Option.bind_some, found]
    rfl
  have untemplated : ∀ obj, namedTemplate ∅ obj = none := by
    intro obj
    unfold namedTemplate
    cases templateId obj with
    | none => rfl
    | some id => exact Std.TreeMap.getElem?_emptyc
  have sameField : ∀ fresh, tmplField fresh (expand source obj) = tmplField fresh obj := by
    intro fresh
    unfold tmplField
    rw [get_expand_other source isObject (by decide)]
  have written : ∀ fresh, effectiveLoad ∅ fresh (expand source obj) node =
      settingsOf obj >>= fun own => tmplField fresh obj >>= fun field =>
        .ok ((finalConfig none (own.fill inherited obj) node.config).effective,
          (field.load node.tmpl).map (·.value)) := by
    intro fresh
    rw [effectiveLoad_eq, settingsOf_expand isObject readSource, bind_assoc, untemplated, sameField]
    refine bind_congr fun own => ?_
    rw [ok_bind]
    refine bind_congr fun field => ?_
    simp
  unfold InheritsAsWritten
  cases read : settingsOf obj with
  | error abort =>
      have allowed : abort ≠ .relayPresent := settingsOf_fails obj abort read
      refine iff_of_true (fun fresh => ⟨?_, ?_⟩) (by rintro own inherited ⟨⟩)
      · rw [loadToNodeItem_eq, read, error_bind]
        rintro ⟨⟩
        exact allowed rfl
      · rw [written, effectiveLoad_eq, read, error_bind, error_bind]
  | ok own =>
      have reads := settingsOf_reads read
      have exactly := fun noClash => effective_eq_iff reads (settingsOf_given read)
        (settingsOf_given readSource) noClash node.config
      have field := fun fresh => tmplField_of_templateId named fresh
      have others : (∀ own' inherited', .ok own = (.ok own' : Except Abort Settings) →
          settingsOf source = .ok inherited' → WrittenAlike obj own' inherited' node.config) ↔
          WrittenAlike obj own inherited node.config := by
        constructor
        · intro every
          exact every own inherited rfl readSource
        · rintro alike own' inherited' ⟨⟩ same
          rw [readSource] at same
          cases same
          exact alike
      rw [others]
      by_cases clash : own.clashes = true
      · refine iff_of_false (fun every => ?_) fun alike => ?_
        · refine (every 0).1 ?_
          rw [loadToNodeItem_eq, read, field, ok_bind, ok_bind, template_, clash]
          rfl
        · rw [alike.noClash reads] at clash
          cases clash
      · have noClash := Bool.eq_false_iff.mpr clash
        have loaded : ∀ fresh, effectiveLoad templates fresh obj node =
            .ok ((finalConfig (some (inherited.apply .zeroed)) own node.config).effective,
              ((TmplField.present fresh id).load node.tmpl).map (·.value)) := by
          intro fresh
          rw [effectiveLoad_eq, read, field, ok_bind, ok_bind, template_, noClash]
          rfl
        rw [← exactly noClash]
        constructor
        · intro every
          have same := (every 0).2
          rw [loaded, written, read, field, ok_bind, ok_bind] at same
          exact congrArg Prod.fst (Except.ok.inj same)
        · intro same fresh
          refine ⟨?_, ?_⟩
          · rw [loadToNodeItem_eq, read, field, ok_bind, ok_bind, template_, noClash]
            rintro ⟨⟩
          · rw [loaded, written, read, field, ok_bind, ok_bind, same]

/-- A node that names the template with id 1, and more members. -/
def templatedObject (more : List (String × Value)) : Value :=
  .object ((strTmpl, .string "0x01".toList) :: more)

/-- A template that turns the secure network beacon on, with a TTL and a group. -/
def beaconTemplate : Value :=
  .object [(strTtl, .string "0x05".toList), (strSnb, .string "0x01".toList),
    (strSub, .array [.string "0xC001".toList])]

def beaconConfig : MeshConfig :=
  { MeshConfig.zeroed with
    ttl := some 5
    snb := some 1
    sublist := some { len := 1, data := [0xC001] }
    features := { target := 0x60, current := 0, relayTxp := none } }

theorem loadToTmplItem_beacon : loadToTmplItem beaconTemplate .zeroed = .ok beaconConfig := by
  apply ok_of_toOption
  decide +kernel

/-- A node with a TTL of its own inherits the beacon and the group as if they were written into
it. -/
theorem inheritance_agrees_iff_beacon :
    InheritsAsWritten ((∅ : Templates).insert 1 beaconConfig) beaconTemplate
      (templatedObject [(strTtl, .string "0x03".toList)]) .zeroed := by
  have named : templateId (templatedObject [(strTtl, .string "0x03".toList)]) = some 1 := by
    decide +kernel
  have found : ((∅ : Templates).insert 1 beaconConfig)[UInt8.toUInt16 1]? =
      some beaconConfig := by
    decide +kernel
  have ownTtl : readMember uint8Loader (templatedObject [(strTtl, .string "0x03".toList)])
      strTtl = .ok (some 3) := by
    apply ok_of_toOption
    decide +kernel
  have beaconOn : readMember uint8Loader beaconTemplate strSnb = .ok (some 1) := by
    apply ok_of_toOption
    decide +kernel
  apply (inheritance_agrees_iff named found loadToTmplItem_beacon .zeroed).mpr
  intro own inherited readOwn readSource
  have reads := settingsOf_reads readOwn
  have sources := settingsOf_reads readSource
  have isTtl : own.ttl = some 3 := Except.ok.inj (reads.ttl.symm.trans ownTtl)
  have isSnb : inherited.snb = some 1 := Except.ok.inj (sources.snb.symm.trans beaconOn)
  have noTxp : inherited.netTxp = none := (Except.ok.inj sources.netTxp).symm
  have noPub : inherited.pub = none := (Except.ok.inj sources.pub).symm
  constructor
  case ttl =>
    intro _ missing
    rw [isTtl] at missing
    cases missing
  case snbOn =>
    intro _
    rw [isSnb]
    decide
  case netTxpFilled =>
    intro _ patch given
    rw [noTxp] at given
    cases given
  case pubFilled =>
    intro _ change given
    rw [noPub] at given
    cases given
  all_goals
    intro present
    cases present

/-- A template that turns the secure network beacon off. -/
def quietTemplate : Value := .object [(strSnb, .string "0x00".toList)]

def quietConfig : MeshConfig :=
  { MeshConfig.zeroed with
    snb := some 0
    features := { target := 0, current := 0x40, relayTxp := none } }

theorem loadToTmplItem_quiet : loadToTmplItem quietTemplate .zeroed = .ok quietConfig := by
  apply ok_of_toOption
  decide +kernel

def quietTable : Templates := (∅ : Templates).insert 1 quietConfig

/-- A node inherits the beacon that its template turns off as one to be turned on; and a
node with relay parameters alone fails the assertion. -/
theorem quiet_template_turns_on :
    ∃ templates source obj, loadToTmplItem source .zeroed = .ok quietConfig ∧
      templates[UInt8.toUInt16 1]? = some quietConfig ∧ templateId obj = some 1 ∧
      ¬ InheritsAsWritten templates source obj .zeroed ∧
      ∃ other, templateId other = some 1 ∧
        loadToNodeItem templates 0 other .zeroed = .error .relayPresent := by
  let relay : Value := .object [(strRelay, .object [(strCnt, .string "0x01".toList)])]
  have inherited : (effectiveLoad quietTable 0 (templatedObject []) .zeroed).toOption.map
      (fun loaded => loaded.1.features.target.getLsbD snbBitofs) = some true := by
    decide +kernel
  have written : (effectiveLoad ∅ 0 (expand quietTemplate (templatedObject []))
      .zeroed).toOption.map
      (fun loaded => loaded.1.features.target.getLsbD snbBitofs) = some false := by
    decide +kernel
  have aborted : (match loadToNodeItem quietTable 0 (templatedObject [(strFeatures, relay)])
      .zeroed with
      | .error abort => some abort
      | .ok _ => none) = some .relayPresent := by
    decide +kernel
  refine ⟨quietTable, quietTemplate, templatedObject [], loadToTmplItem_quiet, ?_, ?_, ?_,
    templatedObject [(strFeatures, relay)], ?_, ?_⟩
  · decide +kernel
  · decide +kernel
  · intro agrees
    rw [(agrees 0).2, written] at inherited
    cases inherited
  · decide +kernel
  · cases load : loadToNodeItem quietTable 0 (templatedObject [(strFeatures, relay)]) .zeroed with
    | ok node =>
        rw [load] at aborted
        cases aborted
    | error abort =>
        rw [load] at aborted
        rw [Option.some.inj aborted]

end Nwmng
