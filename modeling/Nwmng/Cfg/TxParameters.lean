/-
Module: Nwmng.Cfg.TxParameters
Purpose: What the loaders make of the transmission parameters that an object gives.
Trusted boundary: none
Main exports:
  InRange, Normalised, clampTxparam_normalised, txparams_normalised
-/
import Nwmng.Cfg.Reload

namespace Nwmng

open Json Fallible

/-!
## Intervals

The valid intervals are the multiples of the resolution in the range.  The loaders round up,
which stays in the range because its upper end is a multiple itself.
-/

/-- An interval that can be sent: it has a range and a resolution.  The range differs between the
publication and the relay, the form of the check does not. -/
def InRange (least most step intv : UInt16) : Prop :=
  least ≤ intv ∧ intv ≤ most ∧ intv % step = 0

instance (least most step intv : UInt16) : Decidable (InRange least most step intv) :=
  inferInstanceAs (Decidable (_ ∧ _ ∧ _))

/-- A range whose ends have its resolution.  The rounding of the clamp then never leaves the
range; the ranges of the source are all of this kind. -/
structure Resolved (least most step : UInt16) : Prop where
  positive : 0 < step.toNat
  leastWhole : least.toNat % step.toNat = 0
  mostWhole : most.toNat % step.toNat = 0
  ordered : least ≤ most
  room : most.toNat + step.toNat < 2 ^ 16
  fifty : InRange least most step 50

theorem Resolved.pub : Resolved 50 3200 50 where
  positive := by decide
  leastWhole := by decide
  mostWhole := by decide
  ordered := by decide
  room := by decide
  fifty := by decide

theorem Resolved.relay : Resolved 10 320 10 where
  positive := by decide
  leastWhole := by decide
  mostWhole := by decide
  ordered := by decide
  room := by decide
  fifty := by decide

theorem inRange_iff (least most step intv : UInt16) :
    InRange least most step intv ↔
      least.toNat ≤ intv.toNat ∧ intv.toNat ≤ most.toNat ∧ intv.toNat % step.toNat = 0 := by
  unfold InRange
  rw [UInt16.le_iff_toNat_le, UInt16.le_iff_toNat_le, ← UInt16.toNat_inj, UInt16.toNat_mod]
  rfl

/-- Rounding up stays below a bound of the same resolution. -/
theorem round_up_le {value step most : Nat} (positive : 0 < step) (below : value ≤ most)
    (resolved : most % step = 0) :
    value ≤ (value + (step - 1)) / step * step ∧
      (value + (step - 1)) / step * step ≤ most := by
  have split := Nat.div_add_mod (value + (step - 1)) step
  have rest := Nat.mod_lt (value + (step - 1)) positive
  rw [Nat.mul_comm] at split
  constructor
  · omega
  · have whole := Nat.div_mul_cancel (Nat.dvd_of_mod_eq_zero resolved)
    have fewer : (value + (step - 1)) / step < most / step + 1 := by
      rw [Nat.div_lt_iff_lt_mul positive, Nat.add_mul, Nat.one_mul, whole]
      omega
    calc (value + (step - 1)) / step * step
        ≤ most / step * step := Nat.mul_le_mul_right step (Nat.lt_succ_iff.mp fewer)
      _ = most := whole

theorem round_up_inRange {least most step intv : UInt16} (resolved : Resolved least most step)
    (above : least ≤ intv) (below : intv ≤ most) :
    InRange least most step ((intv + (step - 1)) / step * step) := by
  have room := resolved.room
  have positive := resolved.positive
  rw [UInt16.le_iff_toNat_le] at above below
  obtain ⟨larger, smaller⟩ := round_up_le positive below resolved.mostWhole
  have one : (step - 1).toNat = step.toNat - 1 :=
    UInt16.toNat_sub_of_le step 1 (UInt16.le_iff_toNat_le.mpr positive)
  have sum : (intv + (step - 1)).toNat = intv.toNat + (step.toNat - 1) := by
    rw [UInt16.toNat_add, one, Nat.mod_eq_of_lt (by omega)]
  have product : ((intv + (step - 1)) / step * step).toNat =
      (intv.toNat + (step.toNat - 1)) / step.toNat * step.toNat := by
    rw [UInt16.toNat_mul, UInt16.toNat_div, sum, Nat.mod_eq_of_lt (by omega)]
  rw [inRange_iff, product]
  exact ⟨above.trans larger, smaller, Nat.mul_mod_left _ _⟩

/-! ## Parameters -/

/-- What is stored for the parameters that were loaded.  For a count above 7, an interval is only
promised to stay where it was in range. -/
structure Normalised (least most step : UInt16) (loaded stored : Txparam) : Prop where
  cnt : stored.cnt ≤ 7
  cnt_kept : loaded.cnt ≤ 7 → stored.cnt = loaded.cnt
  intv : loaded.cnt ≤ 7 → InRange least most step stored.intv
  /-- The interval of no retransmissions is not used: a valid one is put in its place. -/
  intv_kept : loaded.cnt ≠ 0 → InRange least most step loaded.intv → stored.intv = loaded.intv
  intv_zero : loaded.cnt = 0 → stored.intv = 50

theorem clampTxparam_normalised {least most step : UInt16} (resolved : Resolved least most step)
    (loaded : Txparam) :
    Normalised least most step loaded (clampTxparam least most step loaded) := by
  unfold clampTxparam
  by_cases many : 7 < loaded.cnt
  · have notFew : ¬ loaded.cnt ≤ 7 := UInt8.not_le.mpr many
    have notZero : loaded.cnt ≠ 0 := by
      intro isZero
      rw [isZero] at many
      exact absurd many (by decide)
    rw [if_pos many]
    exact ⟨UInt8.le_refl 7, fun few => absurd few notFew, fun few => absurd few notFew,
      fun _ _ => rfl, fun isZero => absurd isZero notZero⟩
  rw [if_neg many]
  have few : loaded.cnt ≤ 7 := UInt8.not_lt.mp many
  by_cases isZero : loaded.cnt = 0
  · rw [if_neg (not_not.mpr isZero)]
    exact ⟨few, fun _ => rfl, fun _ => resolved.fifty, fun notZero => absurd isZero notZero,
      fun _ => rfl⟩
  rw [if_pos isZero]
  by_cases low : loaded.intv < least
  · rw [if_pos low]
    have lowest : InRange least most step least := by
      rw [inRange_iff]
      exact ⟨Nat.le_refl _, UInt16.le_iff_toNat_le.mp resolved.ordered, resolved.leastWhole⟩
    exact ⟨few, fun _ => rfl, fun _ => lowest,
      fun _ inside => absurd inside.1 (UInt16.not_le.mpr low), fun zero => absurd zero isZero⟩
  rw [if_neg low]
  by_cases high : most < loaded.intv
  · rw [if_pos high]
    have highest : InRange least most step most := by
      rw [inRange_iff]
      exact ⟨UInt16.le_iff_toNat_le.mp resolved.ordered, Nat.le_refl _, resolved.mostWhole⟩
    exact ⟨few, fun _ => rfl, fun _ => highest,
      fun _ inside => absurd inside.2.1 (UInt16.not_le.mpr high), fun zero => absurd zero isZero⟩
  rw [if_neg high]
  have above : least ≤ loaded.intv := UInt16.not_lt.mp low
  have below : loaded.intv ≤ most := UInt16.not_lt.mp high
  by_cases off : loaded.intv % step = 0
  · rw [if_neg (not_not.mpr off)]
    exact ⟨few, fun _ => rfl, fun _ => ⟨above, below, off⟩, fun _ _ => rfl,
      fun zero => absurd zero isZero⟩
  · rw [if_pos off]
    exact ⟨few, fun _ => rfl, fun _ => round_up_inRange resolved above below,
      fun _ inside => absurd inside.2.2 off, fun zero => absurd zero isZero⟩

/-! ## The loaders -/

/-- The count and the interval that an object gives, each if the key is there. -/
def GivesTxp (value : Value) (patch : TxpPatch) : Prop :=
  readOptional uint8Loader value strCnt = .ok (some patch.cnt) ∧
    readOptional uint16Loader value strIntv = .ok (some patch.intv)

theorem loadTxparam_gives {value : Value} {earlier loaded : Txparam}
    (load : loadTxparam value earlier = .ok (some loaded)) :
    ∃ patch, GivesTxp value patch ∧ loaded = patch.apply earlier := by
  rw [loadTxparam_eq, bind_ok] at load
  obtain ⟨patch, reads, same⟩ := load
  cases patch with
  | none => cases same
  | some patch =>
      cases same
      exact ⟨patch, readTxpPatch_members reads, rfl⟩

theorem loadPub_normalised {obj value : Value} {members : List (String × Value)}
    {config after : MeshConfig} {pub : Publication}
    (member : obj.get strPub = some (.object members))
    (distinct : (members.map Prod.fst).Nodup)
    (given : (Value.object members).get strTxp = some value)
    (load : loadPub obj config = .ok after) (success : after.pub = some pub) :
    ∃ patch, GivesTxp value patch ∧
      Normalised 50 3200 50 (patch.apply (config.pub.getD .zeroed).txp) pub.txp := by
  rw [loadPub_eq, readMember, member, bind_ok] at load
  obtain ⟨change, reads, same⟩ := load
  cases same
  cases change with
  | none => cases success
  | some change =>
      cases success
      obtain ⟨patch, read, rfl⟩ := readPubFields_patch distinct reads
      have isGiven := isSome_of_readOptional read.txp
      have txpRead := read.txp
      unfold readOptional at txpRead
      rw [given] at isGiven txpRead
      cases found : patch.txp with
      | none =>
          rw [found] at isGiven
          cases isGiven
      | some txp =>
          obtain ⟨result, reads, same⟩ := bind_ok.mp txpRead
          rw [found] at same
          cases result with
          | none => cases same
          | some result =>
              cases same
              refine ⟨txp, readTxpPatch_members reads, ?_⟩
              have stored : (patch.apply (config.pub.getD .zeroed)).txp =
                  clampTxparam 50 3200 50 (txp.apply (config.pub.getD .zeroed).txp) := by
                simp only [PubPatch.apply, found, clampPubTxp]
              rw [stored]
              exact clampTxparam_normalised .pub _

theorem loadSwitch_relayTxp {key : String} {which : Nat} {obj : Value}
    {features after : Features} (load : loadSwitch key which obj features = .ok after) :
    after.relayTxp = features.relayTxp := by
  unfold loadSwitch at load
  cases found : obj.get key with
  | none =>
      rw [found] at load
      cases load
      rfl
  | some value =>
      rw [found] at load
      obtain ⟨on, _, same⟩ := bind_ok.mp load
      cases same
      cases on <;> rfl

theorem loadLpn_relayTxp {obj : Value} {features after : Features}
    (load : loadLpn obj features = .ok after) : after.relayTxp = features.relayTxp := by
  unfold loadLpn at load
  cases found : obj.get strLpn with
  | none =>
      rw [found] at load
      cases load
      rfl
  | some value =>
      rw [found] at load
      obtain ⟨on, _, same⟩ := bind_ok.mp load
      cases on with
      | true =>
          cases same
          rfl
      | false =>
          cases same
          rfl

theorem loadFeatures_normalised {obj value relay : Value} {config after : MeshConfig}
    {txp : Txparam} (member : obj.get strFeatures = some value)
    (given : value.get strRelay = some relay) (load : loadFeatures obj config = .ok after)
    (success : after.features.relayTxp = some txp) :
    ∃ patch, GivesTxp relay patch ∧ Normalised 10 320 10 (patch.apply .zeroed) txp := by
  unfold loadFeatures at load
  rw [member] at load
  obtain ⟨loaded, relayLoad, load⟩ := bind_ok.mp load
  cases loaded with
  | none =>
      cases load
      cases success
  | some features =>
      obtain ⟨friend, friends, load⟩ := bind_ok.mp load
      obtain ⟨proxy, proxies, load⟩ := bind_ok.mp load
      obtain ⟨lpn, lpns, same⟩ := bind_ok.mp load
      cases same
      have kept : features.relayTxp = some txp := by
        rw [← loadSwitch_relayTxp friends, ← loadSwitch_relayTxp proxies,
          ← loadLpn_relayTxp lpns]
        exact success
      unfold loadRelay at relayLoad
      rw [given] at relayLoad
      obtain ⟨enabled, _, relayLoad⟩ := bind_ok.mp relayLoad
      obtain ⟨params, reads, same⟩ := bind_ok.mp relayLoad
      cases params with
      | none => cases same
      | some params =>
          cases same
          cases kept
          obtain ⟨patch, gives, rfl⟩ := loadTxparam_gives reads
          exact ⟨patch, gives, clampTxparam_normalised .relay _⟩

/-- The network transmission parameters are stored as they are loaded. -/
theorem loadTxp_kept {obj value : Value} {config after : MeshConfig} {txp : Txparam}
    (member : obj.get strTxp = some value) (load : loadTxp obj config = .ok after)
    (success : after.netTxp = some txp) :
    ∃ patch, GivesTxp value patch ∧ txp = patch.apply (config.netTxp.getD .zeroed) := by
  unfold loadTxp at load
  rw [member] at load
  obtain ⟨loaded, reads, load⟩ := bind_ok.mp load
  cases loaded with
  | none =>
      cases load
      cases success
  | some loaded =>
      cases load
      cases success
      exact loadTxparam_gives reads

/-- The loaders of the publication and of the relay feature normalise what an object gives beside
earlier values, for a count of at most 7; the loader of the network transmission parameters keeps
it.  An interval belongs to retransmissions, so a count of 0 replaces it by a constant. -/
theorem txparams_normalised (obj : Value) (config after : MeshConfig) :
    (∀ members value pub, obj.get strPub = some (.object members) →
      (members.map Prod.fst).Nodup → (Value.object members).get strTxp = some value →
      loadPub obj config = .ok after → after.pub = some pub →
      ∃ patch, GivesTxp value patch ∧
        Normalised 50 3200 50 (patch.apply (config.pub.getD .zeroed).txp) pub.txp) ∧
    (∀ features relay txp, obj.get strFeatures = some features →
      features.get strRelay = some relay → loadFeatures obj config = .ok after →
      after.features.relayTxp = some txp →
      ∃ patch, GivesTxp relay patch ∧ Normalised 10 320 10 (patch.apply .zeroed) txp) ∧
    (∀ value txp, obj.get strTxp = some value → loadTxp obj config = .ok after →
      after.netTxp = some txp →
      ∃ patch, GivesTxp value patch ∧
        ((patch.apply (config.netTxp.getD .zeroed)).cnt ≤ 7 →
          txp.cnt = (patch.apply (config.netTxp.getD .zeroed)).cnt) ∧
        (InRange 10 320 10 (patch.apply (config.netTxp.getD .zeroed)).intv →
          txp.intv = (patch.apply (config.netTxp.getD .zeroed)).intv)) := by
  refine ⟨?_, ?_, ?_⟩
  · intro members value pub member distinct given load success
    exact loadPub_normalised member distinct given load success
  · intro features relay txp member given load success
    exact loadFeatures_normalised member given load success
  · intro value txp member load success
    obtain ⟨patch, gives, rfl⟩ := loadTxp_kept member load success
    exact ⟨patch, gives, fun _ => rfl, fun _ => rfl⟩

/-- Transmission parameters with both keys. -/
def txpObject (cnt intv : String) : Value :=
  .object [(strCnt, .string cnt.toList), (strIntv, .string intv.toList)]

/-- An object with publication, relay and network parameters. -/
def txpsObject (cnt intv : String) : Value :=
  .object
    [(strPub, .object [(strTxp, txpObject cnt intv)]),
      (strFeatures, .object [(strRelay, txpObject cnt intv)]), (strTxp, txpObject cnt intv)]

/-- An interval of 55 is rounded up for the publication and for the relay feature. -/
theorem txparams_normalised_rounded :
    (∃ patch, GivesTxp (txpObject "0x03" "0x0037") patch ∧
      Normalised 50 3200 50 (patch.apply .zeroed) { cnt := 3, intv := 100 }) ∧
    (∃ patch, GivesTxp (txpObject "0x03" "0x0037") patch ∧
      Normalised 10 320 10 (patch.apply .zeroed) { cnt := 3, intv := 60 }) ∧
    (∃ patch, GivesTxp (txpObject "0x03" "0x0037") patch ∧
      ((patch.apply .zeroed).cnt ≤ 7 → 3 = (patch.apply .zeroed).cnt) ∧
      (InRange 10 320 10 (patch.apply .zeroed).intv → 55 = (patch.apply .zeroed).intv)) := by
  let obj := txpsObject "0x03" "0x0037"
  have pub : loadPub obj .zeroed = .ok { MeshConfig.zeroed with
      pub := some { Publication.zeroed with txp := { cnt := 3, intv := 100 } } } :=
    ok_of_toOption (by decide +kernel)
  have relay : loadFeatures obj .zeroed = .ok { MeshConfig.zeroed with
      features := { Features.zeroed with relayTxp := some { cnt := 3, intv := 60 } } } :=
    ok_of_toOption (by decide +kernel)
  have txp : loadTxp obj .zeroed = .ok { MeshConfig.zeroed with
      netTxp := some { cnt := 3, intv := 55 }
      features := setFeatureConfig MeshConfig.zeroed.features nettxBitofs true } :=
    ok_of_toOption (by decide +kernel)
  refine ⟨?_, ?_, ?_⟩
  · exact (txparams_normalised obj .zeroed _).1 _ _ _ rfl (by decide) rfl pub rfl
  · exact (txparams_normalised obj .zeroed _).2.1 _ _ _ rfl rfl relay rfl
  · exact (txparams_normalised obj .zeroed _).2.2 _ { cnt := 3, intv := 55 } rfl txp rfl

/-- A count of 0 puts 50 in the place of an interval that is in the range. -/
theorem zero_count_replaces_interval :
    ¬ ∀ (obj value : Value) (config after : MeshConfig) (members : List (String × Value))
        (pub : Publication), obj.get strPub = some (.object members) →
      (members.map Prod.fst).Nodup → (Value.object members).get strTxp = some value →
      loadPub obj config = .ok after → after.pub = some pub →
      ∃ patch, GivesTxp value patch ∧ pub.txp.cnt ≤ 7 ∧ InRange 50 3200 50 pub.txp.intv ∧
        ((patch.apply (config.pub.getD .zeroed).txp).cnt ≤ 7 →
          pub.txp.cnt = (patch.apply (config.pub.getD .zeroed).txp).cnt) ∧
        (InRange 50 3200 50 (patch.apply (config.pub.getD .zeroed).txp).intv →
          pub.txp.intv = (patch.apply (config.pub.getD .zeroed).txp).intv) := by
  intro claim
  have load : loadPub (txpsObject "0x00" "0x0064") .zeroed = .ok { MeshConfig.zeroed with
      pub := some { Publication.zeroed with txp := { cnt := 0, intv := 50 } } } :=
    ok_of_toOption (by decide +kernel)
  obtain ⟨patch, ⟨_, intv⟩, _, _, _, kept⟩ := claim _ _ .zeroed _ _ _ rfl (by decide) rfl load rfl
  have given : readOptional uint16Loader (txpObject "0x00" "0x0064") strIntv =
      .ok (some (some 100)) := ok_of_toOption (by decide +kernel)
  rw [given] at intv
  have isGiven : some 100 = patch.intv := Option.some.inj (Except.ok.inj intv)
  have loaded : (patch.apply (MeshConfig.zeroed.pub.getD .zeroed).txp).intv = 100 := by
    rw [TxpPatch.apply, ← isGiven]
    rfl
  rw [loaded] at kept
  exact absurd (kept (by decide)) (by decide)

end Nwmng
