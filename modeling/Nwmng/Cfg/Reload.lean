/-
Module: Nwmng.Cfg.Reload
Purpose: Which JSON objects are loaded to the same configuration whatever the record
held before.
Trusted boundary: none
Main exports:
  PubPatch, Prior, HistoryIndependent, SelfContained, reload_independent_iff
-/
import Nwmng.Cfg.FinalConfig

namespace Nwmng

open Json Fallible

/-!
## Publications

A publication is read member by member in the order of the object, each one a change of the
record.  When no key stands twice the changes commute, and come to one patch that says of every
field whether it is given.
-/

/-- The members of a publication that are given. -/
structure PubPatch where
  addr : Option UInt16
  aki : Option UInt16
  period : Option UInt32
  ttl : Option UInt8
  txp : Option TxpPatch

def PubPatch.apply (patch : PubPatch) (pub : Publication) : Publication where
  addr := patch.addr.getD pub.addr
  aki := patch.aki.getD pub.aki
  period := patch.period.getD pub.period
  ttl := patch.ttl.getD pub.ttl
  txp :=
    match patch.txp with
    | some patch => clampPubTxp (patch.apply pub.txp)
    | none => pub.txp

/-- The patch holds what the members give.  The loader goes through the members in their order;
the patch reads them by name, which is the same as long as no name occurs twice. -/
structure PubPatch.Reads (patch : PubPatch) (members : List (String × Value)) : Prop where
  addr : readOptional uint16Loader (.object members) strAddr = .ok (some patch.addr)
  aki : readOptional uint16Loader (.object members) strAppkey = .ok (some patch.aki)
  period : readOptional uint32Loader (.object members) strPeriod = .ok (some patch.period)
  ttl : readOptional uint8Loader (.object members) strTtl = .ok (some patch.ttl)
  txp : readOptional readTxpPatch (.object members) strTxp = .ok (some patch.txp)

section

variable {α : Type} (read : Value → Except Abort (Option α)) (key : String)

/-- Another member in front is not looked at. -/
theorem readOptional_cons_other {other : String} (different : other ≠ key) (value : Value)
    (rest : List (String × Value)) :
    readOptional read (.object ((other, value) :: rest)) key =
      readOptional read (.object rest) key := by
  simp only [readOptional, Value.get, Value.lookup, if_neg different]

theorem readOptional_cons_self {value : Value} {result : α}
    (reads : read value = .ok (some result)) (rest : List (String × Value)) :
    readOptional read (.object ((key, value) :: rest)) key = .ok (some (some result)) := by
  simp only [readOptional, Value.get, Value.lookup, if_true, reads]
  rfl

variable {read key}

/-- A member that is not there is not given. -/
theorem readOptional_absent {members : List (String × Value)}
    (absent : key ∉ members.map Prod.fst) {given : Option α}
    (reads : readOptional read (.object members) key = .ok (some given)) : given = none := by
  simp only [readOptional, Value.get, Value.lookup_eq_none absent, Except.ok.injEq,
    Option.some.injEq] at reads
  exact reads.symm

theorem isSome_of_readOptional {obj : Value} {given : Option α}
    (reads : readOptional read obj key = .ok (some given)) :
    given.isSome = (obj.get key).isSome := by
  unfold readOptional at reads
  cases found : obj.get key with
  | none =>
      rw [found] at reads
      rw [← Option.some.inj (Except.ok.inj reads)]
      rfl
  | some value =>
      simp only [found, bind_ok, Except.ok.injEq] at reads
      obtain ⟨result, _, same⟩ := reads
      cases result with
      | none => cases same
      | some result =>
          rw [← Option.some.inj same]
          rfl

end

/-- What one member does: it sets the field of its name, and one of another name does nothing. -/
inductive PubFieldStep (value : Value) : String → (Publication → Publication) → Prop where
  | addr {addr : UInt16} (reads : uint16Loader value = .ok (some addr)) :
      PubFieldStep value strAddr fun pub => { pub with addr := addr }
  | aki {aki : UInt16} (reads : uint16Loader value = .ok (some aki)) :
      PubFieldStep value strAppkey fun pub => { pub with aki := aki }
  | period {period : UInt32} (reads : uint32Loader value = .ok (some period)) :
      PubFieldStep value strPeriod fun pub => { pub with period := period }
  | ttl {ttl : UInt8} (reads : uint8Loader value = .ok (some ttl)) :
      PubFieldStep value strTtl fun pub => { pub with ttl := ttl }
  | txp {patch : TxpPatch} (reads : readTxpPatch value = .ok (some patch)) :
      PubFieldStep value strTxp fun pub =>
        { pub with txp := clampPubTxp (patch.apply pub.txp) }
  | ignored {key : String}
      (other : ∀ name ∈ [strAddr, strAppkey, strPeriod, strTtl, strTxp], key ≠ name) :
      PubFieldStep value key id

/-- A value is read, and what it says is handed on. -/
theorem map_reads {α β : Type} {read : Except Abort (Option α)} {change : α → β} {result : β}
    (reads : (do
      let value ← read
      .ok (value.map change)) = .ok (some result)) :
    ∃ value, read = .ok (some value) ∧ result = change value := by
  obtain ⟨value, found, applied⟩ := bind_ok.mp reads
  cases value with
  | none => cases applied
  | some value =>
      cases applied
      exact ⟨value, found, rfl⟩

theorem readPubField_step {key : String} {value : Value} {change : Publication → Publication}
    (reads : readPubField key value = .ok (some change)) : PubFieldStep value key change := by
  unfold readPubField at reads
  by_cases isAddr : key = strAddr
  · rw [if_pos isAddr] at reads
    obtain ⟨addr, found, rfl⟩ := map_reads reads
    subst isAddr
    exact .addr found
  rw [if_neg isAddr] at reads
  by_cases isAki : key = strAppkey
  · rw [if_pos isAki] at reads
    obtain ⟨aki, found, rfl⟩ := map_reads reads
    subst isAki
    exact .aki found
  rw [if_neg isAki] at reads
  by_cases isPeriod : key = strPeriod
  · rw [if_pos isPeriod] at reads
    obtain ⟨period, found, rfl⟩ := map_reads reads
    subst isPeriod
    exact .period found
  rw [if_neg isPeriod] at reads
  by_cases isTtl : key = strTtl
  · rw [if_pos isTtl] at reads
    obtain ⟨ttl, found, rfl⟩ := map_reads reads
    subst isTtl
    exact .ttl found
  rw [if_neg isTtl] at reads
  by_cases isTxp : key = strTxp
  · rw [if_pos isTxp] at reads
    obtain ⟨txp, found, rfl⟩ := map_reads reads
    subst isTxp
    exact .txp found
  rw [if_neg isTxp] at reads
  cases reads
  apply PubFieldStep.ignored
  simp only [List.mem_cons, List.not_mem_nil, or_false]
  rintro name (rfl | rfl | rfl | rfl | rfl)
  · exact isAddr
  · exact isAki
  · exact isPeriod
  · exact isTtl
  · exact isTxp

/-- A member in front adds its field to the patch of the members behind it. -/
theorem PubPatch.Reads.cons {patch : PubPatch} {rest : List (String × Value)}
    (read : patch.Reads rest) {key : String} {value : Value}
    (absent : key ∉ rest.map Prod.fst) {change : Publication → Publication}
    (step : PubFieldStep value key change) :
    ∃ whole : PubPatch, whole.Reads ((key, value) :: rest) ∧
      patch.apply ∘ change = whole.apply := by
  have other := fun {α : Type} (read : Value → Except Abort (Option α))
    {name : String} (different : key ≠ name) =>
    readOptional_cons_other read name different value rest
  cases step with
  | @addr addr reads =>
      have missing := readOptional_absent absent read.addr
      refine ⟨{ patch with addr := some addr },
        ⟨readOptional_cons_self _ _ reads rest, (other _ (by decide)).trans read.aki,
          (other _ (by decide)).trans read.period, (other _ (by decide)).trans read.ttl,
          (other _ (by decide)).trans read.txp⟩, ?_⟩
      funext pub
      simp [PubPatch.apply, missing]
  | @aki aki reads =>
      have missing := readOptional_absent absent read.aki
      refine ⟨{ patch with aki := some aki },
        ⟨(other _ (by decide)).trans read.addr, readOptional_cons_self _ _ reads rest,
          (other _ (by decide)).trans read.period, (other _ (by decide)).trans read.ttl,
          (other _ (by decide)).trans read.txp⟩, ?_⟩
      funext pub
      simp [PubPatch.apply, missing]
  | @period period reads =>
      have missing := readOptional_absent absent read.period
      refine ⟨{ patch with period := some period },
        ⟨(other _ (by decide)).trans read.addr, (other _ (by decide)).trans read.aki,
          readOptional_cons_self _ _ reads rest, (other _ (by decide)).trans read.ttl,
          (other _ (by decide)).trans read.txp⟩, ?_⟩
      funext pub
      simp [PubPatch.apply, missing]
  | @ttl ttl reads =>
      have missing := readOptional_absent absent read.ttl
      refine ⟨{ patch with ttl := some ttl },
        ⟨(other _ (by decide)).trans read.addr, (other _ (by decide)).trans read.aki,
          (other _ (by decide)).trans read.period, readOptional_cons_self _ _ reads rest,
          (other _ (by decide)).trans read.txp⟩, ?_⟩
      funext pub
      simp [PubPatch.apply, missing]
  | @txp txp reads =>
      have missing := readOptional_absent absent read.txp
      refine ⟨{ patch with txp := some txp },
        ⟨(other _ (by decide)).trans read.addr, (other _ (by decide)).trans read.aki,
          (other _ (by decide)).trans read.period, (other _ (by decide)).trans read.ttl,
          readOptional_cons_self _ _ reads rest⟩, ?_⟩
      funext pub
      simp [PubPatch.apply, missing]
  | ignored different =>
      exact ⟨patch,
        ⟨(other _ (different _ (by decide))).trans read.addr,
          (other _ (different _ (by decide))).trans read.aki,
          (other _ (different _ (by decide))).trans read.period,
          (other _ (different _ (by decide))).trans read.ttl,
          (other _ (different _ (by decide))).trans read.txp⟩, rfl⟩

/-- The members of an object, read in their order, are one patch. -/
theorem readPubFields_patch {members : List (String × Value)}
    (distinct : (members.map Prod.fst).Nodup) {change : Publication → Publication}
    (reads : readPubFields members = .ok (some change)) :
    ∃ patch : PubPatch, patch.Reads members ∧ change = patch.apply := by
  induction members generalizing change with
  | nil =>
      cases reads
      exact ⟨⟨none, none, none, none, none⟩, ⟨rfl, rfl, rfl, rfl, rfl⟩, rfl⟩
  | cons first rest hypothesis =>
      obtain ⟨key, value⟩ := first
      simp only [List.map_cons, List.nodup_cons] at distinct
      obtain ⟨absent, distinct⟩ := distinct
      simp only [readPubFields, bind_ok] at reads
      obtain ⟨here, field, reads⟩ := reads
      cases here with
      | none => cases reads
      | some here =>
          obtain ⟨later, others, rfl⟩ := map_reads reads
          obtain ⟨patch, read, rfl⟩ := hypothesis distinct others
          exact read.cons absent (readPubField_step field)

/-! ## History independence -/

/-- The contents of a record that loads and configuration runs lead to; the fields that
neither of them is about change freely. -/
inductive Prior (templates : Templates) : Node → Prop where
  | zeroed : Prior templates .zeroed
  | loaded {node after : Node} {fresh : UInt64} {obj : Value} (earlier : Prior templates node)
      (load : loadToNodeItem templates fresh obj node = .ok after) : Prior templates after
  | configured {node : Node} (earlier : Prior templates node) (which : Nat) :
      Prior templates (onFeatureConfigured which node)
  | written {node after : Node} (earlier : Prior templates node)
      (config : after.config = node.config) (tmpl : after.tmpl = node.tmpl) :
      Prior templates after

/-- The contents of a template that loads lead to.  A template is loaded over its earlier
contents, and these are in turn the result of loads. -/
inductive PriorTmpl : MeshConfig → Prop where
  | zeroed : PriorTmpl .zeroed
  | loaded {config after : MeshConfig} {obj : Value} (earlier : PriorTmpl config)
      (load : loadToTmplItem obj config = .ok after) : PriorTmpl after

/-- Every load of the object is as into a zeroed record.  The outcomes are compared, not only the
records: a load that stops the program must stop it from every record. -/
def HistoryIndependent (templates : Templates) (obj : Value) : Prop :=
  ∀ fresh node, Prior templates node →
    loadOutcome templates fresh obj node = loadOutcome templates fresh obj .zeroed

def TmplHistoryIndependent (obj : Value) : Prop :=
  ∀ config, PriorTmpl config → loadToTmplItem obj config = loadToTmplItem obj .zeroed

/-- The load of the object does not stop the program.  An object whose load stops it has no
result that could depend on the record. -/
def Loads (templates : Templates) (obj : Value) : Prop :=
  ∃ fresh after, loadOutcome templates fresh obj .zeroed = .ok after

def TmplLoads (obj : Value) : Prop :=
  ∃ after, loadToTmplItem obj .zeroed = .ok after

/-- The `Publish To` member holds every field, and the parameters of the retransmission
as far as they are used. -/
def PubWhole (obj : Value) : Prop :=
  ∃ pub, obj.get strPub = some pub ∧
    (∀ key ∈ [strAddr, strAppkey, strPeriod, strTtl], (pub.get key).isSome = true) ∧
    ∃ txp cnt, pub.get strTxp = some txp ∧ txp.get strCnt = some cnt ∧
      ((txp.get strIntv).isSome = true ∨ uint8Loader cnt = .ok (some 0))

/-- Everything that a load leaves to the record is given by the object, or by the
template it names. -/
structure SelfContained (tmpl : Option MeshConfig) (obj : Value) : Prop where
  ttl : Gives uint8Loader strTtl (·.ttl) tmpl obj
  snb : Gives uint8Loader strSnb (·.snb) tmpl obj
  netTxp : (∃ patch, readMember readTxpPatch obj strTxp = .ok (some patch) ∧
      patch.cnt.isSome = true ∧ patch.intv.isSome = true) ∨
    (readMember readTxpPatch obj strTxp = .ok none ∧
      ∃ source, tmpl = some source ∧ source.netTxp.isSome = true)
  pub : ∀ change, readMember readPub obj strPub = .ok (some change) → PubWhole obj

/-- The template id is there and is no number. -/
def MalformedId (obj : Value) : Prop :=
  ∃ fresh, tmplField fresh obj = .ok .malformed

/-! ### Prior contents -/

/-- The features above those of the program are never set. -/
def Features.Bounded (features : Features) : Prop :=
  ∀ bit, 7 ≤ bit → features.Agree .zeroed bit

theorem Prior.bounded {templates : Templates} {node : Node} (prior : Prior templates node) :
    node.config.features.Bounded := by
  induction prior with
  | zeroed => exact fun bit high => ⟨rfl, rfl⟩
  | loaded earlier load hypothesis =>
      obtain ⟨settings, field, read, _, _, config, _⟩ := loadToNodeItem_final load
      intro bit high
      rw [config]
      exact (finalConfig_agree_high (settingsOf_given read) _ _ high).trans
        (hypothesis bit high)
  | @configured node earlier which hypothesis =>
      intro bit high
      obtain ⟨target, current⟩ := hypothesis bit high
      refine ⟨target, ?_⟩
      by_cases on : node.config.features.target.getLsbD which = true
      · simp only [onFeatureConfigured, if_pos on, getLsbD_bitSet, current]
        by_cases same : which = bit
        · subst same
          rw [target] at on
          exact absurd on (by simp [Features.zeroed])
        · simp [same]
      · simp only [onFeatureConfigured, if_neg on, getLsbD_bitClr, current]
        simp [Features.zeroed]
  | written earlier config tmpl hypothesis =>
      rw [config]
      exact hypothesis

theorem PriorTmpl.bounded {config : MeshConfig} (prior : PriorTmpl config) :
    config.features.Bounded := by
  induction prior with
  | zeroed => exact fun bit high => ⟨rfl, rfl⟩
  | @loaded config after obj earlier load hypothesis =>
      simp only [loadToTmplItem, loadConfig_eq, bind_ok, Except.ok.injEq] at load
      obtain ⟨settings, read, rfl⟩ := load
      intro bit high
      exact (finalConfig_agree_high (settingsOf_given read) none config high).trans
        (hypothesis bit high)

/-! ### Whole publications -/

/-- Nothing is left to the record, except for an interval that takes no effect.  A count of 0
replaces the interval by a constant, so the interval may be left out then. -/
structure PubPatch.Whole (patch : PubPatch) : Prop where
  addr : patch.addr.isSome = true
  aki : patch.aki.isSome = true
  period : patch.period.isSome = true
  ttl : patch.ttl.isSome = true
  txp : ∃ txp cnt, patch.txp = some txp ∧ txp.cnt = some cnt ∧
    (txp.intv.isSome = true ∨ cnt = 0)

/-- The publication of a record in which every field is set. -/
def Publication.filled : Publication :=
  { addr := 1, aki := 1, period := 1, ttl := 1, txp := { cnt := 1, intv := 100 } }

theorem getD_eq_of_isSome {α : Type} {given : Option α} (isSome : given.isSome = true)
    (one other : α) : given.getD one = given.getD other := by
  cases given with
  | none => cases isSome
  | some value => rfl

theorem isSome_of_getD_eq {α : Type} {given : Option α} {one other : α}
    (different : one ≠ other) (same : given.getD one = given.getD other) :
    given.isSome = true := by
  cases given with
  | none => exact absurd same different
  | some value => rfl

theorem clampPubTxp_zero (intv : UInt16) :
    clampPubTxp { cnt := 0, intv := intv } = { cnt := 0, intv := 50 } := by
  simp [clampPubTxp, clampTxparam]

theorem PubPatch.Whole.apply_eq {patch : PubPatch} (whole : patch.Whole)
    (one other : Publication) : patch.apply one = patch.apply other := by
  obtain ⟨txp, cnt, given, counted, used⟩ := whole.txp
  have txps : clampPubTxp (txp.apply one.txp) = clampPubTxp (txp.apply other.txp) := by
    simp only [TxpPatch.apply, counted, Option.getD_some]
    rcases used with isSome | rfl
    · rw [getD_eq_of_isSome isSome one.txp.intv other.txp.intv]
    · rw [clampPubTxp_zero, clampPubTxp_zero]
  simp only [PubPatch.apply, given, txps]
  rw [getD_eq_of_isSome whole.addr one.addr other.addr,
    getD_eq_of_isSome whole.aki one.aki other.aki,
    getD_eq_of_isSome whole.period one.period other.period,
    getD_eq_of_isSome whole.ttl one.ttl other.ttl]

/-- The parameters that two different records would lead to. -/
theorem whole_of_clampPubTxp_eq {txp : TxpPatch}
    (same : clampPubTxp (txp.apply Publication.filled.txp) =
      clampPubTxp (txp.apply Publication.zeroed.txp)) :
    ∃ cnt, txp.cnt = some cnt ∧ (txp.intv.isSome = true ∨ cnt = 0) := by
  rcases txp with ⟨cnt, intv⟩
  cases cnt with
  | none =>
      have counts := congrArg Txparam.cnt same
      have kept : ∀ intv, (clampPubTxp { cnt := 1, intv := intv }).cnt = 1 := by
        intro intv
        simp only [clampPubTxp, clampTxparam]
        split_ifs <;> simp_all
      simp only [TxpPatch.apply, Option.getD_none, Publication.filled, Publication.zeroed,
        kept, clampPubTxp_zero] at counts
      cases counts
  | some cnt =>
      refine ⟨cnt, rfl, ?_⟩
      cases intv with
      | some intv => exact .inl rfl
      | none =>
          right
          by_contra nonzero
          have intvs := congrArg Txparam.intv same
          by_cases large : 7 < cnt
          · simp [TxpPatch.apply, Publication.filled, Publication.zeroed, clampPubTxp,
              clampTxparam, large] at intvs
          · simp [TxpPatch.apply, Publication.filled, Publication.zeroed, clampPubTxp,
              clampTxparam, large, nonzero] at intvs

theorem PubPatch.whole_of_apply_eq {patch : PubPatch}
    (same : patch.apply .filled = patch.apply .zeroed) : patch.Whole := by
  have addr := congrArg Publication.addr same
  have aki := congrArg Publication.aki same
  have period := congrArg Publication.period same
  have ttl := congrArg Publication.ttl same
  have txp := congrArg Publication.txp same
  refine ⟨isSome_of_getD_eq (by decide) addr, isSome_of_getD_eq (by decide) aki,
    isSome_of_getD_eq (by decide) period, isSome_of_getD_eq (by decide) ttl, ?_⟩
  simp only [PubPatch.apply] at txp
  cases given : patch.txp with
  | none =>
      rw [given] at txp
      exact absurd txp (by decide)
  | some patch =>
      rw [given] at txp
      obtain ⟨cnt, counted, used⟩ := whole_of_clampPubTxp_eq txp
      exact ⟨patch, cnt, rfl, counted, used⟩

theorem readTxpPatch_members {obj : Value} {patch : TxpPatch}
    (reads : readTxpPatch obj = .ok (some patch)) :
    readOptional uint8Loader obj strCnt = .ok (some patch.cnt) ∧
      readOptional uint16Loader obj strIntv = .ok (some patch.intv) := by
  simp only [readTxpPatch, bind_ok] at reads
  obtain ⟨cnt, counts, reads⟩ := reads
  cases cnt with
  | none => cases reads
  | some cnt =>
      simp only [bind_ok, Except.ok.injEq] at reads
      obtain ⟨intv, intervals, same⟩ := reads
      cases intv with
      | none => cases same
      | some intv =>
          cases same
          exact ⟨counts, intervals⟩

/-- A member that is given was read. -/
theorem readOptional_some {α : Type} {read : Value → Except Abort (Option α)} {key : String}
    {obj value : Value} {given : Option α} (found : obj.get key = some value)
    (reads : readOptional read obj key = .ok (some given)) :
    ∃ result, read value = .ok (some result) ∧ given = some result := by
  simp only [readOptional, found, bind_ok, Except.ok.injEq] at reads
  obtain ⟨result, readsValue, same⟩ := reads
  cases result with
  | none => cases same
  | some result =>
      cases same
      exact ⟨result, readsValue, rfl⟩

/-- The patch is whole when the members of the object are. -/
theorem pubWhole_iff {obj : Value} {members : List (String × Value)}
    (found : obj.get strPub = some (.object members)) {patch : PubPatch}
    (reads : patch.Reads members) : PubWhole obj ↔ patch.Whole := by
  have addr := isSome_of_readOptional reads.addr
  have aki := isSome_of_readOptional reads.aki
  have period := isSome_of_readOptional reads.period
  have ttl := isSome_of_readOptional reads.ttl
  constructor
  · rintro ⟨pub, here, fields, txp, cnt, txps, cnts, used⟩
    rw [found] at here
    cases here
    refine ⟨addr.trans (fields _ (by decide)), aki.trans (fields _ (by decide)),
      period.trans (fields _ (by decide)), ttl.trans (fields _ (by decide)), ?_⟩
    obtain ⟨given, readsTxp, txpGiven⟩ := readOptional_some txps reads.txp
    obtain ⟨counts, intervals⟩ := readTxpPatch_members readsTxp
    obtain ⟨count, readsCnt, cntGiven⟩ := readOptional_some cnts counts
    refine ⟨given, count, txpGiven, cntGiven, ?_⟩
    rcases used with isSome | zero
    · exact .inl ((isSome_of_readOptional intervals).trans isSome)
    · rw [zero] at readsCnt
      cases readsCnt
      exact .inr rfl
  · intro whole
    obtain ⟨given, count, txpGiven, cntGiven, used⟩ := whole.txp
    have txpIsSome := isSome_of_readOptional reads.txp
    rw [txpGiven] at txpIsSome
    obtain ⟨txp, txps⟩ := Option.isSome_iff_exists.mp txpIsSome.symm
    obtain ⟨other, readsTxp, same⟩ := readOptional_some txps reads.txp
    rw [txpGiven] at same
    cases same
    obtain ⟨counts, intervals⟩ := readTxpPatch_members readsTxp
    have cntIsSome := isSome_of_readOptional counts
    rw [cntGiven] at cntIsSome
    obtain ⟨cnt, cnts⟩ := Option.isSome_iff_exists.mp cntIsSome.symm
    obtain ⟨number, readsCnt, same⟩ := readOptional_some cnts counts
    rw [cntGiven] at same
    cases same
    refine ⟨.object members, found, ?_, txp, cnt, txps, cnts, ?_⟩
    · intro key member
      simp only [List.mem_cons, List.not_mem_nil, or_false] at member
      rcases member with rfl | rfl | rfl | rfl
      · exact addr.symm.trans whole.addr
      · exact aki.symm.trans whole.aki
      · exact period.symm.trans whole.period
      · exact ttl.symm.trans whole.ttl
    · rcases used with isSome | rfl
      · exact .inl ((isSome_of_readOptional intervals).symm.trans isSome)
      · exact .inr readsCnt

/-!
### Exactly the self-contained objects

That a self-contained object hides the record is read off the load as one equation.  For the
other direction the object is loaded into a record that is filled everywhere: what shows there is
what the object leaves to the record.
-/

/-- The publication that is read is a patch of the record's. -/
theorem Settings.Reads.patch {settings : Settings} {obj : Value} (reads : settings.Reads obj)
    (distinct : ∀ pub, obj.get strPub = some pub → pub.DistinctKeys)
    {change : Publication → Publication} (given : settings.pub = some change) :
    ∃ members, ∃ patch : PubPatch, obj.get strPub = some (.object members) ∧
      patch.Reads members ∧ change = patch.apply := by
  have read := reads.pub
  unfold readMember at read
  cases found : obj.get strPub with
  | none =>
      rw [found, given] at read
      cases read
  | some pub =>
      rw [found, given] at read
      cases pub with
      | object members =>
          obtain ⟨patch, patched, same⟩ := readPubFields_patch (distinct _ found) read
          exact ⟨members, patch, rfl, patched, same⟩
      | _ => cases read

section

variable {tmpl : Option MeshConfig} {settings : Settings} {obj : Value}

/-- A self-contained object is loaded as into a zeroed record. -/
theorem SelfContained.final_eq (self : SelfContained tmpl obj)
    (read : settingsOf obj = .ok settings)
    (distinct : ∀ pub, obj.get strPub = some pub → pub.DistinctKeys)
    {config : MeshConfig} (bounded : config.features.Bounded) :
    finalConfig tmpl settings config = finalConfig tmpl settings .zeroed := by
  have given := settingsOf_given read
  have reads := settingsOf_reads read
  rw [finalConfig_eq_iff]
  refine ⟨fun patch gives => ?_, fun change gives => ?_, fun bit => ?_⟩
  · have members := reads.netTxp
    rw [gives] at members
    rcases self.netTxp with ⟨patch', same, cnt, intv⟩ | ⟨absent, _⟩
    · rw [members] at same
      cases same
      simp only [TxpPatch.apply]
      rw [getD_eq_of_isSome cnt _ Txparam.zeroed.cnt,
        getD_eq_of_isSome intv _ Txparam.zeroed.intv]
      rfl
    · rw [members] at absent
      cases absent
  · obtain ⟨members, patch, found, patched, rfl⟩ := reads.patch distinct gives
    have pubs := reads.pub
    rw [gives] at pubs
    exact ((pubWhole_iff found patched).mp (self.pub _ pubs)).apply_eq _ _
  · rw [agree_finalConfig tmpl settings given]
    have ttl := (supplies_iff_gives reads.ttl).mpr self.ttl
    have snb := (supplies_iff_gives reads.snb).mpr self.snb
    have netTxp : supplies settings.netTxp (·.netTxp) tmpl = true := by
      rcases self.netTxp with ⟨patch, member, _⟩ | ⟨_, source, rfl, inherited⟩
      · rw [Except.ok.inj (reads.netTxp.symm.trans member)]
        rfl
      · simp only [supplies, Option.bind_some, inherited, Bool.or_true]
    rw [ttl, snb, netTxp]
    by_cases high : 7 ≤ bit
    · exact .inr (.inr (.inr (.inr (bounded bit high))))
    · have every : ∀ bit : Fin 7, bit.val < 4 ∨ nettxBitofs = bit.val ∨
          snbBitofs = bit.val ∨ ttlBitofs = bit.val := by
        decide
      rcases every ⟨bit, Nat.lt_of_not_le high⟩ with low | same | same | same
      · exact .inl low
      · exact .inr (.inl ⟨rfl, same⟩)
      · exact .inr (.inr (.inl ⟨rfl, same⟩))
      · exact .inr (.inr (.inr (.inl ⟨rfl, same⟩)))

/-- An object with values for everything. -/
def filledObject : Value :=
  let text (text : String) : Value := .string text.toList
  let txp : Value := .object [(strCnt, text "0x01"), (strIntv, text "0x0064")]
  .object
    [(strTtl, text "0x01"), (strSnb, text "0x01"), (strTxp, txp),
      (strPub, .object [(strAddr, text "0x0001"), (strAppkey, text "0x0001"),
        (strPeriod, text "0x00000001"), (strTtl, text "0x01"), (strTxp, txp)])]

def filledConfig : MeshConfig where
  ttl := some 1
  snb := some 1
  netTxp := some { cnt := 1, intv := 100 }
  features := { target := 0x70, current := 0, relayTxp := none }
  pub := some .filled
  bindings := none
  sublist := none

theorem loadConfig_filled : loadConfig filledObject .zeroed = .ok filledConfig := by
  apply ok_of_toOption
  decide +kernel

/-- An object that is loaded alike into a filled and a zeroed record is self-contained. -/
theorem selfContained_of_final_eq (read : settingsOf obj = .ok settings)
    (distinct : ∀ pub, obj.get strPub = some pub → pub.DistinctKeys)
    (same : finalConfig tmpl settings filledConfig = finalConfig tmpl settings .zeroed) :
    SelfContained tmpl obj := by
  have given := settingsOf_given read
  have reads := settingsOf_reads read
  obtain ⟨netTxp, pub, agree⟩ := (finalConfig_eq_iff tmpl settings _ _).mp same
  have bits := fun bit => (agree_finalConfig tmpl settings given filledConfig .zeroed bit).mp
    (agree bit)
  have ttlSupplied : supplies settings.ttl (·.ttl) tmpl = true := by
    have bit := bits ttlBitofs
    simpa [Features.Agree, filledConfig, MeshConfig.zeroed, Node.zeroed, ttlBitofs,
      snbBitofs, nettxBitofs] using bit
  have snbSupplied : supplies settings.snb (·.snb) tmpl = true := by
    have bit := bits snbBitofs
    simpa [Features.Agree, filledConfig, MeshConfig.zeroed, Node.zeroed, ttlBitofs,
      snbBitofs, nettxBitofs] using bit
  have netTxpSupplied : supplies settings.netTxp (·.netTxp) tmpl = true := by
    have bit := bits nettxBitofs
    simpa [Features.Agree, filledConfig, MeshConfig.zeroed, Node.zeroed, ttlBitofs,
      snbBitofs, nettxBitofs] using bit
  refine ⟨(supplies_iff_gives reads.ttl).mp ttlSupplied,
    (supplies_iff_gives reads.snb).mp snbSupplied, ?_, ?_⟩
  · cases gives : settings.netTxp with
    | none =>
        rw [gives] at netTxpSupplied
        have members := reads.netTxp
        rw [gives] at members
        right
        refine ⟨members, ?_⟩
        cases tmpl with
        | none => cases netTxpSupplied
        | some source => exact ⟨source, rfl, netTxpSupplied⟩
    | some patch =>
        have members := reads.netTxp
        rw [gives] at members
        have equal := netTxp patch gives
        have cnt := congrArg Txparam.cnt equal
        have intv := congrArg Txparam.intv equal
        exact .inl ⟨patch, members, isSome_of_getD_eq (by decide) cnt,
          isSome_of_getD_eq (by decide) intv⟩
  · intro change member
    have gives := Except.ok.inj (reads.pub.symm.trans member)
    obtain ⟨members, patch, found, patched, rfl⟩ := reads.patch distinct gives
    exact (pubWhole_iff found patched).mpr (PubPatch.whole_of_apply_eq (pub _ gives))

end

/-! ### Reloading -/

/-- The value of a template id that is well-formed or absent is that of the object. -/
theorem id_load {field : TmplField} (wellFormed : field ≠ .malformed)
    (one other : Option TmplCell) :
    (field.load one).map (·.value) = (field.load other).map (·.value) := by
  cases field with
  | absent => rfl
  | malformed => exact absurd rfl wellFormed
  | present place id => cases one <;> cases other <;> rfl

theorem Prior.filled (templates : Templates) :
    Prior templates { Node.zeroed with config := filledConfig } := by
  refine @Prior.loaded templates .zeroed _ 0 filledObject .zeroed ?_
  have loaded : loadConfig filledObject Node.zeroed.config = .ok filledConfig :=
    loadConfig_filled
  rw [loadToNodeItem, loaded]
  rfl

/-- An object with a template id only. -/
def idObject : Value := .object [(strTmpl, .string "0x00".toList)]

theorem Prior.templated (templates : Templates) :
    ∃ node, Prior templates node ∧ node.tmpl.isSome = true := by
  have named : tmplField 0 idObject = .ok (.present 0 0) := by
    apply ok_of_toOption
    decide +kernel
  cases load : loadToNodeItem templates 0 idObject .zeroed with
  | error abort =>
      rw [loadToNodeItem_eq, named] at load
      cases load
  | ok node =>
      refine ⟨node, .loaded .zeroed load, ?_⟩
      obtain ⟨_, field, _, read, _, _, cell⟩ := loadToNodeItem_final load
      cases named.symm.trans read
      rw [cell]
      rfl

/-- A node object is loaded independently of the past exactly when it stops the program
or is self-contained and its template id is a number or absent. -/
theorem historyIndependent_iff (templates : Templates) {obj : Value}
    (distinct : ∀ pub, obj.get strPub = some pub → pub.DistinctKeys) :
    HistoryIndependent templates obj ↔
      (Loads templates obj →
        SelfContained (namedTemplate templates obj) obj ∧ ¬ MalformedId obj) := by
  constructor
  · rintro independent ⟨fresh, after, load⟩
    rw [loadOutcome_eq] at load
    simp only [bind_ok] at load
    obtain ⟨settings, read, field, named, load⟩ := load
    by_cases clash : (settings.clashes && (namedTemplate templates obj).isSome) = true
    · rw [if_pos clash] at load
      cases load
    constructor
    · have same := independent fresh _ (Prior.filled templates)
      rw [loadOutcome_eq, loadOutcome_eq, read, named, ok_bind, ok_bind, ok_bind, ok_bind,
        if_neg clash, if_neg clash] at same
      exact selfContained_of_final_eq read distinct (congrArg Prod.fst (Except.ok.inj same))
    · rintro ⟨place, malformed⟩
      obtain ⟨node, prior, isSome⟩ := Prior.templated templates
      have same := independent place node prior
      rw [loadOutcome_eq, loadOutcome_eq, read, malformed, ok_bind, ok_bind, ok_bind, ok_bind,
        if_neg clash, if_neg clash] at same
      have ids := congrArg Prod.snd (Except.ok.inj same)
      cases cell : node.tmpl with
      | none =>
          rw [cell] at isSome
          cases isSome
      | some cell' =>
          simp only [TmplField.load, cell] at ids
          cases ids
  · intro exactly fresh node prior
    rw [loadOutcome_eq, loadOutcome_eq]
    cases read : settingsOf obj with
    | error abort => rfl
    | ok settings =>
        rw [ok_bind, ok_bind]
        cases named : tmplField fresh obj with
        | error abort => rfl
        | ok field =>
            rw [ok_bind, ok_bind]
            by_cases clash :
                (settings.clashes && (namedTemplate templates obj).isSome) = true
            · rw [if_pos clash, if_pos clash]
            · have loads : Loads templates obj := by
                refine ⟨fresh, (finalConfig (namedTemplate templates obj) settings .zeroed,
                  (field.load none).map (·.value)), ?_⟩
                rw [loadOutcome_eq, read, ok_bind, named, ok_bind, if_neg clash]
                rfl
              obtain ⟨self, wellFormed⟩ := exactly loads
              have config := self.final_eq read distinct prior.bounded
              have numbered : field ≠ .malformed := by
                rintro rfl
                exact wellFormed ⟨fresh, named⟩
              have id := id_load numbered node.tmpl Node.zeroed.tmpl
              rw [if_neg clash, if_neg clash, id]
              exact congrArg (fun config => Except.ok (config, _)) config

theorem tmplHistoryIndependent_iff {obj : Value}
    (distinct : ∀ pub, obj.get strPub = some pub → pub.DistinctKeys) :
    TmplHistoryIndependent obj ↔ (TmplLoads obj → SelfContained none obj) := by
  constructor
  · rintro independent ⟨after, load⟩
    have same := independent filledConfig (.loaded .zeroed loadConfig_filled)
    rw [loadToTmplItem_eq] at load
    simp only [bind_ok] at load
    obtain ⟨settings, read, _⟩ := load
    rw [loadToTmplItem_eq, loadToTmplItem_eq, read, ok_bind, ok_bind] at same
    exact selfContained_of_final_eq read distinct (Except.ok.inj same)
  · intro exactly config prior
    rw [loadToTmplItem_eq, loadToTmplItem_eq]
    cases read : settingsOf obj with
    | error abort => rfl
    | ok settings =>
        have loads : TmplLoads obj := by
          refine ⟨finalConfig none settings .zeroed, ?_⟩
          rw [loadToTmplItem_eq, read, ok_bind]
        have config := (exactly loads).final_eq read distinct prior.bounded
        rw [ok_bind, ok_bind, config]

/-- Reloading is history independent exactly for the objects that give everything a load would
leave to the record.  Necessity is shown by two records that differ in what is left to them. -/
theorem reload_independent_iff (templates : Templates) (obj : Value)
    (distinct : ∀ pub, obj.get strPub = some pub → pub.DistinctKeys) :
    (HistoryIndependent templates obj ↔
      (Loads templates obj →
        SelfContained (namedTemplate templates obj) obj ∧ ¬ MalformedId obj)) ∧
    (TmplHistoryIndependent obj ↔ (TmplLoads obj → SelfContained none obj)) :=
  ⟨historyIndependent_iff templates distinct, tmplHistoryIndependent_iff distinct⟩

/-- The members of the sample are distinct. -/
theorem reload_independent_iff_filled :
    HistoryIndependent ∅ filledObject ↔
      (Loads ∅ filledObject →
        SelfContained (namedTemplate ∅ filledObject) filledObject ∧
          ¬ MalformedId filledObject) := by
  have distinct : ∀ pub, filledObject.get strPub = some pub → pub.DistinctKeys := by
    intro pub found
    cases found
    decide
  exact (reload_independent_iff ∅ filledObject distinct).1

/-- A publication that is reloaded without its address keeps the old one. -/
theorem reload_keeps_address :
    ∃ node obj, Prior ∅ node ∧
      (loadOutcome ∅ 0 obj node).toOption.map (fun loaded => loaded.1.pub.map (·.addr)) =
        some (some 1) ∧
      (loadOutcome ∅ 0 obj .zeroed).toOption.map (fun loaded => loaded.1.pub.map (·.addr)) =
        some (some 0) ∧
      ¬ HistoryIndependent ∅ obj := by
  let obj : Value := .object [(strPub, .object [(strAppkey, .string "0x0001".toList)])]
  let node : Node := { Node.zeroed with config := filledConfig }
  have kept : (loadOutcome ∅ 0 obj node).toOption.map
      (fun loaded => loaded.1.pub.map (·.addr)) = some (some 1) := by
    decide +kernel
  have new : (loadOutcome ∅ 0 obj .zeroed).toOption.map
      (fun loaded => loaded.1.pub.map (·.addr)) = some (some 0) := by
    decide +kernel
  refine ⟨node, obj, Prior.filled ∅, kept, new, fun independent => ?_⟩
  rw [independent 0 node (Prior.filled ∅), new] at kept
  cases kept

end Nwmng
