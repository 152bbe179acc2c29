/-
Module: Nwmng.Config.ModelRounds
Purpose: For which models a slot sets the publication and the subscriptions, while every command
and every status succeeds.
Trusted boundary: none
Main exports:
  coversModel, modelSendings, Work.FilterRight, model_visits_iff, setpub_enumerates,
  addsub_enumerates, models_covered_iff
-/
import Nwmng.Config.KeyRounds

namespace Nwmng

open Fallible Enumeration

/-! ## What is to be sent -/

/-- The iterators accept a model by its model id alone. -/
def acceptsModel (supported : UInt16 → Bool) (elems : List Elem) (element model : Nat) : Bool :=
  ((vnmAt elems element model).map fun vnm => supported vnm.md).getD false

/-- The number is that of a vendor model. -/
def isVendor (elems : List Elem) (element model : Nat) : Bool :=
  match elems[element]? with
  | some elem => decide (elem.sigmCnt.toNat ≤ model)
  | none => false

/-- The models that are to be set up: those of vendors, and the SIG models that support it. -/
def coversModel (supported : UInt16 → Bool) (elems : List Elem) (element model : Nat) : Bool :=
  isVendor elems element model || acceptsModel supported elems element model

/-- The commands of some numbers for each model that is to be set up. -/
def modelSendings (work : Work) (supported : UInt16 → Bool) (count : Nat)
    (read : Nat × Nat × Nat → Option Command) : List (Iterators × Command) :=
  (List.range work.elems.length).flatMap fun element =>
    ((List.range (modelsOf work.elems element)).filter
        (coversModel supported work.elems element)).flatMap fun model =>
      (List.range count).filterMap fun entry =>
        (read (element, model, entry)).map fun command =>
          ({ zero := element, one := model, two := entry }, command)

/-- The command that sets the publication of a model. -/
def pubAt (work : Work) (subnet : Subnet) (pub : Publication) : Nat × Nat × Nat → Option Command
  | (element, model, _) => do
      let vnm ← vnmAt work.elems element model
      let appkey ← subnet.appkeyId pub.aki
      some (.setModelPub subnet.netkey.id work.node.addr (UInt8.ofNat element) vnm.vd vnm.md
        pub.addr appkey 0 pub.ttl pub.period pub.txp.cnt
        (if pub.txp.intv = 0 then 50 else pub.txp.intv))

/-- The command for an address of a model: the first one sets its list, the others add to it. -/
def subAt (work : Work) (subnet : Subnet) (sublist : Uint16List) :
    Nat × Nat × Nat → Option Command
  | (element, model, entry) => do
      let vnm ← vnmAt work.elems element model
      let address ← sublist.data[entry]?
      some (if entry = 0 then
        .setModelSub subnet.netkey.id work.node.addr (UInt8.ofNat element) vnm.vd vnm.md address
      else
        .addModelSub subnet.netkey.id work.node.addr (UInt8.ofNat element) vnm.vd vnm.md address)

/-- What the search of the iterators does not look at agrees with what is to be set up: the first
model of every element is to be set up, and no other vendor model has the id of an unsupported
SIG model. -/
def Work.FilterRight (work : Work) (supported : UInt16 → Bool) : Prop :=
  ∀ element < work.elems.length,
    coversModel supported work.elems element 0 = true ∧
      ∀ model, 0 < model → model < modelsOf work.elems element →
        isVendor work.elems element model = true →
          acceptsModel supported work.elems element model = true

/-- The iterators that set models up: elements, the models their search accepts, and some
commands for each. -/
def modelNest (work : Work) (supported : UInt16 → Bool) (count : Nat) : Nest where
  outer := work.elems.length
  middle := modelsOf work.elems
  chosen := acceptsModel supported work.elems
  inner := count
  wanted := fun _ => true

section

variable {work : Work} {supported : UInt16 → Bool} {count : Nat}
variable {read : Nat × Nat × Nat → Option Command}

/-!
## What is sent

The model loop asks whether a model is supported, except for the first model of an element, which
it starts at.  It also compares vendor models by their model id with the table of SIG models.
-/

/-- The sendings in terms of positions. -/
theorem modelSendings_eq :
    modelSendings work supported count read =
      (readings read
        ((List.range work.elems.length).flatMap fun element =>
          ((List.range (modelsOf work.elems element)).filter
              (coversModel supported work.elems element)).flatMap fun model =>
            (List.range count).map fun entry => (element, model, entry))).map
        fun sending => (modelPlace sending.1, sending.2) := by
  rw [readings_map, modelSendings, List.filterMap_flatMap]
  congr 1
  funext element
  rw [List.filterMap_flatMap]
  congr 1
  funext model
  rw [List.filterMap_map]
  rfl

theorem modelPlace_inj {place other : Nat × Nat × Nat}
    (same : modelPlace place = modelPlace other) : place = other := by
  obtain ⟨first, second, third⟩ := place
  obtain ⟨first', second', third'⟩ := other
  simp only [modelPlace, Iterators.mk.injEq, Int.natCast_inj] at same
  rw [same.1, same.2.1, same.2.2]

theorem map_fst_sendings (found : List ((Nat × Nat × Nat) × Command)) :
    (found.map fun sending => (modelPlace sending.1, sending.2)).map Prod.fst =
      (found.map Prod.fst).map modelPlace := by
  rw [List.map_map, List.map_map]
  rfl

/-- A command exists for a position exactly if there is a model.  It is what the reader of a
position has to satisfy for the iterators to visit all models and to stop behind the last. -/
def ReadsModels (work : Work) (count : Nat) (read : Nat × Nat × Nat → Option Command) : Prop :=
  ∀ element model entry, entry < count →
    ((read (element, model, entry)).isSome = true ↔
      (vnmAt work.elems element model).isSome = true)

/-- Every position of the nest is read, if no element is empty. -/
theorem ReadsModels.readable (reads : ReadsModels work count read) (positive : 0 < count)
    (stored : work.dcd.Stored work.elems) (full : work.NoEmptyElement) :
    ∀ place ∈ (modelNest work supported count).positions, (read place).isSome = true := by
  rintro ⟨element, model, entry⟩ member
  obtain ⟨outer, middle, inner⟩ := (modelNest work supported count).mem_positions.mp member
  have within : element < work.elems.length := lt_of_mem_sweep stored.positive outer
  have below : model < modelsOf work.elems element :=
    lt_of_mem_sweep (full.modelsOf within) middle
  obtain ⟨vnm, noted⟩ := vnmAt_isSome stored below
  rw [reads element model entry (lt_of_mem_sweep positive inner), noted]
  rfl

/-- The iterators go through the models that are to be set up, exactly if no element is empty
and the filter is right. -/
theorem model_visits_iff (reads : ReadsModels work count read) (positive : 0 < count)
    (stored : work.dcd.Stored work.elems) :
    (∃ visited, Visits read (modelNest work supported count).step (0, 0, 0) visited ∧
      modelSendings work supported count read =
        visited.map fun sending => (modelPlace sending.1, sending.2)) ↔
      work.NoEmptyElement ∧ work.FilterRight supported := by
  constructor
  · rintro ⟨visited, visits, same⟩
    have full : work.NoEmptyElement := by
      apply noEmptyElement_of_first stored
      intro element inside
      obtain ⟨others, reached⟩ := (modelNest work supported count).reaches visits inside
      obtain ⟨command, here⟩ := reached.reads
      have noted := (reads element 0 0 positive).mp (by rw [here]; rfl)
      exact Option.isSome_iff_exists.mp noted
    have readable := @ReadsModels.readable work supported count read reads positive stored full
    have all := (modelNest work supported count).visits readable
    rw [visits.unique all, modelSendings_eq] at same
    have specified : ∀ place ∈ (List.range work.elems.length).flatMap fun element =>
        ((List.range (modelsOf work.elems element)).filter
            (coversModel supported work.elems element)).flatMap fun model =>
          (List.range count).map fun entry => (element, model, entry),
        (read place).isSome = true := by
      intro place member
      simp only [List.mem_flatMap, List.mem_filter, List.mem_range, List.mem_map] at member
      obtain ⟨element, _, model, ⟨below, _⟩, entry, inner, rfl⟩ := member
      obtain ⟨vnm, noted⟩ := vnmAt_isSome stored below
      rw [reads element model entry inner, noted]
      rfl
    have places := congrArg (List.map Prod.fst) same
    rw [map_fst_sendings, map_fst_sendings, readings_places readable, readings_places specified]
      at places
    have equal := List.map_injective_iff.mpr (fun _ _ => modelPlace_inj) places
    have sent : ∀ element < work.elems.length, ∀ model < modelsOf work.elems element,
        (coversModel supported work.elems element model = true ↔
          model ∈ sweep (acceptsModel supported work.elems element)
            (modelsOf work.elems element)) := by
      intro element within model below
      have member : (element, model, 0) ∈ (modelNest work supported count).positions ↔
          model ∈ sweep (acceptsModel supported work.elems element)
            (modelsOf work.elems element) := by
        rw [Nest.mem_positions]
        exact ⟨fun inside => inside.2.1, fun inside =>
          ⟨mem_sweep.mpr (.inr ⟨within, rfl⟩), inside, mem_sweep.mpr (.inl rfl)⟩⟩
      rw [← member, ← equal]
      simp only [List.mem_flatMap, List.mem_filter, List.mem_range, List.mem_map, Prod.mk.injEq]
      constructor
      · intro covers
        exact ⟨element, within, model, ⟨below, covers⟩, 0, positive, rfl, rfl, rfl⟩
      · rintro ⟨_, _, _, ⟨_, covers⟩, _, _, rfl, rfl, _⟩
        exact covers
    refine ⟨full, fun element within => ⟨?_, fun model behindFirst below vendor => ?_⟩⟩
    · exact (sent element within 0 (full.modelsOf within)).mpr (mem_sweep.mpr (.inl rfl))
    · have covers : coversModel supported work.elems element model = true := by
        rw [coversModel, vendor]
        rfl
      rcases mem_sweep.mp ((sent element within model below).mp covers) with first | ⟨_, accepts⟩
      · omega
      · exact accepts
  · rintro ⟨full, right⟩
    refine ⟨_, (modelNest work supported count).visits
      (@ReadsModels.readable work supported count read reads positive stored full), ?_⟩
    rw [modelSendings_eq]
    congr 2
    rw [Nest.positions]
    change _ = (sweep (fun _ => true) work.elems.length).flatMap _
    rw [sweep_all stored.positive]
    apply List.flatMap_congr
    intro element listed
    have within := List.mem_range.mp listed
    obtain ⟨first, others⟩ := right element within
    have agree : ∀ model, 0 < model → model < modelsOf work.elems element →
        acceptsModel supported work.elems element model =
          coversModel supported work.elems element model := by
      intro model behindFirst below
      have vendors := others model behindFirst below
      rw [coversModel]
      cases vendor : isVendor work.elems element model with
      | false => rw [Bool.false_or]
      | true => rw [Bool.true_or, vendors vendor]
    change _ = (sweep (acceptsModel supported work.elems element)
      (modelsOf work.elems element)).flatMap _
    rw [sweep_congr agree, (sweep_eq_filter_iff (full.modelsOf within)).mpr first]
    apply List.flatMap_congr
    intro model _
    rw [Nest.row_eq]
    change _ = (sweep (fun _ => true) count).map _
    rw [sweep_all positive]

/-! ## The steps of the iterators -/

variable {cache : ConfigCache} {host : Host}

/-- The model loop takes the iterators to the next model that it accepts, or to the next
element. -/
theorem iterModels_place (stored : work.dcd.Stored work.elems) (own : work.At cache host)
    {element model : Nat} {vnm : Vnm} (within : element < work.elems.length)
    (noted : vnmAt work.elems element model = some vnm)
    (here : cache.iterators = modelPlace (element, model, 0)) :
    iterModels supported cache =
      .ok (cache.moved modelPlace
        (((later (acceptsModel supported work.elems element) (modelsOf work.elems element)
            model).map fun other => (element, other, 0)).or
          ((later (fun _ => true) work.elems.length element).map fun other => (other, 0, 0)))) := by
  obtain ⟨elem, listed, sized, below⟩ := vnmAt_some stored noted
  rw [← own.page] at stored
  have first : cache.iterators.zero = (element : Int) := by rw [here]; rfl
  have second : cache.iterators.one = (model : Int) := by rw [here]; rfl
  have models : modelsOf work.elems element = elem.modelCount := by rw [modelsOf, listed]
  have accepts : (fun other => (elem.vnms[other]?.map fun vnm => supported vnm.md).getD false) =
      acceptsModel supported work.elems element := by
    funext other
    rw [acceptsModel, vnmAt, listed]
    rfl
  rw [iterModels, elementAt_eq stored first, listed, cell_some, ok_bind]
  dsimp only
  rw [second, nextModel_eq sized supported (by omega) below, accepts, models, ok_bind]
  cases later (acceptsModel supported work.elems element) elem.modelCount model with
  | some other =>
      rw [here]
      rfl
  | none =>
      have moves := @nextElement_at
        { cache with iterators := { cache.iterators with one := 0 } } work.elems stored element
        first within
      rw [Option.map_none, Option.map_none, Option.none_or]
      dsimp only
      rw [moves, here]
      cases later (fun _ => true) work.elems.length element with
      | none => rfl
      | some other => rfl

/-! ## Publications -/

theorem pubAt_some {subnet : Subnet} {pub : Publication} {place : Nat × Nat × Nat}
    {command : Command} (reads : pubAt work subnet pub place = some command) :
    ∃ vnm appkey, vnmAt work.elems place.1 place.2.1 = some vnm ∧
      subnet.appkeyId pub.aki = some appkey ∧
      command = .setModelPub subnet.netkey.id work.node.addr (UInt8.ofNat place.1) vnm.vd vnm.md
        pub.addr appkey 0 pub.ttl pub.period pub.txp.cnt
        (if pub.txp.intv = 0 then 50 else pub.txp.intv) := by
  obtain ⟨element, model, entry⟩ := place
  cases noted : vnmAt work.elems element model with
  | none => simp [pubAt, noted] at reads
  | some vnm =>
      cases resolved : subnet.appkeyId pub.aki with
      | none => simp [pubAt, noted, resolved] at reads
      | some appkey =>
          simp only [pubAt, noted, resolved, Option.bind_eq_bind, Option.bind_some,
            Option.some.injEq] at reads
          exact ⟨vnm, appkey, rfl, rfl, reads.symm⟩

theorem setpub_enumerates {subnet : Subnet} {others : List Subnet} {pub : Publication}
    (network : work.cfg.subnets = subnet :: others) (configured : work.node.config.pub = some pub)
    (stored : work.dcd.Stored work.elems) :
    setpubOps.Enumerates work modelPlace
      (fun place => place.1 < work.elems.length ∧ place.2.2 < 1) (pubAt work subnet pub)
      (modelNest work pubSupported 1).step where
  sends := by
    intro place command slot answer cache host _ reads own here
    obtain ⟨vnm, appkey, noted, resolved, rfl⟩ := pubAt_some reads
    have first : cache.iterators.zero = (place.1 : Int) := by rw [here]; rfl
    refine ⟨vnm, ?_⟩
    change setpub slot answer cache host = _
    rw [setpub, noteModel_place stored own here, noted, Option.map_some, cell_some, ok_bind,
      (own.noted vnm).nodeOf, ok_bind]
    simp only [configured, present, ok_bind, appkeyOf_at network own, resolved,
      netkeyId_at network own, ConfigCache.elementByte, first, UInt8.ofInt_natCast]
  stops := by
    intro place slot answer cache host _ nothing own here
    have noting := noteModel_place stored own here
    change ∃ failure, setpub slot answer cache host = .error failure
    cases noted : vnmAt work.elems place.1 place.2.1 with
    | none =>
        rw [setpub, noting, noted, Option.map_none, cell_none, error_bind]
        exact ⟨_, rfl⟩
    | some vnm =>
        have unresolved : subnet.appkeyId pub.aki = none := by
          cases resolved : subnet.appkeyId pub.aki with
          | none => rfl
          | some appkey => simp [pubAt, noted, resolved] at nothing
        rw [setpub, noting, noted, Option.map_some, cell_some, ok_bind,
          (own.noted vnm).nodeOf, ok_bind]
        simp only [configured, present, ok_bind, appkeyOf_at network own, unresolved, error_bind]
        exact ⟨_, rfl⟩
  advances := by
    rintro ⟨element, model, entry⟩ command cache host ⟨within, inside⟩ reads own here
    obtain ⟨vnm, _, noted, _, _⟩ := pubAt_some reads
    change element < work.elems.length at within
    change vnmAt work.elems element model = some vnm at noted
    have zero : entry = 0 := Nat.lt_one_iff.mp inside
    subst zero
    have none_ : later (fun _ => true) 1 0 = none := later_last rfl
    change iterModels pubSupported cache = _
    rw [iterModels_place stored own within noted here]
    simp only [Nest.step, modelNest, none_, Option.map_none, Option.none_or]
  inside := by
    intro place command after inside _ steps
    exact (modelNest work pubSupported 1).step_inside steps inside.1 inside.2
  accepts := by
    intro cache host own
    change acceptPub bgErrSuccess cache host = _
    rw [acceptPub, if_pos (.inl rfl), pubMessage, own.nodeOf, ok_bind]
    simp only [configured, present, ok_bind]

/-! ## Subscriptions -/

theorem subAt_some {subnet : Subnet} {sublist : Uint16List} {place : Nat × Nat × Nat}
    {command : Command} (reads : subAt work subnet sublist place = some command) :
    ∃ vnm address, vnmAt work.elems place.1 place.2.1 = some vnm ∧
      sublist.data[place.2.2]? = some address ∧
      command = if place.2.2 = 0 then
          .setModelSub subnet.netkey.id work.node.addr (UInt8.ofNat place.1) vnm.vd vnm.md address
        else
          .addModelSub subnet.netkey.id work.node.addr (UInt8.ofNat place.1) vnm.vd vnm.md
            address := by
  obtain ⟨element, model, entry⟩ := place
  cases noted : vnmAt work.elems element model with
  | none => simp [subAt, noted] at reads
  | some vnm =>
      cases listed : sublist.data[entry]? with
      | none => simp [subAt, noted, listed] at reads
      | some address =>
          simp only [subAt, noted, listed, Option.bind_eq_bind, Option.bind_some,
            Option.some.injEq] at reads
          exact ⟨vnm, address, rfl, rfl, reads.symm⟩

theorem addsub_enumerates {subnet : Subnet} {others : List Subnet} {sublist : Uint16List}
    (network : work.cfg.subnets = subnet :: others)
    (configured : work.node.config.sublist = some sublist)
    (allocated : sublist.len.toNat ≤ sublist.data.length)
    (stored : work.dcd.Stored work.elems) :
    addsubOps.Enumerates work modelPlace
      (fun place => place.1 < work.elems.length ∧ place.2.2 < sublist.len.toNat)
      (subAt work subnet sublist) (modelNest work subSupported sublist.len.toNat).step where
  sends := by
    intro place command slot answer cache host _ reads own here
    obtain ⟨vnm, address, noted, listed, rfl⟩ := subAt_some reads
    have first : cache.iterators.zero = (place.1 : Int) := by rw [here]; rfl
    have third : cache.iterators.two = (place.2.2 : Int) := by rw [here]; rfl
    refine ⟨vnm, ?_⟩
    change addsub slot answer cache host = _
    rw [addsub, noteModel_place stored own here, noted, Option.map_some, cell_some, ok_bind,
      (own.noted vnm).nodeOf, ok_bind]
    simp only [configured, present, ok_bind, third, arrayAt_natCast, listed, cell_some,
      netkeyId_at network own, ConfigCache.elementByte, first, UInt8.ofInt_natCast]
    by_cases zero : place.2.2 = 0
    · rw [if_pos zero, if_pos (by omega)]
    · rw [if_neg zero, if_neg (by omega)]
  stops := by
    intro place slot answer cache host inside nothing own here
    have noting := noteModel_place stored own here
    change ∃ failure, addsub slot answer cache host = .error failure
    cases noted : vnmAt work.elems place.1 place.2.1 with
    | none =>
        rw [addsub, noting, noted, Option.map_none, cell_none, error_bind]
        exact ⟨_, rfl⟩
    | some vnm =>
        have listed : place.2.2 < sublist.data.length :=
          Nat.lt_of_lt_of_le inside.2 allocated
        simp [subAt, noted, List.getElem?_eq_getElem listed] at nothing
  advances := by
    rintro ⟨element, model, entry⟩ command cache host ⟨within, inside⟩ reads own here
    obtain ⟨vnm, _, noted, _, _⟩ := subAt_some reads
    change element < work.elems.length at within
    change entry < sublist.len.toNat at inside
    change vnmAt work.elems element model = some vnm at noted
    have third : cache.iterators.two = (entry : Int) := by rw [here]; rfl
    change iterAddsub cache host = _
    rw [iterAddsub, own.nodeOf, ok_bind]
    simp only [configured, present, ok_bind, third, Nest.step, modelNest]
    by_cases last : entry + 1 = sublist.len.toNat
    · have rewound : work.At { cache with iterators := { cache.iterators with two := 0 } } host :=
        ⟨own.here, own.record, own.page, own.network⟩
      have start : ({ cache.iterators with two := 0 } : Iterators) =
          modelPlace (element, model, 0) := by
        rw [here]
        rfl
      rw [if_pos (by omega), later_last last, Option.map_none, Option.none_or,
        iterModels_place stored rewound within noted start]
      rfl
    · rw [if_neg (by omega), later_succ (by omega) rfl, here]
      rfl
  inside := by
    intro place command after inside _ steps
    exact (modelNest work subSupported sublist.len.toNat).step_inside steps inside.1 inside.2
  accepts := by
    intro cache host own
    change acceptSub bgErrSuccess cache host = _
    rw [acceptSub, if_pos rfl, subMessage, own.nodeOf, ok_bind]
    simp only [configured, present, ok_bind]

/-!
## Both states

Publications and subscriptions go through the models in the same way.  They differ in the number
of commands for a model and in what makes the guard open.
-/

theorem pubAt_reads {subnet : Subnet} {pub : Publication}
    (resolved : (subnet.appkeyId pub.aki).isSome = true) :
    ReadsModels work 1 (pubAt work subnet pub) := by
  obtain ⟨appkey, found⟩ := Option.isSome_iff_exists.mp resolved
  intro element model entry _
  cases noted : vnmAt work.elems element model with
  | none => simp [pubAt, noted]
  | some vnm => simp [pubAt, noted, found]

theorem subAt_reads {subnet : Subnet} {sublist : Uint16List}
    (allocated : sublist.len.toNat ≤ sublist.data.length) :
    ReadsModels work sublist.len.toNat (subAt work subnet sublist) := by
  intro element model entry inside
  have listed : entry < sublist.data.length := Nat.lt_of_lt_of_le inside allocated
  cases noted : vnmAt work.elems element model with
  | none => simp [subAt, noted]
  | some vnm => simp [subAt, noted, List.getElem?_eq_getElem listed]

theorem configGuard_opens {test : MeshConfig → Bool} (opened : test work.node.config = true)
    (cache : ConfigCache) (host : Host) (own : work.At cache host) :
    configGuard test cache host = .ok true := by
  rw [configGuard, own.nodeOf, ok_bind]
  dsimp only
  rw [opened]

/-- Every model that is to publish gets its publication, and no other.  Which models are to
publish is decided by the model id alone: SIG models that do not support it are left out. -/
def Publishes (slot : Slot) (exchange : Exchange) (work : Work) (subnet : Subnet)
    (pub : Publication) (cache : ConfigCache) (host : Host) : Prop :=
  ∃ last final, Completes .setpubEm .modelPub slot exchange cache host
    (modelSendings work pubSupported 1 (pubAt work subnet pub)) last final

/-- Every model that is to subscribe gets its addresses in order, and no other.  For each model,
all addresses of the list are added before the next model is turned to. -/
def Subscribes (slot : Slot) (exchange : Exchange) (work : Work) (subnet : Subnet)
    (sublist : Uint16List) (cache : ConfigCache) (host : Host) : Prop :=
  ∃ last final, Completes .addsubEm .modelSub slot exchange cache host
    (modelSendings work subSupported sublist.len.toNat (subAt work subnet sublist)) last final

/-- The right models publish exactly if the key of the publication can be resolved, no element
is empty and the filter of the iterators is right, and the right models subscribe exactly if no
element is empty and the filter is right. -/
theorem models_covered_iff {fuel : Nat} {data : Bytes.Memory} {len : UInt8}
    {func after : BitVec 8} {subnet : Subnet} {others : List Subnet} {slot : Slot}
    {exchange : Exchange}
    (stores : dcdStore fuel data len func = some (work.dcd, after))
    (network : work.cfg.subnets = subnet :: others) (smooth : exchange.Smooth work) :
    (∀ pub cache host targets, work.node.config.pub = some pub →
      publishesBoundKey work.node.config = true → work.At cache host →
      cache.iterators = Iterators.home → leaveTargets cache = .ok (asSetpub :: targets) →
      (Publishes slot exchange work subnet pub cache host ↔
        (subnet.appkeyId pub.aki).isSome = true ∧ work.NoEmptyElement ∧
          work.FilterRight pubSupported)) ∧
    (∀ sublist cache host targets, work.node.config.sublist = some sublist →
      hasSublist work.node.config = true → sublist.len.toNat ≤ sublist.data.length →
      work.At cache host → cache.iterators = Iterators.home →
      leaveTargets cache = .ok (asAddsub :: targets) →
      (Subscribes slot exchange work subnet sublist cache host ↔
        work.NoEmptyElement ∧ work.FilterRight subSupported)) := by
  obtain ⟨elems, stored⟩ := dcdStore_stored stores
  have sameElems : work.elems = elems := by
    rw [Work.elems, stored.present]
    rfl
  rw [← sameElems] at stored
  constructor
  · intro pub cache host targets configured opened own home leaves
    have start : cache.iterators = modelPlace (0, 0, 0) := home
    have conversation : Publishes slot exchange work subnet pub cache host ↔ _ :=
      completes_iff slot (setpub_enumerates network configured stored) rfl smooth leaves
        (configGuard_opens opened) own ⟨stored.positive, Nat.one_pos⟩ start
    constructor
    · intro publishes
      obtain ⟨visited, visits, same⟩ := conversation.mp publishes
      obtain ⟨command, reads⟩ := visits.reads
      obtain ⟨_, appkey, _, found, _⟩ := pubAt_some reads
      have resolved : (subnet.appkeyId pub.aki).isSome = true := by
        rw [found]
        rfl
      exact ⟨resolved, (model_visits_iff (pubAt_reads resolved) Nat.one_pos stored).mp
        ⟨visited, visits, same⟩⟩
    · rintro ⟨resolved, covered⟩
      exact conversation.mpr
        ((model_visits_iff (pubAt_reads resolved) Nat.one_pos stored).mpr covered)
  · intro sublist cache host targets configured opened allocated own home leaves
    have filled : 0 < sublist.len.toNat := by
      simp only [hasSublist, configured, bne_iff_ne] at opened
      rcases Nat.eq_zero_or_pos sublist.len.toNat with none_ | positive
      · exact absurd (UInt8.toNat.inj none_) opened
      · exact positive
    have start : cache.iterators = modelPlace (0, 0, 0) := home
    have conversation : Subscribes slot exchange work subnet sublist cache host ↔ _ :=
      completes_iff slot (addsub_enumerates network configured allocated stored) rfl smooth leaves
        (configGuard_opens opened) own ⟨stored.positive, filled⟩ start
    exact conversation.trans (model_visits_iff (subAt_reads allocated) filled stored)

end

/-! ## Nodes with two models -/

/-- Composition data of one element with two SIG models. -/
def twoModelPage (first second : UInt16) : Bytes.Memory := fun place =>
  if place = 12 then 2
  else if place = 14 then first.toUInt8
  else if place = 15 then (first >>> 8).toUInt8
  else if place = 16 then second.toUInt8
  else if place = 17 then (second >>> 8).toUInt8
  else 0

/-- The work for a node with these models, in the network with one key, which is to publish with
that key and to subscribe to two addresses. -/
def Work.twoModels (first second : UInt16) : Work where
  id := 0
  node :=
    { Node.plain 5 with config := { (Node.plain 5).config with
        pub := some
          { addr := 0xC000, aki := 1, period := 0, ttl := 5, txp := { cnt := 0, intv := 0 } }
        bindings := some { len := 1, data := [1] }
        sublist := some { len := 2, data := [0xC001, 0xC002] } } }
  dcd :=
    { feature := 0, elementCnt := 1
      elems := some [{ sigmCnt := 2, vmCnt := 0, sigModels := [first, second], vm := [] }] }
  cfg := (Engine.small (Node.plain 5)).host.cfg

/-- A generic on/off server and a scene server are set up. -/
theorem models_covered_iff_twoModels :
    Publishes 0 Exchange.quiet (Work.twoModels 0x1000 0x1203) Subnet.small
        { addr := 0xC000, aki := 1, period := 0, ttl := 5, txp := { cnt := 0, intv := 0 } }
        { (Work.twoModels 0x1000 0x1203).cache with state := .bindappkeyEm }
        (Work.twoModels 0x1000 0x1203).host ∧
    Subscribes 0 Exchange.quiet (Work.twoModels 0x1000 0x1203) Subnet.small
        { len := 2, data := [0xC001, 0xC002] }
        { (Work.twoModels 0x1000 0x1203).cache with state := .setpubEm }
        (Work.twoModels 0x1000 0x1203).host := by
  have stores : dcdStore 1 (twoModelPage 0x1000 0x1203) 18 0 =
      some ((Work.twoModels 0x1000 0x1203).dcd, 1) := by decide +kernel
  have covered := @models_covered_iff (Work.twoModels 0x1000 0x1203) 1 _ _ _ _ Subnet.small [] 0
    Exchange.quiet stores rfl (Exchange.quiet_smooth _)
  have full : (Work.twoModels 0x1000 0x1203).NoEmptyElement := by
    intro elem member
    cases List.mem_singleton.mp member
    decide
  have right : ∀ supported : UInt16 → Bool, supported 0x1000 = true →
      (Work.twoModels 0x1000 0x1203).FilterRight supported := by
    intro supported first element inside
    have only : element = 0 := Nat.lt_one_iff.mp inside
    subst only
    refine ⟨first, fun model later below vendor => ?_⟩
    have second : model = 1 := le_antisymm (Nat.le_of_lt_succ below) later
    subst second
    cases vendor
  constructor
  · exact (covered.1 _ { (Work.twoModels 0x1000 0x1203).cache with state := .bindappkeyEm }
      (Work.twoModels 0x1000 0x1203).host _ rfl (by decide) ⟨rfl, rfl, rfl, rfl⟩ rfl rfl).mpr
      ⟨by decide, full, right pubSupported (by decide)⟩
  · exact (covered.2 _ { (Work.twoModels 0x1000 0x1203).cache with state := .setpubEm }
      (Work.twoModels 0x1000 0x1203).host _ rfl (by decide) (by decide) ⟨rfl, rfl, rfl, rfl⟩ rfl
      rfl).mpr ⟨full, right subSupported (by decide)⟩

/-- A scene setup server does not support publishing; as the first model of its element it gets
a publication all the same. -/
theorem unsupported_first_model :
    dcdStore 1 (twoModelPage 0x1204 0x1000) 18 0 =
        some ((Work.twoModels 0x1204 0x1000).dcd, 1) ∧
      publishesBoundKey (Work.twoModels 0x1204 0x1000).node.config = true ∧
      pubSupported 0x1204 = false ∧
      ¬ Publishes 0 Exchange.quiet (Work.twoModels 0x1204 0x1000) Subnet.small
        { addr := 0xC000, aki := 1, period := 0, ttl := 5, txp := { cnt := 0, intv := 0 } }
        { (Work.twoModels 0x1204 0x1000).cache with state := .bindappkeyEm }
        (Work.twoModels 0x1204 0x1000).host := by
  refine ⟨by decide +kernel, by decide, by decide, fun publishes => ?_⟩
  have stored : (Work.twoModels 0x1204 0x1000).dcd.Stored (Work.twoModels 0x1204 0x1000).elems :=
    ⟨rfl, rfl, by decide, by
      intro elem member
      cases List.mem_singleton.mp member
      exact ⟨by decide, rfl⟩⟩
  have own : (Work.twoModels 0x1204 0x1000).At
      { (Work.twoModels 0x1204 0x1000).cache with state := .bindappkeyEm }
      (Work.twoModels 0x1204 0x1000).host := ⟨rfl, rfl, rfl, rfl⟩
  have opened : publishesBoundKey (Work.twoModels 0x1204 0x1000).node.config = true := by decide
  have start : ({ (Work.twoModels 0x1204 0x1000).cache with
      state := .bindappkeyEm } : ConfigCache).iterators = modelPlace (0, 0, 0) := rfl
  have enumerates := @setpub_enumerates (Work.twoModels 0x1204 0x1000) Subnet.small [] _ rfl rfl
    stored
  have conversation := (completes_iff 0 enumerates rfl (Exchange.quiet_smooth _) rfl
    (configGuard_opens opened) own ⟨stored.positive, Nat.one_pos⟩ start).mp publishes
  have right := ((model_visits_iff (pubAt_reads (by decide)) Nat.one_pos stored).mp
    conversation).2
  have first := (right 0 stored.positive).1
  revert first
  decide

end Nwmng
