/-
Module: Nwmng.Config.KeyRounds
Purpose: Which application keys a slot adds to its node and which it binds, while every command
and every status succeeds.
Trusted boundary: none
Main exports:
  keyAt, Work.Binds, appkeySendings, bindSendings, addappkey_enumerates, bindappkey_enumerates,
  KeysDistributed, keys_distributed_iff, unresolvable_first_binding
-/
import Nwmng.Config.StoredModels

namespace Nwmng

open Fallible Enumeration

/-!
## What is to be sent

The commands are listed from the configuration, the keys and the composition data alone, as
somebody would who has never seen the iterators.
-/

/-- The created key with a reference id. -/
def Subnet.appkeyId (subnet : Subnet) (refid : UInt16) : Option UInt16 :=
  ((subnet.appkey.take subnet.activeAppkeyNum.toNat).find? fun key => key.refid == refid).map (·.id)

/-- The key of an entry of the bindings, if it can be resolved. -/
def keyAt (subnet : Subnet) (bindings : Uint16List) (entry : Nat) : Option UInt16 := do
  let refid ← bindings.data[entry]?
  subnet.appkeyId refid

/-- The elements of the composition data. -/
def Work.elems (work : Work) : List Elem :=
  work.dcd.elems.getD []

/-- The command that adds the key of an entry. -/
def appkeyAt (work : Work) (subnet : Subnet) (bindings : Uint16List) (entry : Nat) :
    Option Command := do
  let appkey ← keyAt subnet bindings entry
  some (.addAppkey subnet.netkey.id work.node.addr appkey subnet.netkey.id)

/-- The command that binds the key of an entry to a model of an element. -/
def bindAt (work : Work) (subnet : Subnet) (bindings : Uint16List) :
    Nat × Nat × Nat → Option Command
  | (element, model, entry) => do
      let vnm ← vnmAt work.elems element model
      let appkey ← keyAt subnet bindings entry
      some (.bindModel subnet.netkey.id work.node.addr (UInt8.ofNat element) appkey vnm.vd vnm.md)

/-- One command for each entry of the bindings that can be resolved, in their order. -/
def appkeySendings (work : Work) (subnet : Subnet) (bindings : Uint16List) :
    List (Iterators × Command) :=
  (List.range bindings.len.toNat).filterMap fun entry =>
    (appkeyAt work subnet bindings entry).map fun command =>
      ({ zero := entry, one := 0, two := 0 }, command)

/-- One command for each element, each of its models and each entry that can be resolved. -/
def bindSendings (work : Work) (subnet : Subnet) (bindings : Uint16List) :
    List (Iterators × Command) :=
  (List.range work.elems.length).flatMap fun element =>
    (List.range (modelsOf work.elems element)).flatMap fun model =>
      (List.range bindings.len.toNat).filterMap fun entry =>
        (bindAt work subnet bindings (element, model, entry)).map fun command =>
          ({ zero := element, one := model, two := entry }, command)

/-- There is something to bind: stored composition data, and a list of bindings.  The length that
the list announces is covered by its array, as the loader of the file allocates it. -/
structure Work.Binds (work : Work) (subnet : Subnet) (bindings : Uint16List) : Prop where
  network : ∃ others, work.cfg.subnets = subnet :: others
  configured : work.node.config.bindings = some bindings
  filled : 0 < bindings.len.toNat
  allocated : bindings.len.toNat ≤ bindings.data.length
  stored : work.dcd.Stored work.elems

section

variable {work : Work} {subnet : Subnet} {bindings : Uint16List}
variable {cache : ConfigCache} {host : Host}

/-! ## The keys -/

theorem netkeyId_at {others : List Subnet} (network : work.cfg.subnets = subnet :: others)
    (own : work.At cache host) : host.netkeyId = .ok subnet.netkey.id := by
  rw [Host.netkeyId, Host.subnet, own.network, network]
  rfl

theorem appkeyByRefid_at {others : List Subnet} (network : work.cfg.subnets = subnet :: others)
    (own : work.At cache host) (refid : UInt16) :
    host.appkeyByRefid refid = .ok (subnet.appkeyId refid) := by
  rw [Host.appkeyByRefid, Host.subnet, own.network, network]
  rfl

/-- A key that the table has. -/
theorem appkeyOf_at {others : List Subnet} (network : work.cfg.subnets = subnet :: others)
    (own : work.At cache host) (refid : UInt16) :
    appkeyOf host refid =
      match subnet.appkeyId refid with
      | some appkey => .ok appkey
      | none => .error .appkeyMissing := by
  unfold appkeyOf
  cases found : subnet.appkeyId refid with
  | none => simp only [appkeyByRefid_at network own, found, ok_bind]
  | some appkey => simp only [appkeyByRefid_at network own, found, ok_bind]

/-- The entry the search for the next key ends at. -/
theorem nextResolved_at {others : List Subnet} (network : work.cfg.subnets = subnet :: others)
    (own : work.At cache host) (allocated : bindings.len.toNat ≤ bindings.data.length)
    {fuel entry : Nat} (enough : bindings.len.toNat ≤ entry + fuel)
    (inside : entry < bindings.len.toNat) :
    nextResolved host bindings fuel entry =
      .ok (((later (fun other => (keyAt subnet bindings other).isSome) bindings.len.toNat
        entry).getD bindings.len.toNat : Nat) : Int) := by
  induction fuel generalizing entry with
  | zero => omega
  | succ fuel hypothesis =>
      have following : (entry : Int) + 1 = ((entry + 1 : Nat) : Int) := rfl
      rw [nextResolved, following]
      by_cases last : entry + 1 = bindings.len.toNat
      · rw [if_pos (by omega), later_last last, last]
        rfl
      · have within : entry + 1 < bindings.len.toNat := by omega
        have listed : entry + 1 < bindings.data.length := by omega
        have here : keyAt subnet bindings (entry + 1) =
            subnet.appkeyId bindings.data[entry + 1] := by
          rw [keyAt, List.getElem?_eq_getElem listed]
          rfl
        rw [if_neg (by omega), arrayAt_natCast, List.getElem?_eq_getElem listed, cell_some,
          ok_bind, appkeyByRefid_at network own, ok_bind, ← here]
        cases resolved : keyAt subnet bindings (entry + 1) with
        | some appkey =>
            rw [later_succ within (by rw [resolved]; rfl)]
            rfl
        | none =>
            rw [later_skip within (by rw [resolved]; exact Bool.false_ne_true)]
            exact hypothesis (by omega) within

/-- The bindings of the node, at an entry of theirs. -/
theorem Work.Binds.bindingAt_eq (binds : work.Binds subnet bindings) {entry : Nat}
    (inside : entry < bindings.len.toNat) :
    ∃ refid, bindings.data[entry]? = some refid ∧ bindingAt entry work.node = .ok refid := by
  have listed : entry < bindings.data.length := Nat.lt_of_lt_of_le inside binds.allocated
  refine ⟨bindings.data[entry], List.getElem?_eq_getElem listed, ?_⟩
  rw [bindingAt, binds.configured, present, ok_bind, arrayAt_natCast,
    List.getElem?_eq_getElem listed, cell_some]

/-- A key that can be resolved is found. -/
theorem Work.Binds.key_found (binds : work.Binds subnet bindings) (own : work.At cache host)
    {entry : Nat} {appkey : UInt16} (inside : entry < bindings.len.toNat)
    (resolved : keyAt subnet bindings entry = some appkey) :
    ∃ refid, bindingAt entry work.node = .ok refid ∧ appkeyOf host refid = .ok appkey := by
  obtain ⟨others, network⟩ := binds.network
  obtain ⟨refid, listed, read⟩ := binds.bindingAt_eq inside
  simp only [keyAt, listed, Option.bind_eq_bind, Option.bind_some] at resolved
  refine ⟨refid, read, ?_⟩
  rw [appkeyOf_at network own, resolved]

/-- A key that cannot be resolved fails the assertion. -/
theorem Work.Binds.key_missing (binds : work.Binds subnet bindings) (own : work.At cache host)
    {entry : Nat} (inside : entry < bindings.len.toNat)
    (unresolved : keyAt subnet bindings entry = none) :
    ∃ refid, bindingAt entry work.node = .ok refid ∧
      appkeyOf host refid = .error .appkeyMissing := by
  obtain ⟨others, network⟩ := binds.network
  obtain ⟨refid, listed, read⟩ := binds.bindingAt_eq inside
  simp only [keyAt, listed, Option.bind_eq_bind, Option.bind_some] at unresolved
  refine ⟨refid, read, ?_⟩
  rw [appkeyOf_at network own, unresolved]

theorem appkeyAt_some {entry : Nat} {command : Command}
    (reads : appkeyAt work subnet bindings entry = some command) :
    ∃ appkey, keyAt subnet bindings entry = some appkey ∧
      command = .addAppkey subnet.netkey.id work.node.addr appkey subnet.netkey.id := by
  cases resolved : keyAt subnet bindings entry with
  | none => simp [appkeyAt, resolved] at reads
  | some appkey =>
      simp only [appkeyAt, resolved, Option.bind_eq_bind, Option.bind_some,
        Option.some.injEq] at reads
      exact ⟨appkey, rfl, reads.symm⟩

theorem appkeyAt_none {entry : Nat} (nothing : appkeyAt work subnet bindings entry = none) :
    keyAt subnet bindings entry = none := by
  cases resolved : keyAt subnet bindings entry with
  | none => rfl
  | some appkey => simp [appkeyAt, resolved] at nothing

/-! ## Adding keys -/

/-- Where the iterators stand while keys are added. -/
def appkeyPlace (entry : Nat) : Iterators := { zero := entry, one := 0, two := 0 }

theorem addappkey_enumerates (binds : work.Binds subnet bindings) :
    addappkeyOps.Enumerates work appkeyPlace (· < bindings.len.toNat)
      (appkeyAt work subnet bindings)
      (later (fun entry => (keyAt subnet bindings entry).isSome) bindings.len.toNat) where
  sends := by
    intro entry command slot answer cache host inside reads own here
    obtain ⟨others, network⟩ := binds.network
    obtain ⟨appkey, resolved, rfl⟩ := appkeyAt_some reads
    obtain ⟨refid, read, found⟩ := binds.key_found own inside resolved
    refine ⟨cache.vnm, ?_⟩
    change addAppkey slot answer cache host = _
    have zero : cache.iterators.zero = (entry : Int) := by rw [here]; rfl
    rw [addAppkey, own.nodeOf, ok_bind]
    simp only [zero, read, ok_bind, found, netkeyId_at network own]
  stops := by
    intro entry slot answer cache host inside reads own here
    obtain ⟨refid, read, missing⟩ := binds.key_missing own inside (appkeyAt_none reads)
    refine ⟨.appkeyMissing, ?_⟩
    change addAppkey slot answer cache host = _
    rw [addAppkey, own.nodeOf, ok_bind]
    have zero : cache.iterators.zero = (entry : Int) := by rw [here]; rfl
    simp only [zero, read, ok_bind, missing, error_bind]
  advances := by
    intro entry command cache host inside _ own here
    obtain ⟨others, network⟩ := binds.network
    change iterAppkey cache host = _
    have zero : cache.iterators.zero = (entry : Int) := by rw [here]; rfl
    rw [iterAppkey, own.nodeOf, ok_bind]
    simp only [binds.configured, present, ok_bind, zero]
    rw [nextResolved_at network own binds.allocated (by have := binds.allocated; omega) inside,
      ok_bind]
    cases following : later (fun entry => (keyAt subnet bindings entry).isSome)
        bindings.len.toNat entry with
    | none =>
        rw [Option.getD_none, if_pos rfl, here]
        rfl
    | some other =>
        have below := later_lt following
        rw [Option.getD_some, if_neg (by omega), here]
        rfl
  inside := by
    intro entry command after _ _ following
    exact later_lt following
  accepts := by
    intro cache host _
    rfl

/-! ## Binding keys -/

/-- Where the iterators stand while keys are bound, or models are set up. -/
def modelPlace : Nat × Nat × Nat → Iterators
  | (element, model, entry) => { zero := element, one := model, two := entry }

/-- The iterators that bind keys: elements, their models, and the keys that can be resolved. -/
def bindNest (work : Work) (subnet : Subnet) (bindings : Uint16List) : Nest where
  outer := work.elems.length
  middle := modelsOf work.elems
  chosen := fun _ _ => true
  inner := bindings.len.toNat
  wanted := fun entry => (keyAt subnet bindings entry).isSome

theorem bindAt_some {element model entry : Nat} {command : Command}
    (reads : bindAt work subnet bindings (element, model, entry) = some command) :
    ∃ vnm appkey, vnmAt work.elems element model = some vnm ∧
      keyAt subnet bindings entry = some appkey ∧
      command = .bindModel subnet.netkey.id work.node.addr (UInt8.ofNat element) appkey vnm.vd
        vnm.md := by
  cases noted : vnmAt work.elems element model with
  | none => simp [bindAt, noted] at reads
  | some vnm =>
      cases resolved : keyAt subnet bindings entry with
      | none => simp [bindAt, noted, resolved] at reads
      | some appkey =>
          simp only [bindAt, noted, resolved, Option.bind_eq_bind, Option.bind_some,
            Option.some.injEq] at reads
          exact ⟨vnm, appkey, rfl, rfl, reads.symm⟩

/-- A model that can be read is one of the models of its element. -/
theorem vnmAt_some {element model : Nat} {vnm : Vnm} (stored : work.dcd.Stored work.elems)
    (noted : vnmAt work.elems element model = some vnm) :
    ∃ elem, work.elems[element]? = some elem ∧ elem.Sized ∧ model < elem.modelCount := by
  unfold vnmAt at noted
  cases here : work.elems[element]? with
  | none => simp [here] at noted
  | some elem =>
      simp only [here, Option.bind_eq_bind, Option.bind_some] at noted
      have sized := stored.sized elem (List.mem_of_getElem? here)
      obtain ⟨inside, _⟩ := List.getElem?_eq_some_iff.mp noted
      rw [sized.length_vnms] at inside
      exact ⟨elem, rfl, sized, inside⟩

/-- Noting the model at a position. -/
theorem noteModel_place (stored : work.dcd.Stored work.elems) (own : work.At cache host)
    {element model entry : Nat} (here : cache.iterators = modelPlace (element, model, entry)) :
    noteModel cache =
      cell ((vnmAt work.elems element model).map fun vnm => { cache with vnm := vnm }) := by
  rw [← own.page] at stored
  have first : cache.iterators.zero = (element : Int) := by rw [here]; rfl
  have second : cache.iterators.one = (model : Int) := by rw [here]; rfl
  exact noteModel_at stored first second

/-- Noting the model leaves the work as it is. -/
theorem Work.At.noted (own : work.At cache host) (vnm : Vnm) :
    work.At { cache with vnm := vnm } host :=
  ⟨own.here, own.record, own.page, own.network⟩

theorem bindappkey_enumerates (binds : work.Binds subnet bindings) :
    bindappkeyOps.Enumerates work modelPlace
      (fun place => place.1 < work.elems.length ∧ place.2.2 < bindings.len.toNat)
      (bindAt work subnet bindings) (bindNest work subnet bindings).step where
  sends := by
    rintro ⟨element, model, entry⟩ command slot answer cache host ⟨_, inside⟩ reads own here
    obtain ⟨others, network⟩ := binds.network
    obtain ⟨vnm, appkey, noted, resolved, rfl⟩ := bindAt_some reads
    obtain ⟨refid, read, found⟩ := binds.key_found own inside resolved
    have first : cache.iterators.zero = (element : Int) := by rw [here]; rfl
    have third : cache.iterators.two = (entry : Int) := by rw [here]; rfl
    refine ⟨vnm, ?_⟩
    change bindAppkey slot answer cache host = _
    rw [bindAppkey, noteModel_place binds.stored own here, noted, Option.map_some, cell_some,
      ok_bind, (own.noted vnm).nodeOf, ok_bind]
    simp only [third, read, ok_bind, found, netkeyId_at network own, ConfigCache.elementByte,
      first, UInt8.ofInt_natCast]
  stops := by
    rintro ⟨element, model, entry⟩ slot answer cache host ⟨_, inside⟩ nothing own here
    have third : cache.iterators.two = (entry : Int) := by rw [here]; rfl
    have noting := noteModel_place binds.stored own here
    change ∃ failure, bindAppkey slot answer cache host = .error failure
    cases noted : vnmAt work.elems element model with
    | none =>
        rw [bindAppkey, noting, noted, Option.map_none, cell_none, error_bind]
        exact ⟨_, rfl⟩
    | some vnm =>
        have unresolved : keyAt subnet bindings entry = none := by
          cases resolved : keyAt subnet bindings entry with
          | none => rfl
          | some appkey => simp [bindAt, noted, resolved] at nothing
        obtain ⟨refid, read, missing⟩ := binds.key_missing own inside unresolved
        rw [bindAppkey, noting, noted, Option.map_some, cell_some, ok_bind,
          (own.noted vnm).nodeOf, ok_bind]
        simp only [third, read, ok_bind, missing, error_bind]
        exact ⟨_, rfl⟩
  advances := by
    rintro ⟨element, model, entry⟩ command cache host ⟨within, inside⟩ reads own here
    obtain ⟨others, network⟩ := binds.network
    obtain ⟨vnm, _, noted, _, _⟩ := bindAt_some reads
    obtain ⟨elem, listed, sized, below⟩ := vnmAt_some binds.stored noted
    have stored : cache.dcd.Stored work.elems := by
      rw [own.page]
      exact binds.stored
    have first : cache.iterators.zero = (element : Int) := by rw [here]; rfl
    have second : cache.iterators.one = (model : Int) := by rw [here]; rfl
    have third : cache.iterators.two = (entry : Int) := by rw [here]; rfl
    have models : modelsOf work.elems element = elem.modelCount := by rw [modelsOf, listed]
    change iterBindings cache host = _
    rw [iterBindings, own.nodeOf, ok_bind]
    simp only [binds.configured, present, ok_bind, third]
    rw [nextResolved_at network own binds.allocated (by have := binds.allocated; omega) inside,
      ok_bind]
    simp only [Nest.step, bindNest, models]
    cases following : later (fun entry => (keyAt subnet bindings entry).isSome)
        bindings.len.toNat entry with
    | some other =>
        have bound := later_lt following
        rw [Option.getD_some, if_neg (by omega), here]
        rfl
    | none =>
        rw [Option.getD_none, if_pos rfl]
        have again : elementAt { cache with iterators := { cache.iterators with two := 0 } } =
            .ok elem := by
          have at_ := @elementAt_eq
            { cache with iterators := { cache.iterators with two := 0 } } work.elems stored
            element first
          rw [at_, listed, cell_some]
        rw [again, ok_bind]
        simp only [second, Option.map_none, Option.none_or]
        by_cases lastModel : model + 1 = elem.modelCount
        · have moves := @nextElement_at
            { cache with iterators := { cache.iterators with two := 0, one := 0 } } work.elems
            stored element first within
          rw [if_pos (by omega), later_last lastModel, Option.map_none, Option.none_or, moves]
          cases later (fun _ => true) work.elems.length element with
          | none => rfl
          | some other => rfl
        · rw [if_neg (by omega), later_succ (by omega) rfl, here]
          rfl
  inside := by
    intro place command after inside _ steps
    exact (bindNest work subnet bindings).step_inside steps inside.1 inside.2
  accepts := by
    intro cache host _
    rfl

/-!
## What is sent

The iterators start at the first entry without a test and test every later one.  So the two lists
agree exactly if the first entry can be resolved; and for binding, if every element has a model
to begin with.
-/

/-- Adding keys goes through exactly the entries that can be resolved, if the first one can. -/
theorem appkey_visits_iff (binds : work.Binds subnet bindings) :
    (∃ visited, Visits (appkeyAt work subnet bindings)
        (later (fun entry => (keyAt subnet bindings entry).isSome) bindings.len.toNat) 0 visited ∧
      appkeySendings work subnet bindings =
        visited.map fun sending => (appkeyPlace sending.1, sending.2)) ↔
      (keyAt subnet bindings 0).isSome = true := by
  constructor
  · rintro ⟨visited, visits, _⟩
    obtain ⟨command, reads⟩ := visits.reads
    obtain ⟨appkey, resolved, _⟩ := appkeyAt_some reads
    rw [resolved]
    rfl
  · intro first
    have readable : ∀ entry ∈ sweep (fun entry => (keyAt subnet bindings entry).isSome)
        bindings.len.toNat, (appkeyAt work subnet bindings entry).isSome = true := by
      intro entry member
      have resolved : (keyAt subnet bindings entry).isSome = true := by
        rcases mem_sweep.mp member with rfl | ⟨_, holds⟩
        · exact first
        · exact holds
      obtain ⟨appkey, found⟩ := Option.isSome_iff_exists.mp resolved
      rw [appkeyAt, found]
      rfl
    refine ⟨_, Leads.visits leads_later readable, ?_⟩
    have all := (@sweep_eq_filter_iff (fun entry => (keyAt subnet bindings entry).isSome) _
      binds.filled).mpr first
    rw [sweep] at all
    have skipped : ∀ entry ∈ List.range bindings.len.toNat,
        (keyAt subnet bindings entry).isSome = false →
          appkeyAt work subnet bindings (id entry) = none := by
      intro entry _ unresolved
      rw [Option.isSome_eq_false_iff, Option.isNone_iff_eq_none] at unresolved
      rw [id, appkeyAt, unresolved]
      rfl
    have same := readings_filter skipped
    rw [List.map_id, List.map_id] at same
    rw [all, same, readings_map]
    rfl

/-- Every model of an element can be read. -/
theorem vnmAt_isSome {element model : Nat} (stored : work.dcd.Stored work.elems)
    (inside : model < modelsOf work.elems element) :
    ∃ vnm, vnmAt work.elems element model = some vnm := by
  unfold modelsOf at inside
  cases here : work.elems[element]? with
  | none =>
      rw [here] at inside
      cases inside
  | some elem =>
      rw [here] at inside
      have sized := stored.sized elem (List.mem_of_getElem? here)
      have listed : model < elem.vnms.length := by
        rw [sized.length_vnms]
        exact inside
      refine ⟨elem.vnms[model], ?_⟩
      rw [vnmAt, here]
      exact List.getElem?_eq_getElem listed

/-- Every element has a model.  Both iterators begin at the first model of the first element
without a look at the counts, so an element without models is not skipped. -/
def Work.NoEmptyElement (work : Work) : Prop :=
  ∀ elem ∈ work.elems, 0 < elem.modelCount

theorem Work.NoEmptyElement.modelsOf (full : work.NoEmptyElement) {element : Nat}
    (inside : element < work.elems.length) : 0 < modelsOf work.elems element := by
  rw [Nwmng.modelsOf, List.getElem?_eq_getElem inside]
  exact full _ (List.getElem_mem inside)

/-- If every element begins with a model that can be read, there is no empty element. -/
theorem noEmptyElement_of_first (stored : work.dcd.Stored work.elems)
    (begins : ∀ element < work.elems.length, ∃ vnm, vnmAt work.elems element 0 = some vnm) :
    work.NoEmptyElement := by
  intro elem member
  obtain ⟨element, inside, rfl⟩ := List.getElem_of_mem member
  obtain ⟨vnm, noted⟩ := begins element inside
  obtain ⟨elem, listed, _, below⟩ := vnmAt_some stored noted
  rw [List.getElem?_eq_getElem inside] at listed
  cases listed
  omega

/-- The sendings in terms of positions. -/
theorem bindSendings_eq :
    bindSendings work subnet bindings =
      (readings (bindAt work subnet bindings)
        ((List.range work.elems.length).flatMap fun element =>
          (List.range (modelsOf work.elems element)).flatMap fun model =>
            (List.range bindings.len.toNat).map fun entry => (element, model, entry))).map
        fun sending => (modelPlace sending.1, sending.2) := by
  rw [readings_map, bindSendings, List.filterMap_flatMap]
  congr 1
  funext element
  rw [List.filterMap_flatMap]
  congr 1
  funext model
  rw [List.filterMap_map]
  rfl

/-- Binding keys goes through every model of every element with every key that can be resolved,
exactly if the first key can be and no element is empty. -/
theorem bind_visits_iff (binds : work.Binds subnet bindings) :
    (∃ visited, Visits (bindAt work subnet bindings) (bindNest work subnet bindings).step
        (0, 0, 0) visited ∧
      bindSendings work subnet bindings =
        visited.map fun sending => (modelPlace sending.1, sending.2)) ↔
      (keyAt subnet bindings 0).isSome = true ∧ work.NoEmptyElement := by
  constructor
  · rintro ⟨visited, visits, _⟩
    obtain ⟨command, reads⟩ := visits.reads
    obtain ⟨_, appkey, _, resolved, _⟩ := bindAt_some reads
    refine ⟨by rw [resolved]; rfl, noEmptyElement_of_first binds.stored ?_⟩
    intro element inside
    obtain ⟨others, reached⟩ := (bindNest work subnet bindings).reaches visits inside
    obtain ⟨_, readsHere⟩ := reached.reads
    obtain ⟨vnm, _, noted, _⟩ := bindAt_some readsHere
    exact ⟨vnm, noted⟩
  · rintro ⟨first, full⟩
    have readable : ∀ place ∈ (bindNest work subnet bindings).positions,
        (bindAt work subnet bindings place).isSome = true := by
      rintro ⟨element, model, entry⟩ member
      obtain ⟨outer, middle, inner⟩ := (bindNest work subnet bindings).mem_positions.mp member
      have within : element < work.elems.length := lt_of_mem_sweep binds.stored.positive outer
      have below : model < modelsOf work.elems element :=
        lt_of_mem_sweep (full.modelsOf within) middle
      have resolved : (keyAt subnet bindings entry).isSome = true := by
        rcases mem_sweep.mp inner with rfl | ⟨_, holds⟩
        · exact first
        · exact holds
      obtain ⟨vnm, noted⟩ := vnmAt_isSome binds.stored below
      obtain ⟨appkey, found⟩ := Option.isSome_iff_exists.mp resolved
      simp only [bindAt, noted, found, Option.bind_eq_bind, Option.bind_some, Option.isSome_some]
    refine ⟨_, (bindNest work subnet bindings).visits readable, ?_⟩
    rw [bindSendings_eq]
    congr 1
    -- each level of the nest is the whole range, up to keys that cannot be resolved
    have rows : ∀ element model,
        readings (bindAt work subnet bindings) ((bindNest work subnet bindings).row element model) =
          readings (bindAt work subnet bindings)
            ((List.range bindings.len.toNat).map fun entry => (element, model, entry)) := by
      intro element model
      have skipped : ∀ entry ∈ List.range bindings.len.toNat,
          (keyAt subnet bindings entry).isSome = false →
            bindAt work subnet bindings (element, model, entry) = none := by
        intro entry _ unresolved
        rw [Option.isSome_eq_false_iff, Option.isNone_iff_eq_none] at unresolved
        cases noted : vnmAt work.elems element model with
        | none => simp [bindAt, noted]
        | some vnm => simp [bindAt, noted, unresolved]
      have all := (@sweep_eq_filter_iff (fun entry => (keyAt subnet bindings entry).isSome) _
        binds.filled).mpr first
      rw [← readings_filter skipped, ← all, Nest.row_eq]
      rfl
    rw [Nest.positions]
    change _ = readings _ ((sweep (fun _ => true) work.elems.length).flatMap _)
    rw [sweep_all binds.stored.positive, readings_flatMap, readings_flatMap]
    apply List.flatMap_congr
    intro element listed
    have positive := full.modelsOf (List.mem_range.mp listed)
    change _ = readings _ ((sweep (fun _ => true) (modelsOf work.elems element)).flatMap _)
    rw [sweep_all positive, readings_flatMap, readings_flatMap]
    apply List.flatMap_congr
    intro model _
    exact (rows element model).symm

/-! ## Both states -/

/-- A slot adds every key that can be resolved, then binds each of them to every model.  The
commands are compared with an enumeration that is written down without the iterators, in the
order in which it is to be gone through. -/
def KeysDistributed (slot : Slot) (adding binding : Exchange) (work : Work) (subnet : Subnet)
    (bindings : Uint16List) (cache : ConfigCache) (host : Host) : Prop :=
  ∃ middle between last final,
    Completes .addappkeyEm .appkey slot adding cache host (appkeySendings work subnet bindings)
        middle between ∧
      Completes .bindappkeyEm .binding slot binding middle between
        (bindSendings work subnet bindings) last final

/-- A state that is through leaves for the states behind it. -/
theorem Through.leaveTargets_eq {state : AccState} {own : AccStateOps}
    {targets : List AccStateOps} (through : Through state cache)
    (found : asGet state = own :: targets) : leaveTargets cache = .ok targets := by
  unfold leaveTargets
  rw [through.next, through.state, found]

/-- The guard of both states. -/
theorem hasBindings_opens (binds : work.Binds subnet bindings) (cache : ConfigCache) (host : Host)
    (own : work.At cache host) : configGuard hasBindings cache host = .ok true := by
  have some_ : (bindings.len != 0) = true := by
    rw [bne_iff_ne]
    intro none_
    have filled := binds.filled
    rw [none_] at filled
    cases filled
  rw [configGuard, own.nodeOf, ok_bind]
  simp only [hasBindings, binds.configured, some_]

/-- Keys are distributed exactly if the first entry of the bindings can be resolved and every
element has a model left: both iterators begin at zero without a look at what is there.  Later
entries that cannot be resolved are skipped, as they should be. -/
theorem keys_distributed_iff {fuel : Nat} {data : Bytes.Memory} {len : UInt8}
    {func after : BitVec 8} {others : List Subnet} {targets : List AccStateOps} {slot : Slot}
    {adding binding : Exchange}
    (stores : dcdStore fuel data len func = some (work.dcd, after))
    (network : work.cfg.subnets = subnet :: others)
    (configured : work.node.config.bindings = some bindings) (filled : 0 < bindings.len.toNat)
    (allocated : bindings.len.toNat ≤ bindings.data.length)
    (own : work.At cache host) (home : cache.iterators = Iterators.home)
    (leaves : leaveTargets cache = .ok (asAddappkey :: targets))
    (addsSmoothly : adding.Smooth work) (bindsSmoothly : binding.Smooth work) :
    KeysDistributed slot adding binding work subnet bindings cache host ↔
      (keyAt subnet bindings 0).isSome = true ∧ work.NoEmptyElement := by
  obtain ⟨elems, stored⟩ := dcdStore_stored stores
  have sameElems : work.elems = elems := by
    rw [Work.elems, stored.present]
    rfl
  rw [← sameElems] at stored
  have binds : work.Binds subnet bindings :=
    ⟨⟨others, network⟩, configured, filled, allocated, stored⟩
  have opened := hasBindings_opens binds
  have adds := fun sendings => @completes_iff _ _ _ _ _ _ _ .addappkeyEm addappkeyGuard _ slot
    cache host (addappkey_enumerates binds) rfl adding addsSmoothly targets 0 leaves opened own
    filled home sendings
  -- the second state begins where the first one ends
  have continues : ∀ {middle between},
      Completes .addappkeyEm .appkey slot adding cache host (appkeySendings work subnet bindings)
        middle between →
      ((∃ last final, Completes .bindappkeyEm .binding slot binding middle between
          (bindSendings work subnet bindings) last final) ↔
        (keyAt subnet bindings 0).isSome = true ∧ work.NoEmptyElement) := by
    intro middle between completes
    have after := Completes.own slot (addappkey_enumerates binds) rfl addsSmoothly leaves opened
      own filled home completes
    obtain ⟨_, _, _, _, _, _, _, through⟩ := completes
    have leavesNext := @Through.leaveTargets_eq middle .addappkeyEm asAddappkey _ through rfl
    have start : middle.iterators = modelPlace (0, 0, 0) := through.home
    rw [← bind_visits_iff binds]
    exact completes_iff slot (bindappkey_enumerates binds) rfl bindsSmoothly leavesNext opened after
      ⟨stored.positive, filled⟩ start
  constructor
  · rintro ⟨middle, between, last, final, added, bound⟩
    exact (continues added).mp ⟨last, final, bound⟩
  · rintro ⟨first, full⟩
    obtain ⟨middle, between, added⟩ := (adds _).mpr ((appkey_visits_iff binds).mpr first)
    obtain ⟨last, final, bound⟩ := (continues added).mpr ⟨first, full⟩
    exact ⟨middle, between, last, final, added, bound⟩

end

/-! ## Two nodes -/

/-- The work for a node with one on/off server and some bindings, in the network with one key. -/
def Work.onOff (refids : List UInt16) : Work where
  id := 0
  node :=
    { Node.plain 5 with config := { (Node.plain 5).config with
        bindings := some { len := UInt8.ofNat refids.length, data := refids } } }
  dcd :=
    { feature := 0, elementCnt := 1
      elems := some [{ sigmCnt := 1, vmCnt := 0, sigModels := [0x1000], vm := [] }] }
  cfg := (Engine.small (Node.plain 5)).host.cfg

/-- The slot that has just read the composition data. -/
def Work.cache (work : Work) : ConfigCache :=
  { ConfigCache.reset with
    state := .getDcdEm, nextState := none, node := some work.id, dcd := work.dcd }

def Work.host (work : Work) : Host :=
  { (Engine.small work.node).host with cfg := work.cfg }

theorem Work.onOff_at (refids : List UInt16) :
    (Work.onOff refids).At (Work.onOff refids).cache (Work.onOff refids).host :=
  ⟨rfl, rfl, rfl, rfl⟩

/-- Everything succeeds, and nothing else happens. -/
def Exchange.quiet : Exchange where
  manager := .configuringDevicesEm
  answer := fun _ => CmdRsp.taken 1 0
  between := fun _ host => host

theorem Exchange.quiet_smooth (work : Work) : Exchange.quiet.Smooth work :=
  ⟨fun _ => rfl, fun _ _ => rfl, fun _ _ => rfl⟩

def Subnet.small : Subnet :=
  { appkeyNum := 1, activeAppkeyNum := 1
    netkey := { refid := 0, id := 0, done := 1, val := Vector.replicate 16 0 }
    appkey := [{ refid := 1, id := 7, done := 1, val := Vector.replicate 16 0 }] }

/-- The first of two bindings can be resolved: its key is added, and bound to the model. -/
theorem keys_distributed_iff_onOff :
    KeysDistributed 0 Exchange.quiet Exchange.quiet (Work.onOff [1, 2]) Subnet.small
        { len := 2, data := [1, 2] } (Work.onOff [1, 2]).cache (Work.onOff [1, 2]).host ∧
      (appkeySendings (Work.onOff [1, 2]) Subnet.small { len := 2, data := [1, 2] }).length = 1 ∧
      (bindSendings (Work.onOff [1, 2]) Subnet.small
        { len := 2, data := [1, 2] }).length = 1 := by
  have stores : dcdStore 1 onOffPage 16 0 = some ((Work.onOff [1, 2]).dcd, 1) := by
    decide +kernel
  have resolved : (keyAt Subnet.small { len := 2, data := [1, 2] } 0).isSome = true := by
    decide
  have full : (Work.onOff [1, 2]).NoEmptyElement := by
    intro elem member
    cases List.mem_singleton.mp member
    decide
  have decides := @keys_distributed_iff (Work.onOff [1, 2]) Subnet.small
    { len := 2, data := [1, 2] } (Work.onOff [1, 2]).cache (Work.onOff [1, 2]).host 1 onOffPage
    16 0 1 _ _ 0 Exchange.quiet Exchange.quiet stores rfl rfl (by decide) (by decide)
    (Work.onOff_at [1, 2]) rfl rfl (Exchange.quiet_smooth _) (Exchange.quiet_smooth _)
  exact ⟨decides.mpr ⟨resolved, full⟩, by decide +kernel, by decide +kernel⟩

/-- A first entry that cannot be resolved stops the program, also when the second one can. -/
theorem unresolvable_first_binding :
    dcdStore 1 onOffPage 16 0 = some ((Work.onOff [2, 1]).dcd, 1) ∧
      (keyAt Subnet.small { len := 2, data := [2, 1] } 1).isSome = true ∧
      toNextState 0 (Exchange.quiet.answer 0) (Work.onOff [2, 1]).cache
        (Work.onOff [2, 1]).host = .error .appkeyMissing ∧
      ¬ KeysDistributed 0 Exchange.quiet Exchange.quiet (Work.onOff [2, 1]) Subnet.small
        { len := 2, data := [2, 1] } (Work.onOff [2, 1]).cache (Work.onOff [2, 1]).host := by
  have stops : toNextState 0 (Exchange.quiet.answer 0) (Work.onOff [2, 1]).cache
      (Work.onOff [2, 1]).host = .error .appkeyMissing := rfl
  refine ⟨by decide +kernel, by decide +kernel, stops, ?_⟩
  rintro ⟨middle, between, last, final, ⟨first, begun, fuel, enters, _⟩, _⟩
  cases stops.symm.trans enters

end Nwmng
