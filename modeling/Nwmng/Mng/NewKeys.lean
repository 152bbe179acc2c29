/-
Module: Nwmng.Mng.NewKeys
Purpose: Which keys the start of the network creates, what it counts, and whether the search
for a key and the state of the NCP agree with that.
Trusted boundary: none
Main exports:
  newAppkeys_counts, newAppkeys_keys, Subnet.MadeFirst, key_lookup_iff, created_key_not_found,
  Reconciled, reconciled_iff, erased_ncp_accepted
-/
import Nwmng.Mng.Nwk

namespace Nwmng

open Fallible

/-! ## What a write leaves in memory -/

/-- A write that succeeds has changed the configuration as its setter does. -/
theorem ProvState.write_cfg {prov after : ProvState} {clock : SaveClock} {write : ProvWrite}
    (writes : prov.write clock write = .ok (true, after)) :
    ∃ root root', prov.json.root = some root ∧
      write.run prov.cfg root = .ok (after.cfg, root') := by
  unfold ProvState.write at writes
  cases isRoot : prov.json.root with
  | none => simp [isRoot] at writes
  | some root =>
      simp only [isRoot] at writes
      obtain ⟨⟨cfg, root'⟩, runs, result⟩ := bind_ok.mp writes
      have same := (Prod.mk.inj (Except.ok.inj result)).2
      refine ⟨root, root', rfl, ?_⟩
      rw [runs, ← same]
      split <;> rfl

theorem ProvState.subnets_of_subnet {prov : ProvState} {subnet : Subnet}
    (isSubnet : prov.subnet = .ok subnet) : ∃ others, prov.cfg.subnets = subnet :: others := by
  unfold ProvState.subnet at isSubnet
  split at isSubnet
  case h_1 head others listed =>
    cases isSubnet
    exact ⟨others, listed⟩
  case h_2 => cases isSubnet

/-- Both writes of a created key reach the first key with its reference, which is at or before
its own place. -/
theorem ProvState.writeBoth_created {prov after : ProvState} {subnet : Subnet}
    {others : List Subnet} {clock : Bool → SaveClock} {index : Nat} {appkey : Meshkey}
    {id : UInt16} (isSubnets : prov.cfg.subnets = subnet :: others)
    (inside : index < subnet.appkeyNum.toNat) (here : subnet.appkey[index]? = some appkey)
    (writes : (prov.assign (·.nameAppkey index id)).writeBoth clock (.appkeyId appkey.refid id)
      (.appkeyDone appkey.refid 1) = .ok (true, after)) :
    ∃ place ≤ index,
      (subnet.appkey.take subnet.appkeyNum.toNat).findIdx? (·.refid == appkey.refid) =
        some place ∧
      after.cfg = { prov.cfg with
        subnets := (subnet.nameAppkey index id).nameAppkey place id :: others } := by
  obtain ⟨bound, isKey⟩ := List.getElem?_eq_some_iff.mp here
  cases found : (subnet.appkey.take subnet.appkeyNum.toNat).findIdx?
      (·.refid == appkey.refid) with
  | none =>
      have listed : appkey ∈ subnet.appkey.take subnet.appkeyNum.toNat := by
        apply List.mem_of_getElem? (i := index)
        rw [List.getElem?_take_of_lt inside, here]
      have absent := List.findIdx?_eq_none_iff.mp found appkey listed
      simp at absent
  | some place =>
      have before : place ≤ index := by
        obtain ⟨_, _, earlier⟩ := List.findIdx?_eq_some_iff_getElem.mp found
        by_contra behind
        have other := earlier index (Nat.lt_of_not_le behind)
        rw [List.getElem_take, isKey] at other
        simp at other
      refine ⟨place, before, rfl, ?_⟩
      obtain ⟨⟨fine, middle⟩, first, rest⟩ := bind_ok.mp writes
      cases fine with
      | false => simp at rest
      | true =>
          obtain ⟨root, root', _, runs⟩ := ProvState.write_cfg first
          obtain ⟨root₂, root₂', _, runs₂⟩ := ProvState.write_cfg rest
          have assigned : (prov.assign (·.nameAppkey index id)).cfg =
              { prov.cfg with subnets := subnet.nameAppkey index id :: others } := by
            simp only [ProvState.assign, isSubnets]
          have stays : ((subnet.nameAppkey index id).appkey.take
              (subnet.nameAppkey index id).appkeyNum.toNat).findIdx?
                (·.refid == appkey.refid) = some place :=
            findIdx?_modify (fun _ => rfl) found
          simp only [ProvWrite.run, provselfSetappkeyid, provselfSetappkey, assigned, stays,
            Except.ok.injEq, Prod.mk.injEq] at runs
          have stays₂ := @findIdx?_modify _ _ _ place _ (fun key => { key with id := id })
            (fun _ => rfl) stays
          simp only [ProvWrite.run, provselfSetappkeydone, provselfSetappkey, ← runs.1, stays₂,
            Except.ok.injEq, Prod.mk.injEq, List.modify_modify_eq] at runs₂
          rw [← runs₂.1]
          rfl

/-!
## The loop

The loop goes through the announced keys, and has each one created that is not marked.  What it
has done up to some index is a statement about the array as it was and as it is.
-/

/-- The key is marked as created, or the NCP says that it is. -/
def Meshkey.made (rsp : CreateRsp) (key : Meshkey) : Bool :=
  key.done ≠ 0 || decide rsp.Created

/-- The key at a place of the array is there after the loop, given the answers of the NCP. -/
def keyMade (rsp : Nat → CreateRsp) (keys : List Meshkey) (place : Nat) : Bool :=
  keys[place]?.any (Meshkey.made (rsp place))

/-- A key after the loop has come to it. -/
def Meshkey.created (rsp : CreateRsp) (key : Meshkey) : Meshkey :=
  if key.done ≠ 0 then key
  else if rsp.Created then { key with id := rsp.index, done := 1 }
  else key

/-- What the loop from an index on has done to an array of keys.  The array is compared place by
place: a key is marked where a command created it, and is as before everywhere else. -/
structure LoopDone (rsp : Nat → CreateRsp) (index left : Nat) (keys keys' : List Meshkey) :
    Prop where
  refids : keys'.map (·.refid) = keys.map (·.refid)
  behind : ∀ place, index + left ≤ place → keys'[place]? = keys[place]?
  within : (keys.map (·.refid)).Nodup → ∀ place,
    keys'[place]? =
      if index ≤ place ∧ place < index + left then
        keys[place]?.map (Meshkey.created (rsp place))
      else keys[place]?

/-- One key, and those behind it. -/
theorem LoopDone.cons {rsp : Nat → CreateRsp} {index left : Nat}
    {keys middle keys' : List Meshkey} (first : LoopDone rsp index 1 keys middle)
    (rest : LoopDone rsp (index + 1) left middle keys') :
    LoopDone rsp index (left + 1) keys keys' where
  refids := rest.refids.trans first.refids
  behind := by
    intro place far
    rw [rest.behind place (by omega), first.behind place (by omega)]
  within := by
    intro distinct place
    rw [rest.within (by rw [first.refids]; exact distinct) place, first.within distinct place]
    by_cases own : place = index
    · rw [if_neg (by omega), if_pos (by omega), if_pos (by omega)]
    · rw [if_neg (show ¬ (index ≤ place ∧ place < index + 1) by omega)]
      by_cases later : index + 1 ≤ place ∧ place < index + 1 + left
      · rw [if_pos later, if_pos (by omega)]
      · rw [if_neg later, if_neg (by omega)]

/-- The loop leaves a key that is marked, or that the NCP refuses. -/
theorem LoopDone.unchanged {rsp : Nat → CreateRsp} {index : Nat} {keys : List Meshkey}
    {appkey : Meshkey} (here : keys[index]? = some appkey)
    (same : appkey.created (rsp index) = appkey) : LoopDone rsp index 1 keys keys where
  refids := rfl
  behind _ _ := rfl
  within := by
    intro _ place
    by_cases own : place = index
    · subst own
      rw [if_pos (by omega), here, Option.map_some, same]
    · rw [if_neg (by omega)]

/-- What a key holds once it was created. -/
def Meshkey.under (id : UInt16) (key : Meshkey) : Meshkey := { key with id := id, done := 1 }

/-- The loop has the NCP create a key, and both writes of it reach the first key with its
reference. -/
theorem LoopDone.stored {rsp : Nat → CreateRsp} {index place count : Nat}
    {keys : List Meshkey} {appkey : Meshkey} (here : keys[index]? = some appkey)
    (unmarked : ¬ appkey.done ≠ 0) (accepted : (rsp index).Created) (inside : index < count)
    (before : place ≤ index)
    (found : (keys.take count).findIdx? (·.refid == appkey.refid) = some place) :
    LoopDone rsp index 1 keys
      ((keys.modify index (Meshkey.under (rsp index).index)).modify place
        (Meshkey.under (rsp index).index)) where
  refids := by
    have keeps : ∀ key, (Meshkey.under (rsp index).index key).refid = key.refid := fun _ => rfl
    rw [map_refid_modify keeps, map_refid_modify keeps]
  behind := by
    intro other far
    rw [List.getElem?_modify_ne _ _ (by omega), List.getElem?_modify_ne _ _ (by omega)]
  within := by
    intro distinct other
    have own := findIdx?_of_distinct distinct inside here
    obtain rfl : place = index := Option.some.inj (found.symm.trans own)
    rw [List.modify_modify_eq]
    by_cases same : other = place
    · subst same
      have created : appkey.created (rsp other) = appkey.under (rsp other).index := by
        rw [Meshkey.created, if_neg unmarked, if_pos accepted]
        rfl
      rw [if_pos (by omega), List.getElem?_modify_eq, here, Option.map_some, created]
      rfl
    · rw [if_neg (by omega), List.getElem?_modify_ne _ _ (by omega)]

/-- The loop counts the keys that are there, whatever their references are.  By induction on
the keys that are left: a write reaches no key that the loop has still to come to. -/
theorem newAppkeysFrom_done {clock : Nat → Bool → SaveClock} {rsp : Nat → CreateRsp}
    {others : List Subnet} {after : ProvState} {total : Nat} (left : Nat) :
    ∀ {prov : ProvState} {subnet : Subnet} (index count : Nat),
      prov.cfg.subnets = subnet :: others → index + left ≤ subnet.appkeyNum.toNat →
      newAppkeysFrom clock rsp left index count prov = .ok (some total, after) →
      total = count + (List.range' index left).countP (keyMade rsp subnet.appkey) ∧
        ∃ keys, after.cfg = { prov.cfg with
            subnets := { subnet with appkey := keys } :: others } ∧
          LoopDone rsp index left subnet.appkey keys := by
  induction left with
  | zero =>
      intro prov subnet index count isSubnets _ ends
      cases ends
      refine ⟨rfl, subnet.appkey, ?_, rfl, fun _ _ => rfl, ?_⟩
      · rw [← isSubnets]
      · intro _ place
        rw [if_neg (by omega)]
  | succ left hypothesis =>
      intro prov subnet index count isSubnets bounded loops
      have goesOn : ∀ {middle : ProvState} {keys : List Meshkey},
          middle.cfg = { prov.cfg with subnets := { subnet with appkey := keys } :: others } →
          LoopDone rsp index 1 subnet.appkey keys →
          newAppkeysFrom clock rsp left (index + 1)
            (count + if keyMade rsp subnet.appkey index then 1 else 0) middle =
              .ok (some total, after) →
          total = count + (List.range' index (left + 1)).countP (keyMade rsp subnet.appkey) ∧
            ∃ keys, after.cfg = { prov.cfg with
                subnets := { subnet with appkey := keys } :: others } ∧
              LoopDone rsp index (left + 1) subnet.appkey keys := by
        intro middle keys isMiddle first loops
        obtain ⟨counted, last, isAfter, rest⟩ :=
          hypothesis (index + 1) _ (congrArg ProvCfg.subnets isMiddle)
            (show index + 1 + left ≤ subnet.appkeyNum.toNat by omega) loops
        refine ⟨?_, last, by rw [isAfter, isMiddle], first.cons rest⟩
        have same : (List.range' (index + 1) left).countP (keyMade rsp keys) =
            (List.range' (index + 1) left).countP (keyMade rsp subnet.appkey) := by
          apply List.countP_congr
          intro place member
          have later := (List.mem_range'_1.mp member).1
          rw [keyMade, keyMade, first.behind place (by omega)]
        rw [counted, same, List.range'_succ, List.countP_cons]
        omega
      have isSubnet : prov.subnet = .ok subnet := by
        rw [ProvState.subnet, isSubnets]
      have itself : prov.cfg = { prov.cfg with
          subnets := { subnet with appkey := subnet.appkey } :: others } := by
        rw [← isSubnets]
      rw [newAppkeysFrom, isSubnet, ok_bind] at loops
      cases here : subnet.appkey[index]? with
      | none => simp [here] at loops
      | some appkey =>
          simp only [here] at loops
          by_cases marked : appkey.done ≠ 0
          · rw [if_pos marked] at loops
            apply goesOn itself (.unchanged here (if_pos marked))
            simpa [keyMade, here, Meshkey.made, marked] using loops
          · rw [if_neg marked] at loops
            by_cases accepted : (rsp index).Created
            · rw [if_pos accepted] at loops
              obtain ⟨⟨fine, middle⟩, writes, loops⟩ := bind_ok.mp loops
              cases fine with
              | false => simp at loops
              | true =>
                  obtain ⟨place, before, found, isMiddle⟩ :=
                    ProvState.writeBoth_created isSubnets (by omega) here writes
                  have first : LoopDone rsp index 1 subnet.appkey
                      ((subnet.nameAppkey index (rsp index).index).nameAppkey place
                        (rsp index).index).appkey :=
                    .stored here marked accepted (by omega) before found
                  apply goesOn isMiddle first
                  simpa [keyMade, here, Meshkey.made, accepted] using loops
            · rw [if_neg accepted] at loops
              apply goesOn itself (.unchanged here (by
                rw [Meshkey.created, if_neg marked, if_neg accepted]))
              simpa [keyMade, here, Meshkey.made, marked, accepted] using loops

/-! ## What is counted and what is there -/

/-- The index that the NCP has returned for a key, now or when it was marked. -/
def Meshkey.returned (rsp : CreateRsp) (key : Meshkey) : UInt16 :=
  if key.done ≠ 0 then key.id else rsp.index

theorem Meshkey.done_created (rsp : CreateRsp) (key : Meshkey) :
    (key.created rsp).done ≠ 0 ↔ key.made rsp = true := by
  unfold Meshkey.created Meshkey.made
  by_cases marked : key.done ≠ 0
  · simp [marked]
  · by_cases accepted : rsp.Created <;> simp [marked, accepted]

theorem Meshkey.id_created {rsp : CreateRsp} {key : Meshkey} (made : key.made rsp = true) :
    (key.created rsp).id = key.returned rsp := by
  unfold Meshkey.made at made
  unfold Meshkey.created Meshkey.returned
  by_cases marked : key.done ≠ 0
  · rw [if_pos marked, if_pos marked]
  · have accepted : rsp.Created := by simpa [marked] using made
    rw [if_neg marked, if_pos accepted, if_neg marked]

/-- The count fits into its byte. -/
theorem toNat_countP_keyMade (rsp : Nat → CreateRsp) (subnet : Subnet) :
    (UInt8.ofNat
      ((List.range subnet.appkeyNum.toNat).countP (keyMade rsp subnet.appkey))).toNat =
      (List.range subnet.appkeyNum.toNat).countP (keyMade rsp subnet.appkey) := by
  have limited := List.countP_le_length (p := keyMade rsp subnet.appkey)
    (l := List.range subnet.appkeyNum.toNat)
  have small := subnet.appkeyNum.toNat_lt
  rw [List.length_range] at limited
  rw [UInt8.toNat_ofNat', Nat.mod_eq_of_lt (by omega)]

/-- A call that succeeds counts the keys that are there among those announced.  Whether they were
created by this call or before does not matter. -/
theorem newAppkeys_counts {clock : Nat → Bool → SaveClock} {rsp : Nat → CreateRsp}
    {prov after : ProvState} {subnet : Subnet} (isSubnet : prov.subnet = .ok subnet)
    (creates : newAppkeys clock rsp prov = .ok (true, after)) :
    subnet.netkey.done ≠ 0 ∧ ∃ keys subnet', after.subnet = .ok subnet' ∧
      after.cfg = { prov.cfg with subnets := subnet' :: prov.cfg.subnets.tail } ∧
      subnet' = { subnet with
        activeAppkeyNum := UInt8.ofNat
          ((List.range subnet.appkeyNum.toNat).countP (keyMade rsp subnet.appkey))
        appkey := keys } ∧
      LoopDone rsp 0 subnet.appkeyNum.toNat subnet.appkey keys := by
  obtain ⟨others, isSubnets⟩ := ProvState.subnets_of_subnet isSubnet
  rw [newAppkeys, isSubnet, ok_bind] at creates
  by_cases absent : subnet.netkey.done = 0
  · simp [absent] at creates
  · rw [if_neg absent] at creates
    obtain ⟨⟨counted, last⟩, loops, result⟩ := bind_ok.mp creates
    cases counted with
    | none => simp at result
    | some total =>
        obtain ⟨isTotal, keys, isLast, done⟩ :=
          newAppkeysFrom_done subnet.appkeyNum.toNat 0 0 isSubnets (by omega) loops
        cases result
        rw [Nat.zero_add, ← List.range_eq_range'] at isTotal
        refine ⟨absent, keys, _, ?_, ?_, rfl, done⟩
        · simp only [ProvState.subnet, ProvState.assign, isLast]
          rw [← isTotal]
        · simp only [ProvState.assign, isLast, isSubnets, List.tail_cons]
          rw [← isTotal]

/-!
## The search for a key

The number of created keys is a count, but the search takes it for the length of an initial
segment.  Both agree exactly when the created keys come first.
-/

/-- Two keys with one reference are one key. -/
theorem place_of_refid {keys : List Meshkey} (distinct : (keys.map (·.refid)).Nodup)
    {one two : Nat} {first second : Meshkey} (isFirst : keys[one]? = some first)
    (isSecond : keys[two]? = some second) (same : first.refid = second.refid) : one = two := by
  have refid₁ : (keys.map (·.refid))[one]? = some first.refid := by
    rw [List.getElem?_map, isFirst, Option.map_some]
  have refid₂ : (keys.map (·.refid))[two]? = some first.refid := by
    rw [List.getElem?_map, isSecond, Option.map_some, same]
  obtain ⟨bound, _⟩ := List.getElem?_eq_some_iff.mp refid₁
  exact (List.getElem?_inj bound distinct).mp (refid₁.trans refid₂.symm)

/-- The search finds the keys that stand before the count. -/
theorem find_refid_iff {keys : List Meshkey} (distinct : (keys.map (·.refid)).Nodup)
    (count : Nat) (refid x : UInt16) :
    ((keys.take count).find? (·.refid == refid)).map (·.id) = some x ↔
      ∃ place < count, ∃ key, keys[place]? = some key ∧ key.refid = refid ∧ key.id = x := by
  constructor
  · intro found
    obtain ⟨key, isKey, isId⟩ := Option.map_eq_some_iff.mp found
    have same : key.refid = refid := by simpa using List.find?_some isKey
    obtain ⟨place, here⟩ := List.getElem?_of_mem (List.mem_of_find?_eq_some isKey)
    rw [List.getElem?_take] at here
    split at here
    · rename_i inside
      exact ⟨place, inside, key, here, same, isId⟩
    · cases here
  · rintro ⟨place, inside, key, here, same, isId⟩
    have listed : key ∈ keys.take count := by
      apply List.mem_of_getElem? (i := place)
      rw [List.getElem?_take_of_lt inside, here]
    cases found : (keys.take count).find? (·.refid == refid) with
    | none =>
        have other := List.find?_eq_none.mp found key listed
        simp [same] at other
    | some other =>
        have isOther : other.refid = refid := by simpa using List.find?_some found
        obtain ⟨place', here'⟩ := List.getElem?_of_mem (List.mem_of_find?_eq_some found)
        rw [List.getElem?_take] at here'
        split at here'
        · have equal := place_of_refid distinct here here' (same.trans isOther.symm)
          rw [← equal, here] at here'
          cases here'
          exact congrArg some isId
        · cases here'

/-- The search finds exactly the marked keys when these are the ones before the count. -/
theorem find_marked_iff {keys : List Meshkey} (distinct : (keys.map (·.refid)).Nodup)
    (count : Nat) :
    (∀ refid x, ((keys.take count).find? (·.refid == refid)).map (·.id) = some x ↔
      ∃ (place : Nat) (key : Meshkey), keys[place]? = some key ∧ key.refid = refid ∧
        key.done ≠ 0 ∧ key.id = x) ↔
    ∀ (place : Nat) (key : Meshkey), keys[place]? = some key → (key.done ≠ 0 ↔ place < count) := by
  constructor
  · intro exact_ place key here
    have search := (find_refid_iff distinct count key.refid key.id).symm.trans
      (exact_ key.refid key.id)
    constructor
    · intro marked
      obtain ⟨other, inside, found, isFound, same, _⟩ :=
        search.mpr ⟨place, key, here, rfl, marked, rfl⟩
      rw [place_of_refid distinct here isFound same.symm]
      exact inside
    · intro inside
      obtain ⟨other, found, isFound, same, marked, _⟩ :=
        search.mp ⟨place, inside, key, here, rfl, rfl⟩
      have equal := place_of_refid distinct here isFound same.symm
      rw [← equal, here] at isFound
      cases isFound
      exact marked
  · intro first refid x
    rw [find_refid_iff distinct]
    constructor
    · rintro ⟨place, inside, key, here, same, isId⟩
      exact ⟨place, key, here, same, (first place key here).mpr inside, isId⟩
    · rintro ⟨place, key, here, same, marked, isId⟩
      exact ⟨place, (first place key here).mp marked, key, here, same, isId⟩

/-- What holds of an initial segment is counted by its length. -/
theorem lt_countP_range_iff {holds : Nat → Bool} {bound : Nat}
    (closed : ∀ later < bound, holds later = true → ∀ earlier < later, holds earlier = true) :
    ∀ place < bound, holds place = true ↔ place < (List.range bound).countP holds := by
  induction bound with
  | zero => exact fun place inside => absurd inside (Nat.not_lt_zero place)
  | succ bound hypothesis =>
      have before := hypothesis fun later inside =>
        closed later (Nat.lt_succ_of_lt inside)
      have limited : (List.range bound).countP holds ≤ bound := by
        simpa using List.countP_le_length (p := holds) (l := List.range bound)
      intro place inside
      rw [List.range_succ, List.countP_append, List.countP_singleton]
      by_cases last : holds bound = true
      · have all : (List.range bound).countP holds = bound := by
          have every : ∀ earlier ∈ List.range bound, holds earlier = true := fun earlier member =>
            closed bound (Nat.lt_succ_self bound) last earlier (List.mem_range.mp member)
          rw [List.countP_eq_length.mpr every, List.length_range]
        rw [if_pos last, all]
        rcases Nat.lt_succ_iff_lt_or_eq.mp inside with earlier | rfl
        · exact iff_of_true (closed bound (Nat.lt_succ_self bound) last place earlier) inside
        · exact iff_of_true last inside
      · rw [if_neg last, Nat.add_zero]
        rcases Nat.lt_succ_iff_lt_or_eq.mp inside with earlier | rfl
        · exact before place earlier
        · exact iff_of_false last (by omega)

/-- The keys that are marked or that the NCP accepts are announced, and no other stands before
one of them. -/
structure Subnet.MadeFirst (rsp : Nat → CreateRsp) (subnet : Subnet) : Prop where
  announced : ∀ (place : Nat) (key : Meshkey), subnet.appkey[place]? = some key →
    key.done ≠ 0 → place < subnet.appkeyNum.toNat
  first : ∀ later < subnet.appkeyNum.toNat, keyMade rsp subnet.appkey later = true →
    ∀ earlier < later, keyMade rsp subnet.appkey earlier = true

/-- `appkey_by_refid` returns the index of a key exactly when the key is marked as created, and
it is the index that the NCP has returned. -/
def LookupExact (rsp : Nat → CreateRsp) (before after : Subnet) (host : Host) : Prop :=
  ∀ refid x, host.appkeyByRefid refid = .ok (some x) ↔
    ∃ (place : Nat) (old key : Meshkey), before.appkey[place]? = some old ∧
      after.appkey[place]? = some key ∧ key.refid = refid ∧ key.done ≠ 0 ∧
      old.returned (rsp place) = x

/-- The keys after the loop, marked where they are there. -/
theorem LoopDone.marked {rsp : Nat → CreateRsp} {count : Nat} {keys keys' : List Meshkey}
    (done : LoopDone rsp 0 count keys keys') (distinct : (keys.map (·.refid)).Nodup)
    {place : Nat} {key : Meshkey} (here : keys'[place]? = some key) :
    ∃ old, keys[place]? = some old ∧
      (key.done ≠ 0 ↔ if place < count then keyMade rsp keys place = true else old.done ≠ 0) ∧
      (key.done ≠ 0 → key.id = old.returned (rsp place)) := by
  have own := done.within distinct place
  rw [here] at own
  by_cases inside : place < count
  · rw [if_pos (by omega)] at own
    obtain ⟨old, isOld, rfl⟩ := Option.map_eq_some_iff.mp own.symm
    refine ⟨old, isOld, ?_, ?_⟩
    · rw [Meshkey.done_created, if_pos inside, keyMade, isOld, Option.any_some]
    · intro marked
      exact Meshkey.id_created ((Meshkey.done_created _ _).mp marked)
  · rw [if_neg (by omega)] at own
    refine ⟨key, own.symm, by rw [if_neg inside], ?_⟩
    intro marked
    rw [Meshkey.returned, if_pos marked]

/-- The loop leaves as many keys as there are. -/
theorem LoopDone.present {rsp : Nat → CreateRsp} {index left : Nat} {keys keys' : List Meshkey}
    (done : LoopDone rsp index left keys keys') {place : Nat} (inside : place < keys.length) :
    ∃ key, keys'[place]? = some key := by
  have same := congrArg List.length done.refids
  rw [List.length_map, List.length_map] at same
  exact ⟨_, List.getElem?_eq_getElem (same ▸ inside)⟩

/-- The search finds exactly the created keys if and only if these come first.  It goes to the
number of keys that were created instead of to the last of them, so a key that could not be
created hides one behind it. -/
theorem key_lookup_iff {clock : Nat → Bool → SaveClock} {rsp : Nat → CreateRsp}
    {prov after : ProvState} {subnet subnet' : Subnet} {host : Host}
    (isSubnet : prov.subnet = .ok subnet) (distinct : (subnet.appkey.map (·.refid)).Nodup)
    (creates : newAppkeys clock rsp prov = .ok (true, after))
    (isAfter : after.subnet = .ok subnet') (shared : host.cfg = after.cfg) :
    LookupExact rsp subnet subnet' host ↔ subnet.MadeFirst rsp := by
  obtain ⟨_, keys, last, isLast, isCfg, same, done⟩ := newAppkeys_counts isSubnet creates
  cases isAfter.symm.trans isLast
  have isKeys : subnet'.appkey = keys := by rw [same]
  have distinct' : (keys.map (·.refid)).Nodup := by rw [done.refids]; exact distinct
  let count := (List.range subnet.appkeyNum.toNat).countP (keyMade rsp subnet.appkey)
  have limited : count ≤ subnet.appkeyNum.toNat := by
    simpa using List.countP_le_length (p := keyMade rsp subnet.appkey)
      (l := List.range subnet.appkeyNum.toNat)
  have active : subnet'.activeAppkeyNum.toNat = count := by
    rw [same]
    exact toNat_countP_keyMade rsp subnet
  have searched : ∀ refid x, host.appkeyByRefid refid = .ok (some x) ↔
      ((keys.take count).find? (·.refid == refid)).map (·.id) = some x := by
    intro refid x
    have isHost : host.subnet = .ok subnet' := by
      rw [Host.subnet, shared, isCfg]
    rw [Host.appkeyByRefid, isHost, ok_bind, active, isKeys, Except.ok.injEq]
  have lists : LookupExact rsp subnet subnet' host ↔
      ∀ refid x, ((keys.take count).find? (·.refid == refid)).map (·.id) = some x ↔
        ∃ (place : Nat) (key : Meshkey), keys[place]? = some key ∧ key.refid = refid ∧
          key.done ≠ 0 ∧ key.id = x := by
    unfold LookupExact
    refine forall_congr' fun refid => forall_congr' fun x => ?_
    rw [searched, isKeys]
    apply iff_congr Iff.rfl
    constructor
    · rintro ⟨place, old, key, isOld, here, isRefid, marked, isId⟩
      obtain ⟨other, isOther, _, index⟩ := done.marked distinct here
      cases isOld.symm.trans isOther
      exact ⟨place, key, here, isRefid, marked, (index marked).trans isId⟩
    · rintro ⟨place, key, here, isRefid, marked, isId⟩
      obtain ⟨old, isOld, _, index⟩ := done.marked distinct here
      exact ⟨place, old, key, isOld, here, isRefid, marked, (index marked).symm.trans isId⟩
  rw [lists, find_marked_iff distinct']
  constructor
  · intro first
    have reached : ∀ {place : Nat} {old : Meshkey}, subnet.appkey[place]? = some old →
        ((if place < subnet.appkeyNum.toNat then keyMade rsp subnet.appkey place = true
          else old.done ≠ 0) ↔ place < count) := by
      intro place old isOld
      obtain ⟨bound, _⟩ := List.getElem?_eq_some_iff.mp isOld
      obtain ⟨key, here⟩ := done.present bound
      obtain ⟨other, isOther, marked, _⟩ := done.marked distinct here
      cases isOld.symm.trans isOther
      exact marked.symm.trans (first place key here)
    constructor
    · intro place key here isDone
      by_contra far
      have counted := (reached here).mp (by rw [if_neg far]; exact isDone)
      omega
    · intro later inside made earlier before
      obtain ⟨old, isOld, _⟩ := (Option.any_eq_true _ _).mp made
      have counted := (reached isOld).mp (by rw [if_pos inside]; exact made)
      obtain ⟨bound, _⟩ := List.getElem?_eq_some_iff.mp isOld
      have present : earlier < subnet.appkey.length := by omega
      have own := (reached (List.getElem?_eq_getElem present)).mpr (by omega)
      rwa [if_pos (by omega)] at own
  · intro order place key here
    obtain ⟨old, isOld, marked, _⟩ := done.marked distinct here
    rw [marked]
    by_cases inside : place < subnet.appkeyNum.toNat
    · rw [if_pos inside]
      exact lt_countP_range_iff order.first place inside
    · rw [if_neg inside]
      exact iff_of_false (fun isDone => inside (order.announced place old isOld isDone))
        (by omega)

/-- A key of a file that was not created, or was, as its mark says. -/
def fileKey (refid done : String) : Json.Value :=
  .object
    [(strRefid, .string refid.toList),
      (strId, .string "0x0000".toList),
      (strValue, .string "9ddb055fdbe5e0320b56b5c192cc5683".toList),
      (strDone, .string done.toList)]

/-- A file with a network key, marked or not, and two application keys that are not. -/
def twoKeysFile (netkeyDone : String) : Json.Value :=
  newProvFile.set strSubnets (.array [(fileKey "0x0000" netkeyDone).set strAppkey
    (.array [fileKey "0x0000" "0x00", fileKey "0x0001" "0x00"])])

/-- The manager's data around a configuration. -/
def Host.around (cfg : ProvCfg) : Host :=
  { db := .cfgdbInit, cfg := cfg, stat := .zeroed, log := [] }

/-- The file is loaded, and a call that creates keys succeeds on it. -/
def loadsTwo (netkeyDone : String) (call : ProvState → Except Abort (Bool × ProvState))
    (test : Subnet → ProvState → Bool) : Bool :=
  match (ProvState.zeroed { content := some (twoKeysFile netkeyDone), mtime := 0 }).loadCfgFile
      ⟨1, 1⟩ with
  | .ok (true, prov) =>
      match prov.subnet, call prov with
      | .ok subnet, .ok (true, after) => test subnet after
      | _, _ => false
  | _ => false

theorem of_loadsTwo {netkeyDone : String} {call : ProvState → Except Abort (Bool × ProvState)}
    {test : Subnet → ProvState → Bool} (passed : loadsTwo netkeyDone call test = true) :
    ∃ prov subnet after, prov.subnet = .ok subnet ∧ call prov = .ok (true, after) ∧
      test subnet after = true := by
  unfold loadsTwo at passed
  split at passed
  · rename_i prov loads
    split at passed
    · rename_i subnet after isSubnet calls
      exact ⟨prov, subnet, after, isSubnet, calls, passed⟩
    · cases passed
  · cases passed

/-- The NCP creates both keys, and both are looked up under the index that it has returned. -/
theorem key_lookup_iff_created :
    ∃ prov after subnet subnet' host, prov.subnet = .ok subnet ∧
      newAppkeys (fun _ _ => ⟨2, 2⟩) (fun place => ⟨0, UInt16.ofNat place + 5⟩) prov =
        .ok (true, after) ∧
      after.subnet = .ok subnet' ∧ host.appkeyByRefid 0 = .ok (some 5) ∧
      host.appkeyByRefid 1 = .ok (some 6) ∧
      LookupExact (fun place => ⟨0, UInt16.ofNat place + 5⟩) subnet subnet' host := by
  let rsp : Nat → CreateRsp := fun place => ⟨0, UInt16.ofNat place + 5⟩
  obtain ⟨prov, subnet, after, isSubnet, creates, tested⟩ :=
    of_loadsTwo (show loadsTwo "0x01" (newAppkeys (fun _ _ => ⟨2, 2⟩) rsp)
      (fun subnet after => after.subnet.toOption.isSome &&
        decide ((subnet.appkey.map (·.refid)).Nodup ∧
          ((Host.around after.cfg).appkeyByRefid 0).toOption = some (some 5) ∧
          ((Host.around after.cfg).appkeyByRefid 1).toOption = some (some 6) ∧
          (∀ key ∈ subnet.appkey, key.done = 0) ∧
          ∀ place < subnet.appkeyNum.toNat, keyMade rsp subnet.appkey place = true)) = true by
        decide +kernel)
  obtain ⟨there, rest⟩ := Bool.and_eq_true_iff.mp tested
  obtain ⟨distinct, found, foundToo, blank, made⟩ := of_decide_eq_true rest
  obtain ⟨subnet', isAfter⟩ := Option.isSome_iff_exists.mp there
  have madeFirst : subnet.MadeFirst rsp :=
    { announced := fun _ key here marked =>
        absurd (blank key (List.mem_of_getElem? here)) marked
      first := fun later inside _ earlier before => made earlier (Nat.lt_trans before inside) }
  exact ⟨prov, after, subnet, subnet', Host.around after.cfg, isSubnet, creates,
    ok_of_toOption isAfter, ok_of_toOption found, ok_of_toOption foundToo,
    (key_lookup_iff isSubnet distinct creates (ok_of_toOption isAfter) rfl).mpr madeFirst⟩

/-- The NCP has no memory for the first key and creates the second: the search does not reach
the one that is there. -/
theorem created_key_not_found :
    ¬ ∀ (clock : Nat → Bool → SaveClock) (rsp : Nat → CreateRsp) (prov after : ProvState)
      (subnet subnet' : Subnet) (host : Host), prov.subnet = .ok subnet →
      (subnet.appkey.map (·.refid)).Nodup → newAppkeys clock rsp prov = .ok (true, after) →
      after.subnet = .ok subnet' → host.cfg = after.cfg →
      LookupExact rsp subnet subnet' host := by
  intro claim
  let rsp : Nat → CreateRsp := fun place => if place = 0 then ⟨bgErrOutOfMemory, 0⟩ else ⟨0, 5⟩
  obtain ⟨prov, subnet, after, isSubnet, creates, tested⟩ :=
    of_loadsTwo (show loadsTwo "0x01" (newAppkeys (fun _ _ => ⟨2, 2⟩) rsp)
      (fun subnet after => decide ((subnet.appkey.map (·.refid)).Nodup ∧
          ((Host.around after.cfg).appkeyByRefid 1).toOption = some none) &&
        (subnet.appkey[1]?.isSome && after.subnet.toOption.any fun subnet' =>
          subnet'.appkey[1]?.any fun key => decide (key.refid = 1 ∧ key.done ≠ 0))) = true by
        decide +kernel)
  obtain ⟨missed, there⟩ := Bool.and_eq_true_iff.mp tested
  obtain ⟨distinct, missed⟩ := of_decide_eq_true missed
  obtain ⟨announced, created⟩ := Bool.and_eq_true_iff.mp there
  obtain ⟨old, isOld⟩ := Option.isSome_iff_exists.mp announced
  obtain ⟨subnet', isAfter, created⟩ := (Option.any_eq_true _ _).mp created
  obtain ⟨key, isKey, marked⟩ := (Option.any_eq_true _ _).mp created
  obtain ⟨isRefid, isDone⟩ := of_decide_eq_true marked
  have found := (claim _ rsp prov after subnet subnet' (Host.around after.cfg) isSubnet distinct
    creates (ok_of_toOption isAfter) rfl 1 (old.returned (rsp 1))).mpr
    ⟨1, old, key, isOld, isKey, isRefid, isDone, rfl⟩
  rw [ok_of_toOption missed] at found
  cases found

/-!
## The file and the NCP

A key that the file marks is not offered to the NCP again.  Whether the NCP still has it is never
asked, except through the number of keys and the network that it reports.
-/

/-- `new_netkey` sends `create_network`. -/
def Subnet.NetworkAsked (subnet : Subnet) : Prop := subnet.netkey.done = 0

/-- `new_appkeys` sends `create_appkey` for the key at a place. -/
def Subnet.AppkeyAsked (subnet : Subnet) (place : Nat) : Prop :=
  place < subnet.appkeyNum.toNat ∧ ∃ key, subnet.appkey[place]? = some key ∧ key.done = 0

/-- The places of the keys that `new_appkeys` counts. -/
def Subnet.counted (rsp : Nat → CreateRsp) (subnet : Subnet) : List Nat :=
  (List.range subnet.appkeyNum.toNat).filter (keyMade rsp subnet.appkey)

theorem mem_counted {rsp : Nat → CreateRsp} {subnet : Subnet} {place : Nat} :
    place ∈ subnet.counted rsp ↔ place < subnet.appkeyNum.toNat ∧
      ∃ key, subnet.appkey[place]? = some key ∧ (key.done ≠ 0 ∨ (rsp place).Created) := by
  rw [Subnet.counted, List.mem_filter, List.mem_range, keyMade, Option.any_eq_true]
  simp [Meshkey.made]

/-- Without a call the answer to it does not matter. -/
theorem newNetkey_congr {prov : ProvState} {subnet : Subnet}
    (isSubnet : prov.subnet = .ok subnet) (clock : Bool → SaveClock) {rsp rsp' : CreateRsp}
    (same : subnet.NetworkAsked → rsp = rsp') :
    newNetkey clock rsp prov = newNetkey clock rsp' prov := by
  rw [newNetkey, newNetkey, isSubnet, ok_bind, ok_bind]
  by_cases asked : subnet.netkey.done = 0
  · rw [same asked]
  · rw [if_pos asked, if_pos asked]

/-- The answers to the calls decide what the loop does.  By induction on the keys that are
left, whose marks are those that they have before the loop. -/
theorem newAppkeysFrom_congr {clock : Nat → Bool → SaveClock} {rsp rsp' : Nat → CreateRsp}
    {others : List Subnet} (left : Nat) :
    ∀ {prov : ProvState} {subnet : Subnet} (index count : Nat),
      prov.cfg.subnets = subnet :: others → index + left ≤ subnet.appkeyNum.toNat →
      (∀ place, index ≤ place → subnet.AppkeyAsked place → rsp place = rsp' place) →
      newAppkeysFrom clock rsp left index count prov =
        newAppkeysFrom clock rsp' left index count prov := by
  induction left with
  | zero => exact fun _ _ _ _ _ => rfl
  | succ left hypothesis =>
      intro prov subnet index count isSubnets bounded same
      have isSubnet : prov.subnet = .ok subnet := by
        rw [ProvState.subnet, isSubnets]
      have goesOn : ∀ count, newAppkeysFrom clock rsp left (index + 1) count prov =
          newAppkeysFrom clock rsp' left (index + 1) count prov := fun count =>
        hypothesis (index + 1) count isSubnets (by omega)
          fun place later asked => same place (by omega) asked
      rw [newAppkeysFrom, newAppkeysFrom, isSubnet, ok_bind, ok_bind]
      cases here : subnet.appkey[index]? with
      | none => rfl
      | some appkey =>
          dsimp only
          by_cases marked : appkey.done ≠ 0
          · rw [if_pos marked, if_pos marked, goesOn]
          · have asked : subnet.AppkeyAsked index :=
              ⟨by omega, appkey, here, not_ne_iff.mp marked⟩
            rw [if_neg marked, if_neg marked, ← same index (Nat.le_refl index) asked, goesOn]
            by_cases accepted : (rsp index).Created
            · rw [if_pos accepted, if_pos accepted]
              cases writes : (prov.assign (·.nameAppkey index (rsp index).index)).writeBoth
                  (clock index) (.appkeyId appkey.refid (rsp index).index)
                  (.appkeyDone appkey.refid 1) with
              | error abort => rfl
              | ok out =>
                  obtain ⟨fine, middle⟩ := out
                  cases fine with
                  | false => rfl
                  | true =>
                      obtain ⟨place, before, _, isMiddle⟩ :=
                        ProvState.writeBoth_created isSubnets (by omega) here writes
                      refine hypothesis (index + 1) (count + 1)
                        (congrArg ProvCfg.subnets isMiddle)
                        (show index + 1 + left ≤ subnet.appkeyNum.toNat by omega) ?_
                      rintro other later ⟨inside, key, isKey, unmarked⟩
                      apply same other (by omega)
                      refine ⟨inside, key, ?_, unmarked⟩
                      simp only [Subnet.nameAppkey] at isKey
                      rwa [List.getElem?_modify_ne _ _ (by omega),
                        List.getElem?_modify_ne _ _ (by omega)] at isKey
            · rw [if_neg accepted, if_neg accepted]

theorem newAppkeys_congr {prov : ProvState} {subnet : Subnet}
    (isSubnet : prov.subnet = .ok subnet) (clock : Nat → Bool → SaveClock)
    {rsp rsp' : Nat → CreateRsp}
    (same : ∀ place, subnet.AppkeyAsked place → rsp place = rsp' place) :
    newAppkeys clock rsp prov = newAppkeys clock rsp' prov := by
  obtain ⟨others, isSubnets⟩ := ProvState.subnets_of_subnet isSubnet
  rw [newAppkeys, newAppkeys, isSubnet, ok_bind, ok_bind,
    newAppkeysFrom_congr subnet.appkeyNum.toNat 0 0 isSubnets (by omega)
      fun place _ asked => same place asked]

/-- What a start that reports success promises about the keys of the NCP, and about what the
provisioner's configuration has of its address and IV index. -/
structure Reconciled (input : InitInput) (before : Subnet) (after : ProvState) : Prop where
  netkey : input.networks ≠ 0 ∨ before.NetworkAsked ∧ input.netkey.Created
  addr : input.networks ≠ 0 → after.cfg.addr = input.address
  ivi : input.networks ≠ 0 → after.cfg.ivi = input.ivi
  appkeys : input.networks = 0 → ∀ subnet, after.subnet = .ok subnet →
    subnet.activeAppkeyNum.toNat = (before.counted input.appkey).length ∧
      ∀ place ∈ before.counted input.appkey,
        before.AppkeyAsked place ∧ (input.appkey place).Created

/-- What the NCP reports is adopted; the keys are as before. -/
theorem checkNetwork_ok {input : InitInput} {prov checked : ProvState}
    (checks : checkNetwork input prov = .ok (true, checked)) :
    checked.cfg.subnets = prov.cfg.subnets ∧
      (input.networks ≠ 0 →
        checked.cfg.addr = input.address ∧ checked.cfg.ivi = input.ivi) := by
  unfold checkNetwork at checks
  by_cases empty : input.networks = 0
  · rw [if_pos empty] at checks
    split at checks
    · obtain ⟨_, rfl⟩ := Prod.mk.inj (Except.ok.inj checks)
      exact ⟨rfl, fun other => absurd empty other⟩
    · cases checks
      exact ⟨rfl, fun other => absurd empty other⟩
  · rw [if_neg empty] at checks
    split at checks
    · cases checks
    · split at checks
      · cases checks
      · obtain ⟨⟨fine, middle⟩, adopts, rest⟩ := bind_ok.mp checks
        cases fine with
        | false => simp at rest
        | true =>
            have first : middle.cfg = { prov.cfg with addr := input.address } := by
              unfold adoptAddr at adopts
              split at adopts
              · obtain ⟨root, root', _, runs⟩ := ProvState.write_cfg adopts
                exact (Prod.mk.inj (Except.ok.inj runs)).1.symm
              · rename_i same
                cases adopts
                rw [not_ne_iff.mp same]
            have second : checked.cfg = { middle.cfg with ivi := input.ivi } := by
              unfold adoptIvi at rest
              simp only [if_true] at rest
              split at rest
              · obtain ⟨root, root', _, runs⟩ := ProvState.write_cfg rest
                exact (Prod.mk.inj (Except.ok.inj runs)).1.symm
              · rename_i same
                cases rest
                rw [not_ne_iff.mp same]
            rw [second, first]
            exact ⟨rfl, fun _ => ⟨rfl, rfl⟩⟩

/-- The network key is marked, and the application keys are as before. -/
theorem newNetkey_ok {clock : Bool → SaveClock} {rsp : CreateRsp} {prov named : ProvState}
    (names : newNetkey clock rsp prov = .ok (true, named)) :
    ∃ subnet netkey others, prov.cfg.subnets = subnet :: others ∧
      named.cfg = { prov.cfg with
        subnets := { subnet with netkey := netkey } :: others } ∧
      (subnet.NetworkAsked → rsp.Created) := by
  obtain ⟨subnet, isSubnet, rest⟩ := bind_ok.mp names
  obtain ⟨others, isSubnets⟩ := ProvState.subnets_of_subnet isSubnet
  by_cases marked : subnet.netkey.done ≠ 0
  · rw [if_pos marked] at rest
    cases rest
    refine ⟨subnet, subnet.netkey, others, isSubnets, ?_, fun asked => absurd asked marked⟩
    rw [← isSubnets]
  · rw [if_neg marked] at rest
    by_cases accepted : rsp.Created
    · rw [if_pos accepted] at rest
      obtain ⟨⟨fine, middle⟩, first, second⟩ := bind_ok.mp rest
      cases fine with
      | false => simp at second
      | true =>
          obtain ⟨root, root', _, runs⟩ := ProvState.write_cfg first
          obtain ⟨root₂, root₂', _, runs₂⟩ := ProvState.write_cfg second
          simp only [ProvWrite.run, provselfSetnetkeyid, provselfSetnetkey,
            ProvState.assign, isSubnets, Except.ok.injEq, Prod.mk.injEq] at runs
          simp only [ProvWrite.run, provselfSetnetkeydone, provselfSetnetkey, ← runs.1,
            Except.ok.injEq, Prod.mk.injEq] at runs₂
          exact ⟨subnet, _, others, isSubnets, runs₂.1.symm, fun _ => accepted⟩
    · rw [if_neg accepted] at rest
      cases rest

/-- A start that reports success has reconciled the file with the NCP exactly when the NCP
reports a network, or the file marks no key as created.  An NCP that was erased reports none; the
keys of the file are not created again then. -/
theorem reconciled_iff {input : InitInput} {prov after : ProvState} {subnet : Subnet}
    (isSubnet : prov.subnet = .ok subnet)
    (starts : onInitializedConfig input prov = .ok (true, after)) :
    Reconciled input subnet after ↔
      input.networks ≠ 0 ∨
        (subnet.netkey.done = 0 ∧ ∀ place key, place < subnet.appkeyNum.toNat →
          subnet.appkey[place]? = some key → key.done = 0) := by
  obtain ⟨⟨fine, checked⟩, checks, rest⟩ := bind_ok.mp starts
  cases fine with
  | false => simp at rest
  | true =>
      obtain ⟨⟨fine, named⟩, names, rest⟩ := bind_ok.mp rest
      cases fine with
      | false => simp at rest
      | true =>
          obtain ⟨stays, adopted⟩ := checkNetwork_ok checks
          obtain ⟨first, netkey, others, isFirst, isNamed, accepted⟩ := newNetkey_ok names
          obtain ⟨_, isSubnets⟩ := ProvState.subnets_of_subnet isSubnet
          cases (stays.symm.trans isFirst).symm.trans isSubnets
          have isPrimary : named.subnet = .ok { subnet with netkey := netkey } := by
            rw [ProvState.subnet, isNamed]
          obtain ⟨_, keys, last, isLast, isAfter, same, _⟩ := newAppkeys_counts isPrimary rest
          have active : last.activeAppkeyNum.toNat = (subnet.counted input.appkey).length := by
            rw [same, Subnet.counted, ← List.countP_eq_length_filter]
            exact toNat_countP_keyMade input.appkey subnet
          constructor
          · intro reconciled
            by_cases empty : input.networks = 0
            · right
              refine ⟨(reconciled.netkey.resolve_left (not_not_intro empty)).1, ?_⟩
              intro place key inside here
              by_contra marked
              have counts : place ∈ subnet.counted input.appkey :=
                mem_counted.mpr ⟨inside, key, here, .inl marked⟩
              obtain ⟨_, other, isOther, unmarked⟩ :=
                ((reconciled.appkeys empty last isLast).2 place counts).1
              cases here.symm.trans isOther
              exact marked unmarked
            · exact .inl empty
          · intro agrees
            refine ⟨?_, ?_, ?_, ?_⟩
            · exact agrees.imp_right fun blank => ⟨blank.1, accepted blank.1⟩
            · intro reported
              rw [isAfter, isNamed]
              exact (adopted reported).1
            · intro reported
              rw [isAfter, isNamed]
              exact (adopted reported).2
            · intro empty other isOther
              cases isLast.symm.trans isOther
              refine ⟨active, ?_⟩
              intro place member
              obtain ⟨inside, key, here, made⟩ := mem_counted.mp member
              have blank := (agrees.resolve_left (not_not_intro empty)).2 place key inside here
              exact ⟨⟨inside, key, here, blank⟩, made.resolve_left (not_not_intro blank)⟩

/-- An NCP that has no network, and accepts every key. -/
def InitInput.erased : InitInput where
  networks := 0
  address := 0
  ivi := 0
  created := bgErrSuccess
  netkey := ⟨bgErrSuccess, 0⟩
  appkey := fun place => ⟨bgErrSuccess, UInt16.ofNat place⟩
  eventClock := fun _ => ⟨2, 2⟩
  netkeyClock := fun _ => ⟨2, 2⟩
  appkeyClock := fun _ _ => ⟨2, 2⟩

/-- The file marks no key, and all are created. -/
theorem reconciled_iff_new :
    ∃ prov after subnet, prov.subnet = .ok subnet ∧
      onInitializedConfig .erased prov = .ok (true, after) ∧ subnet.appkeyNum = 2 ∧
      Reconciled .erased subnet after := by
  obtain ⟨prov, subnet, after, isSubnet, starts, tested⟩ :=
    of_loadsTwo (show loadsTwo "0x00" (onInitializedConfig .erased)
      (fun subnet _ => decide (subnet.appkeyNum = 2 ∧ subnet.netkey.done = 0 ∧
        ∀ key ∈ subnet.appkey, key.done = 0)) = true by decide +kernel)
  obtain ⟨two, netkey, appkeys⟩ := of_decide_eq_true tested
  exact ⟨prov, after, subnet, isSubnet, starts, two,
    (reconciled_iff isSubnet starts).mpr
      (.inr ⟨netkey, fun _ key _ here => appkeys key (List.mem_of_getElem? here)⟩)⟩

/-- The file marks the network key, and the NCP was erased: the start reports success, and the
NCP has no network key. -/
theorem erased_ncp_accepted :
    ¬ ∀ (input : InitInput) (prov after : ProvState) (subnet : Subnet),
      prov.subnet = .ok subnet → onInitializedConfig input prov = .ok (true, after) →
      Reconciled input subnet after := by
  intro claim
  obtain ⟨prov, subnet, after, isSubnet, starts, tested⟩ :=
    of_loadsTwo (show loadsTwo "0x01" (onInitializedConfig .erased)
      (fun subnet _ => decide (subnet.netkey.done ≠ 0)) = true by decide +kernel)
  have reconciled := claim _ prov after subnet isSubnet starts
  rcases reconciled.netkey with reported | ⟨asked, _⟩
  · exact reported rfl
  · exact of_decide_eq_true tested asked

end Nwmng
