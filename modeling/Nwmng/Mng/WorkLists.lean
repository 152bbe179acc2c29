/-
Module: Nwmng.Mng.WorkLists
Purpose: Which records `mng_load_lists` puts on which list, and in which order it lists the
nodes to remove.
Trusted boundary: none
Main exports:
  CfgDb.listed, loadRecord, comesTo, WorkLists, WorkReady, work_lists_iff,
  relay_before_low_power
-/
import Nwmng.Mng.DdbRuns
import Nwmng.Mng.Requests

namespace Nwmng

/-! ## The list of a record -/

namespace Node

/-- A device that waits to be added. -/
def toAdd (node : Node) : Bool := node.addr = 0 ∧ node.rmorbl = 0

/-- A node that is marked for the blacklist. -/
def toBlacklist (node : Node) : Bool := node.addr ≠ 0 ∧ node.rmorbl &&& blBitmask ≠ 0

/-- A node that is marked to be removed, and not for the blacklist. -/
def toRemove (node : Node) : Bool :=
  node.addr ≠ 0 ∧ node.rmorbl &&& rmBitmask ≠ 0 ∧ node.rmorbl &&& blBitmask = 0

/-- A node without a mark that is not configured. -/
def toConfigure (node : Node) : Bool :=
  node.addr ≠ 0 ∧ node.rmorbl &&& blBitmask = 0 ∧ node.rmorbl &&& rmBitmask = 0 ∧ node.done = 0

/-- A record that belongs to one of the lists. -/
def waits (node : Node) : Bool :=
  node.toAdd || node.toBlacklist || node.toRemove || node.toConfigure

/-- The features of the node have the bit of the low power nodes. -/
def lowPower (node : Node) : Bool := node.config.features.target.getLsbD lpnFeatureBitofs

/-- What `load_lists` tests: `LPN_BITOFS` as a mask has the bits of relay and proxy. -/
def prepended (node : Node) : Bool := node.config.features.target &&& 3#16 != 0

end Node

/-- `load_lists`, for a record whose node the NCP has. -/
def loadRecord (db : CfgDb) (lists : Lists) (record : NodeId) : Lists :=
  if (db.heap record).addr = 0 then loadUnprov db record lists
  else loadNodeLists db record lists

/-- The records of a traversal that a test selects. -/
def CfgDb.select (db : CfgDb) (test : Node → Bool) (records : List NodeId) : List NodeId :=
  records.filter fun record => test (db.heap record)

theorem loadRecord_eq (db : CfgDb) (lists : Lists) (record : NodeId) :
    loadRecord db lists record =
      { add := lists.add ++ db.select Node.toAdd [record]
        config := lists.config ++ db.select Node.toConfigure [record]
        bl := lists.bl ++ db.select Node.toBlacklist [record]
        rm := (db.select (fun node => node.toRemove && node.prepended) [record]).reverse ++
          lists.rm ++ db.select (fun node => node.toRemove && !node.prepended) [record]
        fail := lists.fail } := by
  unfold loadRecord loadUnprov loadNodeLists CfgDb.select
  by_cases unaddressed : (db.heap record).addr = 0
  · by_cases unmarked : (db.heap record).rmorbl = 0 <;>
      simp [unaddressed, unmarked, Node.toAdd, Node.toConfigure, Node.toBlacklist, Node.toRemove]
  · by_cases black : (db.heap record).rmorbl &&& blBitmask = 0
    · by_cases remove : (db.heap record).rmorbl &&& rmBitmask = 0
      · by_cases undone : (db.heap record).done = 0 <;>
          simp [unaddressed, black, remove, undone, Node.toAdd, Node.toConfigure,
            Node.toBlacklist, Node.toRemove]
      · by_cases front : (db.heap record).config.features.target &&& 3#16 = 0#16 <;>
          simp [unaddressed, black, remove, front, Node.toAdd, Node.toConfigure,
            Node.toBlacklist, Node.toRemove, Node.prepended]
    · simp [unaddressed, black, Node.toAdd, Node.toConfigure, Node.toBlacklist, Node.toRemove]

/-- The lists after a number of records. -/
theorem foldl_loadRecord (db : CfgDb) (records : List NodeId) (lists : Lists) :
    records.foldl (loadRecord db) lists =
      { add := lists.add ++ db.select Node.toAdd records
        config := lists.config ++ db.select Node.toConfigure records
        bl := lists.bl ++ db.select Node.toBlacklist records
        rm := (db.select (fun node => node.toRemove && node.prepended) records).reverse ++
          lists.rm ++ db.select (fun node => node.toRemove && !node.prepended) records
        fail := lists.fail } := by
  have cons : ∀ (test : Node → Bool) (record : NodeId) (rest : List NodeId),
      db.select test (record :: rest) = db.select test [record] ++ db.select test rest := by
    intro test record rest
    exact List.filter_append [record] rest
  induction records generalizing lists with
  | nil => simp [CfgDb.select]
  | cons record rest hypothesis =>
      rw [List.foldl_cons, hypothesis, loadRecord_eq]
      simp only [cons _ record rest, List.reverse_append, List.append_assoc]

/-- Every record on a list is one of those that were gone through. -/
theorem mem_of_foldl_loadRecord {db : CfgDb} {records : List NodeId} {record : NodeId}
    (member : record ∈ (records.foldl (loadRecord db) Lists.empty).add ++
      (records.foldl (loadRecord db) Lists.empty).bl ++
      (records.foldl (loadRecord db) Lists.empty).rm ++
      (records.foldl (loadRecord db) Lists.empty).config ++
      (records.foldl (loadRecord db) Lists.empty).fail) : record ∈ records := by
  rw [foldl_loadRecord] at member
  simp only [Lists.empty, List.nil_append, List.append_nil, List.mem_append, List.mem_reverse,
    CfgDb.select, List.mem_filter] at member
  tauto

/-- The traversal of a tree goes through the first of its records. -/
theorem loadLists_eq (inDdb : Uuid → Bool) (db : CfgDb) (records : List NodeId) (lists : Lists) :
    ∃ taken : List NodeId, taken <+: records ∧
      loadLists inDdb db records lists = taken.foldl (loadRecord db) lists := by
  induction records generalizing lists with
  | nil => exact ⟨[], List.prefix_refl [], rfl⟩
  | cons record rest hypothesis =>
      have goesOn : ∀ lists', loadRecord db lists record = lists' →
          loadLists inDdb db (record :: rest) lists = loadLists inDdb db rest lists' →
          ∃ taken, taken <+: record :: rest ∧
            loadLists inDdb db (record :: rest) lists = taken.foldl (loadRecord db) lists := by
        rintro _ rfl unfolded
        obtain ⟨taken, leads, same⟩ := hypothesis (loadRecord db lists record)
        exact ⟨record :: taken, List.prefix_cons_inj record |>.mpr leads, unfolded.trans same⟩
      by_cases unaddressed : (db.heap record).addr = 0
      · apply goesOn (loadUnprov db record lists)
        · rw [loadRecord, if_pos unaddressed]
        · rw [loadLists, if_pos unaddressed]
      · by_cases has : inDdb (db.heap record).uuid = true
        · apply goesOn (loadNodeLists db record lists)
          · rw [loadRecord, if_neg unaddressed]
          · rw [loadLists]
            simp only [if_neg unaddressed, if_pos has]
        · refine ⟨[], List.nil_prefix, ?_⟩
          rw [loadLists]
          simp only [if_neg unaddressed, if_neg has]
          rfl

/-!
## The records that a traversal comes to

The traversal ends early when a device without an address is found in the database of the NCP.
Everything behind it in its tree is left out of this round.
-/

/-- A device without an address is deleted from the database of the NCP, which has a node with
the same UUID. -/
def Spoils (fails : Uuid → Bool) (db : CfgDb) (device node : NodeId) : Prop :=
  (db.heap device).addr = 0 ∧ (db.heap node).addr ≠ 0 ∧
    (db.heap device).uuid = (db.heap node).uuid ∧ fails (db.heap device).uuid = false

instance (fails : Uuid → Bool) (db : CfgDb) (device node : NodeId) :
    Decidable (Spoils fails db device node) :=
  inferInstanceAs (Decidable (_ ∧ _ ∧ _ ∧ _))

/-- The records before the first node whose UUID a device has that was visited before. -/
def comesTo (fails : Uuid → Bool) (db : CfgDb) : List NodeId → List NodeId → List NodeId
  | _, [] => []
  | seen, record :: rest =>
      if ∃ device ∈ seen, Spoils fails db device record then []
      else record :: comesTo fails db (seen ++ [record]) rest

/-- The records that `cfg_load_mnglists` comes to, in its order. -/
def CfgDb.visited (fails : Uuid → Bool) (db : CfgDb) : List NodeId :=
  let devices := comesTo fails db [] db.unprovDevs.values
  devices ++ comesTo fails db devices db.nodes.values

/-- What the devices visited so far have left of the database of the NCP.  An unprovisioned
device is deleted from it, since it may have been provisioned and been forgotten; a deletion may
fail. -/
def Deleted (fails : Uuid → Bool) (db : CfgDb) (before : Ddb) (seen : List NodeId)
    (ddb : Ddb) : Prop :=
  ∀ uuid, ddb.has uuid = true ↔ before.has uuid = true ∧
    ∀ device ∈ seen, (db.heap device).addr = 0 → (db.heap device).uuid = uuid →
      fails uuid = true

theorem Ddb.has_delete (fails : Uuid → Bool) (uuid other : Uuid) (ddb : Ddb) :
    (ddb.delete fails uuid).has other = true ↔
      ddb.has other = true ∧ (other = uuid → fails uuid = true) := by
  unfold Ddb.delete
  by_cases failing : fails uuid = true
  · simp [failing]
  · rw [if_neg failing]
    simp only [Ddb.has, List.any_filter, List.any_eq_true, Bool.and_eq_true, decide_eq_true_eq]
    constructor
    · rintro ⟨device, member, different, rfl⟩
      exact ⟨⟨device, member, rfl⟩, fun same => absurd same different⟩
    · rintro ⟨⟨device, member, rfl⟩, apart⟩
      exact ⟨device, member, fun same => failing (apart same), rfl⟩

/-- A device is deleted, if the NCP has it. -/
theorem Deleted.device {fails : Uuid → Bool} {db : CfgDb} {before ddb : Ddb}
    {seen : List NodeId} {record : NodeId} (deleted : Deleted fails db before seen ddb)
    (unaddressed : (db.heap record).addr = 0) :
    Deleted fails db before (seen ++ [record])
      (if ddb.has (db.heap record).uuid then ddb.delete fails (db.heap record).uuid
        else ddb) := by
  intro uuid
  have left : (if ddb.has (db.heap record).uuid then ddb.delete fails (db.heap record).uuid
      else ddb).has uuid = true ↔
      ddb.has uuid = true ∧ ((db.heap record).uuid = uuid → fails uuid = true) := by
    split
    · rw [Ddb.has_delete]
      constructor
      · rintro ⟨has, own⟩
        exact ⟨has, fun same => same ▸ own same.symm⟩
      · rintro ⟨has, own⟩
        exact ⟨has, fun same => same ▸ own same.symm⟩
    · rename_i absent
      constructor
      · intro has
        exact ⟨has, fun same => absurd (same ▸ has) absent⟩
      · exact fun both => both.1
  rw [left, deleted uuid, and_assoc]
  apply and_congr_right
  intro _
  constructor
  · rintro ⟨earlier, own⟩ device member isDevice same
    rcases List.mem_append.mp member with before | last
    · exact earlier device before isDevice same
    · rw [List.mem_singleton.mp last] at same
      exact own same
  · intro all
    exact ⟨fun device member => all device (List.mem_append_left _ member),
      fun same => all record (by simp) unaddressed same⟩

/-- A node is not. -/
theorem Deleted.node {fails : Uuid → Bool} {db : CfgDb} {before ddb : Ddb}
    {seen : List NodeId} {record : NodeId} (deleted : Deleted fails db before seen ddb)
    (addressed : (db.heap record).addr ≠ 0) :
    Deleted fails db before (seen ++ [record]) ddb := by
  intro uuid
  rw [deleted uuid]
  apply and_congr_right
  intro _
  constructor
  · intro earlier device member isDevice same
    rcases List.mem_append.mp member with before | last
    · exact earlier device before isDevice same
    · rw [List.mem_singleton.mp last] at isDevice
      exact absurd isDevice addressed
  · intro all device member
    exact all device (List.mem_append_left _ member)

/-- One tree: the traversal visits the records that it comes to, and deletes the devices among
them.  By induction on the records that are left. -/
theorem loadListsDdb_eq {fails : Uuid → Bool} {db : CfgDb} {before : Ddb}
    {records : List NodeId}
    (present : ∀ record ∈ records, (db.heap record).addr ≠ 0 →
      before.has (db.heap record).uuid = true) :
    ∀ (seen : List NodeId) (ddb : Ddb) (lists : Lists), Deleted fails db before seen ddb →
      ∃ stopped ddb', loadListsDdb fails db records ddb lists =
          (stopped, ddb', (comesTo fails db seen records).foldl (loadRecord db) lists) ∧
        Deleted fails db before (seen ++ comesTo fails db seen records) ddb' := by
  induction records with
  | nil =>
      intro seen ddb lists deleted
      exact ⟨false, ddb, rfl, by simpa [comesTo] using deleted⟩
  | cons record rest hypothesis =>
      intro seen ddb lists deleted
      have later := hypothesis fun other member =>
        present other (List.mem_cons_of_mem record member)
      by_cases unaddressed : (db.heap record).addr = 0
      · have goesOn : ¬ ∃ device ∈ seen, Spoils fails db device record :=
          fun ⟨device, _, spoils⟩ => spoils.2.1 unaddressed
        have next := deleted.device unaddressed
        obtain ⟨stopped, ddb', isRest, kept⟩ :=
          later (seen ++ [record]) _ (loadUnprov db record lists) next
        refine ⟨stopped, ddb', ?_, ?_⟩
        · simp only [loadListsDdb, if_pos unaddressed, isRest, comesTo, if_neg goesOn,
            List.foldl_cons, loadRecord]
        · simpa [comesTo, goesOn] using kept
      · have own := present record List.mem_cons_self unaddressed
        by_cases spoiled : ∃ device ∈ seen, Spoils fails db device record
        · have gone : ddb.has (db.heap record).uuid ≠ true := by
            intro has
            obtain ⟨device, member, isDevice, _, same, succeeds⟩ := spoiled
            have failing := ((deleted _).mp has).2 device member isDevice same
            rw [same] at succeeds
            rw [succeeds] at failing
            cases failing
          refine ⟨true, ddb, ?_, ?_⟩
          · simp only [loadListsDdb, if_neg unaddressed, if_neg gone, comesTo, if_pos spoiled,
              List.foldl_nil]
          · simpa [comesTo, spoiled] using deleted
        · have has : ddb.has (db.heap record).uuid = true := by
            apply (deleted _).mpr
            refine ⟨own, ?_⟩
            intro device member isDevice same
            by_contra succeeds
            apply spoiled
            exact ⟨device, member, isDevice, unaddressed, same,
              by rw [same]; exact Bool.eq_false_of_not_eq_true succeeds⟩
          have next := deleted.node unaddressed
          obtain ⟨stopped, ddb', isRest, kept⟩ :=
            later (seen ++ [record]) _ (loadNodeLists db record lists) next
          refine ⟨stopped, ddb', ?_, ?_⟩
          · simp only [loadListsDdb, if_neg unaddressed, if_pos has, isRest, comesTo,
              if_neg spoiled, List.foldl_cons, loadRecord]
          · simpa [comesTo, spoiled] using kept

theorem comesTo_leads (fails : Uuid → Bool) (db : CfgDb) (records : List NodeId) :
    ∀ seen, comesTo fails db seen records <+: records := by
  induction records with
  | nil => exact fun _ => List.prefix_refl []
  | cons record rest hypothesis =>
      intro seen
      unfold comesTo
      split
      · exact List.nil_prefix
      · exact List.prefix_cons_inj record |>.mpr (hypothesis (seen ++ [record]))

/-! ## The records of the two trees -/

/-- The records of the trees that `cfg_load_mnglists` traverses, in its order. -/
def CfgDb.listed (db : CfgDb) : List NodeId := db.unprovDevs.values ++ db.nodes.values

theorem CfgDb.visited_sublist (fails : Uuid → Bool) (db : CfgDb) :
    (db.visited fails).Sublist db.listed :=
  (comesTo_leads fails db _ _).sublist.append (comesTo_leads fails db _ _).sublist

/-- The lists that `mng_load_lists` leaves are those of some of the records. -/
theorem lists_mngLoadLists {inDdb : Uuid → Bool} {mng : Mng} (past : mng.state.Past) :
    ∃ taken : List NodeId, taken.Sublist mng.db.listed ∧
      (mngLoadLists inDdb mng).lists = taken.foldl (loadRecord mng.db) Lists.empty := by
  obtain ⟨devices, first, isFirst⟩ :=
    loadLists_eq inDdb mng.db mng.db.unprovDevs.values Lists.empty
  obtain ⟨nodes, second, isSecond⟩ := loadLists_eq inDdb mng.db mng.db.nodes.values
    (devices.foldl (loadRecord mng.db) Lists.empty)
  refine ⟨devices ++ nodes, first.sublist.append second.sublist, ?_⟩
  rw [List.foldl_append, ← isSecond, ← isFirst]
  unfold mngLoadLists
  split
  · rename_i isNil
    exact absurd isNil past.1
  · rename_i isInitialized
    exact absurd isInitialized past.2
  · rfl

/-- A record is in one tree, and there once.  Otherwise the traversals would come to it twice,
and put it in two lists. -/
def CfgDb.OneTree (db : CfgDb) : Prop :=
  ∀ {first second record}, db.get first = some record → db.get second = some record →
    first = second

theorem CfgDb.mem_listed {db : CfgDb} {record : NodeId} :
    record ∈ db.listed ↔ ∃ spot, spot.tree ≠ .backlog ∧ db.get spot = some record := by
  unfold CfgDb.listed
  rw [List.mem_append]
  constructor
  · rintro (device | node)
    · obtain ⟨uuid, found⟩ := CfgDb.mem_values device
      exact ⟨.unprovDevs uuid, by rintro ⟨⟩, found⟩
    · obtain ⟨addr, found⟩ := CfgDb.mem_values node
      exact ⟨.nodes addr, by rintro ⟨⟩, found⟩
  · rintro ⟨spot, apart, found⟩
    cases spot with
    | unprovDevs uuid => exact .inl (CfgDb.mem_values_of_getElem? found)
    | nodes addr => exact .inr (CfgDb.mem_values_of_getElem? found)
    | backlog uuid => exact absurd rfl apart

/-- A tree in which distinct keys lead to distinct records lists each record once. -/
theorem CfgDb.nodup_values {Key : Type} {order : Key → Key → Ordering} [Std.TransCmp order]
    [Std.LawfulEqCmp order] {tree : Std.TreeMap Key NodeId order}
    (apart : ∀ {first second : Key} {record}, tree[first]? = some record →
      tree[second]? = some record → first = second) : tree.values.Nodup := by
  rw [CfgDb.values_eq_toList, List.Nodup, List.pairwise_map]
  apply List.Pairwise.imp_of_mem _ Std.TreeMap.distinct_keys_toList
  rintro ⟨one, first⟩ ⟨two, second⟩ isFirst isSecond different same
  dsimp only at same
  subst same
  have equal := apart (Std.TreeMap.mem_toList_iff_getElem?_eq_some.mp isFirst)
    (Std.TreeMap.mem_toList_iff_getElem?_eq_some.mp isSecond)
  exact different (by rw [equal]; exact Std.ReflCmp.compare_self)

/-- A record that stands at one place of the two trees is listed once. -/
theorem CfgDb.nodup_listed {db : CfgDb}
    (oneSpot : ∀ {first second : Spot} {record}, first.tree ≠ .backlog →
      second.tree ≠ .backlog → db.get first = some record → db.get second = some record →
      first = second) : db.listed.Nodup := by
  unfold CfgDb.listed
  apply List.nodup_append.mpr
  refine ⟨CfgDb.nodup_values ?_, CfgDb.nodup_values ?_, ?_⟩
  · intro first second record one two
    exact Spot.unprovDevs.inj
      (@oneSpot (.unprovDevs first) (.unprovDevs second) record (nomatch ·) (nomatch ·) one two)
  · intro first second record one two
    exact Spot.nodes.inj
      (@oneSpot (.nodes first) (.nodes second) record (nomatch ·) (nomatch ·) one two)
  · rintro device isDevice node isNode rfl
    obtain ⟨uuid, one⟩ := CfgDb.mem_values isDevice
    obtain ⟨addr, two⟩ := CfgDb.mem_values isNode
    cases @oneSpot (.unprovDevs uuid) (.nodes addr) device (nomatch ·) (nomatch ·) one two

theorem CfgDb.OneTree.nodup_listed {db : CfgDb} (oneTree : db.OneTree) : db.listed.Nodup :=
  CfgDb.nodup_listed fun _ _ => oneTree

/-!
## The order of a list that is filled at both ends

Nodes with the wrong bits are put in front, the others behind.  The order that results is that of
a list with its front reversed.
-/

/-- An element that is put between two lists. -/
theorem pairwise_between_iff {α : Type} {follows : α → α → Prop} {before behind : List α}
    {value : α} :
    (before ++ value :: behind).Pairwise follows ↔
      ((∀ other ∈ before, follows other value) ∧ ∀ other ∈ behind, follows value other) ∧
        (before ++ behind).Pairwise follows := by
  rw [List.pairwise_append, List.pairwise_cons, List.pairwise_append]
  constructor
  · rintro ⟨first, ⟨next, rest⟩, apart⟩
    exact ⟨⟨fun other member => apart other member value List.mem_cons_self, next⟩,
      first, rest, fun one isOne two isTwo => apart one isOne two (List.mem_cons_of_mem _ isTwo)⟩
  · rintro ⟨⟨own, next⟩, first, rest, apart⟩
    refine ⟨first, ⟨next, rest⟩, ?_⟩
    intro one isOne two isTwo
    rcases List.mem_cons.mp isTwo with rfl | later
    · exact own one isOne
    · exact apart one isOne two later

/-- What is put in front stands in reverse order, before the rest.  By induction on the list:
the first element stands behind those in front and before the others, wherever it is put. -/
theorem pairwise_fronted_iff {α : Type} (keep front low : α → Bool) (values : List α) :
    ((values.filter fun value => keep value && front value).reverse ++
        values.filter fun value => keep value && !front value).Pairwise
        (fun first later => low later = true → low first = true) ↔
      values.Pairwise fun first later => keep first = true → keep later = true →
        low first ≠ low later → front later = low later := by
  induction values with
  | nil => exact iff_of_true .nil .nil
  | cons value rest hypothesis =>
      rw [List.pairwise_cons, ← hypothesis]
      by_cases kept : keep value = true
      · have split_ : (∀ later ∈ rest, keep value = true → keep later = true →
              low value ≠ low later → front later = low later) ↔
            (∀ other ∈ rest.filter fun value => keep value && front value,
              low value = true → low other = true) ∧
            ∀ other ∈ rest.filter fun value => keep value && !front value,
              low other = true → low value = true := by
          simp only [List.mem_filter, Bool.and_eq_true, Bool.not_eq_true', and_imp]
          constructor
          · intro right
            refine ⟨?_, ?_⟩
            · intro other member isKept isFront isLow
              by_contra high
              have own := right other member kept isKept (by rw [isLow]; exact Ne.symm high)
              exact high (own.symm.trans isFront)
            · intro other member isKept isBack isLow
              by_contra high
              have own := right other member kept isKept (by rw [isLow]; exact high)
              rw [isLow, isBack] at own
              cases own
          · rintro ⟨before, behind⟩ later member _ isKept apart
            cases isFront : front later with
            | true =>
                cases isLow : low value with
                | true => exact (before later member isKept isFront isLow).symm
                | false =>
                    rw [isLow] at apart
                    exact (Bool.eq_true_of_not_eq_false (Ne.symm apart)).symm
            | false =>
                by_contra isLow
                have low' := Bool.eq_true_of_not_eq_false (Ne.symm isLow)
                exact apart ((behind later member isKept isFront low').trans low'.symm)
        rw [split_]
        cases isFront : front value with
        | true =>
            rw [List.filter_cons_of_pos (by simp [kept, isFront]),
              List.filter_cons_of_neg (by simp [isFront]), List.reverse_cons, List.append_assoc,
              List.singleton_append, pairwise_between_iff]
            simp only [List.mem_reverse]
        | false =>
            rw [List.filter_cons_of_neg (by simp [isFront]),
              List.filter_cons_of_pos (by simp [kept, isFront]), pairwise_between_iff]
            simp only [List.mem_reverse]
      · rw [List.filter_cons_of_neg (by simp [kept]), List.filter_cons_of_neg (by simp [kept])]
        constructor
        · intro right
          exact ⟨fun _ _ own => absurd own kept, right⟩
        · exact fun both => both.2

/-!
## The lists

The four lists are right when each holds the records of its kind once, and low power nodes stand
first among those to remove.
-/

/-- A part of a list that has all the elements that a test selects. -/
theorem filter_of_sublist {α : Type} {part whole : List α} {test : α → Bool}
    (inside : part.Sublist whole) (distinct : whole.Nodup)
    (all : ∀ value ∈ whole, test value = true → value ∈ part) :
    part.filter test = whole.filter test := by
  apply (inside.filter test).eq_of_length_le
  apply List.Nodup.length_le_of_subset (distinct.filter test)
  intro value member
  obtain ⟨listed, selected⟩ := List.mem_filter.mp member
  exact List.mem_filter.mpr ⟨all value listed selected, selected⟩

/-- The lists hold the records that belong to them, each once, and the low power nodes to
remove come first. -/
structure WorkLists (db : CfgDb) (lists : Lists) : Prop where
  add : ∀ record, record ∈ lists.add ↔ record ∈ db.listed ∧
    (db.heap record).addr = 0 ∧ (db.heap record).rmorbl = 0
  bl : ∀ record, record ∈ lists.bl ↔ record ∈ db.listed ∧
    (db.heap record).addr ≠ 0 ∧ (db.heap record).rmorbl &&& blBitmask ≠ 0
  rm : ∀ record, record ∈ lists.rm ↔ record ∈ db.listed ∧
    (db.heap record).addr ≠ 0 ∧ (db.heap record).rmorbl &&& rmBitmask ≠ 0 ∧
      (db.heap record).rmorbl &&& blBitmask = 0
  config : ∀ record, record ∈ lists.config ↔ record ∈ db.listed ∧
    (db.heap record).addr ≠ 0 ∧ (db.heap record).rmorbl &&& blBitmask = 0 ∧
      (db.heap record).rmorbl &&& rmBitmask = 0 ∧ (db.heap record).done = 0
  once : (lists.add ++ lists.bl ++ lists.rm ++ lists.config).Nodup
  lowPowerFirst : lists.rm.Pairwise fun first later =>
    (db.heap later).lowPower = true → (db.heap first).lowPower = true

/-- The traversals come to every record that waits, and of two nodes to remove, one of them low
power, the one that is visited later has a bit of the mask exactly when it is the low power
one. -/
structure WorkReady (fails : Uuid → Bool) (db : CfgDb) : Prop where
  reached : ∀ record ∈ db.listed, (db.heap record).waits = true → record ∈ db.visited fails
  ordered : db.listed.Pairwise fun first later =>
    (db.heap first).toRemove = true → (db.heap later).toRemove = true →
      (db.heap first).lowPower ≠ (db.heap later).lowPower →
      (db.heap later).prepended = (db.heap later).lowPower

/-- What `mng_load_lists` lists, when the NCP has every node. -/
theorem lists_loadLists {fails : Uuid → Bool} {state : DdbState}
    (past : state.host.mng.state.Past)
    (present : ∀ record ∈ state.host.mng.db.listed, (state.host.mng.db.heap record).addr ≠ 0 →
      state.ddb.has (state.host.mng.db.heap record).uuid = true) :
    (state.loadLists fails).host.mng.lists =
      (state.host.mng.db.visited fails).foldl (loadRecord state.host.mng.db) Lists.empty := by
  have start : Deleted fails state.host.mng.db state.ddb [] state.ddb := by
    intro uuid
    simp
  obtain ⟨stopped, ddb, first, deleted⟩ := loadListsDdb_eq
    (fun record member => present record (List.mem_append_left _ member)) [] state.ddb
    Lists.empty start
  obtain ⟨again, ddb', second, _⟩ := loadListsDdb_eq
    (fun record member => present record (List.mem_append_right _ member))
    (comesTo fails state.host.mng.db [] state.host.mng.db.unprovDevs.values) ddb
    ((comesTo fails state.host.mng.db [] state.host.mng.db.unprovDevs.values).foldl
      (loadRecord state.host.mng.db) Lists.empty) deleted
  unfold DdbState.loadLists
  split
  · rename_i isNil
    exact absurd isNil past.1
  · rename_i isInitialized
    exact absurd isInitialized past.2
  · simp only [first, second, CfgDb.visited, List.foldl_append]
    rfl

theorem CfgDb.mem_select {db : CfgDb} {test : Node → Bool} {records : List NodeId}
    {record : NodeId} :
    record ∈ db.select test records ↔ record ∈ records ∧ test (db.heap record) = true :=
  List.mem_filter

/-- Two tests that no node passes both select different records. -/
theorem CfgDb.select_apart {db : CfgDb} {one two : Node → Bool} {records : List NodeId}
    (apart : ∀ node, one node = true → two node = true → False) :
    ∀ first ∈ db.select one records, ∀ second ∈ db.select two records, first ≠ second := by
  rintro first isFirst second isSecond rfl
  exact apart (db.heap first) (CfgDb.mem_select.mp isFirst).2 (CfgDb.mem_select.mp isSecond).2

/-- The removals, those that are put at the head before those at the end. -/
theorem nodup_removals {db : CfgDb} {records : List NodeId} (distinct : records.Nodup) :
    ((db.select (fun node => node.toRemove && node.prepended) records).reverse ++
      db.select (fun node => node.toRemove && !node.prepended) records).Nodup := by
  apply List.nodup_append.mpr
  refine ⟨List.nodup_reverse.mpr (distinct.filter _), distinct.filter _, ?_⟩
  intro first isFirst
  apply CfgDb.select_apart (fun node => ?_) first (List.mem_reverse.mp isFirst)
  cases node.prepended <;> simp

theorem mem_removals {db : CfgDb} {records : List NodeId} {record : NodeId}
    (member : record ∈
      (db.select (fun node => node.toRemove && node.prepended) records).reverse ++
        db.select (fun node => node.toRemove && !node.prepended) records) :
    record ∈ db.select Node.toRemove records := by
  simp only [List.mem_append, List.mem_reverse, CfgDb.mem_select,
    Bool.and_eq_true] at member ⊢
  rcases member with front | back
  · exact ⟨front.1, front.2.1⟩
  · exact ⟨back.1, back.2.1⟩

/-- Each record is put on one list at most. -/
theorem nodup_foldl_loadRecord {db : CfgDb} {records : List NodeId} (distinct : records.Nodup) :
    ((records.foldl (loadRecord db) Lists.empty).add ++
      (records.foldl (loadRecord db) Lists.empty).bl ++
      (records.foldl (loadRecord db) Lists.empty).rm ++
      (records.foldl (loadRecord db) Lists.empty).config).Nodup := by
  rw [foldl_loadRecord]
  simp only [Lists.empty, List.nil_append, List.append_nil]
  have once : ∀ test, (db.select test records).Nodup := fun test => distinct.filter _
  apply List.nodup_append.mpr
  refine ⟨List.nodup_append.mpr ⟨List.nodup_append.mpr ⟨once _, once _, ?_⟩,
    nodup_removals distinct, ?_⟩, once _, ?_⟩
  · exact CfgDb.select_apart fun node => by
      simp +contextual [Node.toAdd, Node.toBlacklist]
  · intro first member second isSecond
    rcases List.mem_append.mp member with add | black
    · exact CfgDb.select_apart (fun node => by simp +contextual [Node.toAdd, Node.toRemove])
        first add second (mem_removals isSecond)
    · exact CfgDb.select_apart
        (fun node => by simp +contextual [Node.toBlacklist, Node.toRemove])
        first black second (mem_removals isSecond)
  · intro first member second isSecond
    rcases List.mem_append.mp member with rest | isMarked
    · rcases List.mem_append.mp rest with add | black
      · exact CfgDb.select_apart
          (fun node => by simp +contextual [Node.toAdd, Node.toConfigure])
          first add second isSecond
      · exact CfgDb.select_apart
          (fun node => by simp +contextual [Node.toBlacklist, Node.toConfigure])
          first black second isSecond
    · exact CfgDb.select_apart
        (fun node => by simp +contextual [Node.toRemove, Node.toConfigure])
        first (mem_removals isMarked) second isSecond

/-- The lists over all records of the trees are right if they are in order. -/
theorem workLists_listed {db : CfgDb} (distinct : db.listed.Nodup) :
    WorkLists db (db.listed.foldl (loadRecord db) Lists.empty) ↔
      db.listed.Pairwise fun first later =>
        (db.heap first).toRemove = true → (db.heap later).toRemove = true →
          (db.heap first).lowPower ≠ (db.heap later).lowPower →
          (db.heap later).prepended = (db.heap later).lowPower := by
  rw [← pairwise_fronted_iff (fun record => (db.heap record).toRemove)
    (fun record => (db.heap record).prepended) (fun record => (db.heap record).lowPower),
    foldl_loadRecord]
  simp only [Lists.empty, List.nil_append, List.append_nil]
  constructor
  · intro lists
    exact lists.lowPowerFirst
  · intro ordered
    refine ⟨?_, ?_, ?_, ?_, ?_, ordered⟩
    · intro record
      rw [CfgDb.mem_select]
      simp [Node.toAdd]
    · intro record
      rw [CfgDb.mem_select]
      simp [Node.toBlacklist]
    · intro record
      rw [List.mem_append, List.mem_reverse, CfgDb.mem_select, CfgDb.mem_select]
      cases (db.heap record).prepended <;> simp [Node.toRemove]
    · intro record
      rw [CfgDb.mem_select]
      simp [Node.toConfigure]
    · have once := @nodup_foldl_loadRecord db _ distinct
      rw [foldl_loadRecord] at once
      simpa only [Lists.empty, List.nil_append, List.append_nil] using once

/-- A record that waits is on one of the lists, when these are right. -/
theorem listed_of_waits {db : CfgDb} {lists : Lists} {record : NodeId}
    (right : WorkLists db lists) (member : record ∈ db.listed)
    (waits : (db.heap record).waits = true) :
    record ∈ lists.add ++ lists.bl ++ lists.rm ++ lists.config := by
  simp only [List.mem_append, right.add, right.bl, right.rm, right.config, member, true_and]
  simpa [Node.waits, Node.toAdd, Node.toBlacklist, Node.toRemove, Node.toConfigure] using waits

/-- Only the records that wait matter. -/
theorem foldl_of_reached {fails : Uuid → Bool} {db : CfgDb} (distinct : db.listed.Nodup)
    (reached : ∀ record ∈ db.listed, (db.heap record).waits = true →
      record ∈ db.visited fails) :
    (db.visited fails).foldl (loadRecord db) Lists.empty =
      db.listed.foldl (loadRecord db) Lists.empty := by
  have same : ∀ test : Node → Bool, (∀ node, test node = true → node.waits = true) →
      db.select test (db.visited fails) = db.select test db.listed := by
    intro test waits
    exact filter_of_sublist (db.visited_sublist fails) distinct
      fun record member selected => reached record member (waits _ selected)
  rw [foldl_loadRecord, foldl_loadRecord, same _ (by simp +contextual [Node.waits]),
    same _ (by simp +contextual [Node.waits]), same _ (by simp +contextual [Node.waits]),
    same _ (by simp +contextual [Node.waits]), same _ (by simp +contextual [Node.waits])]

/-- When the NCP has every node and each record is in one tree, the lists are right exactly when
the traversals come to all that waits and the mask does not break the order.  The order of the
removals puts low power nodes behind the others, but is decided by a mask with the wrong bits. -/
theorem work_lists_iff {fails : Uuid → Bool} {state : DdbState}
    (past : state.host.mng.state.Past) (oneTree : state.host.mng.db.OneTree)
    (present : ∀ record ∈ state.host.mng.db.listed, (state.host.mng.db.heap record).addr ≠ 0 →
      state.ddb.has (state.host.mng.db.heap record).uuid = true) :
    WorkLists state.host.mng.db (state.loadLists fails).host.mng.lists ↔
      WorkReady fails state.host.mng.db := by
  rw [lists_loadLists past present]
  have distinct := oneTree.nodup_listed
  constructor
  · intro lists
    have reached : ∀ record ∈ state.host.mng.db.listed,
        (state.host.mng.db.heap record).waits = true →
        record ∈ state.host.mng.db.visited fails := by
      intro record member waits
      have found := listed_of_waits lists member waits
      rw [foldl_loadRecord] at found
      simp only [Lists.empty, List.nil_append, List.append_nil, List.mem_append,
        List.mem_reverse, CfgDb.mem_select] at found
      rcases found with ((there | there) | (there | there)) | there <;> exact there.1
    rw [foldl_of_reached distinct reached] at lists
    exact ⟨reached, (workLists_listed distinct).mp lists⟩
  · intro ready
    rw [foldl_of_reached distinct ready.reached]
    exact (workLists_listed distinct).mpr ready.ordered

/-! ## Two nodes to remove -/

/-- A node to remove, with its features. -/
def Node.leaving (addr : UInt16) (target : BitVec 16) : Node :=
  { Node.plain addr with
    uuid := Vector.replicate 16 addr.toUInt8
    rmorbl := rmBitmask
    config := { Node.zeroed.config with
      features := { target := target, current := target, relayTxp := none } } }

/-- Two nodes under their addresses. -/
def CfgDb.twoNodes (first second : Node) : CfgDb :=
  ({ CfgDb.cfgdbInit with
    heap := fun record => if record = 0 then first else second
    next := 2 }.set (.nodes first.addr) 0).set (.nodes second.addr) 1

theorem CfgDb.get_twoNodes {first second : Node} {spot : Spot} {record : NodeId}
    (held : (CfgDb.twoNodes first second).get spot = some record) :
    (spot = .nodes second.addr ∧ record = 1) ∨ (spot = .nodes first.addr ∧ record = 0) := by
  rw [twoNodes, get_set, get_set] at held
  split at held
  · rename_i same
    exact .inl ⟨same.symm, (Option.some.inj held).symm⟩
  · split at held
    · rename_i same
      exact .inr ⟨same.symm, (Option.some.inj held).symm⟩
    · have empty := CfgDb.get_cfgdbInit spot
      cases spot <;> cases held.symm.trans empty

theorem CfgDb.oneTree_twoNodes (first second : Node) : (CfgDb.twoNodes first second).OneTree := by
  intro spot other record one two
  rcases get_twoNodes one with ⟨rfl, rfl⟩ | ⟨rfl, rfl⟩ <;>
    rcases get_twoNodes two with ⟨rfl, same⟩ | ⟨rfl, same⟩
  · rfl
  · cases same
  · cases same
  · rfl

/-- A manager that has configured the network, with two nodes that the NCP has. -/
def DdbState.twoNodes (first second : Node) : DdbState where
  host :=
    { mng := (Mng.sampleConfigured).setDb (.twoNodes first second)
      nw := .zeroed
      file := editedFile [] }
  ddb := [(first.uuid, first.addr), (second.uuid, second.addr)]
  reports := []
  outOfSync := false

theorem DdbState.present_twoNodes (first second : Node) :
    ∀ record ∈ (DdbState.twoNodes first second).host.mng.db.listed,
      ((DdbState.twoNodes first second).host.mng.db.heap record).addr ≠ 0 →
      (DdbState.twoNodes first second).ddb.has
        ((DdbState.twoNodes first second).host.mng.db.heap record).uuid = true := by
  intro record member _
  obtain ⟨spot, _, held⟩ := CfgDb.mem_listed.mp member
  rcases CfgDb.get_twoNodes held with ⟨_, rfl⟩ | ⟨_, rfl⟩
  · exact List.any_eq_true.mpr ⟨(second.uuid, second.addr), by simp [DdbState.twoNodes],
      decide_eq_true rfl⟩
  · exact List.any_eq_true.mpr ⟨(first.uuid, first.addr), by simp [DdbState.twoNodes],
      decide_eq_true rfl⟩

/-- The node that is visited later is low power, and a proxy as well. -/
theorem work_lists_iff_proxy :
    ((DdbState.twoNodes (.leaving 2 0) (.leaving 3 0xA)).loadLists fun _ =>
        false).host.mng.lists.rm = [1, 0] ∧
      (WorkLists (DdbState.twoNodes (.leaving 2 0) (.leaving 3 0xA)).host.mng.db
        ((DdbState.twoNodes (.leaving 2 0) (.leaving 3 0xA)).loadLists fun _ =>
          false).host.mng.lists ↔
        WorkReady (fun _ => false)
          (DdbState.twoNodes (.leaving 2 0) (.leaving 3 0xA)).host.mng.db) :=
  ⟨by decide +kernel,
    work_lists_iff ⟨by rintro ⟨⟩, by rintro ⟨⟩⟩ (CfgDb.oneTree_twoNodes _ _)
      (DdbState.present_twoNodes _ _)⟩

/-- A relay is listed before a low power node. -/
theorem relay_before_low_power :
    ¬ ∀ (fails : Uuid → Bool) (state : DdbState), state.host.mng.state.Past →
      state.host.mng.db.OneTree →
      (∀ record ∈ state.host.mng.db.listed, (state.host.mng.db.heap record).addr ≠ 0 →
        state.ddb.has (state.host.mng.db.heap record).uuid = true) →
      WorkLists state.host.mng.db (state.loadLists fails).host.mng.lists := by
  intro claim
  have lists := claim (fun _ => false) (.twoNodes (.leaving 2 1) (.leaving 3 8))
    ⟨by rintro ⟨⟩, by rintro ⟨⟩⟩ (CfgDb.oneTree_twoNodes _ _) (DdbState.present_twoNodes _ _)
  have order : ((DdbState.twoNodes (.leaving 2 1) (.leaving 3 8)).loadLists fun _ =>
      false).host.mng.lists.rm = [0, 1] := by decide +kernel
  have first := lists.lowPowerFirst
  rw [order] at first
  revert first
  decide +kernel

end Nwmng
