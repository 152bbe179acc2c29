/-
Module: Nwmng.Cfg.FactoryReset
Purpose: When a factory reset is complete: no address and no progress is left, in memory or
in the files, and everything else is as before.
Trusted boundary: none
Main exports:
  EntryReset, NodesReset, KeysReset, ProvReset, BacklogApart, factory_reset_complete_iff
-/
import Nwmng.Cfg.CfgRuns
import Nwmng.Cfg.EntryCheck

namespace Nwmng

open Json Fallible Transition

/-! ## The entries -/

/-- The numbers of an entry that a reset writes. -/
def entryNumbers : List String := [strAddr, strErrbits, strRmorbl, strFunc, strDone]

/-- The entry of a device that is not provisioned, and on which nothing was done.  It is judged
by the numbers that the loader would read, not by how they are written. -/
structure EntryCleared (item : Value) : Prop where
  addr : memberUint UInt16.ofNat item strAddr = .ok (some 0)
  err : memberUint (BitVec.ofNat 32) item strErrbits = .ok (some 0)
  rmorbl : memberUint UInt8.ofNat item strRmorbl = .ok (some 0)
  func : memberUint (BitVec.ofNat 8) item strFunc = .ok (some 0)
  done : memberUint UInt8.ofNat item strDone = .ok (some 0)

/-- The numbers of an entry are cleared, and the other members are as before. -/
structure EntryReset (item item' : Value) : Prop where
  cleared : EntryCleared item'
  beside : ∀ name, name ∉ entryNumbers → item'.get name = item.get name

theorem clrctlEntry_resets {item item' : Value} (clears : clrctlEntry item = .ok item') :
    EntryReset item item' := by
  have zero : str2uint "0x00".toList = .ok (some 0) := str2uint_uint8ToStr 0
  have zeroWord : str2uint "0x0000".toList = .ok (some 0) := str2uint_uint16ToStr 0
  have zeroLong : str2uint "0x00000000".toList = .ok (some 0) := str2uint_uint32ToStr 0
  unfold clrctlEntry at clears
  split at clears
  · rename_i isObject
    cases clears
    have stays : ∀ (key : String) (text : List Char) (obj : Value), obj.isObject = true →
        (kvReplace key text obj).isObject = true := by
      intro key text obj before
      rw [kvReplace, Value.isObject_set]
      exact before
    have first := stays strAddr "0x0000".toList item isObject
    have second := stays strErrbits "0x00000000".toList _ first
    have third := stays strRmorbl "0x00".toList _ second
    have fourth := stays strFunc "0x00".toList _ third
    refine ⟨⟨?_, ?_, ?_, ?_, memberUint_kvReplace fourth strDone zero⟩, ?_⟩
    · rw [memberUint_kvReplace_other (of_decide_eq_true rfl),
        memberUint_kvReplace_other (of_decide_eq_true rfl),
        memberUint_kvReplace_other (of_decide_eq_true rfl),
        memberUint_kvReplace_other (of_decide_eq_true rfl)]
      exact memberUint_kvReplace isObject strAddr zeroWord
    · rw [memberUint_kvReplace_other (of_decide_eq_true rfl),
        memberUint_kvReplace_other (of_decide_eq_true rfl),
        memberUint_kvReplace_other (of_decide_eq_true rfl)]
      exact memberUint_kvReplace first strErrbits zeroLong
    · rw [memberUint_kvReplace_other (of_decide_eq_true rfl),
        memberUint_kvReplace_other (of_decide_eq_true rfl)]
      exact memberUint_kvReplace second strRmorbl zero
    · rw [memberUint_kvReplace_other (of_decide_eq_true rfl)]
      exact memberUint_kvReplace third strFunc zero
    · intro name other
      simp only [entryNumbers, List.mem_cons, List.not_mem_nil, or_false, not_or] at other
      obtain ⟨notAddr, notErr, notRmorbl, notFunc, notDone⟩ := other
      calc
        _ = _ := Value.get_set_other notDone _ _
        _ = _ := Value.get_set_other notFunc _ _
        _ = _ := Value.get_set_other notRmorbl _ _
        _ = _ := Value.get_set_other notErr _ _
        _ = item.get name := Value.get_set_other notAddr _ _
  · cases clears

theorem EntryReset.uuid {item item' : Value} (reset : EntryReset item item') :
    entryUuid item' = entryUuid item :=
  entryUuid_congr (reset.beside strUuid (by decide))

/-!
## The nodes are loaded again

A reset rewrites the entries and then loads the file to trees that were emptied.  What the
records hold in the end is therefore a matter of this one load, over entries that were all
cleared.
-/

/-- The record of a device that is not provisioned, and on which nothing was done.  The
configuration is not part of it: a reset forgets the progress, and keeps what is asked for. -/
structure NodeCleared (node : Node) (uuid : Uuid) : Prop where
  uuid : node.uuid = uuid
  addr : node.addr = 0
  err : node.err = 0
  rmorbl : node.rmorbl = 0
  func : node.func = 0
  done : node.done = 0

/-- An entry that was cleared is not read, or it is read as such. -/
theorem EntryCleared.parses {item : Value} (cleared : EntryCleared item) {fresh : UInt64}
    {parsed : Option NodeEntry} (parses : parseEntry fresh item = .ok parsed) :
    (parsed = none ∧ entryUuid item = none) ∨
      ∃ entry, parsed = some entry ∧ entryUuid item = some entry.uuid ∧ entry.addr = 0 ∧
        ∀ config node,
          NodeCleared (({ entry with config := config } : NodeEntry).fill node) entry.uuid := by
  rcases complete_of_parses parses with ⟨isNone, incomplete⟩ | ⟨entry, isSome, own⟩
  · left
    refine ⟨isNone, ?_⟩
    by_contra present
    obtain ⟨uuid, reads⟩ := Option.ne_none_iff_exists'.mp present
    let entry : NodeEntry :=
      { uuid := uuid, addr := 0, done := 0, rmorbl := 0
        err := 0, func := 0, tmpl := .absent, config := id }
    exact incomplete ⟨entry,
      ⟨cleared.addr, reads, cleared.rmorbl, cleared.done, cleared.err, cleared.func⟩⟩
  · right
    have same {α : Type} {first second : α} {read : Except Abort (Option α)}
        (one : read = .ok (some first)) (two : read = .ok (some second)) : first = second :=
      Option.some.inj (Except.ok.inj (one.symm.trans two))
    refine ⟨entry, isSome, own.uuid, same own.addr cleared.addr, fun config node => ?_⟩
    exact ⟨rfl, same own.addr cleared.addr, same own.err cleared.err,
      same own.rmorbl cleared.rmorbl, same own.func cleared.func, same own.done cleared.done⟩

/-- During the load of entries that were cleared, to trees that were emptied.  The last
fact is about a UUID that no other entry has. -/
structure ClearedLoad (templates : Templates) (db : CfgDb) (loaded : List Value) : Prop where
  allotted : Allotted db
  noNodes : ∀ addr, db.get (.nodes addr) = none
  own : ∀ uuid record, db.get (.unprovDevs uuid) = some record →
    NodeCleared (db.heap record) uuid ∧ ∃ item ∈ loaded, entryUuid item = some uuid
  held : ∀ item ∈ loaded, ∀ uuid, entryUuid item = some uuid →
    ∃ record, db.get (.unprovDevs uuid) = some record
  config : ∀ (index : Nat) (item : Value) (uuid : Uuid) (record : NodeId),
    loaded[index]? = some item → entryUuid item = some uuid →
    (∀ (other : Nat) (item' : Value), loaded[other]? = some item' →
      entryUuid item' = some uuid → other = index) →
    db.get (.unprovDevs uuid) = some record →
    ∃ fresh node, loadToNodeItem templates fresh item .zeroed = .ok node ∧
      (db.heap record).config = node.config

/-! ### One round

An entry without a UUID is passed over.  Any other is written to the record that is kept under
its UUID among the unprovisioned devices, or to a new one, which joins them. -/

/-- A place of an array that has become longer by one item. -/
theorem concat_place {α : Type} {items : List α} {item found : α} {index : Nat}
    (inside : (items ++ [item])[index]? = some found) :
    items[index]? = some found ∨ index = items.length ∧ found = item := by
  rcases Nat.lt_trichotomy index items.length with less | same | more
  · rw [List.getElem?_append_left less] at inside
    exact .inl inside
  · rw [same, List.getElem?_concat_length] at inside
    exact .inr ⟨same, (Option.some.inj inside).symm⟩
  · rw [List.getElem?_eq_none] at inside
    · cases inside
    · rw [List.length_append, List.length_singleton]
      omega

theorem concat_keeps {α : Type} {items : List α} (item : α) {found : α} {index : Nat}
    (inside : items[index]? = some found) : (items ++ [item])[index]? = some found := by
  rw [List.getElem?_append_left (List.getElem?_eq_some_iff.mp inside).1]
  exact inside

section Round

variable {templates : Templates} {db after : CfgDb} {loaded : List Value} {item : Value}

theorem ClearedLoad.skip (loading : ClearedLoad templates db loaded)
    (noUuid : entryUuid item = none) : ClearedLoad templates db (loaded ++ [item]) := by
  refine ⟨loading.allotted, loading.noNodes, ?_, ?_, ?_⟩
  · intro uuid record found
    obtain ⟨fresh, source, inside, same⟩ := loading.own uuid record found
    exact ⟨fresh, source, List.mem_append_left _ inside, same⟩
  · intro source inside uuid same
    rcases List.mem_append.mp inside with older | new
    · exact loading.held source older uuid same
    · rw [List.mem_singleton.mp new, noUuid] at same
      cases same
  · intro index source uuid record inside same only found
    rcases concat_place inside with older | ⟨_, rfl⟩
    · exact loading.config index source uuid record older same
        (fun other item' place => only other item' (concat_keeps item place)) found
    · rw [noUuid] at same
      cases same

variable {entry : NodeEntry} {record : NodeId}

theorem home_of_unaddressed (noAddr : entry.addr = 0) :
    homeOf entry.addr entry.uuid = .unprovDevs entry.uuid := by
  unfold homeOf
  rw [if_neg]
  intro addressed
  exact addressed noAddr

/-- The entry of an unprovisioned device changes one place of the trees. -/
theorem Writes.unprov_here (writes : Writes db after entry record) (noAddr : entry.addr = 0) :
    after.get (.unprovDevs entry.uuid) = some record := by
  rw [writes.get, if_pos (home_of_unaddressed noAddr)]

theorem Writes.unprov_elsewhere (writes : Writes db after entry record)
    (noAddr : entry.addr = 0) {spot : Spot} (other : spot ≠ .unprovDevs entry.uuid) :
    after.get spot = db.get spot := by
  rw [writes.get, home_of_unaddressed noAddr, if_neg (Ne.symm other)]

/-- The records of the other devices are not written. -/
theorem ClearedLoad.others (loading : ClearedLoad templates db loaded)
    (placed : Placed db entry record) (writes : Writes db after entry record)
    (noAddr : entry.addr = 0) {uuid : Uuid} {holder : NodeId} (other : uuid ≠ entry.uuid)
    (found : after.get (.unprovDevs uuid) = some holder) :
    db.get (.unprovDevs uuid) = some holder ∧ after.heap holder = db.heap holder := by
  rw [writes.unprov_elsewhere noAddr (fun same => other (Spot.unprovDevs.inj same))] at found
  refine ⟨found, writes.heap_other ?_⟩
  rintro rfl
  rcases placed with held | ⟨_, isNew⟩
  · rw [home_of_unaddressed noAddr] at held
    have one := (loading.own _ _ held).1.uuid
    have two := (loading.own _ _ found).1.uuid
    exact other (two.symm.trans one)
  · rw [isNew] at found
    exact Nat.lt_irrefl _ (loading.allotted.allocated _ _ found)

/-- The first entry with a UUID is loaded to a zeroed record. -/
theorem ClearedLoad.target_of_first (loading : ClearedLoad templates db loaded)
    (noAddr : entry.addr = 0)
    (first : ∀ source ∈ loaded, entryUuid source ≠ some entry.uuid) :
    db.loadTarget entry false = .zeroed := by
  have isNew : db.get (.unprovDevs entry.uuid) = none := by
    by_contra present
    obtain ⟨holder, held⟩ := Option.ne_none_iff_exists'.mp present
    obtain ⟨_, source, member, isSource⟩ := loading.own _ _ held
    exact first source member isSource
  have lookup : entry.lookupSpot false = .unprovDevs entry.uuid := home_of_unaddressed noAddr
  unfold CfgDb.loadTarget
  rw [lookup, isNew]

theorem ClearedLoad.write (loading : ClearedLoad templates db loaded)
    (allotted : Allotted after) (placed : Placed db entry record)
    (writes : Writes db after entry record) (noAddr : entry.addr = 0)
    (isUuid : entryUuid item = some entry.uuid)
    (clears : ∀ node, NodeCleared (entry.fill node) entry.uuid)
    (load : ∃ fresh node,
      loadToNodeItem templates fresh item (db.loadTarget entry false) = .ok node ∧
        ∀ target, (entry.fill target).config = node.config) :
    ClearedLoad templates after (loaded ++ [item]) := by
  have here := writes.unprov_here noAddr
  have elsewhere : ∀ uuid, uuid ≠ entry.uuid →
      after.get (.unprovDevs uuid) = db.get (.unprovDevs uuid) := fun uuid other =>
    writes.unprov_elsewhere noAddr fun same => other (Spot.unprovDevs.inj same)
  refine ⟨allotted, ?_, ?_, ?_, ?_⟩
  · intro addr
    rw [writes.unprov_elsewhere noAddr (by rintro ⟨⟩)]
    exact loading.noNodes addr
  · intro uuid holder found
    by_cases isEntry : uuid = entry.uuid
    · rw [isEntry, here] at found
      cases found
      rw [isEntry, writes.heap_self]
      exact ⟨clears _, item, List.mem_append_right _ (List.mem_singleton.mpr rfl), isUuid⟩
    · obtain ⟨before, same⟩ := loading.others placed writes noAddr isEntry found
      obtain ⟨fresh, source, inside, isSource⟩ := loading.own uuid holder before
      rw [same]
      exact ⟨fresh, source, List.mem_append_left _ inside, isSource⟩
  · intro source inside uuid same
    by_cases isEntry : uuid = entry.uuid
    · rw [isEntry]
      exact ⟨record, here⟩
    · rcases List.mem_append.mp inside with older | new
      · rw [elsewhere uuid isEntry]
        exact loading.held source older uuid same
      · rw [List.mem_singleton.mp new, isUuid] at same
        exact absurd (Option.some.inj same).symm isEntry
  · intro index source uuid holder inside same only found
    rcases concat_place inside with older | ⟨isLast, rfl⟩
    · have isOther : uuid ≠ entry.uuid := by
        rintro rfl
        have last := only loaded.length item List.getElem?_concat_length isUuid
        have less := (List.getElem?_eq_some_iff.mp older).1
        omega
      obtain ⟨before, sameNode⟩ := loading.others placed writes noAddr isOther found
      rw [sameNode]
      exact loading.config index source uuid holder older same
        (fun other item' place => only other item' (concat_keeps item place)) before
    · have isEntry : uuid = entry.uuid := Option.some.inj (same.symm.trans isUuid)
      rw [isEntry, here] at found
      cases found
      have first : ∀ source ∈ loaded, entryUuid source ≠ some entry.uuid := by
        intro source member isSource
        obtain ⟨place, less, isPlace⟩ := List.mem_iff_getElem.mp member
        have found : loaded[place]? = some source := by
          rw [List.getElem?_eq_getElem less, isPlace]
        have last := only place source (concat_keeps _ found) (by rw [isSource, isEntry])
        omega
      obtain ⟨fresh, node, loads, configured⟩ := load
      rw [loading.target_of_first noAddr first] at loads
      rw [writes.heap_self]
      exact ⟨fresh, node, loads, configured _⟩

theorem ClearedLoad.round (loading : ClearedLoad templates db loaded)
    (cleared : EntryCleared item) {fresh : UInt64}
    (done : loadNodeItem templates fresh false item db = .ok after) :
    ClearedLoad templates after (loaded ++ [item]) := by
  have allotted := keptByLoads_allotted.item loading.allotted done
  obtain ⟨parsed, parses, done⟩ := bind_ok.mp done
  rcases cleared.parses parses with ⟨rfl, noUuid⟩ | ⟨entry, rfl, isUuid, noAddr, clears⟩
  · cases done
    exact loading.skip noUuid
  · obtain ⟨node, load, result⟩ := bind_ok.mp done
    have isAfter := (Except.ok.inj result).symm
    let written : NodeEntry := { entry with config := fun _ => node.config }
    have loads : ∃ fresh node,
        loadToNodeItem templates fresh item (db.loadTarget written false) = .ok node ∧
          ∀ target, (written.fill target).config = node.config :=
      ⟨fresh, node, load, fun _ => rfl⟩
    obtain ⟨record, placed, writes⟩ : ∃ record, Placed db written record ∧
        Writes db after written record := by
      rw [isAfter]
      rcases loadNode_writes loading.allotted written with ⟨record, held, writes⟩ |
        ⟨absent, writes⟩
      · exact ⟨record, .inl held, writes⟩
      · exact ⟨db.next, .inr ⟨absent, rfl⟩, writes⟩
    exact loading.write allotted placed writes noAddr isUuid (fun node => clears _ node) loads

end Round

theorem ClearedLoad.array {templates : Templates} {fresh : Nat → UInt64} {index : Nat}
    {rest loaded : List Value} {db after : CfgDb} (loading : ClearedLoad templates db loaded)
    (cleared : ∀ item ∈ rest, EntryCleared item)
    (done : loadNodeArr templates fresh false index rest db = .ok after) :
    ClearedLoad templates after (loaded ++ rest) := by
  induction rest generalizing index loaded db with
  | nil =>
      cases done
      rw [List.append_nil]
      exact loading
  | cons item rest hypothesis =>
      obtain ⟨middle, first, later⟩ := bind_ok.mp done
      have following := loading.round (cleared item List.mem_cons_self) first
      have whole := hypothesis following
        (fun other inside => cleared other (List.mem_cons_of_mem _ inside)) later
      rw [List.append_assoc, List.singleton_append] at whole
      exact whole

/-- The trees are emptied before the load. -/
theorem ClearedLoad.start {db : CfgDb} (allotted : Allotted db) (templates : Templates) :
    ClearedLoad templates db.cfgdbRemoveAllNodes.cfgdbRemoveAllUpl [] where
  allotted := allotted.cleared
  noNodes := by
    intro addr
    by_contra present
    obtain ⟨record, found⟩ := Option.ne_none_iff_exists'.mp present
    exact known_cleared (known_of_nodes found)
  own := by
    intro uuid record found
    exact absurd (known_of_unprov found) known_cleared
  held := by
    intro item inside
    cases inside
  config := by
    intro index item uuid record inside
    cases inside

/-!
## The backlog is loaded again

The load of the backlog comes after that of the nodes, and may undo a part of it: a record that
is filed under the wrong key displaces whatever is found there, and the removal goes by the
fields of the displaced record, not by the tree it was found in.
-/

/-- A new record of the backlog that has an address is not kept under its UUID, but under
the sixteen bytes from the address on.  A record that is found there is removed, and not
from the backlog, but from the tree where its fields say that it is. -/
structure Displaces (db : CfgDb) (entry : NodeEntry) (uuid : Uuid) : Prop where
  addressed : entry.addr ≠ 0
  isNew : db.get (.backlog entry.uuid) = none
  holder : ∃ holder, db.get (.backlog (entry.fill .zeroed).bytesFromAddr) = some holder ∧
    (db.heap holder).addr = 0 ∧ (db.heap holder).hasTemplate = true ∧
    (db.heap holder).uuid = uuid

/-- The removal reaches the unprovisioned devices. -/
theorem removalSpot_eq_unprov {node : Node} {uuid : Uuid} :
    node.removalSpot = .unprovDevs uuid ↔
      node.addr = 0 ∧ node.hasTemplate = true ∧ node.uuid = uuid := by
  unfold Node.removalSpot Node.gHtb
  by_cases addressed : node.addr = 0
  · by_cases templated : node.hasTemplate = true
    · simp [addressed, templated, Node.spotIn, Node.uuidKey]
    · simp [addressed, templated, Node.spotIn]
  · simp [addressed, Node.spotIn]

/-- What becomes of the unprovisioned devices in a round over the backlog. -/
theorem unprov_loadBacklog {db : CfgDb} (allotted : Allotted db) (entry : NodeEntry)
    (uuid : Uuid) :
    (Displaces db entry uuid ∧ (db.loadNode entry true).get (.unprovDevs uuid) = none) ∨
      (¬ Displaces db entry uuid ∧
        (db.loadNode entry true).get (.unprovDevs uuid) = db.get (.unprovDevs uuid)) := by
  by_cases addressed : entry.addr = 0
  · right
    refine ⟨fun displaces => displaces.addressed addressed, ?_⟩
    rw [Registered.get_loadBacklogEntry db addressed, if_neg]
    rintro ⟨⟩
  · have spot : (entry.fill Node.zeroed).spotIn .backlog =
        .backlog (entry.fill Node.zeroed).bytesFromAddr := by
      simp [NodeEntry.fill, Node.spotIn, Node.uuidKey, addressed]
    have home : entry.lookupSpot true = .backlog entry.uuid := rfl
    have tree : entry.treeOf true = .backlog := rfl
    unfold CfgDb.loadNode
    rw [home]
    cases found : db.get (.backlog entry.uuid) with
    | some holder =>
        right
        refine ⟨fun displaces => ?_, CfgDb.get_update _ _ _ _⟩
        have isNew := displaces.isNew
        rw [found] at isNew
        cases isNew
    | none =>
        dsimp only
        cases there : db.get (.backlog (entry.fill Node.zeroed).bytesFromAddr) with
        | none =>
            right
            constructor
            · rintro ⟨_, _, holder, held, _⟩
              rw [there] at held
              cases held
            · simp [CfgDb.cfgdbAdd, tree, spot, there, CfgDb.get_set]
        | some holder =>
            have older : holder ≠ db.next := Nat.ne_of_lt (allotted.allocated _ _ there)
            have heap : (db.alloc.update db.next entry.fill).heap holder = db.heap holder := by
              rw [CfgDb.heap_update_of_ne _ _ older, CfgDb.heap_alloc_of_ne _ older]
            have whole : ((db.alloc.update db.next entry.fill).cfgdbAdd db.next
                (entry.treeOf true)).get (.unprovDevs uuid) =
                  if (db.heap holder).removalSpot = .unprovDevs uuid then none
                  else db.get (.unprovDevs uuid) := by
              simp [CfgDb.cfgdbAdd, CfgDb.cfgdbRemove, tree, spot, there, older, heap,
                CfgDb.get_set, CfgDb.get_erase]
            rw [whole]
            by_cases reached : (db.heap holder).removalSpot = .unprovDevs uuid
            · left
              obtain ⟨noAddress, templated, isUuid⟩ := removalSpot_eq_unprov.mp reached
              exact ⟨⟨addressed, found, holder, there, noAddress, templated, isUuid⟩,
                if_pos reached⟩
            · right
              refine ⟨?_, if_neg reached⟩
              rintro ⟨_, _, other, held, noAddress, templated, isUuid⟩
              cases there.symm.trans held
              exact reached (removalSpot_eq_unprov.mpr ⟨noAddress, templated, isUuid⟩)

/-- No round of a load of the backlog displaces an unprovisioned device. -/
def BacklogApart (templates : Templates) (fresh : Nat → UInt64) :
    Nat → List Value → CfgDb → Prop
  | _, [], _ => True
  | index, item :: rest, db =>
      (∀ entry uuid, parseEntry (fresh index) item = .ok (some entry) →
        Displaces db entry uuid → db.get (.unprovDevs uuid) = none) ∧
      ∀ after, loadNodeItem templates (fresh index) true item db = .ok after →
        BacklogApart templates fresh (index + 1) rest after

/-- The program itself writes no address to the backlog. -/
theorem backlogApart_of_unaddressed {templates : Templates} {fresh : Nat → UInt64}
    {items : List Value} (unaddressed : ∀ item ∈ items, ∀ addr,
      memberUint UInt16.ofNat item strAddr = .ok (some addr) → addr = 0)
    (index : Nat) (db : CfgDb) : BacklogApart templates fresh index items db := by
  induction items generalizing index db with
  | nil => trivial
  | cons item rest hypothesis =>
      constructor
      · intro entry uuid parses displaces
        have reads := (parseEntry_some parses).addr
        exact absurd (unaddressed item List.mem_cons_self _ reads) displaces.addressed
      · intro after _
        exact hypothesis (fun other inside => unaddressed other (List.mem_cons_of_mem _ inside))
          _ after

/-- The unprovisioned devices outlive the load of the backlog exactly when no round displaces
one of them. -/
theorem backlogApart_iff {templates : Templates} {fresh : Nat → UInt64} {items : List Value}
    {index : Nat} {db after : CfgDb} (allotted : Allotted db)
    (done : loadNodeArr templates fresh true index items db = .ok after) :
    BacklogApart templates fresh index items db ↔
      ∀ uuid, db.get (.unprovDevs uuid) ≠ none → after.get (.unprovDevs uuid) ≠ none := by
  induction items generalizing index db with
  | nil =>
      cases done
      exact ⟨fun _ _ present => present, fun _ => trivial⟩
  | cons item rest hypothesis =>
      obtain ⟨middle, first, later⟩ := bind_ok.mp done
      have allottedMiddle := keptByLoads_allotted.item allotted first
      have rest := hypothesis allottedMiddle later
      have known := loadNodeArr_backlog_retained allottedMiddle later
      have gone : ∀ uuid, middle.get (.unprovDevs uuid) = none →
          after.get (.unprovDevs uuid) = none := by
        intro uuid absent
        by_contra present
        obtain ⟨record, found⟩ := Option.ne_none_iff_exists'.mp present
        have before := (known _ record (by rintro ⟨⟩) found).1
        rw [absent] at before
        cases before
      have round : (∀ entry uuid, parseEntry (fresh index) item = .ok (some entry) →
          Displaces db entry uuid → db.get (.unprovDevs uuid) = none) ↔
          ∀ uuid, db.get (.unprovDevs uuid) ≠ none → middle.get (.unprovDevs uuid) ≠ none := by
        obtain ⟨parsed, parses, step⟩ := bind_ok.mp first
        cases parsed with
        | none =>
            cases step
            constructor
            · intro _ uuid present
              exact present
            · intro _ entry uuid impossible
              rw [parses] at impossible
              cases impossible
        | some entry =>
            obtain ⟨node, _, result⟩ := bind_ok.mp step
            cases result
            let written : NodeEntry := { entry with config := fun _ => node.config }
            constructor
            · intro apart uuid present
              rcases unprov_loadBacklog allotted written uuid with
                ⟨displaces, _⟩ | ⟨_, same⟩
              · exact absurd (apart entry uuid parses
                  ⟨displaces.addressed, displaces.isNew, displaces.holder⟩) present
              · change (db.loadNode written true).get (.unprovDevs uuid) ≠ none
                rw [same]
                exact present
            · intro keeps other uuid isEntry displaces
              cases (Except.ok.inj (parses.symm.trans isEntry))
              rcases unprov_loadBacklog allotted written uuid with ⟨_, removed⟩ | ⟨other, _⟩
              · by_contra present
                exact keeps uuid present removed
              · exact absurd
                  ⟨displaces.addressed, displaces.isNew, displaces.holder⟩ other
      constructor
      · rintro ⟨here, others⟩ uuid present
        exact rest.mp (others middle first) uuid (round.mp here uuid present)
      · intro keeps
        constructor
        · apply round.mpr
          intro uuid present absent
          exact keeps uuid present (gone uuid absent)
        · intro other same
          cases first.symm.trans same
          apply rest.mpr
          intro uuid present
          apply keeps uuid
          obtain ⟨record, found⟩ := Option.ne_none_iff_exists'.mp present
          have one : loadNodeArr templates fresh true index [item] db = .ok middle := by
            rw [loadNodeArr, first]
            rfl
          have before := (loadNodeArr_backlog_retained allotted one _ record (by rintro ⟨⟩)
            found).1
          rw [before]
          rintro ⟨⟩

/-! ## The nodes file -/

theorem distinctKeys_amend {tree : Value} (distinct : tree.DistinctKeys) (key : String)
    (rest : List Step) (change : Value → Value) :
    (tree.amend (.member key :: rest) change).DistinctKeys := by
  unfold Value.amend
  cases tree.child (.member key) with
  | none => exact distinct
  | some value => exact Value.distinctKeys_set distinct key _

/-- Where the pointer to the backlog leads when all members were seen. -/
theorem openMembers_backlog {members : List (String × Value)}
    (distinct : (members.map Prod.fst).Nodup) {tree after : OpenTree}
    {backlog seen : BacklogRef}
    (done : openMembers members tree backlog = .ok (true, after, seen)) :
    match Value.lookup strBacklog members with
    | none => seen = backlog
    | some .null => seen = .absent
    | some _ => seen = .member := by
  induction members generalizing tree backlog with
  | nil =>
      cases done
      rfl
  | cons first rest hypothesis =>
      obtain ⟨key, value⟩ := first
      rw [List.map_cons, List.nodup_cons] at distinct
      obtain ⟨notLater, distinct⟩ := distinct
      unfold openMembers at done
      by_cases isSubnets : key = strSubnets
      · rw [if_pos isSubnets] at done
        have other : key ≠ strBacklog := by
          rw [isSubnets]
          exact of_decide_eq_true rfl
        rw [Value.lookup, if_neg other]
        split at done
        · obtain ⟨whole, _, done⟩ := bind_ok.mp done
          cases whole with
          | false => cases done
          | true => exact hypothesis distinct done
        · cases done
      · rw [if_neg isSubnets] at done
        by_cases isBacklog : key = strBacklog
        · rw [if_pos isBacklog] at done
          rw [Value.lookup, if_pos isBacklog]
          have later : Value.lookup strBacklog rest = none := by
            apply Value.lookup_eq_none
            rw [← isBacklog]
            exact notLater
          split at done
          · have seenIs := hypothesis distinct done
            rw [later] at seenIs
            exact seenIs
          · rename_i notNull
            have seenIs := hypothesis distinct done
            rw [later] at seenIs
            cases value with
            | null => exact absurd rfl notNull
            | _ => exact seenIs
        · rw [if_neg isBacklog] at done
          rw [Value.lookup, if_neg isBacklog]
          exact hypothesis distinct done

/-- When the backlog of a file that was just opened is loaded, all its entries are. -/
theorem loadBacklog_entries {env : LoadEnv} {file : SavedFile} {nw opened : NwCfg}
    {root : Value} {db after : CfgDb} (content : file.content = some root)
    (distinct : root.DistinctKeys) (opens : openJsonFile file nw = .ok (true, opened))
    (done : loadBacklog env opened db = .ok after) :
    loadNodeArr env.templates (env.fresh true) true 0 (backlogOf root) db = .ok after := by
  have isRoot := openJsonFile_root opens
  rw [content] at isRoot
  have pointer : match root.get strBacklog with
      | none => opened.backlog = nw.jsonCfgClose.backlog
      | some .null => opened.backlog = .absent
      | some _ => opened.backlog = .member := by
    unfold openJsonFile at opens
    rw [content] at opens
    cases root with
    | object members =>
        dsimp only at opens
        obtain ⟨stamp, _, opens⟩ := bind_ok.mp opens
        obtain ⟨⟨whole, tree, backlog⟩, walked, opens⟩ := bind_ok.mp opens
        cases whole with
        | false => cases opens
        | true =>
            cases opens
            exact openMembers_backlog distinct walked
    | _ => cases opens
  unfold loadBacklog at done
  unfold backlogOf
  cases isBacklog : root.get strBacklog with
  | none =>
      rw [isBacklog] at pointer
      cases reference : opened.backlog with
      | absent =>
          rw [reference] at done
          exact done
      | member =>
          rw [reference, isRoot, Option.bind_some, isBacklog] at done
          exact done
      | freed =>
          rw [reference] at done
          cases done
  | some value =>
      rw [isBacklog] at pointer
      cases value with
      | null =>
          rw [pointer] at done
          exact done
      | array items =>
          rw [pointer, isRoot, Option.bind_some, isBacklog] at done
          exact done
      | _ =>
          rw [pointer, isRoot, Option.bind_some, isBacklog] at done
          cases done

/-- What a save leaves: the tree with a new stamp, in memory and in the file. -/
theorem NodesState.flush_root {nodes : NodesState} {root : Value}
    (isRoot : nodes.nw.root = some root) (clock : SaveClock) :
    ∃ stamp, (nodes.flush clock).nw.root = some (root.set strSyncTime (.string stamp)) ∧
      (nodes.flush clock).file.content = some (root.set strSyncTime (.string stamp)) ∧
      (nodes.flush clock).db = nodes.db ∧
      (nodes.flush clock).nw.autoflush = nodes.nw.autoflush := by
  obtain ⟨db, nw, file⟩ := nodes
  obtain ⟨tree, synctime, autoflush, backlog⟩ := nw
  cases tree with
  | none => cases isRoot
  | some tree =>
      cases isRoot
      exact ⟨_, rfl, rfl, rfl, rfl⟩

theorem NodesState.autoFlush_eq {nodes : NodesState} (autoflush : nodes.nw.autoflush = true)
    (clock : SaveClock) : nodes.autoFlush clock = nodes.flush clock :=
  if_pos autoflush

/-- The entries of the first subnet, where their pointer leads. -/
theorem seek_of_entries {nw : NwCfg} {tree : Value} {items : List Value}
    (isTree : nw.root = some tree) (found : nw.firstNodes = some (.array items)) :
    tree.seek nodesPath = some (.array (nodesOf tree)) ∧ items = nodesOf tree := by
  have seeks := seek_of_firstNodes found
  rw [isTree, Option.bind_some] at seeks
  have isItems : nodesOf tree = items := by
    unfold nodesOf
    rw [seeks]
  rw [isItems]
  exact ⟨seeks, rfl⟩

/-- A write that goes through all nodes, and its save. -/
theorem NodesState.writeAll_tree {nodes written : NodesState} {tree : Value}
    (held : NodesHeld nodes) (isTree : nodes.nw.root = some tree) {clock : SaveClock}
    {edit : Value → Except Abort Value}
    (done : nodes.writeAll clock edit = .ok (true, written)) :
    ∃ edited stamp, (nodesOf tree).mapM edit = .ok edited ∧
      tree.seek nodesPath = some (.array (nodesOf tree)) ∧
      written.file.content = some ((tree.amend nodesPath fun _ => .array edited).set
        strSyncTime (.string stamp)) ∧
      written.db = nodes.db := by
  obtain ⟨open', isOpen, isRoot⟩ := Option.map_eq_some_iff.mp isTree
  unfold writeAll at done
  rw [isOpen] at done
  obtain ⟨edits, isEdits, done⟩ := bind_ok.mp done
  cases done
  unfold NwCfg.editNodes at isEdits
  split at isEdits
  · cases isEdits
  · cases isEdits
  · split at isEdits
    · rename_i items found
      obtain ⟨edited, maps, same⟩ := bind_ok.mp isEdits
      cases same
      obtain ⟨seeks, isItems⟩ := seek_of_entries isTree found
      rw [isItems] at maps
      have amended : (nodes.nw.amend nodesPath fun _ => .array edited).root =
          some (tree.amend nodesPath fun _ => .array edited) := by
        simp [NwCfg.amend, NwCfg.root, isOpen, isRoot]
      obtain ⟨stamp, _, content, sameDb, _⟩ := @flush_root
        { nodes with nw := nodes.nw.amend nodesPath fun _ => .array edited } _ amended clock
      have autoflush : nodes.nw.autoflush = true := held.autoflush (by rw [isOpen]; rfl)
      have flushes := @autoFlush_eq
        { nodes with nw := nodes.nw.amend nodesPath fun _ => .array edited } autoflush clock
      rw [flushes]
      exact ⟨edited, stamp, maps, seeks, content, sameDb⟩
    · cases isEdits

/-- A forced load: the entries are loaded to trees that were emptied, then the backlog. -/
theorem NodesState.jsonCfgOpen_forced {nodes opened : NodesState} {root : Value}
    (content : nodes.file.content = some root) (distinct : root.DistinctKeys) {env : LoadEnv}
    {items : List Value} (seeks : root.seek nodesPath = some (.array items))
    (done : nodes.jsonCfgOpen env true = .ok (true, opened)) :
    ∃ middle,
      loadNodeArr env.templates (env.fresh false) false 0 items
        nodes.db.cfgdbRemoveAllNodes.cfgdbRemoveAllUpl = .ok middle ∧
      loadNodeArr env.templates (env.fresh true) true 0 (backlogOf root) middle =
        .ok opened.db ∧
      opened.nw.root = some root ∧ opened.nw.autoflush = true := by
  obtain ⟨⟨loaded, nw, db⟩, reopens, same⟩ := bind_ok.mp done
  cases same
  unfold Nwmng.jsonCfgOpen at reopens
  rw [Bool.not_true, Bool.and_false, if_neg Bool.false_ne_true] at reopens
  have reloaded := reload_tree reopens
  obtain ⟨⟨isOpened, nw'⟩, opensFile, reopens⟩ := bind_ok.mp reopens
  cases isOpened with
  | false => cases reopens
  | true =>
      simp only [if_true] at reopens
      obtain ⟨⟨isLoaded, db'⟩, loads, same⟩ := bind_ok.mp reopens
      cases isLoaded with
      | false => cases same
      | true =>
          cases same
          have isSaved := openJsonFile_root opensFile
          rw [content] at isSaved
          unfold loadJsonFile loadNodes at loads
          rw [if_pos rfl] at loads
          split at loads
          · cases loads
          · cases loads
          · have isFirst : nw'.firstNodes = some (.array items) := by
              unfold NwCfg.firstNodes
              rw [isSaved, Option.bind_some, seeks]
            rw [isFirst] at loads
            obtain ⟨middle, loadsNodes, loads⟩ := bind_ok.mp loads
            obtain ⟨last, loadsBacklog, loads⟩ := bind_ok.mp loads
            cases loads
            exact ⟨middle, loadsNodes,
              loadBacklog_entries content distinct opensFile loadsBacklog, isSaved, reloaded.2⟩

/-- The tree after a reset: other entries, and two stamps.  The file is saved twice: after the
entries were cleared, and again by the load that follows. -/
def ResetTree (tree : Value) (entries : List Value) (tree' : Value) : Prop :=
  ∃ first second, tree' =
    ((tree.amend nodesPath fun _ => .array entries).set strSyncTime (.string first)).set
      strSyncTime (.string second)

/-- The steps of a reset of the nodes. -/
theorem NodesState.nodesClrctl_steps {nodes after : NodesState} {tree : Value}
    (held : NodesHeld nodes) (isTree : nodes.nw.root = some tree)
    (distinct : tree.DistinctKeys) {env : LoadEnv} {first second : SaveClock}
    (done : nodes.nodesClrctl env first second = .ok (true, after)) :
    ∃ edited middle tree',
      (nodesOf tree).mapM clrctlEntry = .ok edited ∧
      loadNodeArr env.templates (env.fresh false) false 0 edited
        nodes.db.cfgdbRemoveAllNodes.cfgdbRemoveAllUpl = .ok middle ∧
      loadNodeArr env.templates (env.fresh true) true 0 (backlogOf tree) middle =
        .ok after.db ∧
      after.nw.root = some tree' ∧ after.file.content = some tree' ∧
      nodesOf tree' = edited ∧ ResetTree tree edited tree' := by
  obtain ⟨⟨isWritten, written⟩, writes, done⟩ := bind_ok.mp done
  cases isWritten with
  | false => cases done
  | true =>
      obtain ⟨edited, stamp, maps, seeks, content, sameDb⟩ := writeAll_tree held isTree writes
      have apart : strSubnets ≠ strSyncTime := of_decide_eq_true rfl
      have seeksAfter : ((tree.amend nodesPath fun _ => .array edited).set strSyncTime
          (.string stamp)).seek nodesPath = some (.array edited) := by
        rw [← Value.seek_amend_self seeks fun _ => .array edited]
        simp only [nodesPath, Value.seek, Value.child, Value.get_set_other apart]
      have distinctAfter : ((tree.amend nodesPath fun _ => .array edited).set strSyncTime
          (.string stamp)).DistinctKeys :=
        Value.distinctKeys_set (distinctKeys_amend distinct _ _ _) _ _
      have sameBacklog : backlogOf ((tree.amend nodesPath fun _ => .array edited).set
          strSyncTime (.string stamp)) = backlogOf tree := by
        rw [backlogOf_set (of_decide_eq_true rfl), nodesPath, backlogOf_amend_nodes]
      simp only [if_true] at done
      obtain ⟨⟨isLoaded, opened⟩, opens, result⟩ := bind_ok.mp done
      cases isLoaded with
      | false => cases result
      | true =>
          cases result
          obtain ⟨middle, loadsNodes, loadsBacklog, isRoot, autoflush⟩ :=
            jsonCfgOpen_forced content distinctAfter seeksAfter opens
          rw [sameDb] at loadsNodes
          rw [sameBacklog] at loadsBacklog
          obtain ⟨stamp', isRoot', content', sameDb', _⟩ := flush_root isRoot second
          rw [if_pos rfl, autoFlush_eq autoflush]
          refine ⟨edited, middle, _, maps, loadsNodes, ?_, isRoot', content', ?_, stamp, stamp',
            rfl⟩
          · rw [sameDb']
            exact loadsBacklog
          · rw [nodesOf_set apart]
            unfold nodesOf
            rw [seeksAfter]

/-- A complete reset of the nodes.  The last fact is about a UUID that one entry has. -/
structure NodesReset (templates : Templates) (tree tree' : Value) (db : CfgDb) : Prop where
  entries : List.Forall₂ EntryReset (nodesOf tree) (nodesOf tree')
  beside : ResetTree tree (nodesOf tree') tree'
  noNodes : ∀ addr, db.cfgdbNodeGet addr = none
  unprovisioned : ∀ item ∈ nodesOf tree, ∀ uuid, entryUuid item = some uuid →
    ∃ record, db.cfgdbUnprovDevGet uuid = some record ∧ NodeCleared (db.heap record) uuid
  config : ∀ (index : Nat) (item : Value) (uuid : Uuid) (record : NodeId),
    (nodesOf tree')[index]? = some item → entryUuid item = some uuid →
    (∀ (other : Nat) (item' : Value), (nodesOf tree')[other]? = some item' →
      entryUuid item' = some uuid → other = index) →
    db.cfgdbUnprovDevGet uuid = some record →
    ∃ fresh node, loadToNodeItem templates fresh item .zeroed = .ok node ∧
      (db.heap record).config = node.config

theorem EntryReset.all {items items' : List Value} (reset : List.Forall₂ EntryReset items items') :
    (∀ item ∈ items', EntryCleared item) ∧ items'.map entryUuid = items.map entryUuid := by
  induction reset with
  | nil =>
      refine ⟨?_, rfl⟩
      intro item impossible
      cases impossible
  | cons first rest hypothesis =>
      obtain ⟨cleared, uuids⟩ := hypothesis
      refine ⟨List.forall_mem_cons.mpr ⟨first.cleared, cleared⟩, ?_⟩
      rw [List.map_cons, List.map_cons, first.uuid, uuids]

/-- When the load of the backlog leaves the unprovisioned devices where they are.  The condition
is put at the records that the load of the nodes leaves, since it depends on which of them the
backlog finds. -/
def ResetApart (env : LoadEnv) (tree : Value) (db : CfgDb) : Prop :=
  ∀ edited middle, (nodesOf tree).mapM clrctlEntry = .ok edited →
    loadNodeArr env.templates (env.fresh false) false 0 edited
      db.cfgdbRemoveAllNodes.cfgdbRemoveAllUpl = .ok middle →
    BacklogApart env.templates (env.fresh true) 0 (backlogOf tree) middle

theorem nodesReset_iff {nodes after : NodesState} {tree : Value} (held : NodesHeld nodes)
    (isTree : nodes.nw.root = some tree) (distinct : tree.DistinctKeys) {env : LoadEnv}
    {first second : SaveClock} (done : nodes.nodesClrctl env first second = .ok (true, after)) :
    (∃ tree', after.nw.root = some tree' ∧ after.file.content = some tree' ∧
      NodesReset env.templates tree tree' after.db) ↔ ResetApart env tree nodes.db := by
  obtain ⟨edited, middle, tree', maps, loadsNodes, loadsBacklog, isRoot, content, isEdited,
    isReset⟩ := NodesState.nodesClrctl_steps held isTree distinct done
  have resets : List.Forall₂ EntryReset (nodesOf tree) edited :=
    (forall₂_of_mapM maps).imp fun _ _ => clrctlEntry_resets
  obtain ⟨cleared, uuids⟩ := EntryReset.all resets
  have loading : ClearedLoad env.templates middle edited :=
    (ClearedLoad.start held.allotted env.templates).array cleared loadsNodes
  have retained := loadNodeArr_backlog_retained loading.allotted loadsBacklog
  have apart := backlogApart_iff loading.allotted loadsBacklog
  have entryOf : ∀ {items items' : List Value} {uuid}, items.map entryUuid = items'.map entryUuid →
      (∃ item ∈ items, entryUuid item = some uuid) →
        ∃ item ∈ items', entryUuid item = some uuid := by
    intro items items' uuid same present
    have inside := List.mem_map.mpr present
    rw [same] at inside
    exact List.mem_map.mp inside
  constructor
  · rintro ⟨other, isOther, _, reset⟩ edited' middle' maps' loads'
    cases maps.symm.trans maps'
    cases loadsNodes.symm.trans loads'
    apply apart.mpr
    intro uuid present
    obtain ⟨record, found⟩ := Option.ne_none_iff_exists'.mp present
    obtain ⟨item, inside, isUuid⟩ := entryOf uuids (loading.own uuid record found).2
    obtain ⟨kept, here, _⟩ := reset.unprovisioned item inside uuid isUuid
    intro absent
    cases absent.symm.trans here
  · intro admitted
    have outlives := apart.mp (admitted edited middle maps loadsNodes)
    refine ⟨tree', isRoot, content, ?_⟩
    constructor
    · rw [isEdited]
      exact resets
    · rw [isEdited]
      exact isReset
    · intro addr
      by_contra present
      obtain ⟨record, found⟩ := Option.ne_none_iff_exists'.mp present
      have before := (retained (.nodes addr) record (by rintro ⟨⟩) found).1
      rw [loading.noNodes addr] at before
      cases before
    · intro item inside uuid isUuid
      obtain ⟨source, member, isSource⟩ := entryOf uuids.symm ⟨item, inside, isUuid⟩
      obtain ⟨older, before⟩ := loading.held source member uuid isSource
      obtain ⟨record, found⟩ := Option.ne_none_iff_exists'.mp
        (outlives uuid (by rw [before]; rintro ⟨⟩))
      obtain ⟨held, same⟩ := retained _ record (by rintro ⟨⟩) found
      refine ⟨record, found, ?_⟩
      rw [same]
      exact (loading.own uuid record held).1
    · intro index item uuid record inside isUuid only found
      rw [isEdited] at inside only
      obtain ⟨held, same⟩ := retained (.unprovDevs uuid) record (by rintro ⟨⟩) found
      rw [same]
      exact loading.config index item uuid record inside isUuid only held

/-! ## The keys -/

/-- The application keys of a tree. -/
def appkeysOf (root : Value) : List Value :=
  match root.seek (netkeyPath ++ [.member strAppkey]) with
  | some (.array items) => items
  | _ => []

/-- Every key of the tree is without number and not distributed, in the configuration and in
the tree; the rest of it is as before. -/
structure KeysReset (keys keys' : List Meshkey) (items items' : List Value) : Prop where
  length : items'.length = items.length
  each : ∀ (index : Nat) (item : Value), items[index]? = some item →
    ∃ key item', keys[index]? = some key ∧
      keys'[index]? = some { key with id := 0, done := 0 } ∧ items'[index]? = some item' ∧
      memberUint UInt16.ofNat item' strId = .ok (some 0) ∧
      memberUint UInt8.ofNat item' strDone = .ok (some 0) ∧
      ∀ name, name ≠ strId → name ≠ strDone → item'.get name = item.get name

/-- The loop comes to every key that there is something to clear of: it is among the
announced ones, and the first one with its reference. -/
def KeysReached (subnet : Subnet) (items : List Value) : Prop :=
  ∀ (index : Nat) (item : Value) (key : Meshkey), items[index]? = some item →
    subnet.appkey[index]? = some key →
    (index < subnet.appkeyNum.toNat ∧ FirstRef (subnet.appkey.map (·.refid)) index) ∨
      (key.id = 0 ∧ key.done = 0)

theorem keysReset_iff {subnet : Subnet} {keys' : List Meshkey} {items items' : List Value}
    (cleared : KeysCleared
      (fun place => place < subnet.appkeyNum.toNat ∧
        FirstRef (subnet.appkey.map (·.refid)) place) subnet.appkey keys' items items')
    (hold : KeysHold items subnet.appkey) (hold' : KeysHold items' keys') :
    KeysReset subnet.appkey keys' items items' ↔ KeysReached subnet items := by
  constructor
  · intro reset index item key inside isKey
    by_cases reached : index < subnet.appkeyNum.toNat ∧
        FirstRef (subnet.appkey.map (·.refid)) index
    · exact .inl reached
    · right
      obtain ⟨same, _, isSame, isReset, _⟩ := reset.each index item inside
      obtain ⟨key', isKey', _, _, _, isKept⟩ := cleared.key index key isKey
      cases isKey.symm.trans isSame
      cases isKey'.symm.trans isReset
      have kept := isKept reached
      exact ⟨congrArg Meshkey.id kept.symm, congrArg Meshkey.done kept.symm⟩
  · intro reached
    refine ⟨cleared.itemsLength, fun index item inside => ?_⟩
    obtain ⟨key, isKey, _⟩ := hold index item inside
    obtain ⟨key', isKey', refid, val, isCleared, isKept⟩ := cleared.key index key isKey
    obtain ⟨item', inside', beside, _⟩ := cleared.item index item inside
    obtain ⟨same, isSame, numbers⟩ := hold' index item' inside'
    cases isKey'.symm.trans isSame
    have isZero : key'.id = 0 ∧ key'.done = 0 := by
      rcases reached index item key inside isKey with loop | before
      · exact isCleared loop
      · by_cases loop : index < subnet.appkeyNum.toNat ∧
            FirstRef (subnet.appkey.map (·.refid)) index
        · exact isCleared loop
        · rw [isKept loop]
          exact before
    have whole : key' = { key with id := 0, done := 0 } := by
      obtain ⟨refid', id', done', val'⟩ := key'
      cases refid
      cases val
      cases isZero.1
      cases isZero.2
      rfl
    refine ⟨key, item', isKey, ?_, inside', ?_, ?_, beside⟩
    · rw [isKey', whole]
    · rw [numbers.id, isZero.1]
    · rw [numbers.done, isZero.2]

/-! ## The provisioner -/

/-- A complete reset of the provisioner.  The addresses, the indices and the marks of the keys
are cleared; the values of the keys and the settings stay, so that the same network can be set up
again. -/
structure ProvReset (cfg : ProvCfg) (root : Value) (cfg' : ProvCfg) (root' : Value) :
    Prop where
  addr : cfg'.addr = 0
  ivi : cfg'.ivi = 0
  savedAddr : memberUint UInt16.ofNat root' strAddr = .ok (some 0)
  savedIvi : memberUint UInt32.ofNat root' strIvi = .ok (some 0)
  settings : cfg'.ttl = cfg.ttl ∧ cfg'.netTxp = cfg.netTxp ∧ cfg'.timeout = cfg.timeout
  beside : ∀ name, name ∉ resetMembers → root'.get name = root.get name
  keys : ∃ subnet keys', cfg.subnets.head? = some subnet ∧
    cfg'.subnets =
      { subnet with
        netkey := { subnet.netkey with id := 0, done := 0 }, appkey := keys' } ::
        cfg.subnets.tail ∧
    KeysReset subnet.appkey keys' (appkeysOf root) (appkeysOf root')
  netkey : ∃ primary primary' rest, root.get strSubnets = some (.array (primary :: rest)) ∧
    root'.get strSubnets = some (.array (primary' :: rest)) ∧
    memberUint UInt16.ofNat primary' strId = .ok (some 0) ∧
    memberUint UInt8.ofNat primary' strDone = .ok (some 0) ∧
    ∀ name, name ∉ resetKeyMembers → primary'.get name = primary.get name

theorem KeyedTree.appkeysOf_eq {root primary : Value} {cfg : ProvCfg} {subnet : Subnet}
    {rest items : List Value} (tree : KeyedTree root cfg subnet primary rest items) :
    appkeysOf root = items := by
  unfold appkeysOf
  have seeks : root.seek (netkeyPath ++ [.member strAppkey]) = some (.array items) := by
    simp [netkeyPath, Value.seek, Value.child, tree.subnets, tree.appkeys]
  rw [seeks]

theorem provReset_iff {root primary root' : Value} {cfg cfg' : ProvCfg} {subnet : Subnet}
    {rest items : List Value} (tree : KeyedTree root cfg subnet primary rest items)
    (cleared : ProvCleared cfg root subnet primary rest items cfg' root') :
    ProvReset cfg root cfg' root' ↔ KeysReached subnet (appkeysOf root) := by
  obtain ⟨keys', primary', items', same, tree', besidePrimary, keysCleared⟩ := cleared.keyed
  have reset := keysReset_iff keysCleared tree.keys tree'.keys
  rw [tree.appkeysOf_eq, ← reset]
  constructor
  · intro whole
    obtain ⟨subnet', keys'', held, isCfg, keysReset⟩ := whole.keys
    cases tree.held.symm.trans held
    cases same.symm.trans isCfg
    rw [tree.appkeysOf_eq, tree'.appkeysOf_eq] at keysReset
    exact keysReset
  · intro keysReset
    refine ⟨cleared.addr, cleared.ivi, cleared.savedAddr, cleared.savedIvi, cleared.settings,
      cleared.beside, ⟨subnet, keys', tree.held, same, ?_⟩, primary, primary', rest,
      tree.subnets, tree'.subnets, tree'.netkey.id, tree'.netkey.done, besidePrimary⟩
    rw [tree.appkeysOf_eq, tree'.appkeysOf_eq]
    exact keysReset

/-!
## Both files

The reset succeeds in every run in which its steps do.  It is complete when the two ways in which
something is left are excluded: a key that the loop does not reach, and a device that the load of
the backlog displaces.
-/

/-- No address and no progress is left.  Memory and file are both asked for: the one is used at
once, the other by the next start. -/
structure ResetComplete (templates : Templates) (cfg : ProvCfg) (root tree : Value)
    (after : CfgState) : Prop where
  prov : ∃ root', after.prov.json.root = some root' ∧ after.prov.file.content = some root' ∧
    ProvReset cfg root after.prov.cfg root'
  nodes : ∃ tree', after.nodes.nw.root = some tree' ∧
    after.nodes.file.content = some tree' ∧ NodesReset templates tree tree' after.nodes.db

/-- In every run, a reset that succeeds is complete exactly when its loop comes to every key of
the file that there is something to clear of, and the backlog, loaded again, displaces no
unprovisioned device.  Keys are found by their reference and counted in a byte, which is how the
loop can miss one. -/
theorem factory_reset_complete_iff {provFile nodesFile : SavedFile}
    {past : List (Move CfgState CfgOp)} {state after : CfgState} {input : ClrInput}
    {prov : ProvState} {nodes : NodesState} {root tree : Value} {subnet : Subnet}
    (run : Execution (Succeeds CfgOp.run) (.zeroed provFile nodesFile) past state)
    (loadsProv : state.prov.loadCfg input.openProv = .ok (true, prov))
    (loadsNodes : state.nodes.loadCfg input.first false input.openNodes = .ok (true, nodes))
    (isRoot : prov.json.root = some root) (isSubnet : prov.cfg.subnets.head? = some subnet)
    (isTree : nodes.nw.root = some tree) (distinct : tree.DistinctKeys)
    (done : cfgClrctl input state = .ok (true, after)) :
    ResetComplete input.second.templates prov.cfg root tree after ↔
      KeysReached subnet (appkeysOf root) ∧ ResetApart input.second tree nodes.db := by
  have held := CfgHeld.of_run run
  have heldProv := held.prov.loadCfg loadsProv
  have heldNodes := held.nodes.loadCfg loadsNodes
  obtain ⟨subnet', primary, rest, items, keyed⟩ := heldProv.keyed root isRoot
  cases isSubnet.symm.trans keyed.held
  obtain ⟨prov', root', clears, isRoot', content', cleared⟩ :=
    ProvState.clrctl_spec isRoot (heldProv.autoflush (by rw [isRoot]; rfl)) keyed input.clearProv
  unfold cfgClrctl at done
  rw [loadsProv, ok_bind] at done
  simp only [Bool.not_true, Bool.false_eq_true, if_false] at done
  rw [loadsNodes, ok_bind] at done
  simp only [Bool.not_true, Bool.false_eq_true, if_false] at done
  rw [clears, ok_bind] at done
  simp only [Bool.not_true, Bool.false_eq_true, if_false] at done
  obtain ⟨⟨written, nodes'⟩, clearsNodes, same⟩ := bind_ok.mp done
  cases same
  rw [← provReset_iff keyed cleared, ← nodesReset_iff heldNodes isTree distinct clearsNodes]
  constructor
  · rintro ⟨⟨other, isOther, _, provReset⟩, nodesReset⟩
    cases isRoot'.symm.trans isOther
    exact ⟨provReset, nodesReset⟩
  · rintro ⟨provReset, nodesReset⟩
    exact ⟨⟨root', isRoot', content', provReset⟩, nodesReset⟩

/-! ## Two resets -/

/-- A provisioner's file with two application keys. -/
def resetKeysFile (first second : Value) : SavedFile where
  content := some
    (newProvFile.set strSubnets (.array [newProvKey.set strAppkey (.array [first, second])]))
  mtime := 1

/-- A key that was created and distributed. -/
def createdKey (refid : UInt16) : Value :=
  ((newProvKey.set strRefid (.string (uint16ToStr refid))).set strId
    (.string (uint16ToStr 5))).set strDone (.string (uint8ToStr 1))

def ClrInput.sample : ClrInput where
  openProv := { time := 2, mtime := 2 }
  openNodes := { time := 3, mtime := 3 }
  clearProv := { time := 4, mtime := 4 }
  clearNodes := { time := 5, mtime := 5 }
  reload := { time := 6, mtime := 6 }
  first := noTemplates
  second := noTemplates

/-- The program that has opened no file yet, with two keys and one node. -/
def CfgState.sample (first second : Value) : CfgState :=
  .zeroed (resetKeysFile first second) (editedFile [nodeObject []])

/-- The computation succeeds, and what it leaves passes the test. -/
def leaves {State : Type} (result : Except Abort (Bool × State)) (test : State → Bool) : Bool :=
  match result with
  | .ok (true, state) => test state
  | _ => false

theorem ok_of_leaves {State : Type} {result : Except Abort (Bool × State)}
    {test : State → Bool} (passed : leaves result test = true) :
    ∃ state, result = .ok (true, state) ∧ test state = true := by
  unfold leaves at passed
  split at passed
  · exact ⟨_, rfl, passed⟩
  · cases passed

/-- Both keys and the node are cleared when the references are different. -/
theorem factory_reset_complete_iff_two_keys :
    ∃ prov root tree after,
      (CfgState.sample (createdKey 1) (createdKey 2)).prov.loadCfg ClrInput.sample.openProv =
        .ok (true, prov) ∧
      cfgClrctl .sample (.sample (createdKey 1) (createdKey 2)) = .ok (true, after) ∧
      ResetComplete noTemplates.templates prov.cfg root tree after := by
  have provShows : leaves
      ((CfgState.sample (createdKey 1) (createdKey 2)).prov.loadCfg ClrInput.sample.openProv)
      (fun prov => prov.json.root.isSome && prov.cfg.subnets.head?.any fun subnet =>
        decide (subnet.appkey.map (·.refid) = [1, 2]) && decide (subnet.appkeyNum = 2)) = true := by
    decide +kernel
  have nodesShows : leaves
      ((CfgState.sample (createdKey 1) (createdKey 2)).nodes.loadCfg noTemplates false
        ClrInput.sample.openNodes)
      (fun nodes => nodes.nw.root.any fun tree =>
        decide tree.DistinctKeys && (backlogOf tree).isEmpty) = true := by
    decide +kernel
  have cleared : leaves (cfgClrctl .sample (.sample (createdKey 1) (createdKey 2)))
      (fun _ => true) = true := by
    decide +kernel
  obtain ⟨prov, loadsProv, provTest⟩ := ok_of_leaves provShows
  obtain ⟨nodes, loadsNodes, nodesTest⟩ := ok_of_leaves nodesShows
  obtain ⟨after, done, _⟩ := ok_of_leaves cleared
  rw [Bool.and_eq_true, Option.any_eq_true] at provTest
  obtain ⟨present, subnet, isSubnet, keysTest⟩ := provTest
  obtain ⟨root, isRoot⟩ := Option.isSome_iff_exists.mp present
  rw [Bool.and_eq_true, decide_eq_true_eq, decide_eq_true_eq] at keysTest
  obtain ⟨refids, count⟩ := keysTest
  rw [Option.any_eq_true] at nodesTest
  obtain ⟨tree, isTree, treeTest⟩ := nodesTest
  rw [Bool.and_eq_true, decide_eq_true_eq, List.isEmpty_iff] at treeTest
  obtain ⟨distinct, noBacklog⟩ := treeTest
  refine ⟨prov, root, tree, after, loadsProv, done, ?_⟩
  apply (factory_reset_complete_iff .start loadsProv loadsNodes isRoot isSubnet isTree distinct
    done).mpr
  constructor
  · intro index item key _ isKey
    left
    have length : subnet.appkey.length = 2 := by
      have lengths := congrArg List.length refids
      rw [List.length_map] at lengths
      exact lengths
    have inside := (List.getElem?_eq_some_iff.mp isKey).1
    rw [length] at inside
    refine ⟨by rw [count]; exact inside, ?_⟩
    intro earlier less
    have isSecond : index = 1 := by omega
    have isFirst : earlier = 0 := by omega
    rw [refids, isSecond, isFirst]
    decide
  · intro edited middle _ _
    rw [noBacklog]
    trivial

/-- Of two keys with one reference, the first is cleared twice, and the second keeps its
number. -/
theorem shared_reference_keeps_key :
    ¬ ∀ (provFile nodesFile : SavedFile) (past : List (Move CfgState CfgOp))
      (state after : CfgState) (input : ClrInput) (prov : ProvState) (nodes : NodesState)
      (root tree : Value),
      Execution (Succeeds CfgOp.run) (.zeroed provFile nodesFile) past state →
      state.prov.loadCfg input.openProv = .ok (true, prov) →
      state.nodes.loadCfg input.first false input.openNodes = .ok (true, nodes) →
      prov.json.root = some root → nodes.nw.root = some tree → tree.DistinctKeys →
      cfgClrctl input state = .ok (true, after) →
      ResetComplete input.second.templates prov.cfg root tree after := by
  intro claim
  have provShows : leaves
      ((CfgState.sample (createdKey 1) (createdKey 1)).prov.loadCfg ClrInput.sample.openProv)
      (fun prov => prov.json.root.any fun root => (appkeysOf root)[1]?.isSome) = true := by
    decide +kernel
  have nodesShows : leaves
      ((CfgState.sample (createdKey 1) (createdKey 1)).nodes.loadCfg noTemplates false
        ClrInput.sample.openNodes)
      (fun nodes => nodes.nw.root.any fun tree => decide tree.DistinctKeys) = true := by
    decide +kernel
  have cleared : leaves (cfgClrctl .sample (.sample (createdKey 1) (createdKey 1)))
      (fun after => after.prov.cfg.subnets.head?.any fun subnet =>
        subnet.appkey[1]?.any fun key => decide (key.id = 5)) = true := by
    decide +kernel
  obtain ⟨prov, loadsProv, provTest⟩ := ok_of_leaves provShows
  obtain ⟨nodes, loadsNodes, nodesTest⟩ := ok_of_leaves nodesShows
  obtain ⟨after, done, afterTest⟩ := ok_of_leaves cleared
  obtain ⟨root, isRoot, present⟩ := (Option.any_eq_true _ _).mp provTest
  obtain ⟨item, isItem⟩ := Option.isSome_iff_exists.mp present
  obtain ⟨tree, isTree, treeTest⟩ := (Option.any_eq_true _ _).mp nodesTest
  obtain ⟨subnet, isSubnet, subnetTest⟩ := (Option.any_eq_true _ _).mp afterTest
  obtain ⟨key, isKey, keyTest⟩ := (Option.any_eq_true _ _).mp subnetTest
  have complete := claim _ _ _ _ after _ prov nodes root tree .start loadsProv loadsNodes isRoot
    isTree (of_decide_eq_true treeTest) done
  obtain ⟨root', _, _, reset⟩ := complete.prov
  obtain ⟨before, keys', _, isCfg, keysReset⟩ := reset.keys
  obtain ⟨old, _, _, isReset, _⟩ := keysReset.each 1 item isItem
  rw [isCfg] at isSubnet
  cases isSubnet
  cases isReset.symm.trans isKey
  cases of_decide_eq_true keyTest

end Nwmng
