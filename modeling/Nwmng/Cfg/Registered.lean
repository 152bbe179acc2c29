/-
Module: Nwmng.Cfg.Registered
Purpose: Every record of the database lies at its place and has its entry in the nodes
file, over every change of an address and every load of an unchanged file.
Trusted boundary: none
Main exports:
  EntryAddr, FileAddrs, Registered, Registered.unique, Registered.move, Registered.item,
  Registered.array, Registered.backlogArray
-/
import Nwmng.Cfg.LoadAgreement

namespace Nwmng

open Json Fallible

/-! ## Addresses of entries -/

/-- The address that an entry yields.  It is the number that the loader reads, so entries can be
compared by address however they are written. -/
def EntryAddr (entry : Value) (addr : UInt16) : Prop :=
  memberUint UInt16.ofNat entry strAddr = .ok (some addr)

theorem EntryAddr.unique {entry : Value} {first second : UInt16}
    (one : EntryAddr entry first) (two : EntryAddr entry second) : first = second := by
  unfold EntryAddr at one two
  rw [one] at two
  cases two
  rfl

/-- Two entries with the same address, other than 0, are about the same device. -/
def AddrsDistinct (entries : List Value) : Prop :=
  ∀ first ∈ entries, ∀ second ∈ entries, ∀ addr, addr ≠ 0 → EntryAddr first addr →
    EntryAddr second addr → entryUuid second = entryUuid first

/-!
## The relation

`Registered` relates three things: a record, the place where the trees hold it, and the entry of
its device.  The place is determined by the address of the entry, so an address may only change
on both sides together.
-/

/-- The records of the database, their places and their entries.  Every record has an entry with
its UUID and address, and stands in the tree and under the key that these two give.  The writes
keep this, which is what lets a record be found again from its address. -/
structure Registered (db : CfgDb) (entries : List Value) : Prop where
  uuids : UuidsDistinct entries
  addrs : AddrsDistinct entries
  allotted : Allotted db
  listed : ∀ record, db.Known record → ∃ entry ∈ entries,
    entryUuid entry = some (db.heap record).uuid ∧ EntryAddr entry (db.heap record).addr
  home : ∀ record, db.Known record →
    db.get (homeOf (db.heap record).addr (db.heap record).uuid) = some record
  unprov : UnprovOwn db
  nodes : ∀ addr record, db.get (.nodes addr) = some record →
    (db.heap record).addr = addr ∧ addr ≠ 0
  backlog : ∀ uuid record, db.get (.backlog uuid) = some record → (db.heap record).addr = 0

namespace Registered

variable {db : CfgDb} {entries : List Value}

/-- The entry of a record has its address. -/
theorem entry_addr (registered : Registered db entries) {record : NodeId}
    (known : db.Known record) {entry : Value} (inside : entry ∈ entries)
    (here : entryUuid entry = some (db.heap record).uuid) :
    EntryAddr entry (db.heap record).addr := by
  obtain ⟨other, member, isUuid, isAddr⟩ := registered.listed record known
  have same : entry = other :=
    registered.uuids.eq_of_uuid inside member (here.trans isUuid.symm)
  rw [same]
  exact isAddr

/-- Each device has one record. -/
theorem unique (registered : Registered db entries) {first second : NodeId}
    (one : db.Known first) (two : db.Known second)
    (same : (db.heap first).uuid = (db.heap second).uuid) : first = second := by
  obtain ⟨entry, inside, isFirst, firstAddr⟩ := registered.listed first one
  have isSecond : entryUuid entry = some (db.heap second).uuid := by
    rw [← same]
    exact isFirst
  have sameAddr := firstAddr.unique (registered.entry_addr two inside isSecond)
  have firstHome := registered.home first one
  rw [sameAddr, same, registered.home second two] at firstHome
  exact (Option.some.inj firstHome).symm

theorem unheld_backlog (registered : Registered db entries) {record : NodeId}
    (known : db.Known record) (uuid : Uuid) : db.get (.backlog uuid) ≠ some record :=
  fun found => registered.allotted.apart uuid record found known

/-- Where a known record is removed from, no other known record is at home. -/
theorem removal_not_home (registered : Registered db entries) {record other : NodeId}
    (known : db.Known record) (otherKnown : db.Known other) (different : other ≠ record) :
    (db.heap record).removalSpot ≠ homeOf (db.heap other).addr (db.heap other).uuid := by
  intro same
  have otherHome := registered.home other otherKnown
  rw [← same] at otherHome
  by_cases addressed : (db.heap record).addr = 0
  · rw [removalSpot_of_no_addr addressed] at otherHome
    split at otherHome
    · have own := registered.home record known
      rw [homeOf, if_neg (not_not.mpr addressed), otherHome] at own
      exact different (Option.some.inj own)
    · exact registered.unheld_backlog otherKnown _ otherHome
  · have own := registered.home record known
    rw [homeOf, if_pos addressed, ← removalSpot_of_addr addressed, otherHome] at own
    exact different (Option.some.inj own)

end Registered

/-! ## A record moves -/

/-- A known record is taken from its place, gets another address, and is stored under it,
or among the unprovisioned devices when it has none. -/
structure Relocated (db after : CfgDb) (record : NodeId) (addr : UInt16) : Prop where
  known : db.Known record
  heap_other : ∀ other, other ≠ record → after.heap other = db.heap other
  isUuid : (after.heap record).uuid = (db.heap record).uuid
  isAddr : (after.heap record).addr = addr
  get : ∀ spot, after.get spot =
    if homeOf addr (db.heap record).uuid = spot then some record
    else (db.erase (db.heap record).removalSpot).get spot

namespace Relocated

variable {db after : CfgDb} {record : NodeId} {addr : UInt16}

theorem uuid_other (moved : Relocated db after record addr) (other : NodeId) :
    (after.heap other).uuid = (db.heap other).uuid := by
  by_cases same : other = record
  · rw [same, moved.isUuid]
  · rw [moved.heap_other other same]

theorem held (moved : Relocated db after record addr) {spot : Spot} {other : NodeId}
    (found : after.get spot = some other) :
    (homeOf addr (db.heap record).uuid = spot ∧ other = record) ∨
      ((db.heap record).removalSpot ≠ spot ∧ db.get spot = some other) := by
  rw [moved.get] at found
  split at found
  · rename_i same
    cases found
    exact .inl ⟨same, rfl⟩
  · exact .inr (CfgDb.get_of_get_erase found)

theorem known_before (moved : Relocated db after record addr) {other : NodeId}
    (known : after.Known other) : db.Known other := by
  obtain ⟨spot, notBacklog, found⟩ := known
  rcases moved.held found with ⟨_, same⟩ | ⟨_, before⟩
  · rw [same]
    exact moved.known
  · exact ⟨spot, notBacklog, before⟩

end Relocated

/-- The entry of the device gets its address, and no other entry changes its own.  The edit is
named, because other members of the entries may change with it. -/
structure EntriesMoved (entries after : List Value) (uuid : Uuid) (addr : UInt16) : Prop where
  edited : ∃ edit : Value → Value, after = entries.map edit ∧
    (∀ entry, (edit entry).get strUuid = entry.get strUuid) ∧
    (∀ entry ∈ entries, entryUuid entry = some uuid → EntryAddr (edit entry) addr) ∧
    ∀ entry ∈ entries, entryUuid entry ≠ some uuid → ∀ addr,
      EntryAddr (edit entry) addr ↔ EntryAddr entry addr

theorem entryAddr_editEntry_other {uuid : Uuid} {field : NodeField} {entry : Value}
    (other : strAddr ≠ field.key) (addr : UInt16) :
    EntryAddr (editEntry uuid field entry) addr ↔ EntryAddr entry addr := by
  unfold EntryAddr editEntry
  split
  · rw [memberUint_set_other other]
  · rfl

theorem entryAddr_editEntry {uuid : Uuid} {addr : UInt16} {entry : Value}
    (here : entryUuid entry = some uuid) :
    EntryAddr (editEntry uuid (.addr addr) entry) addr := by
  unfold EntryAddr editEntry
  rw [if_pos here]
  have written := memberUint_set_self UInt16.ofNat strAddr (isObject_of_entryUuid here)
    (str2uint_uint16ToStr addr)
  rw [UInt16.ofNat_toNat] at written
  exact written

namespace Registered

variable {db after : CfgDb} {entries : List Value} {record : NodeId}

/-- No other device has the address. -/
def AddrFree (entries : List Value) (uuid : Uuid) (addr : UInt16) : Prop :=
  ∀ entry ∈ entries, EntryAddr entry addr → entryUuid entry = some uuid

/-- The place that a record moves to is its own, or free. -/
theorem home_free (registered : Registered db entries) (known : db.Known record)
    {addr : UInt16} (free : addr ≠ 0 → AddrFree entries (db.heap record).uuid addr)
    {holder : NodeId} (held : db.get (homeOf addr (db.heap record).uuid) = some holder) :
    holder = record := by
  unfold homeOf at held
  split at held
  · rename_i addressed
    obtain ⟨isAddr, _⟩ := registered.nodes addr holder held
    have holderKnown := known_of_nodes held
    obtain ⟨entry, inside, isUuid, entryAddr⟩ := registered.listed holder holderKnown
    rw [isAddr] at entryAddr
    have same := free addressed entry inside entryAddr
    rw [isUuid] at same
    exact registered.unique holderKnown known (Option.some.inj same)
  · have same := registered.unprov _ holder held
    exact registered.unique (known_of_unprov held) known same

/-- A record that moves, with its entry, stays registered.  The record, its place and its entry
change together; every other record stays where it is, since nobody else has the new address. -/
theorem move (registered : Registered db entries) {addr : UInt16}
    (moved : Relocated db after record addr) (allotted : Allotted after)
    (free : addr ≠ 0 → AddrFree entries (db.heap record).uuid addr) {edited : List Value}
    (entriesMoved : EntriesMoved entries edited (db.heap record).uuid addr) :
    Registered after edited := by
  obtain ⟨edit, rfl, beside, own, others⟩ := entriesMoved
  have sameUuid : ∀ entry, entryUuid (edit entry) = entryUuid entry :=
    fun entry => entryUuid_congr (beside entry)
  constructor
  · exact registered.uuids.map beside
  · -- an address that is read after the move was read before it, or is the new one
    intro first isFirst second isSecond place nonzero firstAddr secondAddr
    obtain ⟨one, oneInside, rfl⟩ := List.mem_map.mp isFirst
    obtain ⟨two, twoInside, rfl⟩ := List.mem_map.mp isSecond
    rw [sameUuid, sameUuid]
    by_cases oneOwn : entryUuid one = some (db.heap record).uuid
    · by_cases twoOwn : entryUuid two = some (db.heap record).uuid
      · rw [oneOwn, twoOwn]
      · have isNew := firstAddr.unique (own one oneInside oneOwn)
        rw [isNew] at secondAddr nonzero
        have taken := (others two twoInside twoOwn _).mp secondAddr
        exact absurd (free nonzero two twoInside taken) twoOwn
    · have oneBefore := (others one oneInside oneOwn _).mp firstAddr
      by_cases twoOwn : entryUuid two = some (db.heap record).uuid
      · have isNew := secondAddr.unique (own two twoInside twoOwn)
        rw [isNew] at oneBefore nonzero
        exact absurd (free nonzero one oneInside oneBefore) oneOwn
      · have twoBefore := (others two twoInside twoOwn _).mp secondAddr
        exact registered.addrs one oneInside two twoInside place nonzero oneBefore twoBefore
  · exact allotted
  · intro other known
    have before := moved.known_before known
    obtain ⟨entry, inside, isUuid, isAddr⟩ := registered.listed other before
    refine ⟨edit entry, List.mem_map_of_mem inside, ?_, ?_⟩
    · rw [sameUuid, moved.uuid_other]
      exact isUuid
    · by_cases same : other = record
      · rw [same, moved.isAddr]
        rw [same] at isUuid
        exact own entry inside isUuid
      · rw [moved.heap_other other same]
        have apart : entryUuid entry ≠ some (db.heap record).uuid := by
          intro both
          rw [isUuid] at both
          exact same (registered.unique before moved.known (Option.some.inj both))
        exact (others entry inside apart _).mpr isAddr
  · intro other known
    have before := moved.known_before known
    by_cases same : other = record
    · subst same
      rw [moved.isAddr, moved.isUuid, moved.get, if_pos rfl]
    · rw [moved.heap_other other same, moved.get]
      have otherHome := registered.home other before
      rw [if_neg, CfgDb.get_erase,
        if_neg (registered.removal_not_home moved.known before same)]
      · exact otherHome
      · intro there
        rw [← there] at otherHome
        exact same (registered.home_free moved.known free otherHome)
  · intro uuid other found
    rw [moved.uuid_other]
    rcases moved.held found with ⟨there, same⟩ | ⟨_, before⟩
    · rw [same]
      unfold homeOf at there
      split at there
      · cases there
      · exact Spot.unprovDevs.inj there
    · exact registered.unprov uuid other before
  · intro place other found
    rcases moved.held found with ⟨there, same⟩ | ⟨notRemoved, before⟩
    · unfold homeOf at there
      split at there
      · rename_i addressed
        cases there
        rw [same, moved.isAddr]
        exact ⟨rfl, addressed⟩
      · cases there
    · obtain ⟨isAddr, nonzero⟩ := registered.nodes place other before
      by_cases same : other = record
      · -- its old place among the nodes was erased
        rw [same] at isAddr
        have addressed : (db.heap record).addr ≠ 0 := by rwa [isAddr]
        rw [removalSpot_of_addr addressed, isAddr] at notRemoved
        exact absurd rfl notRemoved
      · rw [moved.heap_other other same]
        exact ⟨isAddr, nonzero⟩
  · intro uuid other found
    rcases moved.held found with ⟨there, _⟩ | ⟨_, before⟩
    · exact absurd (by rw [there]; rfl) (homeOf_not_backlog addr (db.heap record).uuid)
    · have apart : other ≠ record := by
        intro same
        rw [same] at before
        exact registered.unheld_backlog moved.known uuid before
      rw [moved.heap_other other apart]
      exact registered.backlog uuid other before

/-- Taking a record from its place, writing it and adding it again relocates it. -/
theorem relocated (registered : Registered db entries) (known : db.Known record)
    {addr : UInt16} (free : addr ≠ 0 → AddrFree entries (db.heap record).uuid addr)
    {change : Node → Node} (sameUuid : (change (db.heap record)).uuid = (db.heap record).uuid)
    (newAddr : (change (db.heap record)).addr = addr) {tree : TreeId}
    (isTree : tree = if addr ≠ 0 then .nodes else .unprovDevs) :
    Relocated db (((db.erase (db.heap record).removalSpot).update record change).cfgdbAdd
      record tree) record addr := by
  have heap : (((db.erase (db.heap record).removalSpot).update record change).cfgdbAdd
      record tree).heap = Function.update db.heap record (change (db.heap record)) := by
    rw [CfgDb.heap_cfgdbAdd, CfgDb.update, CfgDb.heap_erase]
  have written : ((db.erase (db.heap record).removalSpot).update record change).heap record =
      change (db.heap record) := by
    rw [CfgDb.heap_update_self, CfgDb.heap_erase]
  have spot : (change (db.heap record)).spotIn tree = homeOf addr (db.heap record).uuid := by
    rw [isTree]
    by_cases addressed : addr = 0
    · simp [homeOf, addressed, Node.spotIn, Node.uuidKey, newAddr, sameUuid]
    · simp [homeOf, addressed, Node.spotIn, Node.addrKey, newAddr]
  constructor
  · exact known
  · intro other different
    rw [heap, Function.update_of_ne different]
  · rw [heap, Function.update_self]
    exact sameUuid
  · rw [heap, Function.update_self]
    exact newAddr
  · intro place
    unfold CfgDb.cfgdbAdd
    simp only [written, spot]
    cases found : ((db.erase (db.heap record).removalSpot).update record change).get
        (homeOf addr (db.heap record).uuid) with
    | none => simp only [CfgDb.get_set, CfgDb.get_update]
    | some holder =>
        rw [CfgDb.get_update] at found
        have isRecord := registered.home_free known free (CfgDb.get_of_get_erase found).2
        subst isRecord
        simp only [if_true, CfgDb.get_update]
        split
        · rename_i same
          rw [← same]
          exact found
        · rfl

/-! ## The functions that write a record -/

/-- `nodes_rm` and `nodes_bl`: the node loses its address. -/
theorem relocated_retire (registered : Registered db entries) {addr : UInt16}
    (found : db.cfgdbNodeGet addr = some record) {change : Node → Node}
    (sameUuid : (change (db.heap record)).uuid = (db.heap record).uuid)
    (cleared : (change (db.heap record)).addr = 0) :
    Relocated db (((db.cfgdbRemove record .nodes).update record change).cfgdbAdd record
      .unprovDevs) record 0 := by
  apply registered.relocated (known_of_nodes found) _ sameUuid cleared rfl
  intro impossible
  exact absurd rfl impossible

theorem relocated_nodesRm (registered : Registered db entries) {addr : UInt16}
    (done : db.nodesRm addr = .ok after) :
    ∃ record, db.cfgdbNodeGet addr = some record ∧ Relocated db after record 0 := by
  unfold CfgDb.nodesRm at done
  cases found : db.cfgdbNodeGet addr with
  | none =>
      rw [found] at done
      cases done
  | some record =>
      rw [found] at done
      cases done
      exact ⟨record, rfl, registered.relocated_retire found rfl rfl⟩

theorem relocated_nodesBl (registered : Registered db entries) {addr : UInt16}
    (done : db.nodesBl addr = .ok after) :
    ∃ record, db.cfgdbNodeGet addr = some record ∧ Relocated db after record 0 := by
  unfold CfgDb.nodesBl at done
  cases found : db.cfgdbNodeGet addr with
  | none =>
      rw [found] at done
      cases done
  | some record =>
      rw [found] at done
      cases done
      exact ⟨record, rfl, registered.relocated_retire found rfl rfl⟩

/-- `upl_nodeset_addr`: the device gets an address that is free. -/
theorem relocated_uplNodesetAddr (registered : Registered db entries) {uuid : Uuid}
    {addr : UInt16} (nonzero : addr ≠ 0) (free : AddrFree entries uuid addr)
    (done : db.uplNodesetAddr uuid addr = .ok after) :
    ∃ record, db.cfgdbUnprovDevGet uuid = some record ∧ (db.heap record).uuid = uuid ∧
      Relocated db after record addr := by
  unfold CfgDb.uplNodesetAddr at done
  cases found : db.cfgdbUnprovDevGet uuid with
  | none =>
      rw [found] at done
      cases done
  | some record =>
      rw [found] at done
      cases done
      have isUuid := registered.unprov uuid record found
      refine ⟨record, rfl, isUuid, ?_⟩
      apply registered.relocated (known_of_unprov found) _ rfl rfl (if_pos nonzero).symm
      intro _
      rw [isUuid]
      exact free

/-- A record that is written, but for its UUID and address, stays registered. -/
theorem update (registered : Registered db entries) (record : NodeId) {change : Node → Node}
    (sameUuid : ∀ node, (change node).uuid = node.uuid)
    (sameAddr : ∀ node, (change node).addr = node.addr) {edited : List Value}
    {edit : Value → Value} (isEdited : edited = entries.map edit)
    (beside : ∀ entry, (edit entry).get strUuid = entry.get strUuid)
    (keeps : ∀ entry addr, EntryAddr (edit entry) addr ↔ EntryAddr entry addr) :
    Registered (db.update record change) edited := by
  subst isEdited
  have uuid : ∀ other, ((db.update record change).heap other).uuid = (db.heap other).uuid := by
    intro other
    by_cases same : other = record
    · rw [same, CfgDb.heap_update_self, sameUuid]
    · rw [CfgDb.heap_update_of_ne db change same]
  have addr : ∀ other, ((db.update record change).heap other).addr = (db.heap other).addr := by
    intro other
    by_cases same : other = record
    · rw [same, CfgDb.heap_update_self, sameAddr]
    · rw [CfgDb.heap_update_of_ne db change same]
  have before : ∀ {other}, (db.update record change).Known other → db.Known other := by
    rintro other ⟨spot, notBacklog, found⟩
    rw [CfgDb.get_update] at found
    exact ⟨spot, notBacklog, found⟩
  constructor
  · exact registered.uuids.map beside
  · intro first isFirst second isSecond place nonzero firstAddr secondAddr
    obtain ⟨one, oneInside, rfl⟩ := List.mem_map.mp isFirst
    obtain ⟨two, twoInside, rfl⟩ := List.mem_map.mp isSecond
    rw [entryUuid_congr (beside one), entryUuid_congr (beside two)]
    exact registered.addrs one oneInside two twoInside place nonzero
      ((keeps one place).mp firstAddr) ((keeps two place).mp secondAddr)
  · apply registered.allotted.shrink
    · intro spot other found
      rwa [CfgDb.get_update] at found
    · rfl
  · intro other known
    obtain ⟨entry, inside, isUuid, isAddr⟩ := registered.listed other (before known)
    refine ⟨edit entry, List.mem_map_of_mem inside, ?_, ?_⟩
    · rw [entryUuid_congr (beside entry), uuid]
      exact isUuid
    · rw [addr]
      exact (keeps entry _).mpr isAddr
  · intro other known
    rw [addr, uuid, CfgDb.get_update]
    exact registered.home other (before known)
  · intro place other found
    rw [CfgDb.get_update] at found
    rw [uuid]
    exact registered.unprov place other found
  · intro place other found
    rw [CfgDb.get_update] at found
    rw [addr]
    exact registered.nodes place other found
  · intro place other found
    rw [CfgDb.get_update] at found
    rw [addr]
    exact registered.backlog place other found

/-!
## Loading an unchanged file

A load finds each record of its file at the place that the entry names, since the relation holds
before.  No second record comes to be, and the relation holds afterwards.
-/

/-- The record at the home of an entry is the one of its device, at its address. -/
theorem at_home (registered : Registered db entries) {item : Value} (inside : item ∈ entries)
    {uuid : Uuid} {addr : UInt16} (isUuid : entryUuid item = some uuid)
    (isAddr : EntryAddr item addr) (held : db.get (homeOf addr uuid) = some record) :
    (db.heap record).uuid = uuid ∧ (db.heap record).addr = addr := by
  unfold homeOf at held
  split at held
  · obtain ⟨sameAddr, nonzero⟩ := registered.nodes addr record held
    obtain ⟨entry, member, entryIs, entryAddr⟩ :=
      registered.listed record (known_of_nodes held)
    rw [sameAddr] at entryAddr
    have same := registered.addrs item inside entry member addr nonzero isAddr entryAddr
    rw [entryIs, isUuid] at same
    exact ⟨Option.some.inj same, sameAddr⟩
  · have same := registered.unprov uuid record held
    refine ⟨same, ?_⟩
    have entryAddr := registered.entry_addr (known_of_unprov held) inside (by rw [same, isUuid])
    exact entryAddr.unique isAddr

/-- Writing an entry of the file into the record at its home, or into a new one. -/
theorem load (registered : Registered db entries) {item : Value} (inside : item ∈ entries)
    {entry : NodeEntry} (isUuid : entryUuid item = some entry.uuid)
    (isAddr : EntryAddr item entry.addr) (writes : Writes db after entry record)
    (placed : Placed db entry record) : Registered after entries := by
  have uuid : (after.heap record).uuid = entry.uuid := by
    rw [writes.heap_self]
    rfl
  have addr : (after.heap record).addr = entry.addr := by
    rw [writes.heap_self]
    rfl
  -- a record that is known beside the written one is at another home
  have elsewhere : ∀ {other}, other ≠ record → db.Known other →
      homeOf entry.addr entry.uuid ≠ homeOf (db.heap other).addr (db.heap other).uuid := by
    intro other different known same
    have home := registered.home other known
    rw [← same] at home
    rcases placed with held | ⟨absent, _⟩
    · rw [held] at home
      exact different (Option.some.inj home).symm
    · rw [absent] at home
      cases home
  have known : ∀ {other}, other ≠ record → after.Known other → db.Known other := by
    intro other different present
    exact (writes.known present).resolve_left different
  constructor
  · exact registered.uuids
  · exact registered.addrs
  · exact registered.allotted.write writes placed
  · intro other present
    by_cases same : other = record
    · rw [same, uuid, addr]
      exact ⟨item, inside, isUuid, isAddr⟩
    · rw [writes.heap_other same]
      exact registered.listed other (known same present)
  · intro other present
    by_cases same : other = record
    · rw [same, uuid, addr, writes.get, if_pos rfl]
    · rw [writes.heap_other same, writes.get, if_neg (elsewhere same (known same present))]
      exact registered.home other (known same present)
  · intro place other found
    rw [writes.get] at found
    split at found
    · rename_i there
      cases found
      rw [uuid]
      unfold homeOf at there
      split at there
      · cases there
      · exact Spot.unprovDevs.inj there
    · by_cases same : other = record
      · rw [same] at found ⊢
        rcases placed with held | ⟨_, fresh⟩
        · rw [uuid, ← (registered.at_home inside isUuid isAddr held).1]
          exact registered.unprov place record found
        · rw [fresh] at found
          exact absurd (registered.allotted.allocated _ _ found) (Nat.lt_irrefl _)
      · rw [writes.heap_other same]
        exact registered.unprov place other found
  · intro place other found
    rw [writes.get] at found
    split at found
    · rename_i there
      cases found
      rw [addr]
      unfold homeOf at there
      split at there
      · rename_i nonzero
        cases there
        exact ⟨rfl, nonzero⟩
      · cases there
    · by_cases same : other = record
      · rw [same] at found ⊢
        rcases placed with held | ⟨_, fresh⟩
        · rw [addr, ← (registered.at_home inside isUuid isAddr held).2]
          exact registered.nodes place record found
        · rw [fresh] at found
          exact absurd (registered.allotted.allocated _ _ found) (Nat.lt_irrefl _)
      · rw [writes.heap_other same]
        exact registered.nodes place other found
  · intro place other found
    rw [writes.get, if_neg] at found
    · have apart : other ≠ record := by
        intro same
        rw [same] at found
        rcases placed with held | ⟨_, fresh⟩
        · exact registered.allotted.apart place record found
            ⟨_, homeOf_not_backlog _ _, held⟩
        · rw [fresh] at found
          exact Nat.lt_irrefl _ (registered.allotted.allocated _ _ found)
      rw [writes.heap_other apart]
      exact registered.backlog place other found
    · intro there
      exact homeOf_not_backlog entry.addr entry.uuid (by rw [there]; rfl)

/-- One round of a load of the entries. -/
theorem item (registered : Registered db entries) {item : Value} (inside : item ∈ entries)
    {templates : Templates} {fresh : UInt64}
    (round : loadNodeItem templates fresh false item db = .ok after) :
    Registered after entries := by
  rcases loadNodeItem_parsed round with ⟨_, same⟩ | ⟨entry, parsed, same⟩
  · rw [same]
    exact registered
  · rw [same]
    rcases loadNode_writes registered.allotted entry with ⟨record, held, writes⟩ |
      ⟨absent, writes⟩
    · exact registered.load inside parsed.uuid parsed.addr writes (.inl held)
    · exact registered.load inside parsed.uuid parsed.addr writes (.inr ⟨absent, rfl⟩)

/-- Loading the entries, or some of them. -/
theorem array (registered : Registered db entries) {templates : Templates}
    {fresh : Nat → UInt64} {index : Nat} {items : List Value}
    (inside : ∀ item ∈ items, item ∈ entries)
    (loads : loadNodeArr templates fresh false index items db = .ok after) :
    Registered after entries := by
  induction items generalizing index db with
  | nil =>
      cases loads
      exact registered
  | cons first rest hypothesis =>
      simp only [loadNodeArr, bind_ok] at loads
      obtain ⟨middle, round, later⟩ := loads
      apply hypothesis _ _ later
      · exact registered.item (inside first List.mem_cons_self) round
      · intro item member
        exact inside item (List.mem_cons_of_mem _ member)

/-- Only the records of the backlog differ, and they have no address. -/
theorem beside (registered : Registered db entries) (allotted : Allotted after)
    (same : ∀ spot, spot.tree ≠ .backlog → after.get spot = db.get spot)
    (heap : ∀ record, db.Known record → after.heap record = db.heap record)
    (noAddress : ∀ uuid record, after.get (.backlog uuid) = some record →
      (after.heap record).addr = 0) : Registered after entries := by
  have known : ∀ {record}, after.Known record → db.Known record := by
    rintro record ⟨spot, notBacklog, found⟩
    rw [same spot notBacklog] at found
    exact ⟨spot, notBacklog, found⟩
  constructor
  · exact registered.uuids
  · exact registered.addrs
  · exact allotted
  · intro record present
    rw [heap record (known present)]
    exact registered.listed record (known present)
  · intro record present
    rw [heap record (known present), same _ (homeOf_not_backlog _ _)]
    exact registered.home record (known present)
  · intro uuid record found
    have notBacklog : (Spot.unprovDevs uuid).tree ≠ .backlog := fun impossible => nomatch impossible
    rw [same _ notBacklog] at found
    rw [heap record (known_of_unprov found)]
    exact registered.unprov uuid record found
  · intro addr record found
    have notBacklog : (Spot.nodes addr).tree ≠ .backlog := fun impossible => nomatch impossible
    rw [same _ notBacklog] at found
    rw [heap record (known_of_nodes found)]
    exact registered.nodes addr record found
  · exact noAddress

/-- An entry of the backlog without an address is stored in the backlog, and nowhere else. -/
theorem get_loadBacklogEntry (db : CfgDb) {entry : NodeEntry} (noAddress : entry.addr = 0)
    (place : Spot) : (db.loadNode entry true).get place =
      if .backlog entry.uuid = place then some (db.loadRecord entry true)
      else db.get place := by
  have spot : (entry.fill Node.zeroed).spotIn .backlog = .backlog entry.uuid := by
    simp [NodeEntry.fill, Node.spotIn, Node.uuidKey, noAddress]
  have home : entry.lookupSpot true = .backlog entry.uuid := rfl
  unfold CfgDb.loadNode CfgDb.loadRecord
  rw [home]
  cases found : db.get (.backlog entry.uuid) with
  | some holder =>
      rw [CfgDb.get_update, Option.getD_some]
      split
      · rename_i same
        rw [← same, found]
      · rfl
  | none =>
      have tree : entry.treeOf true = .backlog := rfl
      simp only [CfgDb.cfgdbAdd, CfgDb.heap_update_self, CfgDb.heap_alloc_next, tree, spot,
        CfgDb.get_update, CfgDb.get_alloc, found, CfgDb.get_set, Option.getD_none]

/-- An entry of the backlog without an address. -/
theorem loadBacklogEntry (registered : Registered db entries) {entry : NodeEntry}
    (noAddress : entry.addr = 0) : Registered (db.loadNode entry true) entries := by
  obtain ⟨retained, allotted⟩ := loadNode_backlog_retained registered.allotted entry
  have get := @get_loadBacklogEntry db entry noAddress
  have written : ((db.loadNode entry true).heap (db.loadRecord entry true)).addr = 0 := by
    have home : entry.lookupSpot true = .backlog entry.uuid := rfl
    unfold CfgDb.loadNode CfgDb.loadRecord
    rw [home]
    cases found : db.get (.backlog entry.uuid) with
    | some holder =>
        simp only [Option.getD_some, CfgDb.heap_update_self]
        exact noAddress
    | none =>
        simp only [Option.getD_none, CfgDb.heap_cfgdbAdd, CfgDb.heap_update_self]
        exact noAddress
  apply registered.beside allotted
  · intro place notBacklog
    rw [get, if_neg]
    intro same
    exact notBacklog (by rw [← same]; rfl)
  · rintro record ⟨place, notBacklog, found⟩
    have still : (db.loadNode entry true).get place = some record := by
      rw [get, if_neg]
      · exact found
      · intro same
        exact notBacklog (by rw [← same]; rfl)
    exact (retained place record notBacklog still).2
  · intro uuid record found
    by_cases isRecord : record = db.loadRecord entry true
    · rw [isRecord]
      exact written
    · rw [db.heap_loadNode_of_ne entry true isRecord]
      rw [get] at found
      split at found
      · cases found
        exact absurd rfl isRecord
      · exact registered.backlog uuid record found

/-- Loading a backlog whose entries have no address. -/
theorem backlogArray (registered : Registered db entries) {templates : Templates}
    {fresh : Nat → UInt64} {index : Nat} {items : List Value}
    (noAddress : ∀ item ∈ items, ∀ addr, EntryAddr item addr → addr = 0)
    (loads : loadNodeArr templates fresh true index items db = .ok after) :
    Registered after entries := by
  induction items generalizing index db with
  | nil =>
      cases loads
      exact registered
  | cons first rest hypothesis =>
      simp only [loadNodeArr, bind_ok] at loads
      obtain ⟨middle, round, later⟩ := loads
      have others : ∀ item ∈ rest, ∀ addr, EntryAddr item addr → addr = 0 :=
        fun item member => noAddress item (List.mem_cons_of_mem _ member)
      apply hypothesis _ others later
      rcases loadNodeItem_parsed round with ⟨_, same⟩ | ⟨entry, parsed, same⟩
      · rw [same]
        exact registered
      · rw [same]
        exact registered.loadBacklogEntry (noAddress first List.mem_cons_self _ parsed.addr)

/-- A new record of the backlog is stored there. -/
theorem backlogNodeAdd_eq {db : CfgDb} {uuid : Uuid} (absent : db.cfgdbBacklogGet uuid = none) :
    db.backlogNodeAdd uuid =
      (db.alloc.update db.next (fun node => { node with uuid := uuid })).set (.backlog uuid)
        db.next := by
  have spot : ({ Node.zeroed with uuid := uuid } : Node).spotIn .backlog = .backlog uuid := rfl
  have held : db.get (.backlog uuid) = none := absent
  simp only [CfgDb.backlogNodeAdd, CfgDb.cfgdbAdd, CfgDb.heap_update_self,
    CfgDb.heap_alloc_next, spot, CfgDb.get_update, CfgDb.get_alloc, held]

theorem get_backlogNodeAdd {db : CfgDb} {uuid : Uuid} (absent : db.cfgdbBacklogGet uuid = none)
    (place : Spot) : (db.backlogNodeAdd uuid).get place =
      if .backlog uuid = place then some db.next else db.get place := by
  rw [backlogNodeAdd_eq absent, CfgDb.get_set, CfgDb.get_update, CfgDb.get_alloc]

/-- A new record of the backlog, which has no address. -/
theorem backlogNodeAdd (registered : Registered db entries) {uuid : Uuid}
    (absent : db.cfgdbBacklogGet uuid = none) : Registered (db.backlogNodeAdd uuid) entries := by
  have added := backlogNodeAdd_eq absent
  have get := get_backlogNodeAdd absent
  have heap : ∀ {record}, record ≠ db.next →
      (db.backlogNodeAdd uuid).heap record = db.heap record := by
    intro record other
    rw [added, CfgDb.heap_set, CfgDb.heap_update_of_ne _ _ other, CfgDb.heap_alloc_of_ne _ other]
  apply registered.beside (registered.allotted.backlogNodeAdd uuid)
  · intro place notBacklog
    rw [get, if_neg]
    intro same
    exact notBacklog (by rw [← same]; rfl)
  · rintro record ⟨place, notBacklog, found⟩
    have older := registered.allotted.allocated place record found
    exact heap (Nat.ne_of_lt older)
  · intro place record found
    rw [get] at found
    split at found
    · cases found
      rw [added, CfgDb.heap_set, CfgDb.heap_update_self, CfgDb.heap_alloc_next]
      rfl
    · have older := registered.allotted.allocated _ record found
      rw [heap (Nat.ne_of_lt older)]
      exact registered.backlog place record found

/-- The trees were emptied, but for the backlog. -/
theorem cleared (registered : Registered db entries) :
    Registered db.cfgdbRemoveAllNodes.cfgdbRemoveAllUpl entries := by
  constructor
  · exact registered.uuids
  · exact registered.addrs
  · exact registered.allotted.cleared
  · intro record known
    exact absurd known known_cleared
  · intro record known
    exact absurd known known_cleared
  · intro uuid record found
    exact absurd (known_of_unprov found) known_cleared
  · intro addr record found
    exact absurd (known_of_nodes found) known_cleared
  · intro uuid record found
    exact registered.backlog uuid record found

end Registered

end Nwmng
