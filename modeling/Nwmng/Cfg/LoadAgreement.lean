/-
Module: Nwmng.Cfg.LoadAgreement
Purpose: When a load of the nodes file leaves the file and the records in step.
Trusted boundary: none
Main exports:
  EntryValid, FoundAgain, Loading, reload_inStep, files_agree_guarded
-/
import Nwmng.Cfg.Agreement

namespace Nwmng

open Json Fallible Transition

/-! ## Entries that are loaded -/

/-- Every mandatory field of an entry is there and well-formed.  Such an entry is loaded in full,
so that every field of the record comes from the file. -/
structure EntryValid (item : Value) : Prop where
  mentioned : nodeValidCheck item = .ok true
  addr : ∃ addr, memberUint UInt16.ofNat item strAddr = .ok (some addr)
  uuid : ∃ uuid, entryUuid item = some uuid
  rmorbl : ∃ rmorbl, memberUint UInt8.ofNat item strRmorbl = .ok (some rmorbl)
  done : ∃ done, memberUint UInt8.ofNat item strDone = .ok (some done)
  err : ∃ err, memberUint (BitVec.ofNat 32) item strErrbits = .ok (some err)
  func : ∃ func, memberUint (BitVec.ofNat 8) item strFunc = .ok (some func)

/-- The fields of an entry are those of its item. -/
structure Parsed (item : Value) (entry : NodeEntry) : Prop where
  valid : EntryValid item
  uuid : entryUuid item = some entry.uuid
  addr : memberUint UInt16.ofNat item strAddr = .ok (some entry.addr)
  err : memberUint (BitVec.ofNat 32) item strErrbits = .ok (some entry.err)
  done : memberUint UInt8.ofNat item strDone = .ok (some entry.done)
  func : memberUint (BitVec.ofNat 8) item strFunc = .ok (some entry.func)

theorem parseEntry_some {fresh : UInt64} {item : Value} {entry : NodeEntry}
    (parses : parseEntry fresh item = .ok (some entry)) : Parsed item entry := by
  simp only [parseEntry, bind_ok] at parses
  obtain ⟨valid, mentioned, parses⟩ := parses
  cases valid with
  | false => cases parses
  | true =>
      simp only [Bool.not_true, Bool.false_eq_true, if_false, bind_ok] at parses
      obtain ⟨addr, addrReads, parses⟩ := parses
      cases addr with
      | none => cases parses
      | some addr =>
          cases uuidReads : memberUuid clearedBuffer item with
          | none =>
              simp only [uuidReads] at parses
              cases parses
          | some uuid =>
              simp only [uuidReads, bind_ok] at parses
              obtain ⟨rmorbl, rmorblReads, parses⟩ := parses
              cases rmorbl with
              | none => cases parses
              | some rmorbl =>
                  simp only [bind_ok] at parses
                  obtain ⟨done, doneReads, parses⟩ := parses
                  cases done with
                  | none => cases parses
                  | some done =>
                      simp only [bind_ok] at parses
                      obtain ⟨err, errReads, parses⟩ := parses
                      cases err with
                      | none => cases parses
                      | some err =>
                          simp only [bind_ok] at parses
                          obtain ⟨func, funcReads, parses⟩ := parses
                          cases func with
                          | none => cases parses
                          | some func =>
                              simp only [bind_ok] at parses
                              obtain ⟨tmpl, _, result⟩ := parses
                              cases result
                              exact
                                { valid := ⟨mentioned, ⟨_, addrReads⟩, ⟨_, uuidReads⟩,
                                    ⟨_, rmorblReads⟩, ⟨_, doneReads⟩, ⟨_, errReads⟩,
                                    ⟨_, funcReads⟩⟩
                                  uuid := uuidReads
                                  addr := addrReads
                                  err := errReads
                                  done := doneReads
                                  func := funcReads }

/-- A valid item is not passed over. -/
theorem EntryValid.parses {item : Value} (valid : EntryValid item) (fresh : UInt64) :
    parseEntry fresh item ≠ .ok none := by
  obtain ⟨mentioned, ⟨addr, addrReads⟩, ⟨uuid, uuidReads⟩, ⟨rmorbl, rmorblReads⟩,
    ⟨done, doneReads⟩, ⟨err, errReads⟩, ⟨func, funcReads⟩⟩ := valid
  unfold entryUuid at uuidReads
  unfold parseEntry
  simp only [mentioned, addrReads, uuidReads, rmorblReads, doneReads, errReads, funcReads,
    ok_bind, Bool.not_true, Bool.false_eq_true, if_false]
  cases tmplField fresh item with
  | error abort =>
      intro impossible
      cases impossible
  | ok tmpl =>
      intro impossible
      cases impossible

theorem Parsed.agrees {item : Value} {entry : NodeEntry} (parsed : Parsed item entry)
    (node : Node) : EntryAgrees item (entry.fill node) :=
  ⟨parsed.addr, parsed.err, parsed.done, parsed.func⟩

/-- A loaded item is not valid, or it is parsed and written to the database. -/
theorem loadNodeItem_parsed {templates : Templates} {fresh : UInt64} {backlog : Bool}
    {item : Value} {db after : CfgDb}
    (round : loadNodeItem templates fresh backlog item db = .ok after) :
    (parseEntry fresh item = .ok none ∧ after = db) ∨
      ∃ entry, Parsed item entry ∧ after = db.loadNode entry backlog := by
  simp only [loadNodeItem, bind_ok] at round
  obtain ⟨parsed, parses, round⟩ := round
  cases parsed with
  | none => exact .inl ⟨parses, (Except.ok.inj round).symm⟩
  | some entry =>
      right
      simp only [bind_ok, Except.ok.injEq] at round
      obtain ⟨loaded, _, rfl⟩ := round
      have fields := parseEntry_some parses
      exact ⟨{ entry with config := fun _ => loaded.config },
        ⟨fields.valid, fields.uuid, fields.addr, fields.err, fields.done, fields.func⟩, rfl⟩

/-! ## What is written -/

/-- Where an entry outside of the backlog is looked up. -/
def homeOf (addr : UInt16) (uuid : Uuid) : Spot :=
  if addr ≠ 0 then .nodes addr else .unprovDevs uuid

theorem homeOf_not_backlog (addr : UInt16) (uuid : Uuid) :
    (homeOf addr uuid).tree ≠ .backlog := by
  unfold homeOf
  split
  · intro impossible
    cases impossible
  · intro impossible
    cases impossible

/-- Identities in use were handed out, and those of the backlog are in no other tree.  A new
record is therefore never one that some tree still holds. -/
structure Allotted (db : CfgDb) : Prop where
  allocated : ∀ spot record, db.get spot = some record → record < db.next
  apart : ∀ uuid record, db.get (.backlog uuid) = some record → ¬ db.Known record

/-- An entry is written into the record at its home.  The home is given by the address, or by the
UUID when the address is 0. -/
structure Writes (db after : CfgDb) (entry : NodeEntry) (record : NodeId) : Prop where
  heap : after.heap = Function.update db.heap record (entry.fill (db.loadTarget entry false))
  get : ∀ spot, after.get spot =
    if homeOf entry.addr entry.uuid = spot then some record else db.get spot
  next : db.next ≤ after.next ∧ record < after.next

/-- The record at home, or a new one. -/
theorem loadNode_writes {db : CfgDb} (allotted : Allotted db) (entry : NodeEntry) :
    (∃ record, db.get (homeOf entry.addr entry.uuid) = some record ∧
      Writes db (db.loadNode entry false) entry record) ∨
    (db.get (homeOf entry.addr entry.uuid) = none ∧
      Writes db (db.loadNode entry false) entry db.next) := by
  have home : entry.lookupSpot false = homeOf entry.addr entry.uuid := rfl
  cases found : db.get (homeOf entry.addr entry.uuid) with
  | some record =>
      left
      have loaded : db.loadNode entry false = db.update record entry.fill := by
        unfold CfgDb.loadNode
        rw [home, found]
      have target : db.loadTarget entry false = db.heap record := by
        unfold CfgDb.loadTarget
        rw [home, found]
      refine ⟨record, rfl, ?_, ?_, ?_⟩
      · rw [loaded, target]
        rfl
      · intro spot
        rw [loaded, CfgDb.get_update]
        split
        · rename_i same
          rw [← same, found]
        · rfl
      · rw [loaded, CfgDb.next_update]
        exact ⟨Nat.le_refl _, allotted.allocated _ _ found⟩
  | none =>
      right
      have target : db.loadTarget entry false = Node.zeroed := by
        unfold CfgDb.loadTarget
        rw [home, found]
      have spot : (entry.fill Node.zeroed).spotIn (entry.treeOf false) =
          homeOf entry.addr entry.uuid := by
        by_cases addressed : entry.addr = 0
        · simp [NodeEntry.treeOf, NodeEntry.fill, Node.spotIn, Node.uuidKey, homeOf, addressed]
        · simp [NodeEntry.treeOf, NodeEntry.fill, Node.spotIn, Node.addrKey, homeOf, addressed]
      have loaded : db.loadNode entry false =
          (db.alloc.update db.next entry.fill).set (homeOf entry.addr entry.uuid) db.next := by
        unfold CfgDb.loadNode
        rw [home, found]
        simp only [CfgDb.cfgdbAdd, CfgDb.heap_update_self, CfgDb.heap_alloc_next, spot,
          CfgDb.get_update, CfgDb.get_alloc, found]
      refine ⟨rfl, ?_, ?_, ?_⟩
      · rw [loaded, target, CfgDb.heap_set]
        simp [CfgDb.update, CfgDb.alloc]
      · intro place
        rw [loaded, CfgDb.get_set, CfgDb.get_update, CfgDb.get_alloc]
      · rw [loaded, CfgDb.next_set, CfgDb.next_update, CfgDb.next_alloc]
        exact ⟨Nat.le_succ _, Nat.lt_succ_self _⟩

namespace Writes

variable {db after : CfgDb} {entry : NodeEntry} {record : NodeId}

theorem heap_self (writes : Writes db after entry record) :
    after.heap record = entry.fill (db.loadTarget entry false) := by
  rw [writes.heap, Function.update_self]

theorem heap_other (writes : Writes db after entry record) {other : NodeId}
    (different : other ≠ record) : after.heap other = db.heap other := by
  rw [writes.heap, Function.update_of_ne different]

theorem known (writes : Writes db after entry record) {other : NodeId}
    (present : after.Known other) : other = record ∨ db.Known other := by
  obtain ⟨spot, notBacklog, found⟩ := present
  rw [writes.get] at found
  split at found
  · cases found
    exact .inl rfl
  · exact .inr ⟨spot, notBacklog, found⟩

end Writes

/-!
## When the records of an earlier load do not get in the way

A load without clearing meets the records of the load before.  It looks for a record only where
the entry says that it is, by its address or by its UUID.  A record that lies elsewhere stays,
next to the new one.
-/

/-- The records that are there before a load are found again.  A record with an entry lies
where the entry is looked up, and the entry is valid; an entry that takes over the record
of another device takes it over from the nodes only. -/
structure FoundAgain (db : CfgDb) (entries : List Value) : Prop where
  own : UnprovOwn db
  taken : ∀ entry ∈ entries, ∀ addr uuid record,
    memberUint UInt16.ofNat entry strAddr = .ok (some addr) →
    db.get (.nodes addr) = some record → db.get (.unprovDevs uuid) = some record →
    entryUuid entry = some uuid
  current : ∀ record, db.Known record → ∀ entry ∈ entries,
    entryUuid entry = some (db.heap record).uuid →
    EntryValid entry ∧ ∀ addr, memberUint UInt16.ofNat entry strAddr = .ok (some addr) →
      db.get (homeOf addr (db.heap record).uuid) = some record

/-- During a load: the items that were loaded are matched.  The records of earlier loads that the
file no longer mentions are still there, and must not answer for an entry. -/
structure Loading (db : CfgDb) (entries loaded : List Value) : Prop where
  allotted : Allotted db
  again : FoundAgain db entries
  agrees : ∀ record, db.Known record → ∀ entry ∈ loaded,
    entryUuid entry = some (db.heap record).uuid → EntryAgrees entry (db.heap record)

/-- An item that is passed over belongs to no record. -/
theorem Loading.skip {db : CfgDb} {entries loaded : List Value}
    (loading : Loading db entries loaded) {item : Value} (inside : item ∈ entries)
    {fresh : UInt64} (skipped : parseEntry fresh item = .ok none) :
    Loading db entries (loaded ++ [item]) where
  allotted := loading.allotted
  again := loading.again
  agrees := by
    intro record known entry member here
    rcases List.mem_append.mp member with old | new
    · exact loading.agrees record known entry old here
    · rw [List.mem_singleton.mp new] at here
      have valid := (loading.again.current record known item inside here).1
      exact absurd skipped (valid.parses fresh)

section

variable {db after : CfgDb} {entries loaded : List Value} {item : Value} {entry : NodeEntry}
  {record : NodeId}

/-- Another record that has the UUID of the entry is the one at its home. -/
theorem FoundAgain.at_home (again : FoundAgain db entries) (inside : item ∈ entries)
    (parsed : Parsed item entry) {other : NodeId} (known : db.Known other)
    (same : (db.heap other).uuid = entry.uuid) :
    db.get (homeOf entry.addr entry.uuid) = some other := by
  have here : entryUuid item = some (db.heap other).uuid := by
    rw [same]
    exact parsed.uuid
  have home := (again.current other known item inside here).2 entry.addr parsed.addr
  rwa [same] at home

/-- The record that is written was at the home of the entry, or is new. -/
def Placed (db : CfgDb) (entry : NodeEntry) (record : NodeId) : Prop :=
  db.get (homeOf entry.addr entry.uuid) = some record ∨
    db.get (homeOf entry.addr entry.uuid) = none ∧ record = db.next

theorem Writes.get_same (writes : Writes db after entry record)
    (held : db.get (homeOf entry.addr entry.uuid) = some record) (spot : Spot) :
    after.get spot = db.get spot := by
  rw [writes.get]
  split
  · rename_i same
    rw [← same, held]
  · rfl

theorem Allotted.write (allotted : Allotted db) (writes : Writes db after entry record)
    (placed : Placed db entry record) : Allotted after where
  allocated := by
    intro spot other found
    rw [writes.get] at found
    split at found
    · cases found
      exact writes.next.2
    · exact Nat.lt_of_lt_of_le (allotted.allocated spot other found) writes.next.1
  apart := by
    intro uuid other found known
    have before : db.get (.backlog uuid) = some other := by
      rw [writes.get, if_neg] at found
      · exact found
      · intro same
        exact homeOf_not_backlog entry.addr entry.uuid (by rw [same]; rfl)
    rcases writes.known known with isRecord | older
    · rcases placed with held | ⟨_, fresh⟩
      · rw [← isRecord] at held
        exact allotted.apart uuid other before ⟨_, homeOf_not_backlog _ _, held⟩
      · rw [isRecord, fresh] at before
        exact Nat.lt_irrefl _ (allotted.allocated _ _ before)
    · exact allotted.apart uuid other before older

/-- No other known record has the UUID of the entry. -/
theorem FoundAgain.only (again : FoundAgain db entries) (inside : item ∈ entries)
    (parsed : Parsed item entry) (placed : Placed db entry record) {other : NodeId}
    (different : other ≠ record) (known : db.Known other) :
    (db.heap other).uuid ≠ entry.uuid := by
  intro same
  have home := again.at_home inside parsed known same
  rcases placed with found | ⟨absent, _⟩
  · exact different (Option.some.inj (home.symm.trans found))
  · rw [absent] at home
    cases home

theorem FoundAgain.write_own (allotted : Allotted db) (again : FoundAgain db entries)
    (inside : item ∈ entries) (parsed : Parsed item entry)
    (writes : Writes db after entry record) (placed : Placed db entry record) :
    UnprovOwn after := by
  intro uuid other found
  by_cases isRecord : other = record
  · subst isRecord
    rw [writes.heap_self]
    change entry.uuid = uuid
    rw [writes.get] at found
    split at found
    · rename_i home
      unfold homeOf at home
      split at home
      · cases home
      · exact Spot.unprovDevs.inj home
    · -- the record was at the home of the entry already
      rcases placed with held | ⟨_, fresh⟩
      · unfold homeOf at held
        split at held
        · have both := again.taken item inside entry.addr uuid other parsed.addr held found
          exact Option.some.inj (parsed.uuid.symm.trans both)
        · exact (again.own _ _ held).symm.trans (again.own _ _ found)
      · rw [fresh] at found
        exact absurd (allotted.allocated _ _ found) (Nat.lt_irrefl _)
  · rw [writes.heap_other isRecord]
    rw [writes.get] at found
    split at found
    · exact absurd (Option.some.inj found).symm isRecord
    · exact again.own uuid other found

theorem FoundAgain.write_taken (allotted : Allotted db) (again : FoundAgain db entries)
    (writes : Writes db after entry record) (placed : Placed db entry record)
    {other : Value} (member : other ∈ entries) {addr : UInt16} {uuid : Uuid}
    {holder : NodeId} (reads : memberUint UInt16.ofNat other strAddr = .ok (some addr))
    (first : after.get (.nodes addr) = some holder)
    (second : after.get (.unprovDevs uuid) = some holder) :
    entryUuid other = some uuid := by
  rcases placed with held | ⟨_, fresh⟩
  · rw [writes.get_same held] at first second
    exact again.taken other member addr uuid holder reads first second
  · have unused : ∀ spot, db.get spot ≠ some record := by
      intro spot found
      rw [fresh] at found
      exact Nat.lt_irrefl _ (allotted.allocated _ _ found)
    rw [writes.get] at first second
    split at first
    · rename_i home
      cases first
      rw [home, if_neg (fun impossible => nomatch impossible)] at second
      exact absurd second (unused _)
    · split at second
      · cases second
        exact absurd first (unused _)
      · exact again.taken other member addr uuid holder reads first second

theorem FoundAgain.write_current (again : FoundAgain db entries)
    (uuids : UuidsDistinct entries) (inside : item ∈ entries) (parsed : Parsed item entry)
    (writes : Writes db after entry record) (placed : Placed db entry record)
    {holder : NodeId} (known : after.Known holder) {other : Value} (member : other ∈ entries)
    (here : entryUuid other = some (after.heap holder).uuid) :
    EntryValid other ∧ ∀ addr, memberUint UInt16.ofNat other strAddr = .ok (some addr) →
      after.get (homeOf addr (after.heap holder).uuid) = some holder := by
  by_cases isRecord : holder = record
  · subst isRecord
    have isUuid : (after.heap holder).uuid = entry.uuid := by
      rw [writes.heap_self]
      rfl
    rw [isUuid] at here ⊢
    have same : other = item := uuids.eq_of_uuid member inside (here.trans parsed.uuid.symm)
    rw [same]
    refine ⟨parsed.valid, ?_⟩
    intro addr reads
    have isAddr : addr = entry.addr := by
      have both := reads.symm.trans parsed.addr
      exact Option.some.inj (Except.ok.inj both)
    rw [isAddr, writes.get, if_pos rfl]
  · have before : db.Known holder := (writes.known known).resolve_left isRecord
    rw [writes.heap_other isRecord] at here ⊢
    obtain ⟨valid, lies⟩ := again.current holder before other member here
    refine ⟨valid, ?_⟩
    intro addr reads
    have found := lies addr reads
    rw [writes.get, if_neg]
    · exact found
    · intro home
      rw [← home] at found
      rcases placed with held | ⟨absent, _⟩
      · exact isRecord (Option.some.inj (found.symm.trans held))
      · rw [absent] at found
        cases found

/-- Loading a valid item keeps the records where they are looked for, and the new values
are those of the item. -/
theorem Loading.write (loading : Loading db entries loaded)
    (uuids : UuidsDistinct entries) (inside : item ∈ entries)
    (loadedInside : ∀ entry ∈ loaded, entry ∈ entries) (parsed : Parsed item entry)
    (writes : Writes db after entry record) (placed : Placed db entry record) :
    Loading after entries (loaded ++ [item]) where
  allotted := loading.allotted.write writes placed
  again :=
    { own := loading.again.write_own loading.allotted inside parsed writes placed
      taken := fun other member addr uuid holder reads first second =>
        loading.again.write_taken loading.allotted writes placed member reads first second
      current := fun holder known other member here =>
        loading.again.write_current uuids inside parsed writes placed known member here }
  agrees := by
    intro holder known other member here
    by_cases isRecord : holder = record
    · subst isRecord
      rw [writes.heap_self] at here ⊢
      have within : other ∈ entries := by
        rcases List.mem_append.mp member with old | new
        · exact loadedInside other old
        · rw [List.mem_singleton.mp new]
          exact inside
      have same : other = item := uuids.eq_of_uuid within inside (here.trans parsed.uuid.symm)
      rw [same]
      exact parsed.agrees _
    · have before : db.Known holder := (writes.known known).resolve_left isRecord
      rw [writes.heap_other isRecord] at here ⊢
      rcases List.mem_append.mp member with old | new
      · exact loading.agrees holder before other old here
      · rw [List.mem_singleton.mp new] at here
        have same : (db.heap holder).uuid = entry.uuid :=
          Option.some.inj (here.symm.trans parsed.uuid)
        exact absurd same (loading.again.only inside parsed placed isRecord before)

end

/-- One round over an item. -/
theorem Loading.round {db after : CfgDb} {entries loaded : List Value}
    (loading : Loading db entries loaded) (uuids : UuidsDistinct entries)
    (loadedInside : ∀ entry ∈ loaded, entry ∈ entries) {item : Value}
    (inside : item ∈ entries) {templates : Templates} {fresh : UInt64}
    (done : loadNodeItem templates fresh false item db = .ok after) :
    Loading after entries (loaded ++ [item]) := by
  rcases loadNodeItem_parsed done with ⟨skipped, same⟩ | ⟨entry, parsed, same⟩
  · rw [same]
    exact loading.skip inside skipped
  · rw [same]
    rcases loadNode_writes loading.allotted entry with ⟨record, held, writes⟩ | ⟨absent, writes⟩
    · exact loading.write uuids inside loadedInside parsed writes (.inl held)
    · exact loading.write uuids inside loadedInside parsed writes (.inr ⟨absent, rfl⟩)

/-- The whole array of a subnet. -/
theorem Loading.array {entries loaded rest : List Value} (uuids : UuidsDistinct entries)
    (whole : entries = loaded ++ rest) {templates : Templates} {fresh : Nat → UInt64}
    {index : Nat} {db after : CfgDb} (loading : Loading db entries loaded)
    (done : loadNodeArr templates fresh false index rest db = .ok after) :
    Loading after entries entries := by
  induction rest generalizing loaded index db with
  | nil =>
      cases done
      rw [List.append_nil] at whole
      rw [← whole] at loading
      exact loading
  | cons item rest hypothesis =>
      simp only [loadNodeArr, bind_ok] at done
      obtain ⟨middle, first, later⟩ := done
      have inside : item ∈ entries := by
        rw [whole]
        exact List.mem_append_right _ List.mem_cons_self
      have loadedInside : ∀ entry ∈ loaded, entry ∈ entries := by
        intro entry member
        rw [whole]
        exact List.mem_append_left _ member
      have following := loading.round uuids loadedInside inside first
      apply hypothesis _ following later
      rw [whole, List.append_assoc, List.singleton_append]

/-! ## The backlog -/

/-- What is left among the nodes and the unprovisioned devices is as it was. -/
def Retained (db after : CfgDb) : Prop :=
  ∀ spot record, spot.tree ≠ .backlog → after.get spot = some record →
    db.get spot = some record ∧ after.heap record = db.heap record

theorem Matched.retained {db after : CfgDb} {entries : List Value}
    (matched : Matched db entries) (retained : Retained db after) : Matched after entries := by
  have before : ∀ {record}, after.Known record →
      db.Known record ∧ after.heap record = db.heap record := by
    rintro record ⟨spot, notBacklog, found⟩
    obtain ⟨held, same⟩ := retained spot record notBacklog found
    exact ⟨⟨spot, notBacklog, held⟩, same⟩
  constructor
  · exact matched.uuids
  · intro uuid record found
    obtain ⟨held, same⟩ := retained (.unprovDevs uuid) record
      (fun impossible => nomatch impossible) found
    rw [same]
    exact matched.own uuid record held
  · intro first second one two same present
    rw [(before one).2] at same present
    rw [(before two).2] at same
    exact matched.one_record first second (before one).1 (before two).1 same present
  · intro record known entry member here
    rw [(before known).2] at here ⊢
    exact matched.agrees record (before known).1 entry member here

/-- What the trees hold after an entry was loaded to the backlog. -/
theorem get_loadNode_backlog (db : CfgDb) (entry : NodeEntry) {spot : Spot}
    {record : NodeId} (found : (db.loadNode entry true).get spot = some record) :
    (db.get (.backlog entry.uuid) = none ∧ record = db.next ∧ spot.tree = .backlog) ∨
      db.get spot = some record := by
  have home : entry.lookupSpot true = .backlog entry.uuid := rfl
  unfold CfgDb.loadNode at found
  rw [home] at found
  cases held : db.get (.backlog entry.uuid) with
  | some holder =>
      rw [held] at found
      exact .inr ((CfgDb.get_update db holder entry.fill spot).symm.trans found)
  | none =>
      rw [held] at found
      let filled := db.alloc.update db.next entry.fill
      have added : (filled.cfgdbAdd db.next .backlog).get spot = some record := found
      rcases get_cfgdbAdd added with new | older
      · exact .inl ⟨rfl, new⟩
      · rw [CfgDb.get_update, CfgDb.get_alloc] at older
        exact .inr older

theorem next_loadNode (db : CfgDb) (entry : NodeEntry) (backlog : Bool) :
    (db.loadNode entry backlog).next =
      if (db.get (entry.lookupSpot backlog)).isSome then db.next else db.next + 1 := by
  unfold CfgDb.loadNode
  cases db.get (entry.lookupSpot backlog) with
  | some record => rfl
  | none =>
      dsimp only
      rw [CfgDb.next_cfgdbAdd]
      rfl

theorem loadNode_backlog_retained {db : CfgDb} (allotted : Allotted db) (entry : NodeEntry) :
    Retained db (db.loadNode entry true) ∧ Allotted (db.loadNode entry true) := by
  have retained : Retained db (db.loadNode entry true) := by
    intro spot record notBacklog found
    rcases get_loadNode_backlog db entry found with ⟨_, _, backlog⟩ | held
    · exact absurd backlog notBacklog
    · refine ⟨held, db.heap_loadNode_of_ne entry true ?_⟩
      intro same
      unfold CfgDb.loadRecord at same
      cases home : db.get (entry.lookupSpot true) with
      | some holder =>
          rw [home, Option.getD_some] at same
          rw [← same] at home
          exact allotted.apart _ _ home ⟨spot, notBacklog, held⟩
      | none =>
          rw [home, Option.getD_none] at same
          rw [same] at held
          exact Nat.lt_irrefl _ (allotted.allocated _ _ held)
  refine ⟨retained, ?_, ?_⟩
  · intro spot record found
    rw [next_loadNode]
    rcases get_loadNode_backlog db entry found with ⟨absent, isNew, _⟩ | held
    · have home : db.get (entry.lookupSpot true) = none := absent
      rw [home, isNew]
      exact Nat.lt_succ_self _
    · have older := allotted.allocated spot record held
      split
      · exact older
      · exact Nat.lt_succ_of_lt older
  · intro uuid record found known
    obtain ⟨spot, notBacklog, present⟩ := known
    have held := (retained spot record notBacklog present).1
    rcases get_loadNode_backlog db entry found with ⟨_, isNew, _⟩ | older
    · rw [isNew] at held
      exact Nat.lt_irrefl _ (allotted.allocated _ _ held)
    · exact allotted.apart uuid record older ⟨spot, notBacklog, held⟩

theorem Retained.trans {first second third : CfgDb} (one : Retained first second)
    (two : Retained second third) : Retained first third := by
  intro spot record notBacklog found
  obtain ⟨held, same⟩ := two spot record notBacklog found
  obtain ⟨older, sameBefore⟩ := one spot record notBacklog held
  exact ⟨older, same.trans sameBefore⟩

/-- Loading the backlog array. -/
theorem loadNodeArr_backlog_retained {templates : Templates} {fresh : Nat → UInt64}
    {index : Nat} {items : List Value} {db after : CfgDb} (allotted : Allotted db)
    (done : loadNodeArr templates fresh true index items db = .ok after) :
    Retained db after := by
  induction items generalizing index db with
  | nil =>
      cases done
      intro spot record _ found
      exact ⟨found, rfl⟩
  | cons item rest hypothesis =>
      simp only [loadNodeArr, bind_ok] at done
      obtain ⟨middle, first, later⟩ := done
      rcases loadNodeItem_parsed first with ⟨_, same⟩ | ⟨entry, _, same⟩
      · rw [same] at later
        exact hypothesis allotted later
      · obtain ⟨retained, allottedAfter⟩ := loadNode_backlog_retained allotted entry
        rw [← same] at retained allottedAfter
        exact retained.trans (hypothesis allottedAfter later)

theorem loadBacklog_retained {env : LoadEnv} {nw : NwCfg} {db after : CfgDb}
    (allotted : Allotted db) (done : loadBacklog env nw db = .ok after) :
    Retained db after := by
  have same : Retained db db := fun spot record _ found => ⟨found, rfl⟩
  unfold loadBacklog at done
  split at done
  · cases done
    exact same
  · unfold loadNodeValue at done
    split at done
    · cases done
      exact same
    · exact loadNodeArr_backlog_retained allotted done
    · cases done
  · cases done

/-! ## The load -/

/-- The entries of the first subnet of a file. -/
def SavedFile.entries (file : SavedFile) : List Value :=
  match file.content.bind (·.seek nodesPath) with
  | some (.array items) => items
  | _ => []

theorem seek_of_firstNodes {nw : NwCfg} {nodes : Value}
    (found : nw.firstNodes = some nodes) : nw.root.bind (·.seek nodesPath) = some nodes := by
  unfold NwCfg.firstNodes at found
  split at found
  · cases found
  · exact found

theorem openMembers_root {members : List (String × Value)} {tree after : OpenTree}
    {backlog seen : BacklogRef} {opened : Bool}
    (done : openMembers members tree backlog = .ok (opened, after, seen)) :
    after.root = tree.root := by
  induction members generalizing tree backlog with
  | nil =>
      cases done
      rfl
  | cons first rest hypothesis =>
      obtain ⟨key, value⟩ := first
      unfold openMembers at done
      split at done
      · split at done
        · simp only [bind_ok] at done
          obtain ⟨whole, _, done⟩ := done
          split at done
          · have kept := hypothesis done
            exact kept
          · cases done
            rfl
        · cases done
      · split at done
        · split at done
          · exact hypothesis done
          · exact hypothesis done
        · exact hypothesis done

/-- An opened file is in memory as it is on the disk. -/
theorem openJsonFile_root {file : SavedFile} {nw after : NwCfg}
    (done : openJsonFile file nw = .ok (true, after)) : after.root = file.content := by
  unfold openJsonFile at done
  split at done
  · rename_i members content
    simp only [bind_ok] at done
    obtain ⟨synctime, _, ⟨opened, tree, backlog⟩, walked, result⟩ := done
    cases opened with
    | false => cases result
    | true =>
        cases result
        rw [content]
        exact congrArg some (openMembers_root walked)
  · cases done

/-- Everything was loaded. -/
theorem Loading.matched {db : CfgDb} {entries : List Value} (uuids : UuidsDistinct entries)
    (loading : Loading db entries entries) : Matched db entries where
  uuids := uuids
  own := loading.again.own
  one_record := by
    rintro first second one two same ⟨entry, member, here⟩
    obtain ⟨valid, lies⟩ := loading.again.current first one entry member here
    obtain ⟨addr, reads⟩ := valid.addr
    have firstHome := lies addr reads
    rw [← same] at here firstHome
    have secondHome := (loading.again.current second two entry member here).2 addr reads
    exact Option.some.inj (secondHome.symm.trans firstHome)
  agrees := loading.agrees

/-- The nodes are loaded from the first subnet. -/
theorem loadNodes_matched {env : LoadEnv} {nw : NwCfg} {db after : CfgDb}
    {entries : List Value} (isEntries : nw.entries = entries)
    (uuids : UuidsDistinct entries) (allotted : Allotted db) (again : FoundAgain db entries)
    (done : loadNodes env nw db = .ok (true, after)) :
    nw.Open entries ∧ Matched after entries := by
  unfold loadNodes at done
  split at done
  · cases done
  · cases done
  · rename_i others subnets
    cases found : nw.firstNodes with
    | none =>
        rw [found] at done
        cases done
    | some nodes =>
        simp only [found, bind_ok] at done
        obtain ⟨middle, loads, last, backlog, result⟩ := done
        cases result
        have isArray : nodes = .array entries := by
          unfold NwCfg.entries at isEntries
          rw [found] at isEntries
          unfold loadNodeValue at loads
          split at loads
          · rename_i absent
            cases absent
          · rename_i items same
            cases same
            rw [← isEntries]
          · cases loads
        rw [isArray] at loads found
        have start : Loading db entries [] := by
          refine ⟨allotted, again, ?_⟩
          intro record _ entry member
          cases member
        have loading := Loading.array uuids (List.nil_append entries).symm start loads
        have retained := loadBacklog_retained loading.allotted backlog
        exact ⟨⟨⟨others, subnets⟩, seek_of_firstNodes found⟩,
          (loading.matched uuids).retained retained⟩

theorem entries_of_root {file : SavedFile} {nw : NwCfg} (same : nw.root = file.content) :
    nw.entries = file.entries := by
  unfold NwCfg.entries NwCfg.firstNodes SavedFile.entries
  rw [same]
  cases file.content.bind (·.seek nodesPath) with
  | none => rfl
  | some value => cases value <;> rfl

/-- Records are only looked at when the trees are not emptied before the load.  A forced load
starts from empty trees and needs no condition. -/
def Fits (force : Bool) (db : CfgDb) (entries : List Value) : Prop :=
  force = true ∨ FoundAgain db entries

theorem known_cleared {db : CfgDb} {record : NodeId} :
    ¬ db.cfgdbRemoveAllNodes.cfgdbRemoveAllUpl.Known record := by
  rintro ⟨spot, notBacklog, found⟩
  cases spot with
  | unprovDevs uuid => simp [CfgDb.get, CfgDb.cfgdbRemoveAllUpl] at found
  | nodes addr => simp [CfgDb.get, CfgDb.cfgdbRemoveAllUpl, CfgDb.cfgdbRemoveAllNodes] at found
  | backlog uuid => exact notBacklog rfl

theorem FoundAgain.cleared (db : CfgDb) (entries : List Value) :
    FoundAgain db.cfgdbRemoveAllNodes.cfgdbRemoveAllUpl entries where
  own := by
    intro uuid record found
    exact absurd (known_of_unprov found) known_cleared
  taken := by
    intro entry _ addr uuid record _ found _
    exact absurd (known_of_nodes found) known_cleared
  current := by
    intro record known
    exact absurd known known_cleared

theorem Allotted.cleared {db : CfgDb} (allotted : Allotted db) :
    Allotted db.cfgdbRemoveAllNodes.cfgdbRemoveAllUpl where
  allocated := by
    intro spot record found
    cases spot with
    | backlog uuid => exact allotted.allocated (.backlog uuid) record found
    | unprovDevs uuid => exact absurd (known_of_unprov found) known_cleared
    | nodes addr => exact absurd (known_of_nodes found) known_cleared
  apart := by
    intro uuid record _ known
    exact known_cleared known

/-- A load that the records do not get in the way of brings file and records in step.  This is
what every later call then keeps. -/
theorem reload_inStep {env : LoadEnv} {force : Bool} {file : SavedFile} {nw opened : NwCfg}
    {db loaded : CfgDb} (uuids : UuidsDistinct file.entries) (allotted : Allotted db)
    (fits : Fits force db file.entries)
    (done : reloadNodesFile env force file nw db = .ok (true, opened, loaded)) :
    InStep { db := loaded, nw := opened, file := file } := by
  simp only [reloadNodesFile, bind_ok] at done
  obtain ⟨⟨isOpen, middle⟩, opens, done⟩ := done
  cases isOpen with
  | false => cases done
  | true =>
      simp only [if_true, bind_ok] at done
      obtain ⟨⟨isLoaded, after⟩, loads, result⟩ := done
      cases isLoaded with
      | false => cases result
      | true =>
          cases result
          have same := entries_of_root (openJsonFile_root opens)
          unfold loadJsonFile at loads
          have start : Allotted (if force then db.cfgdbRemoveAllNodes.cfgdbRemoveAllUpl else db) ∧
              FoundAgain (if force then db.cfgdbRemoveAllNodes.cfgdbRemoveAllUpl else db)
                file.entries := by
            cases force with
            | true => exact ⟨allotted.cleared, FoundAgain.cleared db _⟩
            | false => exact ⟨allotted, fits.resolve_left (fun impossible => nomatch impossible)⟩
          exact ⟨_, loadNodes_matched same uuids start.1 start.2 loads⟩

/-!
## The records of every run are allotted

That identities are handed out once, and that a record of the backlog is in no other tree, is
needed of any database a load starts from.  Every operation keeps it, so no caller has to ask for
it.
-/

/-- What an operation may do to the trees: they hold no more records than before, but for
one, which it stores in one tree. -/
theorem Allotted.store {db after : CfgDb} (allotted : Allotted db) {record : NodeId}
    {tree : TreeId}
    (stored : ∀ spot other, after.get spot = some other →
      (other = record ∧ spot.tree = tree) ∨ db.get spot = some other)
    (next : db.next ≤ after.next ∧ record < after.next)
    (whose : (db.Known record ∧ tree ≠ .backlog) ∨ ∀ spot, db.get spot ≠ some record) :
    Allotted after where
  allocated := by
    intro spot other found
    rcases stored spot other found with ⟨isRecord, _⟩ | held
    · rw [isRecord]
      exact next.2
    · exact Nat.lt_of_lt_of_le (allotted.allocated spot other held) next.1
  apart := by
    rintro uuid other found ⟨spot, notBacklog, present⟩
    rcases stored _ other found with ⟨isRecord, isTree⟩ | inBacklog
    · rcases whose with ⟨_, elsewhere⟩ | unheld
      · exact elsewhere isTree.symm
      · rcases stored spot other present with ⟨_, sameTree⟩ | held
        · exact notBacklog (sameTree.trans isTree.symm)
        · rw [isRecord] at held
          exact unheld spot held
    · rcases stored spot other present with ⟨isRecord, _⟩ | held
      · rw [isRecord] at inBacklog
        rcases whose with ⟨known, _⟩ | unheld
        · exact allotted.apart uuid record inBacklog known
        · exact unheld _ inBacklog
      · exact allotted.apart uuid other inBacklog ⟨spot, notBacklog, held⟩

theorem Allotted.shrink {db after : CfgDb} (allotted : Allotted db)
    (fewer : ∀ spot record, after.get spot = some record → db.get spot = some record)
    (next : after.next = db.next) : Allotted after where
  allocated := by
    intro spot record found
    rw [next]
    exact allotted.allocated spot record (fewer spot record found)
  apart := by
    rintro uuid record found ⟨spot, notBacklog, present⟩
    exact allotted.apart uuid record (fewer _ record found)
      ⟨spot, notBacklog, fewer spot record present⟩

/-- A known record that is taken from a place, written and added to another tree. -/
theorem Allotted.move {db : CfgDb} (allotted : Allotted db) {record : NodeId}
    (known : db.Known record) (spot : Spot) (change : Node → Node) {tree : TreeId}
    (notBacklog : tree ≠ .backlog) :
    Allotted (((db.erase spot).update record change).cfgdbAdd record tree) := by
  have inUse : record < db.next := by
    obtain ⟨place, _, found⟩ := known
    exact allotted.allocated place record found
  have next : (((db.erase spot).update record change).cfgdbAdd record tree).next = db.next := by
    rw [CfgDb.next_cfgdbAdd, CfgDb.next_update, CfgDb.next_erase]
  apply allotted.store _ _ (.inl ⟨known, notBacklog⟩)
  · intro place other found
    rcases get_cfgdbAdd found with new | older
    · exact .inl new
    · rw [CfgDb.get_update] at older
      exact .inr (CfgDb.get_of_get_erase older).2
  · rw [next]
    exact ⟨Nat.le_refl _, inUse⟩

theorem Allotted.nodeset {db after : CfgDb} (allotted : Allotted db) {addr : UInt16}
    {change : Node → Node} (done : db.nodeset addr change = .ok after) : Allotted after := by
  unfold CfgDb.nodeset at done
  cases found : db.cfgdbNodeGet addr with
  | none =>
      rw [found] at done
      cases done
  | some record =>
      rw [found] at done
      cases done
      apply Allotted.shrink allotted
      · intro spot other held
        rwa [CfgDb.get_update] at held
      · rfl

theorem Allotted.backlogNodeAdd {db : CfgDb} (allotted : Allotted db) (uuid : Uuid) :
    Allotted (db.backlogNodeAdd uuid) := by
  have unheld : ∀ spot, db.get spot ≠ some db.next := by
    intro spot found
    exact Nat.lt_irrefl _ (allotted.allocated spot _ found)
  have next : (db.backlogNodeAdd uuid).next = db.next + 1 := by
    unfold CfgDb.backlogNodeAdd
    rw [CfgDb.next_cfgdbAdd]
    rfl
  apply allotted.store _ _ (.inr unheld)
  · exact .backlog
  · intro spot other found
    rcases get_cfgdbAdd found with new | older
    · exact .inl new
    · rw [CfgDb.get_update, CfgDb.get_alloc] at older
      exact .inr older
  · rw [next]
    exact ⟨Nat.le_succ _, Nat.lt_succ_self _⟩

theorem Allotted.run {db after : CfgDb} (allotted : Allotted db) {op : DbOp}
    (done : op.run db = .ok after) : Allotted after := by
  cases op with
  | loadNode entry backlog =>
      cases done
      cases backlog with
      | true => exact (loadNode_backlog_retained allotted entry).2
      | false =>
          rcases loadNode_writes allotted entry with ⟨record, held, writes⟩ | ⟨absent, writes⟩
          · exact allotted.write writes (.inl held)
          · exact allotted.write writes (.inr ⟨absent, rfl⟩)
  | backlogNodeAdd uuid =>
      cases done
      exact allotted.backlogNodeAdd uuid
  | uplNodesetAddr uuid addr =>
      simp only [DbOp.run, CfgDb.uplNodesetAddr] at done
      cases found : db.cfgdbUnprovDevGet uuid with
      | none =>
          rw [found] at done
          cases done
      | some record =>
          rw [found] at done
          cases done
          exact allotted.move (known_of_unprov found) _ _ (by rintro ⟨⟩)
  | nodesRm addr =>
      simp only [DbOp.run, CfgDb.nodesRm] at done
      cases found : db.cfgdbNodeGet addr with
      | none =>
          rw [found] at done
          cases done
      | some record =>
          rw [found] at done
          cases done
          exact allotted.move (known_of_nodes found) _ _ (by rintro ⟨⟩)
  | nodesBl addr =>
      simp only [DbOp.run, CfgDb.nodesBl] at done
      cases found : db.cfgdbNodeGet addr with
      | none =>
          rw [found] at done
          cases done
      | some record =>
          rw [found] at done
          cases done
          exact allotted.move (known_of_nodes found) _ _ (by rintro ⟨⟩)
  | nodesetErrbits addr err => exact allotted.nodeset done
  | nodesetDone addr value => exact allotted.nodeset done
  | nodesetFunc addr func => exact allotted.nodeset done
  | removeAllUpl =>
      cases done
      apply Allotted.shrink allotted
      · intro spot record found
        cases spot with
        | unprovDevs uuid => simp [CfgDb.get, CfgDb.cfgdbRemoveAllUpl] at found
        | nodes addr => exact found
        | backlog uuid => exact found
      · rfl
  | removeAllNodes =>
      cases done
      apply Allotted.shrink allotted
      · intro spot record found
        cases spot with
        | unprovDevs uuid => exact found
        | nodes addr => simp [CfgDb.get, CfgDb.cfgdbRemoveAllNodes] at found
        | backlog uuid => exact found
      · rfl

theorem Allotted.init : Allotted CfgDb.cfgdbInit where
  allocated := by
    intro spot record found
    rw [CfgDb.get_cfgdbInit] at found
    cases found
  apart := by
    intro uuid record found
    rw [CfgDb.get_cfgdbInit] at found
    cases found

/-! ## A load, and what follows it -/

namespace NodesState

/-- `json_cfg_flush`. -/
def flush (clock : SaveClock) (state : NodesState) : NodesState :=
  let (nw, file) := jsonCfgFlush clock state.nw state.file
  { state with nw := nw, file := file }

/-- `load_cfg_file` without the lists of the manager, when the file is loaded: a load that
succeeds is followed by a save. -/
def reload (env : LoadEnv) (force : Bool) (clock : SaveClock) (state : NodesState) :
    Except Abort (Bool × NodesState) := do
  let (loaded, nw, db) ← reloadNodesFile env force state.file state.nw state.db
  let state := { state with nw := nw, db := db }
  .ok (loaded, if loaded then state.flush clock else state)

end NodesState

theorem InStep.flush {state : NodesState} (inStep : InStep state) (clock : SaveClock) :
    InStep (state.flush clock) := by
  obtain ⟨entries, isOpen, matched⟩ := inStep
  exact ⟨entries, isOpen.flush clock state.file, matched⟩

/-- From any load that the records of earlier loads do not get in the way of, over any sequence
of calls, the records agree with the entries of the file, and the entries of other devices are
unchanged.  The load is the base of the induction and the calls are its steps. -/
theorem files_agree_guarded {past : List (Move CfgDb DbOp)} {before loaded final : NodesState}
    {calls : List (Move NodesState NodeCall)} {env : LoadEnv} {force : Bool}
    {clock : SaveClock}
    (reached : Execution (Succeeds DbOp.run) CfgDb.cfgdbInit past before.db)
    (uuids : UuidsDistinct before.file.entries)
    (loads : before.reload env force clock = .ok (true, loaded))
    (fits : Fits force before.db before.file.entries)
    (run : Execution (Succeeds NodeCall.run) loaded calls final) :
    Agree loaded ∧ Agree final ∧
      ∀ move ∈ calls, Agree move.source ∧ Agree move.target ∧ OthersKept move := by
  have allotted : Allotted before.db := by
    apply (reached.invariant _ Allotted.init).2
    intro source op target holds taken
    exact holds.run taken
  have start : InStep loaded := by
    simp only [NodesState.reload, bind_ok] at loads
    obtain ⟨⟨isLoaded, nw, db⟩, reloads, result⟩ := loads
    cases isLoaded with
    | false => cases result
    | true =>
        cases result
        exact (reload_inStep uuids allotted fits reloads).flush clock
  have stays := run.invariant (fun source call target inStep taken => inStep.call taken) start
  refine ⟨start.agree, stays.2.agree, ?_⟩
  intro move member
  obtain ⟨sourceInStep, targetInStep⟩ := stays.1 move member
  exact ⟨sourceInStep.agree, targetInStep.agree,
    sourceInStep.othersKept (run.steps_taken move member)⟩

/-! ## Two loads -/

/-- A nodes file with these entries in its only subnet. -/
def nodesContent (entries : List Value) : Value :=
  .object [(strSubnets, .array [.object [(strNodes, .array entries)]])]

/-- A device file that was never saved by the program. -/
def editedFile (entries : List Value) : SavedFile :=
  { content := some (nodesContent entries), mtime := 0 }

def noTemplates : LoadEnv := { templates := ∅, fresh := fun _ _ => 0 }

def sampleUuid : Uuid :=
  #v[0x00, 0x11, 0x22, 0x33, 0x44, 0x55, 0x66, 0x77, 0x88, 0x99, 0xaa, 0xbb, 0xcc, 0xdd,
    0xee, 0xff]

/-- The load succeeds, and what it leaves passes the test. -/
def loadShows (result : Except Abort (Bool × NodesState)) (test : NodesState → Bool) : Bool :=
  match result with
  | .ok (true, loaded) => test loaded
  | _ => false

theorem loaded_of_shows {result : Except Abort (Bool × NodesState)}
    {test : NodesState → Bool} (passed : loadShows result test = true) :
    ∃ loaded, result = .ok (true, loaded) ∧ test loaded = true := by
  unfold loadShows at passed
  split at passed
  · exact ⟨_, rfl, passed⟩
  · cases passed

theorem uuidsDistinct_single {entry : Value} (hex : HexUuid entry) :
    UuidsDistinct [entry] where
  hex := by
    intro other member
    rw [List.mem_singleton.mp member]
    exact hex
  distinct := List.pairwise_singleton _ entry

theorem get_uuid_nodeObject (more : List (String × Value)) :
    (nodeObject more).get strUuid =
      some (.string "00112233445566778899aabbccddeeff".toList) :=
  show Value.lookup strUuid _ = _ from if_pos rfl

/-- An object like the sample has a UUID of the right form. -/
theorem hexUuid_of_sample {entry : Value}
    (same : entry.get strUuid = (nodeObject []).get strUuid) : HexUuid entry := by
  refine ⟨_, same.trans (get_uuid_nodeObject []), by decide +kernel, ?_⟩
  have every : "00112233445566778899aabbccddeeff".toList.all
      (fun char => (hexValue char).isSome) = true := by decide +kernel
  exact List.all_eq_true.mp every

/-- A device that is a node, then blacklisted, then provisioned again. -/
theorem files_agree_guarded_recycled :
    ∃ loaded final : NodesState, ∃ calls : List (Move NodesState NodeCall),
      calls.length = 3 ∧ Agree loaded ∧ Agree final := by
  let input : WriteInput := { stack := fun _ => clearedBuffer, clock := { time := 9, mtime := 9 } }
  let before : NodesState :=
    { db := .cfgdbInit, nw := .zeroed, file := editedFile [nodeObject []] }
  let calls : List NodeCall :=
    [{ write := .nodesetErrbits 5 0x10, input := input, second := input },
      { write := .nodesBl 5, input := input, second := input },
      { write := .uplNodesetAddr sampleUuid 6, input := input, second := input }]
  have tested : loadShows (before.reload noTemplates true { time := 8, mtime := 8 })
      (fun loaded => replays NodeCall.run loaded calls fun past _ => past.length == 3) =
        true := by decide +kernel
  obtain ⟨loaded, loads, replayed⟩ := loaded_of_shows tested
  obtain ⟨past, final, run, _, three⟩ := execution_of_replays replayed
  have hex : HexUuid (nodeObject []) := hexUuid_of_sample rfl
  have uuids : UuidsDistinct before.file.entries := uuidsDistinct_single hex
  have reached : Execution (Succeeds DbOp.run) CfgDb.cfgdbInit [] before.db := .start
  obtain ⟨first, last, _⟩ := files_agree_guarded reached uuids loads (.inl rfl) run
  exact ⟨loaded, final, past, eq_of_beq three, first, last⟩

/-- A node that the file declares unprovisioned keeps its record, and its address, when the
file is loaded again. -/
theorem reload_keeps_stale_record :
    ¬ ∀ (past : List (Move CfgDb DbOp)) (before loaded final : NodesState)
      (calls : List (Move NodesState NodeCall)) (env : LoadEnv) (force : Bool)
      (clock : SaveClock),
      Execution (Succeeds DbOp.run) CfgDb.cfgdbInit past before.db →
      UuidsDistinct before.file.entries →
      before.reload env force clock = .ok (true, loaded) →
      Execution (Succeeds NodeCall.run) loaded calls final → Agree final := by
  intro claim
  let entry : NodeEntry :=
    { uuid := sampleUuid, addr := 5, done := 0, rmorbl := 0, err := 0, func := 1
      tmpl := .absent, config := id }
  let item := (nodeObject []).set strAddr (.string "0x0000".toList)
  let before : NodesState :=
    { db := CfgDb.cfgdbInit.loadNode entry false, nw := .zeroed, file := editedFile [item] }
  have taken : Succeeds DbOp.run CfgDb.cfgdbInit (.loadNode entry false) before.db := rfl
  have tested : loadShows (before.reload noTemplates false { time := 8, mtime := 8 })
      (fun loaded =>
        loaded.db.get (.nodes 5) == some 0 && (loaded.db.heap 0).uuid == sampleUuid &&
          (loaded.db.heap 0).addr == 5 &&
          loaded.nw.entries.any fun entry =>
            entryUuid entry == some sampleUuid &&
              (memberUint UInt16.ofNat entry strAddr).toOption == some (some 0)) = true := by
    decide +kernel
  obtain ⟨loaded, loads, shown⟩ := loaded_of_shows tested
  have hex : HexUuid item :=
    hexUuid_of_sample (Value.get_set_other (NodeField.key_ne_uuid (.addr 0)) _ _)
  have agree := claim _ before loaded loaded [] noTemplates false _ (Execution.start.extend taken)
    (uuidsDistinct_single hex) loads .start
  simp only [Bool.and_eq_true, beq_iff_eq, List.any_eq_true] at shown
  obtain ⟨⟨⟨held, isUuid⟩, isAddr⟩, entry, member, isEntry, reads⟩ := shown
  have agrees := agree 0 (known_of_nodes held) entry member (by rw [isEntry, isUuid])
  have stale := agrees.addr
  rw [isAddr] at stale
  rw [stale] at reads
  exact absurd reads (by decide)

end Nwmng
