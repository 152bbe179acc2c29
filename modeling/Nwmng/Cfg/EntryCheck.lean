/-
Module: Nwmng.Cfg.EntryCheck
Purpose: Whether the validity check of node entries, which searches the text of an
entry, agrees with the load, which looks at the members of the entry.
Trusted boundary: none
Main exports:
  mentions_iff, Complete, nodeValidCheck_of_complete, parseEntry_fates,
  loadNodeItem_ok_iff, valid_check_agrees_iff
-/
import Nwmng.Cfg.EntryMembers
import Nwmng.Cfg.LoadAgreement

namespace Nwmng

open Json Fallible

/-!
## The search

The check looks for each mandatory key in quotes anywhere in the text of the entry.  An entry
that has the member cannot fail it; an entry that has not may pass it all the same, when the key
stands in a nested object or in a value.
-/

/-- `strstr` finds a key in quotes exactly where the text contains it. -/
theorem mentions_iff (key : String) (text : List Char) :
    mentions key text = true ↔
      Value.quoteMark :: key.toList ++ [Value.quoteMark] <:+: text := by
  induction text with
  | nil => simp [mentions]
  | cons char rest hypothesis =>
      rw [mentions, Bool.or_eq_true, hypothesis, List.isPrefixOf_iff_prefix,
        List.infix_cons_iff]

/-- The mandatory keys are written as they are. -/
theorem mandatoryFields_plain :
    ∀ key ∈ mandatoryFields, key.toList.flatMap Value.escapeChar = key.toList := by
  decide

theorem mentions_of_get {item value : Value} {key : String} (mandatory : key ∈ mandatoryFields)
    (found : item.get key = some value) : mentions key item.render = true := by
  rw [mentions_iff]
  have inside := Value.quoted_infix_render found
  rw [Value.quoted, mandatoryFields_plain key mandatory] at inside
  exact inside

/-! ## The fields of the entry itself

The search looks at the text of the whole entry, nested objects and strings included, while
the loader asks the entry for its own members.  What the two agree on is therefore said of
the own members: whether each of the six keys is there with a value that is accepted, and
which of them ends the reading when not. -/

/-- The mandatory fields, as the members of the entry itself give them.  `_node_valid_check`
searches the text of the whole entry instead, in which the keys may occur elsewhere. -/
structure OwnFields (item : Value) (entry : NodeEntry) : Prop where
  addr : memberUint UInt16.ofNat item strAddr = .ok (some entry.addr)
  uuid : entryUuid item = some entry.uuid
  rmorbl : memberUint UInt8.ofNat item strRmorbl = .ok (some entry.rmorbl)
  done : memberUint UInt8.ofNat item strDone = .ok (some entry.done)
  err : memberUint (BitVec.ofNat 32) item strErrbits = .ok (some entry.err)
  func : memberUint (BitVec.ofNat 8) item strFunc = .ok (some entry.func)

/-- Every mandatory key is a member of the entry, with a value that is accepted.  It is the
completeness that the check is meant to decide, stated without the check and without the loader. -/
def Complete (item : Value) : Prop := ∃ entry, OwnFields item entry

/-- What becomes of a mandatory member when it is read.  A malformed value is refused and its
entry is skipped; where there is nothing to read, the load itself does not go on. -/
inductive MemberFate where
  | accepted
  | refused
  /-- There is no text, or no number of 64 bits: the loader stops. -/
  | missing
deriving DecidableEq, Repr

def numberFate (item : Value) (key : String) : MemberFate :=
  match memberUint id item key with
  | .ok (some _) => .accepted
  | .ok none => .refused
  | .error _ => .missing

/-- A UUID that is not there is refused by `str2cbuf`. -/
def uuidFate (item : Value) : MemberFate :=
  if (entryUuid item).isSome then .accepted else .refused

/-- The mandatory members, in the order in which they are read. -/
def mandatoryFates (item : Value) : List MemberFate :=
  [numberFate item strAddr, uuidFate item, numberFate item strRmorbl, numberFate item strDone,
    numberFate item strErrbits, numberFate item strFunc]

/-- The member that ends the reading. -/
def firstFault (item : Value) : Option MemberFate :=
  (mandatoryFates item).find? fun fate => fate != .accepted

theorem memberUint_eq {α : Type} (cut : Nat → α) (item : Value) (key : String) :
    memberUint cut item key = memberUint id item key >>= fun number => .ok (number.map cut) := by
  unfold memberUint
  cases memberText item key with
  | error abort => rfl
  | ok text =>
      rw [ok_bind, ok_bind]
      cases str2uint text with
      | error abort => rfl
      | ok number => cases number <;> rfl

theorem numberFate_of_some {α : Type} {cut : Nat → α} {item : Value} {key : String} {value : α}
    (reads : memberUint cut item key = .ok (some value)) : numberFate item key = .accepted := by
  rw [memberUint_eq, bind_ok] at reads
  obtain ⟨number, read, same⟩ := reads
  cases number with
  | none => cases same
  | some number => simp only [numberFate, read]

theorem get_of_memberUint {α : Type} {cut : Nat → α} {item : Value} {key : String}
    {number : Option α} (reads : memberUint cut item key = .ok number) :
    ∃ value, item.get key = some value := by
  unfold memberUint memberText at reads
  cases found : item.get key with
  | none =>
      rw [found] at reads
      cases reads
  | some value => exact ⟨value, rfl⟩

theorem get_of_entryUuid {item : Value} {uuid : Uuid} (reads : entryUuid item = some uuid) :
    ∃ value, item.get strUuid = some value := by
  unfold entryUuid memberUuid at reads
  cases found : item.get strUuid with
  | none =>
      rw [found] at reads
      cases reads
  | some value => exact ⟨value, rfl⟩

theorem Complete.firstFault {item : Value} (complete : Complete item) :
    firstFault item = none := by
  obtain ⟨entry, own⟩ := complete
  have uuid : uuidFate item = .accepted := by
    unfold uuidFate
    rw [own.uuid]
    rfl
  simp [Nwmng.firstFault, mandatoryFates, uuid, numberFate_of_some own.addr,
    numberFate_of_some own.rmorbl, numberFate_of_some own.done, numberFate_of_some own.err,
    numberFate_of_some own.func]

/-- A complete entry passes the check: the search never misses an own member.  The keys of the
members are in the text in quotes, wherever else they may be. -/
theorem nodeValidCheck_of_complete {item : Value} (complete : Complete item) :
    nodeValidCheck item = .ok true := by
  obtain ⟨entry, own⟩ := complete
  have every : ∀ key ∈ mandatoryFields, ∃ value, item.get key = some value := by
    intro key mandatory
    simp only [mandatoryFields, List.mem_cons, List.not_mem_nil, or_false] at mandatory
    rcases mandatory with rfl | rfl | rfl | rfl | rfl | rfl
    · exact get_of_entryUuid own.uuid
    · exact get_of_memberUint own.addr
    · exact get_of_memberUint own.rmorbl
    · exact get_of_memberUint own.done
    · exact get_of_memberUint own.err
    · exact get_of_memberUint own.func
  obtain ⟨value, found⟩ := every strAddr (by decide)
  have text : textOf item = .ok item.render := by
    cases item with
    | object members => rfl
    | _ => cases found
  unfold nodeValidCheck
  rw [text, ok_bind]
  congr 1
  rw [List.all_eq_true]
  intro key mandatory
  obtain ⟨value, found⟩ := every key mandatory
  exact mentions_of_get mandatory found

/-- What the reading of an entry that passes the check comes to.  The members are read in a fixed
order, so it is the first one without an accepted value that decides. -/
theorem parseEntry_fates {item : Value} (mentioned : nodeValidCheck item = .ok true)
    (fresh : UInt64) :
    (firstFault item = none ∧ ∃ entry, OwnFields item entry ∧
      parseEntry fresh item =
        tmplField fresh item >>= fun tmpl => .ok (some { entry with tmpl := tmpl })) ∨
    (firstFault item = some .refused ∧ parseEntry fresh item = .ok none) ∨
    (firstFault item = some .missing ∧ ∃ abort, parseEntry fresh item = .error abort) := by
  have uuids : memberUuid clearedBuffer item = entryUuid item := rfl
  unfold parseEntry firstFault mandatoryFates numberFate uuidFate
  simp only [mentioned, ok_bind, memberUint_eq UInt16.ofNat, memberUint_eq UInt8.ofNat,
    memberUint_eq (BitVec.ofNat 32), memberUint_eq (BitVec.ofNat 8), uuids]
  cases addrReads : memberUint id item strAddr with
  | error abort => simp [error_bind, ok_bind]
  | ok addr =>
  cases addr with
  | none => simp [ok_bind]
  | some addr =>
  cases uuidReads : entryUuid item with
  | none => simp [ok_bind]
  | some uuid =>
  cases rmorblReads : memberUint id item strRmorbl with
  | error abort => simp [error_bind, ok_bind]
  | ok rmorbl =>
  cases rmorbl with
  | none => simp [ok_bind]
  | some rmorbl =>
  cases doneReads : memberUint id item strDone with
  | error abort => simp [error_bind, ok_bind]
  | ok done =>
  cases done with
  | none => simp [ok_bind]
  | some done =>
  cases errReads : memberUint id item strErrbits with
  | error abort => simp [error_bind, ok_bind]
  | ok err =>
  cases err with
  | none => simp [ok_bind]
  | some err =>
  cases funcReads : memberUint id item strFunc with
  | error abort => simp [error_bind, ok_bind]
  | ok func =>
  cases func with
  | none => simp [ok_bind]
  | some func =>
  left
  simp only [ok_bind, Option.map_some]
  have cut {α : Type} (cut : Nat → α) {key : String} {number : Nat}
      (reads : memberUint id item key = .ok (some number)) :
      memberUint cut item key = .ok (some (cut number)) := by
    rw [memberUint_eq, reads]
    rfl
  exact ⟨by simp,
    { uuid := uuid, addr := .ofNat addr, done := .ofNat done, rmorbl := .ofNat rmorbl
      err := .ofNat 32 err, func := .ofNat 8 func, tmpl := .absent, config := id },
    { addr := cut _ addrReads, uuid := uuidReads, rmorbl := cut _ rmorblReads
      done := cut _ doneReads, err := cut _ errReads, func := cut _ funcReads },
    rfl⟩

/-! ## The other members -/

theorem tmplField_any {fresh : UInt64} {obj : Value} {field : TmplField}
    (read : tmplField fresh obj = .ok field) (other : UInt64) :
    ∃ field, tmplField other obj = .ok field := by
  unfold tmplField at read ⊢
  cases found : obj.get strTmpl with
  | none => exact ⟨.absent, rfl⟩
  | some value =>
      rw [found] at read
      cases value with
      | null => exact ⟨.absent, rfl⟩
      | _ =>
          dsimp only at read ⊢
          obtain ⟨number, reads, _⟩ := bind_ok.mp read
          rw [reads, ok_bind]
          cases number with
          | none => exact ⟨.malformed, rfl⟩
          | some id => exact ⟨.present other id, rfl⟩

/-- That a load runs through does not depend on the record. -/
theorem loads_of_load {templates : Templates} {fresh : UInt64} {obj : Value} {node after : Node}
    (load : loadToNodeItem templates fresh obj node = .ok after) : Loads templates obj := by
  obtain ⟨settings, field, read, named, noClash, _⟩ := loadToNodeItem_final load
  refine ⟨fresh, (finalConfig (namedTemplate templates obj) settings .zeroed,
    (field.load none).map (·.value)), ?_⟩
  rw [loadOutcome_eq, read, ok_bind, named, ok_bind, noClash]
  rfl

theorem Loads.load {templates : Templates} {obj : Value} (loads : Loads templates obj)
    (fresh : UInt64) (node : Node) :
    (∃ field, tmplField fresh obj = .ok field) ∧
      ∃ after, loadToNodeItem templates fresh obj node = .ok after := by
  obtain ⟨place, outcome, load⟩ := loads
  unfold loadOutcome at load
  obtain ⟨zeroed, load, _⟩ := bind_ok.mp load
  obtain ⟨settings, field, read, named, noClash, _⟩ := loadToNodeItem_final load
  obtain ⟨field, named⟩ := tmplField_any named fresh
  refine ⟨⟨field, named⟩, ?_⟩
  rw [loadToNodeItem_eq, read, ok_bind, named, ok_bind, noClash]
  exact ⟨_, rfl⟩

/-! ## One entry -/

/-- An entry that the loader can read.  It is not `null`; no mandatory member that the loader
comes to is missing, although the search found the six keys in the text; and when all six are
accepted, so that the rest of the entry is read, its other members are readable. -/
structure EntryReadable (templates : Templates) (item : Value) : Prop where
  notNull : item ≠ .null
  noGap : nodeValidCheck item = .ok true → firstFault item ≠ some .missing
  members : Complete item → MembersReadable templates item

theorem nodeValidCheck_ok {item : Value} (notNull : item ≠ .null) :
    ∃ valid, nodeValidCheck item = .ok valid := by
  unfold nodeValidCheck
  cases item with
  | null => exact absurd rfl notNull
  | _ => exact ⟨_, rfl⟩

/-- An entry that is not complete is passed over, or stops the loader. -/
theorem complete_of_parses {fresh : UInt64} {item : Value} {parsed : Option NodeEntry}
    (parses : parseEntry fresh item = .ok parsed) :
    (parsed = none ∧ ¬ Complete item) ∨
      ∃ entry, parsed = some entry ∧ OwnFields item entry := by
  have check := parses
  simp only [parseEntry, bind_ok] at check
  obtain ⟨valid, mentioned, _⟩ := check
  cases valid with
  | false =>
      left
      unfold parseEntry at parses
      rw [mentioned, ok_bind] at parses
      refine ⟨(Except.ok.inj parses).symm, fun complete => ?_⟩
      cases mentioned.symm.trans (nodeValidCheck_of_complete complete)
  | true =>
      rcases parseEntry_fates mentioned fresh with
        ⟨_, entry, own, result⟩ | ⟨fault, result⟩ | ⟨_, abort, result⟩
      · right
        rw [result] at parses
        obtain ⟨tmpl, _, same⟩ := bind_ok.mp parses
        exact ⟨_, (Except.ok.inj same).symm,
          ⟨own.addr, own.uuid, own.rmorbl, own.done, own.err, own.func⟩⟩
      · left
        rw [result] at parses
        refine ⟨(Except.ok.inj parses).symm, fun complete => ?_⟩
        rw [complete.firstFault] at fault
        cases fault
      · rw [result] at parses
        cases parses

theorem loadNodeItem_ok_iff (templates : Templates) (fresh : UInt64) (backlog : Bool)
    (item : Value) (db : CfgDb) :
    (∃ after, loadNodeItem templates fresh backlog item db = .ok after) ↔
      EntryReadable templates item := by
  constructor
  · rintro ⟨after, round⟩
    unfold loadNodeItem at round
    obtain ⟨parsed, parses, round⟩ := bind_ok.mp round
    constructor
    · rintro rfl
      cases parses
    · intro mentioned fault
      rcases parseEntry_fates mentioned fresh with ⟨none_, _⟩ | ⟨refused, _⟩ | ⟨_, abort, result⟩
      · rw [fault] at none_
        cases none_
      · rw [fault] at refused
        cases refused
      · rw [result] at parses
        cases parses
    · intro complete
      rcases complete_of_parses parses with ⟨_, incomplete⟩ | ⟨entry, rfl, _⟩
      · exact absurd complete incomplete
      · obtain ⟨loaded, load, _⟩ := bind_ok.mp round
        exact (loads_iff_members templates item).mp (loads_of_load load)
  · intro readable
    obtain ⟨valid, mentioned⟩ := nodeValidCheck_ok readable.notNull
    unfold loadNodeItem
    cases valid with
    | false =>
        have parses : parseEntry fresh item = .ok none := by
          unfold parseEntry
          rw [mentioned, ok_bind]
          rfl
        exact ⟨db, by rw [parses, ok_bind]⟩
    | true =>
        rcases parseEntry_fates mentioned fresh with
          ⟨_, entry, own, result⟩ | ⟨_, result⟩ | ⟨fault, _⟩
        · have loads :=
            (loads_iff_members templates item).mpr (readable.members ⟨entry, own⟩)
          obtain ⟨tmpl, named⟩ := (loads.load fresh .zeroed).1
          obtain ⟨after, load⟩ :=
            (loads.load fresh (db.loadTarget { entry with tmpl := tmpl } backlog)).2
          rw [result, named, ok_bind, ok_bind]
          dsimp only
          rw [load, ok_bind]
          exact ⟨_, rfl⟩
        · exact ⟨db, by rw [result, ok_bind]⟩
        · exact absurd fault (readable.noGap mentioned)

/-!
## Every entry

For an array the check and the loader agree exactly when the load runs through and each round
does what the members of its entry say.  Both directions go by induction on the array, with the
records of the rounds before as the invariant.
-/

/-- The entry is in a record of a tree; every other record is as before.  The record is the one
found at the place of the entry, or a new one. -/
def HoldsEntry (item : Value) (backlog : Bool) (before after : CfgDb) : Prop :=
  ∃ entry record, OwnFields item entry ∧ (∃ spot, after.get spot = some record) ∧
    (after.heap record).addr = entry.addr ∧ (after.heap record).uuid = entry.uuid ∧
    (after.heap record).rmorbl = entry.rmorbl ∧ (after.heap record).done = entry.done ∧
    (after.heap record).err = entry.err ∧ (after.heap record).func = entry.func ∧
    record = (before.get (entry.lookupSpot backlog)).getD before.next ∧
    ∀ other, other ≠ record → after.heap other = before.heap other

/-- An entry is loaded exactly when it is complete; another one changes nothing. -/
structure RoundAgrees (item : Value) (backlog : Bool) (before after : CfgDb) : Prop where
  loaded : Complete item → HoldsEntry item backlog before after
  skipped : ¬ Complete item → after = before

/-- Each round of the load runs through and does what the members of its entry say. -/
def RoundsAgree (templates : Templates) (fresh : Nat → UInt64) (backlog : Bool) :
    Nat → List Value → CfgDb → Prop
  | _, [], _ => True
  | index, item :: rest, before =>
      ∃ after, loadNodeItem templates (fresh index) backlog item before = .ok after ∧
        RoundAgrees item backlog before after ∧
        RoundsAgree templates fresh backlog (index + 1) rest after

theorem loadNodeItem_agrees {templates : Templates} {fresh : UInt64} {backlog : Bool}
    {item : Value} {db after : CfgDb}
    (round : loadNodeItem templates fresh backlog item db = .ok after) :
    RoundAgrees item backlog db after := by
  unfold loadNodeItem at round
  obtain ⟨parsed, parses, round⟩ := bind_ok.mp round
  rcases complete_of_parses parses with ⟨rfl, incomplete⟩ | ⟨entry, rfl, own⟩
  · exact ⟨fun complete => absurd complete incomplete, fun _ => (Except.ok.inj round).symm⟩
  · obtain ⟨loaded, load, result⟩ := bind_ok.mp round
    cases result
    refine ⟨fun _ => ?_, fun incomplete => absurd ⟨entry, own⟩ incomplete⟩
    let written : NodeEntry := { entry with config := fun _ => loaded.config }
    have here := db.heap_loadNode_self written backlog
    refine ⟨entry, db.loadRecord written backlog, own, db.loadRecord_held written backlog,
      ?_, ?_, ?_, ?_, ?_, ?_, rfl, fun other isOther =>
        db.heap_loadNode_of_ne written backlog isOther⟩
    · exact congrArg Node.addr here
    · exact congrArg Node.uuid here
    · exact congrArg Node.rmorbl here
    · exact congrArg Node.done here
    · exact congrArg Node.err here
    · exact congrArg Node.func here

/-- The load of an array runs through exactly when its entries are readable. -/
theorem loadNodeArr_ok_iff (templates : Templates) (fresh : Nat → UInt64) (backlog : Bool)
    (items : List Value) (index : Nat) (db : CfgDb) :
    (∃ after, loadNodeArr templates fresh backlog index items db = .ok after) ↔
      ∀ item ∈ items, EntryReadable templates item := by
  induction items generalizing index db with
  | nil => simp [loadNodeArr]
  | cons item rest hypothesis =>
      rw [List.forall_mem_cons, ← loadNodeItem_ok_iff templates (fresh index) backlog item db]
      constructor
      · rintro ⟨final, run⟩
        rw [loadNodeArr] at run
        obtain ⟨after, round, run⟩ := bind_ok.mp run
        exact ⟨⟨after, round⟩, (hypothesis (index + 1) after).mp ⟨final, run⟩⟩
      · rintro ⟨⟨after, round⟩, readable⟩
        rw [loadNodeArr, round, ok_bind]
        exact (hypothesis (index + 1) after).mpr readable

theorem roundsAgree_of_ok {templates : Templates} {fresh : Nat → UInt64} {backlog : Bool}
    {items : List Value} {index : Nat} {db final : CfgDb}
    (run : loadNodeArr templates fresh backlog index items db = .ok final) :
    RoundsAgree templates fresh backlog index items db := by
  induction items generalizing index db with
  | nil => trivial
  | cons item rest hypothesis =>
      rw [loadNodeArr] at run
      obtain ⟨after, round, run⟩ := bind_ok.mp run
      exact ⟨after, round, loadNodeItem_agrees round, hypothesis run⟩

/-- The check and the loader agree on every entry exactly for the arrays whose entries are
readable.  An entry that is not readable stops the load, so it is neither loaded nor skipped. -/
theorem valid_check_agrees_iff (templates : Templates) (fresh : Nat → UInt64) (backlog : Bool)
    (index : Nat) (items : List Value) (db : CfgDb) :
    ((∃ after, loadNodeArr templates fresh backlog index items db = .ok after) ∧
      RoundsAgree templates fresh backlog index items db) ↔
    ∀ item ∈ items, EntryReadable templates item := by
  rw [← loadNodeArr_ok_iff templates fresh backlog items index db]
  constructor
  · exact And.left
  · rintro ⟨after, run⟩
    exact ⟨⟨after, run⟩, roundsAgree_of_ok run⟩

/-- The `Functionality` of the entry stands in its publication. -/
def nestedEntry : Value :=
  let text (text : String) : Value := .string text.toList
  .object
    [(strUuid, text "00112233445566778899aabbccddeeff"), (strAddr, text "0x0005"),
      (strRmorbl, text "0x00"), (strDone, text "0x00"), (strErrbits, text "0x00000000"),
      (strPub, .object [(strFunc, text "0x01")])]

/-- An entry with a mandatory key in a nested object passes the check, and stops the
loader. -/
theorem nested_key_stops_loader :
    ¬ ((∃ after, loadNodeArr ∅ (fun _ => 0) false 0 [nestedEntry] .cfgdbInit = .ok after) ∧
      RoundsAgree ∅ (fun _ => 0) false 0 [nestedEntry] .cfgdbInit) := by
  rintro ⟨⟨after, run⟩, _⟩
  have stops : (loadNodeArr ∅ (fun _ => 0) false 0 [nestedEntry] .cfgdbInit).toOption.isNone =
      true := by decide +kernel
  rw [run] at stops
  cases stops

end Nwmng
