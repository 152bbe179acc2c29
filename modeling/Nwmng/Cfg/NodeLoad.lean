/-
Module: Nwmng.Cfg.NodeLoad
Purpose: Loading the items of the template array and of the node arrays into the
database.
Trusted boundary: none
Main exports:
  nodeValidCheck, parseEntry, loadNodeItem, loadNodeArr, loadTemplateItem,
  loadTemplate
-/
import Nwmng.Lib.Fallible
import Nwmng.Cfg.Loaders

namespace Nwmng

open Json Fallible

def strUuid : String := "UUID"
def strRmorbl : String := "RM_Blacklist"
def strFunc : String := "Functionality"
def strErrbits : String := "Err"

/-! ## Nodes -/

/-- The fields a node object has to contain. -/
def mandatoryFields : List String :=
  [strUuid, strAddr, strRmorbl, strDone, strErrbits, strFunc]

/-- `strstr`, for a key in quotes. -/
def mentions (key : String) : List Char → Bool
  | [] => false
  | char :: rest =>
      (Value.quoteMark :: key.toList ++ [Value.quoteMark]).isPrefixOf (char :: rest) ||
        mentions key rest

/-- `_node_valid_check`: the keys are looked for in the text of the object. -/
def nodeValidCheck (item : Value) : Except Abort Bool := do
  let text ← textOf item
  .ok (mandatoryFields.all fun key => mentions key text)

/-- The text of a member that is used without a test. -/
def memberText (obj : Value) (key : String) : Except Abort (List Char) :=
  match obj.get key with
  | some value => textOf value
  | none => .error .textMissing

/-- A number member; `none` when it is malformed. -/
def memberUint {α : Type} (cut : Nat → α) (obj : Value) (key : String) :
    Except Abort (Option α) := do
  let text ← memberText obj key
  let number ← str2uint text
  .ok (number.map cut)

theorem memberUint_set_self {α : Type} (cut : Nat → α) {entry : Value} (key : String)
    {text : List Char} {number : Nat} (object : entry.isObject = true)
    (reads : str2uint text = .ok (some number)) :
    memberUint cut (entry.set key (.string text)) key = .ok (some (cut number)) := by
  unfold memberUint memberText
  rw [Value.get_set_self object]
  simp only [textOf, Value.text_string, ok_bind, reads, Option.map_some]

theorem memberUint_set_other {α : Type} {cut : Nat → α} {key other : String}
    (different : other ≠ key) (entry value : Value) :
    memberUint cut (entry.set key value) other = memberUint cut entry other := by
  unfold memberUint memberText
  rw [Value.get_set_other different]

/-- The UUID member, written into a buffer; a text that is not there is malformed. -/
def memberUuid (buffer : Uuid) (obj : Value) : Option Uuid :=
  match (obj.get strUuid).bind Value.text with
  | some text => str2cbuf text buffer
  | none => none

/-- A buffer that was cleared. -/
def clearedBuffer : Uuid := Vector.replicate 16 0

/-- The mandatory fields of an item, in the order in which they are read: the first
that is malformed ends the reading. -/
def parseEntry (fresh : UInt64) (item : Value) : Except Abort (Option NodeEntry) := do
  let valid ← nodeValidCheck item
  if !valid then .ok none
  else
    match ← memberUint UInt16.ofNat item strAddr with
    | none => .ok none
    | some addr =>
        match memberUuid clearedBuffer item with
        | none => .ok none
        | some uuid =>
            match ← memberUint UInt8.ofNat item strRmorbl with
            | none => .ok none
            | some rmorbl =>
                match ← memberUint UInt8.ofNat item strDone with
                | none => .ok none
                | some done =>
                    match ← memberUint (BitVec.ofNat 32) item strErrbits with
                    | none => .ok none
                    | some err =>
                        match ← memberUint (BitVec.ofNat 8) item strFunc with
                        | none => .ok none
                        | some func => do
                            let tmpl ← tmplField fresh item
                            .ok (some
                              { uuid := uuid, addr := addr, done := done, rmorbl := rmorbl
                                err := err, func := func, tmpl := tmpl, config := id })

/-- The record an entry is loaded into, before the load. -/
def CfgDb.loadTarget (db : CfgDb) (entry : NodeEntry) (backlog : Bool) : Node :=
  match db.get (entry.lookupSpot backlog) with
  | some record => db.heap record
  | none => Node.zeroed

/-- One round of `__load_node_arr`. -/
def loadNodeItem (templates : Templates) (fresh : UInt64) (backlog : Bool) (item : Value)
    (db : CfgDb) : Except Abort CfgDb := do
  match ← parseEntry fresh item with
  | none => .ok db
  | some entry => do
      let loaded ← loadToNodeItem templates fresh item (db.loadTarget entry backlog)
      .ok (db.loadNode { entry with config := fun _ => loaded.config } backlog)

/-- `__load_node_arr`, with the places that `malloc` gives to new cells. -/
def loadNodeArr (templates : Templates) (fresh : Nat → UInt64) (backlog : Bool) :
    Nat → List Value → CfgDb → Except Abort CfgDb
  | _, [], db => .ok db
  | index, item :: rest, db => do
      let db ← loadNodeItem templates (fresh index) backlog item db
      loadNodeArr templates fresh backlog (index + 1) rest db

/-! ## What one round writes -/

/-- The written record holds the entry. -/
theorem CfgDb.heap_loadNode_self (db : CfgDb) (entry : NodeEntry) (backlog : Bool) :
    (db.loadNode entry backlog).heap (db.loadRecord entry backlog) =
      entry.fill (db.loadTarget entry backlog) := by
  unfold CfgDb.loadRecord CfgDb.loadTarget CfgDb.loadNode
  cases db.get (entry.lookupSpot backlog) with
  | some record => simp
  | none => simp [CfgDb.heap_cfgdbAdd]

/-- A round leaves the database, when the item is not valid, or writes the loaded
configuration into one record, which a tree holds. -/
theorem loadNodeItem_ok {templates : Templates} {fresh : UInt64} {backlog : Bool}
    {item : Value} {db after : CfgDb}
    (round : loadNodeItem templates fresh backlog item db = .ok after) :
    (parseEntry fresh item = .ok none ∧ after = db) ∨
      ∃ entry loaded, parseEntry fresh item = .ok (some entry) ∧
        loadToNodeItem templates fresh item (db.loadTarget entry backlog) = .ok loaded ∧
        (after.heap (db.loadRecord entry backlog)).config = loaded.config ∧
        (∃ spot, after.get spot = some (db.loadRecord entry backlog)) ∧
        ∀ record, record ≠ db.loadRecord entry backlog →
          after.heap record = db.heap record := by
  simp only [loadNodeItem, bind_ok] at round
  obtain ⟨parsed, parses, round⟩ := round
  cases parsed with
  | none => exact .inl ⟨parses, (Except.ok.inj round).symm⟩
  | some entry =>
      right
      simp only [bind_ok, Except.ok.injEq] at round
      obtain ⟨loaded, loads, rfl⟩ := round
      let written : NodeEntry := { entry with config := fun _ => loaded.config }
      refine ⟨entry, loaded, parses, loads, ?_, ?_, fun record other => ?_⟩
      · have config := congrArg Node.config (db.heap_loadNode_self written backlog)
        exact config
      · exact db.loadRecord_held written backlog
      · exact db.heap_loadNode_of_ne written backlog other

/-- A node object with its mandatory fields, and more members. -/
def nodeObject (more : List (String × Value)) : Value :=
  let text (text : String) : Value := .string text.toList
  .object
    ([(strUuid, text "00112233445566778899aabbccddeeff"), (strAddr, text "0x0005"),
      (strRmorbl, text "0x00"), (strDone, text "0x00"), (strErrbits, text "0x00000000"),
      (strFunc, text "0x01")] ++ more)

/-! ## Templates -/

/-- One round of `load_template`. -/
def loadTemplateItem (item : Value) (templates : Templates) : Except Abort Templates :=
  match item.get strRefid with
  | none => .ok templates
  | some value => do
      match ← uint16Loader value with
      | none => .ok templates
      | some refid => do
          let tmpl ← loadToTmplItem item ((templates[refid]?).getD .zeroed)
          .ok (templates.insert refid tmpl)

/-- `load_template`, on the content of its file; `false` stands for an error. -/
def loadTemplate (root : Value) (templates : Templates) : Except Abort (Bool × Templates) :=
  match root.get strTemplates with
  | none => .ok (false, templates)
  | some (.array items) => do
      let templates ← items.foldlM (fun templates item => loadTemplateItem item templates)
        templates
      .ok (true, templates)
  | some _ => .error .jsonType

end Nwmng
