/-
Module: Nwmng.Cfg.TreeFrame
Purpose: What an addition to a tree and a removal from it leave of all the trees.
Trusted boundary: none
Main exports:
  CfgDb.cfgdbRemoveFrees, CfgDb.cfgdbAddFrees, CfgDb.cfgdbAddKeys, CfgDb.OneKey,
  CfgDb.OwnKeys, Removed, Added, tree_frame_iff, removed_from_other_tree
-/
import Nwmng.Cfg.Keyed

namespace Nwmng

/-! ## Memory

A lookup sees the trees as maps, and so does the database.  What an addition or a removal does
to the memory of the records is followed here beside it: which records are freed, and in which
record the key of an entry lies, since the keys are pointers into the records. -/

namespace CfgDb

/-- The records that `__cfgdb_remove` frees, when it is told to destroy what it removes. -/
def cfgdbRemoveFrees (db : CfgDb) (record : NodeId) (destroy : Bool) : List NodeId :=
  if destroy then (db.get (db.heap record).removalSpot).toList else []

/-- The records that `__cfgdb_add` frees: the one that it removes, and the one that it
replaces when the key is there all the same. -/
def cfgdbAddFrees (db : CfgDb) (record : NodeId) (tree : TreeId) : List NodeId :=
  let spot := (db.heap record).spotIn tree
  match db.get spot with
  | some holder =>
      if holder = record then []
      else db.cfgdbRemoveFrees holder true ++ ((db.cfgdbRemove holder tree).get spot).toList
  | none => []

/-- `g_tree_insert` takes the new key only where there was no entry; an entry that is there
gets the new value and keeps its key. -/
def insertKey (db : CfgDb) (keys : Spot → NodeId) (spot : Spot) (record : NodeId) :
    Spot → NodeId :=
  match db.get spot with
  | some _ => keys
  | none => Function.update keys spot record

theorem insertKey_there {db : CfgDb} {keys : Spot → NodeId} {spot : Spot}
    {holder record : NodeId} (found : db.get spot = some holder) :
    db.insertKey keys spot record = keys := by
  rw [insertKey, found]

theorem insertKey_new {db : CfgDb} {keys : Spot → NodeId} {spot : Spot} {record : NodeId}
    (absent : db.get spot = none) :
    db.insertKey keys spot record = Function.update keys spot record := by
  rw [insertKey, absent]

/-- The record in which the key of each entry lies after `__cfgdb_add`. -/
def cfgdbAddKeys (db : CfgDb) (keys : Spot → NodeId) (record : NodeId) (tree : TreeId) :
    Spot → NodeId :=
  let spot := (db.heap record).spotIn tree
  match db.get spot with
  | some holder =>
      if holder = record then keys
      else (db.cfgdbRemove holder tree).insertKey keys spot record
  | none => db.insertKey keys spot record

/-- The records are stored under their own keys: the key of an entry lies in its record.  The
trees are given a pointer into the record as the key.  An insertion over an existing key keeps
the old pointer, so the key may come to lie in another record than the value, even in one that
was freed. -/
def OwnKeys (db : CfgDb) (keys : Spot → NodeId) : Prop :=
  ∀ spot record, db.get spot = some record → keys spot = record

/-- No tree holds a record under two keys.  Otherwise the removal of one of the entries would
leave the other behind, with a record that was freed. -/
def OneKey (db : CfgDb) : Prop :=
  ∀ {first second record}, db.get first = some record → db.get second = some record →
    first.tree = second.tree → first = second

/-- A record that is stored under its own key is stored under one. -/
theorem oneKey_of_gKey {db : CfgDb}
    (stored : ∀ spot record, db.get spot = some record →
      (db.heap record).spotIn spot.tree = spot) : db.OneKey := by
  intro first second record one two same
  rw [← stored first record one, ← stored second record two, same]

end CfgDb

theorem Keyed.oneKey {db : CfgDb} (keyed : Keyed db) : db.OneKey := by
  intro first second record one two _
  exact keyed.one_spot one two

/-! ## What is left -/

/-- The record is gone from its tree, nothing else has changed, and it is freed if that was
asked for. -/
structure Removed (db : CfgDb) (record : NodeId) (spot : Spot) (destroy : Bool)
    (after : CfgDb) (freed : List NodeId) : Prop where
  absent : ∀ other, other.tree = spot.tree → after.get other ≠ some record
  others : ∀ other, other ≠ spot → after.get other = db.get other
  freed : freed = if destroy then [record] else []

/-- The key of the record leads to the record, nothing else has changed, and the record that
is freed is the one that held the key. -/
structure Added (db : CfgDb) (keys : Spot → NodeId) (record : NodeId) (tree : TreeId)
    (after : CfgDb) (keysAfter : Spot → NodeId) (freed : List NodeId) : Prop where
  stored : after.get ((db.heap record).spotIn tree) = some record
  key : keysAfter ((db.heap record).spotIn tree) = record
  others : ∀ other, other ≠ (db.heap record).spotIn tree →
    after.get other = db.get other ∧ keysAfter other = keys other
  freed : freed =
    (db.get ((db.heap record).spotIn tree)).toList.filter fun holder => holder ≠ record

/-- A removal is right exactly when the fields of the record lead to where it is stored. -/
theorem removed_iff {db : CfgDb} (oneKey : db.OneKey) {record : NodeId} {spot : Spot}
    (held : db.get spot = some record) (destroy : Bool) :
    Removed db record spot destroy (db.cfgdbRemove record spot.tree)
        (db.cfgdbRemoveFrees record destroy) ↔
      (db.heap record).removalSpot = spot := by
  constructor
  · intro removed
    by_contra elsewhere
    have there : (db.cfgdbRemove record spot.tree).get spot = some record := by
      rw [CfgDb.cfgdbRemove, CfgDb.get_erase, if_neg elsewhere, held]
    exact removed.absent spot rfl there
  · intro here
    refine ⟨?_, ?_, ?_⟩
    · intro other inTree still
      rw [CfgDb.cfgdbRemove, here] at still
      obtain ⟨apart, found⟩ := CfgDb.get_of_get_erase still
      exact apart (oneKey held found inTree.symm)
    · intro other apart
      rw [CfgDb.cfgdbRemove, here, CfgDb.get_erase, if_neg apart.symm]
    · rw [CfgDb.cfgdbRemoveFrees, here, held]
      rfl

/-- An addition is right exactly when a different record that holds the key is removed from
there.  When that removal misses it, `g_tree_insert` finds the key in the tree: the entry gets
the new record, and keeps a key that lies in the record which is freed. -/
theorem added_iff {db : CfgDb} {keys : Spot → NodeId} (own : db.OwnKeys keys)
    (record : NodeId) (tree : TreeId) :
    Added db keys record tree (db.cfgdbAdd record tree) (db.cfgdbAddKeys keys record tree)
        (db.cfgdbAddFrees record tree) ↔
      ∀ holder, db.get ((db.heap record).spotIn tree) = some holder → holder ≠ record →
        (db.heap holder).removalSpot = (db.heap record).spotIn tree := by
  let spot := (db.heap record).spotIn tree
  cases found : db.get spot with
  | none =>
      have isAdded : db.cfgdbAdd record tree = db.set spot record := by
        simp only [CfgDb.cfgdbAdd, spot, found]
      have none : db.cfgdbAddFrees record tree = [] := by
        simp only [CfgDb.cfgdbAddFrees, spot, found]
      have isKeyed : db.cfgdbAddKeys keys record tree = Function.update keys spot record := by
        simp only [CfgDb.cfgdbAddKeys, CfgDb.insertKey, spot, found]
      rw [isAdded, none, isKeyed]
      refine iff_of_true ⟨db.get_set_self spot record, Function.update_self .., ?_, ?_⟩ ?_
      · intro other apart
        rw [CfgDb.get_set, if_neg apart.symm, Function.update_of_ne apart]
        exact ⟨rfl, rfl⟩
      · rw [found]
        rfl
      · intro holder held
        cases held
  | some holder =>
      by_cases same : holder = record
      · have isAdded : db.cfgdbAdd record tree = db := by
          simp only [CfgDb.cfgdbAdd, spot, found, if_pos same]
        have none : db.cfgdbAddFrees record tree = [] := by
          simp only [CfgDb.cfgdbAddFrees, spot, found, if_pos same]
        have isKeyed : db.cfgdbAddKeys keys record tree = keys := by
          simp only [CfgDb.cfgdbAddKeys, spot, found, if_pos same]
        rw [isAdded, none, isKeyed]
        refine iff_of_true ⟨?_, ?_, fun _ _ => ⟨rfl, rfl⟩, ?_⟩ ?_
        · exact found.trans (congrArg some same)
        · exact (own spot holder found).trans same
        · rw [found, Option.toList_some, List.filter_cons_of_neg (by simp [same])]
          rfl
        · intro other held different
          cases held
          exact absurd same different
      · have isAdded : db.cfgdbAdd record tree =
            (db.erase (db.heap holder).removalSpot).set spot record := by
          simp only [CfgDb.cfgdbAdd, spot, found, if_neg same, CfgDb.cfgdbRemove]
        have isFreed : db.cfgdbAddFrees record tree =
            (db.get (db.heap holder).removalSpot).toList ++
              ((db.erase (db.heap holder).removalSpot).get spot).toList := by
          simp only [CfgDb.cfgdbAddFrees, spot, found, if_neg same, CfgDb.cfgdbRemove,
            CfgDb.cfgdbRemoveFrees, if_true]
        have isKeyed : db.cfgdbAddKeys keys record tree =
            (db.erase (db.heap holder).removalSpot).insertKey keys spot record := by
          simp only [CfgDb.cfgdbAddKeys, spot, found, if_neg same, CfgDb.cfgdbRemove]
        rw [isAdded, isFreed, isKeyed]
        constructor
        · intro added other held different
          cases held
          by_contra elsewhere
          have stays : (db.erase (db.heap holder).removalSpot).get spot = some holder := by
            rw [CfgDb.get_erase, if_neg elsewhere, found]
          have key := added.key
          rw [CfgDb.insertKey_there stays] at key
          exact same ((own spot holder found).symm.trans key)
        · intro right
          have here : (db.heap holder).removalSpot = spot := right holder rfl same
          have gone : (db.erase spot).get spot = none := by
            rw [CfgDb.get_erase, if_pos rfl]
          rw [here, CfgDb.insertKey_new gone]
          refine ⟨CfgDb.get_set_self _ spot record, Function.update_self .., ?_, ?_⟩
          · intro other apart
            rw [CfgDb.get_set, if_neg (Ne.symm apart), CfgDb.get_erase,
              if_neg (Ne.symm apart), Function.update_of_ne apart]
            exact ⟨rfl, rfl⟩
          · rw [gone, found]
            simp [same]

/-- The addition of a record to a tree and its removal from it touch nothing but its entry
exactly when the fields lead to where the record is stored: the fields of the record that is
removed, and those of a different one that is replaced.  The tree that is named plays no part in
a removal: `G_HTB` and `G_KEY` work out tree and key from the fields. -/
theorem tree_frame_iff {db : CfgDb} {keys : Spot → NodeId} (oneKey : db.OneKey)
    (own : db.OwnKeys keys) (record : NodeId) (tree : TreeId) :
    ((∀ spot destroy, spot.tree = tree → db.get spot = some record →
        Removed db record spot destroy (db.cfgdbRemove record tree)
          (db.cfgdbRemoveFrees record destroy)) ∧
      Added db keys record tree (db.cfgdbAdd record tree)
        (db.cfgdbAddKeys keys record tree) (db.cfgdbAddFrees record tree)) ↔
    ((∀ spot, spot.tree = tree → db.get spot = some record →
        (db.heap record).removalSpot = spot) ∧
      ∀ holder, db.get ((db.heap record).spotIn tree) = some holder → holder ≠ record →
        (db.heap holder).removalSpot = (db.heap record).spotIn tree) := by
  refine and_congr ?_ (added_iff own record tree)
  constructor
  · rintro removes spot rfl held
    exact (removed_iff oneKey held false).mp (removes spot false rfl held)
  · rintro leads spot destroy rfl held
    exact (removed_iff oneKey held destroy).mpr (leads spot rfl held)

/-! ## A device that has got a template -/

/-- A device that names a template, at a place. -/
def CfgDb.holding (spot : Spot) : CfgDb :=
  (CfgDb.cfgdbInit.alloc.update 0 fun node =>
    { node with tmpl := some { location := 1, value := 1 } }).set spot 0

theorem CfgDb.get_holding {spot other : Spot} {record : NodeId}
    (held : (CfgDb.holding spot).get other = some record) : other = spot ∧ record = 0 := by
  rw [holding, get_set] at held
  split at held
  · rename_i same
    exact ⟨same.symm, (Option.some.inj held).symm⟩
  · rw [get_update, get_alloc, get_cfgdbInit] at held
    cases held

/-- A second device like it, that is in no tree yet. -/
def CfgDb.rivalling (spot : Spot) : CfgDb :=
  (CfgDb.holding spot).alloc.update 1 fun node =>
    { node with tmpl := some { location := 2, value := 1 } }

theorem CfgDb.get_rivalling (spot other : Spot) :
    (CfgDb.rivalling spot).get other = (CfgDb.holding spot).get other := by
  rw [rivalling, get_update, get_alloc]

/-- Among the unprovisioned devices the first is where its fields lead: it is removed, and the
second takes its place. -/
theorem tree_frame_iff_unprov :
    let spot : Spot := .unprovDevs Node.zeroed.uuid
    let db := CfgDb.rivalling spot
    Removed db 0 spot true (db.cfgdbRemove 0 .unprovDevs) [0] ∧
      Added db (fun _ => 0) 1 .unprovDevs (db.cfgdbAdd 1 .unprovDevs)
        (db.cfgdbAddKeys (fun _ => 0) 1 .unprovDevs) [0] := by
  intro spot db
  have held {other : Spot} {record : NodeId} (found : db.get other = some record) :
      other = spot ∧ record = 0 := by
    rw [CfgDb.get_rivalling] at found
    exact CfgDb.get_holding found
  have stored : db.get spot = some 0 := by
    rw [CfgDb.get_rivalling]
    exact CfgDb.get_set_self _ _ _
  have oneKey : db.OneKey := by
    intro first second record one two _
    rw [(held one).1, (held two).1]
  have own : db.OwnKeys fun _ => 0 := by
    intro other record found
    exact (held found).2.symm
  have leads : (db.heap 0).removalSpot = spot := by decide +kernel
  have key : (db.heap 1).spotIn .unprovDevs = spot := by decide +kernel
  have first := (tree_frame_iff oneKey own 0 .unprovDevs).mpr
    ⟨fun other _ found => by rw [(held found).1, leads],
      fun holder found different => absurd (held found).2 different⟩
  have second := (tree_frame_iff oneKey own 1 .unprovDevs).mpr
    ⟨fun other _ found => absurd (held found).2 (by decide),
      fun holder found _ => by rw [(held found).2, leads, key]⟩
  have removed := first.1 spot true rfl stored
  have added := second.2
  have freed := added.freed
  rw [key, stored] at freed
  have removedFrees : db.cfgdbRemoveFrees 0 true = [0] := by
    rw [CfgDb.cfgdbRemoveFrees, leads, stored]
    rfl
  rw [removedFrees] at removed
  rw [freed] at added
  exact ⟨removed, added⟩

/-- The device is not taken from the backlog: it is looked for among the unprovisioned
devices. -/
theorem removed_from_other_tree :
    ¬ ∀ (db : CfgDb) (keys : Spot → NodeId) (record : NodeId) (tree : TreeId),
      (∀ spot record, db.get spot = some record →
        (db.heap record).spotIn spot.tree = spot) →
      db.OwnKeys keys →
      (∀ spot destroy, spot.tree = tree → db.get spot = some record →
        Removed db record spot destroy (db.cfgdbRemove record tree)
          (db.cfgdbRemoveFrees record destroy)) ∧
      Added db keys record tree (db.cfgdbAdd record tree)
        (db.cfgdbAddKeys keys record tree) (db.cfgdbAddFrees record tree) := by
  intro claim
  let db := CfgDb.holding (.backlog Node.zeroed.uuid)
  have held : db.get (.backlog Node.zeroed.uuid) = some 0 := CfgDb.get_set_self _ _ _
  have own : ∀ spot record, db.get spot = some record →
      (db.heap record).spotIn spot.tree = spot := by
    intro spot record stored
    obtain ⟨rfl, rfl⟩ := CfgDb.get_holding stored
    decide +kernel
  have ownKeys : db.OwnKeys fun _ => 0 := by
    intro spot record stored
    exact (CfgDb.get_holding stored).2.symm
  have removed := (claim db (fun _ => 0) 0 .backlog own ownKeys).1
    (.backlog Node.zeroed.uuid) false rfl held
  apply removed.absent (.backlog Node.zeroed.uuid) rfl
  have elsewhere : (db.heap 0).removalSpot ≠ .backlog Node.zeroed.uuid := by decide +kernel
  rw [CfgDb.cfgdbRemove, CfgDb.get_erase, if_neg elsewhere, held]

end Nwmng
