/-
Module: Nwmng.Mng.AddressLists
Purpose: When the lists of addresses are complete, and the table of the nodes that remain in
the network with them.
Trusted boundary: none
Main exports:
  AddrsAre, CfgDb.lightsOf, Snapshots, snapshots_iff, onoff_node_left_out
-/
import Nwmng.Cfg.Addresses
import Nwmng.Mng.Blacklist
import Nwmng.Mng.WorkLists

namespace Nwmng

/-- A list of addresses has this length and these data; `NULL` has none.  The length is a byte of
its own, which is why the two are compared. -/
def AddrsAre (list : Option Uint16List) (addrs : List UInt16) : Prop :=
  match list with
  | none => addrs = []
  | some list => list.len.toNat = addrs.length ∧ list.data.take list.len.toNat = addrs

instance decidableAddrsAre : (list : Option Uint16List) → (addrs : List UInt16) →
    Decidable (AddrsAre list addrs)
  | none, addrs => inferInstanceAs (Decidable (addrs = []))
  | some list, addrs => inferInstanceAs (Decidable
      (list.len.toNat = addrs.length ∧ list.data.take list.len.toNat = addrs))

/-- The kinds of lights. -/
def lightFuncs : List UInt8 := [onoffSvBit, lightnessSvBit, ctlSvBit]

namespace CfgDb

/-- The addresses of the nodes that have the function. -/
def lightsOf (db : CfgDb) (func : UInt8) : List UInt16 :=
  (db.nodes.values.filter fun record => (db.heap record).func &&& func.toBitVec != 0#8).map
    fun record => (db.heap record).addr

/-- Every node is stored under its address. -/
def OwnAddrs (db : CfgDb) : Prop :=
  ∀ addr record, db.get (.nodes addr) = some record → (db.heap record).addr = addr

/-- The addresses of the nodes are the keys of the tree. -/
theorem OwnAddrs.addrs {db : CfgDb} (own : db.OwnAddrs) :
    db.nodes.values.map (fun record => (db.heap record).addr) = db.nodes.keys := by
  rw [values_eq_toList, List.map_map, ← Std.TreeMap.map_fst_toList_eq_keys]
  apply List.map_congr_left
  rintro ⟨addr, record⟩ member
  exact own addr record (Std.TreeMap.mem_toList_iff_getElem?_eq_some.mp member)

theorem length_values (db : CfgDb) : db.nodes.values.length = db.nodes.size := by
  rw [values_eq_toList, List.length_map, Std.TreeMap.length_toList]

/-- The keys of the tree are in ascending order. -/
theorem ascending_keys (db : CfgDb) : db.nodes.keys.Pairwise (· < ·) := by
  have ordered := @Std.TreeMap.ordered_keys _ _ _ db.nodes _
  exact ordered.imp fun before => Std.compare_eq_lt.mp before

theorem OwnAddrs.nodup_values {db : CfgDb} (own : db.OwnAddrs) : db.nodes.values.Nodup := by
  apply CfgDb.nodup_values
  intro first second record one two
  exact (own first record one).symm.trans (own second record two)

/-- The addresses of any selection of nodes are in ascending order. -/
theorem OwnAddrs.ascending {db : CfgDb} (own : db.OwnAddrs) (test : NodeId → Bool) :
    ((db.nodes.values.filter test).map fun record => (db.heap record).addr).Pairwise
      (· < ·) := by
  have sorted := db.ascending_keys
  rw [← own.addrs] at sorted
  exact sorted.sublist (List.filter_sublist.map _)

/-- Two selections have the same addresses only if they are the same. -/
theorem OwnAddrs.select_eq_iff {db : CfgDb} (own : db.OwnAddrs) {one two : NodeId → Bool} :
    (db.nodes.values.filter one).map (fun record => (db.heap record).addr) =
        (db.nodes.values.filter two).map (fun record => (db.heap record).addr) ↔
      ∀ record ∈ db.nodes.values, one record = two record := by
  have apart : ∀ first ∈ db.nodes.values, ∀ second ∈ db.nodes.values,
      (db.heap first).addr = (db.heap second).addr → first = second := by
    intro first isFirst second isSecond same
    obtain ⟨addr, heldFirst⟩ := mem_values isFirst
    obtain ⟨addr', heldSecond⟩ := mem_values isSecond
    have equal : addr = addr' :=
      (own addr first heldFirst).symm.trans (same.trans (own addr' second heldSecond))
    rw [← equal, heldFirst] at heldSecond
    exact Option.some.inj heldSecond
  have passes : ∀ {left right : NodeId → Bool} {record : NodeId},
      (db.nodes.values.filter left).map (fun record => (db.heap record).addr) =
        (db.nodes.values.filter right).map (fun record => (db.heap record).addr) →
      record ∈ db.nodes.values → left record = true → right record = true := by
    intro left right record same member isLeft
    have listed : (db.heap record).addr ∈
        (db.nodes.values.filter left).map fun record => (db.heap record).addr :=
      List.mem_map_of_mem (List.mem_filter.mpr ⟨member, isLeft⟩)
    rw [same] at listed
    obtain ⟨other, isOther, equal⟩ := List.mem_map.mp listed
    obtain ⟨inside, isRight⟩ := List.mem_filter.mp isOther
    rw [← apart other inside record member equal]
    exact isRight
  constructor
  · intro same record member
    exact Bool.eq_iff_iff.mpr ⟨passes same member, passes same.symm member⟩
  · intro agree
    rw [List.filter_congr agree]

end CfgDb

/-- The lists of addresses are complete and in order, and so is the table of the nodes that
remain when the list for the blacklist is worked off. -/
structure Snapshots (mng : Mng) : Prop where
  nodes : AddrsAre mng.db.getNodeAddrs mng.db.nodes.keys
  ascending : mng.db.nodes.keys.Pairwise (· < ·)
  lights : ∀ func ∈ lightFuncs, AddrsAre (mng.db.getLightsAddrs func) (mng.db.lightsOf func) ∧
    (mng.db.lightsOf func).Pairwise (· < ·)
  remaining : ∀ num : Int, num = mng.db.nodes.size - mng.lists.bl.length → num ≠ 0 →
    loadRemainingNodes num mng =
      .ok (some ((mng.db.nodes.values.filter fun node => node ∉ mng.lists.bl).map
        fun node => (node, 0xff)))

/-- The list of the nodes is complete when its length fits into a byte. -/
theorem addrsAre_getNodeAddrs (db : CfgDb) :
    AddrsAre db.getNodeAddrs db.nodes.keys ↔ db.nodes.size < 256 := by
  rw [CfgDb.getNodeAddrs_eq, ← Std.TreeMap.length_keys]
  by_cases empty : db.nodes.keys.length = 0
  · rw [if_pos empty]
    exact iff_of_true (List.length_eq_zero_iff.mp empty) (by omega)
  · rw [if_neg empty]
    simp only [AddrsAre, UInt8.toNat_ofNat']
    constructor
    · rintro ⟨fits, _⟩
      omega
    · intro small
      rw [Nat.mod_eq_of_lt small]
      exact ⟨rfl, List.take_length⟩

/-- The list of a kind of lights is complete when the number of the kind, taken as that of a
bit, selects the nodes that have the function. -/
theorem addrsAre_getLightsAddrs {db : CfgDb} (own : db.OwnAddrs) (small : db.nodes.size < 256)
    {func : UInt8} (some_ : func ≠ 0) :
    AddrsAre (db.getLightsAddrs func) (db.lightsOf func) ↔
      ∀ record ∈ db.nodes.values, (db.heap record).func.getLsbD func.toNat =
        ((db.heap record).func &&& func.toBitVec != 0#8) := by
  have few : (db.lightAddrs func).length ≤ db.nodes.size := by
    rw [CfgDb.lightAddrs, List.length_map, ← db.length_values]
    exact List.length_filter_le _ _
  rw [CfgDb.getLightsAddrs_eq]
  by_cases empty : db.nodes.size = 0
  · have none : db.nodes.values = [] := by
      rw [← List.length_eq_zero_iff, db.length_values, empty]
    rw [if_pos (.inr empty)]
    simp [AddrsAre, CfgDb.lightsOf, none]
  · rw [if_neg (not_or.mpr ⟨some_, empty⟩)]
    simp only [AddrsAre, UInt8.toNat_ofNat', Nat.mod_eq_of_lt (Nat.lt_of_le_of_lt few small),
      List.take_left]
    rw [← own.select_eq_iff]
    constructor
    · exact fun both => both.2
    · intro same
      have equal : db.lightAddrs func = db.lightsOf func := same
      exact ⟨by rw [equal], equal⟩

/-- As many nodes remain as there are, less those that are listed. -/
theorem length_remaining {values listed : List NodeId} (distinct : values.Nodup)
    (once : listed.Nodup) (inside : ∀ record ∈ listed, record ∈ values) :
    (values.filter fun node => node ∉ listed).length + listed.length = values.length := by
  have same : (values.filter fun node => node ∈ listed).Perm listed := by
    apply (List.perm_ext_iff_of_nodup (distinct.filter _) once).mpr
    intro record
    simp only [List.mem_filter, decide_eq_true_eq]
    exact ⟨fun both => both.2, fun member => ⟨inside record member, member⟩⟩
  have both := List.length_eq_length_filter_add (l := values) fun node => decide (node ∈ listed)
  rw [same.length_eq] at both
  simp only [← decide_not] at both
  omega

/-- The lists are complete exactly when there are fewer than 256 nodes, and each has the bit with
the number of a kind of lights exactly when it has the function.  The length is cut to a byte,
and the function, a mask, is used as the number of a bit. -/
theorem snapshots_iff {mng : Mng} (own : mng.db.OwnAddrs)
    (inside : ∀ record ∈ mng.lists.bl, record ∈ mng.db.nodes.values)
    (once : mng.lists.bl.Nodup) :
    Snapshots mng ↔ mng.db.nodes.size < 256 ∧
      ∀ func ∈ lightFuncs, ∀ record ∈ mng.db.nodes.values,
        (mng.db.heap record).func.getLsbD func.toNat =
          ((mng.db.heap record).func &&& func.toBitVec != 0#8) := by
  have kinds : ∀ func ∈ lightFuncs, func ≠ 0 := by
    intro func isKind
    simp only [lightFuncs, List.mem_cons, List.not_mem_nil, or_false] at isKind
    rcases isKind with rfl | rfl | rfl <;> decide
  constructor
  · intro complete
    have small := (addrsAre_getNodeAddrs mng.db).mp complete.nodes
    refine ⟨small, ?_⟩
    intro func isKind
    exact (addrsAre_getLightsAddrs own small (kinds func isKind)).mp
      (complete.lights func isKind).1
  · rintro ⟨small, agree⟩
    refine ⟨(addrsAre_getNodeAddrs mng.db).mpr small, mng.db.ascending_keys, ?_, ?_⟩
    · intro func isKind
      exact ⟨(addrsAre_getLightsAddrs own small (kinds func isKind)).mpr (agree func isKind),
        own.ascending _⟩
    · intro num isNum some_
      have count := length_remaining own.nodup_values once inside
      have total := mng.db.length_values
      have present : mng.db.nodes.values ≠ [] := by
        intro empty
        rw [empty, List.length_nil] at total count
        omega
      have whole : mng.db.nodes.values.take (mng.db.nodes.values.length % 256) =
          mng.db.nodes.values := by
        rw [Nat.mod_eq_of_lt (by omega), List.take_length]
      rw [loadRemainingNodes]
      simp only [if_neg present, whole]
      rw [if_pos (by omega)]

/-!
## Two nodes

The mask of functions is used as the number of a bit.  The kinds are 1, 2 and 4, so the lists are
right only for nodes whose bits happen to say the same.
-/

/-- A node with these functions. -/
def Node.functioning (addr : UInt16) (func : BitVec 8) : Node :=
  { Node.plain addr with uuid := Vector.replicate 16 addr.toUInt8, func := func }

/-- A manager that has configured two nodes. -/
def Mng.twoNodes (first second : Node) : Mng :=
  Mng.sampleConfigured.setDb (.twoNodes first second)

theorem CfgDb.ownAddrs_twoNodes (first second : Node) :
    (CfgDb.twoNodes first second).OwnAddrs := by
  intro addr record held
  rcases CfgDb.get_twoNodes held with ⟨same, rfl⟩ | ⟨same, rfl⟩
  · exact (Spot.nodes.inj same).symm
  · exact (Spot.nodes.inj same).symm

/-- One node is no light, and the other has all the kinds and the bits that stand for them. -/
theorem snapshots_iff_all :
    Snapshots (.twoNodes (.functioning 2 0) (.functioning 3 0x17)) := by
  have own : (Mng.twoNodes (.functioning 2 0) (.functioning 3 0x17)).db.OwnAddrs :=
    CfgDb.ownAddrs_twoNodes _ _
  apply (snapshots_iff own (fun record member => by cases member) List.nodup_nil).mpr
  decide +kernel

/-- A node that can be switched on and off is not in the list of such nodes. -/
theorem onoff_node_left_out :
    ¬ ∀ mng : Mng, mng.db.OwnAddrs →
      (∀ record ∈ mng.lists.bl, record ∈ mng.db.nodes.values) → mng.lists.bl.Nodup →
      Snapshots mng := by
  intro claim
  have complete := claim (.twoNodes (.functioning 2 0) (.functioning 3 1))
    (CfgDb.ownAddrs_twoNodes _ _) (fun record member => by cases member) List.nodup_nil
  have lights := (complete.lights onoffSvBit (by decide)).1
  revert lights
  decide +kernel

end Nwmng
