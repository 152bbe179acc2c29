/-
Module: Nwmng.Cfg.Addresses
Purpose: The lists of addresses that the database hands out: of all nodes, and of the lights.
Trusted boundary: none
Main exports:
  AddrCopy, CfgDb.getNodeAddrs, CfgDb.getLightsAddrs, CfgDb.getNodeAddrs_eq,
  CfgDb.getLightsAddrs_eq
-/
import Nwmng.Cfg.Cfgdb

namespace Nwmng

/-- The bits of `models.func` for the kinds of lights. -/
def onoffSvBit : UInt8 := 0x01
def lightnessSvBit : UInt8 := 0x02
def ctlSvBit : UInt8 := 0x04

/-- The offset of the file, and the array of the caller that it leads into.  The offset is static
in the source and survives the call; each traversal starts it again at zero. -/
structure AddrCopy where
  offs : Nat
  data : List UInt16

/-- `((uint16_t *)ud)[offs++] = addr`. -/
def AddrCopy.put (copy : AddrCopy) (addr : UInt16) : AddrCopy :=
  { offs := copy.offs + 1, data := copy.data.set copy.offs addr }

/-- `copy_addr_to_user`. -/
def copyAddrToUser (copy : AddrCopy) (node : UInt16 × NodeId) : AddrCopy :=
  copy.put node.1

namespace CfgDb

/-- `copy_light_addr_to_user`: the kind is the number of a bit. -/
def copyLightAddrToUser (db : CfgDb) (kind : UInt8) (copy : AddrCopy)
    (node : UInt16 × NodeId) : AddrCopy :=
  if (db.heap node.2).func.getLsbD kind.toNat then copy.put (db.heap node.2).addr else copy

/-- `get_node_addrs`; `none` stands for `NULL`.  The length of the list is a byte. -/
def getNodeAddrs (db : CfgDb) : Option Uint16List :=
  let num := db.nodes.size
  if num = 0 then none
  else
    let copy := db.nodes.toList.foldl copyAddrToUser
      { offs := 0, data := List.replicate num 0 }
    some { len := UInt8.ofNat num, data := copy.data }

/-- `get_lights_addrs`. -/
def getLightsAddrs (db : CfgDb) (func : UInt8) : Option Uint16List :=
  let num := db.nodes.size
  if func = 0 ∨ num = 0 then none
  else
    let copy := db.nodes.toList.foldl (db.copyLightAddrToUser func)
      { offs := 0, data := List.replicate num 0 }
    some { len := UInt8.ofNat copy.offs, data := copy.data }

end CfgDb

/-! ## What is copied -/

/-- A traversal that copies an address for some of its nodes.  By induction on the nodes that
are left, which have room behind those copied. -/
theorem foldl_put {step : AddrCopy → UInt16 × NodeId → AddrCopy}
    {address : UInt16 × NodeId → Option UInt16}
    (steps : ∀ copy node, step copy node = (address node).elim copy copy.put)
    (nodes : List (UInt16 × NodeId)) (filled rest : List UInt16)
    (room : nodes.length ≤ rest.length) :
    nodes.foldl step { offs := filled.length, data := filled ++ rest } =
      { offs := (filled ++ nodes.filterMap address).length
        data := filled ++ nodes.filterMap address ++
          rest.drop (nodes.filterMap address).length } := by
  induction nodes generalizing filled rest with
  | nil => simp
  | cons node nodes hypothesis =>
      rw [List.length_cons] at room
      rw [List.foldl_cons, steps]
      cases copied : address node with
      | none =>
          rw [List.filterMap_cons_none copied]
          exact hypothesis filled rest (by omega)
      | some addr =>
          obtain ⟨head, tail, rfl⟩ := List.exists_cons_of_length_pos (show 0 < rest.length by omega)
          rw [List.length_cons] at room
          have put : AddrCopy.put { offs := filled.length, data := filled ++ head :: tail } addr =
              { offs := (filled ++ [addr]).length, data := filled ++ [addr] ++ tail } := by
            simp [AddrCopy.put]
          rw [Option.elim_some, put, hypothesis (filled ++ [addr]) tail (by omega),
            List.filterMap_cons_some copied]
          simp

namespace CfgDb

variable (db : CfgDb)

/-- The list of all nodes: their keys, and the length as far as it fits. -/
theorem getNodeAddrs_eq :
    db.getNodeAddrs = if db.nodes.size = 0 then none
      else some { len := UInt8.ofNat db.nodes.size, data := db.nodes.keys } := by
  have copies := @foldl_put copyAddrToUser (fun node => some node.1) (fun _ _ => rfl)
    db.nodes.toList [] (List.replicate db.nodes.size 0) (by simp)
  have keys : db.nodes.toList.filterMap (fun node => some node.1) = db.nodes.keys := by
    rw [← Std.TreeMap.map_fst_toList_eq_keys, ← List.filterMap_eq_map]
    rfl
  rw [keys] at copies
  unfold getNodeAddrs
  dsimp only
  by_cases empty : db.nodes.size = 0
  · rw [if_pos empty, if_pos empty]
  · rw [if_neg empty, if_neg empty]
    rw [List.length_nil, List.nil_append] at copies
    rw [copies]
    simp [Std.TreeMap.length_keys]

/-- The addresses that a traversal for a kind selects. -/
def lightAddrs (kind : UInt8) : List UInt16 :=
  (db.nodes.values.filter fun record => (db.heap record).func.getLsbD kind.toNat).map
    fun record => (db.heap record).addr

theorem getLightsAddrs_eq (func : UInt8) :
    db.getLightsAddrs func = if func = 0 ∨ db.nodes.size = 0 then none
      else some
        { len := UInt8.ofNat (db.lightAddrs func).length
          data := db.lightAddrs func ++
            List.replicate (db.nodes.size - (db.lightAddrs func).length) 0 } := by
  let address : UInt16 × NodeId → Option UInt16 := fun node =>
    if (db.heap node.2).func.getLsbD func.toNat then some (db.heap node.2).addr else none
  have steps : ∀ copy node, db.copyLightAddrToUser func copy node =
      (address node).elim copy copy.put := by
    intro copy node
    unfold copyLightAddrToUser
    dsimp only [address]
    split <;> rfl
  have copies := foldl_put steps db.nodes.toList [] (List.replicate db.nodes.size 0) (by simp)
  have selected : db.nodes.toList.filterMap address = db.lightAddrs func := by
    rw [lightAddrs, values_eq_toList, List.filter_map, List.map_map, ← List.filterMap_eq_map,
      List.filterMap_filter]
    rfl
  rw [selected, List.length_nil, List.nil_append] at copies
  unfold getLightsAddrs
  dsimp only
  by_cases empty : func = 0 ∨ db.nodes.size = 0
  · rw [if_pos empty, if_pos empty]
  · rw [if_neg empty, if_neg empty, copies]
    simp

end CfgDb

end Nwmng
