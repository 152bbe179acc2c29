/-
Module: Nwmng.Config.StoredModels
Purpose: The models of stored composition data as one list for each element, and what the
functions that go through them read.
Trusted boundary: none
Main exports:
  Elem.vnms, Dcd.Stored, dcdStore_stored, modelAt_eq, noteModel_at, modelsOf, nextModel_eq,
  iterModels_at
-/
import Nwmng.Config.DcdBounds
import Nwmng.Config.Exchange

namespace Nwmng

open Bytes Fallible Enumeration

/-! ## Stored data -/

/-- The models of an element in their order: SIG models first, then those of vendors. -/
def Elem.vnms (elem : Elem) : List Vnm :=
  (elem.sigModels.take elem.sigmCnt.toNat).map (fun model => { vd := 0xFFFF, md := model }) ++
    elem.vm.map fun model => { vd := model.vid, md := model.mid }

/-- The arrays of an element are as long as its counts say.  The array of the SIG models may be
longer, since the models that are left out are not counted. -/
structure Elem.Sized (elem : Elem) : Prop where
  sig : elem.sigmCnt.toNat ≤ elem.sigModels.length
  vendor : elem.vm.length = elem.vmCnt.toNat

/-- Composition data with at least one element, each with its models.  This is what a state may
rely on once `get_dcd` was left with success. -/
structure Dcd.Stored (dcd : Dcd) (elems : List Elem) : Prop where
  present : dcd.elems = some elems
  count : dcd.elementCnt.toNat = elems.length
  positive : 0 < elems.length
  sized : ∀ elem ∈ elems, elem.Sized

theorem length_readVendorModels (data : Memory) (count : Nat) (i : UInt8) :
    (readVendorModels data count i).1.length = count := by
  induction count generalizing i with
  | zero => rfl
  | succ count hypothesis => simp only [readVendorModels, List.length_cons, hypothesis]

theorem readElement_sized (data : Memory) (i : UInt8) (func : BitVec 8) :
    (readElement data i func).1.Sized := by
  obtain ⟨sig, _⟩ := readElement_counts data i func
  refine ⟨Nat.le_trans sig ?_, ?_⟩
  · simp only [readElement, List.length_append, List.length_replicate]
    omega
  · simp only [readElement, length_readVendorModels]

theorem readElements_sized (data : Memory) (count : Nat) (i : UInt8) (func : BitVec 8) :
    (readElements data count i func).1.length = count ∧
      ∀ elem ∈ (readElements data count i func).1, elem.Sized := by
  induction count generalizing i func with
  | zero => exact ⟨rfl, fun _ impossible => nomatch impossible⟩
  | succ count hypothesis =>
      have first := readElement_sized data i func
      obtain ⟨length, others⟩ := hypothesis ((readElement data i func).2.1 + 2)
        (readElement data i func).2.2
      simp only [readElements, List.length_cons, length, true_and]
      exact List.forall_mem_cons.mpr ⟨first, others⟩

/-- The cursor moves by an even number, so the first pass counts at most 128 elements. -/
theorem countElements_positive {sigmCnt vmCnt len i counted : UInt8} {fuel : Nat}
    (counts : countElements sigmCnt vmCnt len fuel i 0 = some counted) : 0 < counted.toNat := by
  obtain ⟨rounds, _, before, leaves, rfl⟩ := (countElements_eq_some_iff rfl).mp counts
  have few : rounds < 128 := by
    by_contra many
    have early := before (rounds - 128) (by omega)
    have apart : (rounds + 1) * (2 * sigmCnt.toNat + 4 * vmCnt.toNat) =
        (rounds - 128 + 1) * (2 * sigmCnt.toNat + 4 * vmCnt.toNat) +
          256 * (sigmCnt.toNat + 2 * vmCnt.toNat) := by
      have split : rounds + 1 = rounds - 128 + 1 + 128 := by omega
      rw [split, Nat.add_mul]
      omega
    rw [apart, ← Nat.add_assoc, Nat.add_mul_mod_self_left] at leaves
    omega
  rw [UInt8.zero_add, UInt8.toNat_ofNat']
  omega

/-- What `__dcd_store` stores.  It stores at least one element, each with arrays that its counts
fit. -/
theorem dcdStore_stored {fuel : Nat} {data : Memory} {len : UInt8} {func after : BitVec 8}
    {dcd : Dcd} (stores : dcdStore fuel data len func = some (dcd, after)) :
    ∃ elems, dcd.Stored elems := by
  have counted := countElements_positive (countElements_of_dcdStore stores)
  have counts := countElements_of_dcdStore stores
  unfold dcdStore at stores
  rw [counts] at stores
  simp only [Option.some.injEq, Prod.mk.injEq] at stores
  obtain ⟨length, sized⟩ := readElements_sized data dcd.elementCnt.toNat 12 func
  refine ⟨(readElements data dcd.elementCnt.toNat 12 func).1, ?_, length.symm, ?_, sized⟩
  · rw [← stores.1]
  · rw [length]
    exact counted

theorem Elem.Sized.length_vnms {elem : Elem} (sized : elem.Sized) :
    elem.vnms.length = elem.modelCount := by
  simp only [vnms, List.length_append, List.length_map, List.length_take, sized.vendor,
    modelCount, Nat.min_eq_left sized.sig]

/-!
## Reading at a position

The iterators hold a number for an element and a number for a model in it.  Read as positions of
one list for each element, the two arrays of the source need no distinction any more.
-/

/-- What lies in a cell of an array, if the cell exists. -/
def cell {α : Type} : Option α → Except Abort α
  | some value => .ok value
  | none => .error .outOfBounds

@[simp] theorem cell_some {α : Type} (value : α) : cell (some value) = .ok value := rfl

@[simp] theorem cell_none {α : Type} : cell (none : Option α) = .error .outOfBounds := rfl

theorem arrayAt_natCast {α : Type} (values : List α) (index : Nat) :
    arrayAt values (index : Int) = cell values[index]? := by
  unfold arrayAt
  rw [if_neg (Int.not_lt.mpr (Int.natCast_nonneg index)), Int.toNat_natCast]
  rfl

/-- The model of an element with a number. -/
theorem modelAt_eq {elem : Elem} (sized : elem.Sized) (index : Nat) :
    modelAt elem (index : Int) = cell elem.vnms[index]? := by
  have sigLength : ((elem.sigModels.take elem.sigmCnt.toNat).map
      fun model => ({ vd := 0xFFFF, md := model } : Vnm)).length = elem.sigmCnt.toNat := by
    rw [List.length_map, List.length_take, Nat.min_eq_left sized.sig]
  unfold modelAt Elem.vnms
  by_cases vendor : elem.sigmCnt.toNat ≤ index
  · have offset : (index : Int) - elem.sigmCnt.toNat =
        ((index - elem.sigmCnt.toNat : Nat) : Int) := by
      omega
    rw [if_pos (by omega), offset, arrayAt_natCast,
      List.getElem?_append_right (by rw [sigLength]; exact vendor), sigLength, List.getElem?_map]
    cases elem.vm[index - elem.sigmCnt.toNat]? with
    | none => rfl
    | some model => rfl
  · have below : index < elem.sigmCnt.toNat := Nat.lt_of_not_le vendor
    rw [if_neg (by omega), arrayAt_natCast,
      List.getElem?_append_left (by rw [sigLength]; exact below), List.getElem?_map,
      List.getElem?_take, if_pos below]
    cases elem.sigModels[index]? with
    | none => rfl
    | some model => rfl

/-- The model with a number in the element with a number. -/
def vnmAt (elems : List Elem) (element model : Nat) : Option Vnm := do
  let elem ← elems[element]?
  elem.vnms[model]?

/-- The number of models of the element with a number. -/
def modelsOf (elems : List Elem) (element : Nat) : Nat :=
  match elems[element]? with
  | some elem => elem.modelCount
  | none => 0

section

variable {cache : ConfigCache} {elems : List Elem} (stored : cache.dcd.Stored elems)
variable {element model : Nat} (first : cache.iterators.zero = element)

include stored first

theorem elementAt_eq : elementAt cache = cell elems[element]? := by
  simp only [elementAt, stored.present, first, Nwmng.present, ok_bind, arrayAt_natCast]

/-- Noting the model succeeds where there is one. -/
theorem noteModel_at (second : cache.iterators.one = model) :
    noteModel cache =
      cell ((vnmAt elems element model).map fun vnm => { cache with vnm := vnm }) := by
  rw [noteModel, elementAt_eq stored first]
  unfold vnmAt
  cases here : elems[element]? with
  | none => rfl
  | some elem =>
      have sized := stored.sized elem (List.mem_of_getElem? here)
      simp only [cell_some, ok_bind, second, modelAt_eq sized model, Option.bind_eq_bind,
        Option.bind_some]
      cases elem.vnms[model]? with
      | none => rfl
      | some vnm => rfl

/-- The element iterator goes on to the next element, if there is one. -/
theorem nextElement_at (inside : element < elems.length) :
    nextElement cache =
      match later (fun _ => true) elems.length element with
      | some other =>
          (false, { cache with iterators := { cache.iterators with zero := other } })
      | none => (true, { cache with iterators := { cache.iterators with zero := 0 } }) := by
  unfold nextElement
  rw [first, stored.count]
  by_cases last : element + 1 = elems.length
  · rw [later_last last]
    dsimp only
    rw [if_pos (by omega)]
  · rw [later_succ (by omega) rfl]
    dsimp only
    rw [if_neg (by omega)]
    rfl

end

theorem UInt8.ofInt_natCast (value : Nat) : UInt8.ofInt (value : Int) = UInt8.ofNat value := by
  apply UInt8.toNat.inj
  simp [UInt8.ofInt]
  omega

/-- The search for the next supported model of an element.  It starts behind the present model;
the present one is not looked at. -/
theorem nextModel_eq {elem : Elem} (sized : elem.Sized) (supported : UInt16 → Bool)
    {fuel index : Nat} (enough : elem.modelCount ≤ index + fuel)
    (inside : index < elem.modelCount) :
    nextModel elem supported fuel index =
      .ok ((later (fun other => (elem.vnms[other]?.map fun vnm => supported vnm.md).getD false)
        elem.modelCount index).map Int.ofNat) := by
  induction fuel generalizing index with
  | zero => omega
  | succ fuel hypothesis =>
      unfold nextModel
      have following : (index : Int) + 1 = ((index + 1 : Nat) : Int) := rfl
      dsimp only
      rw [following]
      by_cases last : index + 1 = elem.modelCount
      · rw [if_pos (by omega), later_last last]
        rfl
      · have within : index + 1 < elem.modelCount := by omega
        have listed : index + 1 < elem.vnms.length := by
          rw [sized.length_vnms]
          exact within
        rw [if_neg (by omega), modelAt_eq sized, List.getElem?_eq_getElem listed, cell_some,
          ok_bind, later,
          behind_succ within, List.getElem?_eq_getElem listed]
        dsimp only [Option.map_some, Option.getD_some]
        by_cases holds : supported (elem.vnms[index + 1]).md = true
        · rw [if_pos holds, if_pos holds]
          rfl
        · rw [if_neg holds, if_neg holds, hypothesis (by omega) within]
          rfl

end Nwmng
