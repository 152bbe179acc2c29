/-
Module: Nwmng.Config.DcdCodec
Purpose: Composition data pages and their encoding, and when `__dcd_store` reads
an encoded page back.
Trusted boundary: none
Main exports:
  ElementPage, DcdPage, DcdPage.encode, DcdPage.CountsAgree, Dcd.Represents,
  dcdStore_represents_iff
-/
import Nwmng.Config.Dcd

namespace Nwmng

open Bytes

/-- One element of composition data page 0. -/
structure ElementPage where
  location : UInt16
  sigModels : List UInt16
  vendorModels : List VendorModel
deriving Repr, DecidableEq

def VendorModel.encode (model : VendorModel) : List UInt8 :=
  u16le model.vid ++ u16le model.mid

namespace ElementPage

def encodeModels (page : ElementPage) : List UInt8 :=
  page.sigModels.flatMap u16le ++ page.vendorModels.flatMap VendorModel.encode

/-- An element without its location: the counts and the models. -/
def encodeBody (page : ElementPage) : List UInt8 :=
  UInt8.ofNat page.sigModels.length :: UInt8.ofNat page.vendorModels.length ::
    page.encodeModels

def encode (page : ElementPage) : List UInt8 :=
  u16le page.location ++ page.encodeBody

/-- The number of bytes the models of an element take. -/
def modelBytes (page : ElementPage) : Nat :=
  2 * page.sigModels.length + 4 * page.vendorModels.length

/-- The models a configuration client is to work with. -/
def kept (page : ElementPage) : List UInt16 × List VendorModel :=
  (page.sigModels.filter keepsModel, page.vendorModels)

end ElementPage

/-- Composition data page 0: a page has at least one element.  It is the page as the profile
defines it, from which `encode` makes the bytes that a node sends. -/
structure DcdPage where
  cid : UInt16
  pid : UInt16
  vid : UInt16
  crpl : UInt16
  features : UInt16
  first : ElementPage
  rest : List ElementPage
deriving Repr, DecidableEq

namespace DcdPage

def elements (page : DcdPage) : List ElementPage :=
  page.first :: page.rest

def encode (page : DcdPage) : List UInt8 :=
  u16le page.cid ++ u16le page.pid ++ u16le page.vid ++ u16le page.crpl ++
    u16le page.features ++ page.elements.flatMap ElementPage.encode

/-- Where the cursor of the first pass stands after some rounds: it advances by
the models of the first element every time, in a single byte. -/
def countCursor (page : DcdPage) (rounds : Nat) : Nat :=
  (14 + rounds * page.first.modelBytes) % 256

/-- The first pass stays inside the page until it has counted every element, and
then leaves it. -/
def CountsAgree (page : DcdPage) : Prop :=
  (∀ rounds < page.elements.length, 1 ≤ rounds →
    page.countCursor rounds < page.encode.length) ∧
  page.encode.length ≤ page.countCursor page.elements.length

instance (page : DcdPage) : Decidable page.CountsAgree :=
  inferInstanceAs (Decidable (_ ∧ _))

end DcdPage

/-- The models of an element that its counts cover. -/
def Elem.models (elem : Elem) : List UInt16 × List VendorModel :=
  (elem.sigModels.take elem.sigmCnt.toNat, elem.vm.take elem.vmCnt.toNat)

/-- Stored composition data says what the page says.  The program keeps the features and the
models of each element; what else is in the page is not looked at again. -/
def Dcd.Represents (dcd : Dcd) (page : DcdPage) : Prop :=
  dcd.feature = page.features ∧
  dcd.elementCnt.toNat = page.elements.length ∧
  dcd.elems.map (List.map Elem.models) = some (page.elements.map ElementPage.kept)

/-! ## The second pass -/

theorem length_flatMap_u16le (values : List UInt16) :
    (values.flatMap u16le).length = 2 * values.length := by
  induction values with
  | nil => rfl
  | cons value values hypothesis =>
      simp [hypothesis]
      omega

theorem length_flatMap_vendor (models : List VendorModel) :
    (models.flatMap VendorModel.encode).length = 4 * models.length := by
  induction models with
  | nil => rfl
  | cons model models hypothesis =>
      simp [hypothesis, VendorModel.encode]
      omega

theorem ElementPage.length_encodeBody (page : ElementPage) :
    page.encodeBody.length = 2 + page.modelBytes := by
  simp only [encodeBody, encodeModels, modelBytes, List.length_cons,
    List.length_append, length_flatMap_u16le, length_flatMap_vendor]
  omega

theorem ElementPage.length_encode (page : ElementPage) :
    page.encode.length = 4 + page.modelBytes := by
  simp [encode, length_encodeBody]
  omega

theorem UInt8.toNat_add_of_lt {cursor step : UInt8}
    (inside : cursor.toNat + step.toNat < 256) :
    (cursor + step).toNat = cursor.toNat + step.toNat := by
  rw [UInt8.toNat_add]
  exact Nat.mod_eq_of_lt inside

theorem readSigModels_eq {data : Memory} {models : List UInt16} {i : UInt8}
    (func : BitVec 8) (held : Holds data i.toNat (models.flatMap u16le))
    (inside : i.toNat + 2 * models.length < 256) :
    ∃ last func', readSigModels data models.length i func =
        (models.filter keepsModel, last, func') ∧
      last.toNat = i.toNat + 2 * models.length := by
  induction models generalizing i func with
  | nil => exact ⟨i, func, rfl, rfl⟩
  | cons model models hypothesis =>
      rw [List.flatMap_cons, Holds.append] at held
      obtain ⟨here, later⟩ := held
      simp only [List.length_cons] at inside
      have advanced : (i + 2).toNat = i.toNat + 2 :=
        UInt8.toNat_add_of_lt (by simp; omega)
      rw [length_u16le, ← advanced] at later
      obtain ⟨last, func', read, lastAt⟩ :=
        hypothesis (func ||| funcBit model) later (by omega)
      refine ⟨last, func', ?_, by simp only [List.length_cons]; omega⟩
      simp only [List.length_cons, readSigModels, here.readU16, read,
        List.filter_cons]

theorem readVendorModels_eq {data : Memory} {models : List VendorModel} {i : UInt8}
    (held : Holds data i.toNat (models.flatMap VendorModel.encode))
    (inside : i.toNat + 4 * models.length < 256) :
    ∃ last, readVendorModels data models.length i = (models, last) ∧
      last.toNat = i.toNat + 4 * models.length := by
  induction models generalizing i with
  | nil => exact ⟨i, rfl, rfl⟩
  | cons model models hypothesis =>
      rw [List.flatMap_cons, VendorModel.encode, Holds.append, Holds.append] at held
      obtain ⟨⟨vid, mid⟩, later⟩ := held
      simp only [List.length_cons] at inside
      have half : (i + 2).toNat = i.toNat + 2 :=
        UInt8.toNat_add_of_lt (by simp; omega)
      have advanced : (i + 4).toNat = i.toNat + 4 :=
        UInt8.toNat_add_of_lt (by simp; omega)
      rw [length_u16le, ← half] at mid
      rw [List.length_append, length_u16le, length_u16le, ← advanced] at later
      obtain ⟨last, read, lastAt⟩ := hypothesis later (by omega)
      refine ⟨last, ?_, by simp only [List.length_cons]; omega⟩
      simp only [List.length_cons, readVendorModels, vid.readU16, mid.readU16, read]

theorem readElement_eq {data : Memory} {page : ElementPage} {i : UInt8}
    (func : BitVec 8) (held : Holds data i.toNat page.encodeBody)
    (inside : i.toNat + 2 + page.modelBytes < 256) :
    ∃ elem last func', readElement data i func = (elem, last, func') ∧
      elem.models = page.kept ∧ last.toNat = i.toNat + 2 + page.modelBytes := by
  have sigBound : page.sigModels.length < 256 := by
    unfold ElementPage.modelBytes at inside
    omega
  have vendorBound : page.vendorModels.length < 256 := by
    unfold ElementPage.modelBytes at inside
    omega
  obtain ⟨sigmCnt, rest⟩ := Holds.cons.mp held
  obtain ⟨vmCnt, models⟩ := Holds.cons.mp rest
  have second : (i + 1).toNat = i.toNat + 1 :=
    UInt8.toNat_add_of_lt (by simp; omega)
  have third : (i + 2).toNat = i.toNat + 2 :=
    UInt8.toNat_add_of_lt (by simp; omega)
  rw [← second] at vmCnt
  rw [Nat.add_assoc, ← third] at models
  obtain ⟨sigHeld, vendorHeld⟩ := Holds.append.mp models
  obtain ⟨middle, func', sigRead, middleAt⟩ := readSigModels_eq func sigHeld
    (by unfold ElementPage.modelBytes at inside; omega)
  rw [length_flatMap_u16le, ← middleAt] at vendorHeld
  obtain ⟨last, vendorRead, lastAt⟩ := readVendorModels_eq vendorHeld
    (by unfold ElementPage.modelBytes at inside; omega)
  have fewer : (page.sigModels.filter keepsModel).length ≤ page.sigModels.length :=
    List.length_filter_le _ _
  have count : (UInt8.ofNat page.sigModels.length -
      UInt8.ofNat (page.sigModels.length -
        (page.sigModels.filter keepsModel).length)).toNat =
      (page.sigModels.filter keepsModel).length := by
    rw [UInt8.toNat_sub_of_le]
    · simp
      omega
    · rw [UInt8.le_iff_toNat_le]
      simp
      omega
  have sigNat : (UInt8.ofNat page.sigModels.length).toNat = page.sigModels.length := by
    simp
    omega
  have vendorNat : (UInt8.ofNat page.vendorModels.length).toNat =
      page.vendorModels.length := by
    simp
    omega
  let elem : Elem :=
    { sigmCnt := UInt8.ofNat page.sigModels.length -
        UInt8.ofNat (page.sigModels.length -
          (page.sigModels.filter keepsModel).length)
      vmCnt := UInt8.ofNat page.vendorModels.length
      sigModels := page.sigModels.filter keepsModel ++
        List.replicate (page.sigModels.length -
          (page.sigModels.filter keepsModel).length) 0
      vm := page.vendorModels }
  refine ⟨elem, last, func', ?_, ?_, by unfold ElementPage.modelBytes; omega⟩
  · simp only [readElement, sigmCnt, vmCnt, sigNat, vendorNat, sigRead, vendorRead,
      elem]
  · simp only [Elem.models, ElementPage.kept, elem, count, vendorNat]
    simp

theorem readElements_eq {data : Memory} {first : ElementPage}
    {rest : List ElementPage} {i : UInt8} (func : BitVec 8)
    (held : Holds data i.toNat
      (first.encodeBody ++ rest.flatMap ElementPage.encode))
    (inside : i.toNat +
      (first.encodeBody ++ rest.flatMap ElementPage.encode).length < 256) :
    ∃ elems last func', readElements data (rest.length + 1) i func =
        (elems, last, func') ∧
      elems.map Elem.models = (first :: rest).map ElementPage.kept := by
  induction rest generalizing first i func with
  | nil =>
      rw [List.flatMap_nil, List.append_nil] at held inside
      rw [first.length_encodeBody] at inside
      obtain ⟨elem, last, func', read, same, _⟩ :=
        readElement_eq func held (by omega)
      exact ⟨[elem], last + 2, func', by simp [readElements, read], by simp [same]⟩
  | cons second rest hypothesis =>
      rw [Holds.append] at held
      obtain ⟨here, later⟩ := held
      simp only [List.length_append, List.flatMap_cons, first.length_encodeBody,
        second.length_encode] at inside
      obtain ⟨elem, middle, func', read, same, middleAt⟩ :=
        readElement_eq func here (by omega)
      have advanced : (middle + 2).toNat = middle.toNat + 2 :=
        UInt8.toNat_add_of_lt (by simp; omega)
      rw [first.length_encodeBody, List.flatMap_cons, ElementPage.encode,
        List.append_assoc, Holds.append, length_u16le] at later
      have behind : Holds data (middle + 2).toNat
          (second.encodeBody ++ rest.flatMap ElementPage.encode) := by
        rw [advanced, middleAt]
        simpa [Nat.add_assoc] using later.2
      obtain ⟨elems, last, func'', readLater, sameLater⟩ :=
        hypothesis func' behind (by
          rw [List.length_append, second.length_encodeBody, advanced]
          omega)
      refine ⟨elem :: elems, last, func'', ?_, by simp [same, sameLater]⟩
      simp only [List.length_cons]
      rw [readElements, read]
      simp only [readLater]

/-!
## The first pass

The first pass finds the number of elements by advancing through the page, in every round by the
models of the first element and without the locations in between.  It counts right only where
this leaves the page in the same round as the elements do.
-/

/-- The counting loop ends with the first round that leaves the page; its cursor
and its count are kept in a byte each. -/
theorem countElements_eq_some_iff {sigmCnt vmCnt len i eles counted : UInt8}
    {step fuel : Nat} (stepIs : step = 2 * sigmCnt.toNat + 4 * vmCnt.toNat) :
    countElements sigmCnt vmCnt len fuel i eles = some counted ↔
      ∃ rounds < fuel,
        (∀ earlier < rounds, (i.toNat + (earlier + 1) * step) % 256 < len.toNat) ∧
        len.toNat ≤ (i.toNat + (rounds + 1) * step) % 256 ∧
        counted = eles + UInt8.ofNat (rounds + 1) := by
  induction fuel generalizing i eles with
  | zero => simp [countElements]
  | succ fuel hypothesis =>
      have advanced : (i + 2 * sigmCnt + 2 * vmCnt * 2).toNat =
          (i.toNat + step) % 256 := by
        simp only [UInt8.toNat_add, UInt8.toNat_mul, UInt8.reduceToNat, stepIs]
        omega
      have shifted : ∀ rounds : Nat,
          ((i + 2 * sigmCnt + 2 * vmCnt * 2).toNat + (rounds + 1) * step) % 256 =
            (i.toNat + (rounds + 1 + 1) * step) % 256 := by
        intro rounds
        rw [advanced, Nat.mod_add_mod, Nat.add_mul (rounds + 1) 1]
        congr 1
        omega
      have once : (i.toNat + (0 + 1) * step) % 256 =
          (i + 2 * sigmCnt + 2 * vmCnt * 2).toNat := by
        rw [advanced]
        simp
      simp only [countElements]
      by_cases inside : i + 2 * sigmCnt + 2 * vmCnt * 2 < len
      · have insideNat := UInt8.lt_iff_toNat_lt.mp inside
        simp only [inside, if_true]
        rw [hypothesis]
        simp only [shifted]
        constructor
        · rintro ⟨rounds, bound, before, leaves, rfl⟩
          refine ⟨rounds + 1, by omega, ?_, leaves, ?_⟩
          · intro earlier early
            cases earlier with
            | zero => rw [once]; exact insideNat
            | succ earlier => exact before earlier (by omega)
          · rw [UInt8.add_assoc, UInt8.ofNat_add (rounds + 1) 1,
              UInt8.add_comm (UInt8.ofNat (rounds + 1))]
            rfl
        · rintro ⟨rounds, bound, before, leaves, rfl⟩
          cases rounds with
          | zero =>
              rw [once] at leaves
              omega
          | succ rounds =>
              refine ⟨rounds, by omega, ?_, leaves, ?_⟩
              · intro earlier early
                exact before (earlier + 1) (by omega)
              · rw [UInt8.add_assoc, UInt8.ofNat_add (rounds + 1) 1,
                  UInt8.add_comm (UInt8.ofNat (rounds + 1))]
                rfl
      · have outside : len.toNat ≤ (i + 2 * sigmCnt + 2 * vmCnt * 2).toNat := by
          rw [UInt8.lt_iff_toNat_lt] at inside
          omega
        simp only [inside, if_false, Option.some.injEq]
        constructor
        · intro same
          refine ⟨0, by omega, by simp, by rw [once]; exact outside, ?_⟩
          rw [← same]
          rfl
        · rintro ⟨rounds, bound, before, leaves, rfl⟩
          cases rounds with
          | zero => rfl
          | succ rounds =>
              have first := before 0 (by omega)
              rw [once] at first
              omega

/-! ## Encoded pages -/

namespace DcdPage

theorem length_encode (page : DcdPage) :
    page.encode.length = 10 + (page.elements.flatMap ElementPage.encode).length := by
  simp only [encode, List.length_append, length_u16le]

theorem length_elements_le (elements : List ElementPage) :
    4 * elements.length ≤ (elements.flatMap ElementPage.encode).length := by
  induction elements with
  | nil => simp
  | cons element elements hypothesis =>
      simp only [List.flatMap_cons, List.length_append, List.length_cons,
        element.length_encode]
      omega

/-- What stands where in a memory that starts with an encoded page. -/
theorem holds_encode {page : DcdPage} {data : Memory}
    (held : Holds data 0 page.encode) :
    readU16 data 8 = page.features ∧
      Holds data 12 (page.first.encodeBody ++
        page.rest.flatMap ElementPage.encode) := by
  rw [encode, Holds.append, Holds.append] at held
  obtain ⟨⟨_, features⟩, elements⟩ := held
  simp only [List.length_append, length_u16le, Nat.zero_add] at features elements
  rw [DcdPage.elements, List.flatMap_cons, ElementPage.encode, List.append_assoc,
    Holds.append] at elements
  exact ⟨features.readU16, elements.2⟩

/-- The first pass counts the elements of the page exactly when it agrees with
the layout of the page. -/
theorem countElements_iff {page : DcdPage} (fits : page.encode.length ≤ 255)
    {data : Memory} (held : Holds data 0 page.encode) :
    (∃ fuel counted, countElements (data 12) (data 13)
        (UInt8.ofNat page.encode.length) fuel 14 0 = some counted ∧
        counted.toNat = page.elements.length) ↔ page.CountsAgree := by
  have lenNat : (UInt8.ofNat page.encode.length).toNat = page.encode.length := by
    simp
    omega
  obtain ⟨_, body⟩ := holds_encode held
  obtain ⟨sigmCnt, rest⟩ := Holds.cons.mp (Holds.append.mp body).1
  obtain ⟨vmCnt, _⟩ := Holds.cons.mp rest
  have small := length_elements_le page.elements
  have whole := page.length_encode
  have firstSmall : page.first.modelBytes ≤ 245 := by
    have split : (page.elements.flatMap ElementPage.encode).length =
        4 + page.first.modelBytes +
          (page.rest.flatMap ElementPage.encode).length := by
      simp only [elements, List.flatMap_cons, List.length_append,
        page.first.length_encode]
    omega
  have stepIs : page.first.modelBytes =
      2 * (data 12).toNat + 4 * (data 13).toNat := by
    rw [sigmCnt, vmCnt]
    simp only [ElementPage.modelBytes, UInt8.toNat_ofNat'] at firstSmall ⊢
    omega
  simp only [countElements_eq_some_iff stepIs, lenNat, UInt8.reduceToNat]
  constructor
  · rintro ⟨fuel, counted, ⟨rounds, _, before, leaves, rfl⟩, exactly⟩
    simp only [UInt8.zero_add, UInt8.toNat_ofNat'] at exactly
    have some_element : page.elements.length = page.rest.length + 1 := rfl
    -- a second turn of the byte would repeat a cursor that has left the page
    have once : rounds + 1 = page.elements.length := by
      by_contra more
      have early := before (rounds - 256) (by omega)
      have again : 14 + (rounds + 1) * page.first.modelBytes =
          14 + (rounds - 256 + 1) * page.first.modelBytes +
            256 * page.first.modelBytes := by
        have turns : rounds + 1 = rounds - 256 + 1 + 256 := by omega
        rw [turns, Nat.add_mul]
        omega
      rw [again, Nat.add_mul_mod_self_left] at leaves
      omega
    rw [once] at leaves
    refine ⟨?_, leaves⟩
    intro earlier inside positive
    have here := before (earlier - 1) (by omega)
    rwa [show earlier - 1 + 1 = earlier by omega] at here
  · rintro ⟨before, leaves⟩
    have some_element : page.elements.length = page.rest.length + 1 := rfl
    refine ⟨page.elements.length, UInt8.ofNat page.elements.length,
      ⟨page.rest.length, by omega, ?_, leaves, by rw [UInt8.zero_add]; rfl⟩, ?_⟩
    · intro earlier early
      exact before (earlier + 1) (by omega) (by omega)
    · simp only [UInt8.toNat_ofNat']
      omega

end DcdPage

/-- The stored element count is that of the first pass. -/
theorem countElements_of_dcdStore {fuel : Nat} {data : Memory} {len : UInt8}
    {func func' : BitVec 8} {dcd : Dcd}
    (stored : dcdStore fuel data len func = some (dcd, func')) :
    countElements (data 12) (data 13) len fuel 14 0 = some dcd.elementCnt := by
  unfold dcdStore at stored
  cases count : countElements (data 12) (data 13) len fuel 14 0 with
  | none => simp [count] at stored
  | some counted =>
      simp only [count, Option.some.injEq, Prod.mk.injEq] at stored
      rw [← stored.1]

/-- `__dcd_store` reads an encoded page back exactly when its first pass agrees with the layout
of the page, whatever lies in memory behind the page.  The first pass steps through the page by
the size of its first element, so the condition is arithmetic on the counts of that one. -/
theorem dcdStore_represents_iff (page : DcdPage)
    (fits : page.encode.length ≤ 255) (beyond : Memory) (func : BitVec 8) :
    (∃ fuel dcd func',
      dcdStore fuel (Memory.startingWith page.encode beyond)
        (UInt8.ofNat page.encode.length) func = some (dcd, func') ∧
      dcd.Represents page) ↔ page.CountsAgree := by
  have held := Memory.startingWith_holds page.encode beyond
  rw [← page.countElements_iff fits held]
  obtain ⟨features, body⟩ := page.holds_encode held
  constructor
  · rintro ⟨fuel, dcd, func', stored, represents⟩
    exact ⟨fuel, dcd.elementCnt, countElements_of_dcdStore stored, represents.2.1⟩
  · rintro ⟨fuel, counted, count, exactly⟩
    have inside : (12 : UInt8).toNat + (page.first.encodeBody ++
        page.rest.flatMap ElementPage.encode).length < 256 := by
      rw [page.length_encode, DcdPage.elements, List.flatMap_cons,
        List.length_append, page.first.length_encode] at fits
      rw [List.length_append, page.first.length_encodeBody]
      simp only [UInt8.reduceToNat]
      omega
    obtain ⟨elems, last, func', read, same⟩ := readElements_eq func body inside
    have many : page.rest.length + 1 = counted.toNat := exactly.symm
    rw [many] at read
    let dcd : Dcd :=
      { feature := page.features, elementCnt := counted, elems := some elems }
    refine ⟨fuel, dcd, func', ?_, rfl, exactly, ?_⟩
    · unfold dcdStore
      simp only [count]
      simp only [read, features, dcd]
    · simp only [Option.map_some, same, dcd, DcdPage.elements]

/-- A switch on the main element and another one on a second element. -/
def unevenPage : DcdPage where
  cid := 0x02FF
  pid := 1
  vid := 1
  crpl := 16
  features := 3
  first := { location := 0, sigModels := [0x0000, 0x0002, 0x1000], vendorModels := [] }
  rest := [{ location := 1, sigModels := [0x1000], vendorModels := [] }]

/-- An element that is short enough to be counted is read back with the other. -/
theorem dcdStore_represents_uneven :
    ∃ fuel dcd func',
      dcdStore fuel (Memory.startingWith unevenPage.encode fun _ => 0)
        (UInt8.ofNat unevenPage.encode.length) 0 = some (dcd, func') ∧
      dcd.Represents unevenPage :=
  (dcdStore_represents_iff unevenPage (by decide) (fun _ => 0) 0).mpr (by decide)

/-- Two elements with the same three models. -/
def evenPage : DcdPage :=
  { unevenPage with
    rest := [{ location := 1, sigModels := [0x0003, 0x1000, 0x1300],
               vendorModels := [] }] }

/-- Of two elements with three models each the first pass counts three. -/
theorem dcdStore_invents_element :
    evenPage.encode.length ≤ 255 ∧
      ∀ beyond func, ¬ ∃ fuel dcd func',
        dcdStore fuel (Memory.startingWith evenPage.encode beyond)
          (UInt8.ofNat evenPage.encode.length) func = some (dcd, func') ∧
        dcd.Represents evenPage := by
  refine ⟨by decide, ?_⟩
  rintro beyond func ⟨fuel, dcd, func', stored, represents⟩
  have held := Memory.startingWith_holds evenPage.encode beyond
  have agrees : evenPage.CountsAgree :=
    (DcdPage.countElements_iff (by decide) held).mp
      ⟨fuel, dcd.elementCnt, countElements_of_dcdStore stored, represents.2.1⟩
  exact absurd agrees (by decide)

end Nwmng
