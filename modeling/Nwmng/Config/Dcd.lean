/-
Module: Nwmng.Config.Dcd
Purpose: The composition data of a device, as `__dcd_store` reads it from the
bytes of page 0.
Trusted boundary: none
Main exports:
  VendorModel, Elem, Dcd, countElements, readElements, dcdStore
-/
import Nwmng.Lib.Bytes

/-!
The page is parsed twice: once to count the elements, to know how many cells to allocate, and
once to store them.  Both passes use a cursor of one byte.
-/

namespace Nwmng

open Bytes

structure VendorModel where
  vid : UInt16
  mid : UInt16
deriving Repr, DecidableEq, Inhabited

/-- `elem_t`.  The lists are the allocated arrays, which may be longer than the
counts say. -/
structure Elem where
  sigmCnt : UInt8
  vmCnt : UInt8
  sigModels : List UInt16
  vm : List VendorModel
deriving Repr, DecidableEq, Inhabited

/-- `dcd_t`.  The element array is absent until composition data is stored.  The count of the
elements is a field of its own, which `__dcd_store` fills in before it allocates the array. -/
structure Dcd where
  feature : UInt16
  elementCnt : UInt8
  elems : Option (List Elem)
deriving Repr, DecidableEq, Inhabited

def Dcd.zeroed : Dcd where
  feature := 0
  elementCnt := 0
  elems := none

def configurationServerMdid : UInt16 := 0x0000
def configurationClientMdid : UInt16 := 0x0001

/-- The functionality bit a SIG model stands for, if any. -/
def funcBit (mdid : UInt16) : BitVec 8 :=
  if mdid = 0x1000 then 0b0001
  else if mdid = 0x1300 then 0b0010
  else if mdid = 0x1303 then 0b0100
  else if mdid = 0x1100 then 0b1000
  else 0

/-- The configuration models are not kept. -/
def keepsModel (mdid : UInt16) : Bool :=
  !(mdid == configurationClientMdid || mdid == configurationServerMdid)

/-- The first pass: a `do … while` loop that advances by the model counts of the
first element.  `none` when the loop does not end within the fuel. -/
def countElements (sigmCnt vmCnt len : UInt8) : Nat → UInt8 → UInt8 → Option UInt8
  | 0, _, _ => none
  | fuel + 1, i, eles =>
      let i := i + 2 * sigmCnt
      let i := i + 2 * vmCnt * 2
      let eles := eles + 1
      if i < len then countElements sigmCnt vmCnt len fuel i eles
      else some eles

/-- The SIG models of one element that are kept, the cursor behind them, and the
functionality bits found. -/
def readSigModels (data : Memory) :
    Nat → UInt8 → BitVec 8 → List UInt16 × UInt8 × BitVec 8
  | 0, i, func => ([], i, func)
  | count + 1, i, func =>
      let mdid := readU16 data i.toNat
      let (kept, last, func) := readSigModels data count (i + 2) (func ||| funcBit mdid)
      (if keepsModel mdid then mdid :: kept else kept, last, func)

def readVendorModels (data : Memory) : Nat → UInt8 → List VendorModel × UInt8
  | 0, i => ([], i)
  | count + 1, i =>
      let vid := readU16 data i.toNat
      let mid := readU16 data (i + 2).toNat
      let (models, last) := readVendorModels data count (i + 4)
      ({ vid := vid, mid := mid } :: models, last)

/-- One element, from its model counts on. -/
def readElement (data : Memory) (i : UInt8) (func : BitVec 8) :
    Elem × UInt8 × BitVec 8 :=
  let sigmCnt := data i.toNat
  let vmCnt := data (i + 1).toNat
  let (kept, i, func) := readSigModels data sigmCnt.toNat (i + 2) func
  let offset := sigmCnt.toNat - kept.length
  let (vm, i) := readVendorModels data vmCnt.toNat i
  ({ sigmCnt := sigmCnt - UInt8.ofNat offset
     vmCnt := vmCnt
     sigModels := kept ++ List.replicate offset 0
     vm := vm }, i, func)

/-- The second pass, over a number of elements; every element but the first is
preceded by its location. -/
def readElements (data : Memory) :
    Nat → UInt8 → BitVec 8 → List Elem × UInt8 × BitVec 8
  | 0, i, func => ([], i, func)
  | count + 1, i, func =>
      let (elem, i, func) := readElement data i func
      let (elems, last, func) := readElements data count (i + 2) func
      (elem :: elems, last, func)

/-- `__dcd_store`, on the functionality bits the node already has. -/
def dcdStore (fuel : Nat) (data : Memory) (len : UInt8) (func : BitVec 8) :
    Option (Dcd × BitVec 8) :=
  match countElements (data 12) (data 13) len fuel 14 0 with
  | none => none
  | some elementCnt =>
      let (elems, _, func) := readElements data elementCnt.toNat 12 func
      some ({ feature := readU16 data 8
              elementCnt := elementCnt
              elems := some elems }, func)

end Nwmng
