/-
Module: Nwmng.Cli.Completion
Purpose: What the shell offers to complete a word: the names of commands, the arguments of
`seqset`, the choices of a usage, and the addresses of nodes and lights.
Trusted boundary: readline calls a generator until it returns `NULL`
Main exports:
  Cursor, commandGenerator, seqsetArgGenerator, argGenerator, Vaget, vagetAddrs, varArgGenerator,
  completions_filter, address_completions
-/
import Mathlib
import Nwmng.Cfg.Addresses
import Nwmng.Cli.Commands
import Nwmng.Lib.Generator
import Nwmng.Utils.HexBuffers
import Nwmng.Utils.Numbers

namespace Nwmng

open Generators

/-!
## Words from a list

Readline calls a generator again and again, and the generator keeps its position in static
variables.  What they held before the first call is part of the statements below.
-/

/-- `strncmp` of two strings is zero. -/
def strncmpEq (first second : List Char) (len : Nat) : Bool := first.take len == second.take len

/-- `strncasecmp` of two strings is zero. -/
def strncasecmpEq (first second : List Char) (len : Nat) : Bool :=
  strncmpEq (first.map Char.toLower) (second.map Char.toLower) len

/-- The static variables of a generator.  They survive from call to call, and are set again by
the first call for a word. -/
structure Cursor where
  index : Nat
  len : Nat
deriving Repr, DecidableEq

/-- The next string of an array that matches; without matches so far the search starts again. -/
def wordGenerator (eq : List Char → List Char → Nat → Bool) (items : List (List Char))
    (text : List Char) (state : Nat) (cursor : Cursor) : Option (List Char) × Cursor :=
  let cursor := if state = 0 then { index := 0, len := text.length } else cursor
  let (found, index) :=
    nextMatch (fun item => eq item text cursor.len) (items.drop cursor.index) cursor.index
  (found, { cursor with index := index })

def seqsetArg : List (List Char) :=
  ["a--", "r--", "b--", "ar-", "ab-", "ra-", "rb-", "ba-", "br-", "arb", "abr", "rab", "rba",
    "bar", "bra"].map String.toList

/-- `command_generator` -/
def commandGenerator := wordGenerator strncasecmpEq (commands.map ShellCommand.name)

/-- `seqset_arg_generator` -/
def seqsetArgGenerator := wordGenerator strncmpEq seqsetArg

/-- `arg_generator`, on the words of `args`. -/
def argGenerator (weWordv : List (List Char)) := wordGenerator strncmpEq weWordv

/-- The matches that readline collects from a generator: it calls the generator, the first time
with the state 0, until there are no more.  What readline makes of them for the line is its
own matter, and left out. -/
def generatorMatches {Statics : Type} (generator : List Char → Nat → Statics →
    Option (List Char) × Statics) (text : List Char) (calls : Nat) (statics : Statics) :
    List (List Char) :=
  (collect (generator text) calls 0 statics).1

/-! ## Addresses -/

/-- `VAP_LEN` -/
def vapLen : Nat := 256

/-- `ADDRULEN` -/
def addrUlen : Nat := 7

/-- `vaget` -/
structure Vaget where
  vaParam : List Char
  len : Nat
  ulen : Nat
deriving Repr, DecidableEq

/-- Characters that are stored in a buffer. -/
def storeChars (buf : List Char) (place : Nat) (chars : List Char) : List Char :=
  buf.take place ++ chars ++ buf.drop (place + chars.length)

/-- `addr_to_buf` -/
def addrToBuf (addr : UInt16) (place : Nat) (buf : List Char) : List Char :=
  storeChars buf place (uint16ToStr addr ++ [nulChar])

/-- The loop that writes the addresses, from the last to the first. -/
def writeAddrs (data : List UInt16) : Nat → List Char → List Char
  | 0, buf => buf
  | len + 1, buf => writeAddrs data len (addrToBuf (data.getD len 0) (len * addrUlen) buf)

/-- `vaget_addrs` and `_vaget_lights_addrs`, on the list they ask for. -/
def vagetAddrs (addrs : Option Uint16List) (vaget : Vaget) : Vaget :=
  match addrs with
  | none => { vaget with ulen := addrUlen }
  | some addrs =>
      let len := if vapLen < addrs.len.toNat * addrUlen then vapLen / addrUlen
        else addrs.len.toNat
      { vaParam := writeAddrs addrs.data len vaget.vaParam
        len := len * addrUlen
        ulen := addrUlen }

/-- The strings of the buffer. -/
def Vaget.items (vaget : Vaget) : List (List Char) :=
  (List.range (vaget.len / vaget.ulen)).map fun index =>
    cString (vaget.vaParam.drop (index * vaget.ulen))

/-- `var_arg_generator`, on the list that the command's function asks for. -/
def varArgGenerator (addrs : Option Uint16List) (text : List Char) (state : Nat)
    (statics : Cursor × Vaget) : Option (List Char) × (Cursor × Vaget) :=
  let (cursor, vaget) := statics
  let vaget := if state = 0 then
    vagetAddrs addrs { vaget with vaParam := List.replicate vapLen nulChar, len := 0 } else vaget
  let (found, cursor) := wordGenerator strncmpEq vaget.items text state cursor
  (found, (cursor, vaget))

/-! ## What is offered -/

theorem strncmpEq_iff (item text : List Char) :
    strncmpEq item text text.length = text.isPrefixOf item := by
  rw [strncmpEq, Bool.eq_iff_iff, beq_iff_eq, List.isPrefixOf_iff_prefix, List.take_length]
  exact (List.prefix_iff_eq_take.trans eq_comm).symm

/-- The matches of a word are the strings of the array that it leads, in their order, whatever an
earlier completion left in the static variables. -/
theorem wordGenerator_matches (eq : List Char → List Char → Nat → Bool)
    (items : List (List Char)) (text : List Char) {calls : Nat} (enough : items.length < calls)
    (cursor : Cursor) :
    generatorMatches (wordGenerator eq items) text calls cursor =
      items.filter fun item => eq item text text.length := by
  have step : ∀ found index (cursor : Cursor),
      ((found = 0 ∧ index = 0) ∨ (found ≠ 0 ∧ cursor = { index := index, len := text.length })) →
      (wordGenerator eq items text found cursor).1 =
          (nextMatch (fun item => eq item text text.length) (items.drop index) index).1 ∧
        ((found + 1 = 0 ∧
            (nextMatch (fun item => eq item text text.length) (items.drop index) index).2 = 0) ∨
          (found + 1 ≠ 0 ∧ (wordGenerator eq items text found cursor).2 =
            { index := (nextMatch (fun item => eq item text text.length)
                (items.drop index) index).2
              len := text.length })) := by
    intro found index cursor place
    rcases place with ⟨first, start⟩ | ⟨later, same⟩
    · subst first start
      exact ⟨rfl, .inr ⟨by omega, rfl⟩⟩
    · subst same
      unfold wordGenerator
      rw [if_neg later]
      exact ⟨rfl, .inr ⟨by omega, rfl⟩⟩
  exact collect_nextMatch step (.inl ⟨rfl, rfl⟩) enough

/-- A word is completed by the names, the arguments or the choices that it leads; the names of
commands are compared without regard to case.  The generators keep their place in static
variables, which the first call for a word sets; what they hold before does not matter. -/
theorem completions_filter (text : List Char) (words : List (List Char)) {calls : Nat}
    (enough : words.length + commands.length < calls) (cursor : Cursor) :
    generatorMatches commandGenerator text calls cursor =
        (commands.map ShellCommand.name).filter (fun name =>
          (text.map Char.toLower).isPrefixOf (name.map Char.toLower)) ∧
      generatorMatches seqsetArgGenerator text calls cursor =
        seqsetArg.filter (fun arg => text.isPrefixOf arg) ∧
      generatorMatches (argGenerator words) text calls cursor =
        words.filter (fun word => text.isPrefixOf word) := by
  have many : commands.length = 16 := rfl
  refine ⟨?_, ?_, ?_⟩
  · have names : (commands.map ShellCommand.name).length < calls := by
      rw [List.length_map]
      omega
    rw [commandGenerator, wordGenerator_matches _ _ _ names]
    refine List.filter_congr fun name _ => ?_
    have lower := strncmpEq_iff (name.map Char.toLower) (text.map Char.toLower)
    rwa [List.length_map] at lower
  · have args : seqsetArg.length < calls := by
      have fifteen : seqsetArg.length = 15 := rfl
      omega
    rw [seqsetArgGenerator, wordGenerator_matches _ _ _ args]
    exact List.filter_congr fun arg _ => strncmpEq_iff arg text
  · have fewer : words.length < calls := by omega
    rw [argGenerator, wordGenerator_matches _ _ _ fewer]
    exact List.filter_congr fun word _ => strncmpEq_iff word text

/-- The names that `l` leads. -/
theorem completions_filter_sample :
    generatorMatches commandGenerator "L".toList 18 { index := 9, len := 9 } =
      ["list", "loglvlset", "lightness"].map String.toList :=
  (completions_filter "L".toList [] (by decide) { index := 9, len := 9 }).1.trans
    (by decide +kernel)

/-!
## Addresses that are offered

The addresses are written to one buffer from its end, each with a byte behind it.  The buffer has
room for 36 of them; what the list has beyond is not offered.
-/

/-- The text of an address, with the byte behind it. -/
def addrUnit (addr : UInt16) : List Char := uint16ToStr addr ++ [nulChar]

@[simp] theorem length_addrUnit (addr : UInt16) : (addrUnit addr).length = addrUlen := rfl

theorem length_units (addrs : List UInt16) :
    (addrs.flatMap addrUnit).length = addrs.length * addrUlen := by
  induction addrs with
  | nil => rfl
  | cons addr addrs hypothesis =>
      rw [List.flatMap_cons, List.length_append, hypothesis, length_addrUnit, List.length_cons,
        Nat.succ_mul, Nat.add_comm]

theorem drop_units (addrs : List UInt16) (index : Nat) :
    (addrs.flatMap addrUnit).drop (index * addrUlen) = (addrs.drop index).flatMap addrUnit := by
  induction index generalizing addrs with
  | zero => rw [Nat.zero_mul, List.drop_zero, List.drop_zero]
  | succ index hypothesis =>
      cases addrs with
      | nil => rw [List.flatMap_nil, List.drop_nil, List.drop_nil, List.flatMap_nil]
      | cons addr addrs =>
          rw [List.flatMap_cons, List.drop_succ_cons, ← hypothesis addrs, Nat.succ_mul,
            Nat.add_comm, ← List.drop_drop]
          have unit : (addrUnit addr ++ addrs.flatMap addrUnit).drop addrUlen =
              addrs.flatMap addrUnit := List.drop_left' (length_addrUnit addr)
          rw [unit]

/-- The addresses fill the front of the buffer. -/
theorem writeAddrs_eq {data : List UInt16} {len : Nat} (inside : len ≤ data.length)
    {buf : List Char} (room : len * addrUlen ≤ buf.length) :
    writeAddrs data len buf =
      (data.take len).flatMap addrUnit ++ buf.drop (len * addrUlen) := by
  induction len generalizing buf with
  | zero => rfl
  | succ len hypothesis =>
      have stored : addrToBuf (data.getD len 0) (len * addrUlen) buf =
          buf.take (len * addrUlen) ++ addrUnit (data.getD len 0) ++
            buf.drop (len * addrUlen + addrUlen) := rfl
      have short : len * addrUlen ≤ buf.length :=
        Nat.le_trans (Nat.mul_le_mul_right _ (Nat.le_succ len)) room
      have long : (buf.take (len * addrUlen)).length = len * addrUlen :=
        List.length_take_of_le short
      have grown : len * addrUlen ≤ (addrToBuf (data.getD len 0) (len * addrUlen) buf).length := by
        rw [stored, List.length_append, List.length_append, long]
        omega
      have item : data.getD len 0 = data[len] := by
        rw [List.getD_eq_getElem?_getD, List.getElem?_eq_getElem inside]
        rfl
      rw [writeAddrs, hypothesis (by omega) grown, stored, List.append_assoc,
        List.drop_left' long, List.take_add_one, List.getElem?_eq_getElem inside, item,
        List.flatMap_append, List.append_assoc, Nat.succ_mul]
      simp

theorem uint16ToStr_ne_nul (addr : UInt16) : ∀ char ∈ uint16ToStr addr, char ≠ nulChar := by
  have digits : ∀ width value char, char ∈ hexDigits width value → char ≠ nulChar := by
    intro width
    induction width with
    | zero => exact fun value char member => absurd member List.not_mem_nil
    | succ width hypothesis =>
        intro value char member
        rcases List.mem_append.mp member with old | new
        · exact hypothesis _ _ old
        · rw [List.mem_singleton.mp new]
          exact hexValueToChar_ne_nul (Nat.mod_lt _ (by decide))
  intro char member
  rcases List.mem_cons.mp member with zero | rest
  · rw [zero]
    decide
  · rcases List.mem_cons.mp rest with x | digit
    · rw [x]
      decide
    · exact digits _ _ _ digit

theorem cString_unit (addr : UInt16) (rest : List Char) :
    cString (addrUnit addr ++ rest) = uint16ToStr addr := by
  have stops : ∀ text more : List Char, (∀ char ∈ text, char ≠ nulChar) →
      cString (text ++ nulChar :: more) = text := by
    intro text more proper
    unfold cString
    rw [List.takeWhile_append_of_pos (by simpa using proper)]
    simp
  rw [addrUnit, List.append_assoc]
  exact stops _ _ (uint16ToStr_ne_nul addr)

/-- The strings of a buffer that was filled. -/
theorem items_vagetAddrs {addrs : Uint16List} (inside : addrs.len.toNat ≤ addrs.data.length)
    {vaget : Vaget} (room : vaget.vaParam.length = vapLen) :
    (vagetAddrs (some addrs) vaget).items =
      ((addrs.data.take addrs.len.toNat).take (vapLen / addrUlen)).map uint16ToStr := by
  have size : vapLen = 256 := rfl
  have seven : addrUlen = 7 := rfl
  have count : (if vapLen < addrs.len.toNat * addrUlen then vapLen / addrUlen
      else addrs.len.toNat) = min (vapLen / addrUlen) addrs.len.toNat := by
    rw [size, seven]
    split <;> omega
  unfold vagetAddrs Vaget.items
  dsimp only
  rw [count, Nat.mul_div_cancel _ (by decide), List.take_take]
  generalize few : min (vapLen / addrUlen) addrs.len.toNat = len
  have bounded : len ≤ addrs.data.length := by omega
  have fits : len * addrUlen ≤ vaget.vaParam.length := by
    rw [size, seven] at few
    rw [room, size, seven]
    omega
  rw [writeAddrs_eq bounded fits]
  apply List.ext_getElem
  · rw [List.length_map, List.length_map, List.length_range, List.length_take]
    omega
  · intro index first second
    rw [List.length_map, List.length_range] at first
    have short : index * addrUlen ≤ ((addrs.data.take len).flatMap addrUnit).length := by
      rw [length_units, List.length_take_of_le bounded]
      exact Nat.mul_le_mul_right _ (Nat.le_of_lt first)
    have here : index < (addrs.data.take len).length := by
      rw [List.length_take]
      omega
    rw [List.getElem_map, List.getElem_range, List.getElem_map,
      List.drop_append_of_le_length short, drop_units, List.drop_eq_getElem_cons here,
      List.flatMap_cons, List.append_assoc, cString_unit]

/-- The list that a completer asks for. -/
def Completer.list (db : CfgDb) : Completer → Option Uint16List
  | .addrs => db.getNodeAddrs
  | .lights type => db.getLightsAddrs type
  | _ => none

/-- The addresses of the list, as far as its length byte counts them. -/
def listed (addrs : Option Uint16List) : List UInt16 :=
  match addrs with
  | none => []
  | some addrs => addrs.data.take addrs.len.toNat

theorem list_inside {db : CfgDb} {completer : Completer} {addrs : Uint16List}
    (asked : completer.list db = some addrs) : addrs.len.toNat ≤ addrs.data.length := by
  cases completer with
  | usage => cases asked
  | seqset => cases asked
  | addrs =>
      rw [Completer.list, CfgDb.getNodeAddrs_eq] at asked
      split at asked
      · cases asked
      · cases asked
        rw [Std.TreeMap.length_keys, UInt8.toNat_ofNat']
        exact Nat.mod_le _ _
  | lights type =>
      rw [Completer.list, CfgDb.getLightsAddrs_eq] at asked
      split at asked
      · cases asked
      · cases asked
        rw [List.length_append, UInt8.toNat_ofNat']
        exact Nat.le_trans (Nat.mod_le _ _) (Nat.le_add_right _ _)

/-- A buffer that is filled once is searched call by call. -/
theorem varArgGenerator_matches (addrs : Option Uint16List) (text : List Char) {calls : Nat}
    {cursor : Cursor} {vaget : Vaget}
    (enough : (vagetAddrs addrs
      { vaget with vaParam := List.replicate vapLen nulChar, len := 0 }).items.length < calls) :
    generatorMatches (varArgGenerator addrs) text calls (cursor, vaget) =
      (vagetAddrs addrs { vaget with
        vaParam := List.replicate vapLen nulChar, len := 0 }).items.filter
          fun item => text.isPrefixOf item := by
  generalize filled : vagetAddrs addrs
    { vaget with vaParam := List.replicate vapLen nulChar, len := 0 } = buffer at *
  have step : ∀ found index (statics : Cursor × Vaget),
      ((found = 0 ∧ index = 0 ∧ statics.2 = vaget) ∨
        (found ≠ 0 ∧ statics = ({ index := index, len := text.length }, buffer))) →
      (varArgGenerator addrs text found statics).1 =
          (nextMatch (fun item => strncmpEq item text text.length)
            (buffer.items.drop index) index).1 ∧
        ((found + 1 = 0 ∧ (nextMatch (fun item => strncmpEq item text text.length)
            (buffer.items.drop index) index).2 = 0 ∧
            (varArgGenerator addrs text found statics).2.2 = vaget) ∨
          (found + 1 ≠ 0 ∧ (varArgGenerator addrs text found statics).2 =
            ({ index := (nextMatch (fun item => strncmpEq item text text.length)
                (buffer.items.drop index) index).2
               len := text.length }, buffer))) := by
    intro found index statics place
    obtain ⟨cursor, held⟩ := statics
    rcases place with ⟨first, start, same⟩ | ⟨later, same⟩
    · subst first start
      have unchanged : held = vaget := same
      subst unchanged
      unfold varArgGenerator
      dsimp only
      rw [if_pos rfl, filled]
      exact ⟨rfl, .inr ⟨by omega, rfl⟩⟩
    · obtain ⟨isCursor, isBuffer⟩ := Prod.mk.inj same
      subst isCursor isBuffer
      unfold varArgGenerator wordGenerator
      dsimp only
      rw [if_neg later, if_neg later]
      exact ⟨rfl, .inr ⟨by omega, rfl⟩⟩
  refine (collect_nextMatch step (.inl ⟨rfl, rfl, rfl⟩) enough).trans ?_
  rw [List.drop_zero]
  exact List.filter_congr fun item _ => strncmpEq_iff item text

/-- What is offered for an address: the texts that the word leads among those of the first 36
addresses of the list. -/
theorem varArg_matches {db : CfgDb} (completer : Completer) (text : List Char) {calls : Nat}
    (enough : vapLen / addrUlen < calls) (statics : Cursor × Vaget) :
    generatorMatches (varArgGenerator (completer.list db)) text calls statics =
      (((listed (completer.list db)).take (vapLen / addrUlen)).map uint16ToStr).filter
        fun addr => text.isPrefixOf addr := by
  obtain ⟨cursor, vaget⟩ := statics
  have items : (vagetAddrs (completer.list db)
      { vaget with vaParam := List.replicate vapLen nulChar, len := 0 }).items =
        ((listed (completer.list db)).take (vapLen / addrUlen)).map uint16ToStr := by
    cases asked : completer.list db with
    | none =>
        have nothing : 0 / addrUlen = 0 := rfl
        rw [vagetAddrs, Vaget.items]
        dsimp only
        rw [nothing]
        rfl
    | some addrs => exact items_vagetAddrs (list_inside asked) List.length_replicate
  rw [varArgGenerator_matches, items]
  rw [items, List.length_map, List.length_take]
  exact Nat.lt_of_le_of_lt (Nat.min_le_left _ _) enough

theorem uint16ToStr_inj {first second : UInt16}
    (same : uint16ToStr first = uint16ToStr second) : first = second := by
  have read := str2uint_uint16ToStr first
  rw [same, str2uint_uint16ToStr] at read
  injection read with numbers
  exact UInt16.toNat_inj.mp (Option.some.inj numbers).symm

theorem keys_nodup (db : CfgDb) : db.nodes.keys.Nodup := by
  have ordered := @Std.TreeMap.ordered_keys _ _ _ db.nodes _
  exact ordered.imp fun before => UInt16.ne_of_lt (Std.compare_eq_lt.mp before)

theorem listed_addrs (db : CfgDb) :
    listed (Completer.addrs.list db) = db.nodes.keys.take (db.nodes.size % 256) := by
  rw [Completer.list, CfgDb.getNodeAddrs_eq]
  by_cases empty : db.nodes.size = 0
  · rw [if_pos empty, empty]
    rfl
  · rw [if_neg empty, listed, UInt8.toNat_ofNat']

/-- The addresses of all nodes are among the first 36 of the list exactly when there are so
few. -/
theorem keys_listed_iff (db : CfgDb) :
    (∀ addr ∈ db.nodes.keys,
      addr ∈ (listed (Completer.addrs.list db)).take (vapLen / addrUlen)) ↔
      db.nodes.size ≤ vapLen / addrUlen := by
  have many : vapLen / addrUlen = 36 := rfl
  have size : db.nodes.keys.length = db.nodes.size := Std.TreeMap.length_keys
  rw [listed_addrs, List.take_take, many]
  constructor
  · intro all
    have short := ((keys_nodup db).subperm all).length_le
    rw [List.length_take, size] at short
    omega
  · intro few addr member
    rwa [List.take_of_length_le (by rw [size]; omega)]

/-- Every address that is offered is read back as the number it stands for, and the addresses of
all nodes are offered exactly when there are at most 36. -/
theorem address_completions {db : CfgDb} (completer : Completer) (text : List Char) {calls : Nat}
    (enough : vapLen / addrUlen < calls) (statics : Cursor × Vaget) :
    (∀ word ∈ generatorMatches (varArgGenerator (completer.list db)) text calls statics,
      text <+: word ∧ ∃ addr ∈ listed (completer.list db),
        str2uint word = .ok (some addr.toNat)) ∧
    ((∀ addr ∈ db.nodes.keys, uint16ToStr addr ∈
        generatorMatches (varArgGenerator (Completer.addrs.list db)) [] calls statics) ↔
      db.nodes.size ≤ vapLen / addrUlen) := by
  constructor
  · intro word offered
    rw [varArg_matches completer text enough] at offered
    obtain ⟨written, leads⟩ := List.mem_filter.mp offered
    obtain ⟨addr, member, rfl⟩ := List.mem_map.mp written
    exact ⟨List.isPrefixOf_iff_prefix.mp leads, addr, List.mem_of_mem_take member,
      str2uint_uint16ToStr addr⟩
  · rw [varArg_matches .addrs [] enough, ← keys_listed_iff]
    have all : ∀ words : List (List Char),
        words.filter (fun addr => ([] : List Char).isPrefixOf addr) = words :=
      fun words => List.filter_eq_self.mpr fun word _ => rfl
    rw [all]
    refine forall₂_congr fun addr _ => ?_
    exact ⟨fun written => by
      obtain ⟨other, member, same⟩ := List.mem_map.mp written
      rwa [← uint16ToStr_inj same], List.mem_map_of_mem⟩

/-- A network of three nodes. -/
def CfgDb.threeNodes : CfgDb :=
  ((CfgDb.cfgdbInit.set (.nodes 0x1005) 0).set (.nodes 0x0002) 1).set (.nodes 0x1006) 2

/-- The position and the list that an earlier completion left. -/
def leftStatics : Cursor × Vaget :=
  ({ index := 3, len := 2 }, { vaParam := [], len := 0, ulen := 1 })

/-- Of three nodes, two are offered for the beginning of their addresses, and read back as
addresses of the list; for no beginning all three are. -/
theorem address_completions_sample :
    generatorMatches (varArgGenerator (Completer.addrs.list CfgDb.threeNodes)) "0x10".toList 37
        leftStatics = ["0x1005".toList, "0x1006".toList] ∧
    (∀ word ∈ generatorMatches (varArgGenerator (Completer.addrs.list CfgDb.threeNodes))
        "0x10".toList 37 leftStatics,
      "0x10".toList <+: word ∧ ∃ addr ∈ listed (Completer.addrs.list CfgDb.threeNodes),
        str2uint word = .ok (some addr.toNat)) ∧
    ∀ addr ∈ CfgDb.threeNodes.nodes.keys, uint16ToStr addr ∈ generatorMatches
      (varArgGenerator (Completer.addrs.list CfgDb.threeNodes)) [] 37 leftStatics :=
  ⟨by decide +kernel,
    (address_completions .addrs "0x10".toList (by decide) leftStatics).1,
    (address_completions .addrs [] (by decide) leftStatics).2.mpr (by decide +kernel)⟩

end Nwmng
