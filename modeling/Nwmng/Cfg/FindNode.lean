/-
Module: Nwmng.Cfg.FindNode
Purpose: Whether the search of a node entry depends on anything but the entries: the
buffer that a UUID is decoded to is not cleared.
Trusted boundary: none
Main exports:
  ownPlace, UuidWhole, memberUuid_of_whole, findEntry_own, FindsByEntry,
  find_node_own_iff, empty_uuid_matches_buffer
-/
import Nwmng.Cfg.Agreement

namespace Nwmng

open Json Fallible

/-- The place of the first entry that is loaded with a UUID. -/
def ownPlace (uuid : Uuid) (entries : List Value) : Option Nat :=
  entries.findIdx? fun entry => decide (entryUuid entry = some uuid)

/-- A UUID text that is accepted has all of its 32 digits.  A shorter text is converted as far as
it goes, and the rest of the UUID is what the stack held before. -/
def UuidWhole (entry : Value) : Prop :=
  ∀ text uuid, (entry.get strUuid).bind Value.text = some text →
    str2cbuf text clearedBuffer = some uuid → text.length = 32

/-!
## The buffer

`str2cbuf` writes as many bytes as the text has pairs of digits, and the buffer is on the stack.
For a shorter text the rest of the UUID is what an earlier call left there.
-/

theorem str2cbuf_isSome (text : List Char) (first second : Uuid) :
    (str2cbuf text first).isSome = (str2cbuf text second).isSome := by
  unfold str2cbuf
  by_cases long : 16 < text.length / 2
  · rw [if_pos long, if_pos long]
  · rw [if_neg long, if_neg long, Option.isSome_map, Option.isSome_map]

/-- The buffer matters for a text with fewer digits only.  With all its digits, the text writes
every byte of the buffer. -/
theorem memberUuid_of_whole {entry : Value} (whole : UuidWhole entry) (buffer : Uuid) :
    memberUuid buffer entry = entryUuid entry := by
  unfold entryUuid memberUuid
  cases found : (entry.get strUuid).bind Value.text with
  | none => rfl
  | some text =>
      dsimp only
      cases decoded : str2cbuf text clearedBuffer with
      | none =>
          have refused := str2cbuf_isSome text buffer clearedBuffer
          rw [decoded] at refused
          exact Option.isNone_iff_eq_none.mp (Option.isSome_eq_false_iff.mp refused)
      | some uuid =>
          have full := whole text uuid found decoded
          rw [str2cbuf_full full buffer clearedBuffer, decoded]

/-- The last byte of a short UUID is that of the buffer. -/
theorem last_of_short {text : List Char} {buffer uuid : Uuid}
    (decoded : str2cbuf text buffer = some uuid) (short : text.length ≠ 32) :
    uuid[15] = buffer[15] := by
  unfold str2cbuf at decoded
  by_cases long : 16 < text.length / 2
  · rw [if_pos long] at decoded
    cases decoded
  · rw [if_neg long, Option.map_eq_some_iff] at decoded
    obtain ⟨bytes, pairs, rfl⟩ := decoded
    have length := length_hexPairs pairs
    have outside : bytes.length ≤ 15 := by omega
    rw [Vector.getElem_ofFn, List.getElem?_eq_none outside]
    rfl

/-- The buffer before an entry is decoded. -/
def markedBuffer : Uuid := Vector.replicate 16 1

/-- An entry that is matched whatever the buffer held has a whole UUID. -/
theorem whole_of_own {entry : Value}
    (own : ∀ uuid before other,
      memberUuid before entry = some uuid ↔ memberUuid other entry = some uuid) :
    UuidWhole entry := by
  intro text uuid found decoded
  by_contra short
  have cleared : memberUuid clearedBuffer entry = some uuid := by
    unfold memberUuid
    rw [found]
    exact decoded
  have marked := (own uuid clearedBuffer markedBuffer).mp cleared
  unfold memberUuid at marked
  rw [found] at marked
  have zero := last_of_short decoded short
  have one := last_of_short marked short
  rw [zero] at one
  exact absurd one (by decide)

/-! ## The search -/

theorem findEntry_own {entries : List Value} (whole : ∀ entry ∈ entries, UuidWhole entry)
    (stack : Nat → Uuid) (uuid : Uuid) (start : Nat) :
    findEntry stack uuid start entries = (ownPlace uuid entries).map (start + ·) := by
  induction entries generalizing start with
  | nil => rfl
  | cons entry rest hypothesis =>
      obtain ⟨first, later⟩ := List.forall_mem_cons.mp whole
      rw [findEntry, memberUuid_of_whole first, ownPlace, List.findIdx?_cons]
      by_cases here : entryUuid entry = some uuid
      · simp [here]
      · rw [if_neg here, hypothesis later (start + 1)]
        simp only [here, decide_false, Bool.false_eq_true, if_false, ownPlace, Option.map_map]
        congr 1
        funext offset
        simp only [Function.comp_apply]
        omega

theorem findNode_open {nw : NwCfg} {entries : List Value} (isOpen : nw.Open entries)
    (stack : Nat → Uuid) (uuid : Uuid) :
    findNode stack uuid nw = .ok (findEntry stack uuid 0 entries) := by
  obtain ⟨others, subnets⟩ := isOpen.subnets
  unfold findNode
  rw [subnets, isOpen.firstNodes]

/-- The search selects by the entries alone, and so does a write.  The contents of the buffer at
the start must not matter: two runs with different buffers find the same entry. -/
structure FindsByEntry (nw : NwCfg) (entries : List Value) : Prop where
  first : ∀ stack uuid, findNode stack uuid nw = .ok (ownPlace uuid entries)
  own : ∀ entry ∈ entries, ∀ uuid before other,
    memberUuid before entry = some uuid ↔ memberUuid other entry = some uuid
  write : ∀ stack uuid field found after,
    setNodeField stack uuid field nw = .ok (found, after) →
      if found then
        ∃ index entry, entries[index]? = some entry ∧ entryUuid entry = some uuid ∧
          after.Open (entries.modify index (·.set field.key (.string field.text)))
      else after = nw

theorem findsByEntry_of_whole {nw : NwCfg} {entries : List Value} (isOpen : nw.Open entries)
    (whole : ∀ entry ∈ entries, UuidWhole entry) : FindsByEntry nw entries := by
  have first : ∀ stack uuid, findNode stack uuid nw = .ok (ownPlace uuid entries) := by
    intro stack uuid
    rw [findNode_open isOpen, findEntry_own whole]
    simp
  refine ⟨first, ?_, ?_⟩
  · intro entry inside uuid before other
    rw [memberUuid_of_whole (whole entry inside) before,
      memberUuid_of_whole (whole entry inside) other]
  · intro stack uuid field found after written
    unfold setNodeField modifyNodeField at written
    rw [first, ok_bind] at written
    cases place : ownPlace uuid entries with
    | none =>
        rw [place] at written
        cases written
        rfl
    | some index =>
        rw [place] at written
        cases written
        obtain ⟨inside, isUuid, _⟩ := List.findIdx?_eq_some_iff_getElem.mp place
        exact ⟨index, entries[index], List.getElem?_eq_getElem inside, of_decide_eq_true isUuid,
          isOpen.amend index _⟩

/-- `find_node` selects by the entry alone exactly when every UUID text that is accepted has 32
digits.  Otherwise two runs with different stacks find different entries, which is how necessity
is shown. -/
theorem find_node_own_iff {nw : NwCfg} {entries : List Value} (isOpen : nw.Open entries) :
    FindsByEntry nw entries ↔ ∀ entry ∈ entries, UuidWhole entry := by
  constructor
  · intro finds entry inside
    exact whole_of_own (finds.own entry inside)
  · exact findsByEntry_of_whole isOpen

/-- A nodes file that was opened, with entries of which only the UUID matters here. -/
def uuidsOpen (texts : List String) : NwCfg where
  tree := some
    { root := .object [(strSubnets, .array [.object [(strNodes,
        .array (texts.map fun text => .object [(strUuid, .string text.toList)]))]])]
      subnets := some 1 }
  synctime := 0
  autoflush := true
  backlog := .absent

/-- Two devices, and between them an entry whose UUID is refused: the entries alone decide. -/
theorem find_node_own_iff_whole :
    FindsByEntry
      (uuidsOpen ["00112233445566778899aabbccddeeff", "none",
        "ffeeddccbbaa99887766554433221100"])
      (["00112233445566778899aabbccddeeff", "none", "ffeeddccbbaa99887766554433221100"].map
        fun text => .object [(strUuid, .string text.toList)]) := by
  apply (find_node_own_iff ⟨⟨0, rfl⟩, rfl⟩).mpr
  intro entry inside text uuid found decoded
  obtain ⟨name, listed, rfl⟩ := List.mem_map.mp inside
  cases found
  simp only [List.mem_cons, List.not_mem_nil, or_false] at listed
  rcases listed with rfl | rfl | rfl
  · rfl
  · have refused : str2cbuf "none".toList clearedBuffer = none := by decide
    rw [refused] at decoded
    cases decoded
  · rfl

/-- The search for a device finds the entry before it, whose UUID is empty, when the
buffer still holds the UUID from an earlier search. -/
theorem empty_uuid_matches_buffer :
    ¬ FindsByEntry (uuidsOpen ["", "00112233445566778899aabbccddeeff"])
      [.object [(strUuid, .string [])],
        .object [(strUuid, .string "00112233445566778899aabbccddeeff".toList)]] := by
  intro finds
  let wanted : Uuid :=
    #v[0x00, 0x11, 0x22, 0x33, 0x44, 0x55, 0x66, 0x77,
      0x88, 0x99, 0xAA, 0xBB, 0xCC, 0xDD, 0xEE, 0xFF]
  have searched := finds.first (fun _ => wanted) wanted
  have found : (findNode (fun _ => wanted) wanted
      (uuidsOpen ["", "00112233445566778899aabbccddeeff"])).toOption = some (some 0) := by
    decide +kernel
  have owned : ownPlace wanted [.object [(strUuid, .string [])],
      .object [(strUuid, .string "00112233445566778899aabbccddeeff".toList)]] = some 1 := by
    decide +kernel
  rw [searched, owned] at found
  cases found

end Nwmng
