/-
Module: Nwmng.Utils.StartupFile
Purpose: The lines of the `.config` file: how `fgets` cuts them, which keys they hold, and
what a start does with a file whose lines each hold one.
Trusted boundary: as in Nwmng.Utils.Startup
Main exports:
  fileLines_flatten, storedLines, keysIn, ConfigEntry, SoundEntries, loadLine_entry
-/
import Mathlib.Data.List.Flatten
import Nwmng.Utils.StartupMemory

namespace Nwmng

open Fallible

/-! ## Lines -/

theorem fgetsLines_line {body : List Char} (plain : '\n' ∉ body) (rest : List Char)
    (room : Nat) (current : List Char) (fits : body.length < room) :
    fgetsLines room current (body ++ '\n' :: rest) =
      (current ++ body ++ ['\n']) :: fileLines rest := by
  induction body generalizing room current with
  | nil => rw [List.nil_append, fgetsLines, if_pos (.inl rfl), List.append_nil]; rfl
  | cons char body ih =>
      obtain ⟨other, later⟩ := not_or.1 (fun either => plain (List.mem_cons.2 either))
      rw [List.length_cons] at fits
      have goesOn : ¬ (char = '\n' ∨ room = 1) := by
        rintro (same | last)
        · exact other same.symm
        · omega
      rw [List.cons_append, fgetsLines, if_neg goesOn, ih later _ _ (by omega)]
      simp

/-- A line that `fgets` reads as a whole.  A longer one is read in pieces, each of which is taken
for a line. -/
def WholeLine (line : List Char) : Prop :=
  ∃ body, line = body ++ ['\n'] ∧ '\n' ∉ body ∧ line.length < lineMaxLength

theorem fileLines_cons {line : List Char} (whole : WholeLine line) (rest : List Char) :
    fileLines (line ++ rest) = line :: fileLines rest := by
  obtain ⟨body, rfl, plain, short⟩ := whole
  rw [List.length_append, List.length_singleton] at short
  have read := fgetsLines_line plain rest (lineMaxLength - 1) [] (by omega)
  rwa [List.nil_append, show body ++ '\n' :: rest = body ++ ['\n'] ++ rest by simp] at read

theorem fileLines_flatten {lines : List (List Char)} (whole : ∀ line ∈ lines, WholeLine line) :
    fileLines lines.flatten = lines := by
  induction lines with
  | nil => rfl
  | cons line lines ih =>
      rw [List.flatten_cons, fileLines_cons (whole line (List.mem_cons_self ..)),
        ih fun later inside => whole later (List.mem_cons_of_mem _ inside)]

theorem fgetsLines_text (text : List Char) (room : Nat) (current : List Char) :
    (fgetsLines room current text).flatten = current ++ text := by
  induction text generalizing room current with
  | nil =>
      rw [fgetsLines]
      split
      · next empty => rw [empty]; rfl
      · simp
  | cons char rest ih =>
      rw [fgetsLines]
      split
      · rw [List.flatten_cons, ih]
        simp
      · rw [ih]
        simp

/-- No character is lost between the lines. -/
theorem flatten_fileLines (text : List Char) : (fileLines text).flatten = text :=
  fgetsLines_text text _ []

/-- The lines that are no comments. -/
def storedLines (text : List Char) : List (List Char) :=
  (fileLines text).filter fun line => line.head? ≠ some '#'

theorem length_storedLines (text : List Char) :
    (storedLines text).flatten.length ≤ text.length := by
  have part : (storedLines text).flatten.Sublist (fileLines text).flatten :=
    List.filter_sublist.flatten
  rw [flatten_fileLines] at part
  exact part.length_le

/-- Comments are skipped. -/
theorem loadLines_stored (lines : List (List Char)) (s : Start) :
    lines.foldlM loadLine s =
      (lines.filter fun line => line.head? ≠ some '#').foldlM loadLine s := by
  induction lines generalizing s with
  | nil => rfl
  | cons line lines ih =>
      by_cases comment : line.head? = some '#'
      · have skipped : loadLine s line = .ok s := if_pos comment
        rw [List.foldlM_cons, skipped, ok_bind, ih, List.filter_cons_of_neg (by simp [comment])]
      · rw [List.filter_cons_of_pos (by simp [comment]), List.foldlM_cons, List.foldlM_cons]
        exact congrArg _ (funext ih)

/-! ## Keys -/

/-- The keys that occur in a line. -/
def keysIn (line : List Char) : List ArgKey := argKeys.filter fun key => key.text <:+: line

theorem scanKeys_filter (line : List Char) (keys : List ArgKey) (s : Start) :
    scanKeys line keys s = scanKeys line (keys.filter fun key => key.text <:+: line) s := by
  induction keys generalizing s with
  | nil => rfl
  | cons key keys ih =>
      by_cases inside : key.text <:+: line
      · rw [List.filter_cons_of_pos (by simpa using inside), scanKeys, scanKeys,
          if_neg (not_not.2 inside), if_neg (not_not.2 inside)]
        split
        · rfl
        · exact congrArg _ (funext fun args => ih _)
      · rw [List.filter_cons_of_neg (by simpa using inside), scanKeys, if_pos inside, ih]

theorem equals_notMem_key (key : ArgKey) : '=' ∉ key.text := by
  cases key <;> decide

theorem newline_notMem_key (key : ArgKey) : '\n' ∉ key.text := by
  cases key <;> decide

theorem comment_ne_key (key : ArgKey) : key.text.head? ≠ some '#' ∧ key.text ≠ [] := by
  cases key <;> decide

theorem length_cfgLine (key : ArgKey) (val : List Char) :
    (cfgLine key val).length = key.text.length + 3 + val.length + 1 := by
  simp [cfgLine]
  omega

theorem head?_cfgLine (key : ArgKey) (val : List Char) :
    (cfgLine key val).head? ≠ some '#' := by
  obtain ⟨noComment, nonempty⟩ := comment_ne_key key
  rw [cfgLine, List.append_assoc, List.append_assoc, List.head?_append_of_ne_nil _ nonempty]
  exact noComment

/-- The value that is read back from a line. -/
theorem lineValue_cfgLine (key : ArgKey) (val : List Char) :
    lineValue (cfgLine key val) = .ok (val.dropWhile (· = ' ') ++ ['\n']) := by
  have front : ∀ char ∈ key.text ++ [' '], decide (char ≠ '=') = true := by
    intro char inside
    rcases List.mem_append.1 inside with own | blank
    · exact decide_eq_true fun same => equals_notMem_key key (same ▸ own)
    · rw [List.mem_singleton.1 blank]
      decide
  have split : cfgLine key val = (key.text ++ [' ']) ++ '=' :: ' ' :: (val ++ ['\n']) := by
    simp [cfgLine]
  have cut : (cfgLine key val).dropWhile (· ≠ '=') = '=' :: ' ' :: (val ++ ['\n']) := by
    rw [split, List.dropWhile_append_of_pos front]
    rfl
  have value : (' ' :: (val ++ ['\n'])).dropWhile (· = ' ') =
      val.dropWhile (· = ' ') ++ ['\n'] := by
    rw [List.dropWhile_cons_of_pos (by decide), List.dropWhile_append]
    split
    · next all => rw [List.isEmpty_iff.1 all]; rfl
    · rfl
  rw [lineValue, cut]
  exact congrArg Except.ok value

theorem rewriteMode_cfgLine (old new : Bool) :
    rewriteMode (cfgLine .enc [modeDigit old]) new = .ok (cfgLine .enc [modeDigit new]) := by
  cases old <;> cases new <;> decide

/-!
## Entries

An entry is sound when its line is read back as it was written: it fits the buffer of `fgets`,
and no other key occurs in it.
-/

/-- A key with the value that is stored for it. -/
structure ConfigEntry where
  key : ArgKey
  value : List Char

def ConfigEntry.line (e : ConfigEntry) : List Char := cfgLine e.key e.value

/-- An entry whose line is read back as it was written.  The reader looks for the keys anywhere
in a line, so the value may hold none of them. -/
structure ConfigEntry.Sound (e : ConfigEntry) : Prop where
  plain : '\n' ∉ e.value
  short : e.line.length < lineMaxLength
  own : keysIn e.line = [e.key]
  digit : e.key = .enc → ∃ mode, e.value = [modeDigit mode]
  number : e.key = .br ∨ e.key = .sockEnc →
    ∃ number, atoi (e.value.dropWhile (· = ' ') ++ ['\n']) = .ok number

theorem wholeLine_cfgLine {key : ArgKey} {val : List Char} (plain : '\n' ∉ val)
    (short : (cfgLine key val).length < lineMaxLength) : WholeLine (cfgLine key val) := by
  refine ⟨key.text ++ " = ".toList ++ val, rfl, fun inside => ?_, short⟩
  rcases List.mem_append.1 inside with front | own
  · rcases List.mem_append.1 front with first | second
    · exact newline_notMem_key key first
    · exact absurd second (by decide)
  · exact plain own

/-- The lines of entries behind the comment are the stored lines of the file. -/
theorem storedLines_written {lines : List (List Char)}
    (whole : ∀ line ∈ lines, WholeLine line ∧ line.head? ≠ some '#') :
    storedLines (configCacheComment.flatten ++ lines.flatten) = lines := by
  have comments : ∀ line ∈ configCacheComment,
      (∃ body, line = body ++ ['\n'] ∧ '\n' ∉ body ∧ line.length < lineMaxLength) ∧
        line.head? = some '#' := by
    intro line inside
    have checked : configCacheComment.all (fun line => line = line.dropLast ++ ['\n'] ∧
        '\n' ∉ line.dropLast ∧ line.length < lineMaxLength ∧ line.head? = some '#') = true := by
      decide +kernel
    obtain ⟨ends, plain, short, sharp⟩ :=
      of_decide_eq_true (List.all_eq_true.1 checked line inside)
    exact ⟨⟨_, ends, plain, short⟩, sharp⟩
  have all : ∀ line ∈ configCacheComment ++ lines, WholeLine line := fun line inside =>
    (List.mem_append.1 inside).elim (fun own => (comments line own).1) fun own => (whole line own).1
  rw [storedLines, ← List.flatten_append, fileLines_flatten all, List.filter_append,
    List.filter_eq_nil_iff.2 fun line own => by simp [(comments line own).2],
    List.filter_eq_self.2 fun line own => by simp [(whole line own).2], List.nil_append]

/-- What one entry does to a start.  A line whose key was given on the command line is dropped,
or replaced in the case of the mode. -/
theorem loadLine_entry {e : ConfigEntry} (sound : e.Sound) (s : Start) :
    loadLine s e.line =
      if s.dirty e.key then
        if e.key = .enc then
          .ok ((s.append (cfgLine .enc [modeDigit s.args.enc])).clearDirty .enc)
        else .ok s
      else
        storeCacheConfig s.args e.line e.key >>= fun args =>
          .ok ((s.append e.line).withArgs args) := by
  have inside : e.key.text <:+: e.line := by
    have listed : e.key ∈ keysIn e.line := by
      rw [sound.own]
      exact List.mem_singleton_self _
    simpa using (List.mem_filter.1 listed).2
  have comment : ¬ e.line.head? = some '#' := head?_cfgLine e.key e.value
  rw [loadLine, if_neg comment, scanKeys_filter]
  rw [show argKeys.filter (fun key => key.text <:+: e.line) = [e.key] from sound.own, scanKeys,
    if_neg (not_not.2 inside)]
  split
  · split
    · next mode =>
        obtain ⟨old, digit⟩ := sound.digit mode
        have line : e.line = cfgLine .enc [modeDigit old] := by rw [ConfigEntry.line, mode, digit]
        rw [line, rewriteMode_cfgLine]
        rfl
    · rfl
  · rfl

/-!
## Loading

The lines of a file with sound entries are loaded one by one.  Each is kept or replaced, and its
value is stored or passed over, as its key says.
-/

/-- The keys whose values a mode uses. -/
def ArgKey.belongs (mode : Bool) : ArgKey → Bool
  | .enc => false
  | .port => !mode
  | .br => !mode
  | .sockSrv => mode
  | .sockClt => mode
  | .sockEnc => mode

/-- Values of the other mode are passed over. -/
theorem storeCacheConfig_other {args : ProjArgs} {key : ArgKey} {val : List Char}
    (other : key.belongs (!args.enc) = true) :
    storeCacheConfig args (cfgLine key val) key = .ok args := by
  rw [storeCacheConfig, lineValue_cfgLine, ok_bind]
  cases mode : args.enc <;> rw [mode] at other <;> cases key <;>
    first | exact absurd other (by decide) | rfl

theorem storeCacheConfig_mode (args : ProjArgs) (mode : Bool) :
    storeCacheConfig args (cfgLine .enc [modeDigit mode]) .enc =
      .ok { args with enc := mode } := by
  rw [storeCacheConfig, lineValue_cfgLine, ok_bind]
  cases mode <;> rfl

theorem strcpy_line (args : ProjArgs) (start : Nat) {key : ArgKey} {val : List Char}
    (short : (cfgLine key val).length < lineMaxLength) :
    strcpy args start (val.dropWhile (· = ' ') ++ ['\n']) =
      .ok { args with cells := putText args.cells start (val.dropWhile (· = ' ') ++ ['\n']) } := by
  have less : (val.dropWhile (· = ' ')).length ≤ val.length :=
    (List.dropWhile_suffix _).length_le
  refine if_pos ?_
  rw [length_cfgLine] at short
  rw [List.length_append, List.length_singleton]
  simp only [lineMaxLength, filePathMax] at *
  omega

/-- A sound entry can be stored in any state, and only the one of the mode changes that. -/
theorem storeCacheConfig_sound {e : ConfigEntry} (sound : e.Sound) (args : ProjArgs) :
    ∃ after, storeCacheConfig args e.line e.key = .ok after ∧
      (e.key ≠ .enc → after.enc = args.enc) := by
  obtain ⟨key, value⟩ := e
  have short := sound.short
  have number := sound.number
  rw [ConfigEntry.line, storeCacheConfig, lineValue_cfgLine, ok_bind]
  cases key with
  | enc => exact ⟨_, rfl, fun other => absurd rfl other⟩
  | port =>
      by_cases mode : args.enc = true
      · exact ⟨args, if_pos mode, fun _ => rfl⟩
      · exact ⟨_, (if_neg mode).trans (strcpy_line args _ short), fun _ => rfl⟩
  | br =>
      obtain ⟨rate, isRate⟩ := number (.inl rfl)
      by_cases mode : args.enc = true
      · exact ⟨args, if_pos mode, fun _ => rfl⟩
      · dsimp only at isRate ⊢
        rw [if_neg mode, isRate, ok_bind]
        exact ⟨_, rfl, fun _ => rfl⟩
  | sockSrv =>
      by_cases mode : args.enc = true
      · exact ⟨_, (if_pos mode).trans (strcpy_line args _ short), fun _ => rfl⟩
      · exact ⟨args, if_neg mode, fun _ => rfl⟩
  | sockClt =>
      by_cases mode : args.enc = true
      · exact ⟨_, (if_pos mode).trans (strcpy_line args _ short), fun _ => rfl⟩
      · exact ⟨args, if_neg mode, fun _ => rfl⟩
  | sockEnc =>
      obtain ⟨flag, isFlag⟩ := number (.inr rfl)
      by_cases mode : args.enc = true
      · dsimp only at isFlag ⊢
        rw [if_pos mode, isFlag, ok_bind]
        exact ⟨_, rfl, fun _ => rfl⟩
      · exact ⟨args, if_neg mode, fun _ => rfl⟩

/-- The entries of a file whose lines can be told apart.  Two lines with one key would leave open
which of them counts. -/
def SoundEntries (entries : List ConfigEntry) : Prop :=
  (∀ e ∈ entries, e.Sound) ∧ (entries.map ConfigEntry.key).Nodup

def linesOf (entries : List ConfigEntry) : List Char := (entries.map ConfigEntry.line).flatten

theorem linesOf_cons (e : ConfigEntry) (entries : List ConfigEntry) :
    linesOf (e :: entries) = e.line ++ linesOf entries := by
  rw [linesOf, linesOf, List.map_cons, List.flatten_cons]

theorem linesOf_append (front back : List ConfigEntry) :
    linesOf (front ++ back) = linesOf front ++ linesOf back := by
  rw [linesOf, linesOf, linesOf, List.map_append, List.flatten_append]

/-- What is kept of an entry when values of a mode are given. -/
def keepEntry (mode : Bool) (e : ConfigEntry) : Option ConfigEntry :=
  if e.key = .enc then some ⟨.enc, [modeDigit mode]⟩
  else if e.key.belongs mode then none
  else some e

theorem belongs_other {key : ArgKey} (mode : Bool) (noMode : key ≠ .enc) :
    key.belongs (!mode) = !key.belongs mode := by
  cases key <;> cases mode <;> first | exact absurd rfl noMode | rfl

/-- With all values of a mode given, the file is merged with them: the mode is replaced in
its place, the lines of the given values are dropped, and the others are kept. -/
theorem loads_given {mode : Bool} {entries : List ConfigEntry} (sound : SoundEntries entries)
    {s : Start} (isMode : s.args.enc = mode)
    (given : ∀ key, key ≠ .enc → s.dirty key = key.belongs mode)
    (pending : s.dirty .enc = true ∨ .enc ∉ entries.map ConfigEntry.key) :
    (entries.map ConfigEntry.line).foldlM loadLine s =
      .ok { args := s.args
            dirty := fun key =>
              if key = .enc then s.dirty .enc && decide (.enc ∉ entries.map ConfigEntry.key)
              else s.dirty key
            buf := s.buf ++ linesOf (entries.filterMap (keepEntry mode)) } := by
  induction entries generalizing s with
  | nil =>
      have same : (fun key => if key = .enc then s.dirty .enc && decide (.enc ∉ ([] : List ArgKey))
          else s.dirty key) = s.dirty := by
        funext key
        split
        · next isEnc => simp [isEnc]
        · rfl
      rw [List.map_nil, List.map_nil, same, List.filterMap_nil, linesOf, List.map_nil,
        List.flatten_nil, List.append_nil]
      rfl
  | cons e entries ih =>
      obtain ⟨each, apart⟩ := sound
      rw [List.map_cons, List.nodup_cons] at apart
      have rest : SoundEntries entries :=
        ⟨fun later inside => each later (List.mem_cons_of_mem _ inside), apart.2⟩
      rw [List.map_cons, List.foldlM_cons, loadLine_entry (each e (List.mem_cons_self ..))]
      by_cases isEnc : e.key = .enc
      · have once : .enc ∉ entries.map ConfigEntry.key := isEnc ▸ apart.1
        have dirty : s.dirty e.key = true := by
          rw [isEnc]
          exact pending.resolve_right fun absent => absent (by simp [isEnc])
        have kept : keepEntry mode e = some ⟨.enc, [modeDigit mode]⟩ := if_pos isEnc
        have later := ih rest
          (s := (s.append (cfgLine .enc [modeDigit s.args.enc])).clearDirty .enc) isMode
          (fun key other => (Function.update_of_ne other ..).trans (given key other))
          (.inr once)
        have flags : (fun key => if key = .enc then
              ((s.append (cfgLine .enc [modeDigit s.args.enc])).clearDirty .enc).dirty .enc &&
                decide (.enc ∉ entries.map ConfigEntry.key)
            else ((s.append (cfgLine .enc [modeDigit s.args.enc])).clearDirty .enc).dirty key) =
            fun key => if key = .enc then
              s.dirty .enc && decide (.enc ∉ (e :: entries).map ConfigEntry.key)
            else s.dirty key := by
          funext key
          by_cases other : key = .enc
          · simp [other, Start.clearDirty, isEnc]
          · simp [other, Start.clearDirty, Start.append]
        rw [if_pos dirty, if_pos isEnc, ok_bind, later, flags, List.filterMap_cons_some kept,
          linesOf_cons, ← List.append_assoc, ← isMode]
        rfl
      · have same : decide (.enc ∉ (e :: entries).map ConfigEntry.key) =
            decide (.enc ∉ entries.map ConfigEntry.key) := by
          simp [Ne.symm isEnc]
        have stillPending : s.dirty .enc = true ∨ .enc ∉ entries.map ConfigEntry.key :=
          pending.imp_right fun absent inside => absent (List.mem_cons_of_mem _ inside)
        rw [same]
        cases own : e.key.belongs mode with
        | true =>
            have dropped : keepEntry mode e = none := (if_neg isEnc).trans (if_pos own)
            rw [if_pos ((given _ isEnc).trans own), if_neg isEnc, ok_bind,
              ih rest isMode given stillPending, List.filterMap_cons_none dropped]
        | false =>
            have kept : keepEntry mode e = some e :=
              (if_neg isEnc).trans (if_neg (by rw [own]; decide))
            have clean : ¬ s.dirty e.key = true := by rw [given _ isEnc, own]; decide
            have other : e.key.belongs (!s.args.enc) = true := by
              rw [isMode, belongs_other mode isEnc, own]
              rfl
            have later := ih rest (s := (s.append e.line).withArgs s.args) isMode given
              stillPending
            rw [if_neg clean, ConfigEntry.line, storeCacheConfig_other other, ok_bind, ok_bind]
            rw [ConfigEntry.line] at later
            rw [later, List.filterMap_cons_some kept, linesOf_cons, ← List.append_assoc]
            rfl

/-- Without options every line is kept, and its value stored. -/
theorem loads_clean {entries : List ConfigEntry} (sound : ∀ e ∈ entries, e.Sound) {s : Start}
    (clean : ∀ key, s.dirty key = false) :
    (entries.map ConfigEntry.line).foldlM loadLine s =
      entries.foldlM (fun args e => storeCacheConfig args e.line e.key) s.args >>= fun args =>
        .ok { args := args, dirty := s.dirty, buf := s.buf ++ linesOf entries } := by
  induction entries generalizing s with
  | nil =>
      rw [linesOf, List.map_nil, List.flatten_nil, List.append_nil]
      rfl
  | cons e entries ih =>
      have first := sound e (List.mem_cons_self ..)
      obtain ⟨args, stored, -⟩ := storeCacheConfig_sound first s.args
      have later := ih (fun other inside => sound other (List.mem_cons_of_mem _ inside))
        (s := (s.append e.line).withArgs args) clean
      rw [List.map_cons, List.foldlM_cons, List.foldlM_cons, loadLine_entry first,
        if_neg (by rw [clean]; decide), stored, ok_bind, ok_bind, ok_bind, later, linesOf_cons,
        ← List.append_assoc]
      rfl

/-- The mode after the entries of a file: the one of its line, wherever that stands. -/
theorem stores_mode {mode : Bool} {entries : List ConfigEntry} (sound : ∀ e ∈ entries, e.Sound)
    (line : ∀ e ∈ entries, e.key = .enc → e.value = [modeDigit mode]) (args : ProjArgs) :
    ∃ after, entries.foldlM (fun args e => storeCacheConfig args e.line e.key) args =
        .ok after ∧
      after.enc = if .enc ∈ entries.map ConfigEntry.key then mode else args.enc := by
  induction entries generalizing args with
  | nil => exact ⟨args, rfl, rfl⟩
  | cons e entries ih =>
      have laters : ∀ other ∈ entries, other ∈ e :: entries := fun other =>
        List.mem_cons_of_mem _
      by_cases isEnc : e.key = .enc
      · have digits := line e (List.mem_cons_self ..) isEnc
        have stored : storeCacheConfig args e.line e.key = .ok { args with enc := mode } := by
          rw [ConfigEntry.line, isEnc, digits]
          exact storeCacheConfig_mode args mode
        obtain ⟨after, rest, isMode⟩ := ih (fun other inside => sound other (laters other inside))
          (fun other inside => line other (laters other inside)) { args with enc := mode }
        refine ⟨after, by rw [List.foldlM_cons, stored, ok_bind, rest], ?_⟩
        rw [isMode]
        simp [isEnc]
      · obtain ⟨next, stored, kept⟩ :=
          storeCacheConfig_sound (sound e (List.mem_cons_self ..)) args
        obtain ⟨after, rest, isMode⟩ := ih (fun other inside => sound other (laters other inside))
          (fun other inside => line other (laters other inside)) next
        refine ⟨after, by rw [List.foldlM_cons, stored, ok_bind, rest], ?_⟩
        rw [isMode, kept isEnc]
        simp [Ne.symm isEnc]

/-! ## Appending -/

/-- The lines of the keys that are dirty are appended, when each fits its buffer. -/
theorem appends_ok {keys : List ArgKey} (apart : keys.Nodup) (s : Start)
    (short : ∀ key ∈ keys, s.dirty key = true →
      (cfgLine key (s.args.value key)).length < lineMaxLength) :
    ∃ after, keys.foldlM appendCfg s = .ok after ∧ after.args = s.args ∧
      after.buf = s.buf ++
        linesOf ((keys.filter fun key => s.dirty key).map fun key => ⟨key, s.args.value key⟩) := by
  induction keys generalizing s with
  | nil => exact ⟨s, rfl, rfl, by rw [List.filter_nil, List.map_nil, linesOf]; simp⟩
  | cons key keys ih =>
      obtain ⟨fresh, apart⟩ := List.nodup_cons.1 apart
      by_cases dirty : s.dirty key = true
      · have fits := short key (List.mem_cons_self ..) dirty
        have appended : appendCfg s key =
            .ok ((s.append (cfgLine key (s.args.value key))).clearDirty key) := by
          rw [appendCfg, if_pos dirty]
          exact if_pos fits
        have others : ∀ other ∈ keys,
            ((s.append (cfgLine key (s.args.value key))).clearDirty key).dirty other =
              s.dirty other := fun other inside =>
          Function.update_of_ne (ne_of_mem_of_not_mem inside fresh) ..
        obtain ⟨after, rest, sameArgs, buf⟩ := ih apart
          ((s.append (cfgLine key (s.args.value key))).clearDirty key)
          fun other inside set => short other (List.mem_cons_of_mem _ inside)
            ((others other inside).symm.trans set)
        refine ⟨after, by rw [List.foldlM_cons, appended, ok_bind, rest], sameArgs, ?_⟩
        rw [buf, List.filter_cons_of_pos dirty, List.filter_congr others, List.map_cons,
          linesOf_cons, ← List.append_assoc]
        rfl
      · have skipped : appendCfg s key = .ok s := if_neg dirty
        obtain ⟨after, rest, sameArgs, buf⟩ := ih apart s
          fun other inside => short other (List.mem_cons_of_mem _ inside)
        refine ⟨after, by rw [List.foldlM_cons, skipped, ok_bind, rest], sameArgs, ?_⟩
        rw [buf, List.filter_cons_of_neg dirty]

/-- A line that does not fit overflows. -/
theorem appends_short {keys : List ArgKey} (apart : keys.Nodup) {s after : Start}
    (appended : keys.foldlM appendCfg s = .ok after) :
    ∀ key ∈ keys, s.dirty key = true →
      (cfgLine key (s.args.value key)).length < lineMaxLength := by
  induction keys generalizing s with
  | nil => exact fun _ impossible => nomatch impossible
  | cons first keys ih =>
      obtain ⟨fresh, apart⟩ := List.nodup_cons.1 apart
      rw [List.foldlM_cons] at appended
      obtain ⟨next, step, rest⟩ := bind_ok.1 appended
      have fits : s.dirty first = true →
          (cfgLine first (s.args.value first)).length < lineMaxLength := fun dirty => by
        rw [appendCfg, if_pos dirty] at step
        by_contra long
        rw [if_neg long] at step
        exact nomatch step
      have same : next.args = s.args ∧ ∀ other ∈ keys, next.dirty other = s.dirty other := by
        by_cases dirty : s.dirty first = true
        · rw [appendCfg, if_pos dirty, if_pos (fits dirty)] at step
          obtain rfl := Except.ok.inj step
          exact ⟨rfl, fun other inside =>
            Function.update_of_ne (ne_of_mem_of_not_mem inside fresh) ..⟩
        · rw [appendCfg, if_neg dirty] at step
          obtain rfl := Except.ok.inj step
          exact ⟨rfl, fun _ _ => rfl⟩
      intro key inside dirty
      rcases List.mem_cons.1 inside with rfl | later
      · exact fits dirty
      · rw [← same.1]
        exact ih apart rest key later ((same.2 key later).trans dirty)

end Nwmng
