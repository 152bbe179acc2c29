/-
Module: Nwmng.Utils.StartupMerge
Purpose: The two starts: one merges given arguments with the file, one without arguments
reads them back.
Trusted boundary: as in Nwmng.Utils.Startup
Main exports:
  mergedEntries, setprojargs_fits, sound_merged, setprojargs_restart, stores_own
-/
import Nwmng.Utils.StartupArgs

namespace Nwmng

open Fallible

/-! ## The start that is given arguments -/

/-- The three trims at the end of a start. -/
def ProjArgs.trimmed (args : ProjArgs) : ProjArgs :=
  { args with cells := trimNewline srvAt (trimNewline cltAt (trimNewline portAt args.cells)) }

/-- The entries that are added behind those of the file. -/
def newEntries (mode hasMode : Bool) (args : ProjArgs) : List ConfigEntry :=
  (argKeys.filter fun key => if key = .enc then !hasMode else key.belongs mode).map fun key =>
    ⟨key, args.value key⟩

/-- The file with the given values. -/
def mergedEntries (mode : Bool) (args : ProjArgs) (entries : List ConfigEntry) : List ConfigEntry :=
  entries.filterMap (keepEntry mode) ++
    newEntries mode (decide (.enc ∈ entries.map ConfigEntry.key)) args

/-- The state in which the given values are appended. -/
def loadedStart (s : Start) (mode : Bool) (entries : List ConfigEntry) : Start where
  args := s.args
  dirty key :=
    if key = .enc then s.dirty .enc && decide (.enc ∉ entries.map ConfigEntry.key) else s.dirty key
  buf := s.buf ++ linesOf (entries.filterMap (keepEntry mode))

section Given

variable {set : ArgSet} {options : List (Char × List Char)} {file : Option (List Char)}
  {entries : List ConfigEntry} {s : Start}

theorem setprojargs_given (valid : set.Valid) (given : storeArgs options noArgs = .ok s)
    (start : GivenStart set s) (sound : SoundEntries entries)
    (stored : storedLines (file.getD []) = entries.map ConfigEntry.line) :
    setprojargs options file =
      argKeys.foldlM appendCfg (loadedStart s set.mode entries) >>= fun after =>
        if (file.getD []).length + argKeys.length * lineMaxLength ≤ after.buf.length then
          .error .overflow
        else .ok (after.args.trimmed, configCacheComment.flatten ++ after.buf) := by
  have dirty : s.dirty .enc = true := start.dirty .enc
  have others : ∀ key, key ≠ .enc → s.dirty key = key.belongs set.mode := fun key other => by
    rw [start.dirty, decide_eq_false other, Bool.false_or]
  have loaded : (fileLines (file.getD [])).foldlM loadLine s =
      .ok (loadedStart s set.mode entries) := by
    rw [loadLines_stored]
    exact (congrArg (fun lines => List.foldlM loadLine s lines) stored).trans
      (loads_given sound start.stored.enc others (.inl dirty))
  have complete : ¬ ¬ (loadedStart s set.mode entries).args.complete = true :=
    not_not.2 (start.stored.complete valid)
  rw [setprojargs]
  dsimp only
  rw [given, ok_bind, loaded, ok_bind, if_neg complete]
  rfl

theorem loadedStart_dirty (start : GivenStart set s) :
    (argKeys.filter fun key => (loadedStart s set.mode entries).dirty key) =
      argKeys.filter fun key =>
        if key = .enc then !decide (.enc ∈ entries.map ConfigEntry.key)
        else key.belongs set.mode := by
  refine List.filter_congr fun key _ => ?_
  by_cases isEnc : key = .enc
  · have dirty : s.dirty .enc = true := start.dirty .enc
    simp only [loadedStart, isEnc, if_true, dirty, Bool.true_and, decide_not]
  · simp [loadedStart, isEnc, start.dirty]

theorem length_linesOf_le {entries : List ConfigEntry}
    (short : ∀ e ∈ entries, e.line.length < lineMaxLength) :
    (linesOf entries).length ≤ entries.length * (lineMaxLength - 1) := by
  induction entries with
  | nil => exact Nat.zero_le _
  | cons e entries ih =>
      have first := short e (List.mem_cons_self ..)
      have rest := ih fun other inside => short other (List.mem_cons_of_mem _ inside)
      rw [linesOf_cons, List.length_append, List.length_cons, Nat.add_mul]
      omega

/-- What is kept of the lines is not longer than they were. -/
theorem length_kept {entries : List ConfigEntry} (sound : ∀ e ∈ entries, e.Sound) (mode : Bool) :
    (linesOf (entries.filterMap (keepEntry mode))).length ≤ (linesOf entries).length := by
  induction entries with
  | nil => exact Nat.le_refl _
  | cons e entries ih =>
      have rest := ih fun other inside => sound other (List.mem_cons_of_mem _ inside)
      by_cases isEnc : e.key = .enc
      · obtain ⟨old, digit⟩ := (sound e (List.mem_cons_self ..)).digit isEnc
        have kept : keepEntry mode e = some ⟨.enc, [modeDigit mode]⟩ := if_pos isEnc
        have same : (⟨.enc, [modeDigit mode]⟩ : ConfigEntry).line.length = e.line.length := by
          rw [ConfigEntry.line, ConfigEntry.line, length_cfgLine, length_cfgLine, isEnc, digit]
          rfl
        rw [List.filterMap_cons_some kept, linesOf_cons, linesOf_cons, List.length_append,
          List.length_append]
        omega
      · cases own : e.key.belongs mode with
        | true =>
            have dropped : keepEntry mode e = none := (if_neg isEnc).trans (if_pos own)
            rw [List.filterMap_cons_none dropped, linesOf_cons, List.length_append]
            omega
        | false =>
            have kept : keepEntry mode e = some e :=
              (if_neg isEnc).trans (if_neg (by rw [own]; decide))
            rw [List.filterMap_cons_some kept, linesOf_cons, linesOf_cons, List.length_append,
              List.length_append]
            omega

/-- Where every line fits, the start succeeds, and writes the merged entries.  The lines of the
file come first, those of the given values behind them. -/
theorem setprojargs_fits (valid : set.Valid) (given : storeArgs options noArgs = .ok s)
    (start : GivenStart set s) (sound : SoundEntries entries)
    (stored : storedLines (file.getD []) = entries.map ConfigEntry.line)
    (fits : ∀ key, key.belongs set.mode = true →
      (cfgLine key (s.args.value key)).length < lineMaxLength) :
    setprojargs options file =
      .ok (s.args.trimmed,
        configCacheComment.flatten ++ linesOf (mergedEntries set.mode s.args entries)) := by
  have short : ∀ key, (loadedStart s set.mode entries).dirty key = true →
      (cfgLine key (s.args.value key)).length < lineMaxLength := fun key dirty => by
    by_cases isEnc : key = .enc
    · subst isEnc
      exact (sound_digit (.inl rfl) s.args.enc).short
    · refine fits key ?_
      simpa [loadedStart, isEnc, start.dirty] using dirty
  obtain ⟨after, appended, sameArgs, buf⟩ := appends_ok argKeys_nodup
    (loadedStart s set.mode entries) fun key _ => short key
  have isBuf : after.buf = linesOf (mergedEntries set.mode s.args entries) := by
    rw [buf, loadedStart_dirty start, mergedEntries, linesOf_append]
    show s.buf ++ _ ++ _ = _
    rw [start.empty, List.nil_append]
    rfl
  have room : ¬ (file.getD []).length + argKeys.length * lineMaxLength ≤ after.buf.length := by
    have kept := length_kept sound.1 set.mode
    have whole := length_storedLines (file.getD [])
    rw [stored] at whole
    have added : (linesOf (newEntries set.mode (decide (.enc ∈ entries.map ConfigEntry.key))
        s.args)).length ≤ 6 * (lineMaxLength - 1) := by
      refine (length_linesOf_le fun e inside => ?_).trans (Nat.mul_le_mul_right _ ?_)
      · obtain ⟨key, listed, rfl⟩ := List.mem_map.1 inside
        have chosen := (List.mem_filter.1 listed).2
        by_cases isEnc : key = .enc
        · subst isEnc
          exact (sound_digit (.inl rfl) s.args.enc).short
        · rw [if_neg isEnc] at chosen
          exact fits key chosen
      · rw [newEntries, List.length_map]
        exact List.length_filter_le _ _
    rw [isBuf, mergedEntries, linesOf_append, List.length_append]
    have : (linesOf entries).length ≤ (file.getD []).length := whole
    simp only [argKeys, List.length_cons, List.length_nil, lineMaxLength] at *
    omega
  rw [setprojargs_given valid given start sound stored, appended, ok_bind, if_neg room, sameArgs,
    isBuf]
  rfl

end Given

/-!
## The file that is left

The lines that are kept and those that are added make up a file with sound entries again, on
which the next start can rely.
-/

/-- The entries of the values of a mode. -/
def ownEntries (mode : Bool) (args : ProjArgs) : List ConfigEntry :=
  (argKeys.filter fun key => key.belongs mode).map fun key => ⟨key, args.value key⟩

theorem newEntries_eq (mode hasMode : Bool) (args : ProjArgs) :
    newEntries mode hasMode args =
      (if hasMode then [] else [⟨.enc, [modeDigit args.enc]⟩]) ++ ownEntries mode args := by
  cases hasMode <;> cases mode <;> rfl

theorem kept_keys (mode : Bool) (entries : List ConfigEntry) :
    (entries.filterMap (keepEntry mode)).map ConfigEntry.key =
      (entries.map ConfigEntry.key).filter fun key => !key.belongs mode := by
  induction entries with
  | nil => rfl
  | cons e entries ih =>
      by_cases isEnc : e.key = .enc
      · have kept : keepEntry mode e = some ⟨.enc, [modeDigit mode]⟩ := if_pos isEnc
        rw [List.filterMap_cons_some kept, List.map_cons, List.map_cons, isEnc,
          List.filter_cons_of_pos rfl, ih]
      · cases own : e.key.belongs mode with
        | true =>
            have dropped : keepEntry mode e = none := (if_neg isEnc).trans (if_pos own)
            rw [List.filterMap_cons_none dropped, List.map_cons,
              List.filter_cons_of_neg (by rw [own]; decide), ih]
        | false =>
            have kept : keepEntry mode e = some e :=
              (if_neg isEnc).trans (if_neg (by rw [own]; decide))
            rw [List.filterMap_cons_some kept, List.map_cons, List.map_cons,
              List.filter_cons_of_pos (by rw [own]; rfl), ih]

theorem kept_cases {mode : Bool} {entries : List ConfigEntry} {e : ConfigEntry}
    (inside : e ∈ entries.filterMap (keepEntry mode)) :
    e = ⟨.enc, [modeDigit mode]⟩ ∨ e ∈ entries ∧ e.key ≠ .enc := by
  obtain ⟨old, listed, kept⟩ := List.mem_filterMap.1 inside
  by_cases isEnc : old.key = .enc
  · rw [keepEntry, if_pos isEnc] at kept
    exact .inl (Option.some.inj kept).symm
  · rw [keepEntry, if_neg isEnc] at kept
    split at kept
    · exact nomatch kept
    · obtain rfl := Option.some.inj kept
      exact .inr ⟨listed, isEnc⟩

section Merged

variable {mode : Bool} {args : ProjArgs} {entries : List ConfigEntry}

/-- The entries before those of the given values, the mode among them. -/
def frontEntries (mode : Bool) (entries : List ConfigEntry) : List ConfigEntry :=
  entries.filterMap (keepEntry mode) ++
    if .enc ∈ entries.map ConfigEntry.key then [] else [⟨.enc, [modeDigit mode]⟩]

theorem mergedEntries_eq (isMode : args.enc = mode) :
    mergedEntries mode args entries = frontEntries mode entries ++ ownEntries mode args := by
  rw [mergedEntries, newEntries_eq, frontEntries, List.append_assoc, isMode]
  simp only [decide_eq_true_eq]

theorem front_mode {e : ConfigEntry} (inside : e ∈ frontEntries mode entries)
    (isEnc : e.key = .enc) : e.value = [modeDigit mode] := by
  rcases List.mem_append.1 inside with kept | added
  · rcases kept_cases kept with rfl | ⟨-, other⟩
    · rfl
    · exact absurd isEnc other
  · split at added
    · exact absurd added List.not_mem_nil
    · rw [List.mem_singleton.1 added]

theorem enc_mem_front : .enc ∈ (frontEntries mode entries).map ConfigEntry.key := by
  rw [frontEntries, List.map_append, kept_keys]
  by_cases there : .enc ∈ entries.map ConfigEntry.key
  · exact List.mem_append_left _ (List.mem_filter.2 ⟨there, rfl⟩)
  · rw [if_neg there]
    exact List.mem_append_right _ (List.mem_cons_self ..)

/-- What holds of the old entries, of the line of the mode and of the given values, holds of
all entries of the file that is left. -/
theorem merged_forall {holds : ConfigEntry → Prop} (isMode : args.enc = mode)
    (digit : holds ⟨.enc, [modeDigit mode]⟩) (old : ∀ e ∈ entries, holds e)
    (own : ∀ key, key.belongs mode = true → holds ⟨key, args.value key⟩) :
    ∀ e ∈ mergedEntries mode args entries, holds e := by
  rw [mergedEntries_eq isMode]
  intro e inside
  rcases List.mem_append.1 inside with front | owned
  · rcases List.mem_append.1 front with kept | added
    · rcases kept_cases kept with rfl | ⟨listed, -⟩
      · exact digit
      · exact old e listed
    · split at added
      · exact absurd added List.not_mem_nil
      · rw [List.mem_singleton.1 added]
        exact digit
  · obtain ⟨key, chosen, rfl⟩ := List.mem_map.1 owned
    exact own key (List.mem_filter.1 chosen).2

/-- With the given values sound, the file that is left has sound entries. -/
theorem sound_merged (isMode : args.enc = mode) (sound : SoundEntries entries)
    (own : ∀ key, key.belongs mode = true → (⟨key, args.value key⟩ : ConfigEntry).Sound) :
    SoundEntries (mergedEntries mode args entries) := by
  rw [mergedEntries_eq isMode]
  refine ⟨?_, ?_⟩
  · rw [← mergedEntries_eq isMode]
    exact merged_forall isMode (sound_digit (.inl rfl) mode) sound.1 own
  · have ownKeys : (ownEntries mode args).map ConfigEntry.key =
        argKeys.filter fun key => key.belongs mode := by
      rw [ownEntries, List.map_map]
      exact List.map_id _
    have frontOther : ∀ key ∈ (frontEntries mode entries).map ConfigEntry.key,
        key.belongs mode = false := fun key inside => by
      rw [frontEntries, List.map_append, kept_keys] at inside
      rcases List.mem_append.1 inside with kept | added
      · simpa using (List.mem_filter.1 kept).2
      · split at added
        · exact absurd added List.not_mem_nil
        · rw [List.mem_singleton.1 added]
          rfl
    have frontApart : ((frontEntries mode entries).map ConfigEntry.key).Nodup := by
      rw [frontEntries, List.map_append, kept_keys]
      split
      · rw [List.map_nil, List.append_nil]
        exact sound.2.filter _
      · next absent =>
          refine (List.nodup_append.2 ⟨sound.2.filter _, List.pairwise_singleton _ _, ?_⟩)
          intro key kept other single same
          have isEnc : key = .enc := same.trans (List.mem_singleton.1 single)
          exact absent (isEnc ▸ (List.mem_filter.1 kept).1)
    rw [List.map_append, ownKeys]
    refine List.nodup_append.2 ⟨frontApart, argKeys_nodup.filter _, ?_⟩
    intro key front other owned same
    have first := frontOther key front
    rw [same, (List.mem_filter.1 owned).2] at first
    exact nomatch first

end Merged

/-! ## The start without arguments -/

/-- What a start without arguments does with the file of sound entries: it leaves it as it
is, and has the arguments that are stored in it. -/
theorem setprojargs_restart {entries : List ConfigEntry} (sound : SoundEntries entries)
    {after : ProjArgs}
    (stores : entries.foldlM (fun args e => storeCacheConfig args e.line e.key) noArgs.args =
      .ok after) (complete : after.complete = true) :
    setprojargs [] (some (configCacheComment.flatten ++ linesOf entries)) =
      .ok (after.trimmed, configCacheComment.flatten ++ linesOf entries) := by
  have written : storedLines (configCacheComment.flatten ++ linesOf entries) =
      entries.map ConfigEntry.line := storedLines_written fun line inside => by
    obtain ⟨e, listed, rfl⟩ := List.mem_map.1 inside
    exact ⟨wholeLine_cfgLine (sound.1 e listed).plain (sound.1 e listed).short,
      head?_cfgLine e.key e.value⟩
  have loaded : (fileLines (configCacheComment.flatten ++ linesOf entries)).foldlM loadLine
      noArgs = .ok { args := after, dirty := fun _ => false, buf := linesOf entries } := by
    rw [loadLines_stored]
    refine (congrArg (fun lines => List.foldlM loadLine noArgs lines) written).trans ?_
    rw [loads_clean sound.1 fun _ => rfl, stores]
    rfl
  obtain ⟨stored, appended, sameArgs, buf⟩ := appends_ok argKeys_nodup
    { args := after, dirty := fun _ => false, buf := linesOf entries }
    fun _ _ impossible => nomatch impossible
  have isBuf : stored.buf = linesOf entries := by
    rw [buf]
    exact List.append_nil _
  have room : ¬ (configCacheComment.flatten ++ linesOf entries).length +
      argKeys.length * lineMaxLength ≤ stored.buf.length := by
    rw [isBuf, List.length_append]
    simp only [argKeys, List.length_cons, List.length_nil, lineMaxLength]
    omega
  rw [setprojargs]
  dsimp only [Option.getD_some]
  rw [show storeArgs [] noArgs = .ok noArgs from rfl, ok_bind, loaded, ok_bind,
    if_neg (not_not.2 complete), appended, ok_bind, if_neg room, sameArgs, isBuf]
  rfl

/-- What the arguments of a mode are after their lines were read. -/
def ArgSet.LoadedIn : ArgSet → ProjArgs → Prop
  | .insecure port baud, args =>
      args.enc = false ∧ HoldsText args.cells portAt (port.dropWhile (· = ' ') ++ ['\n']) ∧
        ∃ rate, atoi baud = .ok rate ∧ Numbers args.cells (uint32OfInt rate)
  | .secure srv clt flag, args =>
      args.enc = true ∧ HoldsText args.cells srvAt (srv.dropWhile (· = ' ') ++ ['\n']) ∧
        HoldsText args.cells cltAt (clt.dropWhile (· = ' ') ++ ['\n']) ∧
        ∃ number, atoi flag = .ok number ∧ getFlag args.cells = decide (number ≠ 0)

theorem blank_room {path : List Char} (valid : ValidPath path) {start : Nat}
    (early : start ≤ cltAt) :
    start + (path.dropWhile (· = ' ') ++ ['\n']).length < unionSize := by
  have less : (path.dropWhile (· = ' ')).length ≤ path.length :=
    (List.dropWhile_suffix _).length_le
  have short := valid.short
  rw [List.length_append, List.length_singleton]
  simp only [cltAt, srvAt, filePathMax, unionSize] at *
  omega

theorem atoi_flag (flag : Bool) : ∃ number,
    atoi ([modeDigit flag].dropWhile (· = ' ') ++ ['\n']) = .ok number ∧
      decide (number ≠ 0) = flag := by
  cases flag
  · exact ⟨0, rfl, rfl⟩
  · exact ⟨1, rfl, rfl⟩

/-! ## What the own lines of a mode store

A line that this program wrote stores its value, when it is one of the mode: a path without its
leading blanks and with the line feed that `fgets` keeps, a number and a flag as they are. -/

section Lines

variable {args : ProjArgs} {val : List Char}

theorem stores_port (isMode : args.enc = false)
    (short : (cfgLine .port val).length < lineMaxLength) :
    storeCacheConfig args (cfgLine .port val) .port =
      .ok { args with
        cells := putText args.cells portAt (val.dropWhile (· = ' ') ++ ['\n']) } := by
  have other : ¬ args.enc = true := by
    rw [isMode]
    exact Bool.false_ne_true
  rw [storeCacheConfig, lineValue_cfgLine, ok_bind]
  exact (if_neg other).trans (strcpy_line args _ short)

theorem stores_baud (isMode : args.enc = false) {rate : Nat} (small : rate < 2 ^ 31)
    (cells : List Char) :
    storeCacheConfig { args with cells := cells } (cfgLine .br (Nat.toDigits 10 rate)) .br =
      .ok { args with cells := putNumber cells rate } := by
  have other : ¬ args.enc = true := by
    rw [isMode]
    exact Bool.false_ne_true
  have same : uint32OfInt (rate : Int) = rate := by
    rw [uint32OfInt]
    omega
  rw [storeCacheConfig, lineValue_cfgLine, ok_bind]
  refine (if_neg other).trans ?_
  rw [atoi_digits small, ok_bind, same]

theorem stores_srv (isMode : args.enc = true)
    (short : (cfgLine .sockSrv val).length < lineMaxLength) :
    storeCacheConfig args (cfgLine .sockSrv val) .sockSrv =
      .ok { args with
        cells := putText args.cells srvAt (val.dropWhile (· = ' ') ++ ['\n']) } := by
  rw [storeCacheConfig, lineValue_cfgLine, ok_bind]
  exact (if_pos isMode).trans (strcpy_line args _ short)

theorem stores_clt (isMode : args.enc = true)
    (short : (cfgLine .sockClt val).length < lineMaxLength) (cells : List Char) :
    storeCacheConfig { args with cells := cells } (cfgLine .sockClt val) .sockClt =
      .ok { args with cells := putText cells cltAt (val.dropWhile (· = ' ') ++ ['\n']) } := by
  rw [storeCacheConfig, lineValue_cfgLine, ok_bind]
  exact (if_pos isMode).trans (strcpy_line { args with cells := cells } _ short)

theorem stores_enc (isMode : args.enc = true) (flag : Bool) (cells : List Char) :
    storeCacheConfig { args with cells := cells } (cfgLine .sockEnc [modeDigit flag]) .sockEnc =
      .ok { args with cells := putFlag cells flag } := by
  obtain ⟨number, isNumber, same⟩ := atoi_flag flag
  rw [storeCacheConfig, lineValue_cfgLine, ok_bind]
  refine (if_pos isMode).trans ?_
  rw [isNumber, ok_bind, same]

end Lines

theorem stores_insecure {port baud : List Char} {args before : ProjArgs}
    (stored : (ArgSet.insecure port baud).StoredIn args)
    (valid : (ArgSet.insecure port baud).Valid) (isMode : before.enc = false)
    (short : (cfgLine .port (args.value .port)).length < lineMaxLength) :
    ∃ after, (ownEntries false args).foldlM
        (fun args e => storeCacheConfig args e.line e.key) before = .ok after ∧
      (ArgSet.insecure port baud).LoadedIn after := by
  obtain ⟨path, positive, isPositive, above⟩ := valid
  obtain ⟨-, holds, rate, isRate, numbers⟩ := stored
  obtain rfl := Except.ok.inj (isRate.symm.trans isPositive)
  have range := atoi_range isRate
  have small : uint32OfInt rate < 2 ^ 31 := by
    rw [uint32OfInt]
    omega
  have isPort : args.value .port = port := getText_of_holds holds path.proper
  have isBaud : args.value .br = Nat.toDigits 10 (uint32OfInt rate) := by
    rw [ProjArgs.value, numbers.getNumber]
  rw [isPort] at short
  have own : ownEntries false args = [⟨.port, args.value .port⟩, ⟨.br, args.value .br⟩] := rfl
  let text := port.dropWhile (· = ' ') ++ ['\n']
  refine ⟨{ before with
      cells := putNumber (putText before.cells portAt text) (uint32OfInt rate) },
    ?_, isMode, ?_, rate, isRate, numbers_putNumber (uint32OfInt_lt rate) _⟩
  · rw [own, isPort, isBaud, List.foldlM_cons, ConfigEntry.line, stores_port isMode short, ok_bind,
      List.foldlM_cons, ConfigEntry.line]
    dsimp only
    rw [stores_baud isMode small, ok_bind]
    rfl
  · have room := blank_room path (show portAt ≤ cltAt by decide)
    exact (holds_putText before.cells room).frame fun i low high =>
      byteAt_putNumber_of_outside low (Nat.lt_of_le_of_lt high room)

/-- The path to the server ends before the path to the client begins. -/
theorem srv_room {srv : List Char} (short : (cfgLine .sockSrv srv).length < lineMaxLength) :
    srvAt + (srv.dropWhile (· = ' ') ++ ['\n']).length < cltAt := by
  have less : (srv.dropWhile (· = ' ')).length ≤ srv.length :=
    (List.dropWhile_suffix _).length_le
  rw [length_cfgLine] at short
  rw [List.length_append, List.length_singleton]
  simp only [srvAt, cltAt, filePathMax, lineMaxLength] at *
  omega

theorem stores_secure {srv clt flag : List Char} {args before : ProjArgs}
    (stored : (ArgSet.secure srv clt flag).StoredIn args)
    (valid : (ArgSet.secure srv clt flag).Valid) (isMode : before.enc = true)
    (shortServer : (cfgLine .sockSrv (args.value .sockSrv)).length < lineMaxLength)
    (shortClient : (cfgLine .sockClt (args.value .sockClt)).length < lineMaxLength) :
    ∃ after, (ownEntries true args).foldlM
        (fun args e => storeCacheConfig args e.line e.key) before = .ok after ∧
      (ArgSet.secure srv clt flag).LoadedIn after := by
  obtain ⟨server, client, -⟩ := valid
  obtain ⟨-, holdsServer, holdsClient, number, isFlag, flagged⟩ := stored
  have isServer : args.value .sockSrv = srv := getText_of_holds holdsServer server.proper
  have isClient : args.value .sockClt = clt := getText_of_holds holdsClient client.proper
  have isEnc : args.value .sockEnc = [modeDigit (decide (number ≠ 0))] := by
    rw [ProjArgs.value, flagged]
  rw [isServer] at shortServer
  rw [isClient] at shortClient
  have own : ownEntries true args = [⟨.sockSrv, args.value .sockSrv⟩,
      ⟨.sockClt, args.value .sockClt⟩, ⟨.sockEnc, args.value .sockEnc⟩] := rfl
  have serverRoom := blank_room server (show srvAt ≤ cltAt by decide)
  have clientRoom := blank_room client (Nat.le_refl cltAt)
  have apart := srv_room shortServer
  let first := srv.dropWhile (· = ' ') ++ ['\n']
  let second := clt.dropWhile (· = ' ') ++ ['\n']
  refine ⟨{ before with
      cells := putFlag (putText (putText before.cells srvAt first) cltAt second) (number ≠ 0) },
    ?_, isMode, ?_, ?_, number, isFlag, getFlag_putFlag _ _⟩
  · rw [own, isServer, isClient, isEnc, List.foldlM_cons, ConfigEntry.line,
      stores_srv isMode shortServer, ok_bind, List.foldlM_cons, ConfigEntry.line]
    dsimp only
    rw [stores_clt isMode shortClient, ok_bind, List.foldlM_cons, ConfigEntry.line]
    dsimp only
    rw [stores_enc isMode, ok_bind]
    rfl
  · exact ((holds_putText _ serverRoom).frame fun i low high =>
      byteAt_putText_of_outside (by omega) (by omega)).putFlag (by decide) _
  · exact (holds_putText _ clientRoom).putFlag (by decide) _

/-- The lines of the given values restore them, but for the blanks at the front of paths.  The
values lie in a union, so the order of the stores has to be looked at for each mode. -/
theorem stores_own {set : ArgSet} {args before : ProjArgs} (stored : set.StoredIn args)
    (valid : set.Valid) (isMode : before.enc = set.mode)
    (sound : ∀ key, key.belongs set.mode = true → (⟨key, args.value key⟩ : ConfigEntry).Sound) :
    ∃ after, (ownEntries set.mode args).foldlM
        (fun args e => storeCacheConfig args e.line e.key) before = .ok after ∧
      set.LoadedIn after := by
  cases set with
  | insecure port baud => exact stores_insecure stored valid isMode (sound .port rfl).short
  | secure srv clt flag =>
      exact stores_secure stored valid isMode (sound .sockSrv rfl).short (sound .sockClt rfl).short

end Nwmng
