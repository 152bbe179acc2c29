/-
Module: Nwmng.Utils.StartupPersist
Purpose: Which arguments of a start persist: a later start without arguments restores them
and leaves the file as it is.
Trusted boundary: as in Nwmng.Utils.Startup
Main exports:
  Persists, Tidy, Written, ArgSet.Clean, startup_args_iff
-/
import Mathlib
import Nwmng.Utils.StartupMerge

namespace Nwmng

open Fallible

/-! ## The arguments after the trims -/

theorem notMem_blank {path : List Char} {char : Char} (absent : char ∉ path) :
    char ∉ path.dropWhile (· = ' ') := fun inside =>
  absent ((List.dropWhile_suffix _).mem inside)

theorem ProjArgs.trimmed_cells (args : ProjArgs) : args.trimmed.cells =
    trimNewline srvAt (trimNewline cltAt (trimNewline portAt args.cells)) := by
  rw [ProjArgs.trimmed]

theorem ProjArgs.trimmed_enc (args : ProjArgs) : args.trimmed.enc = args.enc := by
  rw [ProjArgs.trimmed]

theorem trimmed_insecure {port baud : List Char} {args : ProjArgs} (path : ValidPath port)
    (loaded : (ArgSet.insecure port baud).LoadedIn args) {rate : Int}
    (isRate : atoi baud = .ok rate) :
    args.trimmed.enc = false ∧
      getText args.trimmed.cells portAt = port.dropWhile (· = ' ') ∧
      (getNumber args.trimmed.cells = uint32OfInt rate ↔
        '\n' ∉ highBytes (uint32OfInt rate)) := by
  obtain ⟨mode, holds, other, isOther, numbers⟩ := loaded
  obtain rfl := Except.ok.inj (isRate.symm.trans isOther)
  have plain := notMem_blank path.plain
  have proper := notMem_blank path.proper
  have first := holds_trim (.inr holds) plain proper
  have second := first.trim plain cltAt
  rw [ProjArgs.trimmed_cells, ProjArgs.trimmed_enc]
  refine ⟨mode, getText_of_holds (second.trim plain srvAt) proper, ?_⟩
  exact number_trim ((numbers.trim (by decide)).trim (by decide)) second proper plain

/-- A trim behind the flag leaves it. -/
theorem getFlag_trim (cells : List Char) {start : Nat} (behind : 0 < start) :
    getFlag (trimNewline start cells) = getFlag cells := by
  rcases trimNewline_cases start cells with same | ⟨place, low, -, -, trimmed⟩
  · rw [same]
  · rw [trimmed, getFlag, getFlag, byteAt_putByte_of_ne (by omega) (by decide)]

theorem trimmed_secure {srv clt flag : List Char} {args : ProjArgs} (server : ValidPath srv)
    (client : ValidPath clt) (loaded : (ArgSet.secure srv clt flag).LoadedIn args) :
    args.trimmed.enc = true ∧
      getText args.trimmed.cells srvAt = srv.dropWhile (· = ' ') ∧
      getText args.trimmed.cells cltAt = clt.dropWhile (· = ' ') ∧
      ∃ number, atoi flag = .ok number ∧ getFlag args.trimmed.cells = decide (number ≠ 0) := by
  obtain ⟨mode, holdsServer, holdsClient, number, isFlag, flagged⟩ := loaded
  have plainServer := notMem_blank server.plain
  have plainClient := notMem_blank client.plain
  have properClient := notMem_blank client.proper
  have properServer := notMem_blank server.proper
  have serverEnds := ends_trim (ends_trim (.inr holdsServer) plainServer portAt) plainServer cltAt
  have clientEnds := ends_trim (.inr holdsClient) plainClient portAt
  have clientLast := (holds_trim clientEnds plainClient properClient).trim plainClient srvAt
  rw [ProjArgs.trimmed_cells, ProjArgs.trimmed_enc]
  refine ⟨mode, getText_of_holds (holds_trim serverEnds plainServer properServer) properServer,
    getText_of_holds clientLast properClient, number, isFlag, ?_⟩
  rw [getFlag_trim _ (by decide), getFlag_trim _ (by decide), getFlag_trim _ (by decide), flagged]

theorem head_of_holds {path cells : List Char} {start : Nat} (proper : nulChar ∉ path)
    (holds : HoldsText cells start (path ++ ['\n'])) : byteAt cells start ≠ nulChar := by
  have first := holds.2 0 (Nat.zero_le _)
  rw [Nat.add_zero] at first
  rw [first]
  cases path with
  | nil => decide
  | cons char path => exact fun same => proper (same ▸ List.mem_cons_self ..)

/-- The arguments that were read from their lines pass the sanity check. -/
theorem ArgSet.LoadedIn.complete {set : ArgSet} {args : ProjArgs} (loaded : set.LoadedIn args)
    (valid : set.Valid) : args.complete = true := by
  cases set with
  | insecure port baud =>
      obtain ⟨mode, holds, rate, isRate, numbers⟩ := loaded
      obtain ⟨path, positive, isPositive, above⟩ := valid
      obtain rfl := Except.ok.inj (isRate.symm.trans isPositive)
      have range := atoi_range isRate
      have nonzero : getNumber args.cells ≠ 0 := by
        rw [numbers.getNumber, uint32OfInt]
        omega
      rw [ProjArgs.complete, mode]
      exact decide_eq_true ⟨head_of_holds (notMem_blank path.proper) holds, nonzero⟩
  | secure srv clt flag =>
      obtain ⟨mode, server, client, -⟩ := loaded
      rw [ProjArgs.complete, mode]
      exact decide_eq_true ⟨head_of_holds (notMem_blank valid.1.proper) server,
        head_of_holds (notMem_blank valid.2.1.proper) client⟩

/-!
## Persistence

Two starts are compared: one with arguments, and one without that follows it.  The arguments
persist when the second one has them back and leaves the file as it is.
-/

/-- The arguments are back, and their mode. -/
def ArgSet.Restored : ArgSet → ProjArgs → Prop
  | .insecure port baud, args =>
      args.enc = false ∧ getText args.cells portAt = port ∧
        ∃ rate, atoi baud = .ok rate ∧ getNumber args.cells = uint32OfInt rate
  | .secure srv clt flag, args =>
      args.enc = true ∧ getText args.cells srvAt = srv ∧ getText args.cells cltAt = clt ∧
        ∃ number, atoi flag = .ok number ∧ getFlag args.cells = decide (number ≠ 0)

/-- The stored lines that hold a key. -/
def linesWith (key : ArgKey) (text : List Char) : List (List Char) :=
  (storedLines text).filter fun line => key.text <:+: line

/-- After a start with arguments, one without restores them and leaves the file; the values
of the other mode are kept; and each line holds one key, each key one line. -/
def Persists (file : Option (List Char)) (options : List (Char × List Char)) (set : ArgSet) :
    Prop :=
  ∃ first text second, setprojargs options file = .ok (first, text) ∧
    setprojargs [] (some text) = .ok (second, text) ∧ set.Restored second ∧
    (∀ key, key.belongs (!set.mode) = true → linesWith key text = linesWith key (file.getD [])) ∧
    (∀ line ∈ storedLines text, (keysIn line).length = 1) ∧
    ((storedLines text).flatMap keysIn).Nodup

/-- A file whose lines each hold one key, with a value that can be read, and each key in one
line. -/
def Tidy (file : Option (List Char)) : Prop :=
  ∃ entries, SoundEntries entries ∧ storedLines (file.getD []) = entries.map ConfigEntry.line

/-- A path whose line fits its buffer and holds no other key, and that starts with no blank.
Each of the three is a way in which the file gives back something else than what was stored. -/
structure CleanPath (key : ArgKey) (path : List Char) : Prop where
  fits : (cfgLine key path).length < lineMaxLength
  alone : ∀ other, other ≠ key → ¬ other.text <:+: path
  blank : path.head? ≠ some ' '

/-- Clean arguments; of the bytes of a baud rate, those above the lowest have no newline
before the first zero. -/
def ArgSet.Clean : ArgSet → Prop
  | .insecure port baud =>
      CleanPath .port port ∧
        ∀ rate, atoi baud = .ok rate → '\n' ∉ highBytes (uint32OfInt rate)
  | .secure srv clt _ => CleanPath .sockSrv srv ∧ CleanPath .sockClt clt

theorem dropBlanks_iff (path : List Char) :
    path.dropWhile (· = ' ') = path ↔ path.head? ≠ some ' ' := by
  cases path with
  | nil => simp
  | cons char path =>
      by_cases blank : char = ' '
      · have shorter : ((char :: path).dropWhile fun char => decide (char = ' ')).length ≤
            path.length := by
          rw [List.dropWhile_cons_of_pos (by simpa using blank)]
          exact (List.dropWhile_suffix _).length_le
        refine ⟨fun same => ?_, fun other => absurd (congrArg some blank) other⟩
        rw [same, List.length_cons] at shorter
        omega
      · have kept : (char :: path).dropWhile (fun char => decide (char = ' ')) = char :: path :=
          List.dropWhile_cons_of_neg (by simpa using blank)
        exact ⟨fun _ same => blank (Option.some.inj same), fun _ => kept⟩

theorem ArgSet.path_key {set : ArgSet} {path : ArgKey × List Char} (inside : path ∈ set.paths) :
    path.1 = .port ∨ path.1 = .sockSrv ∨ path.1 = .sockClt := by
  cases set with
  | insecure port baud =>
      rw [List.mem_singleton.1 inside]
      exact .inl rfl
  | secure srv clt flag =>
      rcases List.mem_cons.1 inside with rfl | inside
      · exact .inr (.inl rfl)
      · rw [List.mem_singleton.1 inside]
        exact .inr (.inr rfl)

theorem own_plain {set : ArgSet} {args : ProjArgs} (stored : set.StoredIn args)
    (valid : set.Valid) {key : ArgKey} (own : key.belongs set.mode = true) :
    '\n' ∉ args.value key :=
  (stored.own valid own).elim (fun inside => (valid.path inside).plain) fun sound => sound.plain

/-- With the paths in lines that fit and hold no other key, all given values are sound. -/
theorem own_sound {set : ArgSet} {args : ProjArgs} (stored : set.StoredIn args)
    (valid : set.Valid)
    (fits : ∀ path ∈ set.paths, (cfgLine path.1 path.2).length < lineMaxLength)
    (alone : ∀ path ∈ set.paths, keysIn (cfgLine path.1 path.2) = [path.1]) (key : ArgKey)
    (own : key.belongs set.mode = true) : (⟨key, args.value key⟩ : ConfigEntry).Sound := by
  rcases stored.own valid own with inside | sound
  · have isPath := ArgSet.path_key inside
    exact
      { plain := (valid.path inside).plain
        short := fits _ inside
        own := alone _ inside
        digit := fun isEnc => by
          rcases isPath with same | same | same <;> exact nomatch same.symm.trans isEnc
        number := fun isNumber => by
          rcases isPath with same | same | same <;> rcases isNumber with other | other <;>
            exact nomatch same.symm.trans other }
  · exact sound

theorem linesWith_eq {entries : List ConfigEntry} (sound : ∀ e ∈ entries, e.Sound)
    {text : List Char} (stored : storedLines text = entries.map ConfigEntry.line) (key : ArgKey) :
    linesWith key text = (entries.filter fun e => e.key = key).map ConfigEntry.line := by
  have holds : ∀ e ∈ entries, decide (key.text <:+: e.line) = decide (e.key = key) :=
    fun e inside => decide_eq_decide.2 <| by
      have own := (sound e inside).own
      constructor
      · intro there
        have listed : key ∈ keysIn e.line :=
          List.mem_filter.2 ⟨mem_argKeys key, decide_eq_true there⟩
        rw [own] at listed
        exact (List.mem_singleton.1 listed).symm
      · rintro rfl
        exact (mem_cfgLine_iff e.key e.key e.value).2 (.inl rfl)
  rw [linesWith, stored, List.filter_map]
  exact congrArg _ (List.filter_congr holds)

section Merged

variable {mode : Bool} {args : ProjArgs} {entries : List ConfigEntry}

theorem kept_other {key : ArgKey} (noEnc : key ≠ .enc) (noOwn : key.belongs mode = false)
    (entries : List ConfigEntry) :
    ((entries.filterMap (keepEntry mode)).filter fun e => e.key = key) =
      entries.filter fun e => e.key = key := by
  induction entries with
  | nil => rfl
  | cons e entries ih =>
      by_cases isEnc : e.key = .enc
      · have kept : keepEntry mode e = some ⟨.enc, [modeDigit mode]⟩ := if_pos isEnc
        have different : ¬ e.key = key := fun same => noEnc (same.symm.trans isEnc)
        rw [List.filterMap_cons_some kept,
          List.filter_cons_of_neg (by simpa using Ne.symm noEnc),
          List.filter_cons_of_neg (by simpa using different), ih]
      · cases own : e.key.belongs mode with
        | true =>
            have dropped : keepEntry mode e = none := (if_neg isEnc).trans (if_pos own)
            have different : ¬ e.key = key := fun same => by
              rw [same, noOwn] at own
              exact nomatch own
            rw [List.filterMap_cons_none dropped,
              List.filter_cons_of_neg (by simpa using different), ih]
        | false =>
            have kept : keepEntry mode e = some e :=
              (if_neg isEnc).trans (if_neg (by rw [own]; decide))
            rw [List.filterMap_cons_some kept, List.filter_cons, List.filter_cons, ih]

/-- Entries of the other mode are kept. -/
theorem merged_other {key : ArgKey} (other : key.belongs (!mode) = true) :
    ((mergedEntries mode args entries).filter fun e => e.key = key) =
      entries.filter fun e => e.key = key := by
  have noEnc : key ≠ .enc := fun same => by
    subst same
    exact nomatch other
  have noOwn : key.belongs mode = false := by
    rw [belongs_other mode noEnc] at other
    simpa using other
  have kept := kept_other noEnc noOwn entries
  have added : ((newEntries mode (decide (.enc ∈ entries.map ConfigEntry.key)) args).filter
      fun e => e.key = key) = [] := by
    refine List.filter_eq_nil_iff.2 fun e inside => ?_
    obtain ⟨own, chosen, rfl⟩ := List.mem_map.1 inside
    have isChosen := (List.mem_filter.1 chosen).2
    refine fun same => ?_
    obtain rfl := of_decide_eq_true same
    rw [if_neg noEnc, noOwn] at isChosen
    exact nomatch isChosen
  rw [mergedEntries, List.filter_append, kept, added, List.append_nil]

end Merged

section Starts

variable {set : ArgSet} {options : List (Char × List Char)} {file : Option (List Char)}
  {entries : List ConfigEntry} {s : Start}

/-- With the paths in lines that fit and hold no other key, a start with the arguments and
one without come to the same file. -/
theorem both_starts (valid : set.Valid) (given : storeArgs options noArgs = .ok s)
    (start : GivenStart set s) (sound : SoundEntries entries)
    (stored : storedLines (file.getD []) = entries.map ConfigEntry.line)
    (own : ∀ key, key.belongs set.mode = true → (⟨key, s.args.value key⟩ : ConfigEntry).Sound) :
    ∃ text second, setprojargs options file = .ok (s.args.trimmed, text) ∧
      setprojargs [] (some text) = .ok (second.trimmed, text) ∧ set.LoadedIn second ∧
      SoundEntries (mergedEntries set.mode s.args entries) ∧
      storedLines text = (mergedEntries set.mode s.args entries).map ConfigEntry.line := by
  have isMode := start.stored.enc
  have merged := sound_merged isMode sound own
  obtain ⟨middle, front, frontMode⟩ := stores_mode
    (fun e inside => merged.1 e (by
      rw [mergedEntries_eq isMode]
      exact List.mem_append_left _ inside))
    (fun e inside isEnc => front_mode inside isEnc) noArgs.args
  rw [if_pos enc_mem_front] at frontMode
  obtain ⟨second, back, loaded⟩ := stores_own start.stored valid frontMode own
  have stores : (mergedEntries set.mode s.args entries).foldlM
      (fun args e => storeCacheConfig args e.line e.key) noArgs.args = .ok second := by
    rw [mergedEntries_eq isMode, List.foldlM_append, front, ok_bind, back]
  refine ⟨configCacheComment.flatten ++ linesOf (mergedEntries set.mode s.args entries), second,
    setprojargs_fits valid given start sound stored fun key belongs => (own key belongs).short,
    setprojargs_restart merged stores (loaded.complete valid), loaded, merged, ?_⟩
  refine storedLines_written fun line inside => ?_
  obtain ⟨e, listed, rfl⟩ := List.mem_map.1 inside
  exact ⟨wholeLine_cfgLine (merged.1 e listed).plain (merged.1 e listed).short,
    head?_cfgLine e.key e.value⟩

/-- The lines that a start writes fit their buffers. -/
theorem fits_of_success (valid : set.Valid) (given : storeArgs options noArgs = .ok s)
    (start : GivenStart set s) (sound : SoundEntries entries)
    (stored : storedLines (file.getD []) = entries.map ConfigEntry.line) {args : ProjArgs}
    {text : List Char} (success : setprojargs options file = .ok (args, text)) {key : ArgKey}
    (belongs : key.belongs set.mode = true) :
    (cfgLine key (s.args.value key)).length < lineMaxLength := by
  rw [setprojargs_given valid given start sound stored] at success
  obtain ⟨after, appended, -⟩ := bind_ok.1 success
  refine appends_short argKeys_nodup appended key (mem_argKeys key) ?_
  have noEnc : key ≠ .enc := fun same => by
    subst same
    exact nomatch belongs
  show (if key = .enc then _ else s.dirty key) = true
  rw [if_neg noEnc, start.dirty, belongs, Bool.or_true]

/-- Where each line of the file that is left holds one key, the paths hold no other. -/
theorem alone_of_single (valid : set.Valid) (given : storeArgs options noArgs = .ok s)
    (start : GivenStart set s) (sound : SoundEntries entries)
    (stored : storedLines (file.getD []) = entries.map ConfigEntry.line) {args : ProjArgs}
    {text : List Char} (success : setprojargs options file = .ok (args, text))
    (single : ∀ line ∈ storedLines text, (keysIn line).length = 1)
    {path : ArgKey × List Char} (inside : path ∈ set.paths) :
    keysIn (cfgLine path.1 path.2) = [path.1] := by
  have fits : ∀ key, key.belongs set.mode = true →
      (cfgLine key (s.args.value key)).length < lineMaxLength := fun key =>
    fits_of_success valid given start sound stored success
  rw [setprojargs_fits valid given start sound stored fits] at success
  obtain ⟨-, rfl⟩ := Prod.mk.inj (Except.ok.inj success)
  have isMode := start.stored.enc
  have whole : ∀ line ∈ (mergedEntries set.mode s.args entries).map ConfigEntry.line,
      WholeLine line ∧ line.head? ≠ some '#' := fun line inside => by
    obtain ⟨e, listed, rfl⟩ := List.mem_map.1 inside
    have digit := @sound_digit .enc (.inl rfl) set.mode
    have written := @merged_forall set.mode s.args entries
      (fun e => '\n' ∉ e.value ∧ e.line.length < lineMaxLength) isMode ⟨digit.plain, digit.short⟩
      (fun e old => ⟨(sound.1 e old).plain, (sound.1 e old).short⟩)
      (fun key belongs => ⟨own_plain start.stored valid belongs, fits key belongs⟩) e listed
    exact ⟨wholeLine_cfgLine written.1 written.2, head?_cfgLine e.key e.value⟩
  obtain ⟨belongs, value⟩ := start.stored.path valid inside
  have listed : cfgLine path.1 path.2 ∈
      (mergedEntries set.mode s.args entries).map ConfigEntry.line := by
    rw [mergedEntries_eq isMode, List.map_append]
    refine List.mem_append_right _ (List.mem_map.2 ⟨⟨path.1, s.args.value path.1⟩,
      List.mem_map.2 ⟨path.1, List.mem_filter.2 ⟨mem_argKeys _, belongs⟩, rfl⟩, ?_⟩)
    rw [ConfigEntry.line, value]
  have one := single (cfgLine path.1 path.2) ((storedLines_written whole).symm ▸ listed)
  have ownKey : path.1 ∈ keysIn (cfgLine path.1 path.2) :=
    List.mem_filter.2 ⟨mem_argKeys _, decide_eq_true ((mem_cfgLine_iff ..).2 (.inl rfl))⟩
  obtain ⟨only, isOnly⟩ := List.length_eq_one_iff.1 one
  rw [isOnly] at ownKey ⊢
  rw [List.mem_singleton.1 ownKey]

end Starts

theorem ArgSet.Clean.path {set : ArgSet} (clean : set.Clean) {path : ArgKey × List Char}
    (inside : path ∈ set.paths) : CleanPath path.1 path.2 := by
  cases set with
  | insecure port baud =>
      rw [List.mem_singleton.1 inside]
      exact clean.1
  | secure srv clt flag =>
      rcases List.mem_cons.1 inside with rfl | inside
      · exact clean.1
      · rw [List.mem_singleton.1 inside]
        exact clean.2

/-- The arguments come back from their lines exactly when they are clean. -/
theorem restored_iff {set : ArgSet} (valid : set.Valid) {args : ProjArgs}
    (loaded : set.LoadedIn args)
    (fits : ∀ path ∈ set.paths, (cfgLine path.1 path.2).length < lineMaxLength)
    (alone : ∀ path ∈ set.paths, keysIn (cfgLine path.1 path.2) = [path.1]) :
    set.Restored args.trimmed ↔ set.Clean := by
  have cleanPath : ∀ path ∈ set.paths,
      (path.2.dropWhile (· = ' ') = path.2 ↔ CleanPath path.1 path.2) := fun path inside =>
    (dropBlanks_iff path.2).trans
      ⟨fun blank => ⟨fits path inside, keysIn_cfgLine.1 (alone path inside), blank⟩,
        fun clean => clean.blank⟩
  cases set with
  | insecure port baud =>
      obtain ⟨path, rate, isRate, -⟩ := valid
      obtain ⟨mode, isPort, isNumber⟩ := trimmed_insecure path loaded isRate
      have portClean := cleanPath (.port, port) (List.mem_cons_self ..)
      constructor
      · rintro ⟨-, samePort, other, isOther, sameNumber⟩
        obtain rfl := Except.ok.inj (isRate.symm.trans isOther)
        refine ⟨portClean.1 (isPort.symm.trans samePort), fun other isOther => ?_⟩
        obtain rfl := Except.ok.inj (isRate.symm.trans isOther)
        exact isNumber.1 sameNumber
      · rintro ⟨port, number⟩
        exact ⟨mode, isPort.trans (portClean.2 port), rate, isRate,
          isNumber.2 (number rate isRate)⟩
  | secure srv clt flag =>
      obtain ⟨server, client, -⟩ := valid
      obtain ⟨mode, isServer, isClient, flagged⟩ := trimmed_secure server client loaded
      have serverClean := cleanPath (.sockSrv, srv) (List.mem_cons_self ..)
      have clientClean := cleanPath (.sockClt, clt)
        (List.mem_cons_of_mem _ (List.mem_cons_self ..))
      constructor
      · rintro ⟨-, sameServer, sameClient, -⟩
        exact ⟨serverClean.1 (isServer.symm.trans sameServer),
          clientClean.1 (isClient.symm.trans sameClient)⟩
      · rintro ⟨server, client⟩
        exact ⟨mode, isServer.trans (serverClean.2 server),
          isClient.trans (clientClean.2 client), flagged⟩

/-- On a tidy file, arguments persist exactly when they are clean; and clean arguments leave
a tidy file. -/
theorem persists_iff {set : ArgSet} (valid : set.Valid)
    {options : List (Char × List Char)} (given : set.GivenBy options)
    {file : Option (List Char)} (tidy : Tidy file) :
    (Persists file options set ↔ set.Clean) ∧
      (set.Clean → ∃ args text, setprojargs options file = .ok (args, text) ∧
        Tidy (some text)) := by
  obtain ⟨entries, sound, stored⟩ := tidy
  obtain ⟨s, taken, start⟩ := storeArgs_given valid given
  have isMode := start.stored.enc
  have succeeds : (∀ path ∈ set.paths, (cfgLine path.1 path.2).length < lineMaxLength) →
      (∀ path ∈ set.paths, keysIn (cfgLine path.1 path.2) = [path.1]) → _ := fun fits alone =>
    both_starts valid taken start sound stored (own_sound start.stored valid fits alone)
  have cleanFits : set.Clean →
      ∀ path ∈ set.paths, (cfgLine path.1 path.2).length < lineMaxLength :=
    fun clean path inside => (clean.path inside).fits
  have cleanAlone : set.Clean →
      ∀ path ∈ set.paths, keysIn (cfgLine path.1 path.2) = [path.1] :=
    fun clean path inside => keysIn_cfgLine.2 (clean.path inside).alone
  refine ⟨⟨?_, ?_⟩, ?_⟩
  · rintro ⟨first, text, second, given, restarted, restored, -, single, -⟩
    have fits : ∀ path ∈ set.paths, (cfgLine path.1 path.2).length < lineMaxLength :=
      fun path inside => by
        obtain ⟨belongs, value⟩ := start.stored.path valid inside
        rw [← value]
        exact fits_of_success valid taken start sound stored given belongs
    have alone : ∀ path ∈ set.paths, keysIn (cfgLine path.1 path.2) = [path.1] :=
      fun path inside => alone_of_single valid taken start sound stored given single inside
    obtain ⟨same, loadedArgs, given', restarted', loaded, -⟩ := succeeds fits alone
    obtain ⟨-, rfl⟩ := Prod.mk.inj (Except.ok.inj (given.symm.trans given'))
    obtain ⟨rfl, -⟩ := Prod.mk.inj (Except.ok.inj (restarted.symm.trans restarted'))
    exact (restored_iff valid loaded fits alone).1 restored
  · intro clean
    obtain ⟨text, second, given, restarted, loaded, merged, left⟩ :=
      succeeds (cleanFits clean) (cleanAlone clean)
    have keys : (storedLines text).flatMap keysIn =
        (mergedEntries set.mode s.args entries).map ConfigEntry.key := by
      rw [left, List.flatMap_map, List.map_eq_flatMap]
      exact List.flatMap_congr fun e listed => (merged.1 e listed).own
    refine ⟨_, text, _, given, restarted,
      (restored_iff valid loaded (cleanFits clean) (cleanAlone clean)).2 clean, ?_, ?_, ?_⟩
    · intro key other
      rw [linesWith_eq merged.1 left, linesWith_eq sound.1 stored, merged_other other]
    · intro line inside
      rw [left] at inside
      obtain ⟨e, listed, rfl⟩ := List.mem_map.1 inside
      rw [(merged.1 e listed).own]
      rfl
    · rw [keys]
      exact merged.2
  · intro clean
    obtain ⟨text, -, given, -, -, merged, left⟩ := succeeds (cleanFits clean) (cleanAlone clean)
    exact ⟨_, text, given, _, merged, left⟩

/-- A start without arguments leaves a tidy file. -/
theorem tidy_restart {file : Option (List Char)} (tidy : Tidy file) {args : ProjArgs}
    {text : List Char} (restarted : setprojargs [] file = .ok (args, text)) :
    Tidy (some text) := by
  obtain ⟨entries, sound, stored⟩ := tidy
  have loaded : (fileLines (file.getD [])).foldlM loadLine noArgs =
      entries.foldlM (fun args e => storeCacheConfig args e.line e.key) noArgs.args >>=
        fun args => .ok { args := args, dirty := fun _ => false, buf := linesOf entries } := by
    rw [loadLines_stored]
    exact (congrArg (fun lines => List.foldlM loadLine noArgs lines) stored).trans
      (loads_clean sound.1 fun _ => rfl)
  rw [setprojargs] at restarted
  dsimp only at restarted
  rw [show storeArgs [] noArgs = .ok noArgs from rfl, ok_bind, loaded] at restarted
  obtain ⟨state, isState, restarted⟩ := bind_ok.1 restarted
  obtain ⟨after, -, isState⟩ := bind_ok.1 isState
  obtain rfl := Except.ok.inj isState
  obtain ⟨ended, appended, -, buf⟩ := appends_ok argKeys_nodup
    { args := after, dirty := fun _ => false, buf := linesOf entries }
    fun _ _ impossible => by cases impossible
  split at restarted
  · cases restarted
  · rw [appended, ok_bind] at restarted
    split at restarted
    · cases restarted
    · obtain ⟨-, rfl⟩ := Prod.mk.inj (Except.ok.inj restarted)
      have isBuf : ended.buf = linesOf entries := buf.trans (List.append_nil _)
      refine ⟨entries, sound, ?_⟩
      rw [isBuf]
      refine storedLines_written fun line inside => ?_
      obtain ⟨e, listed, rfl⟩ := List.mem_map.1 inside
      exact ⟨wholeLine_cfgLine (sound.1 e listed).plain (sound.1 e listed).short,
        head?_cfgLine e.key e.value⟩

/-- The files that starts with clean arguments leave, with starts without arguments and
starts that stop before they write in between. -/
inductive Written : Option (List Char) → Prop
  | absent : Written none
  | stopped {file : Option (List Char)} : Written file → Written (some (file.getD []))
  | restarted {file : Option (List Char)} {args : ProjArgs} {text : List Char} :
      Written file → setprojargs [] file = .ok (args, text) → Written (some text)
  | started {file : Option (List Char)} {args : ProjArgs} {text : List Char} {set : ArgSet}
      {options : List (Char × List Char)} :
      Written file → set.Valid → set.GivenBy options → set.Clean →
        setprojargs options file = .ok (args, text) → Written (some text)

theorem Written.tidy {file : Option (List Char)} (written : Written file) : Tidy file := by
  induction written with
  | absent => exact ⟨[], ⟨fun _ impossible => (nomatch impossible), List.nodup_nil⟩, rfl⟩
  | stopped _ tidy => exact tidy
  | restarted _ success tidy => exact tidy_restart tidy success
  | started _ valid given clean success tidy =>
      obtain ⟨args, text, same, left⟩ := (persists_iff valid given tidy).2 clean
      obtain ⟨-, rfl⟩ := Prod.mk.inj (Except.ok.inj (success.symm.trans same))
      exact left

/-- Every file that starts with clean arguments leave is tidy, and on a tidy file arguments
persist exactly when they are clean.  The second start reads what the first one has written, so
both directions go through the file. -/
theorem startup_args_iff {set : ArgSet} (valid : set.Valid)
    {options : List (Char × List Char)} (given : set.GivenBy options) :
    (∀ file, Written file → Tidy file) ∧
      ∀ file, Tidy file → (Persists file options set ↔ set.Clean) :=
  ⟨fun _ written => written.tidy, fun _ tidy => (persists_iff valid given tidy).1⟩

theorem startup_args_serial :
    Persists none [('p', "/dev/ttyUSB0".toList), ('b', "115200".toList), ('m', "i".toList)]
      (.insecure "/dev/ttyUSB0".toList "115200".toList) := by
  have valid : ArgSet.Valid (.insecure "/dev/ttyUSB0".toList "115200".toList) :=
    ⟨⟨by decide, by decide, by decide, by decide⟩, 115200, by decide, by decide⟩
  have given : ArgSet.GivenBy (.insecure "/dev/ttyUSB0".toList "115200".toList)
      [('p', "/dev/ttyUSB0".toList), ('b', "115200".toList), ('m', "i".toList)] :=
    ⟨[], by decide⟩
  have clean : ArgSet.Clean (.insecure "/dev/ttyUSB0".toList "115200".toList) :=
    ⟨⟨by decide, keysIn_cfgLine.1 (by decide +kernel), by decide⟩, fun rate isRate => by
      obtain rfl := Except.ok.inj
        (isRate.symm.trans (show atoi "115200".toList = .ok 115200 by decide))
      decide⟩
  exact ((startup_args_iff valid given).2 none Written.absent.tidy).2 clean

/-- A server path that holds the key of the port. -/
theorem startup_args_port_path : ¬ ∀ (set : ArgSet) (options : List (Char × List Char))
    (file : Option (List Char)), set.Valid → set.GivenBy options → Written file →
      Persists file options set := by
  intro all
  have valid : ArgSet.Valid (.secure "/tmp/Port".toList "/tmp/clt".toList "1".toList) :=
    ⟨⟨by decide, by decide, by decide, by decide⟩, ⟨by decide, by decide, by decide, by decide⟩,
      1, by decide⟩
  have given : ArgSet.GivenBy (.secure "/tmp/Port".toList "/tmp/clt".toList "1".toList)
      (ArgSet.options [] (.secure "/tmp/Port".toList "/tmp/clt".toList "1".toList)) :=
    ⟨[], .refl _⟩
  obtain ⟨s, taken, start⟩ := storeArgs_given valid given
  obtain ⟨entries, sound, stored⟩ := Written.absent.tidy
  obtain ⟨first, text, -, success, -, -, -, single, -⟩ := all _ _ none valid given .absent
  have alone := alone_of_single valid taken start sound stored success single
    (List.mem_cons_self ..)
  have other : keysIn (cfgLine .sockSrv "/tmp/Port".toList) ≠ [.sockSrv] := by decide +kernel
  exact other alone

end Nwmng
