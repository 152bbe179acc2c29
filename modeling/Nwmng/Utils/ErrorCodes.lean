/-
Module: Nwmng.Utils.ErrorCodes
Purpose: The error codes of `err.c`: source file, line and code packed into 32 bits, with
the file found by searching the base name of its path for the entries of a table.
Trusted boundary: a `Char` stands for a byte; 32 bits for an error
Main exports:
  err, errof, getErrLine, getErrFileName, err_decodes_iff
-/
import Mathlib.Data.Nat.Bitwise
import Mathlib.Data.List.DropRight
import Mathlib.Data.List.Infix

namespace Nwmng

/-!
## The code

A code packs the place in a table of file names, the line and an error code into one word.  The
table is searched by the name that a path contains, not by the whole path.
-/

/-- `source_files`. -/
def sourceFiles : List (List Char) :=
  ["main", "mng", "models", "dev_add", "nwk", "bgevt_hdr", "dev_bl", "stat", "demo",
    "dev_config", "as_rmend", "as_end", "as_setpub", "as_bindappkey", "as_rm",
    "as_setconfig", "as_getdcd", "as_addappkey", "as_addsub", "cfg", "cfgdb",
    "generic_parser", "json_parser", "cli", "cli_print", "src_names", "utils_print",
    "utils", "err", "logging", "startup", "bg_uart_cbs", "socket_handler", "gecko_bglib",
    "uart_posix", "sl_bgapi", "sl_security", "main", "sl_poll", "uart_win", "uart_posix",
    "platform", "read_char"].map String.toList

def maxErrorCodeNumBits : UInt32 := 10

def maxLinesNumBits : UInt32 := 14

def maxErrorCodeNum : UInt32 := 1023

def maxLineNum : UInt32 := 16383

def maxFileNum : UInt32 := 255

/-- `strrchr(text, sep) + 1`. -/
def afterLast (sep : Char) : List Char → Option (List Char)
  | [] => none
  | char :: rest =>
      match afterLast sep rest with
      | some tail => some tail
      | none => if char = sep then some rest else none

/-- The part of a path that `file_name_match` searches. -/
def baseName (path : List Char) : List Char :=
  match afterLast '/' path with
  | some tail => tail
  | none => (afterLast '\x5c' path).getD path

/-- `file_name_match`; `none` is the NULL path. -/
def fileNameMatch (filePath : Option (List Char)) (name : List Char) : Bool :=
  match filePath with
  | none => false
  | some path => decide (name <:+: baseName path)

/-- `get_file_index`; `none` is its failing assertion. -/
def getFileIndex (file : Option (List Char)) : Option UInt32 :=
  (sourceFiles.findIdx? (fileNameMatch file)).map UInt32.ofNat

/-- `errof`. -/
def errof (ec : UInt32) : UInt32 := ec &&& maxErrorCodeNum

/-- `get_err_line`. -/
def getErrLine (ec : UInt32) : UInt32 := ec >>> maxErrorCodeNumBits &&& maxLineNum

/-- `get_err_file_name`. -/
def getErrFileName (ec : UInt32) : Option (List Char) :=
  sourceFiles[(ec >>> (maxLinesNumBits + maxErrorCodeNumBits) &&& maxFileNum).toNat]?

/-- `__err`: a code that carries a place already is passed on, so that the place of the first
report stays. -/
def err (file : Option (List Char)) (line ec : UInt32) : Option UInt32 :=
  if ec = 0 ∨ ec &&& ~~~maxErrorCodeNum ≠ 0 then some ec
  else
    (getFileIndex file).map fun index =>
      index <<< (maxErrorCodeNumBits + maxLinesNumBits)
        ||| line <<< maxErrorCodeNumBits ||| (ec &&& maxErrorCodeNum)

/-! ## The packed fields -/

theorem errof_toNat (ec : UInt32) : (errof ec).toNat = ec.toNat % 2 ^ 10 :=
  (UInt32.toNat_and ec maxErrorCodeNum).trans (Nat.and_two_pow_sub_one_eq_mod _ 10)

theorem getErrLine_toNat (ec : UInt32) :
    (getErrLine ec).toNat = ec.toNat / 2 ^ 10 % 2 ^ 14 :=
  calc (getErrLine ec).toNat
      = (ec >>> maxErrorCodeNumBits).toNat &&& (2 ^ 14 - 1) := UInt32.toNat_and ..
    _ = (ec >>> maxErrorCodeNumBits).toNat % 2 ^ 14 := Nat.and_two_pow_sub_one_eq_mod _ 14
    _ = ec.toNat / 2 ^ 10 % 2 ^ 14 := by
        rw [UInt32.toNat_shiftRight]
        exact congrArg (· % 2 ^ 14) (Nat.shiftRight_eq_div_pow ..)

theorem getErrFileName_toNat (ec : UInt32) :
    getErrFileName ec = sourceFiles[ec.toNat / 2 ^ 24]? := by
  have field : (ec >>> (maxLinesNumBits + maxErrorCodeNumBits) &&& maxFileNum).toNat =
      ec.toNat / 2 ^ 24 :=
    calc (ec >>> (maxLinesNumBits + maxErrorCodeNumBits) &&& maxFileNum).toNat
        = (ec >>> (24 : UInt32)).toNat &&& (2 ^ 8 - 1) := UInt32.toNat_and ..
      _ = (ec >>> (24 : UInt32)).toNat % 2 ^ 8 := Nat.and_two_pow_sub_one_eq_mod _ 8
      _ = ec.toNat / 2 ^ 24 % 2 ^ 8 := by
          rw [UInt32.toNat_shiftRight]
          exact congrArg (· % 2 ^ 8) (Nat.shiftRight_eq_div_pow ..)
      _ = ec.toNat / 2 ^ 24 := by
          have := ec.toNat_lt
          omega
  rw [getErrFileName, field]

theorem split_by_mask (ec mask : UInt32) : ec = ec &&& mask ||| ec &&& ~~~mask := by
  refine UInt32.toBitVec_inj.1 ?_
  ext bit
  cases h : mask.toBitVec[bit] <;> simp [h]

/-- A plain code is one that fits below the line. -/
theorem plain_iff (ec : UInt32) : ec &&& ~~~maxErrorCodeNum = 0 ↔ ec.toNat < 2 ^ 10 := by
  constructor
  · intro none_above
    have own : ec = errof ec := by
      calc ec = ec &&& maxErrorCodeNum ||| ec &&& ~~~maxErrorCodeNum := split_by_mask ..
        _ = errof ec := by rw [none_above, UInt32.or_zero, errof]
    rw [own, errof_toNat]
    exact Nat.mod_lt _ (by decide)
  · intro small
    have own : errof ec = ec :=
      UInt32.toNat_inj.1 ((errof_toNat ec).trans (Nat.mod_eq_of_lt small))
    calc ec &&& ~~~maxErrorCodeNum = ec &&& maxErrorCodeNum &&& ~~~maxErrorCodeNum :=
          congrArg (· &&& ~~~maxErrorCodeNum) own.symm
      _ = 0 := by rw [UInt32.and_assoc, UInt32.and_not_self, UInt32.and_zero]

theorem packed_toNat {index line ec : UInt32} (file : index.toNat < 2 ^ 8)
    (lines : line.toNat < 2 ^ 14) (code : ec.toNat < 2 ^ 10) :
    (index <<< (maxErrorCodeNumBits + maxLinesNumBits)
        ||| line <<< maxErrorCodeNumBits ||| (ec &&& maxErrorCodeNum)).toNat =
      index.toNat * 2 ^ 24 + (line.toNat * 2 ^ 10 + ec.toNat) := by
  have high : (index <<< (maxErrorCodeNumBits + maxLinesNumBits)).toNat =
      index.toNat * 2 ^ 24 := by
    rw [UInt32.toNat_shiftLeft]
    have : index.toNat * 2 ^ 24 % 2 ^ 32 = index.toNat * 2 ^ 24 := by omega
    simpa [maxErrorCodeNumBits, maxLinesNumBits, Nat.shiftLeft_eq] using this
  have middle : (line <<< maxErrorCodeNumBits).toNat = line.toNat * 2 ^ 10 := by
    rw [UInt32.toNat_shiftLeft]
    have : line.toNat * 2 ^ 10 % 2 ^ 32 = line.toNat * 2 ^ 10 := by omega
    simpa [maxErrorCodeNumBits, Nat.shiftLeft_eq] using this
  have low : (ec &&& maxErrorCodeNum).toNat = ec.toNat :=
    (errof_toNat ec).trans (Nat.mod_eq_of_lt code)
  rw [UInt32.toNat_or, UInt32.toNat_or, high, middle, low, Nat.lor_assoc]
  calc index.toNat * 2 ^ 24 ||| (line.toNat * 2 ^ 10 ||| ec.toNat)
      = index.toNat * 2 ^ 24 ||| (line.toNat * 2 ^ 10 + ec.toNat) := by
        rw [← Nat.shiftLeft_eq line.toNat, ← Nat.shiftLeft_add_eq_or_of_lt code]
    _ = index.toNat * 2 ^ 24 + (line.toNat * 2 ^ 10 + ec.toNat) := by
        have fits : line.toNat * 2 ^ 10 + ec.toNat < 2 ^ 24 := by omega
        rw [← Nat.shiftLeft_eq, ← Nat.shiftLeft_add_eq_or_of_lt fits]

/-- What a fresh error decodes to: its own code and line, and the first entry of the
table that the base name contains. -/
theorem err_fields {file : Option (List Char)} {line ec index : UInt32}
    (found : getFileIndex file = some index) (lines : line.toNat < 2 ^ 14)
    (nonzero : ec ≠ 0) (code : ec.toNat < 2 ^ 10) :
    ∃ e, err file line ec = some e ∧ errof e = ec ∧ getErrLine e = line ∧
      getErrFileName e = sourceFiles.find? (fileNameMatch file) ∧
      (line ≠ 0 → ∀ file2 line2, err file2 line2 e = some e) := by
  obtain ⟨position, first, rfl⟩ := Option.map_eq_some_iff.1 found
  have inside : position < sourceFiles.length :=
    (List.findIdx?_eq_some_iff_getElem.1 first).1
  have small : position < 43 := inside
  have exactly : (UInt32.ofNat position).toNat = position :=
    UInt32.toNat_ofNat_of_lt' (by have : UInt32.size = 2 ^ 32 := rfl; omega)
  have plain : ¬ (ec = 0 ∨ ec &&& ~~~maxErrorCodeNum ≠ 0) :=
    not_or.2 ⟨nonzero, not_not.2 ((plain_iff ec).2 code)⟩
  obtain ⟨e, packing⟩ : ∃ e, err file line ec = some e ∧
      e = UInt32.ofNat position <<< (maxErrorCodeNumBits + maxLinesNumBits)
        ||| line <<< maxErrorCodeNumBits ||| (ec &&& maxErrorCodeNum) :=
    ⟨_, by rw [err, if_neg plain, found]; rfl, rfl⟩
  have value : e.toNat = position * 2 ^ 24 + (line.toNat * 2 ^ 10 + ec.toNat) := by
    rw [packing.2, packed_toNat (by omega) lines code, exactly]
  refine ⟨e, packing.1, UInt32.toNat_inj.1 ?_, UInt32.toNat_inj.1 ?_, ?_, ?_⟩
  · rw [errof_toNat, value]
    omega
  · rw [getErrLine_toNat, value]
    omega
  · have field : e.toNat / 2 ^ 24 = position := by
      rw [value]
      omega
    rw [getErrFileName_toNat, field, List.find?_eq_bind_findIdx?_getElem?, first]
    rfl
  · intro later file2 line2
    have positive : line.toNat ≠ 0 := fun zero => later (UInt32.toNat_inj.1 zero)
    have recorded : e &&& ~~~maxErrorCodeNum ≠ 0 := by
      intro plainly
      have := (plain_iff e).1 plainly
      omega
    rw [err, if_pos (.inr recorded)]

/-! ## File names -/

def isSeparator (char : Char) : Bool := char = '/' ∨ char = '\x5c'

/-- What follows the last separator of a path. -/
def fileName (path : List Char) : List Char := path.rtakeWhile fun char => !isSeparator char

/-- A file name without its extension: what stands before its last dot. -/
def stem (name : List Char) : List Char :=
  if '.' ∈ name then (name.rdropWhile (· ≠ '.')).dropLast else name

theorem stem_within (name : List Char) : stem name <+: name := by
  rw [stem]
  split
  · exact (List.dropLast_prefix _).trans (List.rdropWhile_prefix _ _)
  · exact List.prefix_refl name

/-- The directory does not matter to the file name. -/
theorem fileName_of_separated {sep : Char} (separator : isSeparator sep = true)
    (dir tail : List Char) : fileName (dir ++ sep :: tail) = fileName tail := by
  induction tail using List.reverseRecOn with
  | nil => exact List.rtakeWhile_concat_neg _ _ _ (by simp [separator])
  | append_singleton front char ih =>
      have regrouped : dir ++ sep :: (front ++ [char]) = (dir ++ sep :: front) ++ [char] := by
        simp
      rw [fileName, fileName, regrouped, List.rtakeWhile_concat, List.rtakeWhile_concat]
      rw [fileName, fileName] at ih
      rw [ih]

theorem afterLast_split {sep : Char} {path tail : List Char}
    (found : afterLast sep path = some tail) : ∃ dir, path = dir ++ sep :: tail := by
  induction path generalizing tail with
  | nil => exact nomatch found
  | cons char rest ih =>
      rw [afterLast] at found
      cases later : afterLast sep rest with
      | some inner =>
          rw [later] at found
          obtain rfl := Option.some.inj found
          obtain ⟨dir, rfl⟩ := ih later
          exact ⟨char :: dir, rfl⟩
      | none =>
          rw [later] at found
          obtain ⟨rfl, rfl⟩ : char = sep ∧ rest = tail := by simpa using found
          exact ⟨[], rfl⟩

theorem fileName_suffix (path : List Char) : fileName path <:+ baseName path := by
  rw [baseName]
  cases slash : afterLast '/' path with
  | some tail =>
      obtain ⟨dir, rfl⟩ := afterLast_split slash
      rw [fileName_of_separated (by decide)]
      exact List.rtakeWhile_suffix _ _
  | none =>
      cases backslash : afterLast '\x5c' path with
      | some tail =>
          obtain ⟨dir, rfl⟩ := afterLast_split backslash
          rw [fileName_of_separated (by decide)]
          exact List.rtakeWhile_suffix _ _
      | none => exact List.rtakeWhile_suffix _ _

/-- The base name of a path contains the file name without its extension. -/
theorem fileNameMatch_stem (path : List Char) :
    fileNameMatch (some path) (stem (fileName path)) = true :=
  decide_eq_true
    ((stem_within (fileName path)).isInfix.trans (fileName_suffix path).isInfix)

/-!
## Origins

The search stops at the first entry that occurs in the name.  An entry behind it can only be
found when none of those before it occurs there.
-/

/-- An entry is the first match exactly when none of those that stand before it match. -/
theorem find?_eq_some_iff_before {α : Type} [DecidableEq α] {names : List α} {accepts : α → Bool}
    {name : α} (listed : name ∈ names) (accepted : accepts name = true) :
    names.find? accepts = some name ↔
      ∀ earlier ∈ names.takeWhile (· ≠ name), accepts earlier = false := by
  induction names with
  | nil => exact nomatch listed
  | cons head rest ih =>
      by_cases same : head = name
      · subst same
        simp [accepted]
      · have deeper : name ∈ rest := (List.mem_cons.1 listed).resolve_left (Ne.symm same)
        cases hit : accepts head with
        | true => simp [hit, same]
        | false => simp [hit, same, ih deeper]

/-- Errors raised in a file decode to where they were raised, and keep that however often
they are wrapped. -/
def DecodesOrigin (path : List Char) : Prop :=
  ∀ line ec : UInt32, line ≠ 0 → line.toNat < 2 ^ 14 → ec ≠ 0 → ec.toNat < 2 ^ 10 →
    ∃ e, err (some path) line ec = some e ∧ errof e = ec ∧ getErrLine e = line ∧
      getErrFileName e = some (stem (fileName path)) ∧
      ∀ path2 line2, err path2 line2 e = some e

/-- No entry that stands before the file's own occurs in what the search reads.  The search takes
the first name of the table that occurs anywhere in the file's name, so a short name shadows
every longer one behind it. -/
def Unshadowed (path : List Char) : Prop :=
  ∀ earlier ∈ sourceFiles.takeWhile (· ≠ stem (fileName path)),
    ¬ earlier <:+: baseName path

instance (path : List Char) : Decidable (Unshadowed path) :=
  inferInstanceAs (Decidable (∀ earlier ∈ sourceFiles.takeWhile (· ≠ stem (fileName path)),
    ¬ earlier <:+: baseName path))

theorem first_match_iff {path : List Char} (named : stem (fileName path) ∈ sourceFiles) :
    sourceFiles.find? (fileNameMatch (some path)) = some (stem (fileName path)) ↔
      Unshadowed path := by
  rw [find?_eq_some_iff_before named (fileNameMatch_stem path)]
  simp only [fileNameMatch, decide_eq_false_iff_not, Unshadowed]

theorem getFileIndex_of_named {path : List Char}
    (named : stem (fileName path) ∈ sourceFiles) :
    ∃ index, getFileIndex (some path) = some index := by
  have found := List.findIdx?_eq_some_of_exists ⟨_, named, fileNameMatch_stem path⟩
  exact ⟨_, congrArg (Option.map UInt32.ofNat) found⟩

/-- The errors of a file of the table decode to their origin exactly when the file is not
shadowed by an earlier entry.  For the names of the repository's own files, the condition is
decided by evaluation. -/
theorem err_decodes_iff (path : List Char)
    (named : stem (fileName path) ∈ sourceFiles) :
    DecodesOrigin path ↔ Unshadowed path := by
  obtain ⟨index, found⟩ := getFileIndex_of_named named
  constructor
  · intro decodes
    obtain ⟨e, raised, -, -, origin, -⟩ :=
      decodes 1 1 (by decide) (by decide) (by decide) (by decide)
    obtain ⟨same, again, -, -, name, -⟩ :=
      @err_fields _ 1 1 _ found (by decide) (by decide) (by decide)
    obtain rfl := Option.some.inj (raised.symm.trans again)
    exact (first_match_iff named).1 (name.symm.trans origin)
  · intro unshadowed line ec positive lines nonzero code
    obtain ⟨e, raised, codes, lineKept, name, kept⟩ := err_fields found lines nonzero code
    exact ⟨e, raised, codes, lineKept, name.trans ((first_match_iff named).2 unshadowed),
      kept positive⟩

theorem err_decodes_mng : DecodesOrigin "src/mng/mng.c".toList :=
  (err_decodes_iff "src/mng/mng.c".toList (by decide +kernel)).2 (by decide +kernel)

/-- `cfg` is found before `cfgdb`. -/
theorem err_misattributes : ¬ ∀ path, stem (fileName path) ∈ sourceFiles →
    DecodesOrigin path := by
  intro all
  obtain ⟨e, raised, -, -, name, -⟩ :=
    all "src/cfg/cfgdb.c".toList (by decide +kernel) 1 1 (by decide) (by decide) (by decide)
      (by decide)
  have shadowed : (err (some "src/cfg/cfgdb.c".toList) 1 1).bind getErrFileName =
      some "cfg".toList := by decide +kernel
  have recorded : (err (some "src/cfg/cfgdb.c".toList) 1 1).bind getErrFileName =
      some (stem (fileName "src/cfg/cfgdb.c".toList)) := by rw [raised]; exact name
  exact absurd (shadowed.symm.trans recorded) (by decide +kernel)

/-! ## The C sources -/

theorem afterLast_of_clean {sep : Char} {tail : List Char} (clean : sep ∉ tail)
    (dir : List Char) : afterLast sep (dir ++ sep :: tail) = some tail := by
  have nothing : afterLast sep tail = none := by
    cases found : afterLast sep tail with
    | none => rfl
    | some later =>
        obtain ⟨front, rfl⟩ := afterLast_split found
        exact absurd (List.mem_append_right front (List.mem_cons_self ..)) clean
  induction dir with
  | nil => rw [List.nil_append, afterLast, nothing]; exact if_pos rfl
  | cons char dir ih => rw [List.cons_append, afterLast, ih]

theorem fileName_of_clean {tail : List Char}
    (clean : ∀ char ∈ tail, isSeparator char = false) (dir : List Char) :
    fileName (dir ++ '/' :: tail) = tail := by
  rw [fileName_of_separated (by decide)]
  exact List.rtakeWhile_eq_self_iff.2 fun char inside => by rw [clean char inside]; rfl

/-- Among the C files of the table, two are shadowed. -/
theorem unshadowed_source_iff {name : List Char} (listed : name ∈ sourceFiles)
    (dir : List Char) :
    Unshadowed (dir ++ '/' :: (name ++ ".c".toList)) ↔
      name ∉ ["cfgdb".toList, "cli_print".toList] := by
  have plain : sourceFiles.all (fun name =>
      (name ++ ".c".toList).all fun char => !isSeparator char) = true := by decide +kernel
  have clean : ∀ char ∈ name ++ ".c".toList, isSeparator char = false := fun char inside => by
    simpa using List.all_eq_true.1 (List.all_eq_true.1 plain name listed) char inside
  have stems : ∀ name ∈ sourceFiles, stem (name ++ ".c".toList) = name := by decide +kernel
  have slashless : '/' ∉ name ++ ".c".toList := fun inside =>
    absurd (clean '/' inside) (by decide)
  have table : ∀ name ∈ sourceFiles,
      (∀ earlier ∈ sourceFiles.takeWhile (· ≠ name), ¬ earlier <:+: name ++ ".c".toList) ↔
        name ∉ ["cfgdb".toList, "cli_print".toList] := by decide +kernel
  have base : baseName (dir ++ '/' :: (name ++ ".c".toList)) = name ++ ".c".toList := by
    rw [baseName, afterLast_of_clean slashless]
  rw [Unshadowed, fileName_of_clean clean, stems name listed, base]
  exact table name listed

end Nwmng
