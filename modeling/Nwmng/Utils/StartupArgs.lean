/-
Module: Nwmng.Utils.StartupArgs
Purpose: The arguments of a mode: the options that give them, in any order, and what is
stored of them.
Trusted boundary: as in Nwmng.Utils.Startup
Main exports:
  keysIn_cfgLine, ArgSet, ArgSet.Valid, ArgSet.StoredIn, storeArgs_given
-/
import Mathlib.Data.List.Pairwise
import Nwmng.Utils.StartupFile

namespace Nwmng

open Fallible

/-! ## Values in lines -/

theorem infix_around {text front back : List Char} {char : Char} (absent : char ∉ text)
    (inside : text <:+: front ++ char :: back) : text <:+: front ∨ text <:+: back := by
  obtain ⟨before, after, split⟩ := inside
  rcases List.append_eq_append_iff.1 split with ⟨more, whole, -⟩ | ⟨more, left, right⟩
  · exact .inl ⟨before, more, whole.symm⟩
  · cases more with
    | nil => exact .inl ⟨before, [], by rw [List.append_nil, left, List.append_nil]⟩
    | cons first more =>
        obtain ⟨rfl, rfl⟩ := List.cons_eq_cons.1 right
        rcases List.append_eq_append_iff.1 left with ⟨rest, -, own⟩ | ⟨rest, -, behind⟩
        · exact absurd (own ▸ List.mem_append_right rest (List.mem_cons_self ..)) absent
        · cases rest with
          | nil =>
              rw [List.nil_append] at behind
              exact absurd (behind ▸ List.mem_cons_self ..) absent
          | cons first rest =>
              obtain ⟨rfl, rfl⟩ := List.cons_eq_cons.1 behind
              exact .inr ⟨rest, after, rfl⟩

theorem mem_argKeys (key : ArgKey) : key ∈ argKeys := by
  cases key <;> decide

theorem argKeys_nodup : argKeys.Nodup := by decide

/-- The keys of a line are its own and those that occur in its value. -/
theorem mem_cfgLine_iff (other key : ArgKey) (val : List Char) :
    other.text <:+: cfgLine key val ↔ other = key ∨ other.text <:+: val := by
  have split : cfgLine key val = (key.text ++ [' ']) ++ '=' :: ((' ' :: val) ++ '\n' :: []) := by
    simp [cfgLine]
  constructor
  · intro inside
    rw [split] at inside
    rcases infix_around (equals_notMem_key other) inside with front | back
    · have apart : argKeys.all (fun other => argKeys.all fun key =>
          decide (other.text <:+: key.text ++ [' '] → other = key)) = true := by decide +kernel
      exact .inl (of_decide_eq_true (List.all_eq_true.1
        (List.all_eq_true.1 apart other (mem_argKeys other)) key (mem_argKeys key)) front)
    · have nonempty := (comment_ne_key other).2
      rcases infix_around (newline_notMem_key other) back with value | nothing
      · refine .inr ((List.infix_cons_iff.1 value).resolve_left fun first => ?_)
        have blank : other.text.head? = some ' ' := by
          obtain ⟨rest, whole⟩ := first
          rw [← @List.head?_append_of_ne_nil _ other.text rest nonempty, whole]
          rfl
        revert blank
        cases other <;> decide
      · exact absurd (List.infix_nil.1 nothing) nonempty
  · rintro (rfl | inside)
    · exact ⟨[], " = ".toList ++ val ++ ['\n'], by simp [cfgLine]⟩
    · refine inside.trans ⟨key.text ++ " = ".toList, ['\n'], rfl⟩

theorem keysIn_cfgLine {key : ArgKey} {val : List Char} :
    keysIn (cfgLine key val) = [key] ↔ ∀ other, other ≠ key → ¬ other.text <:+: val := by
  constructor
  · intro single other different inside
    have there : other ∈ keysIn (cfgLine key val) :=
      List.mem_filter.2 ⟨mem_argKeys other, decide_eq_true ((mem_cfgLine_iff other key val).2
        (.inr inside))⟩
    rw [single] at there
    exact different (List.mem_singleton.1 there)
  · intro alone
    have same : ∀ other ∈ argKeys, decide (other.text <:+: cfgLine key val) =
        decide (other = key) := fun other _ => by
      refine decide_eq_decide.2 ((mem_cfgLine_iff other key val).trans ?_)
      exact ⟨fun either => either.elim id fun inside => by
        by_contra different
        exact alone other different inside, .inl⟩
    rw [keysIn, List.filter_congr same]
    cases key <;> decide

/-- Numbers hold no key. -/
theorem keysIn_digits {key : ArgKey} {val : List Char}
    (digits : ∀ char ∈ val, char.isDigit = true) : keysIn (cfgLine key val) = [key] := by
  refine keysIn_cfgLine.2 fun other _ inside => ?_
  have letter : (other.text.any fun char => !char.isDigit) = true := by
    cases other <;> decide +kernel
  obtain ⟨first, there, isLetter⟩ := List.any_eq_true.1 letter
  rw [digits first (inside.subset there)] at isLetter
  exact absurd isLetter (by decide)

theorem toDigits_isDigit (number : Nat) : ∀ char ∈ Nat.toDigits 10 number,
    char.isDigit = true := fun _ inside =>
  Nat.isDigit_of_mem_toDigits (by decide) (by decide) inside

/-- Digits are read back as the number they stand for. -/
theorem atoi_digits {number : Nat} (bound : number < 2 ^ 31) :
    atoi ((Nat.toDigits 10 number).dropWhile (· = ' ') ++ ['\n']) = .ok number := by
  have every := toDigits_isDigit number
  have value : Nat.ofDigitChars 10 (Nat.toDigits 10 number) 0 = number :=
    Nat.ofDigitChars_ten_toDigits
  cases digits : Nat.toDigits 10 number with
  | nil => exact absurd digits Nat.toDigits_ne_nil
  | cons first rest =>
      rw [digits] at every value
      have isFirst := every first (List.mem_cons_self ..)
      have noDigit : ∀ other : Char, other.isDigit = false → first ≠ other := by
        rintro other isOther rfl
        exact absurd (isFirst.symm.trans isOther) (by decide)
      have low : 48 ≤ first.toNat := by
        simp only [Char.isDigit, Bool.and_eq_true, decide_eq_true_eq] at isFirst
        exact isFirst.1
      have noSpace : isSpace first = false := by
        refine decide_eq_false fun either => ?_
        rcases either with blank | ⟨-, small⟩
        · exact noDigit ' ' (by decide) blank
        · omega
      have taken : ((first :: rest) ++ ['\n']).takeWhile Char.isDigit = first :: rest := by
        rw [List.takeWhile_append_of_pos every, List.takeWhile_cons_of_neg (by decide),
          List.append_nil]
      have read : leadingNumber ((first :: rest) ++ ['\n']) = number := by
        rw [leadingNumber, taken, value]
      have noBlank : (first :: rest).dropWhile (fun char => decide (char = ' ')) =
          first :: rest :=
        List.dropWhile_cons_of_neg (by simpa using noDigit ' ' (by decide))
      rw [noBlank, atoi, List.cons_append,
        List.dropWhile_cons_of_neg (by rw [noSpace]; decide)]
      rw [List.cons_append] at read
      split
      · next same => exact absurd (List.cons_eq_cons.1 same).1 (noDigit '-' (by decide))
      · next same => exact absurd (List.cons_eq_cons.1 same).1 (noDigit '+' (by decide))
      · rw [read, if_pos (by omega)]

/-!
## Arguments

Options may come in any order.  Two of them that write different members of the union, or the
same bytes in a way that does not matter, can change places; so one order stands for all.
-/

/-- The arguments of a mode. -/
inductive ArgSet where
  | insecure (port baud : List Char)
  | secure (srv clt flag : List Char)

def ArgSet.mode : ArgSet → Bool
  | .insecure .. => false
  | .secure .. => true

/-- The options that give them; the mode is told by the first character of its option. -/
def ArgSet.options (rest : List Char) : ArgSet → List (Char × List Char)
  | .insecure port baud => [('m', 'i' :: rest), ('p', port), ('b', baud)]
  | .secure srv clt flag => [('m', 's' :: rest), ('s', srv), ('c', clt), ('e', flag)]

/-- The options give the arguments, in any order. -/
def ArgSet.GivenBy (set : ArgSet) (options : List (Char × List Char)) : Prop :=
  ∃ rest, options.Perm (set.options rest)

/-- A path: a string that is not empty, has no newline and fits its array.  It is what the user
may sensibly give; whether it survives in the file is another matter. -/
structure ValidPath (path : List Char) : Prop where
  nonempty : path ≠ []
  proper : nulChar ∉ path
  plain : '\n' ∉ path
  short : path.length < filePathMax

def ArgSet.Valid : ArgSet → Prop
  | .insecure port baud => ValidPath port ∧ ∃ rate, atoi baud = .ok rate ∧ 0 < rate
  | .secure srv clt flag => ValidPath srv ∧ ValidPath clt ∧ ∃ number, atoi flag = .ok number

/-- What the arguments of a mode are after they were stored. -/
def ArgSet.StoredIn : ArgSet → ProjArgs → Prop
  | .insecure port baud, args =>
      args.enc = false ∧ HoldsText args.cells portAt port ∧
        ∃ rate, atoi baud = .ok rate ∧ Numbers args.cells (uint32OfInt rate)
  | .secure srv clt flag, args =>
      args.enc = true ∧ HoldsText args.cells srvAt srv ∧ HoldsText args.cells cltAt clt ∧
        ∃ number, atoi flag = .ok number ∧ getFlag args.cells = decide (number ≠ 0)

/-- A start after one more argument. -/
def storedArg (key : ArgKey) (change : ProjArgs → ProjArgs) (s : Start) : Start :=
  (s.setDirty key).withArgs (change s.args)

/-- What an option does, where it is accepted. -/
def optionEffect (s : Start) (option : Char × List Char) : Start :=
  (storeArg s option).toOption.getD s

def Stores (option : Char × List Char) (key : ArgKey) (change : ProjArgs → ProjArgs) : Prop :=
  ∀ s, storeArg s option = .ok (storedArg key change s)

theorem Stores.effect {option : Char × List Char} {key : ArgKey}
    {change : ProjArgs → ProjArgs} (stores : Stores option key change) (s : Start) :
    optionEffect s option = storedArg key change s := by
  rw [optionEffect, stores s]
  rfl

/-- Two options can be given in either order. -/
def Commute2 (first second : Char × List Char) : Prop :=
  ∀ s, optionEffect (optionEffect s first) second = optionEffect (optionEffect s second) first

theorem Stores.comm {first second : Char × List Char} {key key' : ArgKey}
    {change change' : ProjArgs → ProjArgs} (stores : Stores first key change)
    (stores' : Stores second key' change') (different : key' ≠ key)
    (comm : ∀ args, change' (change args) = change (change' args)) : Commute2 first second := by
  intro s
  rw [stores.effect, stores'.effect, stores'.effect, stores.effect]
  simp only [storedArg, Start.withArgs, Start.setDirty, comm,
    Function.update_comm different]

theorem stores_choice (enc : Bool) (rest : List Char) :
    Stores ('m', (if enc then 's' else 'i') :: rest) .enc fun args => { args with enc := enc } := by
  intro s
  cases enc <;> rfl

theorem stores_text {option : Char} {key : ArgKey} {start : Nat}
    (isPath : (option = 'p' ∧ key = .port ∧ start = portAt) ∨
      (option = 's' ∧ key = .sockSrv ∧ start = srvAt) ∨
      (option = 'c' ∧ key = .sockClt ∧ start = cltAt))
    {path : List Char} (short : path.length < filePathMax) :
    Stores (option, path) key fun args =>
      { args with cells := putText args.cells start path } := by
  intro s
  have copied : ∀ start, strcpy s.args start path =
      .ok { s.args with cells := putText s.args.cells start path } := fun _ => if_pos short
  rcases isPath with ⟨rfl, rfl, rfl⟩ | ⟨rfl, rfl, rfl⟩ | ⟨rfl, rfl, rfl⟩ <;>
    exact (congrArg (· >>= _) (copied _)).trans (ok_bind ..)

theorem stores_rate {baud : List Char} {rate : Int} (isRate : atoi baud = .ok rate) :
    Stores ('b', baud) .br fun args =>
      { args with cells := putNumber args.cells (uint32OfInt rate) } := fun _ =>
  (congrArg (· >>= _) isRate).trans (ok_bind ..)

theorem stores_flag {flag : List Char} {number : Int} (isFlag : atoi flag = .ok number) :
    Stores ('e', flag) .sockEnc fun args =>
      { args with cells := putFlag args.cells (number ≠ 0) } := fun _ =>
  (congrArg (· >>= _) isFlag).trans (ok_bind ..)

/-- Options that can be given in either order give the same in every order. -/
theorem storeArgs_perm {options canonical : List (Char × List Char)}
    (perm : options.Perm canonical)
    (accepted : ∀ option ∈ canonical, ∃ key change, Stores option key change)
    (comm : canonical.Pairwise Commute2) (s : Start) :
    storeArgs options s = .ok (canonical.foldl optionEffect s) := by
  have plain : storeArgs options s = .ok (options.foldl optionEffect s) := by
    refine foldlM_of_ok (fun option inside before => ?_) s
    obtain ⟨key, change, stores⟩ := accepted option (perm.mem_iff.1 inside)
    rw [stores.effect, stores before]
  have : Std.Symm Commute2 := ⟨fun _ _ comm s => (comm s).symm⟩
  have every := List.Pairwise.forall_of_forall (fun _ _ _ => rfl) comm
  rw [plain, perm.foldl_eq' fun first inside second inside' before =>
    every (perm.mem_iff.1 inside) (perm.mem_iff.1 inside') before]

/-- The arguments of a mode before the file is read.  All of them are in their bytes, and all are
marked to be saved. -/
structure GivenStart (set : ArgSet) (s : Start) : Prop where
  stored : set.StoredIn s.args
  dirty : ∀ key, s.dirty key = (decide (key = .enc) || key.belongs set.mode)
  empty : s.buf = []

theorem validPath_room {path : List Char} (valid : ValidPath path) {start : Nat}
    (early : start ≤ cltAt) : start + path.length < unionSize := by
  have short := valid.short
  simp only [cltAt, srvAt, filePathMax, unionSize] at *
  omega

theorem uint32OfInt_lt (value : Int) : uint32OfInt value < 2 ^ 32 := by
  rw [uint32OfInt]
  omega

theorem getFlag_putFlag (cells : List Char) (flag : Bool) :
    getFlag (putFlag cells flag) = flag := by
  rw [getFlag, putFlag, byteAt_putByte_self (by decide)]
  cases flag <;> decide

/-- The options of a port are stored as they are given, in any order. -/
theorem storeArgs_insecure {port baud rest : List Char} (path : ValidPath port) {rate : Int}
    (isRate : atoi baud = .ok rate) {options : List (Char × List Char)}
    (perm : options.Perm [('m', 'i' :: rest), ('p', port), ('b', baud)]) :
    ∃ s, storeArgs options noArgs = .ok s ∧ GivenStart (.insecure port baud) s := by
  have mode : Stores ('m', 'i' :: rest) .enc _ := stores_choice false rest
  have text := stores_text (.inl ⟨rfl, rfl, rfl⟩) path.short
  have number := stores_rate isRate
  have apart : ∀ args : ProjArgs, putNumber (putText args.cells portAt port)
      (uint32OfInt rate) = putText (putNumber args.cells (uint32OfInt rate)) portAt port :=
    fun args => (writes_putNumber _).comm (writes_putText portAt port)
      (fun i low high => by simp only [portAt] at high; omega) args.cells
  have stored := storeArgs_perm perm (List.forall_mem_cons.2 ⟨⟨_, _, mode⟩,
    List.forall_mem_cons.2 ⟨⟨_, _, text⟩, List.forall_mem_singleton.2 ⟨_, _, number⟩⟩⟩)
    (List.pairwise_cons.2 ⟨List.forall_mem_cons.2
      ⟨mode.comm text (by decide) fun _ => rfl,
        List.forall_mem_singleton.2 (mode.comm number (by decide) fun _ => rfl)⟩,
    List.pairwise_cons.2 ⟨List.forall_mem_singleton.2
      (text.comm number (by decide) fun args => by rw [apart args]),
      List.pairwise_singleton _ _⟩⟩) noArgs
  refine ⟨_, stored, ?_⟩
  simp only [List.foldl, mode.effect, text.effect, number.effect]
  exact
    { stored := ⟨rfl, (holds_putText _ (validPath_room path (by decide))).frame
        fun i low high => byteAt_putNumber_of_outside low
          (Nat.lt_of_le_of_lt high (validPath_room path (by decide))),
        rate, isRate, numbers_putNumber (uint32OfInt_lt rate) _⟩
      dirty := fun key => by cases key <;> rfl
      empty := rfl }

/-- The options of a socket are stored as they are given, in any order. -/
theorem storeArgs_secure {srv clt flag rest : List Char} (server : ValidPath srv)
    (client : ValidPath clt) {number : Int} (isFlag : atoi flag = .ok number)
    {options : List (Char × List Char)}
    (perm : options.Perm [('m', 's' :: rest), ('s', srv), ('c', clt), ('e', flag)]) :
    ∃ s, storeArgs options noArgs = .ok s ∧ GivenStart (.secure srv clt flag) s := by
  have mode : Stores ('m', 's' :: rest) .enc _ := stores_choice true rest
  have first := stores_text (.inr (.inl ⟨rfl, rfl, rfl⟩)) server.short
  have second := stores_text (.inr (.inr ⟨rfl, rfl, rfl⟩)) client.short
  have third := stores_flag isFlag
  have before : srvAt + srv.length < cltAt := by
    have := server.short
    simp only [srvAt, cltAt] at *
    omega
  have paths : ∀ args : ProjArgs, putText (putText args.cells srvAt srv) cltAt clt =
      putText (putText args.cells cltAt clt) srvAt srv := fun args =>
    (writes_putText cltAt clt).comm (writes_putText srvAt srv)
      (fun i low high => by omega) args.cells
  have behind : ∀ (args : ProjArgs) (start : Nat) (path : List Char), srvAt ≤ start →
      putFlag (putText args.cells start path) (number ≠ 0) =
        putText (putFlag args.cells (number ≠ 0)) start path := fun args start path late =>
    (writes_putFlag _).comm (writes_putText start path)
      (fun i low high => by simp only [srvAt] at late; omega) args.cells
  have stored := storeArgs_perm perm (List.forall_mem_cons.2 ⟨⟨_, _, mode⟩,
    List.forall_mem_cons.2 ⟨⟨_, _, first⟩, List.forall_mem_cons.2 ⟨⟨_, _, second⟩,
      List.forall_mem_singleton.2 ⟨_, _, third⟩⟩⟩⟩)
    (List.pairwise_cons.2 ⟨List.forall_mem_cons.2
      ⟨mode.comm first (by decide) fun _ => rfl, List.forall_mem_cons.2
        ⟨mode.comm second (by decide) fun _ => rfl,
          List.forall_mem_singleton.2 (mode.comm third (by decide) fun _ => rfl)⟩⟩,
    List.pairwise_cons.2 ⟨List.forall_mem_cons.2
      ⟨first.comm second (by decide) fun args => by rw [paths args],
        List.forall_mem_singleton.2
          (first.comm third (by decide) fun args => by rw [behind args srvAt srv (by decide)])⟩,
      List.pairwise_cons.2 ⟨List.forall_mem_singleton.2
        (second.comm third (by decide) fun args => by rw [behind args cltAt clt (by decide)]),
        List.pairwise_singleton _ _⟩⟩⟩) noArgs
  refine ⟨_, stored, ?_⟩
  simp only [List.foldl, mode.effect, first.effect, second.effect, third.effect]
  have serverRoom := validPath_room server (show srvAt ≤ cltAt by decide)
  have clientRoom := validPath_room client (Nat.le_refl cltAt)
  exact
    { stored := ⟨rfl,
        ((holds_putText _ serverRoom).frame fun i low high =>
          byteAt_putText_of_outside (by omega) (by omega)).putFlag (by decide) _,
        (holds_putText _ clientRoom).putFlag (by decide) _,
        number, isFlag, getFlag_putFlag _ _⟩
      dirty := fun key => by cases key <;> rfl
      empty := rfl }

/-- The options are stored as they are given, in any order.  Every pair of options commutes, so
the order can be taken to be that of the arguments. -/
theorem storeArgs_given {set : ArgSet} (valid : set.Valid)
    {options : List (Char × List Char)} (given : set.GivenBy options) :
    ∃ s, storeArgs options noArgs = .ok s ∧ GivenStart set s := by
  obtain ⟨rest, perm⟩ := given
  cases set with
  | insecure port baud =>
      obtain ⟨path, rate, isRate, -⟩ := valid
      exact storeArgs_insecure path isRate perm
  | secure srv clt flag =>
      obtain ⟨server, client, number, isFlag⟩ := valid
      exact storeArgs_secure server client isFlag perm

/-! ## Stored values -/

/-- The paths among the arguments, with their keys. -/
def ArgSet.paths : ArgSet → List (ArgKey × List Char)
  | .insecure port _ => [(.port, port)]
  | .secure srv clt _ => [(.sockSrv, srv), (.sockClt, clt)]

theorem ArgSet.Valid.path {set : ArgSet} (valid : set.Valid) {path : ArgKey × List Char}
    (inside : path ∈ set.paths) : ValidPath path.2 := by
  cases set with
  | insecure port baud =>
      rw [List.mem_singleton.1 inside]
      exact valid.1
  | secure srv clt flag =>
      rcases List.mem_cons.1 inside with rfl | inside
      · exact valid.1
      · rw [List.mem_singleton.1 inside]
        exact valid.2.1

theorem ArgSet.StoredIn.enc {set : ArgSet} {args : ProjArgs} (stored : set.StoredIn args) :
    args.enc = set.mode := by
  cases set <;> exact stored.1

/-- The paths are stored under keys of the mode. -/
theorem ArgSet.StoredIn.path {set : ArgSet} {args : ProjArgs} (stored : set.StoredIn args)
    (valid : set.Valid) {path : ArgKey × List Char} (inside : path ∈ set.paths) :
    path.1.belongs set.mode = true ∧ args.value path.1 = path.2 := by
  cases set with
  | insecure port baud =>
      rw [List.mem_singleton.1 inside]
      exact ⟨rfl, getText_of_holds stored.2.1 valid.1.proper⟩
  | secure srv clt flag =>
      rcases List.mem_cons.1 inside with rfl | inside
      · exact ⟨rfl, getText_of_holds stored.2.1 valid.1.proper⟩
      · rw [List.mem_singleton.1 inside]
        exact ⟨rfl, getText_of_holds stored.2.2.1 valid.2.1.proper⟩

theorem int_range {value result : Int}
    (read : (if - 2 ^ 31 ≤ value ∧ value < 2 ^ 31 then Except.ok value
      else Except.error StartFault.numberRange) = .ok result) :
    - 2 ^ 31 ≤ result ∧ result < 2 ^ 31 := by
  split at read
  · next range =>
      obtain rfl := Except.ok.inj read
      exact range
  · exact nomatch read

theorem atoi_range {text : List Char} {value : Int} (read : atoi text = .ok value) :
    - 2 ^ 31 ≤ value ∧ value < 2 ^ 31 :=
  int_range read

theorem sound_number {number : Nat} (bound : number < 2 ^ 31) :
    (⟨.br, Nat.toDigits 10 number⟩ : ConfigEntry).Sound where
  plain inside := absurd (toDigits_isDigit number '\n' inside) (by decide)
  short := by
    have below : number < 10 ^ 10 := Nat.lt_of_lt_of_le bound (by decide)
    have few : (Nat.toDigits 10 number).length ≤ 10 :=
      (Nat.length_toDigits_le_iff (by decide) (by decide)).2 below
    have key : (ArgKey.text .br).length = 9 := by decide
    calc (cfgLine .br (Nat.toDigits 10 number)).length
        = 9 + 3 + (Nat.toDigits 10 number).length + 1 := by rw [length_cfgLine, key]
      _ < lineMaxLength := by rw [lineMaxLength]; omega
  own := keysIn_digits (toDigits_isDigit number)
  digit impossible := nomatch impossible
  number _ := ⟨_, atoi_digits bound⟩

theorem modeDigit_isDigit (mode : Bool) : ∀ char ∈ [modeDigit mode], char.isDigit = true := by
  intro char inside
  rw [List.mem_singleton.1 inside]
  cases mode <;> decide

theorem sound_digit {key : ArgKey} (isDigit : key = .enc ∨ key = .sockEnc) (mode : Bool) :
    (⟨key, [modeDigit mode]⟩ : ConfigEntry).Sound where
  plain inside := absurd (modeDigit_isDigit mode '\n' inside) (by decide)
  short := by rcases isDigit with rfl | rfl <;> cases mode <;> decide
  own := keysIn_digits (modeDigit_isDigit mode)
  digit _ := ⟨mode, rfl⟩
  number _ := by cases mode <;> exact ⟨_, rfl⟩

/-- The values of a mode that are no paths make sound entries. -/
theorem ArgSet.StoredIn.own {set : ArgSet} {args : ProjArgs} (stored : set.StoredIn args)
    (valid : set.Valid) {key : ArgKey} (own : key.belongs set.mode = true) :
    (key, args.value key) ∈ set.paths ∨ (⟨key, args.value key⟩ : ConfigEntry).Sound := by
  cases set with
  | insecure port baud =>
      obtain ⟨-, holds, rate, isRate, numbers⟩ := stored
      cases key with
      | port =>
          refine .inl (List.mem_singleton.2 (Prod.ext rfl ?_))
          exact getText_of_holds holds valid.1.proper
      | br =>
          refine .inr ?_
          obtain ⟨-, positive, isPositive, above⟩ := valid
          obtain rfl := Except.ok.inj (isRate.symm.trans isPositive)
          have range := atoi_range isRate
          have small : uint32OfInt rate < 2 ^ 31 := by
            rw [uint32OfInt]
            omega
          rw [ProjArgs.value, numbers.getNumber]
          exact sound_number small
      | enc => exact absurd own Bool.false_ne_true
      | sockSrv => exact absurd own Bool.false_ne_true
      | sockClt => exact absurd own Bool.false_ne_true
      | sockEnc => exact absurd own Bool.false_ne_true
  | secure srv clt flag =>
      obtain ⟨-, server, client, -⟩ := stored
      cases key with
      | sockSrv =>
          refine .inl (List.mem_cons.2 (.inl (Prod.ext rfl ?_)))
          exact getText_of_holds server valid.1.proper
      | sockClt =>
          refine .inl (List.mem_cons_of_mem _ (List.mem_singleton.2 (Prod.ext rfl ?_)))
          exact getText_of_holds client valid.2.1.proper
      | sockEnc => exact .inr (sound_digit (.inr rfl) _)
      | enc => exact absurd own Bool.false_ne_true
      | port => exact absurd own Bool.false_ne_true
      | br => exact absurd own Bool.false_ne_true

theorem head_ne_nul {path : List Char} (valid : ValidPath path) {cells : List Char}
    {start : Nat} (holds : HoldsText cells start path) : byteAt cells start ≠ nulChar := by
  have first := holds.2 0 (Nat.zero_le _)
  rw [Nat.add_zero] at first
  rw [first]
  cases path with
  | nil => exact absurd rfl valid.nonempty
  | cons char path => exact fun same => valid.proper (same ▸ List.mem_cons_self ..)

/-- Valid arguments pass the sanity check. -/
theorem ArgSet.StoredIn.complete {set : ArgSet} {args : ProjArgs}
    (stored : set.StoredIn args) (valid : set.Valid) : args.complete = true := by
  cases set with
  | insecure port baud =>
      obtain ⟨mode, holds, rate, isRate, numbers⟩ := stored
      obtain ⟨path, positive, isPositive, above⟩ := valid
      obtain rfl := Except.ok.inj (isRate.symm.trans isPositive)
      have range := atoi_range isRate
      have nonzero : getNumber args.cells ≠ 0 := by
        rw [numbers.getNumber, uint32OfInt]
        omega
      rw [ProjArgs.complete, mode]
      exact decide_eq_true ⟨head_ne_nul path holds, nonzero⟩
  | secure srv clt flag =>
      obtain ⟨mode, server, client, -⟩ := stored
      rw [ProjArgs.complete, mode]
      exact decide_eq_true ⟨head_ne_nul valid.1 server, head_ne_nul valid.2.1 client⟩

end Nwmng
