/-
Module: Nwmng.Utils.Startup
Purpose: The arguments of a start: the options of the command line merged with the lines
of the `.config` file, and what is written back to it.
Trusted boundary: a `Char` stands for a byte; `getopt` hands over the options one by one;
numbers are stored with the lowest byte first
Main exports:
  ProjArgs, storeArgs, loadLine, setprojargs
-/
import Mathlib.Data.List.Infix
import Nwmng.Lib.Fallible
import Nwmng.Utils.HexBuffers

namespace Nwmng

open Fallible

/-! ## Arguments -/

/-- Why a start does not get through: the program exits, or does something undefined.  The
undefined cases are told apart by what is read or written wrongly. -/
inductive StartFault where
  | usage
  | format
  | overflow
  | numberRange
  | staleBytes
deriving DecidableEq, Repr

/-- The keys of the file, in the order of the bits of `dirty`.  A bit tells that the argument was
given on the command line, and is to be saved. -/
inductive ArgKey where
  | enc
  | port
  | br
  | sockSrv
  | sockClt
  | sockEnc
deriving DecidableEq, Repr

/-- `arg_keys`. -/
def ArgKey.text : ArgKey → List Char
  | .enc => "Encryption".toList
  | .port => "Port".toList
  | .br => "Baud Rate".toList
  | .sockSrv => "Socket Server".toList
  | .sockClt => "Socket Client".toList
  | .sockEnc => "Socket Encription".toList

def argKeys : List ArgKey := [.enc, .port, .br, .sockSrv, .sockClt, .sockEnc]

def filePathMax : Nat := 108

def lineMaxLength : Nat := 100

/-- `proj_args_t`, with the bytes of its union.  The arguments of the two modes share their
bytes, so a write for the one mode changes what the other would read. -/
structure ProjArgs where
  enc : Bool
  cells : List Char

def unionSize : Nat := 220

/-! The members of the union, by their offsets; `serial.br` and `sock.enc` are at 0. -/

def portAt : Nat := 4

def srvAt : Nat := 1

def cltAt : Nat := srvAt + filePathMax

def byteAt (cells : List Char) (i : Nat) : Char := cells.getD i nulChar

/-- The union with these bytes. -/
def cellsOf (byte : Nat → Char) : List Char := (List.range unionSize).map byte

/-- A string is copied to an offset, with the byte that ends it. -/
def putText (cells : List Char) (start : Nat) (text : List Char) : List Char :=
  cellsOf fun i =>
    if i < start ∨ start + text.length < i then byteAt cells i
    else text.getD (i - start) nulChar

/-- The string at an offset. -/
def getText (cells : List Char) (start : Nat) : List Char :=
  cString ((List.range (unionSize - start)).map fun i => byteAt cells (start + i))

/-- The bytes of `serial.br`. -/
def numberByte (number place : Nat) : Char := Char.ofNat (number / 256 ^ place % 256)

def putNumber (cells : List Char) (number : Nat) : List Char :=
  cellsOf fun i => if i < 4 then numberByte number i else byteAt cells i

def getNumber (cells : List Char) : Nat :=
  (byteAt cells 0).toNat + 256 * ((byteAt cells 1).toNat +
    256 * ((byteAt cells 2).toNat + 256 * (byteAt cells 3).toNat))

def putByte (cells : List Char) (place : Nat) (byte : Char) : List Char :=
  cellsOf fun i => if i = place then byte else byteAt cells i

/-- `sock.enc`. -/
def putFlag (cells : List Char) (flag : Bool) : List Char :=
  putByte cells 0 (if flag then Char.ofNat 1 else nulChar)

def getFlag (cells : List Char) : Bool := byteAt cells 0 ≠ nulChar

/-- `strcpy` into a member of the union. -/
def strcpy (args : ProjArgs) (start : Nat) (text : List Char) : Except StartFault ProjArgs :=
  if text.length < filePathMax then .ok { args with cells := putText args.cells start text }
  else .error .overflow

/-- `isspace`. -/
def isSpace (char : Char) : Bool :=
  char = ' ' ∨ 9 ≤ char.toNat ∧ char.toNat ≤ 13

/-- The digits at the front of a text. -/
def leadingNumber (text : List Char) : Int :=
  Nat.ofDigitChars 10 (text.takeWhile Char.isDigit) 0

/-- `atoi`; a number that is no `int` has no defined result. -/
def atoi (text : List Char) : Except StartFault Int :=
  let value :=
    match text.dropWhile isSpace with
    | '-' :: digits => - leadingNumber digits
    | '+' :: digits => leadingNumber digits
    | digits => leadingNumber digits
  if - 2 ^ 31 ≤ value ∧ value < 2 ^ 31 then .ok value else .error .numberRange

/-- A number as an `uint32_t`. -/
def uint32OfInt (value : Int) : Nat := (value % 2 ^ 32).toNat

/-- A start: the arguments so far, the `dirty` bits, and what is to be written. -/
structure Start where
  args : ProjArgs
  dirty : ArgKey → Bool
  buf : List Char

def Start.setDirty (s : Start) (key : ArgKey) : Start :=
  { s with dirty := Function.update s.dirty key true }

def Start.clearDirty (s : Start) (key : ArgKey) : Start :=
  { s with dirty := Function.update s.dirty key false }

def Start.withArgs (s : Start) (args : ProjArgs) : Start := { s with args := args }

def Start.append (s : Start) (line : List Char) : Start := { s with buf := s.buf ++ line }

/-- `store_args`, for one option and its argument. -/
def storeArg (s : Start) (option : Char × List Char) : Except StartFault Start :=
  match option.1 with
  | 'm' =>
      match option.2.head? with
      | some 's' => .ok ((s.setDirty .enc).withArgs { s.args with enc := true })
      | some 'i' => .ok ((s.setDirty .enc).withArgs { s.args with enc := false })
      | _ => .error .usage
  | 'p' => do
      let args ← strcpy s.args portAt option.2
      .ok ((s.setDirty .port).withArgs args)
  | 'b' => do
      let rate ← atoi option.2
      .ok ((s.setDirty .br).withArgs
        { s.args with cells := putNumber s.args.cells (uint32OfInt rate) })
  | 's' => do
      let args ← strcpy s.args srvAt option.2
      .ok ((s.setDirty .sockSrv).withArgs args)
  | 'c' => do
      let args ← strcpy s.args cltAt option.2
      .ok ((s.setDirty .sockClt).withArgs args)
  | 'e' => do
      let flag ← atoi option.2
      .ok ((s.setDirty .sockEnc).withArgs
        { s.args with cells := putFlag s.args.cells (flag ≠ 0) })
  | _ => .error .usage

/-- `store_args`: the options are stored in the order in which they are given, each over what is
there. -/
def storeArgs (options : List (Char × List Char)) (s : Start) : Except StartFault Start :=
  options.foldlM storeArg s

/-!
## The file

A line belongs to a key when it contains the name of the key anywhere.  The loop over the keys
may therefore take one line for several of them.
-/

/-- The value in a line: what follows the first `=` and blanks. -/
def lineValue (line : List Char) : Except StartFault (List Char) :=
  match line.dropWhile (· ≠ '=') with
  | [] => .error .format
  | _ :: rest => .ok (rest.dropWhile (· = ' '))

/-- `__store_cache_config`: the value of a line is stored unless it belongs to the other mode. -/
def storeCacheConfig (args : ProjArgs) (line : List Char) (key : ArgKey) :
    Except StartFault ProjArgs := do
  let val ← lineValue line
  match key with
  | .enc => .ok { args with enc := val.head? ≠ some '0' }
  | .port => if args.enc then .ok args else strcpy args portAt val
  | .br =>
      if args.enc then .ok args
      else do
        let rate ← atoi val
        .ok { args with cells := putNumber args.cells (uint32OfInt rate) }
  | .sockSrv => if args.enc then strcpy args srvAt val else .ok args
  | .sockClt => if args.enc then strcpy args cltAt val else .ok args
  | .sockEnc =>
      if args.enc then do
        let flag ← atoi val
        .ok { args with cells := putFlag args.cells (flag ≠ 0) }
      else .ok args

def modeDigit (enc : Bool) : Char := if enc then '1' else '0'

/-- The line of the mode with the first character of its value replaced.  At the end of the
text that is the byte that ended it, and what follows it is not known. -/
def rewriteMode (line : List Char) (enc : Bool) : Except StartFault (List Char) := do
  let val ← lineValue line
  match val with
  | [] => .error .staleBytes
  | _ :: rest => .ok (line.take (line.length - val.length) ++ modeDigit enc :: rest)

/-- The loop over the keys, for one line. -/
def scanKeys (line : List Char) : List ArgKey → Start → Except StartFault Start
  | [], s => .ok s
  | key :: keys, s =>
      if ¬ key.text <:+: line then scanKeys line keys s
      else if s.dirty key then
        if key = .enc then do
          let changed ← rewriteMode line s.args.enc
          .ok ((s.append changed).clearDirty .enc)
        else .ok s
      else do
        let args ← storeCacheConfig s.args line key
        scanKeys line keys ((s.append line).withArgs args)

def loadLine (s : Start) (line : List Char) : Except StartFault Start :=
  if line.head? = some '#' then .ok s else scanKeys line argKeys s

/-- `fgets` until the end of the file, with `room` characters left for the current line. -/
def fgetsLines (room : Nat) (current : List Char) : List Char → List (List Char)
  | [] => if current = [] then [] else [current]
  | char :: rest =>
      if char = '\n' ∨ room = 1 then
        (current ++ [char]) :: fgetsLines (lineMaxLength - 1) [] rest
      else fgetsLines (room - 1) (current ++ [char]) rest

def fileLines (text : List Char) : List (List Char) := fgetsLines (lineMaxLength - 1) [] text

/-!
## The start

Options are stored first, then the lines of the file for the keys that were not given.  What is
written back is the file with the lines of the given keys replaced or added.
-/

/-- A line of the file. -/
def cfgLine (key : ArgKey) (val : List Char) : List Char :=
  key.text ++ " = ".toList ++ val ++ ['\n']

/-- What is stored for a key. -/
def ProjArgs.value (args : ProjArgs) : ArgKey → List Char
  | .enc => [modeDigit args.enc]
  | .port => getText args.cells portAt
  | .br => Nat.toDigits 10 (getNumber args.cells)
  | .sockSrv => getText args.cells srvAt
  | .sockClt => getText args.cells cltAt
  | .sockEnc => [modeDigit (getFlag args.cells)]

/-- `__append_cfg`, for a key that is dirty. -/
def appendCfg (s : Start) (key : ArgKey) : Except StartFault Start :=
  if s.dirty key then
    let line := cfgLine key (s.args.value key)
    if line.length < lineMaxLength then .ok ((s.append line).clearDirty key)
    else .error .overflow
  else .ok s

/-- The sanity check. -/
def ProjArgs.complete (args : ProjArgs) : Bool :=
  if args.enc then byteAt args.cells srvAt ≠ nulChar ∧ byteAt args.cells cltAt ≠ nulChar
  else byteAt args.cells portAt ≠ nulChar ∧ getNumber args.cells ≠ 0

/-- The last newline of a string is cut off, with what follows it. -/
def trimNewline (start : Nat) (cells : List Char) : List Char :=
  let text := getText cells start
  if '\n' ∈ text then
    putByte cells (start + (text.length - 1 - text.reverse.idxOf '\n')) nulChar
  else cells

/-- `CONFIG_CACHE_COMMENT`. -/
def configCacheComment : List (List Char) :=
  ["########################################################################\n",
    "# ** Startup Config File **\n",
    "#   - DO NOT EDIT IT MANUALLY IF YOU ARE NOT SURE ABOUT THE RULES\n",
    "#   - The first config entry should always be if the connection between\n",
    "#     NCP host and target is encrypted or not\n",
    "#   - For more information, look into the source code\n",
    "########################################################################\n"].map
    String.toList

/-- The arguments of a process that has just started. -/
def noArgs : Start where
  args := { enc := false, cells := List.replicate unionSize nulChar }
  dirty := fun _ => false
  buf := []

/-- `setprojargs`, on the options and the file: the arguments, and the file after it. -/
def setprojargs (options : List (Char × List Char)) (file : Option (List Char)) :
    Except StartFault (ProjArgs × List Char) := do
  let text := file.getD []
  let given ← storeArgs options noArgs
  let loaded ← (fileLines text).foldlM loadLine given
  if ¬ loaded.args.complete then .error .usage
  else do
    let stored ← argKeys.foldlM appendCfg loaded
    if text.length + argKeys.length * lineMaxLength ≤ stored.buf.length then .error .overflow
    else
      .ok ({ stored.args with
          cells := trimNewline srvAt (trimNewline cltAt (trimNewline portAt stored.args.cells)) },
        configCacheComment.flatten ++ stored.buf)

end Nwmng
