/-
Module: Nwmng.Hal.Bglib
Purpose: The adaptation layer to the BGAPI protocol: the messages of the NCP target are read
from a line, its events are queued, and each command waits for its response.
Trusted boundary: the host stores numbers with the lowest byte first
Main exports:
  BgUart, Gecko, geckoWaitMessage, geckoGetEvent, geckoWaitResponse,
  geckoHandleCommand, Serial, uart
-/
import Mathlib.Data.List.Basic
import Nwmng.Lib.Ring

namespace Nwmng

open Rings

/-! ## Messages -/

/-- `BGLIB_MSG_HEADER_LEN` -/
def bglibMsgHeaderLen : Nat := 4

/-- `BGLIB_MSG_MAX_PAYLOAD` -/
def bglibMsgMaxPayload : Nat := 256

/-- `BGLIB_QUEUE_LEN` -/
def bglibQueueLen : Nat := 30

/-- `BGLIB_MSG_LEN` -/
def bglibMsgLen (header : UInt32) : Nat :=
  (((header &&& 0x7) <<< 8) ||| ((header &&& 0xff00) >>> 8)).toNat

/-- `BGLIB_MSG_ID` -/
def bglibMsgId (header : UInt32) : UInt32 := header &&& 0xffff00f8

def geckoDevTypeGecko : UInt32 := 0x20

def geckoMsgTypeEvt : UInt32 := 0x80

/-- The number that the bytes store, lowest first. -/
def headerOf (bytes : List UInt8) : UInt32 :=
  bytes.foldr (fun byte rest => rest * 256 + byte.toUInt32) 0

/-- The bytes that store a number, lowest first. -/
def headerBytes (header : UInt32) : List UInt8 :=
  [header.toUInt8, (header >>> 8).toUInt8, (header >>> 16).toUInt8, (header >>> 24).toUInt8]

/-- A packet in memory: the payload has room for the longest one, and keeps what an earlier and
longer packet left in it. -/
structure GeckoCmdPacket where
  header : UInt32
  payload : List UInt8
deriving Repr, DecidableEq, Inhabited

/-- The part of a packet that its header announces. -/
def GeckoCmdPacket.content (packet : GeckoCmdPacket) : List UInt8 :=
  packet.payload.take (bglibMsgLen packet.header)

/-!
## The line and the globals

The functions of a line are parameters, as in the source: the same code reads a serial port or a
socket.  A call that does not return is one that has no result.
-/

/-- What `bglib_input` returned. -/
inductive BglibInput where
  | bytes (read : List UInt8)
  | failed
deriving Repr, DecidableEq

/-- The functions of a line: `none` of an input is a call that does not return.  The library is
generic in them; the program puts in the functions of the serial port or of the sockets. -/
structure BgUart (Line : Type) where
  bglibInput : Nat → Line → Option (BglibInput × Line)
  bglibOutput : List UInt8 → Line → Line
  bglibPeek : Line → Bool

/-- The globals of `BGLIB_DEFINE`, with the line behind them. -/
structure Gecko (Line : Type) where
  queue : Ring GeckoCmdPacket bglibQueueLen
  rspMsg : GeckoCmdPacket
  line : Line

variable {Line : Type}

/-!
## Reading messages

A message is either an event, which joins the queue unless it is full, or the response that ends
a wait.  Its header alone decides which.
-/

/-- Store the header in a packet and read the payload behind it; `false` when the read failed. -/
def fillPacket (uart : BgUart Line) (header : UInt32) (packet : GeckoCmdPacket) (line : Line) :
    Option (Bool × GeckoCmdPacket × Line) :=
  if bglibMsgLen header = 0 then some (true, { packet with header := header }, line)
  else match uart.bglibInput (bglibMsgLen header) line with
    | none => none
    | some (.failed, line) => some (false, { packet with header := header }, line)
    | some (.bytes read, line) =>
        some (true, { header := header, payload := read ++ packet.payload.drop read.length },
          line)

/-- What `gecko_wait_message` does once it has a header; `true` stands for a pointer to the
response. -/
def geckoTakeMessage (uart : BgUart Line) (header : UInt32) (gecko : Gecko Line) :
    Option (Bool × Gecko Line) :=
  if bglibMsgMaxPayload < bglibMsgLen header then some (false, gecko)
  else if header &&& 0xf8 = geckoDevTypeGecko ||| geckoMsgTypeEvt then
    if gecko.queue.Full then
      -- the packet is dropped
      (fillPacket uart header default gecko.line).map fun result =>
        (false, { gecko with line := result.2.2 })
    else
      (fillPacket uart header gecko.queue.free gecko.line).map fun result =>
        (false, { gecko with queue := gecko.queue.put result.2.1, line := result.2.2 })
  else if header &&& 0xf8 = geckoDevTypeGecko then
    (fillPacket uart header gecko.rspMsg gecko.line).map fun result =>
      (result.1, { gecko with rspMsg := result.2.1, line := result.2.2 })
  else some (false, gecko)

/-- `gecko_wait_message`: the first byte alone decides whether a message begins, so that a byte
that cannot start one is skipped by itself. -/
def geckoWaitMessage (uart : BgUart Line) (gecko : Gecko Line) : Option (Bool × Gecko Line) :=
  match uart.bglibInput 1 gecko.line with
  | none => none
  | some (.failed, line) => some (false, { gecko with line := line })
  | some (.bytes low, line) =>
      if headerOf low &&& 0x78 ≠ geckoDevTypeGecko then some (false, { gecko with line := line })
      else match uart.bglibInput (bglibMsgHeaderLen - 1) line with
        | none => none
        | some (.failed, line) => some (false, { gecko with line := line })
        | some (.bytes rest, line) =>
            geckoTakeMessage uart (headerOf (low ++ rest)) { gecko with line := line }

/-- What `gecko_get_event` returns a pointer to.  A pointer into the queue stays valid only as
long as its cell is not written again. -/
inductive GeckoPointer where
  | null
  /-- a cell of the queue -/
  | queued (place : Nat)
  | rspMsg
deriving Repr, DecidableEq

/-- What a pointer points to. -/
def Gecko.packet (gecko : Gecko Line) : GeckoPointer → Option GeckoCmdPacket
  | .null => none
  | .queued place => gecko.queue.cells[place]?
  | .rspMsg => some gecko.rspMsg

/-- `gecko_get_event`, for as many messages as `fuel` says. -/
def geckoGetEvent (uart : BgUart Line) (block : Bool) :
    Nat → Gecko Line → Option (GeckoPointer × Gecko Line)
  | 0, _ => none
  | fuel + 1, gecko =>
      if ¬ gecko.queue.Empty then
        some (.queued gecko.queue.r, { gecko with queue := gecko.queue.next })
      else if !block && !uart.bglibPeek gecko.line then some (.null, gecko)
      else match geckoWaitMessage uart gecko with
        | none => none
        | some (true, gecko) => some (.rspMsg, gecko)
        | some (false, gecko) => geckoGetEvent uart block fuel gecko

/-- `gecko_wait_event` -/
def geckoWaitEvent (uart : BgUart Line) := geckoGetEvent uart true

/-- `gecko_peek_event` -/
def geckoPeekEvent (uart : BgUart Line) := geckoGetEvent uart false

/-- `gecko_wait_response`, for as many messages as `fuel` says. -/
def geckoWaitResponse (uart : BgUart Line) : Nat → Gecko Line → Option (Gecko Line)
  | 0, _ => none
  | fuel + 1, gecko =>
      match geckoWaitMessage uart gecko with
      | none => none
      | some (found, gecko) =>
          if found && gecko.rspMsg.header &&& geckoMsgTypeEvt = 0 then some gecko
          else geckoWaitResponse uart fuel gecko

/-- The bytes of a packet that are written to the line. -/
def GeckoCmdPacket.wire (packet : GeckoCmdPacket) : List UInt8 :=
  headerBytes packet.header ++ packet.content

/-- `gecko_handle_command`, with the packet of `gecko_cmd_msg`. -/
def geckoHandleCommand (uart : BgUart Line) (fuel : Nat) (command : GeckoCmdPacket)
    (gecko : Gecko Line) : Option (Gecko Line) :=
  geckoWaitResponse uart fuel
    { gecko with line := uart.bglibOutput command.wire gecko.line }

/-! ## The serial line -/

/-- A serial line: the bytes that have arrived, those that arrive in each later moment, and those
that were written. -/
structure Serial where
  arrived : List UInt8
  later : List (List UInt8)
  written : List UInt8
deriving Repr, DecidableEq

/-- All bytes that the target has sent and the host has not read. -/
def Serial.unread (serial : Serial) : List UInt8 := serial.arrived ++ serial.later.flatten

/-- Time passes until something more arrives. -/
def Serial.elapse (serial : Serial) : Serial :=
  match serial.later with
  | [] => serial
  | next :: rest => { serial with arrived := serial.arrived ++ next, later := rest }

/-- The loop of `uartRx`: each `read` returns what has arrived, at most what is still needed, and
nothing when it times out.  Without later bytes it never ends. -/
def uartRxLoop (needed : Nat) (arrived : List UInt8) :
    List (List UInt8) → Option (List UInt8 × List UInt8 × List (List UInt8))
  | [] => if needed ≤ arrived.length then some (arrived.take needed, arrived.drop needed, [])
      else none
  | next :: rest =>
      if needed ≤ arrived.length then
        some (arrived.take needed, arrived.drop needed, next :: rest)
      else (uartRxLoop (needed - arrived.length) next rest).map fun result =>
        (arrived ++ result.1, result.2)

/-- `uartRx` of an open port. -/
def uartRx (dataLength : Nat) (serial : Serial) : Option (BglibInput × Serial) :=
  (uartRxLoop dataLength serial.arrived serial.later).map fun result =>
    (.bytes result.1, { serial with arrived := result.2.1, later := result.2.2 })

/-- `on_message_send` -/
def onMessageSendUart (data : List UInt8) (serial : Serial) : Serial :=
  { serial with written := serial.written ++ data }

/-- `uartRxPeek` -/
def uartRxPeek (serial : Serial) : Bool := !serial.arrived.isEmpty

/-- The functions that `bguart_init` stores when the link is not encrypted. -/
def uart : BgUart Serial where
  bglibInput := uartRx
  bglibOutput := onMessageSendUart
  bglibPeek := uartRxPeek

end Nwmng
