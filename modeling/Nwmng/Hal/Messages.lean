/-
Module: Nwmng.Hal.Messages
Purpose: The messages that the NCP target sends, and what one call of the adaptation layer reads
when they are what is left on a serial line.
Trusted boundary: as in Nwmng.Hal.Bglib
Main exports:
  Message, Message.encode, uartRx_unread, waitMessage_event, waitMessage_response,
  encodeAll, waitResponse_events
-/
import Mathlib
import Nwmng.Hal.Bglib

namespace Nwmng

open Rings

/-! ## Messages as the target sends them -/

/-- A message: an event or a response whose header announces the payload.  A message that is
longer than its header says cannot be built, so the encoding can be read back without a further
condition. -/
structure Message where
  header : UInt32
  payload : List UInt8
  kind : header &&& 0xf8 = geckoDevTypeGecko ||| geckoMsgTypeEvt ∨
    header &&& 0xf8 = geckoDevTypeGecko
  sized : payload.length = bglibMsgLen header
  fits : bglibMsgLen header ≤ bglibMsgMaxPayload
deriving DecidableEq

def Message.IsEvent (message : Message) : Prop :=
  message.header &&& 0xf8 = geckoDevTypeGecko ||| geckoMsgTypeEvt

instance (message : Message) : Decidable message.IsEvent :=
  inferInstanceAs (Decidable (_ = _))

def Message.encode (message : Message) : List UInt8 :=
  headerBytes message.header ++ message.payload

/-- What a reader of a packet sees: its header and the payload that it announces. -/
abbrev View := UInt32 × List UInt8

def Message.view (message : Message) : View := (message.header, message.payload)

def GeckoCmdPacket.view (packet : GeckoCmdPacket) : View := (packet.header, packet.content)

theorem headerOf_headerBytes (header : UInt32) : headerOf (headerBytes header) = header := by
  apply UInt32.toNat_inj.1
  have bound := header.toNat_lt
  simp [headerOf, headerBytes, Nat.shiftRight_eq_div_pow]
  omega

theorem headerOf_low (header : UInt32) : headerOf [header.toUInt8] = header &&& 0xff := by
  apply UInt32.toNat_inj.1
  simp [headerOf]
  exact (Nat.and_two_pow_sub_one_eq_mod header.toNat 8).symm

/-- The first byte of a message passes the check that is made of it. -/
theorem Message.low_device (message : Message) :
    headerOf [message.header.toUInt8] &&& 0x78 = geckoDevTypeGecko := by
  have masks : (0xff : UInt32) &&& 0x78 = 0xf8 &&& 0x78 := by decide
  rw [headerOf_low, UInt32.and_assoc, masks, ← UInt32.and_assoc]
  rcases message.kind with isEvent | isResponse
  · rw [isEvent]; decide
  · rw [isResponse]; decide

theorem Message.not_event {message : Message} (response : ¬ message.IsEvent) :
    message.header &&& 0xf8 = geckoDevTypeGecko :=
  message.kind.resolve_left response

theorem Message.length_encode (message : Message) :
    message.encode.length = 4 + message.payload.length := by
  rw [Message.encode, List.length_append]
  rfl

/-- A packet that was filled from a message shows the message, whatever it held before. -/
theorem view_filled (message : Message) (old : List UInt8) :
    (GeckoCmdPacket.mk message.header
      (message.payload ++ old.drop message.payload.length)).view = message.view := by
  simp [GeckoCmdPacket.view, GeckoCmdPacket.content, Message.view, ← message.sized]

/-!
## Reading the line

However the bytes arrive, a reader sees the next ones in their order.  So one call of the
adaptation layer can be described by the message at the front of the line.
-/

theorem uartRxLoop_reads {needed : Nat} {arrived : List UInt8} {later : List (List UInt8)}
    (enough : needed ≤ (arrived ++ later.flatten).length) :
    ∃ left rest, uartRxLoop needed arrived later =
        some ((arrived ++ later.flatten).take needed, left, rest) ∧
      left ++ rest.flatten = (arrived ++ later.flatten).drop needed := by
  induction later generalizing needed arrived with
  | nil =>
      have here : needed ≤ arrived.length := by simpa using enough
      refine ⟨arrived.drop needed, [], ?_, by simp⟩
      rw [uartRxLoop, if_pos here]
      simp
  | cons next rest hypothesis =>
      rw [uartRxLoop]
      by_cases here : needed ≤ arrived.length
      · refine ⟨arrived.drop needed, next :: rest, ?_, ?_⟩
        · rw [if_pos here, List.take_append_of_le_length here]
        · rw [List.drop_append_of_le_length here]
      · have more : needed - arrived.length ≤ (next ++ rest.flatten).length := by
          rw [List.flatten_cons, List.length_append] at enough
          omega
        obtain ⟨left, behind, reads, remains⟩ := hypothesis more
        refine ⟨left, behind, ?_, ?_⟩
        · have whole : (arrived ++ (next ++ rest.flatten)).take needed =
              arrived ++ (next ++ rest.flatten).take (needed - arrived.length) := by
            rw [List.take_append, List.take_of_length_le (Nat.le_of_not_le here)]
          rw [if_neg here, reads, Option.map_some, List.flatten_cons, whole]
        · have whole : (arrived ++ (next ++ rest.flatten)).drop needed =
              (next ++ rest.flatten).drop (needed - arrived.length) := by
            rw [List.drop_append, List.drop_of_length_le (Nat.le_of_not_le here),
              List.nil_append]
          rw [remains, List.flatten_cons, whole]

/-- However the bytes arrive, a read returns the next ones on the line. -/
theorem uartRx_unread {needed : Nat} {serial : Serial} {bytes rest : List UInt8}
    (unread : serial.unread = bytes ++ rest) (size : bytes.length = needed) :
    ∃ after, uartRx needed serial = some (.bytes bytes, after) ∧ after.unread = rest ∧
      after.written = serial.written := by
  have enough : needed ≤ (serial.arrived ++ serial.later.flatten).length := by
    rw [← Serial.unread, unread, List.length_append, size]
    exact Nat.le_add_right _ _
  obtain ⟨left, behind, reads, remains⟩ := uartRxLoop_reads enough
  rw [← Serial.unread, unread, ← size] at reads remains
  rw [List.take_left] at reads
  rw [List.drop_left] at remains
  refine ⟨{ serial with arrived := left, later := behind }, ?_, remains, rfl⟩
  rw [uartRx, ← size, reads]
  rfl

theorem fillPacket_message {message : Message} {packet : GeckoCmdPacket} {serial : Serial}
    {rest : List UInt8} (unread : serial.unread = message.payload ++ rest) :
    ∃ after filled, fillPacket uart message.header packet serial = some (true, filled, after) ∧
      filled.view = message.view ∧ after.unread = rest ∧ after.written = serial.written := by
  unfold fillPacket
  by_cases empty : bglibMsgLen message.header = 0
  · have nothing : message.payload = [] := List.length_eq_zero_iff.mp (message.sized.trans empty)
    refine ⟨serial, _, if_pos empty, ?_, ?_, rfl⟩
    · simp [GeckoCmdPacket.view, GeckoCmdPacket.content, Message.view, empty, nothing]
    · rw [unread, nothing, List.nil_append]
  · obtain ⟨after, reads, remains, written⟩ := uartRx_unread unread message.sized
    refine ⟨after, _, ?_, view_filled message packet.payload, remains, written⟩
    rw [if_neg empty]
    have input : uart.bglibInput = uartRx := rfl
    rw [input, reads]

/-- A message at the front of the line is taken by its header. -/
theorem waitMessage_takes {message : Message} {gecko : Gecko Serial} {rest : List UInt8}
    (unread : gecko.line.unread = message.encode ++ rest) :
    ∃ line, line.unread = message.payload ++ rest ∧ line.written = gecko.line.written ∧
      geckoWaitMessage uart gecko =
        geckoTakeMessage uart message.header { gecko with line := line } := by
  have split : gecko.line.unread = [message.header.toUInt8] ++
      ((headerBytes message.header).tail ++ (message.payload ++ rest)) := by
    rw [unread, Message.encode, headerBytes]
    simp
  have one : [message.header.toUInt8].length = 1 := rfl
  obtain ⟨first, readsFirst, restFirst, writtenFirst⟩ := uartRx_unread split one
  have three : (headerBytes message.header).tail.length = bglibMsgHeaderLen - 1 := rfl
  obtain ⟨second, readsSecond, restSecond, writtenSecond⟩ := uartRx_unread restFirst three
  refine ⟨second, restSecond, writtenSecond.trans writtenFirst, ?_⟩
  have whole : headerOf ([message.header.toUInt8] ++ (headerBytes message.header).tail) =
      message.header := headerOf_headerBytes message.header
  have input : uart.bglibInput = uartRx := rfl
  rw [geckoWaitMessage, input, readsFirst]
  dsimp only
  rw [if_neg (not_not.mpr message.low_device), readsSecond]
  dsimp only
  rw [whole]

/-- An event joins the queue if a cell stays free, and is dropped otherwise.  It is the only
place where an event can be lost on its way. -/
theorem waitMessage_event {message : Message} {gecko : Gecko Serial} {rest : List UInt8}
    (unread : gecko.line.unread = message.encode ++ rest) (event : message.IsEvent) :
    ∃ after, geckoWaitMessage uart gecko = some (false, after) ∧
      after.line.unread = rest ∧ after.rspMsg = gecko.rspMsg ∧
      after.queue.contents.map GeckoCmdPacket.view =
        if gecko.queue.Full then gecko.queue.contents.map GeckoCmdPacket.view
        else gecko.queue.contents.map GeckoCmdPacket.view ++ [message.view] := by
  obtain ⟨line, behind, _, takes⟩ := waitMessage_takes unread
  have small : ¬ bglibMsgMaxPayload < bglibMsgLen message.header := Nat.not_lt.mpr message.fits
  have isEvent : message.header &&& 0xf8 = geckoDevTypeGecko ||| geckoMsgTypeEvt := event
  rw [takes, geckoTakeMessage, if_neg small, if_pos isEvent]
  by_cases full : gecko.queue.Full
  · obtain ⟨after, filled, fills, _, remains, _⟩ :=
      @fillPacket_message message default line rest behind
    refine ⟨{ gecko with line := after }, ?_, remains, rfl, (if_pos full).symm⟩
    rw [if_pos full, fills]
    rfl
  · obtain ⟨after, filled, fills, sees, remains, _⟩ :=
      @fillPacket_message message gecko.queue.free line rest behind
    refine ⟨{ gecko with queue := gecko.queue.put filled, line := after }, ?_, remains, rfl, ?_⟩
    · rw [if_neg full, fills]
      rfl
    · rw [if_neg full, Ring.contents_put full, List.map_append, List.map_singleton, sees]

/-- A response is stored apart from the queue, and ends the wait. -/
theorem waitMessage_response {message : Message} {gecko : Gecko Serial} {rest : List UInt8}
    (unread : gecko.line.unread = message.encode ++ rest) (response : ¬ message.IsEvent) :
    ∃ after, geckoWaitMessage uart gecko = some (true, after) ∧
      after.line.unread = rest ∧ after.rspMsg.view = message.view ∧
      after.queue = gecko.queue := by
  obtain ⟨line, behind, _, takes⟩ := waitMessage_takes unread
  have small : ¬ bglibMsgMaxPayload < bglibMsgLen message.header := Nat.not_lt.mpr message.fits
  have notEvent : ¬ message.header &&& 0xf8 = geckoDevTypeGecko ||| geckoMsgTypeEvt := response
  rw [takes, geckoTakeMessage, if_neg small, if_neg notEvent,
    if_pos (Message.not_event response)]
  obtain ⟨after, filled, fills, sees, remains, _⟩ :=
    @fillPacket_message message gecko.rspMsg line rest behind
  refine ⟨{ gecko with rspMsg := filled, line := after }, ?_, remains, sees, rfl⟩
  rw [fills]
  rfl

/-- The header of a response does not have the bit of the events. -/
theorem Message.response_bit {message : Message} (response : ¬ message.IsEvent) :
    message.header &&& geckoMsgTypeEvt = 0 := by
  have masks : geckoMsgTypeEvt = 0xf8 &&& geckoMsgTypeEvt := by decide
  rw [masks, ← UInt32.and_assoc, Message.not_event response]
  decide

def encodeAll (messages : List Message) : List UInt8 := (messages.map Message.encode).flatten

@[simp] theorem encodeAll_nil : encodeAll [] = [] := rfl

@[simp] theorem encodeAll_cons (message : Message) (messages : List Message) :
    encodeAll (message :: messages) = message.encode ++ encodeAll messages := rfl

@[simp] theorem encodeAll_append (front back : List Message) :
    encodeAll (front ++ back) = encodeAll front ++ encodeAll back := by
  simp [encodeAll]

/-- A wait for a response: the events before it join the queue as far as there is room.  By
induction on the events that stand before the response on the line. -/
theorem waitResponse_events {events : List Message} {response : Message} {fuel : Nat}
    {gecko : Gecko Serial} {rest : List UInt8}
    (unread : gecko.line.unread = encodeAll events ++ (response.encode ++ rest))
    (areEvents : ∀ message ∈ events, message.IsEvent) (isResponse : ¬ response.IsEvent)
    (enough : events.length < fuel) :
    ∃ after, geckoWaitResponse uart fuel gecko = some after ∧ after.line.unread = rest ∧
      after.rspMsg.view = response.view ∧
      after.queue.contents.map GeckoCmdPacket.view =
        gecko.queue.contents.map GeckoCmdPacket.view ++
          (events.take (bglibQueueLen - 1 - gecko.queue.contents.length)).map Message.view := by
  induction events generalizing fuel gecko with
  | nil =>
      obtain ⟨fuel, rfl⟩ := Nat.exists_eq_succ_of_ne_zero (Nat.ne_zero_of_lt enough)
      obtain ⟨after, waits, remains, sees, queue⟩ := waitMessage_response unread isResponse
      have bit : after.rspMsg.header &&& geckoMsgTypeEvt = 0 := by
        have sameHeader : after.rspMsg.header = response.header := congrArg Prod.fst sees
        rw [sameHeader]
        exact Message.response_bit isResponse
      refine ⟨after, ?_, remains, sees, by simp [queue]⟩
      rw [geckoWaitResponse, waits]
      simp [bit]
  | cons event events hypothesis =>
      obtain ⟨fuel, rfl⟩ := Nat.exists_eq_succ_of_ne_zero (Nat.ne_zero_of_lt enough)
      rw [encodeAll_cons, List.append_assoc] at unread
      obtain ⟨next, waits, remains, _, queue⟩ :=
        waitMessage_event unread (areEvents event List.mem_cons_self)
      obtain ⟨after, returns, restUnread, sees, contents⟩ := hypothesis remains
        (fun message member => areEvents message (List.mem_cons_of_mem _ member))
        (Nat.lt_of_succ_lt_succ enough)
      refine ⟨after, ?_, restUnread, sees, ?_⟩
      · rw [geckoWaitResponse, waits]
        simpa using returns
      · have lengths := congrArg List.length queue
        rw [contents, queue]
        by_cases full : gecko.queue.Full
        · have most := (Ring.full_iff gecko.queue).mp full
          rw [if_pos full, List.length_map, List.length_map] at lengths
          have noRoom : bglibQueueLen - 1 - gecko.queue.contents.length = 0 := by omega
          rw [if_pos full, lengths, noRoom]
          rfl
        · have less := mt (Ring.full_iff gecko.queue).mpr full
          have bound := gecko.queue.used_lt
          rw [← Ring.length_contents] at bound
          rw [if_neg full, List.length_append, List.length_map, List.length_map] at lengths
          have room : bglibQueueLen - 1 - gecko.queue.contents.length =
              (bglibQueueLen - 1 - next.queue.contents.length) + 1 := by
            rw [lengths, List.length_singleton]
            omega
          rw [if_neg full, room, List.take_succ_cons, List.map_cons, List.append_assoc,
            List.singleton_append]

end Nwmng
