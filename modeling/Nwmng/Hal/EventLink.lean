/-
Module: Nwmng.Hal.EventLink
Purpose: Runs of the link to the NCP target: every command gets its own response, every event is
handed out once and in order, and a packet that was handed out stays as it is.
Trusted boundary: the target answers each command with one response, and sends none otherwise;
the port is open and does not fail
Main exports:
  LinkState, LinkOp, EventLinkRun, LinkOp.FindsRoom, link_delivers_iff, link_returns,
  commands_keep_packet
-/
import Nwmng.Hal.Messages
import Nwmng.Lib.Execution

namespace Nwmng

open Rings Transition

/-!
## Runs

The target sends its events whenever it likes, also between a command and the response to it.
The program reads the line only inside `gecko_peek_event` and while a command waits; events that
it meets in the second case are put into a ring of thirty cells, one of which stays free, and
are handed out by later calls.
-/

/-- The link, beside what was sent over it and what the program was given.  The records on the
side are not part of the program: they let a theorem compare what was sent with what arrived. -/
structure LinkState where
  gecko : Gecko Serial
  /-- the events that the target sent -/
  sent : List Message
  /-- those of them that nobody has read from the line -/
  onLine : List Message
  /-- what the calls of `gecko_peek_event` pointed to -/
  handedOut : List View
  responses : List Message
  answers : List View

/-- The events that wait in the queue. -/
def LinkState.queued (state : LinkState) : List View :=
  state.gecko.queue.contents.map GeckoCmdPacket.view

/-- The events that were handed out or still will be. -/
def LinkState.kept (state : LinkState) : List View :=
  state.handedOut ++ state.queued ++ state.onLine.map Message.view

/-- Bytes are sent to the host, and arrive in these chunks. -/
def Serial.receive (chunks : List (List UInt8)) (serial : Serial) : Serial :=
  { serial with later := serial.later ++ chunks }

/-- More messages than there are bytes are never read. -/
def Gecko.fuel (gecko : Gecko Serial) : Nat := gecko.line.unread.length + 2

inductive LinkOp where
  /-- the target sends an event -/
  | send (event : Message) (chunks : List (List UInt8))
  /-- time passes -/
  | elapse
  /-- the program calls `gecko_peek_event` -/
  | peek
  /-- the program sends a command; the target sends events, and then the response -/
  | command (packet : GeckoCmdPacket) (events : List Message) (response : Message)
      (chunks : List (List UInt8))

/-- The messages are of their kinds, and the chunks are their bytes. -/
def LinkOp.Sound : LinkOp → Prop
  | .send event chunks => event.IsEvent ∧ chunks.flatten = event.encode
  | .elapse | .peek => True
  | .command _ events response chunks =>
      (∀ event ∈ events, event.IsEvent) ∧ ¬ response.IsEvent ∧
        chunks.flatten = encodeAll events ++ response.encode

instance : (op : LinkOp) → Decidable op.Sound
  | .send _ _ => inferInstanceAs (Decidable (_ ∧ _))
  | .elapse | .peek => inferInstanceAs (Decidable True)
  | .command .. => inferInstanceAs (Decidable (_ ∧ _ ∧ _))

/-- One operation; `none` stands for a call that does not return. -/
def LinkOp.run (state : LinkState) : LinkOp → Option LinkState
  | .send event chunks => some { state with
      gecko := { state.gecko with line := state.gecko.line.receive chunks }
      sent := state.sent ++ [event]
      onLine := state.onLine ++ [event] }
  | .elapse => some { state with
      gecko := { state.gecko with line := state.gecko.line.elapse } }
  | .peek => (geckoPeekEvent uart state.gecko.fuel state.gecko).map fun result => { state with
      gecko := result.2
      handedOut := state.handedOut ++ ((result.2.packet result.1).map GeckoCmdPacket.view).toList
      -- an empty queue is filled from the line first
      onLine := if state.gecko.queue.Empty ∧ result.1 ≠ .null then state.onLine.tail
        else state.onLine }
  | .command packet events response chunks =>
      let gecko := { state.gecko with line := state.gecko.line.receive chunks }
      (geckoHandleCommand uart gecko.fuel packet gecko).map fun after => { state with
        gecko := after
        sent := state.sent ++ events
        onLine := []
        responses := state.responses ++ [response]
        answers := state.answers ++ [after.rspMsg.view] }

/-- The start of the program. -/
def LinkState.start : LinkState where
  gecko := {
    queue := {
      cells := Vector.replicate bglibQueueLen default
      w := 0
      r := 0
      wInside := by decide
      rInside := by decide }
    rspMsg := default
    line := { arrived := [], later := [], written := [] } }
  sent := []
  onLine := []
  handedOut := []
  responses := []
  answers := []

/-- A run of the link from the start of the program. -/
abbrev EventLinkRun (past : List (Move LinkState LinkOp)) (final : LinkState) : Prop :=
  Execution (fun state op after => op.Sound ∧ op.run state = some after) .start past final

/-!
## What one operation does

The invariant accounts for every byte on the line: they are those of the events that were sent
and not read.  A peek moves one event, a command as many as come before its response.
-/

/-- The bytes on the line are those of the events on it, nothing was handed out twice or in
another order, and every command was answered by its own response. -/
structure LinkState.Held (state : LinkState) : Prop where
  line : state.gecko.line.unread = encodeAll state.onLine
  events : ∀ event ∈ state.onLine, event.IsEvent
  order : state.kept.Sublist (state.sent.map Message.view)
  answered : state.answers = state.responses.map Message.view

/-- How many events a command makes the queue refuse. -/
def LinkOp.overflow (state : LinkState) : LinkOp → Nat
  | .command _ events _ _ =>
      state.queued.length + state.onLine.length + events.length - (bglibQueueLen - 1)
  | _ => 0

/-- The queue has room for all events that are read while a command waits for its response. -/
def LinkOp.FindsRoom (state : LinkState) : LinkOp → Prop
  | .command _ events _ _ =>
      state.queued.length + state.onLine.length + events.length < bglibQueueLen
  | _ => True

instance (state : LinkState) : (op : LinkOp) → Decidable (op.FindsRoom state)
  | .command .. => inferInstanceAs (Decidable (_ < _))
  | .send .. | .elapse | .peek => inferInstanceAs (Decidable True)

theorem findsRoom_iff {state : LinkState} {op : LinkOp} :
    op.FindsRoom state ↔ op.overflow state = 0 := by
  cases op with
  | command packet events response chunks =>
      simp only [LinkOp.FindsRoom, LinkOp.overflow, bglibQueueLen]
      omega
  | _ => exact iff_of_true trivial rfl

@[simp] theorem Serial.unread_receive (serial : Serial) (chunks : List (List UInt8)) :
    (serial.receive chunks).unread = serial.unread ++ chunks.flatten := by
  simp [Serial.receive, Serial.unread]

@[simp] theorem Serial.unread_elapse (serial : Serial) : serial.elapse.unread = serial.unread := by
  unfold Serial.elapse Serial.unread
  cases laterIs : serial.later with
  | nil => simp [laterIs]
  | cons next rest => simp

theorem length_le_encodeAll (messages : List Message) :
    messages.length ≤ (encodeAll messages).length := by
  induction messages with
  | nil => exact Nat.le_refl _
  | cons message messages hypothesis =>
      rw [encodeAll_cons, List.length_append, Message.length_encode, List.length_cons]
      omega

/-- What a peek points to, and what it leaves.  The queue comes first; only when it is empty, the
line is read. -/
inductive Peeked (state : LinkState) : GeckoPointer → Gecko Serial → Prop where
  /-- the queue holds an event -/
  | waiting (event : ¬ state.gecko.queue.Empty) :
      Peeked state (.queued state.gecko.queue.r)
        { state.gecko with queue := state.gecko.queue.next }
  /-- nothing has arrived -/
  | nothing (empty : state.gecko.queue.Empty) : Peeked state .null state.gecko
  /-- the event is read from the line, and taken from the queue -/
  | read {event : Message} {rest : List Message} {gecko : Gecko Serial}
      (empty : state.gecko.queue.Empty) (here : state.onLine = event :: rest)
      (unread : gecko.line.unread = encodeAll rest)
      (contents : gecko.queue.contents.map GeckoCmdPacket.view = [event.view]) :
      Peeked state (.queued gecko.queue.r) { gecko with queue := gecko.queue.next }

theorem peeked {state : LinkState} (held : state.Held) :
    ∃ pointer after, geckoPeekEvent uart state.gecko.fuel state.gecko = some (pointer, after) ∧
      Peeked state pointer after := by
  have fuel : state.gecko.fuel = state.gecko.line.unread.length + 1 + 1 := rfl
  rw [fuel, geckoPeekEvent, geckoGetEvent]
  by_cases empty : state.gecko.queue.Empty
  · rw [if_neg (not_not.mpr empty)]
    by_cases visible : uart.bglibPeek state.gecko.line = true
    · cases line : state.onLine with
      | nil =>
          have none_ : state.gecko.line.unread = [] := by rw [held.line, line]; rfl
          have peek : uart.bglibPeek state.gecko.line =
              !state.gecko.line.arrived.isEmpty := rfl
          rw [Serial.unread, List.append_eq_nil_iff] at none_
          rw [peek, none_.1] at visible
          cases visible
      | cons event rest =>
          have unread : state.gecko.line.unread = event.encode ++ encodeAll rest := by
            rw [held.line, line, encodeAll_cons]
          have isEvent := held.events event (line ▸ List.mem_cons_self)
          obtain ⟨gecko, waits, remains, _, queue⟩ := waitMessage_event unread isEvent
          have noContents := (Ring.empty_iff _).mp empty
          have notFull : ¬ state.gecko.queue.Full := by
            rw [Ring.full_iff, noContents]
            decide
          rw [if_neg notFull, noContents] at queue
          have waiting : ¬ gecko.queue.Empty := by
            rw [Ring.empty_iff]
            intro nothing
            rw [nothing] at queue
            cases queue
          refine ⟨_, _, ?_, .read empty line remains queue⟩
          rw [visible, waits]
          simp only [Bool.not_true, Bool.and_false, Bool.false_eq_true, if_false]
          rw [geckoGetEvent, if_pos waiting]
    · have blind := (Bool.not_eq_true _).mp visible
      refine ⟨_, _, ?_, .nothing empty⟩
      rw [blind]
      simp
  · refine ⟨_, _, ?_, .waiting empty⟩
    rw [if_pos empty]

/-- The packet of a cell that is read next is at the front of the queue. -/
theorem packet_queued (gecko : Gecko Serial) :
    ({ gecko with queue := gecko.queue.next } : Gecko Serial).packet (.queued gecko.queue.r) =
      some gecko.queue.head := by
  have inside := gecko.queue.rInside
  exact Vector.getElem?_eq_getElem inside

/-- The front of a queue that is not empty, as a reader sees it. -/
theorem contents_view {gecko : Gecko Serial} (waiting : ¬ gecko.queue.Empty) :
    gecko.queue.contents.map GeckoCmdPacket.view =
      gecko.queue.head.view :: gecko.queue.next.contents.map GeckoCmdPacket.view := by
  rw [Ring.contents_next waiting, List.map_cons]

/-- A peek moves an event from the queue or the line to the program. -/
theorem peek_step {state after : LinkState} (held : state.Held)
    (peeks : LinkOp.peek.run state = some after) :
    after.Held ∧ after.sent = state.sent ∧ after.kept = state.kept := by
  obtain ⟨pointer, gecko, isPeek, peeked⟩ := peeked held
  rw [LinkOp.run, isPeek, Option.map_some] at peeks
  obtain rfl := Option.some.inj peeks
  cases peeked with
  | waiting event =>
      have same : state.kept =
          state.handedOut ++ [state.gecko.queue.head.view] ++
            state.gecko.queue.next.contents.map GeckoCmdPacket.view ++
              state.onLine.map Message.view := by
        rw [LinkState.kept, LinkState.queued, contents_view event]
        simp
      have points := packet_queued state.gecko
      have notEmpty : ¬ (state.gecko.queue.Empty ∧
          (GeckoPointer.queued state.gecko.queue.r) ≠ .null) := fun both => event both.1
      simp only [points, if_neg notEmpty, Option.map_some, Option.toList_some]
      have kept : LinkState.kept { state with
          gecko := { state.gecko with queue := state.gecko.queue.next }
          handedOut := state.handedOut ++ [state.gecko.queue.head.view] } = state.kept := same.symm
      exact ⟨⟨held.line, held.events, kept ▸ held.order, held.answered⟩, trivial, kept⟩
  | nothing empty =>
      have isNull : ¬ (state.gecko.queue.Empty ∧ GeckoPointer.null ≠ .null) :=
        fun both => both.2 rfl
      simp only [if_neg isNull, Gecko.packet, Option.map_none, Option.toList_none,
        List.append_nil]
      exact ⟨held, trivial, trivial⟩
  | @read event rest gecko empty here unread contents =>
      have waiting : ¬ gecko.queue.Empty := by
        rw [Ring.empty_iff]
        intro nothing
        rw [nothing] at contents
        cases contents
      have points := packet_queued gecko
      rw [contents_view waiting] at contents
      obtain ⟨front, back⟩ := List.cons.inj contents
      have isRead : state.gecko.queue.Empty ∧
          (GeckoPointer.queued gecko.queue.r) ≠ .null := ⟨empty, fun same => by cases same⟩
      have same : state.kept = state.handedOut ++ [event.view] ++ [] ++
          rest.map Message.view := by
        rw [LinkState.kept, LinkState.queued, (Ring.empty_iff _).mp empty, here]
        simp
      simp only [points, if_pos isRead, Option.map_some, Option.toList_some, here,
        List.tail_cons, front]
      have kept : LinkState.kept { state with
          gecko := { gecko with queue := gecko.queue.next }
          handedOut := state.handedOut ++ [event.view]
          onLine := rest } = state.kept := by
        rw [same, LinkState.kept, LinkState.queued, back]
      refine ⟨⟨unread, ?_, kept ▸ held.order, held.answered⟩, trivial, kept⟩
      intro other member
      exact held.events other (here ▸ List.mem_cons_of_mem _ member)

/-- A command reads the line up to its response; the events it finds join the queue as far as
there is room. -/
theorem command_step {state : LinkState} {packet : GeckoCmdPacket} {events : List Message}
    {response : Message} {chunks : List (List UInt8)} (held : state.Held)
    (sound : (LinkOp.command packet events response chunks).Sound) :
    ∃ after, (LinkOp.command packet events response chunks).run state = some after ∧
      after.Held ∧ after.sent = state.sent ++ events ∧
      after.kept.length + (LinkOp.command packet events response chunks).overflow state =
        state.kept.length + events.length := by
  obtain ⟨areEvents, isResponse, bytes⟩ := sound
  have unread : (state.gecko.line.receive chunks).unread =
      encodeAll (state.onLine ++ events) ++ (response.encode ++ []) := by
    rw [Serial.unread_receive, held.line, bytes, encodeAll_append, List.append_nil,
      List.append_assoc]
  have every : ∀ event ∈ state.onLine ++ events, event.IsEvent := by
    intro event member
    exact (List.mem_append.mp member).elim (held.events event) (areEvents event)
  have fuel : (state.onLine ++ events).length <
      Gecko.fuel { state.gecko with line := state.gecko.line.receive chunks } := by
    have bound := length_le_encodeAll (state.onLine ++ events)
    have within : (encodeAll (state.onLine ++ events)).length ≤
        (encodeAll (state.onLine ++ events) ++ (response.encode ++ [])).length :=
      (List.sublist_append_left _ _).length_le
    rw [Gecko.fuel, unread]
    omega
  obtain ⟨gecko, returns, nothing, sees, queue⟩ :=
    @waitResponse_events (state.onLine ++ events) response _
      { state.gecko with
        line := uart.bglibOutput packet.wire (state.gecko.line.receive chunks) } [] unread every
      isResponse fuel
  refine ⟨_, by rw [LinkOp.run, geckoHandleCommand, returns, Option.map_some], ?_, rfl, ?_⟩
  · refine ⟨nothing, fun event member => absurd member List.not_mem_nil, ?_, ?_⟩
    · have order := held.order.append (List.Sublist.refl (events.map Message.view))
      rw [← List.map_append] at order
      refine List.Sublist.trans ?_ order
      simp only [LinkState.kept, LinkState.queued, queue, List.map_nil, List.append_nil,
        List.append_assoc, ← List.map_append]
      exact (List.Sublist.refl _).append ((List.Sublist.refl _).append
        ((List.take_sublist _ _).map _))
    · simp only [held.answered, sees, List.map_append, List.map_singleton]
  · have bound := state.gecko.queue.used_lt
    rw [← Ring.length_contents] at bound
    simp only [LinkState.kept, LinkState.queued, queue, LinkOp.overflow, List.length_append,
      List.length_map, List.length_take, List.map_nil, List.length_nil]
    omega

/-- An operation with sound messages returns, and loses the events that find no room. -/
theorem link_step {state : LinkState} {op : LinkOp} (held : state.Held) (sound : op.Sound) :
    ∃ after, op.run state = some after ∧ after.Held ∧
      after.sent.length + state.kept.length =
        state.sent.length + after.kept.length + op.overflow state := by
  cases op with
  | send event chunks =>
      obtain ⟨isEvent, bytes⟩ := sound
      have kept : LinkState.kept { state with
          gecko := { state.gecko with line := state.gecko.line.receive chunks }
          sent := state.sent ++ [event]
          onLine := state.onLine ++ [event] } = state.kept ++ [event.view] := by
        simp [LinkState.kept, LinkState.queued]
      refine ⟨_, rfl, ⟨?_, ?_, ?_, held.answered⟩, ?_⟩
      · rw [Serial.unread_receive, held.line, bytes, encodeAll_append, encodeAll_cons,
          encodeAll_nil, List.append_nil]
      · intro other member
        rcases List.mem_append.mp member with old | new
        · exact held.events other old
        · rwa [List.mem_singleton.mp new]
      · rw [kept, List.map_append]
        exact held.order.append (List.Sublist.refl _)
      · rw [kept]
        simp only [LinkOp.overflow, List.length_append, List.length_singleton]
        omega
  | elapse =>
      have line : state.gecko.line.elapse.unread = encodeAll state.onLine := by
        rw [Serial.unread_elapse, held.line]
      exact ⟨_, rfl, ⟨line, held.events, held.order, held.answered⟩, rfl⟩
  | peek =>
      obtain ⟨pointer, gecko, isPeek, _⟩ := peeked held
      have some_ : (LinkOp.peek.run state).isSome := by
        rw [LinkOp.run, isPeek]
        rfl
      obtain ⟨after, returns⟩ := Option.isSome_iff_exists.mp some_
      obtain ⟨heldAfter, sent, kept⟩ := peek_step held returns
      refine ⟨after, returns, heldAfter, ?_⟩
      rw [sent, kept]
      rfl
  | command packet events response chunks =>
      obtain ⟨after, returns, heldAfter, sent, kept⟩ := command_step held sound
      refine ⟨after, returns, heldAfter, ?_⟩
      rw [sent, List.length_append]
      omega

theorem kept_start : LinkState.start.kept = [] := by
  have empty : LinkState.start.gecko.queue.contents = [] := (Ring.empty_iff _).mp rfl
  rw [LinkState.kept, LinkState.queued, empty]
  rfl

theorem held_start : LinkState.start.Held where
  line := rfl
  events := fun _ member => absurd member List.not_mem_nil
  order := kept_start ▸ List.Sublist.refl _
  answered := rfl

/-! ## Runs keep their events -/

/-- In every state of a run, all bytes are accounted for; nothing is lost as long as every
command finds room. -/
theorem link_accounts {past : List (Move LinkState LinkOp)} {final : LinkState}
    (run : EventLinkRun past final) :
    final.Held ∧ (final.kept.length = final.sent.length ↔ Guarded LinkOp.FindsRoom past) := by
  induction run with
  | start =>
      refine ⟨held_start, iff_of_true ?_ (guarded_nil _)⟩
      rw [kept_start]
      rfl
  | @extend current following op past earlier taken hypothesis =>
      obtain ⟨held, counted⟩ := hypothesis
      obtain ⟨after, returns, heldAfter, lengths⟩ := link_step held taken.1
      obtain rfl := Option.some.inj (returns.symm.trans taken.2)
      refine ⟨heldAfter, ?_⟩
      have most := held.order.length_le
      rw [List.length_map] at most
      rw [guarded_snoc, ← counted, findsRoom_iff]
      dsimp only
      omega

/-- In every run of the link, each command returns with the response to it, whatever else
arrives; events are handed out at most once and in their order; and all of them are handed out or
kept for it, if and only if at most 29 events had to wait whenever a command was sent.  The queue
has room for 29 of them; the next one is dropped by the library. -/
theorem link_delivers_iff {past : List (Move LinkState LinkOp)} {final : LinkState}
    (run : EventLinkRun past final) :
    final.answers = final.responses.map Message.view ∧
      final.kept.Sublist (final.sent.map Message.view) ∧
      (∀ op : LinkOp, op.Sound → (op.run final).isSome) ∧
      (final.kept = final.sent.map Message.view ↔ Guarded LinkOp.FindsRoom past) := by
  obtain ⟨held, counted⟩ := link_accounts run
  refine ⟨held.answered, held.order, fun op sound => ?_, ?_⟩
  · obtain ⟨after, returns, _⟩ := link_step held sound
    rw [returns]
    rfl
  · rw [← counted]
    constructor
    · intro same
      rw [same, List.length_map]
    · intro same
      exact held.order.eq_of_length (by rw [same, List.length_map])

theorem extend_eventLink {past : List (Move LinkState LinkOp)} {final after : LinkState}
    (run : EventLinkRun past final) (op : LinkOp) (sound : op.Sound)
    (returns : op.run final = some after) : EventLinkRun (past ++ [⟨final, op, after⟩]) after :=
  run.extend ⟨sound, returns⟩

/-- An event with a payload of two bytes. -/
def sampleEvent : Message where
  header := 0x041a02a0
  payload := [0x01, 0x00]
  kind := by decide
  sized := by decide
  fits := by decide

/-- An event without a payload. -/
def sampleBoot : Message where
  header := 0x000100a0
  payload := []
  kind := by decide
  sized := by decide
  fits := by decide

def sampleResponse : Message where
  header := 0x00050220
  payload := [0x00, 0x00]
  kind := by decide
  sized := by decide
  fits := by decide

/-- An event arrives in two chunks before a command, and another one before its response: the
response is returned, and both events are handed out behind it. -/
theorem link_delivers_sample : ∃ past final, EventLinkRun past final ∧
    final.answers = [sampleResponse.view] ∧
    final.handedOut = [sampleEvent.view, sampleBoot.view] ∧
    final.kept = final.sent.map Message.view ∧ Guarded LinkOp.FindsRoom past := by
  have sent := extend_eventLink .start
    (.send sampleEvent [[0xa0, 0x02], [0x1a, 0x04, 0x01, 0x00]]) (by decide) rfl
  have answered := extend_eventLink sent (.command { header := 0x00050020, payload := [] }
    [sampleBoot] sampleResponse [[0xa0, 0x00, 0x01], [0x00, 0x20, 0x02, 0x05, 0x00, 0x00, 0x00]])
    (by decide) rfl
  have first := extend_eventLink answered .peek trivial rfl
  have second := extend_eventLink first .peek trivial rfl
  obtain ⟨responses, _, _, kept⟩ := link_delivers_iff second
  have all := kept.mpr (by decide)
  exact ⟨_, _, second, responses, by decide, all, kept.mp all⟩

/-!
## A packet that was handed out

`gecko_get_event` returns a pointer into the ring and moves the read index past the cell at once.
The cell is free from then on, but the ring never writes to the cell before its read index: that
is the one that stays empty.  A handler may therefore send commands and go on reading its event.
-/

variable {Line : Type} {line : BgUart Line}

/-- What reading a message can do to the queue. -/
def Grows (before after : Ring GeckoCmdPacket bglibQueueLen) : Prop :=
  after = before ∨ ∃ packet, ¬ before.Full ∧ after = before.put packet

theorem takeMessage_grows {header : UInt32} {gecko after : Gecko Line} {found : Bool}
    (takes : geckoTakeMessage line header gecko = some (found, after)) :
    Grows gecko.queue after.queue := by
  unfold geckoTakeMessage at takes
  split at takes
  · cases takes
    exact .inl rfl
  · split at takes
    · split at takes
      · obtain ⟨_, _, same⟩ := Option.map_eq_some_iff.mp takes
        cases same
        exact .inl rfl
      · next room =>
          obtain ⟨result, _, same⟩ := Option.map_eq_some_iff.mp takes
          cases same
          exact .inr ⟨result.2.1, room, rfl⟩
    · split at takes
      · obtain ⟨_, _, same⟩ := Option.map_eq_some_iff.mp takes
        cases same
        exact .inl rfl
      · cases takes
        exact .inl rfl

theorem waitMessage_grows {gecko after : Gecko Line} {found : Bool}
    (waits : geckoWaitMessage line gecko = some (found, after)) :
    Grows gecko.queue after.queue := by
  unfold geckoWaitMessage at waits
  split at waits
  · cases waits
  · cases waits
    exact .inl rfl
  · split at waits
    · cases waits
      exact .inl rfl
    · split at waits
      · cases waits
      · cases waits
        exact .inl rfl
      · have grows := takeMessage_grows waits
        exact grows

/-- The cell that was read last, and its place, are as before.  The event in it is still being
worked on when the handler sends a command. -/
def KeepsLent (before after : Ring GeckoCmdPacket bglibQueueLen) : Prop :=
  after.r = before.r ∧ after.lent = before.lent

theorem Grows.keepsLent {before after : Ring GeckoCmdPacket bglibQueueLen}
    (grows : Grows before after) : KeepsLent before after := by
  rcases grows with rfl | ⟨packet, room, rfl⟩
  · exact ⟨rfl, rfl⟩
  · exact ⟨Ring.put_r before packet, Ring.lent_put room packet⟩

theorem KeepsLent.trans {first second third : Ring GeckoCmdPacket bglibQueueLen}
    (one : KeepsLent first second) (two : KeepsLent second third) : KeepsLent first third :=
  ⟨two.1.trans one.1, two.2.trans one.2⟩

theorem waitResponse_keepsLent {fuel : Nat} {gecko after : Gecko Line}
    (waits : geckoWaitResponse line fuel gecko = some after) :
    KeepsLent gecko.queue after.queue := by
  induction fuel generalizing gecko with
  | zero => cases waits
  | succ fuel hypothesis =>
      rw [geckoWaitResponse] at waits
      cases message : geckoWaitMessage line gecko with
      | none =>
          rw [message] at waits
          cases waits
      | some result =>
          obtain ⟨found, next⟩ := result
          rw [message] at waits
          dsimp only at waits
          have first := (waitMessage_grows message).keepsLent
          split at waits
          · cases waits
            exact first
          · exact first.trans (hypothesis waits)

/-- The commands of a handler, each with as many messages as it may read. -/
def handleCommands (line : BgUart Line) (commands : List (Nat × GeckoCmdPacket))
    (gecko : Gecko Line) : Option (Gecko Line) :=
  commands.foldlM (fun gecko command => geckoHandleCommand line command.1 command.2 gecko) gecko

theorem handleCommands_keepsLent {commands : List (Nat × GeckoCmdPacket)}
    {gecko after : Gecko Line} (handled : handleCommands line commands gecko = some after) :
    KeepsLent gecko.queue after.queue := by
  induction commands generalizing gecko with
  | nil =>
      cases handled
      exact ⟨rfl, rfl⟩
  | cons command commands hypothesis =>
      obtain ⟨next, handles, others⟩ := Option.bind_eq_some_iff.mp handled
      have waits : geckoWaitResponse line command.1 { gecko with
          line := line.bglibOutput command.2.wire gecko.line } = some next := handles
      have first := waitResponse_keepsLent waits
      exact KeepsLent.trans first (hypothesis others)

/-- An event is handed out by its place in the queue, which is then the one that was read
last. -/
theorem getEvent_lends {block : Bool} {fuel : Nat} {gecko after : Gecko Line} {place : Nat}
    (taken : geckoGetEvent line block fuel gecko = some (.queued place, after)) :
    place = after.queue.lentPlace := by
  induction fuel generalizing gecko with
  | zero => cases taken
  | succ fuel hypothesis =>
      rw [geckoGetEvent] at taken
      split at taken
      · cases taken
        exact (Ring.lentPlace_next _).symm
      · split at taken
        · cases taken
        · split at taken
          · cases taken
          · cases taken
          · exact hypothesis taken

theorem packet_lent (gecko : Gecko Line) :
    gecko.packet (.queued gecko.queue.lentPlace) = some gecko.queue.lent :=
  Vector.getElem?_eq_getElem gecko.queue.lentPlace_lt

/-- While a handler works on an event it was given, the commands it sends do not touch the
packet: on any line and whatever is read while they wait, the event stays in its cell.  The
pointer that the handler holds leads into a cell that the queue counts as free. -/
theorem commands_keep_packet {block : Bool} {fuel : Nat} {gecko after later : Gecko Line}
    {place : Nat} {commands : List (Nat × GeckoCmdPacket)}
    (taken : geckoGetEvent line block fuel gecko = some (.queued place, after))
    (handled : handleCommands line commands after = some later) :
    later.packet (.queued place) = after.packet (.queued place) ∧
      (after.packet (.queued place)).isSome := by
  obtain ⟨samePlace, sameCell⟩ := handleCommands_keepsLent handled
  have lends := getEvent_lends taken
  have lendsLater : place = later.queue.lentPlace := by
    rw [lends, Ring.lentPlace, Ring.lentPlace, samePlace]
  constructor
  · calc later.packet (.queued place) = some later.queue.lent := by
          rw [lendsLater, packet_lent]
      _ = some after.queue.lent := by rw [sameCell]
      _ = after.packet (.queued place) := by rw [lends, packet_lent]
  · rw [lends, packet_lent]
    rfl

/-- A queue with one event, and another event and a response on the line. -/
def sampleGecko : Gecko Serial where
  queue := LinkState.start.gecko.queue.put { header := 0x041a02a0, payload := [0x01, 0x00] }
  rspMsg := default
  line := {
    arrived := [0xa0, 0x00, 0x01, 0x00, 0x20, 0x02, 0x05, 0x00, 0x00, 0x00]
    later := []
    written := [] }

/-- An event is handed out, and a command waits while another event is put into the queue. -/
theorem commands_keep_sample : ∃ after later : Gecko Serial,
    geckoGetEvent uart true 1 sampleGecko = some (.queued 0, after) ∧
      handleCommands uart [(2, default)] after = some later ∧
      later.queue.contents.map GeckoCmdPacket.view = [sampleBoot.view] ∧
      later.packet (.queued 0) = after.packet (.queued 0) := by
  have taken : geckoGetEvent uart true 1 sampleGecko =
      some (.queued 0, { sampleGecko with queue := sampleGecko.queue.next }) := rfl
  have handled : handleCommands uart [(2, default)]
      { sampleGecko with queue := sampleGecko.queue.next } = some _ := rfl
  exact ⟨_, _, taken, handled, by decide, (commands_keep_packet taken handled).1⟩

end Nwmng
