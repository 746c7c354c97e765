import Mathlib.Algebra.BigOperators.Group.Finset.Basic
import Mathlib.Algebra.Order.BigOperators.Group.Finset
import SplitEsb.Reply.Queue

/-! # Replies parked in the radio
The radio keeps the replies of all pipes in one FIFO. A reply leaves on an ACK of its
own pipe only, and is removed by the packet after that one. -/

namespace SplitEsb

open ByteString Transition

variable {config : ReplyConfig}

/-! ## The FIFO -/

def esbPipeCount : ℕ := 8

/-- The replies parked for each pipe, oldest first, and whether the oldest already
rode an ACK. -/
structure AckQueues where
  replies : ℕ → List Bytes
  offered : ℕ → Bool

namespace AckQueues

def empty : AckQueues := ⟨fun _ => [], fun _ => false⟩

/-- The slots of the shared FIFO that are taken. -/
def used (queues : AckQueues) : ℕ := ∑ pipe ∈ Finset.range esbPipeCount, (queues.replies pipe).length

/-- esb_write_payload. -/
def write (txFifoSize maxPayload : ℕ) (queues : AckQueues) (pipe : ℕ) (data : Bytes) :
    AckQueues × Bool :=
  if data.length = 0 ∨ maxPayload < data.length then (queues, false)
  else if txFifoSize ≤ queues.used then (queues, false)
  else if esbPipeCount ≤ pipe then (queues, false)
  else
    ({ queues with
        replies := Function.update queues.replies pipe (queues.replies pipe ++ [data]) }, true)

/-- A new packet that asks for an ACK: the reply offered before it is removed, and the
next one rides its ACK. -/
def answer (queues : AckQueues) (pipe : ℕ) : AckQueues :=
  let replies :=
    if queues.offered pipe then (queues.replies pipe).drop 1 else queues.replies pipe
  { replies := Function.update queues.replies pipe replies
    offered := Function.update queues.offered pipe !replies.isEmpty }

def afterWrites (txFifoSize maxPayload : ℕ) (queues : AckQueues) (writes : List AckWrite) :
    AckQueues :=
  writes.foldl (fun queues write =>
    (queues.write txFifoSize maxPayload write.pipe write.data).1) queues

/-- Room for the replies a pipe is still to get, one more once its oldest rode an ACK. -/
def Room (queues : AckQueues) (limit pipe owed : ℕ) : Prop :=
  (queues.replies pipe).length + owed ≤ limit + (queues.offered pipe).toNat

variable {queues : AckQueues} {limit pipe other owed : ℕ}

theorem room_empty (h : owed ≤ limit) : empty.Room limit pipe owed := by
  simpa [Room, empty] using h

theorem Room.length_le (h : queues.Room limit pipe owed) :
    (queues.replies pipe).length + owed ≤ limit + 1 := by
  have := Bool.toNat_le (queues.offered pipe)
  exact h.trans (by omega)

theorem Room.mono {fewer : ℕ} (h : queues.Room limit pipe owed) (hle : fewer ≤ owed) :
    queues.Room limit pipe fewer := (Nat.add_le_add_left hle _).trans h

/-- A packet that asks takes the reply offered before it along. -/
theorem Room.answer {more : ℕ} (h : queues.Room limit pipe owed) (hmore : more ≤ owed + 1)
    (hle : more ≤ limit) : (queues.answer pipe).Room limit pipe more := by
  have hrest : (if queues.offered pipe then (queues.replies pipe).drop 1
      else queues.replies pipe).length + owed ≤ limit ∨
      (if queues.offered pipe then (queues.replies pipe).drop 1 else queues.replies pipe) = [] := by
    rw [Room] at h
    cases hoffered : queues.offered pipe with
    | false =>
        rw [hoffered] at h
        exact .inl h
    | true =>
        rw [hoffered, Bool.toNat_true] at h
        rw [if_pos rfl, List.drop_eq_nil_iff, List.length_drop]
        omega
  rw [Room]
  simp only [AckQueues.answer, Function.update_self]
  generalize (if queues.offered pipe then (queues.replies pipe).drop 1 else queues.replies pipe) =
    rest at hrest
  cases rest with
  | nil => simpa using hle
  | cons first rest =>
      have hfits := hrest.resolve_right (List.cons_ne_nil first rest)
      simp only [List.isEmpty_cons, Bool.not_false, Bool.toNat_true]
      omega

theorem answer_of_ne (hne : other ≠ pipe) : (queues.answer pipe).replies other = queues.replies other ∧
    (queues.answer pipe).offered other = queues.offered other := by
  simp [AckQueues.answer, hne]

theorem Room.answer_of_ne (h : queues.Room limit other owed) (hne : other ≠ pipe) :
    (queues.answer pipe).Room limit other owed := by
  obtain ⟨hreplies, hoffered⟩ := queues.answer_of_ne hne
  rwa [Room, hreplies, hoffered]

theorem replies_answer_eq_nil (h : queues.replies other = []) :
    (queues.answer pipe).replies other = [] := by
  rcases eq_or_ne other pipe with rfl | hne
  · simp [AckQueues.answer, h]
  · exact (queues.answer_of_ne hne).1.trans h

variable {txFifoSize maxPayload : ℕ} {data : Bytes}

/-- A write that is taken parks its reply behind those of the pipe. -/
theorem write_eq (txFifoSize maxPayload : ℕ) (queues : AckQueues) (pipe : ℕ) (data : Bytes) :
    (queues.write txFifoSize maxPayload pipe data).1.offered = queues.offered ∧
      ∀ other, (queues.write txFifoSize maxPayload pipe data).1.replies other =
        queues.replies other ++
          if (queues.write txFifoSize maxPayload pipe data).2 && other == pipe then [data] else [] := by
  rw [AckQueues.write]
  split_ifs
  · exact ⟨rfl, fun _ => (List.append_nil _).symm⟩
  · exact ⟨rfl, fun _ => (List.append_nil _).symm⟩
  · exact ⟨rfl, fun _ => (List.append_nil _).symm⟩
  · refine ⟨rfl, fun other => ?_⟩
    rcases eq_or_ne other pipe with rfl | hne
    · simp
    · simp [hne]

theorem replies_write_of_ne (hne : other ≠ pipe) :
    (queues.write txFifoSize maxPayload pipe data).1.replies other = queues.replies other := by
  rw [(queues.write_eq txFifoSize maxPayload pipe data).2, beq_eq_false_iff_ne.mpr hne,
    Bool.and_false]
  exact List.append_nil _

theorem Room.write (h : queues.Room limit pipe (owed + 1)) :
    (queues.write txFifoSize maxPayload pipe data).1.Room limit pipe owed := by
  obtain ⟨hoffered, hreplies⟩ := queues.write_eq txFifoSize maxPayload pipe data
  rw [Room] at h ⊢
  rw [hoffered, hreplies, List.length_append]
  split_ifs
  · rw [List.length_singleton]
    omega
  · rw [List.length_nil]
    omega

theorem Room.write_of_ne (h : queues.Room limit other owed) (hne : other ≠ pipe) :
    (queues.write txFifoSize maxPayload pipe data).1.Room limit other owed := by
  rwa [Room, (queues.write_eq txFifoSize maxPayload pipe data).1, replies_write_of_ne hne]

theorem used_eq {pipeCount : ℕ} (hcount : pipeCount ≤ esbPipeCount)
    (hempty : ∀ pipe, pipeCount ≤ pipe → queues.replies pipe = []) :
    queues.used = ∑ pipe ∈ Finset.range pipeCount, (queues.replies pipe).length := by
  refine (Finset.sum_subset (Finset.range_subset_range.mpr hcount) fun other _ hother => ?_).symm
  rw [hempty other (by simpa using hother)]
  rfl

/-- With room for one more on this pipe, and the other pipes in use within their bound,
a FIFO with as many slots for each pipe has one left. -/
theorem used_lt {pipeCount : ℕ} (hcount : pipeCount ≤ esbPipeCount) (hpipe : pipe < pipeCount)
    (hbound : ∀ pipe < pipeCount, (queues.replies pipe).length ≤ limit)
    (hroom : (queues.replies pipe).length < limit)
    (hempty : ∀ pipe, pipeCount ≤ pipe → queues.replies pipe = []) :
    queues.used < limit * pipeCount := by
  calc queues.used = ∑ pipe ∈ Finset.range pipeCount, (queues.replies pipe).length :=
      used_eq hcount hempty
    _ < ∑ pipe ∈ Finset.range pipeCount, limit :=
      Finset.sum_lt_sum (fun other hother => hbound other (Finset.mem_range.mp hother))
        ⟨pipe, Finset.mem_range.mpr hpipe, hroom⟩
    _ = limit * pipeCount := by simp [Nat.mul_comm]

theorem write_accepted (hpos : 0 < data.length) (hle : data.length ≤ maxPayload)
    (hroom : queues.used < txFifoSize) (hpipe : pipe < esbPipeCount) :
    (queues.write txFifoSize maxPayload pipe data).2 = true := by
  rw [AckQueues.write, if_neg (by omega), if_neg (by omega), if_neg (by omega)]

end AckQueues

/-! ## The radio and its interrupt -/

/-- A new packet of a pipe, and whether its sender wants no ACK. -/
structure RxPacket where
  pipe : ℕ
  noack : Bool
  deriving DecidableEq, Repr

/-- `received` waits in the RX FIFO, `pipesAcked` is what the drain under way saw, and
`serving` the pipes that are to get their replies after it. -/
structure AckRadio (config : ReplyConfig) where
  link : ReplyLink config
  queues : AckQueues
  received : List RxPacket
  pipesAcked : UInt8
  serving : List ℕ

/-- A statement of a thread, a packet that arrives, or the next call of the interrupt to
the radio. -/
inductive AckRadioAction where
  | thread (action : ReplyAction)
  | arrive (packet : RxPacket)
  | interrupt

namespace AckRadio

def boot (config : ReplyConfig) : AckRadio config := ⟨.boot config, .empty, [], 0, []⟩

/-- The radio answers by itself, also while the interrupt runs. -/
def arrive (radio : AckRadio config) (packet : RxPacket) : AckRadio config :=
  { radio with
    queues := if packet.noack then radio.queues else radio.queues.answer packet.pipe
    received := radio.received ++ [packet] }

/-- The FIFO after the writes the turn of a pipe made so far. -/
def queuesAt (txFifoSize : ℕ) (radio : AckRadio config) (writes : List AckWrite) : AckQueues :=
  radio.queues.afterWrites txFifoSize config.maxPayload (writes.drop radio.link.writes.length)

def ackFifo (txFifoSize : ℕ) (radio : AckRadio config) : AckFifo := fun writes pipe data =>
  ((radio.queuesAt txFifoSize writes).write txFifoSize config.maxPayload pipe data).2

/-- The mask of the pipes that asked, after one more packet was read. -/
def askedBy (pipesAcked : UInt8) (packet : RxPacket) : UInt8 :=
  if packet.noack then pipesAcked else BitTable.writeBit pipesAcked packet.pipe true

/-- One pipe of esb_link_role_rx_done, with others after it. -/
def serve (txFifoSize : ℕ) (radio : AckRadio config) (pipe : ℕ) (pipes : List ℕ) : AckRadio config :=
  let link := ReplyLink.replyTo (radio.ackFifo txFifoSize) radio.link pipe
  { radio with link := link, queues := radio.queuesAt txFifoSize link.writes, serving := pipes }

/-- A read of the drain that finds a packet. -/
def readRx (radio : AckRadio config) (packet : RxPacket) (received : List RxPacket) :
    AckRadio config :=
  { radio with received := received, pipesAcked := askedBy radio.pipesAcked packet }

/-- The read that finds nothing ends the drain, and esb_link_role_rx_done begins. -/
def endDrain (radio : AckRadio config) : AckRadio config :=
  { radio with pipesAcked := 0, serving := ReplyLink.servedPipes config radio.pipesAcked }

/-- The next step of on_esb_event: the turn of a pipe, or else a read of the RX FIFO. -/
def interrupt (txFifoSize : ℕ) (radio : AckRadio config) : AckRadio config :=
  match radio.serving, radio.received with
  | pipe :: pipes, _ => radio.serve txFifoSize pipe pipes
  | [], packet :: received => radio.readRx packet received
  | [], [] => radio.endDrain

def step (txFifoSize : ℕ) (radio : AckRadio config) : AckRadioAction → AckRadio config
  | .thread (.rxDone _ _) => radio
  | .thread action => { radio with link := radio.link.step action }
  | .arrive packet => radio.arrive packet
  | .interrupt => radio.interrupt txFifoSize

theorem interrupt_serve {txFifoSize pipe : ℕ} {radio : AckRadio config} {pipes : List ℕ}
    (hserving : radio.serving = pipe :: pipes) :
    radio.interrupt txFifoSize = radio.serve txFifoSize pipe pipes := by
  rw [interrupt, hserving]

theorem interrupt_read {txFifoSize : ℕ} {radio : AckRadio config} {packet : RxPacket}
    {received : List RxPacket} (hserving : radio.serving = [])
    (hreceived : radio.received = packet :: received) :
    radio.interrupt txFifoSize = radio.readRx packet received := by
  rw [interrupt, hserving, hreceived]

theorem interrupt_drained {txFifoSize : ℕ} {radio : AckRadio config} (hserving : radio.serving = [])
    (hreceived : radio.received = []) : radio.interrupt txFifoSize = radio.endDrain := by
  rw [interrupt, hserving, hreceived]

/-! ### What a pipe is owed -/

/-- A packet of the pipe asked for an ACK, and its drain did not end yet. -/
def asked (radio : AckRadio config) (pipe : ℕ) : Bool :=
  BitTable.readBit radio.pipesAcked pipe ||
    radio.received.any fun packet => !packet.noack && packet.pipe == pipe

/-- The turns that the pipe is still to get for the packets that arrived. -/
def owed (radio : AckRadio config) (pipe : ℕ) : ℕ :=
  (if pipe ∈ radio.serving then 1 else 0) + (radio.asked pipe).toNat

variable {limit txFifoSize pipe other : ℕ} {radio : AckRadio config}

theorem owed_le_two : radio.owed pipe ≤ 2 := by
  have := Bool.toNat_le (radio.asked pipe)
  rw [owed]
  split_ifs <;> omega

theorem asked_arrive (packet : RxPacket) :
    (radio.arrive packet).asked pipe =
      (radio.asked pipe || !packet.noack && packet.pipe == pipe) := by
  simp [asked, AckRadio.arrive, Bool.or_assoc]

theorem owed_arrive_of_not {packet : RxPacket} (hother : ¬(packet.noack = false ∧ packet.pipe = pipe)) :
    (radio.arrive packet).owed pipe = radio.owed pipe := by
  have hasked : (!packet.noack && packet.pipe == pipe) = false := by
    rw [← Bool.not_eq_true]
    simpa using hother
  rw [owed, owed, asked_arrive, hasked, Bool.or_false]
  rfl

theorem owed_arrive_le (packet : RxPacket) :
    (radio.arrive packet).owed pipe ≤ radio.owed pipe + 1 := by
  have := Bool.toNat_le ((radio.arrive packet).asked pipe)
  change (if pipe ∈ radio.serving then 1 else 0) + _ ≤ _
  rw [owed]
  omega

/-- Reading a packet moves its request from the FIFO into the mask. -/
theorem asked_readRx (hpipe : pipe < 8) {packet : RxPacket} {received : List RxPacket}
    (hreceived : radio.received = packet :: received) :
    (radio.readRx packet received).asked pipe = radio.asked pipe := by
  rw [asked, asked, hreceived, List.any_cons, AckRadio.readRx, askedBy]
  cases hnoack : packet.noack with
  | true => simp
  | false =>
      rw [if_neg Bool.false_ne_true, BitTable.readBit_writeBit hpipe]
      rcases eq_or_ne packet.pipe pipe with hsame | hne
      · simp [hsame]
      · simp [hne, beq_eq_false_iff_ne.mpr hne]

/-- The end of a drain turns what was asked for into turns. -/
theorem owed_endDrain (hpipe : pipe < config.pipeCount) (hserving : radio.serving = [])
    (hreceived : radio.received = []) : radio.endDrain.owed pipe = radio.owed pipe := by
  simp only [owed, asked, endDrain, hreceived, hserving, ReplyLink.mem_servedPipes, hpipe, true_and]
  cases BitTable.readBit radio.pipesAcked pipe <;> simp [BitTable.readBit]

/-! ### One turn -/

theorem queuesAt_start (txFifoSize : ℕ) (radio : AckRadio config) :
    radio.queuesAt txFifoSize radio.link.writes = radio.queues := by
  rw [queuesAt, List.drop_length]
  rfl

/-- The turn of a pipe hands over one payload for it, or none. -/
theorem serve_cases (txFifoSize : ℕ) (pipes : List ℕ) (hsound : radio.link.CellsSound)
    (hqueue : radio.link.QueueSound pipe) :
    ((radio.serve txFifoSize pipe pipes).link.writes = radio.link.writes ∧
        (radio.serve txFifoSize pipe pipes).queues = radio.queues) ∨
      ∃ write : AckWrite, write.pipe = pipe ∧ 0 < write.data.length ∧
        write.data.length ≤ config.maxPayload ∧
        write.accepted = (radio.queues.write txFifoSize config.maxPayload pipe write.data).2 ∧
        (radio.serve txFifoSize pipe pipes).link.writes = radio.link.writes ++ [write] ∧
        (radio.serve txFifoSize pipe pipes).queues =
          (radio.queues.write txFifoSize config.maxPayload pipe write.data).1 := by
  have hstart := radio.queuesAt_start txFifoSize
  rcases ReplyLink.writesOnce_replyTo hsound hqueue (radio.ackFifo txFifoSize) with
    hkept | ⟨source, data, hpos, hle, hmade⟩
  · refine .inl ⟨hkept, ?_⟩
    change radio.queuesAt txFifoSize (ReplyLink.replyTo _ radio.link pipe).writes = radio.queues
    rw [hkept, hstart]
  · refine .inr ⟨radio.link.attempt (radio.ackFifo txFifoSize) pipe source data, rfl, hpos, hle, ?_,
      hmade, ?_⟩
    · change ((radio.queuesAt txFifoSize radio.link.writes).write _ _ pipe data).2 = _
      rw [hstart]
      rfl
    · change radio.queuesAt txFifoSize (ReplyLink.replyTo _ radio.link pipe).writes = _
      rw [hmade, queuesAt, List.drop_left]
      rfl

/-! ### What holds between the steps -/

/-- Each pipe has room for the replies it is owed, within a limit on these. -/
structure Holds (limit txFifoSize : ℕ) (radio : AckRadio config) : Prop where
  sound : radio.link.CellsSound
  queue : ∀ pipe, radio.link.QueueSound pipe
  serving : radio.serving.Sublist (List.range config.pipeCount)
  owed : ∀ pipe < config.pipeCount, radio.owed pipe ≤ limit
  room : ∀ pipe < config.pipeCount, radio.queues.Room limit pipe (radio.owed pipe)
  empty : ∀ pipe, config.pipeCount ≤ pipe → radio.queues.replies pipe = []
  accepted : (limit + 1) * config.pipeCount ≤ txFifoSize →
    ∀ write ∈ radio.link.writes, write.accepted = true

theorem Holds.boot (limit txFifoSize : ℕ) (config : ReplyConfig) :
    (boot config).Holds limit txFifoSize := by
  have howed : ∀ pipe, (AckRadio.boot config).owed pipe = 0 := fun pipe => by
    simp [AckRadio.owed, asked, AckRadio.boot, BitTable.readBit]
  exact
    { sound := ReplyLink.CellsSound.boot config
      queue := ReplyLink.QueueSound.boot config
      serving := List.nil_sublist _
      owed := fun pipe _ => (howed pipe).trans_le (Nat.zero_le limit)
      room := fun pipe _ => AckQueues.room_empty ((howed pipe).trans_le (Nat.zero_le limit))
      empty := fun _ _ => rfl
      accepted := by intro _ write hmem; cases hmem }

theorem Holds.length_le (h : radio.Holds limit txFifoSize) (pipe : ℕ) :
    (radio.queues.replies pipe).length ≤ limit + 1 := by
  rcases Nat.lt_or_ge pipe config.pipeCount with hpipe | hpipe
  · have := (h.room pipe hpipe).length_le
    omega
  · rw [h.empty pipe hpipe]
    exact Nat.zero_le _

theorem step_thread (action : ReplyAction) :
    radio.step txFifoSize (.thread action) = radio ∨
      radio.step txFifoSize (.thread action) = { radio with link := radio.link.step action } ∧
        (radio.link.step action).writes = radio.link.writes := by
  rcases ReplyLink.writes_thread radio.link action with ⟨pipesAcked, fifo, rfl⟩ | ⟨-, hwrites⟩
  · exact .inl rfl
  · cases action with
    | rxDone pipesAcked fifo => exact .inl rfl
    | _ => exact .inr ⟨rfl, hwrites⟩

theorem Holds.thread (h : radio.Holds limit txFifoSize) (action : ReplyAction) :
    (radio.step txFifoSize (.thread action)).Holds limit txFifoSize := by
  rcases radio.step_thread action with hsame | ⟨hstep, hwrites⟩
  · rw [hsame]
    exact h
  · rw [hstep]
    refine ⟨h.sound.step action, fun pipe => (h.queue pipe).step action, h.serving, h.owed, h.room,
      h.empty, fun hsize => ?_⟩
    rw [hwrites]
    exact h.accepted hsize

/-- A packet may arrive while its pipe is owed no more than the limit with it. -/
theorem Holds.arrive (h : radio.Holds limit txFifoSize) {packet : RxPacket}
    (howed : ∀ pipe < config.pipeCount, (radio.arrive packet).owed pipe ≤ limit) :
    (radio.arrive packet).Holds limit txFifoSize := by
  refine ⟨h.sound, h.queue, h.serving, howed, fun pipe hpipe => ?_, fun pipe hpipe => ?_, h.accepted⟩
  · by_cases hasks : packet.noack = false ∧ packet.pipe = pipe
    · obtain ⟨hnoack, rfl⟩ := hasks
      have hqueues : (radio.arrive packet).queues = radio.queues.answer packet.pipe := by
        simp [AckRadio.arrive, hnoack]
      rw [hqueues]
      exact (h.room packet.pipe hpipe).answer (owed_arrive_le packet) (howed packet.pipe hpipe)
    · rw [owed_arrive_of_not hasks, AckRadio.arrive]
      dsimp only
      split_ifs with hnoack
      · exact h.room pipe hpipe
      · refine (h.room pipe hpipe).answer_of_ne fun hsame => hasks ⟨?_, hsame.symm⟩
        exact Bool.not_eq_true _ ▸ hnoack
  · rw [AckRadio.arrive]
    dsimp only
    split_ifs
    · exact h.empty pipe hpipe
    · exact AckQueues.replies_answer_eq_nil (h.empty pipe hpipe)

theorem owed_serve (txFifoSize : ℕ) {pipes : List ℕ} (hserving : radio.serving = pipe :: pipes)
    (hnodup : (pipe :: pipes).Nodup) :
    radio.owed pipe = (radio.serve txFifoSize pipe pipes).owed pipe + 1 ∧
      ∀ other ≠ pipe, (radio.serve txFifoSize pipe pipes).owed other = radio.owed other := by
  refine ⟨?_, fun other hne => ?_⟩
  · have hserved : pipe ∉ (radio.serve txFifoSize pipe pipes).serving := (List.nodup_cons.mp hnodup).1
    rw [owed, owed, hserving, if_pos List.mem_cons_self, if_neg hserved, Nat.zero_add]
    exact Nat.add_comm ..
  · simp only [owed, hserving, List.mem_cons, hne, false_or]
    rfl

/-- A pipe whose turn it is has room for its reply. -/
theorem Holds.serve (h : radio.Holds limit txFifoSize) {pipes : List ℕ}
    (hserving : radio.serving = pipe :: pipes) :
    (radio.serve txFifoSize pipe pipes).Holds limit txFifoSize := by
  have hsublist := h.serving
  rw [hserving] at hsublist
  have hpipe : pipe < config.pipeCount :=
    List.mem_range.mp (hsublist.subset List.mem_cons_self)
  obtain ⟨howed, hothers⟩ := owed_serve txFifoSize hserving
    (List.nodup_range.sublist hsublist)
  have hroom := h.room pipe hpipe
  rw [howed] at hroom
  have hless : (radio.queues.replies pipe).length < limit + 1 := by
    have := hroom.length_le
    omega
  refine ⟨h.sound.replyTo _ pipe, fun other => (h.queue other).replyTo_other _ pipe,
    (List.sublist_cons_self pipe pipes).trans hsublist, fun other hother => ?_,
    fun other hother => ?_, fun other hother => ?_, fun hsize => ?_⟩
  · have hle := h.owed other hother
    rcases eq_or_ne other pipe with rfl | hne
    · omega
    · exact (hothers other hne).trans_le hle
  · rcases serve_cases txFifoSize pipes h.sound (h.queue pipe) with
      ⟨-, hqueues⟩ | ⟨write, -, -, -, -, -, hqueues⟩
    · rw [hqueues]
      rcases eq_or_ne other pipe with rfl | hne
      · exact hroom.mono (Nat.le_succ _)
      · rw [hothers other hne]
        exact h.room other hother
    · rw [hqueues]
      rcases eq_or_ne other pipe with rfl | hne
      · exact hroom.write
      · rw [hothers other hne]
        exact (h.room other hother).write_of_ne hne
  · rcases serve_cases txFifoSize pipes h.sound (h.queue pipe) with
      ⟨-, hqueues⟩ | ⟨write, -, -, -, -, -, hqueues⟩
    · rw [hqueues]
      exact h.empty other hother
    · rw [hqueues, AckQueues.replies_write_of_ne (by omega)]
      exact h.empty other hother
  · rcases serve_cases txFifoSize pipes h.sound (h.queue pipe) with
      ⟨hwrites, -⟩ | ⟨write, -, hpos, hle, htaken, hwrites, -⟩
    · rw [hwrites]
      exact h.accepted hsize
    · rw [hwrites]
      intro made hmade
      rcases List.mem_append.mp hmade with hold | hnew
      · exact h.accepted hsize made hold
      · have hused := AckQueues.used_lt config.pipeCount_le hpipe
          (fun other _ => h.length_le other) hless h.empty
        rw [List.mem_singleton.mp hnew, htaken]
        exact AckQueues.write_accepted hpos hle (hused.trans_le hsize)
          (hpipe.trans_le config.pipeCount_le)

theorem Holds.interrupt (h : radio.Holds limit txFifoSize) :
    (radio.interrupt txFifoSize).Holds limit txFifoSize := by
  cases hserving : radio.serving with
  | cons pipe pipes =>
      rw [interrupt_serve hserving]
      exact h.serve hserving
  | nil =>
      cases hreceived : radio.received with
      | cons packet received =>
          have howed : ∀ pipe < config.pipeCount,
              (radio.readRx packet received).owed pipe = radio.owed pipe := by
            intro pipe hpipe
            rw [AckRadio.owed, asked_readRx (hpipe.trans_le config.pipeCount_le) hreceived]
            rfl
          rw [interrupt_read hserving hreceived]
          exact ⟨h.sound, h.queue, h.serving, fun pipe hpipe => (howed pipe hpipe).trans_le (h.owed pipe hpipe),
            fun pipe hpipe => howed pipe hpipe ▸ h.room pipe hpipe, h.empty, h.accepted⟩
      | nil =>
          have howed : ∀ pipe < config.pipeCount, radio.endDrain.owed pipe = radio.owed pipe :=
            fun pipe hpipe => owed_endDrain hpipe hserving hreceived
          rw [interrupt_drained hserving hreceived]
          exact ⟨h.sound, h.queue, List.filter_sublist,
            fun pipe hpipe => (howed pipe hpipe).trans_le (h.owed pipe hpipe),
            fun pipe hpipe => howed pipe hpipe ▸ h.room pipe hpipe, h.empty, h.accepted⟩

/-! ### Packets between the drain and the replies -/

/-- No packet of a pipe that wants an ACK arrives between the end of a drain and the
turn that the pipe gets for it. -/
def Clear (radio : AckRadio config) : AckRadioAction → Prop
  | .arrive packet => packet.noack = false → packet.pipe ∉ radio.serving
  | _ => True

instance (radio : AckRadio config) : DecidablePred radio.Clear
  | .arrive packet => inferInstanceAs (Decidable (packet.noack = false → packet.pipe ∉ radio.serving))
  | .thread _ => inferInstanceAs (Decidable True)
  | .interrupt => inferInstanceAs (Decidable True)

/-- In any run a pipe is owed two replies at most. -/
theorem Holds.step (h : radio.Holds 2 txFifoSize) (action : AckRadioAction) :
    (radio.step txFifoSize action).Holds 2 txFifoSize := by
  cases action with
  | thread action => exact h.thread action
  | arrive packet => exact h.arrive fun pipe _ => owed_le_two
  | interrupt => exact h.interrupt

/-- A packet that comes at no such time finds its pipe owed nothing but what it asks. -/
theorem Holds.step_clear (h : radio.Holds 1 txFifoSize) {action : AckRadioAction}
    (hclear : radio.Clear action) : (radio.step txFifoSize action).Holds 1 txFifoSize := by
  cases action with
  | thread action => exact h.thread action
  | interrupt => exact h.interrupt
  | arrive packet =>
      refine h.arrive fun pipe hpipe => ?_
      by_cases hasks : packet.noack = false ∧ packet.pipe = pipe
      · obtain ⟨hnoack, rfl⟩ := hasks
        have hserving : packet.pipe ∉ (radio.arrive packet).serving := hclear hnoack
        rw [AckRadio.owed, if_neg hserving, Nat.zero_add]
        exact Bool.toNat_le _
      · rw [owed_arrive_of_not hasks]
        exact h.owed pipe hpipe

/-- Whatever arrives and whenever, the FIFO holds three replies of a pipe at most. -/
theorem pipe_holds_three_replies (config : ReplyConfig) (txFifoSize : ℕ)
    (actions : List AckRadioAction) :
    (∀ pipe, ((run (step txFifoSize) (boot config) actions).queues.replies pipe).length ≤ 3) ∧
      (3 * config.pipeCount ≤ txFifoSize →
        ∀ write ∈ (run (step txFifoSize) (boot config) actions).link.writes,
          write.accepted = true) := by
  have h : (run (step txFifoSize) (boot config) actions).Holds 2 txFifoSize :=
    run_invariant (fun _ action hradio => hradio.step action) (Holds.boot 2 txFifoSize config) actions
  exact ⟨h.length_le, h.accepted⟩

/-- However the packets of the pipes fall into drains, and whatever the threads stage,
the FIFO holds two replies of a pipe at most, so twice as many slots as pipes take
every write, while no packet of a pipe comes between a drain and its reply. -/
theorem pipe_holds_two_replies (config : ReplyConfig) (txFifoSize : ℕ)
    {actions : List AckRadioAction}
    (hclear : Along (step txFifoSize) Clear (boot config) actions) :
    (∀ pipe, ((run (step txFifoSize) (boot config) actions).queues.replies pipe).length ≤ 2) ∧
      (2 * config.pipeCount ≤ txFifoSize →
        ∀ write ∈ (run (step txFifoSize) (boot config) actions).link.writes,
          write.accepted = true) := by
  have h : (run (step txFifoSize) (boot config) actions).Holds 1 txFifoSize :=
    run_invariant_along (fun _ _ hradio haction => hradio.step_clear haction)
      (Holds.boot 1 txFifoSize config) hclear
  exact ⟨h.length_le, h.accepted⟩

/-- A packet of a pipe, and the drain that serves it. -/
def drained (pipe : ℕ) : List AckRadioAction :=
  [.arrive ⟨pipe, false⟩, .interrupt, .interrupt, .interrupt]

/-- Two commands are staged and asked for in two drains, with another pipe's packet that
wants no ACK between them. -/
def askedTwice : List AckRadioAction :=
  [.thread (.put 1 [7]), .thread (.put 1 [8])] ++ drained 1 ++
    [.arrive ⟨0, true⟩, .arrive ⟨1, false⟩, .interrupt, .interrupt, .interrupt, .interrupt]

/-- The second command finds a slot as well. -/
theorem pipe_holds_two_replies_sample :
    ∃ write ∈ (run (step 4) (boot sampleReplyConfig) askedTwice).link.writes,
      write.data = [8] ∧ write.accepted = true :=
  ⟨_, List.getElem_mem (n := 1) (by decide +kernel), by decide +kernel,
    (@pipe_holds_two_replies sampleReplyConfig 4 askedTwice (by decide +kernel)).2 (by decide) _
      (List.getElem_mem (n := 1) (by decide +kernel))⟩

/-- A packet, the end of its drain, and another packet of the pipe before the reply to
the first; then the drain of the second. -/
def ackedBetween (pipe : ℕ) : List AckRadioAction :=
  [.arrive ⟨pipe, false⟩, .interrupt, .interrupt, .arrive ⟨pipe, false⟩, .interrupt,
    .interrupt, .interrupt, .interrupt]

/-- Twice so on a pipe with four commands staged, then the other pipe asks twice. -/
def ackedBetweenTwice : List AckRadioAction :=
  [.thread (.put 1 [1]), .thread (.put 1 [2]), .thread (.put 1 [3]), .thread (.put 1 [4])] ++
    ackedBetween 1 ++ ackedBetween 1

def askedByOther : List AckRadioAction :=
  .thread (.put 0 [5]) :: drained 0 ++ .thread (.put 0 [6]) :: drained 0

/-- Three replies are parked for one pipe, and a FIFO of twice as many slots as pipes
refuses a reply of the other. -/
theorem ackedBetween_parks_three :
    2 * sampleReplyConfig.pipeCount ≤ 4 ∧
      ((run (step 4) (boot sampleReplyConfig) ackedBetweenTwice).queues.replies 1).length = 3 ∧
      ∃ write ∈ (run (step 4) (boot sampleReplyConfig) (ackedBetweenTwice ++ askedByOther)).link.writes,
        write.pipe = 0 ∧ write.accepted = false := by
  decide +kernel

end AckRadio

end SplitEsb
