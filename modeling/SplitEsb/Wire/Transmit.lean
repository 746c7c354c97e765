import SplitEsb.Frame.Parser
import SplitEsb.Shared.FrameMux
import SplitEsb.Shared.Transition

/-! # Wire transmitter
Three rings, each with one producer, are drained by the UART interrupt. It picks a
ring only between frames, in order of priority, and claims chunks of it. -/

namespace SplitEsb

open ByteString FrameMux Transition

/-! ## Rings -/

inductive WireTxRing where
  | event
  | input
  | keepalive
  deriving DecidableEq, Repr

def WireTxRing.size : WireTxRing → ℕ
  | .event => wireFrameMaxEncoded * 2
  | .input => wireFrameMaxEncoded * 2
  | .keepalive => wireFrameMaxEncoded

def wireLinkChunkBytes : ℕ := 64

inductive WireLinkError where
  | enotsup
  | enobufs
  | frame (error : Errno)
  deriving DecidableEq, Repr

/-- A byte on the wire, the ring it came from, the rings that held bytes as it went out,
and whether its chunk was claimed in the middle of a frame. -/
structure SentByte where
  byte : UInt8
  ring : WireTxRing
  waiting : WireTxRing → Bool
  continued : Bool

/-- The rings, the ring of the frame under way, and the frames of producers between their
space check and the put. `accepted` and `log` record the frames put and the bytes sent;
nothing reads them. -/
structure WireTx where
  rings : WireTxRing → Bytes
  frameRing : Option WireTxRing
  entered : WireTxRing → Option Bytes
  accepted : WireTxRing → List Bytes
  log : List SentByte
  fits : ∀ ring, (rings ring).length ≤ ring.size

inductive WireTxAction where
  /-- A producer calls `wire_link_send_*` and runs up to the put. -/
  | send (ring : WireTxRing) (payload : Bytes)
  | put (ring : WireTxRing)
  /-- One turn of the transmit loop: the size the ring offers and what the FIFO accepts. -/
  | interrupt (claim : ℕ) (accepted : ℤ)

namespace WireTx

def boot : WireTx where
  rings _ := []
  frameRing := none
  entered _ := none
  accepted _ := []
  log := []
  fits _ := Nat.zero_le _

/-! ## Producers -/

variable (crc8 : Bytes → UInt8) (canTransmit : Bool)

/-- Up to the put; the producer of the ring goes on to it when there is no error. -/
def wireLinkEnqueue (tx : WireTx) (ring : WireTxRing) (payload : Bytes) :
    WireTx × Option WireLinkError :=
  if !canTransmit then (tx, some .enotsup)
  else
    match wireFrameEncode crc8 payload (List.replicate wireFrameMaxEncoded 0) with
    | .error error => (tx, some (.frame error))
    | .ok (encoded, framed) =>
        if ring.size - (tx.rings ring).length < encoded then (tx, some .enobufs)
        else
          ({ tx with entered := Function.update tx.entered ring (some (framed.take encoded)) }, none)

def wireLinkSend (tx : WireTx) (ring : WireTxRing) (payload : Bytes) :
    WireTx × Option WireLinkError :=
  if wireFrameMaxPayload < payload.length then (tx, some (.frame .emsgsize))
  else tx.wireLinkEnqueue crc8 canTransmit ring payload

def wireLinkSendEvent (tx : WireTx) (payload : Bytes) : WireTx × Option WireLinkError :=
  tx.wireLinkSend crc8 canTransmit .event payload

def wireLinkSendInput (tx : WireTx) (payload : Bytes) : WireTx × Option WireLinkError :=
  tx.wireLinkSend crc8 canTransmit .input payload

def wireLinkSendKeepalive (tx : WireTx) (payload : Bytes) : WireTx × Option WireLinkError :=
  tx.wireLinkSend crc8 canTransmit .keepalive payload

/-- The call a producer makes on its ring. -/
def sendOn (tx : WireTx) : WireTxRing → Bytes → WireTx × Option WireLinkError
  | .event => tx.wireLinkSendEvent crc8 canTransmit
  | .input => tx.wireLinkSendInput crc8 canTransmit
  | .keepalive => tx.wireLinkSendKeepalive crc8 canTransmit

/-- The bytes of the ring after as many of the data as there is space for. -/
def ringBufPut (ring : WireTxRing) (content data : Bytes) : Bytes :=
  content ++ data.take (ring.size - content.length)

theorem ringBufPut_length {ring : WireTxRing} {content : Bytes} (h : content.length ≤ ring.size)
    (data : Bytes) : (ringBufPut ring content data).length ≤ ring.size := by
  rw [ringBufPut, List.length_append, List.length_take]
  omega

def put (tx : WireTx) (ring : WireTxRing) : WireTx :=
  match tx.entered ring with
  | none => tx
  | some framed =>
      { tx with
        rings := Function.update tx.rings ring (ringBufPut ring (tx.rings ring) framed)
        entered := Function.update tx.entered ring none
        accepted := Function.update tx.accepted ring (tx.accepted ring ++ [framed])
        fits := by
          intro other
          rcases eq_or_ne other ring with rfl | hne
          · rw [Function.update_self]
            exact ringBufPut_length (tx.fits other) framed
          · rw [Function.update_of_ne hne]
            exact tx.fits other }

/-! ## The interrupt -/

/-- The first ring in order of priority, given the rings that hold bytes. -/
def firstWaiting (waiting : WireTxRing → Bool) : WireTxRing :=
  if waiting .event then .event
  else if waiting .input then .input
  else .keepalive

def waiting (tx : WireTx) (ring : WireTxRing) : Bool := !(tx.rings ring).isEmpty

def wireTxPickRing (tx : WireTx) : WireTxRing :=
  match tx.frameRing with
  | some ring => ring
  | none => firstWaiting tx.waiting

def wireTxTrackFrame (ring : WireTxRing) (frameRing : Option WireTxRing) (chunk : Bytes) :
    Option WireTxRing :=
  chunk.foldl (fun _ byte => if byte = wireFrameDelimiter then none else some ring) frameRing

/-- One turn of the transmit loop. No ring but the picked one changes while its chunk
goes out, and that one holds bytes up to the last of them. -/
def interrupt (tx : WireTx) (claim : ℕ) (accepted : ℤ) : WireTx :=
  let active := tx.wireTxPickRing
  let chunk := (tx.rings active).take (min claim wireLinkChunkBytes)
  let sent := chunk.take accepted.toNat
  { tx with
    rings := Function.update tx.rings active ((tx.rings active).drop sent.length)
    frameRing := wireTxTrackFrame active tx.frameRing sent
    log := tx.log ++ sent.map fun byte => ⟨byte, active, tx.waiting, tx.frameRing.isSome⟩
    fits := by
      intro other
      have hfits := tx.fits other
      by_cases hactive : other = active
      · rw [hactive] at hfits ⊢
        rw [Function.update_self, List.length_drop]
        omega
      · rw [Function.update_of_ne hactive]
        exact hfits }

def step (tx : WireTx) : WireTxAction → WireTx
  | .send ring payload =>
      match tx.entered ring with
      | some _ => tx
      | none => (tx.sendOn crc8 canTransmit ring payload).1
  | .put ring => tx.put ring
  | .interrupt claim accepted => tx.interrupt claim accepted

/-! ## Frame starts -/

/-- The byte before a byte on the line, if any, for each byte that starts a frame. -/
def frameStarts (before : Option SentByte) : List SentByte → List (Option SentByte × SentByte)
  | [] => []
  | sent :: rest =>
      (if before.all fun before => before.byte = wireFrameDelimiter then [(before, sent)] else []) ++
        frameStarts (some sent) rest

/-- A byte comes from the first ring in order, or from the ring of the byte before it when
its chunk was claimed in the middle of a frame. -/
def Placed (before : Option SentByte) (sent : SentByte) : Prop :=
  if sent.continued then before.map SentByte.ring = some sent.ring
  else sent.ring = firstWaiting sent.waiting

def AllPlaced (before : Option SentByte) : List SentByte → Prop
  | [] => True
  | sent :: rest => Placed before sent ∧ AllPlaced (some sent) rest

theorem AllPlaced.starts {before : Option SentByte} {log : List SentByte}
    (h : AllPlaced before log) : ∀ start ∈ frameStarts before log, Placed start.1 start.2 := by
  induction log generalizing before with
  | nil => simp [frameStarts]
  | cons sent rest ih =>
      intro start hstart
      rw [frameStarts] at hstart
      rcases List.mem_append.mp hstart with hfirst | hrest
      · split_ifs at hfirst
        · rw [List.mem_singleton.mp hfirst]
          exact h.1
        · cases hfirst
      · exact ih h.2 start hrest

theorem AllPlaced.append {before : Option SentByte} {front back : List SentByte}
    (hfront : AllPlaced before front) (hback : AllPlaced (front.getLast?.or before) back) :
    AllPlaced before (front ++ back) := by
  induction front generalizing before with
  | nil => exact hback
  | cons sent rest ih =>
      refine ⟨hfront.1, ih hfront.2 ?_⟩
      rw [List.getLast?_cons] at hback
      cases hlast : rest.getLast? with
      | none => simpa [hlast] using hback
      | some last => simpa [hlast] using hback

/-- The bytes of one chunk: in order, or all from the ring of the byte before them. -/
theorem allPlaced_chunk {before : Option SentByte} {ring : WireTxRing}
    {waiting : WireTxRing → Bool} {continued : Bool}
    (h : if continued then before.map SentByte.ring = some ring else ring = firstWaiting waiting)
    (chunk : Bytes) :
    AllPlaced before (chunk.map fun byte => ⟨byte, ring, waiting, continued⟩) := by
  induction chunk generalizing before with
  | nil => trivial
  | cons byte rest ih =>
      refine ⟨h, ih ?_⟩
      split_ifs at h ⊢ with hcontinued
      · rfl
      · exact h

/-! ## The line as a multiplexer -/

def isDelimiter (byte : UInt8) : Bool := byte = wireFrameDelimiter

/-- What the rings and the line are as queues of frames. -/
def toMux (tx : WireTx) : Mux WireTxRing UInt8 where
  queues := tx.rings
  current := tx.frameRing
  accepted := tx.accepted
  sent := tx.log.map fun sent => (sent.ring, sent.byte)

theorem wireTxTrackFrame_eq (ring : WireTxRing) (frameRing : Option WireTxRing) (chunk : Bytes) :
    wireTxTrackFrame ring frameRing chunk = under isDelimiter ring frameRing chunk := by
  simp [wireTxTrackFrame, under, isDelimiter]

theorem pickRing_of_current {tx : WireTx} {ring : WireTxRing} (h : tx.frameRing = some ring) :
    tx.wireTxPickRing = ring := by
  rw [wireTxPickRing, h]

/-- A turn of the interrupt sends some of the symbols of the ring it picked. -/
theorem toMux_interrupt (tx : WireTx) (claim : ℕ) (accepted : ℤ) :
    (tx.interrupt claim accepted).toMux = tx.toMux.sends isDelimiter tx.wireTxPickRing
      (((tx.rings tx.wireTxPickRing).take (min claim wireLinkChunkBytes)).take
        accepted.toNat).length := by
  have hlength : (((tx.rings tx.wireTxPickRing).take (min claim wireLinkChunkBytes)).take
      accepted.toNat).length ≤ (tx.toMux.queues tx.wireTxPickRing).length := by
    rw [List.take_take]
    exact List.length_take_le' _ _
  have htake : (tx.rings tx.wireTxPickRing).take
      (((tx.rings tx.wireTxPickRing).take (min claim wireLinkChunkBytes)).take
        accepted.toNat).length =
      ((tx.rings tx.wireTxPickRing).take (min claim wireLinkChunkBytes)).take accepted.toNat := by
    simp [List.take_take, List.length_take]
  rw [Mux.sends_eq hlength, toMux, interrupt]
  dsimp only [toMux]
  rw [htake, wireTxTrackFrame_eq, List.map_append, List.map_map]
  rfl

/-! ## Every run -/

theorem isFrame_of_wrote {crc8 : Bytes → UInt8} {payload frame : Bytes}
    (h : WroteFrame crc8 payload frame) : IsFrame isDelimiter frame := by
  obtain ⟨-, hframe⟩ := wroteFrame_eq h
  refine ⟨_, _, hframe, rfl, fun byte hbyte => ?_⟩
  exact decide_eq_false (Stuffing.stuff_nonzero _ byte hbyte)

/-- A call fails and changes nothing, or leaves its producer with a frame there is space for. -/
theorem sendOn_cases (tx : WireTx) (ring : WireTxRing) (payload : Bytes) :
    (∃ error, tx.sendOn crc8 canTransmit ring payload = (tx, some error)) ∨
      ∃ frame, WroteFrame crc8 payload frame ∧ (tx.rings ring).length + frame.length ≤ ring.size ∧
        tx.sendOn crc8 canTransmit ring payload =
          ({ tx with entered := Function.update tx.entered ring (some frame) }, none) := by
  have hsend : tx.sendOn crc8 canTransmit ring payload =
      tx.wireLinkSend crc8 canTransmit ring payload := by cases ring <;> rfl
  rw [hsend, wireLinkSend, wireLinkEnqueue]
  split_ifs
  · exact .inl ⟨_, rfl⟩
  · exact .inl ⟨_, rfl⟩
  · cases hencode : wireFrameEncode crc8 payload (List.replicate wireFrameMaxEncoded 0) with
    | error error => exact .inl ⟨_, rfl⟩
    | ok written =>
        obtain ⟨encoded, framed⟩ := written
        dsimp only
        split_ifs with hspace
        · exact .inl ⟨_, rfl⟩
        · have hlength := List.length_take_le encoded framed
          have hfits := tx.fits ring
          exact .inr ⟨framed.take encoded, ⟨_, _, _, hencode, rfl⟩, by omega, rfl⟩

/-- The line carries whole frames, no byte is lost, and a producer past its space check
holds a frame that still fits. -/
structure Sound (tx : WireTx) : Prop where
  framed : Framed isDelimiter tx.toMux
  conserves : Conserves tx.toMux
  entered : ∀ ring framed, tx.entered ring = some framed →
    IsFrame isDelimiter framed ∧ (tx.rings ring).length + framed.length ≤ ring.size
  last : ∀ ring, tx.frameRing = some ring → tx.log.getLast?.map SentByte.ring = some ring
  placed : AllPlaced none tx.log

variable {crc8 : Bytes → UInt8} {canTransmit : Bool} {tx : WireTx}

theorem Sound.boot : boot.Sound where
  framed := .empty
  conserves := .empty
  entered _ _ h := by cases h
  last _ h := by cases h
  placed := trivial

/-- A producer that enters holds a frame there is space for. -/
theorem Sound.sendOn (h : tx.Sound) (ring : WireTxRing) (payload : Bytes) :
    (tx.sendOn crc8 canTransmit ring payload).1.Sound := by
  rcases sendOn_cases crc8 canTransmit tx ring payload with ⟨error, hsend⟩ |
    ⟨frame, hwrote, hspace, hsend⟩
  · rw [hsend]
    exact h
  · rw [hsend]
    refine { h with entered := fun other found hfound => ?_ }
    dsimp only at hfound ⊢
    rcases eq_or_ne other ring with rfl | hne
    · rw [Function.update_self] at hfound
      cases hfound
      exact ⟨isFrame_of_wrote hwrote, hspace⟩
    · rw [Function.update_of_ne hne] at hfound
      exact h.entered other found hfound

theorem put_of_idle {ring : WireTxRing} (h : tx.entered ring = none) : tx.put ring = tx := by
  rw [put]
  split
  · rfl
  · rename_i framed hsome
    simp [h] at hsome

/-- The fields the put changes. -/
theorem put_of_entered {ring : WireTxRing} {framed : Bytes}
    (h : tx.entered ring = some framed) :
    (tx.put ring).rings = Function.update tx.rings ring (ringBufPut ring (tx.rings ring) framed) ∧
      (tx.put ring).entered = Function.update tx.entered ring none ∧
      (tx.put ring).accepted = Function.update tx.accepted ring (tx.accepted ring ++ [framed]) ∧
      (tx.put ring).frameRing = tx.frameRing ∧ (tx.put ring).log = tx.log := by
  rw [put]
  split
  · rename_i hnone
    simp [h] at hnone
  · rename_i found hfound
    rw [h] at hfound
    cases hfound
    exact ⟨rfl, rfl, rfl, rfl, rfl⟩

/-- The put takes the whole frame of the producer. -/
theorem Sound.put (h : tx.Sound) (ring : WireTxRing) : (tx.put ring).Sound := by
  cases hentered : tx.entered ring with
  | none =>
      rw [put_of_idle hentered]
      exact h
  | some framed =>
      obtain ⟨hframe, hspace⟩ := h.entered ring framed hentered
      obtain ⟨hrings, hproducers, haccepted, hcurrent, hlog⟩ := put_of_entered hentered
      have hwhole : ringBufPut ring (tx.rings ring) framed = tx.rings ring ++ framed := by
        rw [ringBufPut, List.take_of_length_le (by omega)]
      have hmux : (tx.put ring).toMux = tx.toMux.put ring framed := by
        simp only [toMux, Mux.put, hrings, haccepted, hcurrent, hlog, hwhole]
      refine ⟨?_, ?_, fun other found hfound => ?_, ?_, ?_⟩
      · rw [hmux]
        exact h.framed.put ring hframe
      · rw [hmux]
        exact h.conserves.put ring framed
      · rw [hproducers] at hfound
        rcases eq_or_ne other ring with rfl | hne
        · simp at hfound
        · rw [Function.update_of_ne hne] at hfound
          rw [hrings, Function.update_of_ne hne]
          exact h.entered other found hfound
      · rw [hcurrent, hlog]
        exact h.last
      · rw [hlog]
        exact h.placed

/-- The ring of the frame under way is the ring of the byte sent last. -/
theorem under_last {ring found : WireTxRing} {current : Option WireTxRing} {chunk : Bytes}
    (h : under isDelimiter ring current chunk = some found) :
    (chunk = [] ∧ current = some found) ∨ (chunk ≠ [] ∧ ring = found) := by
  rcases chunk.eq_nil_or_concat with rfl | ⟨front, last, rfl⟩
  · exact .inl ⟨rfl, h⟩
  · rw [List.concat_eq_append, under, List.foldl_append] at h
    refine .inr ⟨by simp, ?_⟩
    simp only [List.foldl_cons, List.foldl_nil] at h
    split_ifs at h
    exact Option.some.inj h

/-- A turn of the interrupt sends from the ring it picked, which is the one of the frame
under way if there is one. -/
theorem Sound.interrupt (h : tx.Sound) (claim : ℕ) (accepted : ℤ) :
    (tx.interrupt claim accepted).Sound := by
  have hmux := toMux_interrupt tx claim accepted
  have hcurrent : ∀ other, tx.toMux.current = some other → other = tx.wireTxPickRing :=
    fun other hother => (pickRing_of_current hother).symm
  refine ⟨?_, ?_, fun other found hfound => ?_, fun other hother => ?_, ?_⟩
  · rw [hmux]
    exact h.framed.sends hcurrent _
  · rw [hmux]
    exact h.conserves.sends _ _
  · obtain ⟨hframe, hspace⟩ := h.entered other found hfound
    refine ⟨hframe, le_trans (Nat.add_le_add_right ?_ _) hspace⟩
    dsimp only [WireTx.interrupt]
    by_cases hpicked : other = tx.wireTxPickRing
    · rw [hpicked, Function.update_self, List.length_drop]
      exact Nat.sub_le _ _
    · rw [Function.update_of_ne hpicked]
  · dsimp only [WireTx.interrupt] at hother ⊢
    rw [wireTxTrackFrame_eq] at hother
    rcases under_last hother with ⟨hnil, hsame⟩ | ⟨hne, hpicked⟩
    · simpa [hnil] using h.last other hsame
    · rw [List.getLast?_append, List.getLast?_map, List.getLast?_eq_some_getLast hne]
      simp [hpicked]
  · dsimp only [WireTx.interrupt]
    refine h.placed.append (allPlaced_chunk ?_ _)
    cases hframe : tx.frameRing with
    | none => simp [wireTxPickRing, hframe]
    | some ring =>
        simpa [pickRing_of_current hframe] using h.last ring hframe

theorem Sound.step (h : tx.Sound) (action : WireTxAction) :
    (tx.step crc8 canTransmit action).Sound := by
  cases action with
  | send ring payload =>
      rw [WireTx.step]
      split
      · exact h
      · exact h.sendOn ring payload
  | put ring => exact h.put ring
  | interrupt claim accepted => exact h.interrupt claim accepted

/-! ## What goes out on the line -/

/-- The bytes sent start a sequence of whole frames, in which the frames of each ring
are those put into it, in that order. -/
def WholeFrames (tx : WireTx) : Prop :=
  ∃ order : List (WireTxRing × Bytes),
    (tx.log.map fun sent => (sent.ring, sent.byte)) <+: symbols order ∧
      ∀ ring, framesOf ring order <+: tx.accepted ring

/-- The bytes of the frames put into a ring were sent from it or wait in it. -/
def NoByteLost (tx : WireTx) : Prop :=
  ∀ ring, (tx.accepted ring).flatten =
    (tx.log.filter (·.ring = ring)).map SentByte.byte ++ tx.rings ring

/-- A call that finds no space changes nothing. -/
def RefusalKeeps (crc8 : Bytes → UInt8) (canTransmit : Bool) (tx : WireTx) : Prop :=
  ∀ ring payload, (tx.sendOn crc8 canTransmit ring payload).2 = some .enobufs →
    (tx.sendOn crc8 canTransmit ring payload).1 = tx

theorem refusalKeeps (tx : WireTx) : tx.RefusalKeeps crc8 canTransmit := by
  intro ring payload hrefused
  rcases sendOn_cases crc8 canTransmit tx ring payload with ⟨error, hsend⟩ | ⟨frame, -, -, hsend⟩
  · rw [hsend]
  · rw [hsend] at hrefused
    cases hrefused

theorem Sound.noByteLost (h : tx.Sound) : tx.NoByteLost := by
  intro ring
  have hconserves := h.conserves ring
  simpa [toMux, List.filter_map, List.map_map, Function.comp_def] using hconserves

/-- Along every run of producers and interrupts whole frames go out, those of each ring in
order and each once, and no byte is lost. A frame comes from the first ring in order of
priority, unless its chunk was claimed in the middle of the frame before it: then it
comes from the ring of that frame. -/
theorem uart_frames_whole (crc8 : Bytes → UInt8) (canTransmit : Bool)
    (actions : List WireTxAction) :
    (run (step crc8 canTransmit) boot actions).WholeFrames ∧
      (run (step crc8 canTransmit) boot actions).NoByteLost ∧
      (run (step crc8 canTransmit) boot actions).RefusalKeeps crc8 canTransmit ∧
      ∀ start ∈ frameStarts none (run (step crc8 canTransmit) boot actions).log,
        Placed start.1 start.2 := by
  have hsound : (run (step crc8 canTransmit) boot actions).Sound :=
    run_invariant (fun _ action h => h.step action) .boot actions
  exact ⟨hsound.framed.whole, hsound.noByteLost, refusalKeeps _, hsound.placed.starts⟩

/-- Two input frames, an event frame put after three bytes of the first one, and what is left. -/
def overtakenEvent : List WireTxAction :=
  [.send .input [1], .put .input, .send .input [2], .put .input, .interrupt 64 3,
    .send .event [5], .put .event, .interrupt 64 64, .interrupt 64 64]

/-- The event frame is sent last, from the first ring in order. -/
theorem uart_frames_whole_sample :
    ∃ start ∈ frameStarts none (run (step crc8Ccitt true) boot overtakenEvent).log,
      start.2.ring = .event ∧ start.2.continued = false ∧ Placed start.1 start.2 := by
  obtain ⟨start, hstart, hring, hfresh⟩ :
      ∃ start ∈ frameStarts none (run (step crc8Ccitt true) boot overtakenEvent).log,
        start.2.ring = .event ∧ start.2.continued = false := by decide +kernel
  obtain ⟨-, -, -, hplaced⟩ := uart_frames_whole crc8Ccitt true overtakenEvent
  exact ⟨start, hstart, hring, hfresh, hplaced start hstart⟩

/-- The second input frame starts while the event frame waits: its chunk also holds the
end of the first one. -/
theorem frame_starts_out_of_order :
    ¬∀ (crc8 : Bytes → UInt8) (canTransmit : Bool) (actions : List WireTxAction),
      (run (step crc8 canTransmit) boot actions).WholeFrames ∧
        (run (step crc8 canTransmit) boot actions).NoByteLost ∧
        (run (step crc8 canTransmit) boot actions).RefusalKeeps crc8 canTransmit ∧
        ∀ start ∈ frameStarts none (run (step crc8 canTransmit) boot actions).log,
          start.2.ring = firstWaiting start.2.waiting := by
  intro hclaim
  obtain ⟨-, -, -, hstarts⟩ := hclaim crc8Ccitt true overtakenEvent
  have hbroken : ¬∀ start ∈ frameStarts none
      (run (step crc8Ccitt true) boot overtakenEvent).log,
      start.2.ring = firstWaiting start.2.waiting := by decide +kernel
  exact hbroken hstarts

end WireTx

end SplitEsb
