import SplitEsb.Shared.Transition
import SplitEsb.Shared.WokenQueue
import SplitEsb.Wire.Transmit

/-! # Wire receiver
The UART interrupt puts what arrives into a ring and gives a semaphore. A thread parses
the ring in chunks and hands each frame to the subscription. -/

namespace SplitEsb

open ByteString FrameMux Transition WokenQueue

def wireLinkRxRingBytes : ℕ := wireFrameMaxEncoded * 2

/-- `ring` is `wire_rx_ring` with the semaphore `wire_rx_wake`, its consumer the receive
thread. `onFrame` records the payloads the subscription is called with. -/
structure WireRx where
  ring : Woken UInt8
  parser : WireFrameParser
  peerLastRxUptime : UInt32
  onFrame : List Bytes

namespace WireRx

def boot : WireRx where
  ring := .empty
  parser := .empty false
  peerLastRxUptime := 0
  onFrame := []

/-- The receive loop of the interrupt; the ring takes the bytes it has space for. -/
def wireUartIsr (rx : WireRx) (now : UInt32) (bytes : Bytes) : WireRx :=
  { rx with
    ring := (bytes.foldl (Woken.offer wireLinkRxRingBytes) rx.ring).give
    peerLastRxUptime := if bytes = [] then rx.peerLastRxUptime else now }

/-- A payload without bytes is the other side's heartbeat. -/
def wireOnFrame (payload : Bytes) : List Bytes := if payload.length = 0 then [] else [payload]

variable (crc8 : Bytes → UInt8)

/-- The receive thread takes its semaphore, or makes one turn of `wire_process_ring`. -/
def wireRxThread (rx : WireRx) : WireRx :=
  let chunk := if rx.ring.awake then rx.ring.waiting.take wireLinkChunkBytes else []
  let (parser, payloads) := wireFrameParserIngest crc8 rx.parser chunk
  { rx with
    ring := rx.ring.turn wireLinkChunkBytes
    parser := parser
    onFrame := rx.onFrame ++ payloads.flatMap wireOnFrame }

/-- The bytes that find no space in the ring. -/
def overrun (rx : WireRx) (bytes : Bytes) : ℕ :=
  bytes.length - (wireLinkRxRingBytes - rx.ring.waiting.length)

/-- The parser is where the bytes taken from the ring lead, and the subscription got
their frames. -/
structure Sound (rx : WireRx) : Prop where
  ring : rx.ring.Sound
  owed : rx.ring.owed = false
  fits : rx.ring.waiting.length ≤ wireLinkRxRingBytes
  parser : rx.parser = (wireFrameParserIngest crc8 (.empty false) rx.ring.taken).1
  onFrame : rx.onFrame =
    (wireFrameParserIngest crc8 (.empty false) rx.ring.taken).2.flatMap wireOnFrame

variable {crc8} {rx : WireRx}

theorem Sound.boot : boot.Sound crc8 := ⟨.empty, rfl, Nat.zero_le _, rfl, rfl⟩

theorem wireUartIsr_ring (rx : WireRx) (now : UInt32) (bytes : Bytes) :
    (rx.wireUartIsr now bytes).ring.taken = rx.ring.taken ∧
      (rx.wireUartIsr now bytes).ring.accepted =
        rx.ring.accepted ++ bytes.take (wireLinkRxRingBytes - rx.ring.waiting.length) := by
  rw [wireUartIsr, Woken.foldl_offer]
  exact ⟨rfl, rfl⟩

theorem Sound.wireUartIsr (h : rx.Sound crc8) (now : UInt32) (bytes : Bytes) :
    (rx.wireUartIsr now bytes).Sound crc8 := by
  obtain ⟨htaken, -⟩ := wireUartIsr_ring rx now bytes
  refine ⟨?_, rfl, ?_, by rw [htaken]; exact h.parser, by rw [htaken]; exact h.onFrame⟩
  · exact (h.ring.burst _ bytes).give
  · exact Woken.length_waiting_burst h.fits bytes

theorem taken_turn (queue : Woken UInt8) (count : ℕ) :
    (queue.turn count).taken = queue.taken ++ if queue.awake then queue.waiting.take count else [] := by
  rw [Woken.turn, Woken.take, Woken.wake]
  split_ifs <;> simp_all

theorem Sound.wireRxThread (h : rx.Sound crc8) : (rx.wireRxThread crc8).Sound crc8 := by
  refine ⟨h.ring.turn _, ?_, ?_, ?_, ?_⟩
  · exact (Woken.owed_turn _).trans h.owed
  · exact (Woken.length_waiting_turn _).trans h.fits
  · rw [WireRx.wireRxThread]
    dsimp only
    rw [taken_turn, wireFrameParserIngest_append, ← h.parser]
  · rw [WireRx.wireRxThread]
    dsimp only
    rw [taken_turn, wireFrameParserIngest_append, List.flatMap_append, ← h.parser, ← h.onFrame]

theorem iterate_wireRxThread_ring (turns : ℕ) (rx : WireRx) :
    ((wireRxThread crc8)^[turns] rx).ring = (Woken.turn wireLinkChunkBytes)^[turns] rx.ring := by
  induction turns generalizing rx with
  | zero => rfl
  | succ turns ih => exact ih _

/-- Nothing overruns, so everything that arrived is accepted. -/
theorem accepted_of_fits {now : UInt32} {bytes : Bytes} (h : rx.overrun bytes = 0) :
    (rx.wireUartIsr now bytes).ring.accepted = rx.ring.accepted ++ bytes := by
  rw [(wireUartIsr_ring rx now bytes).2, List.take_of_length_le (Nat.le_of_sub_eq_zero h)]

end WireRx

/-! ## The line between two devices -/

/-- A transmitter, the receiver its UART reaches, and the bytes carried over so far.
`handed` records the payloads whose send call succeeded, ring by ring. -/
structure WireLine where
  tx : WireTx
  carried : ℕ
  rx : WireRx
  handed : WireTxRing → List Bytes

inductive WireLineAction where
  | transmit (action : WireTxAction)
  /-- The next bytes of the line reach the receiver in one interrupt. -/
  | carry (now : UInt32) (count : ℕ)
  | thread

namespace WireLine

def boot : WireLine := ⟨.boot, 0, .boot, fun _ => []⟩

/-- The bytes sent so far. -/
def line (state : WireLine) : Bytes := state.tx.log.map SentByte.byte

def arriving (state : WireLine) (count : ℕ) : Bytes := (state.line.drop state.carried).take count

variable (crc8 : Bytes → UInt8) (canTransmit : Bool)

/-- A call on an idle ring that succeeds hands its payload over. -/
def handOver (state : WireLine) : WireTxAction → WireTxRing → List Bytes
  | .send ring payload =>
      if state.tx.entered ring = none ∧ (state.tx.sendOn crc8 canTransmit ring payload).2 = none then
        Function.update state.handed ring (state.handed ring ++ [payload])
      else state.handed
  | _ => state.handed

def step (state : WireLine) : WireLineAction → WireLine
  | .transmit action =>
      { state with
        tx := state.tx.step crc8 canTransmit action
        handed := state.handOver crc8 canTransmit action }
  | .carry now count =>
      { state with
        carried := state.carried + (state.arriving count).length
        rx := state.rx.wireUartIsr now (state.arriving count) }
  | .thread => { state with rx := state.rx.wireRxThread crc8 }

/-- The receiver's ring has space for what arrives. -/
def NoOverrun (state : WireLine) : WireLineAction → Prop
  | .carry _ count => state.rx.overrun (state.arriving count) = 0
  | _ => True

instance (state : WireLine) : ∀ action, Decidable (state.NoOverrun action)
  | .transmit _ => inferInstanceAs (Decidable True)
  | .carry _ count => inferInstanceAs (Decidable (state.rx.overrun (state.arriving count) = 0))
  | .thread => inferInstanceAs (Decidable True)

/-- Nothing is left on the way. -/
def Drained (state : WireLine) : Prop :=
  (∀ ring, state.tx.entered ring = none ∧ state.tx.rings ring = []) ∧
    state.carried = state.line.length ∧ state.rx.ring.waiting = []

/-! ## Invariant -/

/-- The payload a written frame carries. -/
def payloadOf (crc8 : Bytes → UInt8) (frame : Bytes) : Bytes := (framePayloads crc8 frame).headD []

variable {crc8 canTransmit} {state : WireLine}

theorem payloadOf_wrote {payload frame : Bytes} (h : WroteFrame crc8 payload frame) :
    payloadOf crc8 frame = payload := by
  rw [payloadOf, framePayloads_eq h]
  rfl

theorem flatMap_framePayloads {frames : List Bytes}
    (h : ∀ frame ∈ frames, ∃ payload, WroteFrame crc8 payload frame) :
    frames.flatMap (framePayloads crc8) = frames.map (payloadOf crc8) := by
  induction frames with
  | nil => rfl
  | cons frame frames ih =>
      obtain ⟨payload, hwrote⟩ := h frame List.mem_cons_self
      rw [List.flatMap_cons, List.map_cons, framePayloads_eq hwrote, payloadOf_wrote hwrote,
        ih fun f hf => h f (List.mem_cons_of_mem _ hf)]
      rfl

/-- The frames of a ring, put or about to be. -/
def framesIn (tx : WireTx) (ring : WireTxRing) : List Bytes :=
  tx.accepted ring ++ (tx.entered ring).toList

structure Sound (crc8 : Bytes → UInt8) (state : WireLine) : Prop where
  tx : state.tx.Sound
  wrote : ∀ ring, ∀ frame ∈ framesIn state.tx ring, ∃ payload, WroteFrame crc8 payload frame
  handed : ∀ ring, state.handed ring = (framesIn state.tx ring).map (payloadOf crc8)
  carried_le : state.carried ≤ state.line.length
  accepted : state.rx.ring.accepted = state.line.take state.carried
  rx : state.rx.Sound crc8

theorem Sound.boot : boot.Sound crc8 where
  tx := .boot
  wrote ring frame hmem := by cases hmem
  handed _ := rfl
  carried_le := Nat.le_refl 0
  accepted := rfl
  rx := .boot

theorem framesIn_put (tx : WireTx) (ring other : WireTxRing) :
    framesIn (tx.put ring) other = framesIn tx other := by
  cases hentered : tx.entered ring with
  | none => rw [WireTx.put_of_idle hentered]
  | some framed =>
      obtain ⟨-, hproducers, haccepted, -, -⟩ := WireTx.put_of_entered hentered
      rw [framesIn, framesIn, hproducers, haccepted]
      rcases eq_or_ne other ring with rfl | hne
      · simp [hentered]
      · rw [Function.update_of_ne hne, Function.update_of_ne hne]

/-- The transmitter goes on without sending; what it took is what was handed over. -/
theorem Sound.quiet (h : state.Sound crc8) {tx : WireTx} {handed : WireTxRing → List Bytes}
    (htx : tx.Sound) (hlog : tx.log = state.tx.log)
    (hwrote : ∀ ring, ∀ frame ∈ framesIn tx ring, ∃ payload, WroteFrame crc8 payload frame)
    (hhanded : ∀ ring, handed ring = (framesIn tx ring).map (payloadOf crc8)) :
    ({ state with tx := tx, handed := handed } : WireLine).Sound crc8 := by
  have hline : ({ state with tx := tx, handed := handed } : WireLine).line = state.line := by
    rw [line, line, hlog]
  refine ⟨htx, hwrote, hhanded, ?_, ?_, h.rx⟩
  · rw [hline]
    exact h.carried_le
  · rw [hline]
    exact h.accepted

theorem Sound.send (h : state.Sound crc8) (ring : WireTxRing) (payload : Bytes) :
    (state.step crc8 canTransmit (.transmit (.send ring payload))).Sound crc8 := by
  have hsound : (state.tx.step crc8 canTransmit (.send ring payload)).Sound := h.tx.step _
  rw [step, handOver]
  rw [WireTx.step] at hsound ⊢
  cases hentered : state.tx.entered ring with
  | some framed =>
      rw [if_neg (fun hboth => by cases hboth.1)]
      exact h.quiet h.tx rfl h.wrote h.handed
  | none =>
      rw [hentered] at hsound
      dsimp only at hsound ⊢
      rcases WireTx.sendOn_cases crc8 canTransmit state.tx ring payload with ⟨error, hsend⟩ |
        ⟨frame, hwrote, -, hsend⟩
      · rw [hsend, if_neg (fun hboth => by cases hboth.2)]
        exact h.quiet h.tx rfl h.wrote h.handed
      · rw [hsend, if_pos ⟨rfl, rfl⟩]
        rw [hsend] at hsound
        have hframes : ∀ other, framesIn
            { state.tx with entered := Function.update state.tx.entered ring (some frame) } other =
            framesIn state.tx other ++ if other = ring then [frame] else [] := by
          intro other
          rcases eq_or_ne other ring with rfl | hne
          · simp [framesIn, hentered]
          · simp [framesIn, hne]
        refine h.quiet hsound rfl (fun other found hfound => ?_) fun other => ?_
        · rw [hframes] at hfound
          rcases List.mem_append.mp hfound with hold | hnew
          · exact h.wrote other found hold
          · split_ifs at hnew
            · exact ⟨payload, List.mem_singleton.mp hnew ▸ hwrote⟩
            · cases hnew
        · rw [hframes, List.map_append, ← h.handed]
          rcases eq_or_ne other ring with rfl | hne
          · rw [Function.update_self, if_pos rfl, List.map_singleton, payloadOf_wrote hwrote]
          · rw [Function.update_of_ne hne, if_neg hne, List.map_nil, List.append_nil]

/-- Sent bytes only extend the line. -/
theorem Sound.interrupt (h : state.Sound crc8) (claim : ℕ) (accepted : ℤ) :
    ({ state with tx := state.tx.interrupt claim accepted } : WireLine).Sound crc8 := by
  obtain ⟨more, hmore⟩ : ∃ more,
      ({ state with tx := state.tx.interrupt claim accepted } : WireLine).line =
        state.line ++ more := ⟨_, List.map_append⟩
  refine ⟨h.tx.interrupt claim accepted, h.wrote, h.handed, ?_, ?_, h.rx⟩
  · rw [hmore, List.length_append]
    exact Nat.le_add_right_of_le h.carried_le
  · rw [hmore, List.take_append_of_le_length h.carried_le]
    exact h.accepted

theorem Sound.carry (h : state.Sound crc8) (now : UInt32) (count : ℕ)
    (hfits : state.rx.overrun (state.arriving count) = 0) :
    (state.step crc8 canTransmit (.carry now count)).Sound crc8 := by
  refine ⟨h.tx, h.wrote, h.handed, ?_, ?_, h.rx.wireUartIsr now _⟩
  · change state.carried + (state.arriving count).length ≤ state.line.length
    have hle := h.carried_le
    rw [arriving, List.length_take, List.length_drop]
    omega
  · change (state.rx.wireUartIsr now (state.arriving count)).ring.accepted =
      state.line.take (state.carried + (state.arriving count).length)
    rw [WireRx.accepted_of_fits hfits, h.accepted, List.take_add]
    congr 1
    exact List.prefix_iff_eq_take.mp (List.take_prefix count _)

theorem Sound.step (h : state.Sound crc8) {action : WireLineAction}
    (hfits : state.NoOverrun action) : (state.step crc8 canTransmit action).Sound crc8 := by
  cases action with
  | transmit action =>
      cases action with
      | send ring payload => exact h.send ring payload
      | put ring =>
          refine h.quiet (h.tx.put ring) ?_ (fun other => ?_) fun other => ?_
          · cases hentered : state.tx.entered ring with
            | none => rw [WireTx.step, WireTx.put_of_idle hentered]
            | some framed => exact (WireTx.put_of_entered hentered).2.2.2.2
          · rw [WireTx.step, framesIn_put]
            exact h.wrote other
          · rw [WireTx.step, framesIn_put]
            exact h.handed other
      | interrupt claim accepted => exact h.interrupt claim accepted
  | carry now count => exact h.carry now count hfits
  | thread =>
      refine ⟨h.tx, h.wrote, h.handed, h.carried_le, ?_, h.rx.wireRxThread⟩
      exact (Woken.accepted_turn _).trans h.accepted

/-! ## What the subscription gets -/

/-- The subscription was called with whole payloads that were handed over, those of each
ring in order and each once, without the heartbeats. -/
def InOrder (state : WireLine) : Prop :=
  ∃ order : List (WireTxRing × Bytes),
    state.rx.onFrame = (order.map Prod.snd).flatMap WireRx.wireOnFrame ∧
      (∀ ring, framesOf ring order <+: state.handed ring) ∧
      (state.Drained → ∀ ring, framesOf ring order = state.handed ring)

/-- What waits in the receiver's ring has a signal or an awake thread, and the thread
alone parses all of it. -/
def Woken (crc8 : Bytes → UInt8) (state : WireLine) : Prop :=
  (state.rx.ring.waiting ≠ [] → state.rx.ring.signal = true ∨ state.rx.ring.awake = true) ∧
    ∃ turns ≤ wireLinkRxRingBytes + 1,
      ((WireRx.wireRxThread crc8)^[turns] state.rx).ring.waiting = []

theorem framesOf_map (f : Bytes → Bytes) (ring : WireTxRing) (order : List (WireTxRing × Bytes)) :
    framesOf ring (order.map fun entry => (entry.1, f entry.2)) = (framesOf ring order).map f := by
  simp [framesOf, List.filter_map, Function.comp_def]

theorem framesOf_take (ring : WireTxRing) (order : List (WireTxRing × Bytes)) (count : ℕ) :
    framesOf ring (order.take count) <+: framesOf ring order :=
  ((List.take_prefix count order).filter _).map _

theorem Sound.inOrder (h : state.Sound crc8) : state.InOrder := by
  obtain ⟨order, part, hsent, hpart, hframes, hall⟩ := h.tx.framed.parts
  have hwrote : ∀ frame ∈ order.map Prod.snd, ∃ payload, WroteFrame crc8 payload frame := by
    intro frame hframe
    obtain ⟨entry, hentry, rfl⟩ := List.mem_map.mp hframe
    refine h.wrote entry.1 entry.2 (List.mem_append_left _ ?_)
    exact (hframes entry.1).subset (mem_framesOf.mpr hentry)
  have hline : state.line = (order.map Prod.snd).flatten ++ part.map Prod.snd := by
    have hbytes := congrArg (List.map Prod.snd) hsent
    simpa [line, WireTx.toMux, symbols, List.map_flatMap, List.flatMap_def, Function.comp_def]
      using hbytes
  have hnone : ∀ parser,
      (wireFrameParserIngest crc8 parser (part.map Prod.snd)).2 = [] := by
    refine fun parser => wireFrameParserIngest_unended (fun byte hbyte => ?_) parser
    obtain ⟨symbol, hsymbol, rfl⟩ := List.mem_map.mp hbyte
    exact of_decide_eq_false (hpart symbol hsymbol)
  -- the payloads of the whole line, and of the part the thread has parsed
  have hparsed : (wireFrameParserIngest crc8 (.empty false) state.line).2 =
      (order.map Prod.snd).map (payloadOf crc8) := by
    rw [hline, wireFrameParserIngest_append, wireFrameParserIngest_flatten hwrote, hnone,
      List.append_nil, flatMap_framePayloads hwrote]
  have htaken : state.rx.ring.taken <+: state.line :=
    h.rx.ring.taken_prefix.trans (h.accepted ▸ List.take_prefix _ _)
  obtain ⟨count, hlength, hcount⟩ : ∃ count,
      count = (wireFrameParserIngest crc8 (.empty false) state.rx.ring.taken).2.length ∧
      (wireFrameParserIngest crc8 (.empty false) state.rx.ring.taken).2 =
        ((order.take count).map Prod.snd).map (payloadOf crc8) := by
    obtain ⟨rest, hrest⟩ := htaken
    have hprefix : (wireFrameParserIngest crc8 (.empty false) state.rx.ring.taken).2 <+:
        (order.map Prod.snd).map (payloadOf crc8) := by
      rw [← hparsed, ← hrest, wireFrameParserIngest_append]
      exact List.prefix_append _ _
    refine ⟨_, rfl, ?_⟩
    rw [List.map_take, List.map_take]
    exact List.prefix_iff_eq_take.mp hprefix
  refine ⟨(order.take count).map fun entry => (entry.1, payloadOf crc8 entry.2), ?_, ?_, ?_⟩
  · rw [h.rx.onFrame, hcount, List.map_map, List.map_map]
    rfl
  · intro ring
    rw [framesOf_map, h.handed, framesIn, List.map_append]
    refine List.IsPrefix.trans ?_ (List.prefix_append _ _)
    exact ((framesOf_take ring order count).trans (hframes ring)).map _
  · rintro ⟨hsilent, hcarried, hwaiting⟩ ring
    have hall := hall (fun ring => (hsilent ring).2) ring
    have hwhole : state.rx.ring.taken = state.line := by
      have hkept := h.rx.ring.kept
      rw [hwaiting, List.append_nil, h.accepted, hcarried, List.take_length] at hkept
      exact hkept.symm
    have hcount : count = order.length := by
      rw [hlength, hwhole, hparsed, List.length_map, List.length_map]
    rw [framesOf_map, hcount, List.take_length, hall, h.handed, framesIn, (hsilent ring).1]
    simp [WireTx.toMux]

theorem Sound.woken (h : state.Sound crc8) : state.Woken crc8 := by
  refine ⟨fun hne => ?_, state.rx.ring.toDo, ?_, ?_⟩
  · exact (h.rx.ring.woken hne).resolve_left (by simp [h.rx.owed])
  · have hfits := h.rx.fits
    rw [WokenQueue.Woken.toDo]
    split_ifs <;> omega
  · rw [WireRx.iterate_wireRxThread_ring]
    exact (h.rx.ring.settles h.rx.owed (by decide) (Nat.le_refl _)).1

/-- From the sender's calls to the receiver's callback, along every run of calls,
interrupts and thread steps in which the receiver's ring never overruns: what is still
on its way has a way on. -/
theorem wire_payloads_in_order (crc8 : Bytes → UInt8) (canTransmit : Bool)
    {actions : List WireLineAction}
    (hfits : Along (step crc8 canTransmit) NoOverrun boot actions) :
    (run (step crc8 canTransmit) boot actions).InOrder ∧
      (run (step crc8 canTransmit) boot actions).Woken crc8 := by
  have hsound : (run (step crc8 canTransmit) boot actions).Sound crc8 :=
    run_invariant_along (fun _ _ h hok => h.step hok) .boot hfits
  exact ⟨hsound.inOrder, hsound.woken⟩

/-- An event frame after a heartbeat, carried over in two interrupts. -/
def heartbeatThenEvent : List WireLineAction :=
  [.transmit (.send .keepalive []), .transmit (.put .keepalive), .transmit (.interrupt 64 64),
    .transmit (.send .event [5]), .transmit (.put .event), .transmit (.interrupt 64 64),
    .carry 10 4, .thread, .thread, .carry 11 4, .thread, .thread]

theorem wire_payloads_in_order_sample :
    (run (step crc8Ccitt true) boot heartbeatThenEvent).rx.onFrame = [[5]] ∧
      (run (step crc8Ccitt true) boot heartbeatThenEvent).InOrder :=
  ⟨by decide +kernel, (wire_payloads_in_order crc8Ccitt true (by decide +kernel)).1⟩

end WireLine

end SplitEsb
