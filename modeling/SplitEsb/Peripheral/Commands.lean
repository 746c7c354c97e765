import SplitEsb.Hop.Peripheral
import SplitEsb.Link.Receive

/-! # Commands on a peripheral
What the hop engine leaves of the received payloads goes to the wire peer, to the HID
relay, or into the command queue, which a work item of the system workqueue empties
into ZMK's command handler. -/

namespace SplitEsb

open ByteString Transition WokenQueue

variable {config : HopConfig}

/-! ## The hop engine's part -/

namespace HopPeripheral

/-- Whether `hop_consume_rx` keeps the payload from the role layer. -/
def takesRx (wireRelayOwnsPipe : ℕ → Bool) (config : HopConfig) (payload : EsbPayload) : Bool :=
  if esbHasTag esbBeaconTag payload.data then !wireRelayOwnsPipe payload.pipe
  else if config.hopCount ≤ 1 then false
  else esbHasTag esbMaskUpdateTag payload.data

def consumeRx (selfPipe : ℕ) (wireRelayOwnsPipe : ℕ → Bool)
    (peripheral : HopPeripheral config) (payload : EsbPayload) : Bool × HopPeripheral config :=
  (takesRx wireRelayOwnsPipe config payload, peripheral.hopConsumeRx selfPipe payload.data)

end HopPeripheral

/-! ## The role layer -/

/-- What the role layer asks of the build; a command is a whole struct of this size. -/
structure PeripheralRole where
  selfPipe : ℕ
  wireRelayOwnsPipe : ℕ → Bool
  selfIsRelay : Bool
  commandSize : ℕ
  commandQueueSize : ℕ

inductive RxRoute where
  | wirePeer
  | hidRelay
  | command
  /-- A command of another size is dropped. -/
  | misfit
  deriving DecidableEq

/-- Where `esb_peripheral_on_rx` sends a packet. -/
def PeripheralRole.esbPeripheralOnRx (role : PeripheralRole) (packet : EsbLinkPacket) : RxRoute :=
  if role.wireRelayOwnsPipe packet.pipe then .wirePeer
  else if role.selfIsRelay then .hidRelay
  else if packet.data.length ≠ role.commandSize then .misfit
  else .command

/-- The receive path, and what came out of it. `commands` is the command queue with its
work: submitted, running, and what the handler got. -/
structure Downlink (config : HopConfig) where
  rx : RxPath (HopPeripheral config)
  commands : Woken Bytes
  dropped : ℕ
  forwarded : List Bytes
  relayed : List Bytes

inductive DownlinkAction where
  | received (fifo : List EsbPayload)
  | rxThread
  /-- The system workqueue picks the work up, or its loop takes a command. -/
  | commandWork

namespace Downlink

variable (role : PeripheralRole) (size : ℕ)

def boot (peripheral : HopPeripheral config) : Downlink config :=
  ⟨.boot peripheral, .empty, 0, [], []⟩

/-- The rest of the callback, and its return. -/
def returns (down : Downlink config) : Downlink config :=
  { down with rx := down.rx.rxThreadStep size }

/-- A step of `rx_thread_fn`. In the callback a command is put into the queue, and in a
second step the work is submitted. -/
def rxThread (down : Downlink config) : Downlink config :=
  match down.rx.thread with
  | .handling packet =>
      if down.commands.owed then { down with commands := down.commands.give }.returns size
      else
        match role.esbPeripheralOnRx packet with
        | .wirePeer => { down with forwarded := down.forwarded ++ [packet.data] }.returns size
        | .hidRelay => { down with relayed := down.relayed ++ [packet.data] }.returns size
        | .misfit => down.returns size
        | .command =>
            if down.commands.waiting.length < role.commandQueueSize then
              { down with commands := down.commands.offer role.commandQueueSize packet.data }
            else { down with dropped := down.dropped + 1 }.returns size
  | _ => down.returns size

def step (down : Downlink config) : DownlinkAction → Downlink config
  | .received fifo =>
      { down with
        rx := down.rx.onRxReceived
          (HopPeripheral.consumeRx role.selfPipe role.wireRelayOwnsPipe) size fifo }
  | .rxThread => down.rxThread role size
  | .commandWork => { down with commands := down.commands.turn 1 }

/-! ## Invariant -/

/-- The packet in the callback, once its command was put. -/
def putting (down : Downlink config) : List EsbLinkPacket :=
  match down.rx.thread with
  | .handling packet => if down.commands.owed then [packet] else []
  | _ => []

/-- The packets the role layer dealt with. -/
def dispatched (down : Downlink config) : List EsbLinkPacket :=
  down.rx.handled.map Prod.fst ++ down.putting

/-- The command an action hands to the queue. -/
def handsOver (down : Downlink config) : DownlinkAction → List Bytes
  | .rxThread =>
      match down.rx.thread with
      | .handling packet =>
          if !down.commands.owed ∧ role.esbPeripheralOnRx packet = .command then [packet.data]
          else []
      | _ => []
  | _ => []

def routed (route : RxRoute) (packets : List EsbLinkPacket) : List Bytes :=
  (packets.filter fun packet => role.esbPeripheralOnRx packet = route).map EsbLinkPacket.data

/-- Each packet went where it belongs, in order, and a command was dropped or queued. -/
structure Routes (down : Downlink config) (packets : List EsbLinkPacket) : Prop where
  forwarded : down.forwarded = routed role .wirePeer packets
  relayed : down.relayed = routed role .hidRelay packets
  commands : down.commands.accepted.Sublist (routed role .command packets)
  dropped : down.commands.accepted.length + down.dropped = (routed role .command packets).length

structure Holds (down : Downlink config) : Prop where
  rx : down.rx.Steady size
  queue : down.commands.Sound
  room : down.commands.waiting.length ≤ role.commandQueueSize
  owed : down.commands.owed = true → ∃ packet, down.rx.thread = .handling packet
  routes : down.Routes role down.dispatched

variable {role size} {down : Downlink config}

theorem Holds.boot (peripheral : HopPeripheral config) : (boot peripheral).Holds role size where
  rx := .boot peripheral
  queue := .empty
  room := Nat.zero_le _
  owed h := by cases h
  routes := ⟨rfl, rfl, List.Sublist.refl _, rfl⟩

theorem routed_concat_self {route : RxRoute} {packet : EsbLinkPacket}
    (hroute : role.esbPeripheralOnRx packet = route) (packets : List EsbLinkPacket) :
    routed role route (packets ++ [packet]) = routed role route packets ++ [packet.data] := by
  simp [routed, hroute]

theorem routed_concat_other {route other : RxRoute} {packet : EsbLinkPacket}
    (hroute : role.esbPeripheralOnRx packet = route) (hne : route ≠ other)
    (packets : List EsbLinkPacket) :
    routed role other (packets ++ [packet]) = routed role other packets := by
  simp [routed, hroute, hne]

theorem dispatched_of_handling (down : Downlink config) {packet : EsbLinkPacket}
    (hthread : down.rx.thread = .handling packet) :
    down.dispatched =
      down.rx.handled.map Prod.fst ++ if down.commands.owed then [packet] else [] := by
  rw [dispatched, putting, hthread]

theorem dispatched_of_not_owed (down : Downlink config) (howed : down.commands.owed = false) :
    down.dispatched = down.rx.handled.map Prod.fst := by
  rw [dispatched, putting]
  split
  · rw [howed, if_neg Bool.false_ne_true, List.append_nil]
  · exact List.append_nil _

/-- The callback's return is recorded, and nothing else is. -/
theorem handled_rxThreadStep (path : RxPath (HopPeripheral config)) (size : ℕ) :
    (path.rxThreadStep size).handled.map Prod.fst = path.handled.map Prod.fst ++
      match path.thread with
      | .handling packet => [packet]
      | _ => [] := by
  rw [RxPath.rxThreadStep]
  split
  · next hthread => rw [hthread]; split_ifs <;> exact (List.append_nil _).symm
  · next hthread => rw [hthread]; split_ifs <;> exact (List.append_nil _).symm
  · next packet hthread => rw [hthread, List.map_append]; rfl
  · next hthread => rw [hthread]; exact (List.append_nil _).symm

/-- The interrupt leaves the thread where it is. -/
theorem onRxReceived_kept {σ : Type} (hopConsumeRx : σ → EsbPayload → Bool × σ) (size : ℕ)
    (path : RxPath σ) (fifo : List EsbPayload) :
    (path.onRxReceived hopConsumeRx size fifo).thread = path.thread ∧
      (path.onRxReceived hopConsumeRx size fifo).handled = path.handled := by
  have hpayload (drain : RxDrain σ) (payload : EsbPayload) :
      (RxPath.drainPayload hopConsumeRx size drain payload).path.thread = drain.path.thread ∧
        (RxPath.drainPayload hopConsumeRx size drain payload).path.handled =
          drain.path.handled := by
    rw [RxPath.drainPayload]
    dsimp only
    split
    · exact ⟨rfl, rfl⟩
    · split <;> exact ⟨rfl, rfl⟩
  have hfifo : (path.drainFifo hopConsumeRx size fifo).path.thread = path.thread ∧
      (path.drainFifo hopConsumeRx size fifo).path.handled = path.handled :=
    @run_invariant _ _ (RxPath.drainPayload hopConsumeRx size)
      (fun drain => drain.path.thread = path.thread ∧ drain.path.handled = path.handled)
      (fun drain payload h => ⟨(hpayload drain payload).1.trans h.1,
        (hpayload drain payload).2.trans h.2⟩) ⟨path, false, 0, 0, 0⟩ ⟨rfl, rfl⟩ fifo
  rw [RxPath.onRxReceived]
  dsimp only
  split_ifs
  · exact hfifo
  · exact hfifo

/-- A step that hands the packet over and returns. -/
theorem Holds.returns (h : down.Holds role size) {packet : EsbLinkPacket}
    (hthread : down.rx.thread = .handling packet) {commands : Woken Bytes} (dropped : ℕ)
    (forwarded relayed : List Bytes) (hqueue : commands.Sound)
    (hroom : commands.waiting.length ≤ role.commandQueueSize) (howed : commands.owed = false)
    (hroutes : ({ down with
        commands := commands, dropped := dropped
        forwarded := forwarded, relayed := relayed } : Downlink config).Routes role
      (down.rx.handled.map Prod.fst ++ [packet])) :
    (({ down with
        commands := commands, dropped := dropped
        forwarded := forwarded, relayed := relayed } : Downlink config).returns size).Holds
      role size := by
  refine ⟨h.rx.rxThreadStep, hqueue, hroom, ?_, ?_⟩
  · intro hstill
    cases howed.symm.trans hstill
  · rw [dispatched_of_not_owed _ howed]
    have hhandled := handled_rxThreadStep down.rx size
    rw [hthread] at hhandled
    rw [Downlink.returns]
    dsimp only
    rw [hhandled]
    exact ⟨hroutes.forwarded, hroutes.relayed, hroutes.commands, hroutes.dropped⟩

theorem Holds.rxThread (h : down.Holds role size) : (down.rxThread role size).Holds role size := by
  rw [Downlink.rxThread]
  split
  next packet hthread =>
    have hroutes := h.routes
    rw [dispatched_of_handling _ hthread] at hroutes
    cases howed : down.commands.owed with
    | true =>
        rw [howed, if_pos rfl] at hroutes
        rw [if_pos rfl]
        exact h.returns hthread down.dropped down.forwarded down.relayed h.queue.give h.room rfl
          ⟨hroutes.forwarded, hroutes.relayed, hroutes.commands, hroutes.dropped⟩
    | false =>
        rw [howed, if_neg Bool.false_ne_true, List.append_nil] at hroutes
        rw [if_neg Bool.false_ne_true]
        cases hroute : role.esbPeripheralOnRx packet with
        | wirePeer =>
            refine h.returns hthread _ _ _ h.queue h.room howed ⟨?_, ?_, ?_, ?_⟩
            · rw [routed_concat_self hroute, hroutes.forwarded]
            · rw [routed_concat_other hroute (by decide), hroutes.relayed]
            · rw [routed_concat_other hroute (by decide)]
              exact hroutes.commands
            · rw [routed_concat_other hroute (by decide), ← hroutes.dropped]
        | hidRelay =>
            refine h.returns hthread _ _ _ h.queue h.room howed ⟨?_, ?_, ?_, ?_⟩
            · rw [routed_concat_other hroute (by decide), hroutes.forwarded]
            · rw [routed_concat_self hroute, hroutes.relayed]
            · rw [routed_concat_other hroute (by decide)]
              exact hroutes.commands
            · rw [routed_concat_other hroute (by decide), ← hroutes.dropped]
        | misfit =>
            refine h.returns hthread down.dropped down.forwarded down.relayed h.queue h.room howed
              ⟨?_, ?_, ?_, ?_⟩
            · rw [routed_concat_other hroute (by decide), hroutes.forwarded]
            · rw [routed_concat_other hroute (by decide), hroutes.relayed]
            · rw [routed_concat_other hroute (by decide)]
              exact hroutes.commands
            · rw [routed_concat_other hroute (by decide), ← hroutes.dropped]
        | command =>
            dsimp only
            split_ifs with hspace
            · have hoffer : down.commands.offer role.commandQueueSize packet.data =
                  { down.commands with
                    waiting := down.commands.waiting ++ [packet.data]
                    owed := true
                    accepted := down.commands.accepted ++ [packet.data] } := if_pos hspace
              refine ⟨h.rx, h.queue.offer _ _, Woken.length_waiting_offer h.room _,
                fun _ => ⟨packet, hthread⟩, ?_⟩
              rw [hoffer, dispatched_of_handling
                { down with commands := { down.commands with
                    waiting := down.commands.waiting ++ [packet.data]
                    owed := true
                    accepted := down.commands.accepted ++ [packet.data] } } hthread, if_pos rfl]
              refine ⟨?_, ?_, ?_, ?_⟩
              · rw [routed_concat_other hroute (by decide)]
                exact hroutes.forwarded
              · rw [routed_concat_other hroute (by decide)]
                exact hroutes.relayed
              · rw [routed_concat_self hroute]
                exact hroutes.commands.append (List.Sublist.refl _)
              · have hcount := hroutes.dropped
                rw [routed_concat_self hroute, List.length_append, List.length_append]
                dsimp only
                omega
            · refine h.returns hthread _ down.forwarded down.relayed h.queue h.room howed
                ⟨?_, ?_, ?_, ?_⟩
              · rw [routed_concat_other hroute (by decide), hroutes.forwarded]
              · rw [routed_concat_other hroute (by decide), hroutes.relayed]
              · rw [routed_concat_self hroute]
                exact hroutes.commands.trans (List.sublist_append_left _ _)
              · rw [routed_concat_self hroute, List.length_append, ← hroutes.dropped]
                exact (Nat.add_assoc _ _ _).symm
  next hother =>
    have howed : down.commands.owed = false := by
      by_contra howed
      obtain ⟨packet, hthread⟩ := h.owed (by simpa using howed)
      exact hother packet hthread
    have hroutes := h.routes
    have hhandled := handled_rxThreadStep down.rx size
    rw [dispatched_of_not_owed _ howed] at hroutes
    have hsame : (down.rx.rxThreadStep size).handled.map Prod.fst =
        down.rx.handled.map Prod.fst := by
      cases hthread : down.rx.thread with
      | handling packet => exact absurd hthread (hother packet)
      | _ => rw [hthread] at hhandled; rw [hhandled, List.append_nil]
    refine ⟨h.rx.rxThreadStep, h.queue, h.room, fun hstill => ?_, ?_⟩
    · cases howed.symm.trans hstill
    · rw [dispatched_of_not_owed (down.returns size) howed, Downlink.returns]
      dsimp only
      rw [hsame]
      exact ⟨hroutes.forwarded, hroutes.relayed, hroutes.commands, hroutes.dropped⟩

theorem Holds.step (h : down.Holds role size) (action : DownlinkAction) :
    (Downlink.step role size down action).Holds role size := by
  cases action with
  | rxThread => exact h.rxThread
  | commandWork =>
      refine ⟨h.rx, h.queue.turn 1, (Woken.length_waiting_turn 1).trans h.room, ?_, ?_⟩
      · intro howed
        rw [Downlink.step, Woken.owed_turn] at howed
        exact h.owed howed
      · have hroutes := h.routes
        have hsame : (Downlink.step role size down .commandWork).dispatched = down.dispatched := by
          simp [Downlink.step, dispatched, putting]
        rw [hsame]
        exact ⟨hroutes.forwarded, hroutes.relayed,
          (Woken.accepted_turn 1).symm ▸ hroutes.commands,
          (Woken.accepted_turn 1).symm ▸ hroutes.dropped⟩
  | received fifo =>
      have hkept := onRxReceived_kept
        (HopPeripheral.consumeRx role.selfPipe role.wireRelayOwnsPipe) size down.rx fifo
      have hroutes := h.routes
      refine ⟨h.rx.onRxReceived fifo, h.queue, h.room, fun howed => ?_, ?_⟩
      · rw [Downlink.step]
        dsimp only
        rw [hkept.1]
        exact h.owed howed
      · have hsame : (Downlink.step role size down (.received fifo)).dispatched =
            down.dispatched := by
          rw [Downlink.step, dispatched, putting, dispatched, putting]
          dsimp only
          rw [hkept.1, hkept.2]
        rw [hsame]
        exact ⟨hroutes.forwarded, hroutes.relayed, hroutes.commands, hroutes.dropped⟩

/-! ## Where packets end -/

/-- The queue takes every command handed to it while it has room, and nothing else. -/
theorem accepted_step (role : PeripheralRole) (size : ℕ) (down : Downlink config)
    (action : DownlinkAction) :
    (step role size down action).commands.accepted = down.commands.accepted ++
      if down.commands.waiting.length < role.commandQueueSize then down.handsOver role action
      else [] := by
  cases action with
  | received fifo => simp [step, handsOver]
  | commandWork => simp [step, handsOver]
  | rxThread =>
      rw [step, rxThread, handsOver]
      cases hthread : down.rx.thread with
      | handling packet =>
          dsimp only
          cases howed : down.commands.owed with
          | true => simp [returns, Woken.give]
          | false =>
              rw [if_neg Bool.false_ne_true]
              cases hroute : role.esbPeripheralOnRx packet with
              | command =>
                  by_cases hspace : down.commands.waiting.length < role.commandQueueSize
                  · simp [hspace, Woken.offer]
                  · simp [hspace, returns]
              | _ => simp [returns]
      | _ => simp [returns]

/-- Each packet has one route. -/
theorem length_routed (role : PeripheralRole) (packets : List EsbLinkPacket) :
    (routed role .wirePeer packets).length + (routed role .hidRelay packets).length +
      (routed role .command packets).length + (routed role .misfit packets).length =
        packets.length := by
  induction packets with
  | nil => rfl
  | cons packet packets ih =>
      simp only [routed, List.length_map, List.filter_cons, List.length_cons] at ih ⊢
      cases role.esbPeripheralOnRx packet <;> simp <;> omega

/-- Every packet is forwarded, relayed, queued or dropped, once. -/
theorem Routes.length {packets : List EsbLinkPacket} (h : down.Routes role packets) :
    down.forwarded.length + down.relayed.length + down.commands.accepted.length + down.dropped +
      (routed role .misfit packets).length = packets.length := by
  rw [← length_routed role packets, h.forwarded, h.relayed, ← h.dropped]
  omega

/-- Only a whole struct reaches the handler. -/
theorem Routes.length_of_mem_accepted {packets : List EsbLinkPacket}
    (h : down.Routes role packets) {command : Bytes} (hmem : command ∈ down.commands.accepted) :
    command.length = role.commandSize := by
  obtain ⟨packet, hpacket, rfl⟩ := List.mem_map.mp (h.commands.subset hmem)
  have hroute : role.esbPeripheralOnRx packet = .command := by
    simpa using (List.mem_filter.mp hpacket).2
  rw [PeripheralRole.esbPeripheralOnRx] at hroute
  split_ifs at hroute with _ _ hsize
  exact not_not.mp hsize

/-! ## Both threads alone -/

/-- How far the receive thread is from waiting without a signal. -/
def rank (down : Downlink config) : ℕ :=
  5 * (down.rx.produced - down.rx.released) + (if down.rx.rxSem then 2 else 0) +
    match down.rx.thread with
    | .waiting => 3
    | .draining => 4
    | .handling _ => if down.commands.owed then 2 else 3
    | .handled => 1

theorem accepted_rxThread (role : PeripheralRole) (size : ℕ) (down : Downlink config) :
    (down.rxThread role size).rx.accepted = down.rx.accepted := by
  have hreturns : (down.rx.rxThreadStep size).accepted = down.rx.accepted := by
    rw [RxPath.rxThreadStep]
    split
    · split_ifs <;> rfl
    · split_ifs <;> rfl
    · rfl
    · rfl
  rw [rxThread]
  split
  · split
    · exact hreturns
    · split
      · exact hreturns
      · exact hreturns
      · exact hreturns
      · split
        · rfl
        · exact hreturns
  · exact hreturns

/-- A callback that returns has its packet released next. -/
theorem rank_returns (size : ℕ) (down : Downlink config) {packet : EsbLinkPacket}
    (hthread : down.rx.thread = .handling packet) :
    (down.returns size).rank =
      5 * (down.rx.produced - down.rx.released) + (if down.rx.rxSem then 2 else 0) + 1 := by
  simp [returns, RxPath.rxThreadStep, rank, hthread]

/-- The thread gets closer with each step, but for one that waits unsignalled. -/
theorem Holds.rank_rxThread (h : down.Holds role size)
    (hbusy : down.rx.thread ≠ .waiting ∨ down.rx.rxSem = true) :
    (down.rxThread role size).rank < down.rank := by
  have hle := h.rx.sound.released_le
  cases hthread : down.rx.thread with
  | waiting =>
      have hsem : down.rx.rxSem = true := hbusy.resolve_left fun hne => hne hthread
      simp [Downlink.rxThread, Downlink.returns, RxPath.rxThreadStep, rank, hthread, hsem]
  | draining =>
      by_cases hempty : down.rx.released = down.rx.produced
      · simp [Downlink.rxThread, Downlink.returns, RxPath.rxThreadStep, rank, hthread, hempty]
      · have howed : down.commands.owed = false := by
          by_contra howed
          obtain ⟨packet, hhandling⟩ := h.owed (by simpa using howed)
          cases hthread.symm.trans hhandling
        simp [Downlink.rxThread, Downlink.returns, RxPath.rxThreadStep, rank, hthread, hempty,
          howed]
  | handling packet =>
      have hreturns : ∀ other : Downlink config, other.rx = down.rx →
          (other.returns size).rank < down.rank := by
        intro other hrx
        rw [rank_returns size other (hrx ▸ hthread), hrx, rank, hthread]
        dsimp only
        split_ifs <;> omega
      rw [Downlink.rxThread, hthread]
      dsimp only
      split
      · exact hreturns _ rfl
      next howed =>
        split
        · exact hreturns _ rfl
        · exact hreturns _ rfl
        · exact hreturns _ rfl
        · split
          next hspace =>
            rw [Woken.offer, if_pos hspace]
            simp [rank, hthread, howed]
          · exact hreturns _ rfl
  | handled =>
      have hlt : down.rx.released < down.rx.produced :=
        h.rx.sound.holding (by rw [hthread]; exact fun hw => by cases hw)
          (by rw [hthread]; exact fun hd => by cases hd)
      simp only [Downlink.rxThread, Downlink.returns, RxPath.rxThreadStep, rank, hthread]
      omega

/-- The receive thread alone comes to wait, without a signal. -/
theorem Holds.waits (h : down.Holds role size) : ∃ turns ≤ down.rank,
    let after := (Downlink.rxThread role size)^[turns] down
    after.Holds role size ∧ after.rx.accepted = down.rx.accepted ∧
      after.rx.thread = .waiting ∧ after.rx.rxSem = false := by
  generalize hrank : down.rank = rank
  induction rank using Nat.strong_induction_on generalizing down with
  | _ rank ih =>
      by_cases hbusy : down.rx.thread ≠ .waiting ∨ down.rx.rxSem = true
      · have hless := h.rank_rxThread hbusy
        obtain ⟨turns, hturns, hholds, haccepted, hwaits⟩ :=
          ih _ (hrank ▸ hless) h.rxThread rfl
        refine ⟨turns + 1, by omega, ?_⟩
        rw [Function.iterate_succ_apply]
        exact ⟨hholds, haccepted.trans (accepted_rxThread role size down), hwaits⟩
      · rw [not_or, not_not, Bool.not_eq_true] at hbusy
        exact ⟨0, Nat.zero_le _, h, rfl, hbusy⟩

theorem commandWork_iterate (down : Downlink config) (turns : ℕ) :
    (fun down : Downlink config => down.step role size .commandWork)^[turns] down =
      { down with commands := (Woken.turn 1)^[turns] down.commands } := by
  induction turns generalizing down with
  | zero => rfl
  | succ turns ih => rw [Function.iterate_succ_apply, ih, Function.iterate_succ_apply]; rfl

theorem Holds.rank_le (h : down.Holds role size) : down.rank ≤ 5 * size + 6 := by
  have hroom := h.rx.sound.room
  cases hthread : down.rx.thread with
  | handling packet => simp only [rank, hthread]; split_ifs <;> omega
  | _ => simp only [rank, hthread]; split_ifs <;> omega

/-- The two threads alone bring everything the ring took to its destination. -/
theorem Holds.settles (h : down.Holds role size) : ∃ turns ≤ 5 * size + 6,
    let settled := run (Downlink.step role size) down (List.replicate turns .rxThread ++
      List.replicate (role.commandQueueSize + 1) .commandWork)
    settled.rx.accepted = down.rx.accepted ∧ settled.dispatched = down.rx.accepted ∧
      settled.Routes role down.rx.accepted ∧
      settled.commands.taken = settled.commands.accepted := by
  obtain ⟨turns, hturns, hafter, haccepted, hthread, hsem⟩ := h.waits
  refine ⟨turns, hturns.trans h.rank_le, ?_⟩
  intro settled
  have howed : ((Downlink.rxThread role size)^[turns] down).commands.owed = false := by
    by_contra howed
    obtain ⟨packet, hhandling⟩ := hafter.owed (by simpa using howed)
    cases hthread.symm.trans hhandling
  have hsettled : settled = { (Downlink.rxThread role size)^[turns] down with
      commands := (Woken.turn 1)^[role.commandQueueSize + 1]
        ((Downlink.rxThread role size)^[turns] down).commands } := by
    rw [show settled = _ from run_append .., run_replicate, run_replicate]
    exact commandWork_iterate _ _
  generalize (Downlink.rxThread role size)^[turns] down = after at *
  obtain ⟨hempty, htaken⟩ := hafter.rx.queue.of_asleep rfl hsem
    (by simp [RxPath.toWoken, RxThread.awake, hthread])
  have hreleased : after.rx.produced - after.rx.released = 0 := by
    rw [← RxPath.length_contents size after.rx]
    exact List.length_eq_zero_iff.mpr hempty
  have hdispatched : after.dispatched = down.rx.accepted := by
    rw [dispatched_of_not_owed after howed, hafter.rx.sound.map_fst_handled, RxPath.returned,
      hthread, if_neg (by decide), ← haccepted]
    exact List.take_of_length_le (by rw [hafter.rx.sound.length]; omega)
  have hsame : settled.dispatched = after.dispatched := by
    rw [hsettled, dispatched, dispatched, putting, putting, hthread]
  have htoDo : after.commands.toDo ≤ role.commandQueueSize + 1 := by
    have hroom := hafter.room
    rw [Woken.toDo]
    split_ifs <;> omega
  have htaken := (hafter.queue.settles howed Nat.one_pos htoDo).2
  have hcommands : settled.commands.accepted = after.commands.accepted := by
    rw [hsettled]
    exact Function.Iterate.rec
      (fun queue : Woken Bytes => queue.accepted = after.commands.accepted) rfl
      (fun _ hq => (Woken.accepted_turn 1).trans hq) _
  have hroutes := hafter.routes
  rw [hdispatched] at hroutes
  refine ⟨?_, hsame.trans hdispatched, ⟨?_, ?_, ?_, ?_⟩, ?_⟩
  · rw [hsettled]
    exact haccepted
  · rw [hsettled]
    exact hroutes.forwarded
  · rw [hsettled]
    exact hroutes.relayed
  · rw [hcommands]
    exact hroutes.commands
  · rw [hcommands, hsettled]
    exact hroutes.dropped
  · rw [hcommands, ← htaken, hsettled]

/-- What the radio received and the ring took reaches its destination in order: the
payloads of the wire peer's pipe, the relay's, and the commands. A command of another size is
dropped, and else only one that finds the queue full. The two threads alone bring all of it
there. -/
theorem commands_reach_handler (role : PeripheralRole) (size : ℕ)
    (peripheral : HopPeripheral config) (actions : List DownlinkAction) :
    let down := run (step role size) (boot peripheral) actions
    down.rx.Delivers size ∧ down.Routes role down.dispatched ∧
      down.forwarded.length + down.relayed.length + down.commands.accepted.length + down.dropped +
        (routed role .misfit down.dispatched).length = down.dispatched.length ∧
      (∀ action, (step role size down action).commands.accepted = down.commands.accepted ++
        if down.commands.waiting.length < role.commandQueueSize then down.handsOver role action
        else []) ∧
      (∀ command ∈ down.commands.accepted, command.length = role.commandSize) ∧
      down.commands.taken <+: down.commands.accepted ∧
      ∃ turns ≤ 5 * size + 6,
        let settled := run (step role size) down (List.replicate turns .rxThread ++
          List.replicate (role.commandQueueSize + 1) .commandWork)
        settled.dispatched = down.rx.accepted ∧ settled.Routes role down.rx.accepted ∧
          settled.commands.taken = settled.commands.accepted := by
  intro down
  have hholds : down.Holds role size :=
    run_invariant (fun _ action h => h.step action) (Holds.boot peripheral) actions
  obtain ⟨turns, hturns, -, hsettled⟩ := hholds.settles
  exact ⟨hholds.rx.delivers, hholds.routes, hholds.routes.length, accepted_step role size down,
    fun _ hmem => hholds.routes.length_of_mem_accepted hmem, hholds.queue.taken_prefix, turns,
    hturns, hsettled⟩

end Downlink

end SplitEsb
