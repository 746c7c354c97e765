import SplitEsb.Hop.Lockstep
import SplitEsb.Peripheral.Commands
import SplitEsb.Reply.AckQueues
import SplitEsb.Reply.CommandTurn
import SplitEsb.Shared.Thinned

/-! # Commands across the air
A command waits in the central's reply queue, is parked in its radio and rides an ACK;
on the peripheral it goes through the radio's FIFO, the ring and the command queue. -/

namespace SplitEsb

open ByteString Thinned Transition WokenQueue

variable {reply : ReplyConfig} {hop : HopConfig}

/-! ## From ZMK to the pipe -/

inductive CommandRoute where
  | ignored
  | wire (command : Bytes)
  | stage (pipe : ℕ) (command : Bytes)

/-- What `central_send_command` does with a command for a source. -/
def centralSendCommand (reply : ReplyConfig) (hop : HopConfig) (source : ℕ) (command : Bytes) :
    CommandRoute :=
  if reply.relayPipe source then .ignored
  else if hop.wirePipe source then .wire command
  else .stage source command

/-- A peripheral that runs commands, on the pipe it is heard on. -/
structure CommandPeer (reply : ReplyConfig) (hop : HopConfig) where
  role : PeripheralRole
  selfPipe_lt : role.selfPipe < reply.pipeCount
  plain : reply.relayPipe role.selfPipe = false
  ownPipe : role.wireRelayOwnsPipe role.selfPipe = false
  notRelay : role.selfIsRelay = false
  commandSize_eq : role.commandSize = reply.commandLength

namespace CommandPeer

variable (peer : CommandPeer reply hop)

abbrev pipe : ℕ := peer.role.selfPipe

/-- The hop engine leaves the payload to the role layer, which takes it for a command. -/
def isCommand (payload : EsbPayload) : Bool :=
  !HopPeripheral.takesRx peer.role.wireRelayOwnsPipe hop payload &&
    peer.role.esbPeripheralOnRx payload.packet = .command

def commandsOf (payloads : List EsbPayload) : List Bytes :=
  (payloads.filter peer.isCommand).map EsbPayload.data

def carries (data : Bytes) : Bool := peer.isCommand ⟨peer.pipe, false, 0, data⟩

theorem commandsOf_append (front back : List EsbPayload) :
    peer.commandsOf (front ++ back) = peer.commandsOf front ++ peer.commandsOf back := by
  rw [commandsOf, List.filter_append, List.map_append]
  rfl

theorem carries_eq (data : Bytes) : peer.carries data =
    (!esbHasTag esbBeaconTag data && !(decide (1 < hop.hopCount) && esbHasTag esbMaskUpdateTag data) &&
      decide (data.length = reply.commandLength)) := by
  have hown := peer.ownPipe
  simp only [carries, isCommand, HopPeripheral.takesRx, PeripheralRole.esbPeripheralOnRx,
    EsbPayload.packet, hown, peer.notRelay, peer.commandSize_eq]
  cases esbHasTag esbBeaconTag data with
  | true => rfl
  | false =>
      rcases Nat.lt_or_ge 1 hop.hopCount with hcount | hcount
      · by_cases hlength : data.length = reply.commandLength <;> simp [hcount, hlength]
      · by_cases hlength : data.length = reply.commandLength <;> simp [hcount, hlength]

/-- What the hop engine leaves of a FIFO, as far as it are commands. -/
theorem routed_forRole (state : HopPeripheral hop) (fifo : List EsbPayload) :
    Downlink.routed peer.role .command (RxPath.forRole
      (HopPeripheral.consumeRx peer.role.selfPipe peer.role.wireRelayOwnsPipe) state fifo) =
      peer.commandsOf fifo := by
  induction fifo generalizing state with
  | nil => rfl
  | cons payload fifo ih =>
      rw [RxPath.forRole, HopPeripheral.consumeRx]
      dsimp only
      cases htakes : HopPeripheral.takesRx peer.role.wireRelayOwnsPipe hop payload with
      | true =>
          rw [if_pos rfl, ih]
          simp [commandsOf, isCommand, htakes]
      | false =>
          rw [if_neg Bool.false_ne_true]
          have hrest := ih (state.hopConsumeRx peer.role.selfPipe payload.data)
          by_cases hroute : peer.role.esbPeripheralOnRx payload.packet = .command
          · simp only [Downlink.routed, commandsOf] at hrest ⊢
            rw [List.filter_cons_of_pos (by simpa using hroute),
              List.filter_cons_of_pos (by simp [isCommand, htakes, hroute]), List.map_cons,
              List.map_cons, hrest]
            rfl
          · simp only [Downlink.routed, commandsOf] at hrest ⊢
            rw [List.filter_cons_of_neg (by simpa using hroute),
              List.filter_cons_of_neg (by simp [isCommand, hroute]), hrest]

end CommandPeer

/-! ## A turn of the central's radio -/

namespace AckRadio

variable {radio : AckRadio reply} {txFifoSize pipe : ℕ}

/-- A turn parks for each pipe what it hands over for it. -/
theorem parks_serve (hcells : radio.link.CellsSound) {turn : ℕ} (hqueue : radio.link.QueueSound turn)
    (pipes : List ℕ) :
    (radio.serve txFifoSize turn pipes).queues.offered = radio.queues.offered ∧
      ∃ made, (radio.serve txFifoSize turn pipes).link.handedOver pipe =
          radio.link.handedOver pipe ++ made ∧
        (radio.serve txFifoSize turn pipes).queues.replies pipe =
          radio.queues.replies pipe ++ made := by
  rcases serve_cases txFifoSize pipes hcells hqueue with
    ⟨hwrites, hqueues⟩ | ⟨write, hturn, -, -, htaken, hwrites, hqueues⟩
  · refine ⟨by rw [hqueues], [], ?_, by rw [hqueues, List.append_nil]⟩
    rw [ReplyLink.handedOver, ReplyLink.writesOf, hwrites, List.append_nil]
    rfl
  · obtain ⟨hoffered, hreplies⟩ := radio.queues.write_eq txFifoSize reply.maxPayload turn write.data
    rw [hqueues]
    refine ⟨hoffered, if write.accepted && pipe == turn then [write.data] else [], ?_, ?_⟩
    · rw [ReplyLink.handedOver, ReplyLink.writesOf, hwrites, List.filter_append, List.filter_append,
        List.map_append, ← hturn]
      congr 1
      rcases eq_or_ne pipe write.pipe with rfl | hne
      · cases haccepted : write.accepted <;> simp [haccepted]
      · simp [hne, hne.symm]
    · rw [hreplies, htaken]

theorem servesCommands_serve {carries : Bytes → Bool} (hcells : radio.link.CellsSound)
    (hqueue : radio.link.QueueSound pipe) (hplain : reply.relayPipe pipe = false)
    (hserves : radio.link.ServesCommands carries pipe) (turn : ℕ) (pipes : List ℕ) :
    (radio.serve txFifoSize turn pipes).link.ServesCommands carries pipe := by
  rcases eq_or_ne pipe turn with rfl | hne
  · exact hserves.replyTo hplain hcells hqueue _
  · exact hserves.frame (.replyTo _ hne)

end AckRadio

/-! ## The path -/

/-- How the peripheral hears the reply on an ACK. -/
structure AckHeard where
  noack : Bool
  rssi : Int8

/-- Both ends and the radio FIFO of the peripheral. The fields after it only record:
the replies that rode an ACK, the payloads the peripheral drained, and the commands
whose ACK was not heard or that found the ring full. -/
structure CommandPath (reply : ReplyConfig) (hop : HopConfig) where
  radio : AckRadio reply
  rxFifo : List EsbPayload
  down : Downlink hop
  passed : List Bytes
  drained : List EsbPayload
  unheard : ℕ
  overflowed : ℕ

inductive CommandAction where
  | send (source : ℕ) (command : Bytes)
  /-- Another statement of a thread of the central. -/
  | central (action : ReplyAction)
  /-- A new packet reaches the central, and its ACK the peripheral or not. -/
  | packet (packet : RxPacket) (heard : Option AckHeard)
  /-- The next step of the central's interrupt. -/
  | interrupt
  /-- A reply on the pipe of the wire peer reaches the peripheral. -/
  | other (payload : EsbPayload)
  | received
  | rxThread
  | commandWork

namespace CommandPath

variable (peer : CommandPeer reply hop) (txFifoSize size : ℕ)

def boot (reply : ReplyConfig) (peripheral : HopPeripheral hop) : CommandPath reply hop :=
  ⟨.boot reply, [], .boot peripheral, [], [], 0, 0⟩

def send (path : CommandPath reply hop) (source : ℕ) (command : Bytes) : CommandPath reply hop :=
  match centralSendCommand reply hop source command with
  | .ignored => path
  | .wire _ => path
  | .stage pipe command =>
      { path with radio := path.radio.step txFifoSize (.thread (.put pipe command)) }

/-- The reply that rides the ACK of a new packet of the peripheral reaches its FIFO. -/
def answer (path : CommandPath reply hop) (heard : Option AckHeard) : CommandPath reply hop :=
  match (path.radio.queues.replies peer.pipe).head? with
  | none => path
  | some data =>
      { path with
        passed := path.passed ++ [data]
        rxFifo := path.rxFifo ++
          heard.toList.map fun ack => ⟨peer.pipe, ack.noack, ack.rssi, data⟩
        unheard := path.unheard + if heard.isNone && peer.carries data then 1 else 0 }

def packet (path : CommandPath reply hop) (packet : RxPacket) (heard : Option AckHeard) :
    CommandPath reply hop :=
  let path := { path with radio := path.radio.arrive packet }
  if packet.noack = false ∧ packet.pipe = peer.pipe then path.answer peer heard else path

/-- The payloads of the FIFO that are left to the role layer and find the ring full. -/
def overflow (path : CommandPath reply hop) : List EsbLinkPacket :=
  (RxPath.forRole (HopPeripheral.consumeRx peer.role.selfPipe peer.role.wireRelayOwnsPipe)
    path.down.rx.hop path.rxFifo).drop (size - (path.down.rx.produced - path.down.rx.released))

def received (path : CommandPath reply hop) : CommandPath reply hop :=
  { path with
    rxFifo := []
    down := path.down.step peer.role size (.received path.rxFifo)
    drained := path.drained ++ path.rxFifo
    overflowed := path.overflowed +
      (Downlink.routed peer.role .command (path.overflow peer size)).length }

def step (path : CommandPath reply hop) : CommandAction → CommandPath reply hop
  | .send source command => path.send txFifoSize source command
  | .central action => { path with radio := path.radio.step txFifoSize (.thread action) }
  | .packet packet heard => path.packet peer packet heard
  | .interrupt => { path with radio := path.radio.interrupt txFifoSize }
  | .other payload => { path with rxFifo := path.rxFifo ++ [payload] }
  | .received => path.received peer size
  | .rxThread => { path with down := path.down.step peer.role size .rxThread }
  | .commandWork => { path with down := path.down.step peer.role size .commandWork }

/-- What the rest of the firmware keeps to: ZMK's commands are whole structs that begin
with no tag of the hop engine, which alone latches for the pipe. -/
def Permits : CommandAction → Prop
  | .send _ command => command.length = reply.commandLength ∧
      esbHasTag esbBeaconTag command = false ∧ esbHasTag esbMaskUpdateTag command = false
  | .central (.put pipe _) => pipe ≠ peer.pipe
  | .central (.latchControl pipe _ data) => pipe = peer.pipe → esbHasTag esbBeaconTag data = true ∨
      1 < hop.hopCount ∧ esbHasTag esbMaskUpdateTag data = true
  | .central (.latchIdle pipe _) => reply.relayPipe pipe = true
  | .other payload => peer.role.wireRelayOwnsPipe payload.pipe = true
  | _ => True

/-! ## Where the commands are -/

variable (path : CommandPath reply hop)

/-- The replies parked in the central's radio that did not ride an ACK yet. -/
def parked : List Bytes :=
  (path.radio.queues.replies peer.pipe).drop (path.radio.queues.offered peer.pipe).toNat

/-- The commands in the ring. -/
def ringed : List Bytes :=
  Downlink.routed peer.role .command (path.down.rx.accepted.drop path.down.dispatched.length)

/-- The commands on their way to the handler, the one closest to it first. -/
def onTheWay : List Bytes :=
  path.down.commands.waiting ++ path.ringed peer ++ peer.commandsOf path.rxFifo ++
    (path.parked peer).filter peer.carries ++ path.radio.link.queue peer.pipe

/-- The commands that were lost, each counted where it was. -/
def lost : ℕ := path.unheard + path.overflowed + path.down.dropped

/-! ## Invariant -/

/-- Each leg hands on what it got in order, less what was counted lost on it. -/
structure Flows : Prop where
  radio : path.radio.Holds 2 txFifoSize
  serves : path.radio.link.ServesCommands peer.carries peer.pipe
  offered : path.radio.queues.offered peer.pipe = true → path.radio.queues.replies peer.pipe ≠ []
  passed : path.radio.link.handedOver peer.pipe = path.passed ++ path.parked peer
  heard : Thins (path.passed.filter peer.carries)
    (peer.commandsOf path.drained ++ peer.commandsOf path.rxFifo) path.unheard
  ring : Thins (peer.commandsOf path.drained)
    (Downlink.routed peer.role .command path.down.rx.accepted) path.overflowed
  down : path.down.Holds peer.role size

variable {peer txFifoSize size path}

theorem Flows.boot (peer : CommandPeer reply hop) (txFifoSize size : ℕ)
    (peripheral : HopPeripheral hop) : Flows peer txFifoSize size (boot reply peripheral) where
  radio := .boot 2 txFifoSize reply
  serves := .boot reply peer.carries peer.pipe
  offered h := by cases h
  passed := rfl
  heard := .refl _
  ring := .refl _
  down := .boot peripheral

/-- A thread of the central writes nothing. -/
theorem Flows.thread (h : Flows peer txFifoSize size path) {action : ReplyAction}
    (haction : ReplyLink.CommandsOnly peer.carries peer.pipe action) :
    Flows peer txFifoSize size
      { path with radio := path.radio.step txFifoSize (.thread action) } := by
  rcases ReplyLink.writes_thread path.radio.link action with ⟨pipesAcked, fifo, rfl⟩ | ⟨hthread, -⟩
  · exact h
  · have hradio := h.radio.thread action
    rcases path.radio.step_thread action with hsame | ⟨hstep, hwrites⟩
    · rw [hsame]
      exact h
    · have hhanded : (path.radio.link.step action).handedOver peer.pipe =
          path.radio.link.handedOver peer.pipe := by
        rw [ReplyLink.handedOver, ReplyLink.writesOf, hwrites]
        rfl
      rw [hstep] at hradio ⊢
      exact ⟨hradio, h.serves.step haction hthread, h.offered, hhanded.trans h.passed, h.heard,
        h.ring, h.down⟩

theorem Flows.send (h : Flows peer txFifoSize size path) (source : ℕ) {command : Bytes}
    (hcommand : peer.carries command = true) :
    Flows peer txFifoSize size (path.send txFifoSize source command) := by
  rw [CommandPath.send, centralSendCommand]
  split_ifs
  · exact h
  · exact h
  · exact h.thread fun _ => hcommand

/-- A reply that rides an ACK is heard, or counted if it is a command. -/
theorem thins_answer {passed commands : List Bytes} {unheard : ℕ}
    (h : Thins (passed.filter peer.carries) commands unheard) (data : Bytes)
    (heard : Option AckHeard) :
    Thins ((passed ++ [data]).filter peer.carries)
      (commands ++ peer.commandsOf (heard.toList.map fun ack =>
        ⟨peer.pipe, ack.noack, ack.rssi, data⟩))
      (unheard + if heard.isNone && peer.carries data then 1 else 0) := by
  rw [List.filter_append]
  cases hcarries : peer.carries data with
  | false =>
      have hnone : peer.commandsOf (heard.toList.map fun ack =>
          (⟨peer.pipe, ack.noack, ack.rssi, data⟩ : EsbPayload)) = [] := by
        cases heard with
        | none => rfl
        | some ack =>
            have hdrop : peer.isCommand ⟨peer.pipe, ack.noack, ack.rssi, data⟩ = false := hcarries
            simp [CommandPeer.commandsOf, hdrop]
      rw [hnone]
      simpa [hcarries] using h
  | true =>
      cases heard with
      | none => simpa [hcarries, CommandPeer.commandsOf] using h.without [data]
      | some ack =>
          have hkeep : peer.isCommand ⟨peer.pipe, ack.noack, ack.rssi, data⟩ = true := hcarries
          simpa [hcarries, CommandPeer.commandsOf, hkeep] using h.through [data]

theorem replies_arrive (path : CommandPath reply hop) (peer : CommandPeer reply hop) :
    (path.radio.arrive ⟨peer.pipe, false⟩).queues.replies peer.pipe = path.parked peer := by
  rw [parked, AckRadio.arrive]
  simp only [AckQueues.answer, Bool.false_eq_true, if_false, Function.update_self]
  cases path.radio.queues.offered peer.pipe <;> rfl

theorem offered_arrive (path : CommandPath reply hop) (peer : CommandPeer reply hop) :
    (path.radio.arrive ⟨peer.pipe, false⟩).queues.offered peer.pipe =
      !(path.parked peer).isEmpty := by
  rw [← path.replies_arrive, AckRadio.arrive]
  simp only [AckQueues.answer, Bool.false_eq_true, if_false, Function.update_self]

/-- The reply that rides the ACK of the peripheral's packet passes the central's radio. -/
theorem Flows.ownPacket (h : Flows peer txFifoSize size path) (heard : Option AckHeard) :
    Flows peer txFifoSize size (path.packet peer ⟨peer.pipe, false⟩ heard) := by
  have hradio := h.radio.step (.arrive ⟨peer.pipe, false⟩)
  have hreplies := path.replies_arrive peer
  have hoffered := path.offered_arrive peer
  rw [CommandPath.packet, if_pos ⟨rfl, rfl⟩, answer]
  dsimp only
  rw [hreplies]
  cases hparked : path.parked peer with
  | nil =>
      dsimp only [List.head?_nil]
      refine ⟨hradio, h.serves, fun hrides => ?_, h.passed.trans ?_, h.heard, h.ring, h.down⟩
      · rw [hoffered, hparked] at hrides
        cases hrides
      · rw [hparked, parked]
        dsimp only
        rw [hreplies, hparked, List.drop_nil]
  | cons data rest =>
      dsimp only [List.head?_cons]
      refine ⟨hradio, h.serves, fun _ => ?_, h.passed.trans ?_, ?_, h.ring, h.down⟩
      · rw [hreplies, hparked]
        exact List.cons_ne_nil _ _
      · rw [hparked, parked]
        dsimp only
        rw [hreplies, hoffered, hparked, List.append_assoc]
        rfl
      · dsimp only
        rw [peer.commandsOf_append, ← List.append_assoc]
        exact thins_answer h.heard data heard

/-- Another pipe's packet, or one that wants no ACK, leaves the replies alone. -/
theorem Flows.otherPacket (h : Flows peer txFifoSize size path) {packet : RxPacket}
    (hother : ¬(packet.noack = false ∧ packet.pipe = peer.pipe)) (heard : Option AckHeard) :
    Flows peer txFifoSize size (path.packet peer packet heard) := by
  have hkept : (path.radio.arrive packet).queues.replies peer.pipe =
        path.radio.queues.replies peer.pipe ∧
      (path.radio.arrive packet).queues.offered peer.pipe =
        path.radio.queues.offered peer.pipe := by
    cases hnoack : packet.noack with
    | true => simp [AckRadio.arrive, hnoack]
    | false =>
        have hne : peer.pipe ≠ packet.pipe := fun hsame => hother ⟨hnoack, hsame.symm⟩
        have hqueues : (path.radio.arrive packet).queues = path.radio.queues.answer packet.pipe := by
          simp [AckRadio.arrive, hnoack]
        rw [hqueues]
        exact path.radio.queues.answer_of_ne hne
  rw [CommandPath.packet, if_neg hother]
  refine ⟨h.radio.step (.arrive packet), h.serves, fun hrides => ?_, h.passed.trans ?_, h.heard, h.ring,
    h.down⟩
  · dsimp only at hrides ⊢
    rw [hkept.1]
    exact h.offered (hkept.2 ▸ hrides)
  · rw [parked, parked]
    dsimp only
    rw [hkept.1, hkept.2]

/-- A turn of any pipe parks what it hands over. -/
theorem Flows.serve (h : Flows peer txFifoSize size path) (turn : ℕ) (pipes : List ℕ)
    (hradio : (path.radio.serve txFifoSize turn pipes).Holds 2 txFifoSize) :
    Flows peer txFifoSize size { path with radio := path.radio.serve txFifoSize turn pipes } := by
  obtain ⟨hoffered, made, hhanded, hreplies⟩ :=
    @AckRadio.parks_serve _ _ _ peer.pipe h.radio.sound _ (h.radio.queue turn) pipes
  have hserves := @AckRadio.servesCommands_serve _ _ txFifoSize _ _ h.radio.sound
    (h.radio.queue peer.pipe) peer.plain h.serves turn pipes
  refine ⟨hradio, hserves, fun hrides => ?_, ?_, h.heard, h.ring, h.down⟩
  · dsimp only at hrides ⊢
    rw [hoffered] at hrides
    rw [hreplies]
    exact List.append_ne_nil_of_left_ne_nil (h.offered hrides) made
  · dsimp only
    rw [hhanded, h.passed, List.append_assoc, parked, parked]
    dsimp only
    rw [hoffered, hreplies]
    cases hrides : path.radio.queues.offered peer.pipe with
    | false => rfl
    | true =>
        obtain ⟨first, rest, hcons⟩ := List.exists_cons_of_ne_nil (h.offered hrides)
        rw [hcons]
        rfl

theorem Flows.interrupt (h : Flows peer txFifoSize size path) :
    Flows peer txFifoSize size { path with radio := path.radio.interrupt txFifoSize } := by
  have hradio := h.radio.interrupt
  cases hserving : path.radio.serving with
  | cons turn pipes =>
      rw [AckRadio.interrupt_serve hserving] at hradio ⊢
      exact h.serve turn pipes hradio
  | nil =>
      cases hreceived : path.radio.received with
      | cons packet received =>
          rw [AckRadio.interrupt_read hserving hreceived] at hradio ⊢
          exact ⟨hradio, h.serves, h.offered, h.passed, h.heard, h.ring, h.down⟩
      | nil =>
          rw [AckRadio.interrupt_drained hserving hreceived] at hradio ⊢
          exact ⟨hradio, h.serves, h.offered, h.passed, h.heard, h.ring, h.down⟩

theorem routed_append (role : PeripheralRole) (route : RxRoute) (front back : List EsbLinkPacket) :
    Downlink.routed role route (front ++ back) =
      Downlink.routed role route front ++ Downlink.routed role route back := by
  rw [Downlink.routed, List.filter_append, List.map_append]
  rfl

/-- The interrupt of the peripheral: what finds no room in the ring is lost. -/
theorem Flows.received (h : Flows peer txFifoSize size path) :
    Flows peer txFifoSize size (path.received peer size) := by
  have haccepted := RxPath.accepted_onRxReceived
    (HopPeripheral.consumeRx peer.role.selfPipe peer.role.wireRelayOwnsPipe) h.down.rx.sound
    path.rxFifo
  have hleft := peer.routed_forRole path.down.rx.hop path.rxFifo
  rw [← List.take_append_drop (size - (path.down.rx.produced - path.down.rx.released))
    (RxPath.forRole _ path.down.rx.hop path.rxFifo), routed_append] at hleft
  refine ⟨h.radio, h.serves, h.offered, h.passed, ?_, ?_, h.down.step (.received path.rxFifo)⟩
  · rw [CommandPath.received]
    dsimp only
    rw [peer.commandsOf_append]
    exact (List.append_nil _).symm ▸ h.heard
  · rw [CommandPath.received]
    dsimp only [Downlink.step]
    rw [haccepted, peer.commandsOf_append, routed_append, ← hleft, ← List.append_assoc]
    exact (h.ring.through _).without _

theorem Flows.downlink (h : Flows peer txFifoSize size path) {action : DownlinkAction}
    (haccepted : (path.down.step peer.role size action).rx.accepted = path.down.rx.accepted) :
    Flows peer txFifoSize size { path with down := path.down.step peer.role size action } :=
  ⟨h.radio, h.serves, h.offered, h.passed, h.heard, haccepted ▸ h.ring, h.down.step action⟩

theorem Flows.step (h : Flows peer txFifoSize size path) {action : CommandAction}
    (haction : Permits peer action) :
    Flows peer txFifoSize size (CommandPath.step peer txFifoSize size path action) := by
  cases action with
  | send source command =>
      refine h.send source ?_
      rw [peer.carries_eq, haction.2.1, haction.2.2, decide_eq_true haction.1, Bool.and_false]
      rfl
  | central action =>
      refine h.thread ?_
      cases action with
      | put pipe data => exact fun hsame => absurd hsame haction
      | latchControl pipe kind data =>
          intro hsame
          rw [peer.carries_eq]
          rcases haction hsame with htag | ⟨hcount, htag⟩
          · rw [htag]
            rfl
          · rw [htag, decide_eq_true hcount]
            simp
      | latchIdle pipe data =>
          rintro rfl
          cases peer.plain.symm.trans haction
      | _ => trivial
  | packet packet heard =>
      by_cases hown : packet.noack = false ∧ packet.pipe = peer.pipe
      · obtain ⟨pipe, noack⟩ := packet
        obtain ⟨rfl, rfl⟩ := hown
        exact h.ownPacket heard
      · exact h.otherPacket hown heard
  | interrupt => exact h.interrupt
  | other payload =>
      have hnone : peer.commandsOf [payload] = [] := by
        have howned : peer.role.wireRelayOwnsPipe payload.pipe = true := haction
        simp [CommandPeer.commandsOf, CommandPeer.isCommand, PeripheralRole.esbPeripheralOnRx,
          EsbPayload.packet, howned]
      refine ⟨h.radio, h.serves, h.offered, h.passed, ?_, h.ring, h.down⟩
      rw [CommandPath.step]
      dsimp only
      rw [peer.commandsOf_append, hnone, List.append_nil]
      exact h.heard
  | received => exact h.received
  | rxThread => exact h.downlink (Downlink.accepted_rxThread peer.role size path.down)
  | commandWork => exact h.downlink rfl

/-! ## The whole path -/

/-- The packets dealt with, and those the ring holds. -/
theorem dispatched_prefix {down : Downlink hop} {role : PeripheralRole}
    (h : down.Holds role size) : down.dispatched <+: down.rx.accepted := by
  have hsound := h.rx.sound
  have hreturned := hsound.map_fst_handled
  rw [Downlink.dispatched, Downlink.putting, hreturned]
  split
  next packet hthread =>
    split_ifs
    · have hholding : down.rx.released < down.rx.produced :=
        hsound.holding (by rw [hthread]; exact fun hw => by cases hw)
          (by rw [hthread]; exact fun hd => by cases hd)
      have hnext := hsound.getElem?_released hholding
      rw [← hsound.begun packet hthread] at hnext
      have hcount : down.rx.returned = down.rx.released := by
        rw [RxPath.returned, hthread, if_neg (by exact fun hh => by cases hh)]
      rw [hcount, ← Option.toList_some packet, ← hnext, ← List.take_add_one]
      exact List.take_prefix _ _
    · rw [List.append_nil]
      exact List.take_prefix _ _
  next =>
    rw [List.append_nil]
    exact List.take_prefix _ _

/-- The commands that were staged are the ones delivered and the ones on their way, in this
order, less those counted lost. -/
theorem Flows.thins (h : Flows peer txFifoSize size path) :
    Thins (path.radio.link.staged peer.pipe) (path.down.commands.taken ++ path.onTheWay peer)
      path.lost := by
  have hring : Downlink.routed peer.role .command path.down.rx.accepted =
      Downlink.routed peer.role .command path.down.dispatched ++ path.ringed peer := by
    obtain ⟨rest, hrest⟩ := dispatched_prefix h.down
    rw [ringed, ← hrest, routed_append, List.drop_left]
  have hqueued : Thins (Downlink.routed peer.role .command path.down.dispatched)
      (path.down.commands.taken ++ path.down.commands.waiting) path.down.dropped := by
    rw [← h.down.queue.kept]
    exact ⟨h.down.routes.commands, h.down.routes.dropped⟩
  have hdown := h.ring.trans (hring ▸ hqueued.through (path.ringed peer))
  have hair := h.heard.trans (hdown.through (peer.commandsOf path.rxFifo))
  have hall := (hair.through ((path.parked peer).filter peer.carries)).through
    (path.radio.link.queue peer.pipe)
  rw [← List.filter_append, ← h.passed, ← h.serves.staged] at hall
  simpa only [onTheWay, lost, List.append_assoc, Nat.add_assoc] using hall

/-! ## A packet that is heard -/

variable (peer) in
/-- A packet of the peripheral whose ACK is heard, and the interrupt that serves it. -/
def poll (heard : AckHeard) (reads : ℕ) : List CommandAction :=
  .packet ⟨peer.pipe, false⟩ (some heard) :: List.replicate reads .interrupt

variable (peer path) in
/-- What the central still has to hand over for the pipe. -/
def toServe : ℕ :=
  path.radio.link.pendingControls peer.pipe + (path.radio.link.queue peer.pipe).length

variable (peer path) in
/-- What the central still holds for the pipe. -/
def held : ℕ := path.toServe peer + (path.parked peer).length

variable (peer path) in
/-- The next packet of the pipe takes a reply along, unless none is left to hand over. -/
def Ready : Prop := path.parked peer ≠ [] ∨ path.toServe peer = 0

/-- Nothing was staged, every ACK was heard, and no more is left than before. -/
structure Waits (peer : CommandPeer reply hop) (before after : CommandPath reply hop) : Prop where
  staged : after.radio.link.staged peer.pipe = before.radio.link.staged peer.pipe
  unheard : after.unheard = before.unheard
  held : after.held peer ≤ before.held peer

theorem Waits.trans {before middle after : CommandPath reply hop} (hfirst : Waits peer before middle)
    (hsecond : Waits peer middle after) : Waits peer before after :=
  ⟨hsecond.staged.trans hfirst.staged, hsecond.unheard.trans hfirst.unheard,
    hsecond.held.trans hfirst.held⟩

/-- The turn of the pipe hands over what is next, or there is nothing. -/
theorem Flows.ownTurn (h : Flows peer txFifoSize size path)
    (hroom : 3 * reply.pipeCount ≤ txFifoSize) {pipes : List ℕ}
    (hserving : path.radio.serving = peer.pipe :: pipes) :
    let after := { path with radio := path.radio.serve txFifoSize peer.pipe pipes }
    after.held peer ≤ path.held peer ∧ after.Ready peer := by
  intro after
  have hafter : Flows peer txFifoSize size after := h.serve peer.pipe pipes (h.radio.serve hserving)
  have hturn : ReplyLink.CommandTurn peer.carries peer.pipe path.radio.link after.radio.link :=
    ReplyLink.commandTurn_replyTo peer.plain h.radio.sound (h.radio.queue peer.pipe)
      h.serves.control h.serves.idle _
  have haccepted : ∀ write, after.radio.link.writesOf peer.pipe =
      path.radio.link.writesOf peer.pipe ++ [write] → write.accepted = true := by
    intro write hwrites
    have hmem : write ∈ after.radio.link.writesOf peer.pipe :=
      hwrites ▸ List.mem_append_right _ List.mem_cons_self
    exact hafter.radio.accepted hroom write (ReplyLink.mem_writesOf.mp hmem).1
  have hpassed : path.passed ++ after.parked peer = after.radio.link.handedOver peer.pipe :=
    hafter.passed.symm
  have hmore : ∀ write, after.radio.link.writesOf peer.pipe =
      path.radio.link.writesOf peer.pipe ++ [write] →
        after.parked peer = path.parked peer ++ [write.data] := by
    intro write hwrites
    rw [ReplyLink.handedOver_attempt hwrites, if_pos (haccepted write hwrites), h.passed,
      List.append_assoc] at hpassed
    exact List.append_cancel_left hpassed
  rw [held, held, Ready, toServe, toServe]
  rcases hturn with ⟨write, hwrites, -, hqueue, hpending⟩ |
    ⟨write, commands, hwrites, hqueue, hrest, hpending⟩ | ⟨hwrites, hqueue, hrest, hpending⟩
  · have hless := hpending (haccepted write hwrites)
    rw [hmore write hwrites, hqueue, List.length_append, List.length_singleton]
    exact ⟨by omega, .inl (List.append_ne_nil_of_right_ne_nil _ (List.cons_ne_nil _ _))⟩
  · rw [hmore write hwrites, hpending, hrest, if_pos (haccepted write hwrites), hqueue,
      List.length_append, List.length_singleton, List.length_cons]
    exact ⟨by omega, .inl (List.append_ne_nil_of_right_ne_nil _ (List.cons_ne_nil _ _))⟩
  · rw [ReplyLink.handedOver, hwrites, ← ReplyLink.handedOver, h.passed] at hpassed
    rw [List.append_cancel_left hpassed, hpending, hrest, hqueue, List.length_nil]
    exact ⟨by omega, .inr rfl⟩

theorem Flows.otherTurn (h : Flows peer txFifoSize size path) {turn : ℕ} (hne : peer.pipe ≠ turn)
    {pipes : List ℕ} (hserving : path.radio.serving = turn :: pipes) :
    let after := { path with radio := path.radio.serve txFifoSize turn pipes }
    after.parked peer = path.parked peer ∧ after.toServe peer = path.toServe peer := by
  intro after
  have hafter : Flows peer txFifoSize size after := h.serve turn pipes (h.radio.serve hserving)
  have hsame : ReplyLink.Untouched peer.pipe path.radio.link after.radio.link := .replyTo _ hne
  have hpassed : path.passed ++ after.parked peer = after.radio.link.handedOver peer.pipe :=
    hafter.passed.symm
  rw [ReplyLink.handedOver, hsame.writesOf, ← ReplyLink.handedOver, h.passed] at hpassed
  refine ⟨List.append_cancel_left hpassed, ?_⟩
  rw [toServe, toServe, ReplyLink.pendingControls, hsame.control, hsame.queue]
  rfl

theorem Waits.of_same {after : CommandPath reply hop}
    (hstaged : after.radio.link.staged = path.radio.link.staged)
    (hunheard : after.unheard = path.unheard) (hparked : after.parked peer = path.parked peer)
    (hserve : after.toServe peer = path.toServe peer) :
    Waits peer path after ∧ (path.Ready peer → after.Ready peer) := by
  refine ⟨⟨by rw [hstaged], hunheard, ?_⟩, fun hready => ?_⟩
  · rw [CommandPath.held, CommandPath.held, hparked, hserve]
  · rwa [Ready, hparked, hserve]

/-- The interrupt leaves no more than before, and what is ready stays so. -/
theorem Flows.waits_interrupt (h : Flows peer txFifoSize size path)
    (hroom : 3 * reply.pipeCount ≤ txFifoSize) :
    let after := { path with radio := path.radio.interrupt txFifoSize }
    Waits peer path after ∧ (path.Ready peer → after.Ready peer) := by
  cases hserving : path.radio.serving with
  | nil =>
      cases hreceived : path.radio.received with
      | cons packet received =>
          rw [AckRadio.interrupt_read hserving hreceived]
          exact Waits.of_same rfl rfl rfl rfl
      | nil =>
          rw [AckRadio.interrupt_drained hserving hreceived]
          exact Waits.of_same rfl rfl rfl rfl
  | cons turn pipes =>
      have hstaged : (path.radio.serve txFifoSize turn pipes).link.staged = path.radio.link.staged :=
        ReplyLink.staged_replyTo path.radio.link _ turn
      rw [AckRadio.interrupt_serve hserving]
      rcases eq_or_ne peer.pipe turn with rfl | hne
      · obtain ⟨hheld, hready⟩ := h.ownTurn hroom hserving
        exact ⟨⟨by rw [hstaged], rfl, hheld⟩, fun _ => hready⟩
      · obtain ⟨hparked, hserve⟩ := h.otherTurn hne hserving
        exact Waits.of_same hstaged rfl hparked hserve

theorem Flows.waits_interrupts (h : Flows peer txFifoSize size path)
    (hroom : 3 * reply.pipeCount ≤ txFifoSize) (reads : ℕ) :
    let after := run (CommandPath.step peer txFifoSize size) path (List.replicate reads .interrupt)
    Flows peer txFifoSize size after ∧ Waits peer path after ∧
      (path.Ready peer → after.Ready peer) := by
  induction reads generalizing path with
  | zero => exact ⟨h, ⟨rfl, rfl, le_rfl⟩, id⟩
  | succ reads ih =>
      obtain ⟨hwaits, hready⟩ := h.waits_interrupt hroom
      obtain ⟨hflows, hmore, hstays⟩ := ih h.interrupt
      exact ⟨hflows, hwaits.trans hmore, hstays ∘ hready⟩

/-- A pipe that asked gets its turn, and is ready from then on. -/
theorem Flows.ready_interrupts (h : Flows peer txFifoSize size path)
    (hroom : 3 * reply.pipeCount ≤ txFifoSize) {reads : ℕ}
    (hdue : (peer.pipe ∈ path.radio.serving ∧ path.radio.serving.length ≤ reads) ∨
      (path.radio.asked peer.pipe = true ∧
        path.radio.serving.length + path.radio.received.length + reply.pipeCount + 1 ≤ reads)) :
    (run (CommandPath.step peer txFifoSize size) path
      (List.replicate reads .interrupt)).Ready peer := by
  have hpipe : peer.pipe < 8 := peer.selfPipe_lt.trans_le reply.pipeCount_le
  induction reads generalizing path with
  | zero =>
      rcases hdue with ⟨hmem, hle⟩ | ⟨-, hle⟩
      · have := List.length_pos_of_mem hmem
        omega
      · omega
  | succ reads ih =>
      rw [List.replicate_succ, run_cons]
      have hnext := h.interrupt
      change Ready peer (run _ { path with radio := path.radio.interrupt txFifoSize } _)
      cases hserving : path.radio.serving with
      | cons turn pipes =>
          rw [hserving, List.length_cons] at hdue
          rw [AckRadio.interrupt_serve hserving] at hnext ⊢
          rcases eq_or_ne peer.pipe turn with rfl | hne
          · exact (hnext.waits_interrupts hroom reads).2.2 (h.ownTurn hroom hserving).2
          · refine ih hnext ?_
            rcases hdue with ⟨hmem, hle⟩ | ⟨hasked, hle⟩
            · exact .inl ⟨(List.mem_cons.mp hmem).resolve_left hne, Nat.le_of_succ_le_succ hle⟩
            · refine .inr ⟨hasked, ?_⟩
              change pipes.length + path.radio.received.length + reply.pipeCount + 1 ≤ reads
              omega
      | nil =>
          rw [hserving] at hdue
          obtain ⟨hasked, hle⟩ := hdue.resolve_left fun hmem => List.not_mem_nil hmem.1
          cases hreceived : path.radio.received with
          | cons packet received =>
              rw [AckRadio.interrupt_read hserving hreceived] at hnext ⊢
              rw [hreceived, List.length_cons, List.length_nil] at hle
              refine ih hnext (.inr ⟨(AckRadio.asked_readRx hpipe hreceived).trans hasked, ?_⟩)
              change path.radio.serving.length + received.length + reply.pipeCount + 1 ≤ reads
              rw [hserving, List.length_nil]
              omega
          | nil =>
              rw [AckRadio.interrupt_drained hserving hreceived] at hnext ⊢
              rw [AckRadio.asked, hreceived, List.any_nil, Bool.or_false] at hasked
              have hlength := hnext.radio.serving.length_le
              rw [List.length_range] at hlength
              exact ih hnext (.inl ⟨ReplyLink.mem_servedPipes.mpr ⟨peer.selfPipe_lt, hasked⟩, by omega⟩)

/-- Enough steps leave nothing to be read. -/
theorem received_interrupts (path : CommandPath reply hop) {reads : ℕ}
    (hreads : path.radio.received ≠ [] →
      path.radio.serving.length + path.radio.received.length ≤ reads) :
    (run (step peer txFifoSize size) path (List.replicate reads .interrupt)).radio.received = [] := by
  induction reads generalizing path with
  | zero =>
      by_contra hsome
      have hlength := List.length_pos_of_ne_nil hsome
      have := hreads hsome
      change 0 < path.radio.received.length at hlength
      omega
  | succ reads ih =>
      rw [List.replicate_succ, run_cons]
      change (run _ { path with radio := path.radio.interrupt txFifoSize } _).radio.received = []
      refine ih _ ?_
      dsimp only
      cases hserving : path.radio.serving with
      | cons turn pipes =>
          rw [AckRadio.interrupt_serve hserving]
          intro hsome
          have hle := hreads hsome
          rw [hserving, List.length_cons] at hle
          change pipes.length + path.radio.received.length ≤ reads
          omega
      | nil =>
          cases hreceived : path.radio.received with
          | cons packet received =>
              rw [AckRadio.interrupt_read hserving hreceived]
              have hle := hreads (by simp [hreceived])
              rw [hserving, hreceived, List.length_cons, List.length_nil] at hle
              change received ≠ [] → path.radio.serving.length + received.length ≤ reads
              rw [hserving, List.length_nil]
              omega
          | nil =>
              rw [AckRadio.interrupt_drained hserving hreceived]
              exact fun hsome => absurd hreceived hsome

/-! ### One packet after the other -/

theorem packet_radio (path : CommandPath reply hop) (peer : CommandPeer reply hop)
    (heard : Option AckHeard) :
    (path.packet peer ⟨peer.pipe, false⟩ heard).radio =
      path.radio.arrive ⟨peer.pipe, false⟩ := by
  rw [CommandPath.packet, if_pos ⟨rfl, rfl⟩, answer]
  split <;> rfl

/-- A packet whose ACK is heard loses nothing. -/
theorem packet_unheard (path : CommandPath reply hop) (peer : CommandPeer reply hop)
    (heard : AckHeard) :
    (path.packet peer ⟨peer.pipe, false⟩ (some heard)).unheard = path.unheard := by
  rw [CommandPath.packet, if_pos ⟨rfl, rfl⟩, answer]
  split <;> rfl

/-- The packet takes a parked reply along. -/
theorem parked_packet (path : CommandPath reply hop) (peer : CommandPeer reply hop)
    (heard : Option AckHeard) :
    (path.packet peer ⟨peer.pipe, false⟩ heard).parked peer = (path.parked peer).drop 1 := by
  have hreplies := path.replies_arrive peer
  have hoffered := path.offered_arrive peer
  rw [parked, path.packet_radio, hreplies, hoffered]
  cases path.parked peer <;> rfl

/-- After its packet at most one reply of the pipe waits for another. -/
theorem Flows.parked_packet_le (h : Flows peer txFifoSize size path) (heard : Option AckHeard) :
    ((path.packet peer ⟨peer.pipe, false⟩ heard).parked peer).length ≤ 1 := by
  have hroom := (h.radio.step (.arrive ⟨peer.pipe, false⟩)).room peer.pipe peer.selfPipe_lt
  have hasked : (path.radio.arrive ⟨peer.pipe, false⟩).asked peer.pipe = true := by
    simp [AckRadio.asked_arrive]
  rw [AckRadio.step, AckQueues.Room, AckRadio.owed, hasked, Bool.toNat_true] at hroom
  rw [parked, path.packet_radio, List.length_drop]
  omega

/-- A packet that is heard takes a reply along, and leaves the pipe ready for the next. -/
theorem Flows.poll (h : Flows peer txFifoSize size path)
    (hroom : 3 * reply.pipeCount ≤ txFifoSize) (heard : AckHeard) {reads : ℕ}
    (hreads : path.radio.received.length + 2 * reply.pipeCount + 2 ≤ reads) :
    let after := run (CommandPath.step peer txFifoSize size) path (CommandPath.poll peer heard reads)
    Flows peer txFifoSize size after ∧ after.radio.received = [] ∧ after.Ready peer ∧
      after.radio.link.staged peer.pipe = path.radio.link.staged peer.pipe ∧
      after.unheard = path.unheard ∧
      after.held peer ≤ path.toServe peer + min 1 ((path.parked peer).length - 1) := by
  have hsent : Flows peer txFifoSize size (path.packet peer ⟨peer.pipe, false⟩ (some heard)) :=
    h.ownPacket (some heard)
  have hradio := path.packet_radio peer (some heard)
  have hunheard := path.packet_unheard peer heard
  have hparked := path.parked_packet peer (some heard)
  have hone := h.parked_packet_le (some heard)
  have hrun : run (CommandPath.step peer txFifoSize size) path (CommandPath.poll peer heard reads) =
      run (CommandPath.step peer txFifoSize size)
        (path.packet peer ⟨peer.pipe, false⟩ (some heard)) (List.replicate reads .interrupt) := rfl
  rw [hrun]
  generalize path.packet peer ⟨peer.pipe, false⟩ (some heard) = sent at *
  have hserving := hsent.radio.serving.length_le
  rw [List.length_range] at hserving
  have hreceived : sent.radio.received.length = path.radio.received.length + 1 := by
    rw [hradio]
    exact List.length_append
  have hasked : sent.radio.asked peer.pipe = true := by
    rw [hradio]
    simp [AckRadio.asked_arrive]
  obtain ⟨hflows, hwaits, -⟩ := hsent.waits_interrupts hroom reads
  refine ⟨hflows, sent.received_interrupts fun _ => by omega,
    hsent.ready_interrupts hroom (.inr ⟨hasked, by omega⟩), ?_, hwaits.unheard.trans hunheard, ?_⟩
  · rw [hwaits.staged, hradio]
    rfl
  · have hserve : sent.toServe peer = path.toServe peer := by
      rw [toServe, toServe, hradio]
      rfl
    have hlength := congrArg List.length hparked
    rw [List.length_drop] at hlength
    have hheld := hwaits.held
    rw [CommandPath.held, CommandPath.held] at hheld
    rw [CommandPath.held]
    omega

/-- From a ready pipe on each packet that is heard makes what is held less by one. -/
theorem Flows.polls (h : Flows peer txFifoSize size path)
    (hroom : 3 * reply.pipeCount ≤ txFifoSize) (heard : AckHeard) {reads count : ℕ}
    (hreads : path.radio.received.length + 2 * reply.pipeCount + 2 ≤ reads)
    (hready : path.Ready peer) (hcount : path.held peer ≤ count) :
    let after := run (CommandPath.step peer txFifoSize size) path
      (List.replicate count (CommandPath.poll peer heard reads)).flatten
    Flows peer txFifoSize size after ∧
      after.radio.link.staged peer.pipe = path.radio.link.staged peer.pipe ∧
      after.unheard = path.unheard ∧ after.held peer = 0 := by
  induction count generalizing path with
  | zero => exact ⟨h, rfl, rfl, Nat.le_zero.mp hcount⟩
  | succ count ih =>
      obtain ⟨hflows, hreceived, hstays, hstaged, hunheard, hheld⟩ := h.poll hroom heard hreads
      rw [List.replicate_succ, List.flatten_cons, run_append]
      dsimp only
      generalize run (CommandPath.step peer txFifoSize size) path
        (CommandPath.poll peer heard reads) = polled at *
      have hless : polled.held peer ≤ count := by
        rw [held] at hcount
        rcases hready with hsome | hnone
        · have := List.length_pos_of_ne_nil hsome
          omega
        · omega
      have hnext : polled.radio.received.length + 2 * reply.pipeCount + 2 ≤ reads := by
        rw [hreceived, List.length_nil]
        omega
      obtain ⟨hlast, hmore, hheard, hdone⟩ := ih hflows hnext hstays hless
      exact ⟨hlast, hmore.trans hstaged, hheard.trans hunheard, hdone⟩

theorem toServe_le (path : CommandPath reply hop) (peer : CommandPeer reply hop) :
    path.toServe peer ≤ (path.radio.link.queue peer.pipe).length + 2 := by
  have hkinds : path.radio.link.pendingControls peer.pipe ≤ 2 :=
    List.countP_le_length
  rw [toServe]
  omega

/-- The first packet leaves one reply parked at most, and each after it takes one along. -/
theorem Flows.settles (h : Flows peer txFifoSize size path)
    (hroom : 3 * reply.pipeCount ≤ txFifoSize) (heard : AckHeard) {reads polls : ℕ}
    (hreads : path.radio.received.length + 2 * reply.pipeCount + 2 ≤ reads)
    (hpolls : (path.radio.link.queue peer.pipe).length + 4 ≤ polls) :
    let after := run (CommandPath.step peer txFifoSize size) path
      (List.replicate polls (CommandPath.poll peer heard reads)).flatten
    Flows peer txFifoSize size after ∧
      after.radio.link.staged peer.pipe = path.radio.link.staged peer.pipe ∧
      after.unheard = path.unheard ∧ after.held peer = 0 := by
  obtain ⟨more, rfl⟩ := Nat.exists_eq_succ_of_ne_zero (show polls ≠ 0 by omega)
  obtain ⟨hflows, hreceived, hready, hstaged, hunheard, hheld⟩ := h.poll hroom heard hreads
  have hserve := path.toServe_le peer
  rw [List.replicate_succ, List.flatten_cons, run_append]
  dsimp only
  generalize run (CommandPath.step peer txFifoSize size) path
    (CommandPath.poll peer heard reads) = polled at *
  have hnext : polled.radio.received.length + 2 * reply.pipeCount + 2 ≤ reads := by
    rw [hreceived, List.length_nil]
    omega
  have hmost : polled.held peer ≤ more := by omega
  obtain ⟨hlast, hmore, hheard, hempty⟩ := hflows.polls hroom heard hnext hready hmost
  exact ⟨hlast, hmore.trans hstaged, hheard.trans hunheard, hempty⟩

/-! ## From one end to the other -/

/-- The threads of the peripheral. -/
theorem run_downlink (path : CommandPath reply hop) (turns works : ℕ) :
    run (step peer txFifoSize size) path
        (List.replicate turns .rxThread ++ List.replicate works .commandWork) =
      { path with
        down := run (Downlink.step peer.role size) path.down
          (List.replicate turns .rxThread ++ List.replicate works .commandWork) } := by
  have hrun : ∀ (action : CommandAction) (work : DownlinkAction),
      (∀ path : CommandPath reply hop, path.step peer txFifoSize size action =
        { path with down := path.down.step peer.role size work }) →
      ∀ (count : ℕ) (path : CommandPath reply hop),
        run (step peer txFifoSize size) path (List.replicate count action) =
          { path with
            down := run (Downlink.step peer.role size) path.down (List.replicate count work) } := by
    intro action work hstep count
    induction count with
    | zero => exact fun _ => rfl
    | succ count ih =>
        intro path
        rw [List.replicate_succ, run_cons, hstep, ih]
        rfl
  rw [run_append, run_append, hrun .rxThread .rxThread fun _ => rfl,
    hrun .commandWork .commandWork fun _ => rfl]

variable (peer) in
/-- The interrupt of the peripheral and its threads. -/
def deliver (turns : ℕ) : List CommandAction :=
  .received :: (List.replicate turns .rxThread ++
    List.replicate (peer.role.commandQueueSize + 1) .commandWork)

/-- With nothing left on the central the peripheral alone empties the path. -/
theorem Flows.deliver (h : Flows peer txFifoSize size path) (hempty : path.toServe peer = 0)
    (hparked : path.parked peer = []) :
    ∃ turns ≤ 5 * size + 6,
      let settled := run (CommandPath.step peer txFifoSize size) path
        (CommandPath.deliver peer turns)
      Flows peer txFifoSize size settled ∧
        (settled.radio.link.staged peer.pipe = path.radio.link.staged peer.pipe ∧
          settled.unheard = path.unheard) ∧ settled.onTheWay peer = [] := by
  have hreceived := h.received
  obtain ⟨turns, hturns, haccepted, hdispatched, -, htaken⟩ := hreceived.down.settles
  refine ⟨turns, hturns, ?_⟩
  have hrun : run (CommandPath.step peer txFifoSize size) path (CommandPath.deliver peer turns) =
      { path.received peer size with
        down := run (Downlink.step peer.role size) (path.received peer size).down
          (List.replicate turns .rxThread ++
            List.replicate (peer.role.commandQueueSize + 1) .commandWork) } :=
    run_downlink _ _ _
  intro settled
  have hflows : Flows peer txFifoSize size settled := by
    refine run_invariant_forall (fun _ _ hpath haction => hpath.step haction) h fun action hmem => ?_
    rcases List.mem_cons.mp hmem with rfl | hmem
    · trivial
    · rcases List.mem_append.mp hmem with hmem | hmem <;>
        rw [List.eq_of_mem_replicate hmem] <;> trivial
  have hsettled : settled = _ := hrun
  generalize run (Downlink.step peer.role size) (path.received peer size).down _ = down at *
  have hqueue : path.radio.link.queue peer.pipe = [] := by
    rw [toServe] at hempty
    exact List.length_eq_zero_iff.mp (by omega)
  have hwaiting : down.commands.waiting = [] := by
    have hkept : settled.down.commands.accepted =
        settled.down.commands.taken ++ settled.down.commands.waiting := hflows.down.queue.kept
    rw [hsettled] at hkept
    exact List.self_eq_append_right.mp (htaken.trans hkept)
  have hringed : down.rx.accepted.drop down.dispatched.length = [] := by
    rw [haccepted, hdispatched]
    exact List.drop_length
  refine ⟨hflows, ?_, ?_⟩
  · rw [hsettled]
    exact ⟨rfl, rfl⟩
  · rw [hsettled, onTheWay, ringed]
    dsimp only
    rw [hwaiting, hringed]
    change [] ++ [] ++ [] ++ (path.parked peer).filter peer.carries ++
      path.radio.link.queue peer.pipe = []
    rw [hparked, hqueue]
    rfl

/-- Commands reach the handler in the order in which ZMK sent them, and each that was
staged is delivered, on its way in one place, or counted lost at one: on an ACK that was
not heard, in a full ring or in a full queue. As many packets that are heard as commands
wait, and four more, bring the rest over. -/
theorem commands_cross_the_air (peer : CommandPeer reply hop) (txFifoSize size : ℕ)
    (peripheral : HopPeripheral hop) {actions : List CommandAction}
    (hpermits : ∀ action ∈ actions, Permits peer action) :
    let path := run (step peer txFifoSize size) (boot reply peripheral) actions
    Thins (path.radio.link.staged peer.pipe) (path.down.commands.taken ++ path.onTheWay peer)
        path.lost ∧
      (3 * reply.pipeCount ≤ txFifoSize → ∀ (heard : AckHeard) (polls reads : ℕ),
        (path.radio.link.queue peer.pipe).length + 4 ≤ polls →
        path.radio.received.length + 2 * reply.pipeCount + 2 ≤ reads →
          ∃ turns ≤ 5 * size + 6,
            let settled := run (step peer txFifoSize size) path
              ((List.replicate polls (poll peer heard reads)).flatten ++ deliver peer turns)
            Thins (path.radio.link.staged peer.pipe) settled.down.commands.taken settled.lost ∧
              settled.unheard = path.unheard) := by
  intro path
  have hflows : Flows peer txFifoSize size path :=
    run_invariant_forall (fun _ _ hpath haction => hpath.step haction)
      (Flows.boot peer txFifoSize size peripheral) hpermits
  refine ⟨hflows.thins, fun hroom heard polls reads hpolls hreads => ?_⟩
  obtain ⟨hlast, hstaged, hunheard, hempty⟩ := hflows.settles hroom heard hreads hpolls
  rw [held, Nat.add_eq_zero_iff, List.length_eq_zero_iff] at hempty
  obtain ⟨turns, hturns, hsettled, hdelivered, hdone⟩ := hlast.deliver hempty.1 hempty.2
  refine ⟨turns, hturns, ?_⟩
  rw [run_append]
  have hthins := hsettled.thins
  rw [hdone, List.append_nil, hdelivered.1, hstaged] at hthins
  exact ⟨hthins, hdelivered.2.trans hunheard⟩

/-- The second peripheral of the sample, which runs commands. -/
def samplePeer : CommandPeer sampleReplyConfig sampleHopConfig where
  role := ⟨1, fun _ => false, false, 40, 4⟩
  selfPipe_lt := by decide
  plain := by decide
  ownPipe := rfl
  notRelay := rfl
  commandSize_eq := rfl

/-- Two commands, the first on an ACK that is lost. -/
def sentTwice : List CommandAction :=
  [.send 1 (List.replicate 40 3), .central (.count 1), .send 1 (List.replicate 40 4),
    .central (.count 1), .packet ⟨1, false⟩ none, .interrupt, .interrupt, .interrupt,
    .packet ⟨1, false⟩ none, .interrupt, .interrupt, .interrupt]

theorem commands_cross_the_air_sample :
    let path := run (step samplePeer 6 8) (boot sampleReplyConfig
      (HopPeripheral.boot coldRetained)) sentTwice
    path.lost = 1 ∧
      Thins (path.radio.link.staged 1) (path.down.commands.taken ++ path.onTheWay samplePeer)
        path.lost ∧
      ∃ turns ≤ 46,
        let settled := run (step samplePeer 6 8) path
          ((List.replicate 5 (poll samplePeer ⟨false, -60⟩ 6)).flatten ++ deliver samplePeer turns)
        Thins (path.radio.link.staged 1) settled.down.commands.taken settled.lost ∧
          settled.unheard = path.unheard := by
  obtain ⟨hthins, hsettles⟩ := commands_cross_the_air samplePeer 6 8 (HopPeripheral.boot coldRetained)
    (show ∀ action ∈ sentTwice, Permits samplePeer action by simp [sentTwice, Permits]; decide)
  exact ⟨by decide +kernel, hthins,
    hsettles (by decide) ⟨false, -60⟩ 5 6 (by decide +kernel) (by decide +kernel)⟩

end CommandPath

end SplitEsb
