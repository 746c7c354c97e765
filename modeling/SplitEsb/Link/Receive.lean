import SplitEsb.Event.Codec
import SplitEsb.Hop.Control
import SplitEsb.Shared.BitTable
import SplitEsb.Shared.Transition
import SplitEsb.Shared.WokenQueue

/-! # Receive path of the radio
The radio interrupt empties the radio's FIFO into a ring of slots and gives a semaphore;
a thread waits on it, hands each slot to the role layer in place, and releases it. -/

namespace SplitEsb

open ByteString Transition WokenQueue

/-! ## The ring -/

/-- What the radio received. -/
structure EsbPayload where
  pipe : ℕ
  noack : Bool
  rssi : Int8
  data : Bytes

structure EsbLinkPacket where
  pipe : ℕ
  data : Bytes
  deriving DecidableEq

def EsbPayload.packet (payload : EsbPayload) : EsbLinkPacket := ⟨payload.pipe, payload.data⟩

/-- Where `rx_thread_fn` stands; in its callback with what the slot held when it began. -/
inductive RxThread where
  | waiting
  | draining
  | handling (begun : EsbLinkPacket)
  | handled
  deriving DecidableEq

def RxThread.awake (thread : RxThread) : Bool := thread ≠ .waiting

/-- The ring and its two ends, with the hop engine that sees every payload first.
`accepted` records the packets the interrupt put, `handled` each packet given to the
callback, as its slot held it when the callback began and when it returned. -/
structure RxPath (σ : Type) where
  hop : σ
  slots : ℕ → EsbLinkPacket
  produced : ℕ
  released : ℕ
  rxSem : Bool
  thread : RxThread
  accepted : List EsbLinkPacket
  handled : List (EsbLinkPacket × EsbLinkPacket)

/-- The locals of the receive interrupt, over the path they work on. -/
structure RxDrain (σ : Type) where
  path : RxPath σ
  received : Bool
  pipesAcked : UInt8
  drained : ℕ
  ringDropped : ℕ

inductive RxAction where
  /-- The interrupt finds these payloads in the radio's FIFO. -/
  | received (fifo : List EsbPayload)
  | thread

namespace RxPath

variable {σ : Type} (hopConsumeRx : σ → EsbPayload → Bool × σ) (size : ℕ)

def boot (hop : σ) : RxPath σ where
  hop := hop
  slots _ := ⟨0, []⟩
  produced := 0
  released := 0
  rxSem := false
  thread := .waiting
  accepted := []
  handled := []

/-- The free slot the producer fills next, when there is one. -/
def spscAcquire (path : RxPath σ) : Option ℕ :=
  if path.produced - path.released < size then some (path.produced % size) else none

def fillAndProduce (path : RxPath σ) (slot : ℕ) (packet : EsbLinkPacket) : RxPath σ :=
  { path with
    slots := Function.update path.slots slot packet
    produced := path.produced + 1
    accepted := path.accepted ++ [packet] }

/-- One turn of the loop over the radio's FIFO. -/
def drainPayload (drain : RxDrain σ) (payload : EsbPayload) : RxDrain σ :=
  let (consumed, hop) := hopConsumeRx drain.path.hop payload
  let drain := { drain with
    path := { drain.path with hop := hop }
    drained := drain.drained + 1
    pipesAcked :=
      if payload.noack then drain.pipesAcked
      else drain.pipesAcked ||| BitTable.bitMask payload.pipe }
  if consumed then drain
  else
    match drain.path.spscAcquire size with
    | none => { drain with ringDropped := drain.ringDropped + 1 }
    | some slot =>
        { drain with path := drain.path.fillAndProduce slot payload.packet, received := true }

def drainFifo (path : RxPath σ) (fifo : List EsbPayload) : RxDrain σ :=
  fifo.foldl (drainPayload hopConsumeRx size) ⟨path, false, 0, 0, 0⟩

/-- `ESB_EVENT_RX_RECEIVED` of `on_esb_event`. -/
def onRxReceived (path : RxPath σ) (fifo : List EsbPayload) : RxPath σ :=
  let drain := path.drainFifo hopConsumeRx size fifo
  if drain.received then { drain.path with rxSem := true } else drain.path

/-- One step of `rx_thread_fn`. -/
def rxThreadStep (path : RxPath σ) : RxPath σ :=
  match path.thread with
  | .waiting => if path.rxSem then { path with rxSem := false, thread := .draining } else path
  | .draining =>
      if path.released = path.produced then { path with thread := .waiting }
      else { path with thread := .handling (path.slots (path.released % size)) }
  | .handling begun =>
      { path with
        thread := .handled
        handled := path.handled ++ [(begun, path.slots (path.released % size))] }
  | .handled => { path with released := path.released + 1, thread := .draining }

def step (path : RxPath σ) : RxAction → RxPath σ
  | .received fifo => path.onRxReceived hopConsumeRx size fifo
  | .thread => path.rxThreadStep size

/-! ## The hop engine's part -/

/-- The packets of a FIFO that the hop engine leaves to the role layer. -/
def forRole : σ → List EsbPayload → List EsbLinkPacket
  | _, [] => []
  | hop, payload :: fifo =>
      let (consumed, hop) := hopConsumeRx hop payload
      if consumed then forRole hop fifo else payload.packet :: forRole hop fifo

def hopAfter (hop : σ) (fifo : List EsbPayload) : σ :=
  fifo.foldl (fun hop payload => (hopConsumeRx hop payload).2) hop

/-! ## Invariant -/

/-- What the slots between the two ends of the ring hold, oldest first. -/
def contents (path : RxPath σ) : List EsbLinkPacket :=
  (List.range (path.produced - path.released)).map fun index =>
    path.slots ((path.released + index) % size)

/-- The packets whose callback returned. -/
def returned (path : RxPath σ) : ℕ :=
  if path.thread = .handled then path.released + 1 else path.released

structure Sound (path : RxPath σ) : Prop where
  released_le : path.released ≤ path.produced
  room : path.produced - path.released ≤ size
  length : path.accepted.length = path.produced
  contents : path.contents size = path.accepted.drop path.released
  holding : path.thread ≠ .waiting → path.thread ≠ .draining → path.released < path.produced
  begun : ∀ begun, path.thread = .handling begun → begun = path.slots (path.released % size)
  handled : path.handled = (path.accepted.take path.returned).map fun packet => (packet, packet)

variable {hopConsumeRx size} {path : RxPath σ}

theorem Sound.boot (hop : σ) : (boot hop).Sound size where
  released_le := Nat.le_refl 0
  room := Nat.zero_le size
  length := rfl
  contents := rfl
  holding h := absurd rfl h
  begun _ h := by cases h
  handled := rfl

/-- Two places less than a whole turn of the ring apart are different slots. -/
theorem slot_ne {first second : ℕ} (hlt : first < second) (hturn : second < first + size) :
    first % size ≠ second % size := by
  intro hsame
  have hdvd : size ∣ second - first := (Nat.modEq_iff_dvd' (Nat.le_of_lt hlt)).mp hsame
  have hle := Nat.le_of_dvd (by omega) hdvd
  omega

/-- The slot the producer fills is none of those the consumer still has to release. -/
theorem contents_fillAndProduce (h : path.released ≤ path.produced)
    (hspace : path.produced - path.released < size) (packet : EsbLinkPacket) :
    (path.fillAndProduce (path.produced % size) packet).contents size =
      path.contents size ++ [packet] := by
  have hcount : path.produced + 1 - path.released = path.produced - path.released + 1 := by omega
  rw [contents, contents]
  simp only [fillAndProduce]
  rw [hcount, List.range_succ, List.map_append, List.map_singleton]
  congr 1
  · refine List.map_congr_left fun index hindex => ?_
    have hindex := List.mem_range.mp hindex
    exact Function.update_of_ne (slot_ne (by omega) (by omega)) _ _
  · rw [Nat.add_sub_cancel' h, Function.update_self]

theorem Sound.fillAndProduce (h : path.Sound size) (hspace : path.produced - path.released < size)
    (packet : EsbLinkPacket) :
    (path.fillAndProduce (path.produced % size) packet).Sound size where
  released_le := Nat.le_succ_of_le h.released_le
  room := by
    have hroom : path.produced + 1 - path.released ≤ size := by omega
    exact hroom
  length := by
    change (path.accepted ++ [packet]).length = path.produced + 1
    rw [List.length_append, h.length, List.length_singleton]
  contents := by
    have hle : path.released ≤ path.accepted.length := h.length ▸ h.released_le
    change _ = (path.accepted ++ [packet]).drop path.released
    rw [contents_fillAndProduce h.released_le hspace, h.contents, List.drop_append_of_le_length hle]
  holding hwaiting hdraining := Nat.lt_succ_of_lt (h.holding hwaiting hdraining)
  begun begun hthread := by
    have hholding : path.released < path.produced :=
      h.holding (by intro hw; cases hw.symm.trans hthread) (by intro hd; cases hd.symm.trans hthread)
    change begun = Function.update path.slots (path.produced % size) packet (path.released % size)
    rw [Function.update_of_ne (slot_ne hholding (by omega))]
    exact h.begun begun hthread
  handled := by
    have hle : path.returned ≤ path.accepted.length := by
      rw [h.length, returned]
      split_ifs with hthread
      · exact h.holding (by rw [hthread]; decide) (by rw [hthread]; decide)
      · exact h.released_le
    change path.handled = ((path.accepted ++ [packet]).take path.returned).map _
    rw [List.take_append_of_le_length hle]
    exact h.handled

theorem Sound.hop (h : path.Sound size) (hop : σ) : ({ path with hop := hop } : RxPath σ).Sound size :=
  ⟨h.released_le, h.room, h.length, h.contents, h.holding, h.begun, h.handled⟩

theorem Sound.rxSem (h : path.Sound size) (rxSem : Bool) :
    ({ path with rxSem := rxSem } : RxPath σ).Sound size :=
  ⟨h.released_le, h.room, h.length, h.contents, h.holding, h.begun, h.handled⟩

/-! ## The ring as a queue -/

/-- The ring as a queue of packets: a packet leaves when its slot is released. -/
def toWoken (size : ℕ) (path : RxPath σ) (owed : Bool) : Woken EsbLinkPacket where
  waiting := path.contents size
  owed := owed
  signal := path.rxSem
  awake := path.thread.awake
  accepted := path.accepted
  taken := path.accepted.take path.released

theorem length_contents (size : ℕ) (path : RxPath σ) : (path.contents size).length = path.produced - path.released := by
  rw [contents, List.length_map, List.length_range]

theorem toWoken_fillAndProduce (h : path.Sound size)
    (hspace : path.produced - path.released < size) (packet : EsbLinkPacket) (owed : Bool) :
    (path.fillAndProduce (path.produced % size) packet).toWoken size true =
      (path.toWoken size owed).offer size packet := by
  have hle : path.released ≤ path.accepted.length := h.length ▸ h.released_le
  rw [Woken.offer, if_pos (by rw [toWoken, length_contents size path]; exact hspace), toWoken,
    contents_fillAndProduce h.released_le hspace]
  have htaken : (path.accepted ++ [packet]).take path.released =
      path.accepted.take path.released := List.take_append_of_le_length hle
  simp only [fillAndProduce, toWoken, htaken]

theorem toWoken_offer_full (hfull : ¬ path.produced - path.released < size)
    (packet : EsbLinkPacket) (owed : Bool) :
    (path.toWoken size owed).offer size packet = path.toWoken size owed := by
  rw [Woken.offer, if_neg (by rw [toWoken, length_contents size path]; exact hfull)]

/-- The drain loop as a burst offered to the queue. -/
structure Drains (hopConsumeRx : σ → EsbPayload → Bool × σ) (size : ℕ) (fifo : List EsbPayload)
    (before after : RxDrain σ) : Prop where
  sound : after.path.Sound size
  queue : after.path.toWoken size after.received =
    (forRole hopConsumeRx before.path.hop fifo).foldl (Woken.offer size)
      (before.path.toWoken size before.received)
  hop : after.path.hop = hopAfter hopConsumeRx before.path.hop fifo
  drained : after.drained = before.drained + fifo.length
  dropped : after.ringDropped + after.path.accepted.length =
    before.ringDropped + before.path.accepted.length +
      (forRole hopConsumeRx before.path.hop fifo).length

theorem drainPayload_drains (hopConsumeRx : σ → EsbPayload → Bool × σ) (drain : RxDrain σ) (h : drain.path.Sound size)
    (payload : EsbPayload) :
    Drains hopConsumeRx size [payload] drain (drainPayload hopConsumeRx size drain payload) := by
  rcases hconsume : hopConsumeRx drain.path.hop payload with ⟨consumed, hop⟩
  have hforRole : forRole hopConsumeRx drain.path.hop [payload] =
      if consumed then [] else [payload.packet] := by
    simp only [forRole, hconsume]
  have hhop : hopAfter hopConsumeRx drain.path.hop [payload] = hop := by
    simp only [hopAfter, List.foldl_cons, List.foldl_nil, hconsume]
  cases consumed with
  | true =>
      have hstep : drainPayload hopConsumeRx size drain payload =
          { drain with
            path := { drain.path with hop := hop }
            drained := drain.drained + 1
            pipesAcked :=
              if payload.noack then drain.pipesAcked
              else drain.pipesAcked ||| BitTable.bitMask payload.pipe } := by
        simp [drainPayload, hconsume]
      rw [hstep]
      exact ⟨h.hop hop, by rw [hforRole]; rfl, hhop.symm, rfl, by rw [hforRole]; rfl⟩
  | false =>
      by_cases hspace : drain.path.produced - drain.path.released < size
      · have hstep : drainPayload hopConsumeRx size drain payload =
            { drain with
              path := ({ drain.path with hop := hop } : RxPath σ).fillAndProduce
                (drain.path.produced % size) payload.packet
              received := true
              drained := drain.drained + 1
              pipesAcked :=
                if payload.noack then drain.pipesAcked
                else drain.pipesAcked ||| BitTable.bitMask payload.pipe } := by
          simp [drainPayload, hconsume, spscAcquire, hspace]
        rw [hstep]
        refine ⟨(h.hop hop).fillAndProduce hspace _, ?_, hhop.symm, rfl, ?_⟩
        · rw [hforRole]
          exact toWoken_fillAndProduce (h.hop hop) hspace payload.packet drain.received
        · rw [hforRole]
          simp only [fillAndProduce, List.length_append, List.length_singleton]
          exact (Nat.add_assoc _ _ _).symm
      · have hstep : drainPayload hopConsumeRx size drain payload =
            { drain with
              path := { drain.path with hop := hop }
              ringDropped := drain.ringDropped + 1
              drained := drain.drained + 1
              pipesAcked :=
                if payload.noack then drain.pipesAcked
                else drain.pipesAcked ||| BitTable.bitMask payload.pipe } := by
          simp [drainPayload, hconsume, spscAcquire, hspace]
        rw [hstep]
        refine ⟨h.hop hop, ?_, hhop.symm, rfl, ?_⟩
        · rw [hforRole]
          exact (toWoken_offer_full hspace payload.packet drain.received).symm
        · rw [hforRole]
          exact Nat.add_right_comm _ _ _

theorem forRole_append (hop : σ) (front back : List EsbPayload) :
    forRole hopConsumeRx hop (front ++ back) =
      forRole hopConsumeRx hop front ++
        forRole hopConsumeRx (hopAfter hopConsumeRx hop front) back := by
  induction front generalizing hop with
  | nil => rfl
  | cons payload front ih =>
      rcases hconsume : hopConsumeRx hop payload with ⟨consumed, next⟩
      have hafter : hopAfter hopConsumeRx hop (payload :: front) =
          hopAfter hopConsumeRx next front := by
        rw [hopAfter, List.foldl_cons, hconsume, hopAfter]
      rw [hafter]
      simp only [List.cons_append, forRole, hconsume, ih]
      cases consumed <;> rfl

theorem Drains.trans {front back : List EsbPayload} {before middle after : RxDrain σ}
    (hfront : Drains hopConsumeRx size front before middle)
    (hback : Drains hopConsumeRx size back middle after) :
    Drains hopConsumeRx size (front ++ back) before after where
  sound := hback.sound
  queue := by
    rw [hback.queue, hfront.queue, hfront.hop, forRole_append, List.foldl_append]
  hop := by
    rw [hback.hop, hfront.hop, hopAfter, hopAfter, hopAfter, List.foldl_append]
  drained := by
    rw [hback.drained, hfront.drained, List.length_append, Nat.add_assoc]
  dropped := by
    rw [hback.dropped, hfront.dropped, hfront.hop, forRole_append, List.length_append,
      Nat.add_assoc]

theorem foldl_drains (hopConsumeRx : σ → EsbPayload → Bool × σ) (fifo : List EsbPayload) (drain : RxDrain σ) (h : drain.path.Sound size) :
    Drains hopConsumeRx size fifo drain (fifo.foldl (drainPayload hopConsumeRx size) drain) := by
  induction fifo generalizing drain with
  | nil => exact ⟨h, rfl, rfl, rfl, rfl⟩
  | cons payload fifo ih =>
      have hfirst := drainPayload_drains hopConsumeRx drain h payload
      exact hfirst.trans (ih _ hfirst.sound)

theorem drainFifo_drains (hopConsumeRx : σ → EsbPayload → Bool × σ) (h : path.Sound size) (fifo : List EsbPayload) :
    Drains hopConsumeRx size fifo ⟨path, false, 0, 0, 0⟩
      (path.drainFifo hopConsumeRx size fifo) :=
  foldl_drains hopConsumeRx fifo _ h

/-- A pipe is due a reply turn exactly when one of its packets asked for an ACK, whether
or not the ring had space for it. -/
theorem readBit_pipesAcked (fifo : List EsbPayload) (drain : RxDrain σ) {pipe : ℕ}
    (hpipe : pipe < 8) :
    BitTable.readBit (fifo.foldl (drainPayload hopConsumeRx size) drain).pipesAcked pipe = true ↔
      BitTable.readBit drain.pipesAcked pipe = true ∨
        ∃ payload ∈ fifo, payload.noack = false ∧ payload.pipe = pipe := by
  induction fifo generalizing drain with
  | nil => simp
  | cons payload fifo ih =>
      have hacked : (drainPayload hopConsumeRx size drain payload).pipesAcked =
          if payload.noack then drain.pipesAcked
          else BitTable.writeBit drain.pipesAcked payload.pipe true := by
        rw [drainPayload]
        dsimp only
        split_ifs <;> first | rfl | (split <;> rfl)
      rw [List.foldl_cons, ih, hacked]
      cases hnoack : payload.noack with
      | true => simp [hnoack]
      | false =>
          rw [if_neg Bool.false_ne_true, BitTable.readBit_writeBit hpipe]
          by_cases hsame : payload.pipe = pipe
          · simp [hnoack, hsame]
          · simp [hnoack, hsame]

/-! ## Steps -/

theorem onRxReceived_eq (hopConsumeRx : σ → EsbPayload → Bool × σ) (h : path.Sound size) (fifo : List EsbPayload) :
    (path.onRxReceived hopConsumeRx size fifo).Sound size ∧
      (path.onRxReceived hopConsumeRx size fifo).toWoken size false =
        let queue := (forRole hopConsumeRx path.hop fifo).foldl (Woken.offer size)
          (path.toWoken size false)
        if queue.owed then queue.give else queue := by
  have hdrains := drainFifo_drains hopConsumeRx h fifo
  have hqueue := hdrains.queue
  dsimp only at hqueue ⊢
  rw [← hqueue, onRxReceived]
  dsimp only
  cases hreceived : (path.drainFifo hopConsumeRx size fifo).received with
  | true => exact ⟨hdrains.sound.rxSem true, rfl⟩
  | false => exact ⟨hdrains.sound, rfl⟩

theorem contents_released (size : ℕ) (h : path.released < path.produced) :
    path.contents size = path.slots (path.released % size) ::
      ({ path with released := path.released + 1 } : RxPath σ).contents size := by
  have hcount : path.produced - path.released = path.produced - (path.released + 1) + 1 := by omega
  rw [contents, contents, hcount, List.range_succ_eq_map, List.map_cons, List.map_map]
  congr 1
  refine List.map_congr_left fun index _ => ?_
  change path.slots ((path.released + (index + 1)) % size) =
    path.slots ((path.released + 1 + index) % size)
  congr 2
  omega

theorem Sound.getElem?_released (h : path.Sound size) (hholding : path.released < path.produced) :
    path.accepted[path.released]? = some (path.slots (path.released % size)) := by
  have hhead : path.accepted.drop path.released = path.slots (path.released % size) :: _ :=
    h.contents.symm.trans (contents_released size hholding)
  have := congrArg List.head? hhead
  rwa [List.head?_drop] at this

theorem Sound.rxThreadStep (h : path.Sound size) : (path.rxThreadStep size).Sound size := by
  rw [RxPath.rxThreadStep]
  split
  next hwaiting =>
    split_ifs
    · refine ⟨h.released_le, h.room, h.length, h.contents, fun _ hd => absurd rfl hd, ?_, ?_⟩
      · intro begun hthread
        cases hthread
      · have := h.handled
        rw [returned, hwaiting] at this
        exact this
    · exact h
  next hdraining =>
    have hhandled := h.handled
    rw [returned, hdraining] at hhandled
    split_ifs with hempty
    · refine ⟨h.released_le, h.room, h.length, h.contents, fun hw => absurd rfl hw, ?_, hhandled⟩
      intro begun hthread
      cases hthread
    · refine ⟨h.released_le, h.room, h.length, h.contents, fun _ _ => ?_, ?_, hhandled⟩
      · exact Nat.lt_of_le_of_ne h.released_le hempty
      · intro begun hthread
        exact (RxThread.handling.inj hthread).symm
  next begun hhandling =>
    have hholding : path.released < path.produced :=
      h.holding (by rw [hhandling]; exact fun hw => by cases hw)
        (by rw [hhandling]; exact fun hd => by cases hd)
    refine ⟨h.released_le, h.room, h.length, h.contents, fun _ _ => hholding, ?_, ?_⟩
    · intro begun hthread
      cases hthread
    · have hhandled := h.handled
      rw [returned, hhandling] at hhandled
      change path.handled ++ _ = (path.accepted.take (path.released + 1)).map _
      rw [hhandled, List.take_add_one, h.getElem?_released hholding, h.begun begun hhandling]
      simp
  next hhandled' =>
    have hholding : path.released < path.produced :=
      h.holding (by rw [hhandled']; exact fun hw => by cases hw)
        (by rw [hhandled']; exact fun hd => by cases hd)
    have hhandled := h.handled
    rw [returned, hhandled'] at hhandled
    refine ⟨hholding, ?_, h.length, ?_, fun _ hd => absurd rfl hd, ?_, hhandled⟩
    · have hroom := h.room
      change path.produced - (path.released + 1) ≤ size
      omega
    · have htail := congrArg List.tail (h.contents.symm.trans (contents_released size hholding))
      rw [List.tail_drop] at htail
      exact htail.symm
    · intro begun hthread
      cases hthread

/-- A step of the thread is no step of the queue, its wake-up, or one packet taken. -/
theorem toWoken_rxThreadStep (h : path.Sound size) :
    (path.rxThreadStep size).toWoken size false =
      match path.thread with
      | .waiting => (path.toWoken size false).wake
      | .draining =>
          if path.released = path.produced then (path.toWoken size false).take 1
          else path.toWoken size false
      | .handling _ => path.toWoken size false
      | .handled => (path.toWoken size false).take 1 := by
  rw [RxPath.rxThreadStep]
  split
  next hwaiting =>
    cases hsem : path.rxSem with
    | true =>
        simp only [Woken.wake, toWoken, hwaiting, hsem, RxThread.awake]
        rfl
    | false => simp [Woken.wake, toWoken, hsem]
  next hdraining =>
    split_ifs with hempty
    · have hcontents : path.contents size = [] := by
        rw [contents, hempty, Nat.sub_self]
        rfl
      have hasleep : ({ path with thread := .waiting } : RxPath σ).contents size = [] := hcontents
      simp [Woken.take, toWoken, hdraining, RxThread.awake, hcontents, hasleep]
    · simp only [toWoken, hdraining]
      rfl
  next begun hhandling =>
    simp only [toWoken, hhandling]
    rfl
  next hhandled =>
    have hholding : path.released < path.produced :=
      h.holding (by rw [hhandled]; exact fun hw => by cases hw)
        (by rw [hhandled]; exact fun hd => by cases hd)
    have hcontents := contents_released size hholding
    simp only [Woken.take, toWoken, hhandled, RxThread.awake, hcontents, List.drop_succ_cons]
    simp [List.take_add_one, h.getElem?_released hholding]
    rfl

/-! ## Runs -/

structure Steady (size : ℕ) (path : RxPath σ) : Prop where
  sound : path.Sound size
  queue : (path.toWoken size false).Sound

theorem Steady.boot (hop : σ) : (boot hop).Steady size := ⟨.boot hop, .empty⟩

theorem Steady.onRxReceived (h : path.Steady size) (fifo : List EsbPayload) :
    (path.onRxReceived hopConsumeRx size fifo).Steady size := by
  obtain ⟨hsound, hqueue⟩ := onRxReceived_eq hopConsumeRx h.sound fifo
  refine ⟨hsound, ?_⟩
  rw [hqueue]
  dsimp only
  split_ifs
  · exact (h.queue.burst size _).give
  · exact h.queue.burst size _

theorem Steady.rxThreadStep (h : path.Steady size) : (path.rxThreadStep size).Steady size := by
  refine ⟨h.sound.rxThreadStep, ?_⟩
  rw [toWoken_rxThreadStep h.sound]
  split
  · exact h.queue.wake
  · split_ifs
    · exact h.queue.take 1
    · exact h.queue
  · exact h.queue
  · exact h.queue.take 1

theorem Steady.step (h : path.Steady size) (action : RxAction) :
    (path.step hopConsumeRx size action).Steady size := by
  cases action with
  | received fifo => exact h.onRxReceived fifo
  | thread => exact h.rxThreadStep

theorem Steady.run (h : path.Steady size) (actions : List RxAction) :
    (Transition.run (RxPath.step hopConsumeRx size) path actions).Steady size :=
  run_invariant (fun _ action hpath => hpath.step action) h actions

/-- Of one interrupt the ring takes the first packets, as many as it has space for. -/
theorem accepted_onRxReceived (hopConsumeRx : σ → EsbPayload → Bool × σ) (h : path.Sound size) (fifo : List EsbPayload) :
    (path.onRxReceived hopConsumeRx size fifo).accepted =
      path.accepted ++ (forRole hopConsumeRx path.hop fifo).take
        (size - (path.produced - path.released)) := by
  have hqueue := congrArg Woken.accepted (onRxReceived_eq hopConsumeRx h fifo).2
  rw [Woken.foldl_offer] at hqueue
  dsimp only at hqueue
  have hlength : (path.toWoken size false).waiting.length = path.produced - path.released :=
    length_contents size path
  rw [hlength] at hqueue
  calc (path.onRxReceived hopConsumeRx size fifo).accepted
      = ((path.onRxReceived hopConsumeRx size fifo).toWoken size false).accepted := rfl
    _ = _ := hqueue
    _ = _ := by split_ifs <;> rfl

/-! ## The thread alone -/

/-- One packet: the callback begins, returns, and the slot is released. -/
theorem rxThreadStep_packet (hdraining : path.thread = .draining)
    (hne : path.released < path.produced) :
    ((rxThreadStep size)^[3] path).thread = .draining ∧
      ((rxThreadStep size)^[3] path).produced = path.produced ∧
      ((rxThreadStep size)^[3] path).released = path.released + 1 ∧
      ((rxThreadStep size)^[3] path).accepted = path.accepted := by
  have hempty : path.released ≠ path.produced := Nat.ne_of_lt hne
  simp [Function.iterate_succ_apply, rxThreadStep, hdraining, hempty]

/-- From the top of its loop the thread hands over everything and waits again. -/
theorem drains_alone (h : path.Sound size) (hdraining : path.thread = .draining) (left : ℕ)
    (hleft : path.produced - path.released = left) :
    ((rxThreadStep size)^[3 * left + 1] path).Sound size ∧
      ((rxThreadStep size)^[3 * left + 1] path).thread = .waiting ∧
      ((rxThreadStep size)^[3 * left + 1] path).released = path.produced ∧
      ((rxThreadStep size)^[3 * left + 1] path).accepted = path.accepted := by
  induction left generalizing path with
  | zero =>
      have hempty : path.released = path.produced := Nat.le_antisymm h.released_le (by omega)
      have hstep : rxThreadStep size path = { path with thread := .waiting } := by
        simp [rxThreadStep, hdraining, hempty]
      refine ⟨h.rxThreadStep, ?_⟩
      change (path.rxThreadStep size).thread = _ ∧ (path.rxThreadStep size).released = _ ∧
        (path.rxThreadStep size).accepted = _
      rw [hstep]
      exact ⟨rfl, hempty, rfl⟩
  | succ left ih =>
      have hne : path.released < path.produced := by omega
      obtain ⟨hthread, hproduced, hreleased, haccepted⟩ := @rxThreadStep_packet _ size path hdraining hne
      have hturns : 3 * (left + 1) + 1 = (3 * left + 1) + 3 := by ring
      rw [hturns, Function.iterate_add_apply]
      have hsound : ((rxThreadStep size)^[3] path).Sound size :=
        h.rxThreadStep.rxThreadStep.rxThreadStep
      have := ih hsound hthread (by rw [hproduced, hreleased]; omega)
      rwa [hproduced, haccepted] at this

/-- From any point of its loop, unless it waits and no signal is left. -/
theorem settles (h : path.Steady size) :
    ∃ turns ≤ 3 * (path.produced - path.released) + 2,
      ((rxThreadStep size)^[turns] path).Sound size ∧
      ((rxThreadStep size)^[turns] path).thread = .waiting ∧
      ((rxThreadStep size)^[turns] path).released = path.produced ∧
      ((rxThreadStep size)^[turns] path).accepted = path.accepted := by
  have hsound := h.sound
  cases hthread : path.thread with
  | waiting =>
      cases hsem : path.rxSem with
      | true =>
          have hstep : rxThreadStep size path = { path with rxSem := false, thread := .draining } := by
            simp [rxThreadStep, hthread, hsem]
          refine ⟨3 * (path.produced - path.released) + 1 + 1, Nat.le_refl _, ?_⟩
          rw [Function.iterate_succ_apply]
          have hdrained := drains_alone hsound.rxThreadStep (by rw [hstep])
            (path.produced - path.released) (by rw [hstep])
          rwa [hstep] at hdrained ⊢
      | false =>
          obtain ⟨hempty, -⟩ := h.queue.of_asleep rfl hsem (by simp [toWoken, RxThread.awake, hthread])
          have hcount : path.produced - path.released = 0 := by
            rw [← length_contents size path]
            exact List.length_eq_zero_iff.mpr hempty
          refine ⟨0, Nat.zero_le _, hsound, hthread, ?_, rfl⟩
          exact Nat.le_antisymm hsound.released_le (Nat.le_of_sub_eq_zero hcount)
  | draining => exact ⟨_, by omega, drains_alone hsound hthread _ rfl⟩
  | handling begun =>
      have hholding : path.released < path.produced :=
        hsound.holding (by rw [hthread]; exact fun hw => by cases hw)
          (by rw [hthread]; exact fun hd => by cases hd)
      have htwice : rxThreadStep size (rxThreadStep size path) =
          { path with
            released := path.released + 1
            thread := .draining
            handled := path.handled ++ [(begun, path.slots (path.released % size))] } := by
        simp [rxThreadStep, hthread]
      refine ⟨3 * (path.produced - (path.released + 1)) + 1 + 1 + 1, by omega, ?_⟩
      rw [Function.iterate_succ_apply, Function.iterate_succ_apply]
      have hdrained := drains_alone hsound.rxThreadStep.rxThreadStep (by rw [htwice])
        (path.produced - (path.released + 1)) (by rw [htwice])
      rwa [htwice] at hdrained ⊢
  | handled =>
      have hholding : path.released < path.produced :=
        hsound.holding (by rw [hthread]; exact fun hw => by cases hw)
          (by rw [hthread]; exact fun hd => by cases hd)
      have hstep : rxThreadStep size path =
          { path with released := path.released + 1, thread := .draining } := by
        simp [rxThreadStep, hthread]
      refine ⟨3 * (path.produced - (path.released + 1)) + 1 + 1, by omega, ?_⟩
      rw [Function.iterate_succ_apply]
      have hdrained := drains_alone hsound.rxThreadStep (by rw [hstep])
        (path.produced - (path.released + 1)) (by rw [hstep])
      rwa [hstep] at hdrained ⊢

/-! ## The result -/

/-- Every callback saw one packet from beginning to end, the packets in the order they
were accepted; what was accepted and not handled fits the ring, and wakes the thread. -/
structure Delivers (size : ℕ) (path : RxPath σ) : Prop where
  whole : ∀ pair ∈ path.handled, pair.1 = pair.2
  inOrder : path.handled.map Prod.fst <+: path.accepted
  behind : path.accepted.length ≤ path.handled.length + size
  woken : path.handled.length < path.accepted.length → path.rxSem = true ∨ path.thread.awake = true

/-- What one interrupt adds: the first packets the ring has space for, the others
counted as dropped, and a reply turn for each pipe that asked for an ACK. -/
structure TakesBurst (hopConsumeRx : σ → EsbPayload → Bool × σ) (size : ℕ) (path : RxPath σ)
    (fifo : List EsbPayload) : Prop where
  accepted : (path.onRxReceived hopConsumeRx size fifo).accepted =
    path.accepted ++ (forRole hopConsumeRx path.hop fifo).take
      (size - (path.produced - path.released))
  dropped : (path.drainFifo hopConsumeRx size fifo).ringDropped =
    (forRole hopConsumeRx path.hop fifo).length - (size - (path.produced - path.released))
  acked : ∀ pipe < 8,
    BitTable.readBit (path.drainFifo hopConsumeRx size fifo).pipesAcked pipe = true ↔
      ∃ payload ∈ fifo, payload.noack = false ∧ payload.pipe = pipe

theorem Sound.map_fst_handled (h : path.Sound size) :
    path.handled.map Prod.fst = path.accepted.take path.returned := by
  rw [h.handled, List.map_map]
  exact List.map_id _

theorem Sound.length_handled (h : path.Sound size) : path.handled.length = path.returned := by
  have hle : path.returned ≤ path.accepted.length := by
    rw [h.length, returned]
    split_ifs with hthread
    · exact h.holding (by rw [hthread]; decide) (by rw [hthread]; decide)
    · exact h.released_le
  rw [h.handled, List.length_map, List.length_take, Nat.min_eq_left hle]

theorem Steady.delivers (h : path.Steady size) : path.Delivers size where
  whole pair hmem := by
    rw [h.sound.handled] at hmem
    obtain ⟨packet, -, rfl⟩ := List.mem_map.mp hmem
    rfl
  inOrder := by
    rw [h.sound.map_fst_handled]
    exact List.take_prefix _ _
  behind := by
    have hroom := h.sound.room
    have hle := h.sound.released_le
    have hreturned : path.released ≤ path.returned := by
      rw [returned]
      split_ifs <;> omega
    rw [h.sound.length, h.sound.length_handled]
    omega
  woken hlt := by
    rw [h.sound.length, h.sound.length_handled] at hlt
    have hreturned : path.released ≤ path.returned := by
      rw [returned]
      split_ifs <;> omega
    have hne : (path.toWoken size false).waiting ≠ [] := by
      rw [← List.length_pos_iff, toWoken, length_contents]
      omega
    exact (h.queue.woken hne).resolve_left Bool.false_ne_true

theorem Steady.takesBurst (h : path.Steady size) (fifo : List EsbPayload) :
    path.TakesBurst hopConsumeRx size fifo where
  accepted := accepted_onRxReceived hopConsumeRx h.sound fifo
  dropped := by
    have hdrains := drainFifo_drains hopConsumeRx h.sound fifo
    have hlength := congrArg List.length
      (accepted_onRxReceived hopConsumeRx h.sound fifo)
    have hsame : (path.onRxReceived hopConsumeRx size fifo).accepted =
        (path.drainFifo hopConsumeRx size fifo).path.accepted := by
      rw [RxPath.onRxReceived]
      dsimp only
      split_ifs <;> rfl
    have hdropped := hdrains.dropped
    rw [hsame, List.length_append, List.length_take] at hlength
    dsimp only at hdropped
    omega
  acked pipe hpipe := by
    rw [drainFifo, readBit_pipesAcked fifo _ hpipe]
    simp [BitTable.readBit]

/-- The receive path over every run of interrupts and thread steps, whatever the hop
engine keeps for itself. -/
theorem rx_ring_delivers (hopConsumeRx : σ → EsbPayload → Bool × σ) (size : ℕ) (hop : σ)
    (actions : List RxAction) :
    let path := Transition.run (RxPath.step hopConsumeRx size) (boot hop) actions
    path.Delivers size ∧ (∀ fifo, path.TakesBurst hopConsumeRx size fifo) ∧
      ∃ turns ≤ 3 * size + 2,
        ((rxThreadStep size)^[turns] path).thread = .waiting ∧
        ((rxThreadStep size)^[turns] path).handled.map Prod.fst = path.accepted := by
  intro path
  have hsteady : path.Steady size := (Steady.boot hop).run actions
  refine ⟨hsteady.delivers, fun fifo => hsteady.takesBurst fifo, ?_⟩
  obtain ⟨turns, hturns, hsound, hthread, hreleased, haccepted⟩ := settles hsteady
  have hroom := hsteady.sound.room
  refine ⟨turns, by omega, hthread, ?_⟩
  rw [hsound.map_fst_handled, returned, hthread, if_neg (by decide), hreleased, haccepted,
    ← hsteady.sound.length, List.take_length]

end RxPath

end SplitEsb
