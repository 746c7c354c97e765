import SplitEsb.Relay.Motion
import SplitEsb.Relay.Stamping

/-! # From the central to the USB sink
The payloads the FIFO took reach the dongle in order; each may be lost or come twice.
The motion the sink took is the way the central's totals went between the first and
the last committed report. -/

namespace SplitEsb

open ByteString Transition Residue RelayDongle

variable {config : ReplyConfig}

/-! ## The path -/

/-- A payload the FIFO took, with the untruncated totals of that moment. -/
structure SentPayload where
  data : Bytes
  total : PointerAxis → ℤ

/-- `total` follows the running totals without wrapping, `position` is the last payload
that reached the dongle, `committed` lists the pointer reports it committed. -/
structure RelayPath (config : ReplyConfig) where
  link : ReplyLink config
  total : PointerAxis → ℤ
  sent : List SentPayload
  position : ℕ
  dongle : RelayDongle config
  committed : List CommittedReport

/-- A step of the central, or the arrival of a payload. -/
inductive RelayPathAction where
  | central (action : ReplyAction)
  | receive (index : ℕ)

/-- The totals after an event of an active relay. -/
def addToTotal (active : Bool) (total : PointerAxis → ℤ) (event : PointerEvent) :
    PointerAxis → ℤ :=
  if active && event.type == inputEvTypeRel then
    match relAxis event.code with
    | none => total
    | some axis => Function.update total axis (total axis + event.value.toInt)
  else total

namespace RelayPath

def boot (config : ReplyConfig) : RelayPath config where
  link := .boot config
  total _ := 0
  sent := []
  position := 0
  dongle := .boot config
  committed := []

def totalAfter (path : RelayPath config) : ReplyAction → PointerAxis → ℤ
  | .pointer (.event event) => addToTotal path.link.pointer.active path.total event
  | _ => path.total

/-- What the FIFO took for the pipe during the step is on its way. -/
def central (pipe : ℕ) (path : RelayPath config) (action : ReplyAction) : RelayPath config :=
  let link := path.link.step action
  let made := (link.writesOf pipe).drop (path.link.writesOf pipe).length
  { path with
    link := link
    total := path.totalAfter action
    sent := path.sent ++
      (made.filter AckWrite.delivers).map fun write => ⟨write.data, path.total⟩ }

/-- One report of a payload, noted if it is a pointer report that is committed. -/
def deliverNoting (host : RelayHost) (total : PointerAxis → ℤ)
    (state : RelayDongle config × List CommittedReport) (report : Bytes) :
    RelayDongle config × List CommittedReport :=
  (state.1.deliverReport host report,
    if byteAt report 0 = zmkHidReportIdMouse ∧ (state.1.offerPointer host report).2 = true then
      state.2 ++ [⟨state.1.clockReads, total⟩] else state.2)

/-- In order: never a payload before the last one, perhaps that one again. -/
def receive (host : RelayHost) (path : RelayPath config) (index : ℕ) : RelayPath config :=
  match path.sent[index]? with
  | none => path
  | some payload =>
      if index < path.position then path
      else
        let (dongle, committed) := (relayReports config payload.data).foldl
          (deliverNoting host payload.total) (path.dongle, path.committed)
        { path with position := index, dongle := dongle, committed := committed }

def step (host : RelayHost) (pipe : ℕ) (path : RelayPath config) :
    RelayPathAction → RelayPath config
  | .central action => path.central pipe action
  | .receive index => path.receive host index

/-! ## The dongle's half -/

variable {host : RelayHost}

/-- The reports of other ids leave the pointer alone. -/
theorem deliverReport_of_ne {dongle : RelayDongle config} {committed : List CommittedReport}
    {report : Bytes} (hid : byteAt report 0 ≠ zmkHidReportIdMouse)
    (h : dongle.Tracked host committed) :
    (dongle.deliverReport host report).Tracked host committed := by
  have hcall : ∀ (motionOnly accepted : Bool) (axis : PointerAxis),
      sinkMotion (dongle.calls ++ [⟨report, motionOnly, accepted⟩]) axis =
        sinkMotion dongle.calls axis := by
    intro motionOnly accepted axis
    have hother : (accepted && byteAt report 0 == zmkHidReportIdMouse) = false := by
      rw [beq_eq_false_iff_ne.mpr hid, Bool.and_false]
    rw [sinkMotion_concat, hother]
    exact add_zero _
  have hkept : ∀ after : RelayDongle config, after.pointerTracks = dongle.pointerTracks →
      after.pointerHeardMs = dongle.pointerHeardMs → after.clockReads = dongle.clockReads →
      (∀ axis, sinkMotion after.calls axis = sinkMotion dongle.calls axis) →
        after.Tracked host committed := by
    intro after htracks hheard hreads hmotion
    refine ⟨?_, ?_, ?_, ?_⟩
    · simpa only [htracks, hmotion] using h.silent
    · simpa only [hheard, hreads] using h.heard
    · simpa only [htracks, hreads] using h.valid
    · simpa only [htracks, hmotion, hreads] using h.moved
  rw [RelayDongle.deliverReport, if_neg hid]
  split
  · rw [RelayDongle.deliverKeyboard]
    split
    · exact h
    · dsimp only [RelayDongle.callback]
      split <;> exact hkept _ rfl rfl rfl (hcall _ _)
  · rw [RelayDongle.deliverConsumer]
    split
    · exact h
    · dsimp only [RelayDongle.callback]
      split <;> exact hkept _ rfl rfl rfl (hcall _ _)

theorem tracked_deliverNoting {total : PointerAxis → ℤ} {dongle : RelayDongle config} {committed : List CommittedReport}
    (h : dongle.Tracked host committed) {report : Bytes}
    (htotal : byteAt report 0 = zmkHidReportIdMouse →
      ∀ axis, shortTotalAt report axis = Int16.ofInt (total axis)) :
    (deliverNoting host total (dongle, committed) report).1.Tracked host
      (deliverNoting host total (dongle, committed) report).2 := by
  rw [deliverNoting]
  dsimp only
  by_cases hid : byteAt report 0 = zmkHidReportIdMouse
  · have hoffered := h.offerPointer (htotal hid)
    rw [RelayDongle.deliverReport, if_pos hid, RelayDongle.deliverPointer]
    simpa only [hid, true_and] using hoffered
  · rw [if_neg fun hboth => hid hboth.1]
    exact deliverReport_of_ne hid h

/-! ## The central's half -/

/-- The wrapped sums follow the untruncated totals. -/
def Follows (sums : PointerTotals Int32) (total : PointerAxis → ℤ) : Prop :=
  ∀ axis, sums.get axis = Int32.ofInt (total axis)

theorem follows_addMotion {pointer : RelayPointer} {total : PointerAxis → ℤ}
    (h : Follows pointer.sums total) (code : UInt16) (value : Int32) :
    Follows (pointer.addMotion code value).sums
      (match relAxis code with
        | none => total
        | some axis => Function.update total axis (total axis + value.toInt)) := by
  rw [RelayPointer.addMotion]
  cases relAxis code with
  | none => exact h
  | some axis =>
      intro other
      dsimp only
      rw [PointerTotals.get_modify]
      by_cases hsame : other = axis
      · subst hsame
        rw [if_pos rfl, Function.update_self, h other, Int32.ofInt_add, Int32.ofInt_toInt]
      · rw [if_neg hsame, Function.update_of_ne hsame, h other]

theorem sums_addButton (pointer : RelayPointer) (code : UInt16) (value : Int32) :
    (pointer.addButton code value).sums = pointer.sums ∧
      (pointer.addButton code value).paused = pointer.paused := by
  rw [RelayPointer.addButton]
  split <;> exact ⟨rfl, rfl⟩

theorem paused_addMotion (pointer : RelayPointer) (code : UInt16) (value : Int32) :
    (pointer.addMotion code value).paused = pointer.paused := by
  rw [RelayPointer.addMotion]
  split <;> rfl

theorem follows_handleEvent {pointer : RelayPointer} {total : PointerAxis → ℤ}
    (h : Follows pointer.sums total) (hactive : pointer.active = true) (event : PointerEvent) :
    Follows (pointer.handleEvent event).1.sums (addToTotal true total event) ∧
      (pointer.handleEvent event).1.active = true := by
  have hmoved : ∀ moved : RelayPointer, moved =
      (if event.type = inputEvTypeRel then pointer.addMotion event.code event.value
      else if event.type = inputEvTypeKey then pointer.addButton event.code event.value
      else pointer) →
      Follows moved.sums (addToTotal true total event) ∧ moved.active = true := by
    rintro moved rfl
    rw [addToTotal, Bool.true_and]
    by_cases hrel : event.type = inputEvTypeRel
    · rw [if_pos hrel, if_pos (beq_iff_eq.mpr hrel)]
      refine ⟨follows_addMotion h event.code event.value, ?_⟩
      rw [RelayPointer.active, paused_addMotion]
      exact hactive
    · rw [if_neg hrel, if_neg (beq_iff_eq.not.mpr hrel)]
      split
      · obtain ⟨hsums, hpaused⟩ := sums_addButton pointer event.code event.value
        rw [hsums, RelayPointer.active, hpaused]
        exact ⟨h, hactive⟩
      · exact ⟨h, hactive⟩
  rw [RelayPointer.handleEvent, hactive]
  have hon : ¬ (!true) = true := by decide
  rw [if_neg hon]
  dsimp only
  generalize hpointer : (if event.type = inputEvTypeRel then pointer.addMotion event.code event.value
    else if event.type = inputEvTypeKey then pointer.addButton event.code event.value
    else pointer) = moved
  split
  · exact hmoved moved hpointer.symm
  · exact hmoved moved hpointer.symm

/-! ## Every run -/

/-- What holds of the path between its steps. -/
structure Conserves (host : RelayHost) (pipe : ℕ) (path : RelayPath config) : Prop where
  relay : path.link.RelaySound pipe
  states : (path.link.idle pipe).Calls fun call => HoldsStates config call.data
  active : path.link.pointer.active = true
  follows : Follows path.link.pointer.sums path.total
  sent : ∀ payload ∈ path.sent, ∀ report ∈ relayReports config payload.data,
    byteAt report 0 = zmkHidReportIdMouse →
      ∀ axis, shortTotalAt report axis = Int16.ofInt (payload.total axis)
  tracked : path.dongle.Tracked host path.committed

theorem Conserves.boot (config : ReplyConfig) (host : RelayHost) (pipe : ℕ) :
    (boot config).Conserves host pipe where
  relay := ⟨.boot config, .boot config pipe, (by intro _ packet hmem; cases hmem),
    .boot config pipe⟩
  states := .empty ..
  active := rfl
  follows := by intro axis; cases axis <;> rfl
  sent := by intro payload hmem; cases hmem
  tracked := .boot config host

variable {path : RelayPath config} {pipe : ℕ}

theorem wholeReports_of_activeRelay {action : ReplyAction} (h : ActiveRelay config action) :
    WholeReports config action := by
  cases action with
  | put pipe data => exact h
  | _ => trivial

/-- A thread hands nothing over. -/
theorem central_thread {action : ReplyAction}
    (hwrites : (path.link.step action).writes = path.link.writes) :
    path.central pipe action =
      { path with link := path.link.step action, total := path.totalAfter action } := by
  rw [central]
  have hnone : ((path.link.step action).writesOf pipe).drop (path.link.writesOf pipe).length = [] := by
    rw [ReplyLink.writesOf, ReplyLink.writesOf, hwrites]
    exact List.drop_length
  rw [hnone]
  simp

theorem Conserves.pointer_step (h : path.Conserves host pipe) {action : ReplyAction}
    (hactive : ActiveRelay config action)
    (hthread : ∀ pipesAcked fifo, action ≠ .rxDone pipesAcked fifo) :
    Follows (path.link.step action).pointer.sums (path.totalAfter action) ∧
      (path.link.step action).pointer.active = true := by
  cases action with
  | put other data =>
      change Follows (path.link.stagePut other data).pointer.sums _ ∧
        (path.link.stagePut other data).pointer.active = true
      rw [ReplyLink.stagePut]
      split_ifs <;> exact ⟨h.follows, h.active⟩
  | count other =>
      change Follows (path.link.stageCount other).pointer.sums _ ∧
        (path.link.stageCount other).pointer.active = true
      rw [ReplyLink.stageCount]
      split_ifs <;> exact ⟨h.follows, h.active⟩
  | latchControl other kind data =>
      change Follows (path.link.latchControl other kind data).pointer.sums _ ∧
        (path.link.latchControl other kind data).pointer.active = true
      rw [ReplyLink.latchControl]
      split_ifs <;> exact ⟨h.follows, h.active⟩
  | controlStatement other kind => exact ⟨h.follows, h.active⟩
  | latchIdle other data =>
      change Follows (path.link.latchIdleReply other data).pointer.sums _ ∧
        (path.link.latchIdleReply other data).pointer.active = true
      rw [ReplyLink.latchIdleReply]
      split_ifs <;> exact ⟨h.follows, h.active⟩
  | idleStatement other => exact ⟨h.follows, h.active⟩
  | pointer input =>
      cases input with
      | event event =>
          rw [totalAfter, h.active]
          exact follows_handleEvent h.follows h.active event
      | refresh => exact ⟨h.follows, h.active⟩
      | reset held => exact ⟨h.follows, h.active⟩
      | pause on =>
          have hon : on = false := hactive
          subst hon
          exact ⟨h.follows, rfl⟩
  | rxDone pipesAcked fifo => exact absurd rfl (hthread pipesAcked fifo)

/-- The interrupt stamps the totals of the moment into all it hands over. -/
theorem Conserves.rxDone (h : path.Conserves host pipe) (hrelay : config.relayPipe pipe = true)
    (pipesAcked : UInt8) (fifo : AckFifo) :
    (path.central pipe (.rxDone pipesAcked fifo)).Conserves host pipe := by
  have hstamps : ReplyLink.Stamps pipe path.link (path.link.rxDone fifo pipesAcked) :=
    ReplyLink.Stamps.rxDone ⟨h.relay, h.states, h.active, rfl, [], (List.append_nil _).symm, by simp⟩
      hrelay fifo pipesAcked
  obtain ⟨made, hmade, hstamped⟩ := hstamps.made
  refine ⟨hstamps.relay, hstamps.states, hstamps.active, ?_, ?_, h.tracked⟩
  · have hsums : (path.link.rxDone fifo pipesAcked).pointer.sums = path.link.pointer.sums :=
      hstamps.sums
    change Follows (path.link.rxDone fifo pipesAcked).pointer.sums path.total
    rw [hsums]
    exact h.follows
  · intro payload hmem report hreport hid axis
    rcases List.mem_append.mp hmem with hold | hnew
    · exact h.sent payload hold report hreport hid axis
    · obtain ⟨write, hwrite, rfl⟩ := List.mem_map.mp hnew
      obtain ⟨hin, hdelivers⟩ := List.mem_filter.mp hwrite
      have hdrop : ((path.link.rxDone fifo pipesAcked).writesOf pipe).drop
          (path.link.writesOf pipe).length = made := by
        rw [hmade, List.drop_left]
      have hin : write ∈ made := hdrop ▸ hin
      have htotal := hstamped write hin hdelivers report hreport hid axis
      rw [htotal, RelayPointer.shortTotals, PointerTotals.get_map, h.follows axis]
      exact Int32.toInt16_ofInt

theorem Conserves.central (h : path.Conserves host pipe) (hrelay : config.relayPipe pipe = true)
    {action : ReplyAction} (hactive : ActiveRelay config action) :
    (path.central pipe action).Conserves host pipe := by
  rcases ReplyLink.writes_thread path.link action with ⟨pipesAcked, fifo, rfl⟩ | ⟨hthread, hwrites⟩
  · exact h.rxDone hrelay pipesAcked fifo
  · rw [central_thread hwrites]
    obtain ⟨hfollows, hon⟩ := h.pointer_step hactive hthread
    have hstates : ((path.link.step action).idle pipe).Calls
        fun call => HoldsStates config call.data := by
      refine ReplyLink.calls_thread h.states ?_ hthread
      rintro data rfl
      exact hactive hrelay
    exact ⟨h.relay.step (wholeReports_of_activeRelay hactive), hstates, hon, hfollows, h.sent,
      h.tracked⟩

theorem tracked_foldl {total : PointerAxis → ℤ} {reports : List Bytes}
    (htotal : ∀ report ∈ reports, byteAt report 0 = zmkHidReportIdMouse →
      ∀ axis, shortTotalAt report axis = Int16.ofInt (total axis))
    {dongle : RelayDongle config} {committed : List CommittedReport}
    (h : dongle.Tracked host committed) :
    (reports.foldl (deliverNoting host total) (dongle, committed)).1.Tracked host
      (reports.foldl (deliverNoting host total) (dongle, committed)).2 := by
  induction reports generalizing dongle committed with
  | nil => exact h
  | cons report reports ih =>
      obtain ⟨hfirst, hrest⟩ := List.forall_mem_cons.mp htotal
      exact ih hrest (tracked_deliverNoting h hfirst)

theorem Conserves.receive (h : path.Conserves host pipe) (index : ℕ) : (path.receive host index).Conserves host pipe := by
  rw [RelayPath.receive]
  cases hpayload : path.sent[index]? with
  | none => exact h
  | some payload =>
      dsimp only
      split
      · exact h
      · exact ⟨h.relay, h.states, h.active, h.follows, h.sent,
          tracked_foldl (h.sent payload (List.mem_of_getElem? hpayload)) h.tracked⟩

/-- The central's steps are those of an active relay. -/
def ActivePath (config : ReplyConfig) : RelayPathAction → Prop
  | .central action => ActiveRelay config action
  | .receive _ => True

theorem Conserves.step (h : path.Conserves host pipe) (hrelay : config.relayPipe pipe = true)
    {action : RelayPathAction} (hactive : ActivePath config action) :
    (path.step host pipe action).Conserves host pipe := by
  cases action with
  | central action => exact h.central hrelay hactive
  | receive index => exact h.receive index

/-- Between the first report the dongle committed and the last one, the sink took on
each axis what the central's total moved by, and a refused report changes nothing. -/
structure MotionConserved (host : RelayHost) (path : RelayPath config) : Prop where
  moved : ∃ first last, path.committed.head? = some first ∧ path.committed.getLast? = some last ∧
    ∀ axis, Bounded 8192 (path.committed.map fun report => report.total axis) →
      sinkMotion path.dongle.calls axis = last.total axis - first.total axis
  refused : ∀ report, host.uptimeMs path.dongle.clockReads - path.dongle.pointerHeardMs ≤
      host.lossDetectMs → (path.dongle.offerPointer host report).2 = false →
    (path.dongle.offerPointer host report).1.pointerTracks = path.dongle.pointerTracks ∧
      (path.dongle.offerPointer host report).1.deliveredButtons = path.dongle.deliveredButtons

theorem Conserves.motionConserved (h : path.Conserves host pipe)
    (hvalid : ∀ axis, (path.dongle.pointerTracks.get axis).valid = true)
    (hunbroken : Unbroken host path.committed path.dongle.clockReads) :
    path.MotionConserved host := by
  have hsome : path.committed ≠ [] := by
    intro hnone
    have hinvalid := (h.tracked.silent hnone .x).1
    rw [hvalid .x] at hinvalid
    cases hinvalid
  refine ⟨?_, fun report hheard hrefused => ?_⟩
  · have hhead := List.head?_eq_some_head hsome
    have hlast := List.getLast?_eq_some_getLast hsome
    exact ⟨_, _, hhead, hlast, fun axis hbounded =>
      (h.tracked.moved hunbroken axis hbounded _ hhead _ hlast).2⟩
  · have hspec := path.dongle.offerPointer_spec host report
    rw [hrefused] at hspec
    exact ⟨hspec.tracks.trans (forget_of_heard hheard), hspec.buttons rfl⟩

/-- Whatever is refused, lost or repeated on the way, relayed motion is conserved while
the relay is active and no silence makes the dongle forget its tracks. -/
theorem relayed_motion_conserved (config : ReplyConfig) (host : RelayHost) (pipe : ℕ)
    (hrelay : config.relayPipe pipe = true) (actions : List RelayPathAction)
    (hactive : ∀ action ∈ actions, ActivePath config action)
    (hvalid : ∀ axis, ((run (RelayPath.step host pipe) (boot config)
      actions).dongle.pointerTracks.get axis).valid = true)
    (hunbroken : Unbroken host (run (RelayPath.step host pipe) (boot config) actions).committed
      (run (RelayPath.step host pipe) (boot config) actions).dongle.clockReads) :
    (run (RelayPath.step host pipe) (boot config) actions).MotionConserved host := by
  have h : (run (RelayPath.step host pipe) (boot config) actions).Conserves host pipe :=
    run_invariant_forall (fun _ _ hpath haction => hpath.step hrelay haction)
      (Conserves.boot config host pipe) hactive
  exact h.motionConserved hvalid hunbroken

/-- Two moves on the first axis; the sink is busy once in between. -/
def sampleMoves : List RelayPathAction :=
  [.central (.pointer (.event ⟨inputEvTypeRel, inputRelX, 5, true⟩)),
    .central (.rxDone 1 fun _ _ _ => true), .receive 0,
    .central (.pointer (.event ⟨inputEvTypeRel, inputRelX, 7, true⟩)),
    .central (.rxDone 1 fun _ _ _ => true), .receive 1, .receive 1]

def sampleHost : RelayHost where
  sink calls _ _ := 0 < calls.length
  uptimeMs _ := 100
  lossDetectMs := 256

theorem relayed_motion_conserved_sample :
    (run (RelayPath.step sampleHost 0) (boot sampleReplyConfig) sampleMoves).MotionConserved
      sampleHost := by
  have hclock : (100 : UInt32) - 100 ≤ 256 := by decide
  refine relayed_motion_conserved sampleReplyConfig sampleHost 0 rfl sampleMoves ?_ (fun axis => ?_)
    fun _ _ _ _ _ => hclock
  · simp [sampleMoves, ActivePath, ActiveRelay]
  · cases axis <;> decide +kernel

end RelayPath

end SplitEsb
