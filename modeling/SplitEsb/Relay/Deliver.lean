import SplitEsb.Motion.Total
import SplitEsb.Reply.Link

/-! # Relayed reports on the dongle
A relay payload is split into whole reports. Each report with news goes to the USB
sink, and what the sink refused stays news. -/

namespace SplitEsb

open ByteString

variable {config : ReplyConfig}

/-- A call of the USB sink, and whether it took the report. -/
structure SinkCall where
  report : Bytes
  motionOnly : Bool
  accepted : Bool
  deriving DecidableEq, Repr

/-- What the sink answers after the calls so far. -/
abbrev RelaySink := List SinkCall → Bytes → Bool → Bool

/-- `calls` and `clockReads` only record. -/
structure RelayDongle (config : ReplyConfig) where
  deliveredKeyboard : Bytes
  deliveredConsumer : Bytes
  deliveredButtons : UInt8
  pointerTracks : PointerTotals EsbMotionTrack
  pointerHeardMs : UInt32
  calls : List SinkCall
  clockReads : ℕ

/-- The sink and the uptime clock, by the number of the read. -/
structure RelayHost where
  sink : RelaySink
  uptimeMs : ℕ → UInt32
  lossDetectMs : UInt32

def relayReportLength (config : ReplyConfig) (reportId : UInt8) : ℕ :=
  if reportId = zmkHidReportIdMouse then esbHidRelayPointerLength
  else if reportId = zmkHidReportIdKeyboard then config.keyboardReportLength
  else if reportId = zmkHidReportIdConsumer then config.consumerReportLength
  else 0

/-- The loop of esb_hid_relay_deliver: it stops where no whole report is left. -/
def relayReportsWithin (config : ReplyConfig) : ℕ → Bytes → List Bytes
  | 0, _ => []
  | _ + 1, [] => []
  | rounds + 1, reportId :: rest =>
      let length := relayReportLength config reportId
      if length = 0 ∨ (reportId :: rest).length < length then []
      else
        (reportId :: rest).take length ::
          relayReportsWithin config rounds ((reportId :: rest).drop length)

/-- The reports a payload is split into; each takes a byte at least. -/
def relayReports (config : ReplyConfig) (bytes : Bytes) : List Bytes :=
  relayReportsWithin config bytes.length bytes

namespace RelayDongle

def boot (config : ReplyConfig) : RelayDongle config where
  deliveredKeyboard := zmkHidReportIdKeyboard :: List.replicate (config.keyboardReportLength - 1) 0
  deliveredConsumer := zmkHidReportIdConsumer :: List.replicate (config.consumerReportLength - 1) 0
  deliveredButtons := 0
  pointerTracks := ⟨.fresh, .fresh, .fresh, .fresh⟩
  pointerHeardMs := 0
  calls := []
  clockReads := 0

def callback (dongle : RelayDongle config) (sink : RelaySink) (report : Bytes)
    (motionOnly : Bool) : RelayDongle config × Bool :=
  let accepted := sink dongle.calls report motionOnly
  ({ dongle with calls := dongle.calls ++ [⟨report, motionOnly, accepted⟩] }, accepted)

/-! ### Pointer reports -/

def shortDelta (track : EsbMotionTrack) (shortTotal : Int16) : EsbMotionTrack × Int32 :=
  let (track, delta) :=
    if track.valid then esbMotionTrackShortDelta track shortTotal
    else esbMotionTrackDelta track shortTotal.toInt32
  (track, delta.getD 0)

/-- The tracks moved on to the totals of the report, and the gap on each axis. -/
def pointerTotalsToDeltas (tracks : PointerTotals EsbMotionTrack) (bytes : Bytes) :
    PointerTotals (EsbMotionTrack × Int32) :=
  PointerTotals.ofFn fun axis => shortDelta (tracks.get axis) (shortTotalAt bytes axis)

def forgetPointerAfterSilence (dongle : RelayDongle config) (host : RelayHost) :
    RelayDongle config :=
  let nowMs := host.uptimeMs dongle.clockReads
  { dongle with
    pointerTracks :=
      if nowMs - dongle.pointerHeardMs > host.lossDetectMs then
        dongle.pointerTracks.map fun track => { track with valid := false }
      else dongle.pointerTracks
    pointerHeardMs := nowMs
    clockReads := dongle.clockReads + 1 }

/-- A busy sink loses no motion, the next report carries it: also whether the report was
committed. -/
def offerPointer (dongle : RelayDongle config) (host : RelayHost) (bytes : Bytes) :
    RelayDongle config × Bool :=
  let dongle := dongle.forgetPointerAfterSilence host
  let moved := pointerTotalsToDeltas dongle.pointerTracks bytes
  let deltas := moved.map Prod.snd
  let moves := deltas.dX != 0 || deltas.dY != 0 || deltas.dScrollY != 0 || deltas.dScrollX != 0
  let buttons := byteAt bytes esbHidRelayPointerButtonsOffset
  if moves || buttons != dongle.deliveredButtons then
    let usb := (MouseReportBody.mk buttons (deltas.map Int32.toInt16)).encode
    let (dongle, accepted) := dongle.callback host.sink usb (buttons == dongle.deliveredButtons)
    if accepted then
      ({ dongle with deliveredButtons := buttons, pointerTracks := moved.map Prod.fst }, true)
    else (dongle, false)
  else ({ dongle with pointerTracks := moved.map Prod.fst }, true)

def deliverPointer (dongle : RelayDongle config) (host : RelayHost) (bytes : Bytes) :
    RelayDongle config :=
  (dongle.offerPointer host bytes).1

/-! ### Every report -/

def deliverKeyboard (dongle : RelayDongle config) (host : RelayHost) (bytes : Bytes) :
    RelayDongle config :=
  if bytes = dongle.deliveredKeyboard then dongle
  else
    let (dongle, accepted) := dongle.callback host.sink bytes false
    if accepted then { dongle with deliveredKeyboard := bytes } else dongle

def deliverConsumer (dongle : RelayDongle config) (host : RelayHost) (bytes : Bytes) :
    RelayDongle config :=
  if bytes = dongle.deliveredConsumer then dongle
  else
    let (dongle, accepted) := dongle.callback host.sink bytes false
    if accepted then { dongle with deliveredConsumer := bytes } else dongle

def deliverReport (host : RelayHost) (dongle : RelayDongle config) (bytes : Bytes) :
    RelayDongle config :=
  if byteAt bytes 0 = zmkHidReportIdMouse then dongle.deliverPointer host bytes
  else if byteAt bytes 0 = zmkHidReportIdKeyboard then dongle.deliverKeyboard host bytes
  else dongle.deliverConsumer host bytes

/-- esb_hid_relay_deliver, once a sink is registered. -/
def deliver (host : RelayHost) (dongle : RelayDongle config) (bytes : Bytes) :
    RelayDongle config :=
  (relayReports config bytes).foldl (deliverReport host) dongle

end RelayDongle

/-! ## Whole reports -/

/-- A keyboard, consumer or mouse report, as long as its id says. -/
structure IsRelayReport (config : ReplyConfig) (report : Bytes) : Prop where
  length_pos : 0 < report.length
  length : report.length = relayReportLength config (byteAt report 0)

instance (config : ReplyConfig) (report : Bytes) : Decidable (IsRelayReport config report) :=
  decidable_of_iff
    (0 < report.length ∧ report.length = relayReportLength config (byteAt report 0))
    ⟨fun h => ⟨h.1, h.2⟩, fun h => ⟨h.length_pos, h.length⟩⟩

/-- Rounds past the length of the payload change nothing. -/
theorem relayReportsWithin_eq {rounds more : ℕ} {bytes : Bytes} (h : bytes.length ≤ rounds)
    (hmore : bytes.length ≤ more) :
    relayReportsWithin config rounds bytes = relayReportsWithin config more bytes := by
  induction rounds generalizing more bytes with
  | zero =>
      have hnil : bytes = [] := List.length_eq_zero_iff.mp (Nat.le_zero.mp h)
      subst hnil
      cases more <;> rfl
  | succ rounds ih =>
      cases bytes with
      | nil => cases more <;> rfl
      | cons reportId rest =>
          obtain ⟨more, rfl⟩ := Nat.exists_eq_succ_of_ne_zero
            (Nat.ne_of_gt (Nat.lt_of_lt_of_le (Nat.succ_pos _) hmore))
          simp only [List.length_cons] at h hmore
          rw [relayReportsWithin, relayReportsWithin]
          split
          · rfl
          · refine congrArg _ (ih ?_ ?_) <;> simp only [List.length_drop, List.length_cons] <;> omega

theorem relayReports_append {report : Bytes} (h : IsRelayReport config report) (rest : Bytes) :
    relayReports config (report ++ rest) = report :: relayReports config rest := by
  cases report with
  | nil => exact absurd h.length_pos (Nat.lt_irrefl 0)
  | cons reportId body =>
      have hlength : relayReportLength config reportId = (reportId :: body).length := h.length.symm
      have hwhole : ¬ ((reportId :: body).length = 0 ∨
          (reportId :: (body ++ rest)).length < (reportId :: body).length) := by
        simp only [List.length_cons, List.length_append]
        omega
      rw [relayReports, List.cons_append, List.length_cons, relayReportsWithin, hlength,
        if_neg hwhole, ← List.cons_append, List.take_left, List.drop_left]
      refine congrArg _ (relayReportsWithin_eq ?_ (Nat.le_refl _))
      simp

/-- Reports put after one another are split again. -/
theorem relayReports_flatten {reports : List Bytes}
    (h : ∀ report ∈ reports, IsRelayReport config report) :
    relayReports config reports.flatten = reports := by
  induction reports with
  | nil => rfl
  | cons report reports ih =>
      obtain ⟨hfirst, hrest⟩ := List.forall_mem_cons.mp h
      rw [List.flatten_cons, relayReports_append hfirst, ih hrest]

theorem isRelayReport_encode (body : MouseReportBody) : IsRelayReport config body.encode where
  length_pos := by simp [esbHidRelayPointerLength]
  length := MouseReportBody.length_encode body

/-- Every report fits beside a pointer report. -/
theorem IsRelayReport.length_le {report : Bytes} (h : IsRelayReport config report) :
    report.length ≤ config.maxPayload - esbHidRelayPointerLength := by
  have hfit := config.reports_fit
  have hcommand := config.commandLength_ge
  have hroom := config.command_fits
  have hpointer : esbHidRelayPointerLength = 10 := rfl
  have hpos := h.length_pos
  have hlength := h.length
  rw [relayReportLength] at hlength
  split_ifs at hlength <;> omega

end SplitEsb
