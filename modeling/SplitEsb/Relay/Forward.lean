import SplitEsb.Relay.Deliver
import SplitEsb.Shared.Transition

/-! # What the dongle forwards
The loop that splits a payload reads within it. Of each kind, the reports the sink took
change from one to the next, and the dongle's record is the last of them. -/

namespace SplitEsb

open ByteString Transition

variable {config : ReplyConfig}

/-! ## The loop over the payload's memory -/

/-- The bytes at an offset, where the memory holds them all. -/
def readReport (memory : Bytes) (offset length : ℕ) : Option Bytes :=
  if offset + length ≤ memory.length then some ((memory.drop offset).take length) else none

/-- The loop of esb_hid_relay_deliver at an offset. It fails where it reads past the memory. -/
def RelayDongle.deliverFrom (host : RelayHost) (memory : Bytes) (length : ℕ)
    (dongle : RelayDongle config) (offset : ℕ) : Option (RelayDongle config) :=
  if offset < length then
    match memory[offset]? with
    | none => none
    | some reportId =>
        let reportLength := relayReportLength config reportId
        if reportLength = 0 ∨ length - offset < reportLength then some dongle
        else
          match readReport memory offset reportLength with
          | none => none
          | some report =>
              deliverFrom host memory length (dongle.deliverReport host report)
                (offset + reportLength)
  else some dongle
termination_by length - offset

theorem readReport_eq (front report beyond : Bytes) :
    readReport (front ++ (report ++ beyond)) front.length report.length = some report := by
  have hroom : front.length + report.length ≤ (front ++ (report ++ beyond)).length := by
    simp only [List.length_append]
    omega
  rw [readReport, if_pos hroom, List.drop_left, List.take_left]

/-- What the loop takes at an offset is a whole report. -/
theorem isRelayReport_take {reportId : UInt8} {rest : Bytes}
    (hpos : relayReportLength config reportId ≠ 0)
    (hroom : relayReportLength config reportId ≤ (reportId :: rest).length) :
    IsRelayReport config ((reportId :: rest).take (relayReportLength config reportId)) := by
  have hlength : ((reportId :: rest).take (relayReportLength config reportId)).length =
      relayReportLength config reportId := List.length_take_of_le hroom
  refine ⟨by omega, hlength.trans ?_⟩
  obtain ⟨n, hn⟩ := Nat.exists_eq_succ_of_ne_zero hpos
  rw [hn, List.take_succ_cons]
  exact hn.symm

/-- The loop reads nothing past the given length and delivers the reports within it. -/
theorem RelayDongle.deliverFrom_eq (host : RelayHost) (front bytes beyond : Bytes)
    (dongle : RelayDongle config) :
    dongle.deliverFrom host (front ++ bytes ++ beyond) (front ++ bytes).length front.length =
      some (dongle.deliver host bytes) := by
  induction hlength : bytes.length using Nat.strong_induction_on generalizing front bytes dongle with
  | _ n ih =>
      subst hlength
      rw [deliverFrom]
      cases bytes with
      | nil =>
          rw [if_neg (by simp)]
          rfl
      | cons reportId rest =>
          have hread : (front ++ reportId :: rest ++ beyond)[front.length]? = some reportId := by
            simp
          have hroom : (front ++ reportId :: rest).length - front.length =
              (reportId :: rest).length := by simp
          rw [if_pos (by simp), hread]
          dsimp only
          rw [hroom]
          by_cases hstop : relayReportLength config reportId = 0 ∨
              (reportId :: rest).length < relayReportLength config reportId
          · rw [if_pos hstop, deliver, relayReports, List.length_cons, relayReportsWithin,
              if_pos hstop]
            rfl
          · rw [if_neg hstop]
            rw [not_or, Nat.not_lt] at hstop
            obtain ⟨hpos, hwhole⟩ := hstop
            have hreport := isRelayReport_take hpos hwhole
            set report := (reportId :: rest).take (relayReportLength config reportId)
            set more := (reportId :: rest).drop (relayReportLength config reportId)
            have hsplit : reportId :: rest = report ++ more := (List.take_append_drop _ _).symm
            have hlength : report.length = relayReportLength config reportId :=
              List.length_take_of_le hwhole
            have hmemory : front ++ reportId :: rest ++ beyond =
                front ++ (report ++ (more ++ beyond)) := by
              rw [hsplit]
              simp only [List.append_assoc]
            have hdeliver : dongle.deliver host (reportId :: rest) =
                (dongle.deliverReport host report).deliver host more := by
              rw [deliver, hsplit, relayReports_append hreport, List.foldl_cons]
              rfl
            have hrest := ih more.length
              (by rw [hsplit, List.length_append]; have := hreport.length_pos; omega)
              (front ++ report) more (dongle.deliverReport host report) rfl
            rw [hmemory, ← hlength, readReport_eq, hdeliver]
            dsimp only
            rw [@List.length_append _ front report, List.append_assoc front report more,
              ← hsplit, hmemory] at hrest
            exact hrest

/-! ## Which reports a payload is split into -/

/-- The reports are the longest prefix of the payload made of known whole reports. -/
structure LongestWhole (config : ReplyConfig) (bytes : Bytes) (reports : List Bytes) : Prop where
  whole : ∀ report ∈ reports, IsRelayReport config report
  within : reports.flatten <+: bytes
  longest : ∀ others : List Bytes, (∀ report ∈ others, IsRelayReport config report) →
    others.flatten <+: bytes → others <+: reports

theorem relayReportsWithin_whole (rounds : ℕ) (bytes : Bytes) :
    (∀ report ∈ relayReportsWithin config rounds bytes, IsRelayReport config report) ∧
      (relayReportsWithin config rounds bytes).flatten <+: bytes := by
  induction rounds generalizing bytes with
  | zero => exact ⟨by simp [relayReportsWithin], List.nil_prefix⟩
  | succ rounds ih =>
      cases bytes with
      | nil => exact ⟨by simp [relayReportsWithin], List.nil_prefix⟩
      | cons reportId rest =>
          rw [relayReportsWithin]
          split_ifs with hstop
          · exact ⟨by simp, List.nil_prefix⟩
          · rw [not_or, Nat.not_lt] at hstop
            obtain ⟨hwhole, hwithin⟩ :=
              ih ((reportId :: rest).drop (relayReportLength config reportId))
            refine ⟨List.forall_mem_cons.mpr ⟨isRelayReport_take hstop.1 hstop.2, hwhole⟩, ?_⟩
            rw [List.flatten_cons]
            have hall := (List.prefix_append_right_inj
              ((reportId :: rest).take (relayReportLength config reportId))).mpr hwithin
            rwa [List.take_append_drop] at hall

theorem relayReports_append_flatten {reports : List Bytes}
    (h : ∀ report ∈ reports, IsRelayReport config report) (rest : Bytes) :
    relayReports config (reports.flatten ++ rest) = reports ++ relayReports config rest := by
  induction reports with
  | nil => rfl
  | cons report reports ih =>
      obtain ⟨hfirst, hmore⟩ := List.forall_mem_cons.mp h
      rw [List.flatten_cons, List.append_assoc, relayReports_append hfirst, ih hmore,
        List.cons_append]

theorem longestWhole_relayReports (config : ReplyConfig) (bytes : Bytes) :
    LongestWhole config bytes (relayReports config bytes) where
  whole := (relayReportsWithin_whole bytes.length bytes).1
  within := (relayReportsWithin_whole bytes.length bytes).2
  longest others hothers hprefix := by
    obtain ⟨rest, rfl⟩ := hprefix
    rw [relayReports_append_flatten hothers]
    exact List.prefix_append _ _

/-! ## The record of a kind -/

/-- The reports of a kind the sink took. -/
def acceptedReports (reportId : UInt8) (calls : List SinkCall) : List Bytes :=
  (calls.filter fun call => call.accepted && byteAt call.report 0 == reportId).map SinkCall.report

/-- Starting from all released, no two accepted reports in a row are equal, and the record
is the last of them. -/
structure RecordFollows (released record : Bytes) (accepted : List Bytes) : Prop where
  last : (released :: accepted).getLast? = some record
  changes : List.IsChain (· ≠ ·) (released :: accepted)

theorem RecordFollows.accept {released record report : Bytes} {accepted : List Bytes}
    (h : RecordFollows released record accepted) (hnews : report ≠ record) :
    RecordFollows released report (accepted ++ [report]) where
  last := by rw [← List.cons_append, List.getLast?_concat]
  changes := by
    rw [← List.cons_append]
    refine h.changes.append (List.isChain_singleton report) fun last hlast first hfirst => ?_
    rw [h.last] at hlast
    cases hlast
    cases hfirst
    exact hnews.symm

theorem acceptedReports_append (reportId : UInt8) (calls : List SinkCall) (call : SinkCall) :
    acceptedReports reportId (calls ++ [call]) = acceptedReports reportId calls ++
      if call.accepted && byteAt call.report 0 == reportId then [call.report] else [] := by
  rw [acceptedReports, List.filter_append, List.map_append, ← acceptedReports]
  congr 1
  rw [List.filter_singleton]
  cases call.accepted && byteAt call.report 0 == reportId <;> rfl

theorem acceptedReports_append_other {reportId : UInt8} {call : SinkCall}
    (h : call.accepted = false ∨ byteAt call.report 0 ≠ reportId) (calls : List SinkCall) :
    acceptedReports reportId (calls ++ [call]) = acceptedReports reportId calls := by
  have hskip : (call.accepted && byteAt call.report 0 == reportId) = false := by
    rcases h with h | h <;> simp [h]
  rw [acceptedReports_append, hskip]
  exact List.append_nil _

theorem acceptedReports_append_taken {reportId : UInt8} {call : SinkCall}
    (haccepted : call.accepted = true) (hid : byteAt call.report 0 = reportId)
    (calls : List SinkCall) :
    acceptedReports reportId (calls ++ [call]) =
      acceptedReports reportId calls ++ [call.report] := by
  rw [acceptedReports_append, haccepted, hid]
  simp

/-- The known ids are three. -/
theorem IsRelayReport.consumer {report : Bytes} (h : IsRelayReport config report)
    (hmouse : byteAt report 0 ≠ zmkHidReportIdMouse)
    (hkeyboard : byteAt report 0 ≠ zmkHidReportIdKeyboard) :
    byteAt report 0 = zmkHidReportIdConsumer := by
  have hpos := h.length_pos
  rw [h.length, relayReportLength, if_neg hmouse, if_neg hkeyboard] at hpos
  by_contra hconsumer
  rw [if_neg hconsumer] at hpos
  exact absurd hpos (Nat.lt_irrefl 0)

namespace RelayDongle

variable {dongle : RelayDongle config}

/-- Each record follows what the sink took of its kind, the buttons those of its pointer
reports. -/
structure Forwards (dongle : RelayDongle config) : Prop where
  keyboard : RecordFollows (boot config).deliveredKeyboard dongle.deliveredKeyboard
    (acceptedReports zmkHidReportIdKeyboard dongle.calls)
  consumer : RecordFollows (boot config).deliveredConsumer dongle.deliveredConsumer
    (acceptedReports zmkHidReportIdConsumer dongle.calls)
  buttons : ((boot config).deliveredButtons ::
    (acceptedReports zmkHidReportIdMouse dongle.calls).map
      (byteAt · esbHidRelayPointerButtonsOffset)).getLast? = some dongle.deliveredButtons

theorem Forwards.boot (config : ReplyConfig) : (boot config).Forwards :=
  ⟨⟨rfl, List.isChain_singleton _⟩, ⟨rfl, List.isChain_singleton _⟩, rfl⟩

/-- A keyboard report is offered iff it is not the record, and becomes it if it is taken. -/
theorem deliverKeyboard_spec (dongle : RelayDongle config) (host : RelayHost) (bytes : Bytes) :
    dongle.deliverKeyboard host bytes =
      if bytes = dongle.deliveredKeyboard then dongle
      else
        { dongle with
          calls := dongle.calls ++ [⟨bytes, false, host.sink dongle.calls bytes false⟩]
          deliveredKeyboard :=
            if host.sink dongle.calls bytes false then bytes else dongle.deliveredKeyboard } := by
  rw [deliverKeyboard, callback]
  dsimp only
  split_ifs <;> rfl

theorem deliverConsumer_spec (dongle : RelayDongle config) (host : RelayHost) (bytes : Bytes) :
    dongle.deliverConsumer host bytes =
      if bytes = dongle.deliveredConsumer then dongle
      else
        { dongle with
          calls := dongle.calls ++ [⟨bytes, false, host.sink dongle.calls bytes false⟩]
          deliveredConsumer :=
            if host.sink dongle.calls bytes false then bytes else dongle.deliveredConsumer } := by
  rw [deliverConsumer, callback]
  dsimp only
  split_ifs <;> rfl

/-- A refused call leaves the records as they are. -/
theorem Forwards.refuse (h : dongle.Forwards) {call : SinkCall} (hrefused : call.accepted = false) :
    ({ dongle with calls := dongle.calls ++ [call] } : RelayDongle config).Forwards := by
  have hsame : ∀ reportId, acceptedReports reportId (dongle.calls ++ [call]) =
      acceptedReports reportId dongle.calls := fun _ =>
    acceptedReports_append_other (.inl hrefused) dongle.calls
  refine ⟨?_, ?_, ?_⟩
  · dsimp only
    rw [hsame]
    exact h.keyboard
  · dsimp only
    rw [hsame]
    exact h.consumer
  · dsimp only
    rw [hsame]
    exact h.buttons

theorem Forwards.deliverKeyboard (h : dongle.Forwards) (host : RelayHost) {bytes : Bytes}
    (hid : byteAt bytes 0 = zmkHidReportIdKeyboard) :
    (dongle.deliverKeyboard host bytes).Forwards := by
  have hother : byteAt bytes 0 ≠ zmkHidReportIdConsumer := by rw [hid]; decide
  have hmouse : byteAt bytes 0 ≠ zmkHidReportIdMouse := by rw [hid]; decide
  rw [deliverKeyboard_spec]
  split_ifs with hsame htaken
  · exact h
  · refine ⟨?_, ?_, ?_⟩
    · dsimp only
      rw [acceptedReports_append_taken htaken hid]
      exact h.keyboard.accept hsame
    · dsimp only
      rw [acceptedReports_append_other (.inr hother)]
      exact h.consumer
    · dsimp only
      rw [acceptedReports_append_other (.inr hmouse)]
      exact h.buttons
  · exact h.refuse (Bool.eq_false_iff.mpr htaken)

theorem Forwards.deliverConsumer (h : dongle.Forwards) (host : RelayHost) {bytes : Bytes}
    (hid : byteAt bytes 0 = zmkHidReportIdConsumer) :
    (dongle.deliverConsumer host bytes).Forwards := by
  have hother : byteAt bytes 0 ≠ zmkHidReportIdKeyboard := by rw [hid]; decide
  have hmouse : byteAt bytes 0 ≠ zmkHidReportIdMouse := by rw [hid]; decide
  rw [deliverConsumer_spec]
  split_ifs with hsame htaken
  · exact h
  · refine ⟨?_, ?_, ?_⟩
    · dsimp only
      rw [acceptedReports_append_other (.inr hother)]
      exact h.keyboard
    · dsimp only
      rw [acceptedReports_append_taken htaken hid]
      exact h.consumer.accept hsame
    · dsimp only
      rw [acceptedReports_append_other (.inr hmouse)]
      exact h.buttons
  · exact h.refuse (Bool.eq_false_iff.mpr htaken)

/-- The report the sink is offered for a pointer report: its buttons, with the gap on each
axis in place of the total. -/
def usbReport (tracks : PointerTotals EsbMotionTrack) (bytes : Bytes) : Bytes :=
  (MouseReportBody.mk (byteAt bytes esbHidRelayPointerButtonsOffset)
    (PointerTotals.ofFn fun axis =>
      (shortDelta (tracks.get axis) (shortTotalAt bytes axis)).2.toInt16)).encode

/-- An axis moved from its track, or the buttons are not the delivered ones. -/
def PointerNews (dongle : RelayDongle config) (tracks : PointerTotals EsbMotionTrack)
    (bytes : Bytes) : Prop :=
  (∃ axis, (shortDelta (tracks.get axis) (shortTotalAt bytes axis)).2 ≠ 0) ∨
    byteAt bytes esbHidRelayPointerButtonsOffset ≠ dongle.deliveredButtons

/-- A pointer report is offered iff it has news against the tracks, which a silence made
invalid before. Its buttons and totals are recorded unless it is refused. -/
structure HandlesPointer (dongle : RelayDongle config) (host : RelayHost) (bytes : Bytes)
    (after : RelayDongle config) : Prop where
  offered : let tracks := (dongle.forgetPointerAfterSilence host).pointerTracks
    let buttons := byteAt bytes esbHidRelayPointerButtonsOffset
    let usb := usbReport tracks bytes
    let motionOnly := buttons == dongle.deliveredButtons
    let accepted := host.sink dongle.calls usb motionOnly
    PointerNews dongle tracks bytes →
      after.calls = dongle.calls ++ [⟨usb, motionOnly, accepted⟩] ∧
        after.deliveredButtons = (if accepted then buttons else dongle.deliveredButtons) ∧
        after.pointerTracks =
          if accepted then (pointerTotalsToDeltas tracks bytes).map Prod.fst else tracks
  known : let tracks := (dongle.forgetPointerAfterSilence host).pointerTracks
    ¬PointerNews dongle tracks bytes → after.calls = dongle.calls ∧
      after.deliveredButtons = dongle.deliveredButtons ∧
      after.pointerTracks = (pointerTotalsToDeltas tracks bytes).map Prod.fst
  keyboard : after.deliveredKeyboard = dongle.deliveredKeyboard
  consumer : after.deliveredConsumer = dongle.deliveredConsumer

theorem moves_iff (totals : PointerTotals Int32) :
    (totals.dX != 0 || totals.dY != 0 || totals.dScrollY != 0 || totals.dScrollX != 0) = true ↔
      ∃ axis, totals.get axis ≠ 0 := by
  simp only [Bool.or_eq_true, bne_iff_ne]
  constructor
  · rintro (((hx | hy) | hscrollY) | hscrollX)
    · exact ⟨.x, hx⟩
    · exact ⟨.y, hy⟩
    · exact ⟨.scrollY, hscrollY⟩
    · exact ⟨.scrollX, hscrollX⟩
  · rintro ⟨axis, haxis⟩
    cases axis with
    | x => exact .inl (.inl (.inl haxis))
    | y => exact .inl (.inl (.inr haxis))
    | scrollY => exact .inl (.inr haxis)
    | scrollX => exact .inr haxis

theorem deliverPointer_spec (dongle : RelayDongle config) (host : RelayHost) (bytes : Bytes) :
    HandlesPointer dongle host bytes (dongle.deliverPointer host bytes) := by
  have hmoves := moves_iff
    ((pointerTotalsToDeltas (dongle.forgetPointerAfterSilence host).pointerTracks bytes).map Prod.snd)
  simp only [PointerTotals.get_map, pointerTotalsToDeltas, PointerTotals.get_ofFn] at hmoves
  have hnews := Bool.or_eq_true_iff.trans <| or_congr hmoves <|
    @bne_iff_ne _ _ _ (byteAt bytes esbHidRelayPointerButtonsOffset) dongle.deliveredButtons
  rw [deliverPointer, offerPointer]
  dsimp only
  split_ifs with hoffer htaken
  · exact ⟨fun _ => ⟨rfl, (if_pos htaken).symm, (if_pos htaken).symm⟩,
      fun hknown => absurd (hnews.mp hoffer) hknown, rfl, rfl⟩
  · exact ⟨fun _ => ⟨rfl, (if_neg htaken).symm, (if_neg htaken).symm⟩,
      fun hknown => absurd (hnews.mp hoffer) hknown, rfl, rfl⟩
  · exact ⟨fun hmoved => absurd (hnews.mpr hmoved) hoffer, fun _ => ⟨rfl, rfl, rfl⟩, rfl, rfl⟩

theorem Forwards.deliverPointer (h : dongle.Forwards) (host : RelayHost) (bytes : Bytes) :
    (dongle.deliverPointer host bytes).Forwards := by
  have hspec := deliverPointer_spec dongle host bytes
  by_cases hnews : PointerNews dongle (dongle.forgetPointerAfterSilence host).pointerTracks bytes
  · obtain ⟨hcall, hbuttons, -⟩ := hspec.offered hnews
    have hother : ∀ reportId, reportId ≠ zmkHidReportIdMouse →
        acceptedReports reportId (dongle.deliverPointer host bytes).calls =
          acceptedReports reportId dongle.calls := by
      intro reportId hid
      have hmouse : ∀ tracks, byteAt (usbReport tracks bytes) 0 ≠ reportId := fun _ => hid.symm
      rw [hcall, acceptedReports_append_other (.inr (by exact hmouse _))]
    refine ⟨?_, ?_, ?_⟩
    · rw [hspec.keyboard, hother _ (by decide)]
      exact h.keyboard
    · rw [hspec.consumer, hother _ (by decide)]
      exact h.consumer
    · rw [hbuttons, hcall]
      cases htaken : host.sink dongle.calls _ _ with
      | true =>
          rw [acceptedReports_append_taken (by rfl) (by rfl), List.map_append, List.map_singleton,
            ← List.cons_append, List.getLast?_concat]
          rfl
      | false =>
          rw [acceptedReports_append_other (.inl (by rfl))]
          exact h.buttons
  · obtain ⟨hsame, hbuttons, -⟩ := hspec.known hnews
    refine ⟨?_, ?_, ?_⟩
    · rw [hspec.keyboard, hsame]
      exact h.keyboard
    · rw [hspec.consumer, hsame]
      exact h.consumer
    · rw [hbuttons, hsame]
      exact h.buttons

theorem Forwards.deliverReport (h : dongle.Forwards) (host : RelayHost) {report : Bytes}
    (hreport : IsRelayReport config report) : (dongle.deliverReport host report).Forwards := by
  rw [RelayDongle.deliverReport]
  split_ifs with hmouse hkeyboard
  · exact h.deliverPointer host report
  · exact h.deliverKeyboard host hkeyboard
  · exact h.deliverConsumer host (hreport.consumer hmouse hkeyboard)

theorem Forwards.deliver (h : dongle.Forwards) (host : RelayHost) (bytes : Bytes) :
    (dongle.deliver host bytes).Forwards :=
  run_invariant_forall (fun _ _ hforwards hreport => hforwards.deliverReport host hreport) h
    (longestWhole_relayReports config bytes).whole

/-! ## Refused reports -/

/-- The record of the keyboard or else of the consumer reports. -/
def record (dongle : RelayDongle config) (reportId : UInt8) : Bytes :=
  if reportId = zmkHidReportIdKeyboard then dongle.deliveredKeyboard else dongle.deliveredConsumer

/-- The sink is called for a report and refuses it. -/
def Refuses (dongle : RelayDongle config) (host : RelayHost) (report : Bytes) : Prop :=
  (dongle.deliverReport host report).calls = dongle.calls ++ [⟨report, false, false⟩]

/-- A state report is offered iff it is not the record of its kind, and only an accepted
one becomes it. What the dongle keeps of the other reports stays. -/
structure HandlesState (dongle : RelayDongle config) (host : RelayHost) (report : Bytes)
    (after : RelayDongle config) : Prop where
  known : report = dongle.record (byteAt report 0) → after = dongle
  offered : let accepted := host.sink dongle.calls report false
    report ≠ dongle.record (byteAt report 0) →
      after.calls = dongle.calls ++ [⟨report, false, accepted⟩] ∧
        after.record (byteAt report 0) =
          if accepted then report else dongle.record (byteAt report 0)
  keyboard : byteAt report 0 ≠ zmkHidReportIdKeyboard →
    after.deliveredKeyboard = dongle.deliveredKeyboard
  consumer : byteAt report 0 = zmkHidReportIdKeyboard →
    after.deliveredConsumer = dongle.deliveredConsumer
  pointer : after.deliveredButtons = dongle.deliveredButtons ∧
    after.pointerTracks = dongle.pointerTracks ∧ after.pointerHeardMs = dongle.pointerHeardMs

theorem deliverReport_state {report : Bytes} (hid : byteAt report 0 ≠ zmkHidReportIdMouse)
    (dongle : RelayDongle config) (host : RelayHost) :
    HandlesState dongle host report (dongle.deliverReport host report) := by
  rw [RelayDongle.deliverReport, if_neg hid]
  by_cases hkeyboard : byteAt report 0 = zmkHidReportIdKeyboard
  · rw [if_pos hkeyboard, deliverKeyboard_spec]
    have hrecord : ∀ state : RelayDongle config,
        state.record (byteAt report 0) = state.deliveredKeyboard := fun _ => if_pos hkeyboard
    refine ⟨?_, ?_, fun hother => absurd hkeyboard hother, fun _ => ?_, ?_⟩
    · rw [hrecord]
      exact fun hsame => if_pos hsame
    · simp only [hrecord]
      intro hnews
      rw [if_neg hnews]
      exact ⟨rfl, rfl⟩
    · split_ifs <;> rfl
    · split_ifs <;> exact ⟨rfl, rfl, rfl⟩
  · rw [if_neg hkeyboard, deliverConsumer_spec]
    have hrecord : ∀ state : RelayDongle config,
        state.record (byteAt report 0) = state.deliveredConsumer := fun _ => if_neg hkeyboard
    refine ⟨?_, ?_, fun _ => ?_, fun hother => absurd hother hkeyboard, ?_⟩
    · rw [hrecord]
      exact fun hsame => if_pos hsame
    · simp only [hrecord]
      intro hnews
      rw [if_neg hnews]
      exact ⟨rfl, rfl⟩
    · split_ifs <;> rfl
    · split_ifs <;> exact ⟨rfl, rfl, rfl⟩

/-- Each whole report is handled by its kind. -/
structure Handles (dongle : RelayDongle config) (host : RelayHost) (report : Bytes) : Prop where
  state : byteAt report 0 ≠ zmkHidReportIdMouse →
    HandlesState dongle host report (dongle.deliverReport host report)
  pointer : byteAt report 0 = zmkHidReportIdMouse →
    HandlesPointer dongle host report (dongle.deliverReport host report)

theorem handles (dongle : RelayDongle config) (host : RelayHost) (report : Bytes) :
    dongle.Handles host report where
  state hid := deliverReport_state hid dongle host
  pointer hid := by
    rw [RelayDongle.deliverReport, if_pos hid]
    exact deliverPointer_spec dongle host report

theorem Forwards.record_last (h : dongle.Forwards) {report : Bytes}
    (hreport : IsRelayReport config report) (hid : byteAt report 0 ≠ zmkHidReportIdMouse) :
    ((RelayDongle.boot config).record (byteAt report 0) ::
      acceptedReports (byteAt report 0) dongle.calls).getLast? =
        some (dongle.record (byteAt report 0)) := by
  by_cases hkeyboard : byteAt report 0 = zmkHidReportIdKeyboard
  · rw [record, record, if_pos hkeyboard, if_pos hkeyboard, hkeyboard]
    exact h.keyboard.last
  · have hconsumer := hreport.consumer hid hkeyboard
    rw [record, record, if_neg hkeyboard, if_neg hkeyboard, hconsumer]
    exact h.consumer.last

/-- A refused report leaves its record unchanged and, until the sink takes another report
of its kind, is offered again. -/
structure RefusedStaysNews (dongle : RelayDongle config) (host : RelayHost) : Prop where
  unchanged : ∀ report, IsRelayReport config report → byteAt report 0 ≠ zmkHidReportIdMouse →
    dongle.Refuses host report →
    (dongle.deliverReport host report).record (byteAt report 0) = dongle.record (byteAt report 0)
  again : ∀ report, IsRelayReport config report → byteAt report 0 ≠ zmkHidReportIdMouse →
    dongle.Refuses host report →
    ∀ later : List Bytes, (∀ other ∈ later, IsRelayReport config other) →
      let state := run (RelayDongle.deliverReport host) (dongle.deliverReport host report) later
      acceptedReports (byteAt report 0) state.calls =
        acceptedReports (byteAt report 0) dongle.calls →
      ∃ accepted, (state.deliverReport host report).calls =
        state.calls ++ [⟨report, false, accepted⟩]

/-- A refused report is not the record, and does not become it. -/
theorem Refuses.record {host : RelayHost} {report : Bytes} (h : dongle.Refuses host report)
    (hid : byteAt report 0 ≠ zmkHidReportIdMouse) :
    report ≠ dongle.record (byteAt report 0) ∧
      (dongle.deliverReport host report).record (byteAt report 0) =
        dongle.record (byteAt report 0) := by
  have hspec := deliverReport_state hid dongle host
  have hnews : report ≠ dongle.record (byteAt report 0) := by
    intro hsame
    rw [Refuses, hspec.known hsame] at h
    exact absurd (congrArg List.length h) (by simp)
  obtain ⟨hcalls, hrecord⟩ := hspec.offered hnews
  refine ⟨hnews, hrecord.trans (if_neg fun htaken => ?_)⟩
  rw [Refuses, hcalls, htaken] at h
  exact absurd h (by simp)

theorem Forwards.refusedStaysNews (h : dongle.Forwards) (host : RelayHost) :
    dongle.RefusedStaysNews host where
  unchanged _ _ hid hrefused := (hrefused.record hid).2
  again report hreport hid hrefused later hlater hnone := by
    set state := run (RelayDongle.deliverReport host) (dongle.deliverReport host report) later
    have hstate : state.Forwards :=
      run_invariant_forall (fun _ _ hforwards hother => hforwards.deliverReport host hother)
        (h.deliverReport host hreport) hlater
    have hlast := hstate.record_last hreport hid
    rw [hnone, h.record_last hreport hid, Option.some_inj] at hlast
    have hspec := deliverReport_state hid state host
    exact ⟨_, (hspec.offered (hlast ▸ (hrefused.record hid).1)).1⟩

/-! ## Every run -/

/-- For any payloads, sink and clock: the loop reads within a payload and delivers the
longest prefix of whole reports, each offered iff it has news, state reports the sink
takes change, each record is the last of them, and what was refused is offered again. -/
theorem relay_forwards_once (config : ReplyConfig) (host : RelayHost) (payloads : List Bytes) :
    let dongle := run (RelayDongle.deliver host) (RelayDongle.boot config) payloads
    (∀ bytes beyond : Bytes, LongestWhole config bytes (relayReports config bytes) ∧
      dongle.deliverFrom host (bytes ++ beyond) bytes.length 0 =
        some (run (RelayDongle.deliverReport host) dongle (relayReports config bytes))) ∧
    (∀ (state : RelayDongle config) (report : Bytes), IsRelayReport config report →
      state.Handles host report) ∧
    dongle.Forwards ∧ dongle.RefusedStaysNews host := by
  intro dongle
  have h : dongle.Forwards :=
    run_invariant (fun _ bytes hforwards => hforwards.deliver host bytes)
      (Forwards.boot config) payloads
  exact ⟨fun bytes beyond => ⟨longestWhole_relayReports config bytes,
    deliverFrom_eq host [] bytes beyond dongle⟩, fun state report _ => state.handles host report, h,
    h.refusedStaysNews host⟩

/-- A key is held, as a whole keyboard report. -/
def pressReport : Bytes := [zmkHidReportIdKeyboard, 0, 0, 4, 0, 0, 0, 0, 0]

/-- The sink refuses its first report. -/
def refusesFirst : RelayHost where
  sink calls _ _ := 0 < calls.length
  uptimeMs _ := 100
  lossDetectMs := 256

/-- The press is refused, its copy with a byte behind it is taken, and a third is no news. -/
theorem relay_forwards_once_sample :
    let dongle := run (RelayDongle.deliver refusesFirst) (boot sampleReplyConfig)
      [pressReport, pressReport ++ [9]]
    dongle.calls = [⟨pressReport, false, false⟩, ⟨pressReport, false, true⟩] ∧
      dongle.deliveredKeyboard = pressReport ∧
      dongle.deliverReport refusesFirst pressReport = dongle := by
  intro dongle
  obtain ⟨-, hhandles, hforwards, -⟩ := relay_forwards_once sampleReplyConfig refusesFirst
    [pressReport, pressReport ++ [9]]
  have hcalls : dongle.calls = [⟨pressReport, false, false⟩, ⟨pressReport, false, true⟩] := by
    decide +kernel
  have hrecord : dongle.deliveredKeyboard = pressReport := by
    have hlast := hforwards.keyboard.last
    rw [hcalls] at hlast
    exact (Option.some.inj hlast).symm
  exact ⟨hcalls, hrecord,
    ((hhandles dongle pressReport (by decide)).state (by decide)).known hrecord.symm⟩

end RelayDongle

end SplitEsb
