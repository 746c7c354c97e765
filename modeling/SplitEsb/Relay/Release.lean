import SplitEsb.Relay.Forward
import SplitEsb.Relay.Pause

/-! # A paused relay releases
With nothing staged left in the queue, what a paused relay writes is released states and
the totals it wrote last. A dongle that holds these totals forwards no motion. -/

namespace SplitEsb

open ByteString Transition

variable {config : ReplyConfig}

/-! ## Payloads that release -/

/-- An all-released keyboard or consumer report, or a mouse report without buttons that
carries these totals. -/
def IsReleased (config : ReplyConfig) (totals : PointerTotals Int16) (report : Bytes) : Prop :=
  report = releasedKeyboard config ∨ report = releasedConsumer config ∨
    report = (MouseReportBody.mk 0 totals).encode

instance (config : ReplyConfig) (totals : PointerTotals Int16) (report : Bytes) :
    Decidable (IsReleased config totals report) :=
  inferInstanceAs (Decidable (_ ∨ _ ∨ _))

def HoldsReleased (config : ReplyConfig) (totals : PointerTotals Int16) (data : Bytes) : Prop :=
  ∃ reports : List Bytes, data = reports.flatten ∧
    ∀ report ∈ reports, IsReleased config totals report

theorem isRelayReport_releasedKeyboard (config : ReplyConfig) :
    IsRelayReport config (releasedKeyboard config) where
  length_pos := Nat.succ_pos _
  length := by
    have hpos := config.keyboardReport_pos
    change _ = config.keyboardReportLength
    rw [releasedKeyboard, List.length_cons, List.length_replicate]
    omega

theorem isRelayReport_releasedConsumer (config : ReplyConfig) :
    IsRelayReport config (releasedConsumer config) where
  length_pos := Nat.succ_pos _
  length := by
    have hpos := config.consumerReport_pos
    change _ = config.consumerReportLength
    rw [releasedConsumer, List.length_cons, List.length_replicate]
    omega

theorem IsReleased.isRelayReport {totals : PointerTotals Int16} {report : Bytes}
    (h : IsReleased config totals report) : IsRelayReport config report := by
  rcases h with rfl | rfl | rfl
  · exact isRelayReport_releasedKeyboard config
  · exact isRelayReport_releasedConsumer config
  · exact isRelayReport_encode _

/-! ## On the dongle -/

namespace RelayDongle

variable {dongle : RelayDongle config} {totals : PointerTotals Int16}

/-- The valid tracks stand at these totals. -/
def StandsAt (totals : PointerTotals Int16) (dongle : RelayDongle config) : Prop :=
  ∀ axis, (dongle.pointerTracks.get axis).valid = true →
    (dongle.pointerTracks.get axis).lastTotal.toInt16 = totals.get axis

/-- The record of this kind of reports is the released one. -/
def HasReleased (dongle : RelayDongle config) (reportId : UInt8) : Prop :=
  if reportId = zmkHidReportIdMouse then dongle.deliveredButtons = 0
  else if reportId = zmkHidReportIdKeyboard then
    dongle.deliveredKeyboard = releasedKeyboard config
  else dongle.deliveredConsumer = releasedConsumer config

/-- Only releases without motion were forwarded, and unless the sink refused one, each of
the reports released its kind. -/
structure ForwardsRelease (totals : PointerTotals Int16) (before after : RelayDongle config)
    (reports : List Bytes) : Prop where
  stands : after.StandsAt totals
  keeps : ∀ reportId, before.HasReleased reportId → after.HasReleased reportId
  calls : ∃ new, after.calls = before.calls ++ new ∧
    (∀ call ∈ new, IsReleased config ⟨0, 0, 0, 0⟩ call.report) ∧
    ((∀ call ∈ new, call.accepted = true) →
      ∀ report ∈ reports, after.HasReleased (byteAt report 0))

/-- A kind stays released while its record stays or becomes the released one. -/
theorem HasReleased.keep {before after : RelayDongle config} {reportId : UInt8}
    (h : before.HasReleased reportId)
    (hbuttons : after.deliveredButtons = before.deliveredButtons ∨ after.deliveredButtons = 0)
    (hkeyboard : after.deliveredKeyboard = before.deliveredKeyboard ∨
      after.deliveredKeyboard = releasedKeyboard config)
    (hconsumer : after.deliveredConsumer = before.deliveredConsumer ∨
      after.deliveredConsumer = releasedConsumer config) : after.HasReleased reportId := by
  rw [HasReleased] at h ⊢
  split_ifs at h ⊢
  · exact hbuttons.elim (·.trans h) id
  · exact hkeyboard.elim (·.trans h) id
  · exact hconsumer.elim (·.trans h) id

theorem ForwardsRelease.append {before between after : RelayDongle config}
    {front back : List Bytes} (hfront : ForwardsRelease totals before between front)
    (hback : ForwardsRelease totals between after back) :
    ForwardsRelease totals before after (front ++ back) := by
  obtain ⟨first, hfirst, hreleased, htaken⟩ := hfront.calls
  obtain ⟨second, hsecond, hreleased', htaken'⟩ := hback.calls
  refine ⟨hback.stands, fun reportId h => hback.keeps _ (hfront.keeps _ h), first ++ second, ?_, ?_,
    fun hall report hmem => ?_⟩
  · rw [hsecond, hfirst, List.append_assoc]
  · exact fun call hcall => (List.mem_append.mp hcall).elim (hreleased call) (hreleased' call)
  · rcases List.mem_append.mp hmem with hmem | hmem
    · refine hback.keeps _ (htaken (fun call hcall => hall call ?_) report hmem)
      exact List.mem_append_left _ hcall
    · exact htaken' (fun call hcall => hall call (List.mem_append_right _ hcall)) report hmem

/-- Nothing is forwarded of a report whose kind is released already. -/
theorem ForwardsRelease.silent {before after : RelayDongle config} {report : Bytes}
    (hstands : after.StandsAt totals)
    (hkeeps : ∀ reportId, before.HasReleased reportId → after.HasReleased reportId)
    (hcalls : after.calls = before.calls) (hreleased : after.HasReleased (byteAt report 0)) :
    ForwardsRelease totals before after [report] := by
  refine ⟨hstands, hkeeps, ⟨[], hcalls.trans (List.append_nil _).symm, List.forall_mem_nil _,
    fun _ made hmem => ?_⟩⟩
  rw [List.mem_singleton.mp hmem]
  exact hreleased

/-- One release is forwarded, and its kind is released when the sink took it. -/
theorem ForwardsRelease.offer {before after : RelayDongle config} {report : Bytes}
    {call : SinkCall} (hstands : after.StandsAt totals)
    (hkeeps : ∀ reportId, before.HasReleased reportId → after.HasReleased reportId)
    (hcalls : after.calls = before.calls ++ [call])
    (hcall : IsReleased config ⟨0, 0, 0, 0⟩ call.report)
    (htaken : call.accepted = true → after.HasReleased (byteAt report 0)) :
    ForwardsRelease totals before after [report] := by
  refine ⟨hstands, hkeeps, ⟨[call], hcalls, fun made hmem => ?_, fun hall made hmem => ?_⟩⟩
  · rw [List.mem_singleton.mp hmem]
    exact hcall
  · rw [List.mem_singleton.mp hmem]
    exact htaken (hall call (List.mem_singleton_self call))

/-! ### Mouse reports -/

/-- The total a track stands at moves it nowhere, a track not valid adopts it. -/
theorem shortDelta_still {track : EsbMotionTrack} {total : Int16}
    (h : track.valid = true → track.lastTotal.toInt16 = total) :
    (shortDelta track total).2 = 0 ∧ (shortDelta track total).1.lastTotal.toInt16 = total := by
  by_cases hvalid : track.valid = true
  · have hgap : (total - track.lastTotal.toInt16).toInt32 = 0 := by
      rw [h hvalid, Int16.sub_self]
      rfl
    rw [shortDelta, if_pos hvalid, esbMotionTrackShortDelta, if_pos hvalid, hgap,
      esbMotionTrackGap, if_pos (.inl rfl)]
    exact ⟨rfl, by rw [esbMotionTotalAdd, Int32.add_zero, h hvalid]⟩
  · rw [shortDelta, if_neg hvalid, esbMotionTrackDelta, if_neg hvalid]
    exact ⟨rfl, Int16.toInt16_toInt32 total⟩

theorem StandsAt.forget (h : dongle.StandsAt totals) (host : RelayHost) :
    (dongle.forgetPointerAfterSilence host).StandsAt totals := by
  intro axis hvalid
  rw [forgetPointerAfterSilence] at hvalid ⊢
  dsimp only at hvalid ⊢
  split_ifs at hvalid ⊢
  · rw [PointerTotals.get_map] at hvalid
    cases hvalid
  · exact h axis hvalid

/-- At the totals a report carries, no axis moves. -/
theorem StandsAt.moved (h : dongle.StandsAt totals) (buttons : UInt8) :
    (pointerTotalsToDeltas dongle.pointerTracks (MouseReportBody.mk buttons totals).encode).map
        Prod.snd = ⟨0, 0, 0, 0⟩ ∧
      ∀ axis, (((pointerTotalsToDeltas dongle.pointerTracks
        (MouseReportBody.mk buttons totals).encode).map Prod.fst).get axis).lastTotal.toInt16 =
          totals.get axis := by
  have haxis : ∀ axis, shortDelta (dongle.pointerTracks.get axis)
      (shortTotalAt (MouseReportBody.mk buttons totals).encode axis) =
        shortDelta (dongle.pointerTracks.get axis) (totals.get axis) := by
    intro axis
    rw [MouseReportBody.shortTotalAt_encode]
  have hstill : ∀ axis, _ := fun axis => shortDelta_still (h axis)
  constructor
  · rw [pointerTotalsToDeltas, PointerTotals.ofFn, PointerTotals.map]
    simp only [haxis, hstill]
  · intro axis
    rw [PointerTotals.get_map, pointerTotalsToDeltas, PointerTotals.get_ofFn, haxis]
    exact (hstill axis).2

/-- A mouse report without buttons is forwarded as one without motion, if at all. -/
theorem StandsAt.deliverPointer (h : dongle.StandsAt totals) (host : RelayHost) :
    ForwardsRelease totals dongle
      (dongle.deliverPointer host (MouseReportBody.mk 0 totals).encode)
      [(MouseReportBody.mk 0 totals).encode] := by
  obtain ⟨hdeltas, htotals⟩ := (h.forget host).moved 0
  have hstands := h.forget host
  have hcalls : (dongle.forgetPointerAfterSilence host).calls = dongle.calls := rfl
  have hkept : ∀ reportId, (dongle.forgetPointerAfterSilence host).HasReleased reportId ↔
      dongle.HasReleased reportId := fun _ => Iff.rfl
  have hbuttons : byteAt (MouseReportBody.mk 0 totals).encode esbHidRelayPointerButtonsOffset = 0 :=
    rfl
  rw [RelayDongle.deliverPointer, offerPointer]
  generalize dongle.forgetPointerAfterSilence host = heard at *
  dsimp only
  rw [hdeltas, hbuttons]
  dsimp only
  split_ifs with hnews htaken
  · refine .offer (fun axis _ => htotals axis) (fun reportId h => ?_)
      (congrArg (· ++ [_]) hcalls) (.inr (.inr rfl)) fun _ => rfl
    exact ((hkept reportId).mpr h).keep (.inr rfl) (.inl rfl) (.inl rfl)
  · refine .offer hstands (fun reportId h => ?_) (congrArg (· ++ [_]) hcalls) (.inr (.inr rfl))
      fun hall => absurd hall htaken
    exact ((hkept reportId).mpr h).keep (.inl rfl) (.inl rfl) (.inl rfl)
  · have hreleased : heard.deliveredButtons = 0 := by
      simp only [bne_self_eq_false, Bool.or_self, Bool.false_or, bne_iff_ne, ne_eq, not_not] at hnews
      exact hnews.symm
    refine .silent (fun axis _ => htotals axis) (fun reportId h => ?_) hcalls hreleased
    exact ((hkept reportId).mpr h).keep (.inl rfl) (.inl rfl) (.inl rfl)

/-! ### Every report -/

theorem StandsAt.deliverKeyboard (h : dongle.StandsAt totals) (host : RelayHost) :
    ForwardsRelease totals dongle (dongle.deliverKeyboard host (releasedKeyboard config))
      [releasedKeyboard config] := by
  have hrecord : ∀ after : RelayDongle config,
      after.HasReleased (byteAt (releasedKeyboard config) 0) ↔
        after.deliveredKeyboard = releasedKeyboard config := fun _ => Iff.rfl
  rw [deliverKeyboard_spec]
  split_ifs with hsame htaken
  · exact .silent h (fun _ => id) rfl ((hrecord _).mpr hsame.symm)
  · exact .offer h (fun _ h => h.keep (.inl rfl) (.inr rfl) (.inl rfl)) rfl (.inl rfl) fun _ => (hrecord _).mpr rfl
  · exact .offer h (fun _ h => h.keep (.inl rfl) (.inl rfl) (.inl rfl)) rfl (.inl rfl)
      fun hall => absurd hall htaken

theorem StandsAt.deliverConsumer (h : dongle.StandsAt totals) (host : RelayHost) :
    ForwardsRelease totals dongle (dongle.deliverConsumer host (releasedConsumer config))
      [releasedConsumer config] := by
  have hrecord : ∀ after : RelayDongle config,
      after.HasReleased (byteAt (releasedConsumer config) 0) ↔
        after.deliveredConsumer = releasedConsumer config := fun _ => Iff.rfl
  rw [deliverConsumer_spec]
  split_ifs with hsame htaken
  · exact .silent h (fun _ => id) rfl ((hrecord _).mpr hsame.symm)
  · exact .offer h (fun _ h => h.keep (.inl rfl) (.inl rfl) (.inr rfl)) rfl (.inr (.inl rfl)) fun _ => (hrecord _).mpr rfl
  · exact .offer h (fun _ h => h.keep (.inl rfl) (.inl rfl) (.inl rfl)) rfl (.inr (.inl rfl))
      fun hall => absurd hall htaken

theorem StandsAt.deliverReport (h : dongle.StandsAt totals) (host : RelayHost) {report : Bytes}
    (hreport : IsReleased config totals report) :
    ForwardsRelease totals dongle (dongle.deliverReport host report) [report] := by
  rcases hreport with rfl | rfl | rfl
  · exact h.deliverKeyboard host
  · exact h.deliverConsumer host
  · exact h.deliverPointer host

theorem StandsAt.deliverReports (host : RelayHost) {reports : List Bytes}
    (h : dongle.StandsAt totals) (hreports : ∀ report ∈ reports, IsReleased config totals report) :
    ForwardsRelease totals dongle (run (RelayDongle.deliverReport host) dongle reports) reports := by
  induction reports generalizing dongle with
  | nil => exact ⟨h, fun _ => id, ⟨[], (List.append_nil _).symm, List.forall_mem_nil _,
      fun _ => List.forall_mem_nil _⟩⟩
  | cons report reports ih =>
      obtain ⟨hfirst, hrest⟩ := List.forall_mem_cons.mp hreports
      have hreport := h.deliverReport host hfirst
      exact hreport.append (ih hreport.stands hrest)

/-- A dongle that stands at the totals of a releasing payload forwards the release only. -/
theorem StandsAt.deliver (h : dongle.StandsAt totals) (host : RelayHost) {data : Bytes}
    (hdata : HoldsReleased config totals data) :
    ForwardsRelease totals dongle (dongle.deliver host data) (relayReports config data) := by
  obtain ⟨reports, rfl, hreports⟩ := hdata
  have hsplit : relayReports config reports.flatten = reports :=
    relayReports_flatten fun report hmem => (hreports report hmem).isRelayReport
  have hrun := h.deliverReports host hreports
  rw [RelayDongle.deliver, hsplit]
  exact hrun

end RelayDongle

/-! ## On the central -/

/-- The payload comes from a control latch. -/
def AckWrite.fromControl (write : AckWrite) : Bool :=
  match write.source with
  | .control _ _ => true
  | _ => false

/-- What a paused relay appends has no buttons and the totals written last. -/
theorem RelayPointer.appendedBody_paused {pointer : RelayPointer} (h : pointer.active = false) :
    pointer.appendedBody false = ⟨0, pointer.writtenBody.totals⟩ := by
  simp [appendedBody, stampTotals, reportButtons, h]

namespace ReplyLink

variable {start link : ReplyLink config} {pipe : ℕ}

/-- A payload for a relay pipe, no control and past what was staged by the start, releases
everything and carries the totals written last. -/
def Releases (start : ReplyLink config) (front : List AckWrite) (write : AckWrite) : Prop :=
  config.relayPipe write.pipe = true → write.fromControl = false →
    (start.staged write.pipe).length ≤ write.leftBefore →
      HoldsReleased config
        (lastPointer config (front.filter fun made => config.relayPipe made.pipe)).totals write.data

def ReleasesSince (start link : ReplyLink config) : Prop :=
  ∀ front write back, link.writes = front ++ write :: back →
    start.writes.length ≤ front.length → Releases start front write

theorem ReleasesSince.refl (start : ReplyLink config) : ReleasesSince start start := by
  intro front write back hwrites hpast
  rw [hwrites, List.length_append, List.length_cons] at hpast
  omega

theorem ReleasesSince.write {after : ReplyLink config} {write : AckWrite}
    (h : ReleasesSince start link) (hwrites : after.writes = link.writes ++ [write])
    (hwrite : Releases start link.writes write) : ReleasesSince start after := by
  intro front made back hsplit hpast
  rw [hwrites] at hsplit
  rcases List.eq_nil_or_concat back with rfl | ⟨back, last, rfl⟩
  · obtain ⟨rfl, hsame⟩ := List.append_inj' hsplit rfl
    rw [List.singleton_inj.mp hsame.symm]
    exact hwrite
  · rw [List.concat_eq_append, ← List.cons_append, ← List.append_assoc] at hsplit
    exact h front made back (List.append_inj' hsplit rfl).1 hpast

/-- Released states, and a report without buttons at the totals written last. -/
theorem holdsReleased_idle (hpaused : link.pointer.active = false)
    (hrelay : config.relayPipe pipe = true) {latched : Bytes}
    (hlatched : latched = [] ∨ latched = releasedReports config) :
    HoldsReleased config link.pointer.writtenBody.totals
      (latched ++ (link.appendPointer pipe latched false).getD []) := by
  obtain ⟨states, rfl, hstates⟩ : ∃ states : List Bytes, latched = states.flatten ∧
      ∀ report ∈ states, IsReleased config link.pointer.writtenBody.totals report := by
    rcases hlatched with rfl | rfl
    · exact ⟨[], rfl, nofun⟩
    · refine ⟨[releasedKeyboard config, releasedConsumer config], by simp [releasedReports], ?_⟩
      simp [IsReleased]
  rcases appendPointer_cases link hrelay states.flatten false with hnone | hsome
  · exact ⟨states, by rw [hnone, Option.getD_none, List.append_nil], hstates⟩
  · refine ⟨states ++ [(MouseReportBody.mk 0 link.pointer.writtenBody.totals).encode], ?_, ?_⟩
    · rw [hsome, RelayPointer.appendedBody_paused hpaused, Option.getD_some, List.flatten_append,
        List.flatten_singleton]
    · intro report hmem
      rcases List.mem_append.mp hmem with hmem | hmem
      · exact hstates report hmem
      · exact .inr (.inr (List.mem_singleton.mp hmem))

/-- What holds of the reverse channel while the relay is paused. -/
structure Hushed (start link : ReplyLink config) : Prop where
  last : link.KeepsLast
  paused : link.pointer.active = false
  latched : ∀ pipe ∈ relayPipes config, ∀ call ∈ (link.idle pipe).history.getLast?,
    call.data = releasedReports config
  staged : ∀ pipe, config.relayPipe pipe = true → link.staged pipe = start.staged pipe
  writes : ReleasesSince start link

/-- A turn writes a payload that releases, or nothing. -/
theorem Hushed.write (h : Hushed start link) (hpipe : pipe < config.pipeCount) (fifo : AckFifo)
    {write : AckWrite} (hwrites : (replyTo fifo link pipe).writes = link.writes ++ [write]) :
    Releases start link.writes write := by
  revert hwrites
  refine replyTo_cases (motive := fun after => after.writes = link.writes ++ [write] →
    Releases start link.writes write) ?_ ?_ ?_
  · intro kind slot _ hwrites _ hcontrol
    rw [writeControl_eq] at hwrites
    rw [← List.singleton_inj.mp (List.append_cancel_left hwrites)] at hcontrol
    cases hcontrol
  · intro _ htaken hwrites hrelay _ hleft
    rw [writePacked_eq] at hwrites
    rw [← List.singleton_inj.mp (List.append_cancel_left hwrites)] at hrelay hleft
    have hqueue := (h.last.sound pipe).queue.length_queue
    have hstaged := h.staged pipe hrelay
    have hle := taken_packed_le link pipe
    change (start.staged pipe).length ≤ link.left pipe at hleft
    rw [← hstaged] at hleft
    omega
  · intro _ _ hwrites hrelay _ _
    obtain ⟨hkept, -, hpointer, -⟩ := freshIdleReply_keeps link pipe
    have hcalls := calls_freshIdleReply link pipe
    have hcells := (h.last.sound pipe).cells.freshIdleReply pipe
    rw [writeIdleReply] at hwrites
    dsimp only at hwrites
    rw [writeFresh_eq] at hwrites
    dsimp only at hwrites
    split at hwrites
    · rw [hkept] at hwrites
      exact absurd (congrArg List.length hwrites) (by simp)
    · rw [hkept] at hwrites
      have hwrite := List.singleton_inj.mp (List.append_cancel_left hwrites)
      rw [← hwrite] at hrelay ⊢
      have hlatched : (link.freshIdleReply pipe).1.idleBytes pipe (link.freshIdleReply pipe).2 = [] ∨
          (link.freshIdleReply pipe).1.idleBytes pipe (link.freshIdleReply pipe).2 =
            releasedReports config := by
        refine (idleBytes_last hcells fun slot hslot => peek_of_fresh hslot).imp_right ?_
        rintro ⟨call, hcall, hbytes⟩
        rw [hcalls.2] at hcall
        rw [hbytes]
        exact h.latched pipe (RelayCentral.mem_relayPipes.mpr ⟨hpipe, hrelay⟩) call hcall
      have hreleased := holdsReleased_idle (hpointer ▸ h.paused) hrelay hlatched
      rw [hpointer, h.last.written] at hreleased
      exact hreleased

theorem Hushed.replyTo (h : Hushed start link) (hpipe : pipe < config.pipeCount) (fifo : AckFifo) :
    Hushed start (replyTo fifo link pipe) where
  last := h.last.replyTo fifo pipe
  paused := (pointer_replyTo link fifo pipe).1.trans h.paused
  latched other hother := by
    rw [(RelayCentral.sameCalls_replyTo link fifo pipe other).2]
    exact h.latched other hother
  staged other hrelay := by
    rw [staged_replyTo]
    exact h.staged other hrelay
  writes := by
    rcases writesOnce_replyTo (h.last.sound pipe).cells (h.last.sound pipe).queue fifo with
      hsame | ⟨_, _, -, -, hwrites⟩
    · intro front write back hsplit
      exact h.writes front write back (hsame ▸ hsplit)
    · exact h.writes.write hwrites (h.write hpipe fifo hwrites)

theorem Hushed.rxDone (h : Hushed start link) (fifo : AckFifo) (pipesAcked : UInt8) :
    Hushed start (link.rxDone fifo pipesAcked) :=
  rxDone_turns (Hushed start) (fun _ _ => True) (fun _ _ _ _ _ => trivial)
    (fun _ _ hpipe _ hlink => hlink.replyTo hpipe fifo) h fun _ _ => trivial

end ReplyLink

namespace RelayCentral

open ReplyLink

/-- The endpoint is not the relay, `follow_endpoint` returned, and no call is under way. -/
structure Paused (central : RelayCentral config) : Prop where
  active : central.link.pointer.active = false
  returned : central.work.switching = false
  calls : ∀ thread, central.calls thread = .idle

/-- Until the next endpoint change. -/
structure Silent (start : ReplyLink config) (central : RelayCentral config) : Prop where
  inv : central.Inv
  paused : central.Paused
  staged : ∀ pipe, config.relayPipe pipe = true → central.link.staged pipe = start.staged pipe
  writes : ReleasesSince start central.link

variable {start : ReplyLink config} {central : RelayCentral config}

theorem Paused.silent (hpaused : central.Paused) (h : central.Inv) :
    Silent central.link central := ⟨h, hpaused, fun _ _ => rfl, .refl _⟩

theorem switching_of_owes {pipe : ℕ} {work : RelayWork} (h : work.Owes pipe) :
    work.switching = true := by
  cases work with
  | idle => exact h.elim
  | reset => rfl
  | latch => exact h
  | latching => exact h.1
  | filling => exact h.1

theorem Silent.hushed (h : Silent start central) : Hushed start central.link where
  last := h.inv.last
  paused := h.paused.active
  latched pipe hpipe := by
    have hpaused : central.link.pointer.paused = true := by
      simpa [RelayPointer.active] using h.paused.active
    refine (h.inv.latched pipe hpipe).last hpaused fun howes => ?_
    have howed := switching_of_owes howes
    rw [h.paused.returned] at howed
    cases howed
  staged := h.staged
  writes := h.writes

/-- A step that stages and writes nothing. -/
theorem Silent.keep {after : RelayCentral config} (h : Silent start central) (hinv : after.Inv)
    (hpaused : after.Paused) (hstaged : after.link.staged = central.link.staged)
    (hwrites : after.link.writes = central.link.writes) : Silent start after where
  inv := hinv
  paused := hpaused
  staged pipe hrelay := by
    rw [hstaged]
    exact h.staged pipe hrelay
  writes front write back hsplit := h.writes front write back (hwrites ▸ hsplit)

theorem latchIdleReply_keeps (link : ReplyLink config) (pipe : ℕ) (data : Bytes) :
    (link.latchIdleReply pipe data).pointer = link.pointer ∧
      (link.latchIdleReply pipe data).staged = link.staged ∧
      (link.latchIdleReply pipe data).writes = link.writes := by
  rw [latchIdleReply]
  split_ifs <;> exact ⟨rfl, rfl, rfl⟩

/-- The keepalive latches what is released, and leaves the rest alone. -/
theorem Silent.workStep (h : Silent start central) {held : UInt8} {live : Bytes}
    (hlive : HoldsBoth config live) : Silent start (central.workStep held live) := by
  have hinv : (central.workStep held live).Inv := h.inv.workStep hlive
  obtain ⟨hactive, hreturned, hcalls⟩ := h.paused
  rw [RelayCentral.workStep] at hinv ⊢
  split at hinv
  · exact h
  · next hwork =>
      rw [hwork] at hreturned
      cases hreturned
  · next hwork =>
      rw [hwork] at hreturned
      exact h.keep hinv ⟨hactive, hreturned, hcalls⟩ rfl rfl
  · exact h.keep hinv ⟨hactive, rfl, hcalls⟩ rfl rfl
  · next switching active pipe pipes hwork =>
      rw [hwork] at hreturned
      obtain ⟨hpointer, hstaged, hwrites⟩ := latchIdleReply_keeps central.link pipe
        (if active then live else releasedReports config)
      exact h.keep hinv ⟨hpointer ▸ hactive, hreturned, hcalls⟩ hstaged hwrites
  · next hwork =>
      rw [hwork] at hreturned
      refine h.keep hinv ⟨hactive, ?_, hcalls⟩ rfl rfl
      dsimp only
      split_ifs <;> exact hreturned

/-- Nothing is staged elsewhere for a relay pipe. -/
theorem staged_elsewhere (link : ReplyLink config) {action : ReplyAction}
    (haction : Elsewhere config action)
    (hthread : ∀ pipesAcked fifo, action ≠ .rxDone pipesAcked fifo) {pipe : ℕ}
    (hrelay : config.relayPipe pipe = true) : (link.step action).staged pipe = link.staged pipe := by
  cases action with
  | put other data =>
      have hother : config.relayPipe other = false := haction
      have hne : pipe ≠ other := by
        rintro rfl
        exact absurd (hother.symm.trans hrelay) Bool.false_ne_true
      exact (Untouched.stagePut hne data : Untouched pipe link _).staged
  | count other =>
      have hother : config.relayPipe other = false := haction
      have hne : pipe ≠ other := by
        rintro rfl
        exact absurd (hother.symm.trans hrelay) Bool.false_ne_true
      exact (Untouched.stageCount hne : Untouched pipe link _).staged
  | latchControl other kind data =>
      change (link.latchControl other kind data).staged pipe = link.staged pipe
      rw [latchControl]
      split_ifs <;> rfl
  | controlStatement other kind => rfl
  | latchIdle other data => exact haction.elim
  | idleStatement other => exact haction.elim
  | pointer action => exact haction.elim
  | rxDone pipesAcked fifo => exact absurd rfl (hthread pipesAcked fifo)

theorem Silent.other (h : Silent start central) {action : ReplyAction}
    (haction : Elsewhere config action) :
    Silent start ({ central with link := central.link.step action } : RelayCentral config) := by
  have hinv := h.inv.other haction
  have hactive := (sameCalls_elsewhere central.link haction).2
  have hpaused : ({ central with link := central.link.step action } : RelayCentral config).Paused :=
    ⟨hactive.trans h.paused.active, h.paused.returned, h.paused.calls⟩
  rcases writes_thread central.link action with ⟨pipesAcked, fifo, rfl⟩ | ⟨hthread, hwrites⟩
  · have hserved : Hushed start (central.link.rxDone fifo pipesAcked) :=
      h.hushed.rxDone fifo pipesAcked
    exact ⟨hinv, hpaused, hserved.staged, hserved.writes⟩
  · refine ⟨hinv, hpaused, fun pipe hrelay => ?_, fun front write back hsplit => ?_⟩
    · exact (staged_elsewhere central.link haction hthread hrelay).trans (h.staged pipe hrelay)
    · exact h.writes front write back (hwrites ▸ hsplit)

theorem Silent.step (h : Silent start central) {action : RelayAction}
    (haction : action.Whole config) (hkept : ∀ paused, action ≠ .endpoint paused) :
    Silent start (central.step action) := by
  have hcalls := h.paused.calls
  cases action with
  | keycode thread =>
      change Silent start (central.keycode thread)
      rw [keycode, hcalls thread]
      dsimp only
      rw [h.paused.active, Bool.not_false, if_pos rfl]
      exact h
  | event thread event =>
      change Silent start (central.event thread event)
      rw [RelayCentral.event, hcalls thread]
      dsimp only
      rw [h.paused.active, Bool.not_false, if_pos rfl]
      exact h
  | call thread live =>
      change Silent start (central.call thread live)
      rw [call, hcalls thread]
      exact h
  | keepalive =>
      have hinv : central.keepalive.Inv := h.inv.keepalive
      change Silent start central.keepalive
      rw [keepalive] at hinv ⊢
      split at hinv
      · exact h.keep hinv ⟨h.paused.active, rfl, hcalls⟩ rfl rfl
      · exact h
  | endpoint paused => exact absurd rfl (hkept paused)
  | work held live => exact h.workStep haction
  | other action => exact h.other haction

/-- Between two endpoint changes, once `follow_endpoint` returned on the way out: past the
replies staged before, every payload for a relay pipe but the controls holds released
states and mouse reports without buttons at the totals written last, and a dongle whose
valid tracks stand there forwards only the release. -/
theorem paused_relay_releases (config : ReplyConfig) (before after : List RelayAction)
    (hbefore : ∀ action ∈ before, action.Whole config)
    (hafter : ∀ action ∈ after, action.Whole config ∧ ∀ paused, action ≠ .endpoint paused)
    (hpaused : (run step (boot config) before).Paused) :
    let start := run step (boot config) before
    ∀ front write back, (run step start after).link.writes = front ++ write :: back →
      start.link.writes.length ≤ front.length → config.relayPipe write.pipe = true →
      write.fromControl = false → (start.link.staged write.pipe).length ≤ write.leftBefore →
      let totals :=
        (lastPointer config (front.filter fun made => config.relayPipe made.pipe)).totals
      HoldsReleased config totals write.data ∧
        ∀ (host : RelayHost) (dongle : RelayDongle config), dongle.StandsAt totals →
          dongle.ForwardsRelease totals (dongle.deliver host write.data)
            (relayReports config write.data) := by
  intro start front write back hwrites hpast hrelay hcontrol hleft
  have hsilent : Silent start.link (run step start after) :=
    run_invariant_forall (fun _ _ hcentral haction => hcentral.step haction.1 haction.2)
      (hpaused.silent (.run config hbefore)) hafter
  have hreleased := hsilent.writes front write back hwrites hpast hrelay hcontrol hleft
  exact ⟨hreleased, fun host dongle hstands => hstands.deliver host hreleased⟩

/-! ### A run with motion -/

/-- A poll whose payload is taken. -/
def polledAlone : RelayAction := .other (.rxDone 1 fun _ _ _ => true)

/-- Two moves, each polled, before the endpoint changes and the released states are latched. -/
def movedThenPaused : List RelayAction :=
  [.event 0 ⟨inputEvTypeRel, inputRelX, 3, true⟩,
    .call 0 (releasedKeyboard sampleReplyConfig), .call 0 (releasedKeyboard sampleReplyConfig),
    polledAlone,
    .event 0 ⟨inputEvTypeRel, inputRelX, 5, true⟩,
    .call 0 (releasedKeyboard sampleReplyConfig), .call 0 (releasedKeyboard sampleReplyConfig),
    polledAlone, .endpoint true] ++
  List.replicate 29 (.work 0 (releasedReports sampleReplyConfig))

theorem whole_movedThenPaused : ∀ action ∈ movedThenPaused, action.Whole sampleReplyConfig := by
  have hcall : (RelayAction.call 0 (releasedKeyboard sampleReplyConfig)).Whole sampleReplyConfig :=
    isRelayReport_releasedKeyboard sampleReplyConfig
  intro action hmem
  rcases List.mem_append.mp hmem with hmem | hmem
  · simp only [List.mem_cons, List.not_mem_nil, or_false] at hmem
    rcases hmem with rfl | rfl | rfl | rfl | rfl | rfl | rfl | rfl | rfl <;>
      first | exact hcall | trivial
  · rw [List.eq_of_mem_replicate hmem]
    exact holdsBoth_released sampleReplyConfig

theorem paused_movedThenPaused :
    (run step (boot sampleReplyConfig) movedThenPaused).Paused where
  active := by decide +kernel
  returned := by decide +kernel
  calls thread := by
    cases thread <;> rfl

/-- The payloads of the two moves. -/
def movedWrites : List AckWrite :=
  [⟨0, .idle none, (MouseReportBody.mk 0 ⟨3, 0, 0, 0⟩).encode, true, 0, true⟩,
    ⟨0, .idle none, (MouseReportBody.mk 0 ⟨8, 0, 0, 0⟩).encode, true, 0, true⟩]

/-- The payload of the poll after the pause. -/
def pausedWrite : AckWrite :=
  ⟨0, .idle (some 0),
    releasedReports sampleReplyConfig ++ (MouseReportBody.mk 0 ⟨8, 0, 0, 0⟩).encode, true, 0, false⟩

theorem writes_movedThenPaused :
    (run step (boot sampleReplyConfig) movedThenPaused).link.writes = movedWrites ∧
      (run step (run step (boot sampleReplyConfig) movedThenPaused) [polledAlone]).link.writes =
        movedWrites ++ [pausedWrite] := by
  decide +kernel

theorem staged_movedThenPaused :
    ((run step (boot sampleReplyConfig) movedThenPaused).link.staged 0).length ≤ 0 := by
  decide +kernel

theorem whole_polledAlone : ∀ action ∈ [polledAlone],
    action.Whole sampleReplyConfig ∧ ∀ paused, action ≠ .endpoint paused := by
  simp [polledAlone, RelayAction.Whole, Elsewhere]

theorem paused_relay_releases_sample :
    HoldsReleased sampleReplyConfig ⟨8, 0, 0, 0⟩ pausedWrite.data ∧
      ∀ (host : RelayHost) (dongle : RelayDongle sampleReplyConfig),
        dongle.StandsAt ⟨8, 0, 0, 0⟩ →
          dongle.ForwardsRelease ⟨8, 0, 0, 0⟩ (dongle.deliver host pausedWrite.data)
            (relayReports sampleReplyConfig pausedWrite.data) :=
  paused_relay_releases sampleReplyConfig movedThenPaused [polledAlone] whole_movedThenPaused
    whole_polledAlone paused_movedThenPaused movedWrites pausedWrite []
    writes_movedThenPaused.2
    (congrArg List.length writes_movedThenPaused.1).le rfl rfl staged_movedThenPaused

/-- The payloads of a pipe that reached its dongle, in order. -/
def reachedDongle (pipe : ℕ) (writes : List AckWrite) : List Bytes :=
  (writes.filter fun write => write.pipe == pipe && write.delivers).map AckWrite.data

/-- A host that is busy once. -/
def busyOnce : RelayHost where
  sink calls _ _ := !calls.isEmpty
  uptimeMs _ := 0
  lossDetectMs := 1000

/-- The host missed the second move. The dongle forwards it after the pause, though all of
its tracks are valid. -/
theorem refused_move_forwarded_paused : ¬ ∀ (config : ReplyConfig) (before after : List RelayAction),
    (∀ action ∈ before, action.Whole config) →
    (∀ action ∈ after, action.Whole config ∧ ∀ paused, action ≠ .endpoint paused) →
    (run step (boot config) before).Paused →
    let start := run step (boot config) before
    ∀ front write back, (run step start after).link.writes = front ++ write :: back →
      start.link.writes.length ≤ front.length → config.relayPipe write.pipe = true →
      write.fromControl = false → (start.link.staged write.pipe).length ≤ write.leftBefore →
      ∀ host : RelayHost,
        let dongle := run (RelayDongle.deliver host) (RelayDongle.boot config)
          (reachedDongle write.pipe front)
        (∀ axis, (dongle.pointerTracks.get axis).valid = true) →
          ∀ call ∈ (dongle.deliver host write.data).calls.drop dongle.calls.length,
            IsReleased config ⟨0, 0, 0, 0⟩ call.report := by
  intro h
  have hvalid : ∀ axis, ((run (RelayDongle.deliver busyOnce) (RelayDongle.boot sampleReplyConfig)
      (reachedDongle 0 movedWrites)).pointerTracks.get axis).valid = true := by
    intro axis
    cases axis <;> decide +kernel
  have hreleased := h sampleReplyConfig movedThenPaused [polledAlone] whole_movedThenPaused
    whole_polledAlone paused_movedThenPaused movedWrites pausedWrite []
    writes_movedThenPaused.2
    (congrArg List.length writes_movedThenPaused.1).le rfl rfl staged_movedThenPaused busyOnce hvalid
  have hmoved := hreleased ⟨(MouseReportBody.mk 0 ⟨5, 0, 0, 0⟩).encode, true, true⟩
    (by decide +kernel)
  exact absurd hmoved (by decide)

end RelayCentral

end SplitEsb
