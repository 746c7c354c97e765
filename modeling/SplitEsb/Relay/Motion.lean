import SplitEsb.Relay.Deliver

/-! # Pointer motion at the dongle
The dongle keeps a track for each axis and commits it only with the report the sink
took, so that the deltas it hands on add up to the way the totals went. -/

namespace SplitEsb

open ByteString Residue

variable {config : ReplyConfig}

/-! ## One axis -/

/-- The motion the sink took on an axis. -/
def sinkMotion (calls : List SinkCall) (axis : PointerAxis) : ℤ :=
  ((calls.filter fun call => call.accepted && byteAt call.report 0 == zmkHidReportIdMouse).map
    fun call => (shortTotalAt call.report axis).toInt).sum

theorem sinkMotion_concat (calls : List SinkCall) (call : SinkCall) (axis : PointerAxis) :
    sinkMotion (calls ++ [call]) axis = sinkMotion calls axis +
      if call.accepted && byteAt call.report 0 == zmkHidReportIdMouse then
        (shortTotalAt call.report axis).toInt else 0 := by
  rw [sinkMotion, List.filter_append]
  cases h : call.accepted && byteAt call.report 0 == zmkHidReportIdMouse <;> simp [sinkMotion, h]

/-- The low half of a total does not see whole wraps. -/
theorem ofInt_add_shift {shift : ℤ} (h : 65536 ∣ shift) (value : ℤ) :
    Int16.ofInt (value + shift) = Int16.ofInt value := by
  obtain ⟨wraps, rfl⟩ := h
  rw [Int16.ofInt_add, Int16.ofInt_mul]
  have hwrap : Int16.ofInt 65536 = 0 := rfl
  rw [hwrap, Int16.zero_mul, Int16.add_zero]

/-- The first total a track adopts is the sender's, up to whole wraps. -/
theorem exists_shift (value : ℤ) : ∃ shift : ℤ, 65536 ∣ shift ∧
    (Int16.ofInt value).toInt32 = Int32.ofInt (value + shift) := by
  refine ⟨(Int16.ofInt value).toInt - value, ?_, ?_⟩
  · have hmod : (Int16.ofInt value).toInt = value.bmod 65536 := Int16.toInt_ofInt
    rw [hmod, Int.bmod_def]
    omega
  · rw [add_sub_cancel, Int32.ofInt_int16ToInt]

/-- A track stands at a total, up to whole wraps. -/
def EsbMotionTrack.StandsAt (track : EsbMotionTrack) (total : ℤ) : Prop :=
  ∃ shift : ℤ, 65536 ∣ shift ∧ track = ⟨Int32.ofInt (total + shift), true⟩

namespace RelayDongle

theorem shortDelta_baseline {track : EsbMotionTrack} (hinvalid : track.valid = false) (total : ℤ) :
    (shortDelta track (Int16.ofInt total)).1.StandsAt total ∧
      (shortDelta track (Int16.ofInt total)).2 = 0 := by
  obtain ⟨shift, hshift, hword⟩ := exists_shift total
  rw [shortDelta, hinvalid, if_neg Bool.false_ne_true, esbMotionTrackDelta, hinvalid,
    if_neg Bool.false_ne_true]
  exact ⟨⟨shift, hshift, by rw [hword]⟩, rfl⟩

theorem shortDelta_exact {track : EsbMotionTrack} {last total : ℤ} (h : |total - last| ≤ 8192)
    (hlast : track.StandsAt last) :
    (shortDelta track (Int16.ofInt total)).1.StandsAt total ∧
      (shortDelta track (Int16.ofInt total)).2.toInt = total - last := by
  obtain ⟨shift, hshift, rfl⟩ := hlast
  have hstep : |total + shift - (last + shift)| ≤ 8192 := by
    rwa [add_sub_add_right_eq_sub]
  have hvalid : (EsbMotionTrack.mk (Int32.ofInt (last + shift)) true).valid = true := rfl
  have hexact := esbMotionTrackShortDelta_exact hvalid hstep rfl
  rw [ofInt_add_shift hshift] at hexact
  refine ⟨⟨shift, hshift, hexact.1⟩, hexact.2.trans ?_⟩
  exact add_sub_add_right_eq_sub ..

theorem shortDelta_valid (track : EsbMotionTrack) (shortTotal : Int16) :
    (shortDelta track shortTotal).1.valid = true := by
  rw [shortDelta]
  split_ifs with hvalid
  · exact esbMotionTrackShortDelta_valid hvalid shortTotal
  · exact esbMotionTrackDelta_valid track _

/-- The delta a USB report carries for a small step. -/
theorem toInt_toInt16_small {delta : Int32} (h : |delta.toInt| ≤ 8192) :
    delta.toInt16.toInt = delta.toInt := by
  have hbounds := abs_le.mp h
  rw [Int32.toInt_toInt16]
  exact Int.bmod_eq_of_le (by omega) (by omega)

/-! ## One report -/

variable {dongle : RelayDongle config} {host : RelayHost} {bytes : Bytes}

/-- The gaps the report makes on the axes. -/
def deltas (dongle : RelayDongle config) (bytes : Bytes) : PointerTotals Int32 :=
  (pointerTotalsToDeltas dongle.pointerTracks bytes).map Prod.snd

/-- A committed report moves every track on, and the sink took the gaps unless there
were none; a refused one changes neither tracks nor buttons. -/
structure OfferSpec (dongle : RelayDongle config) (bytes : Bytes) (after : RelayDongle config)
    (committed : Bool) : Prop where
  tracks : after.pointerTracks =
    if committed then (pointerTotalsToDeltas dongle.pointerTracks bytes).map Prod.fst
    else dongle.pointerTracks
  buttons : committed = false → after.deliveredButtons = dongle.deliveredButtons
  moved : ∀ axis, sinkMotion after.calls axis = sinkMotion dongle.calls axis +
    if committed then ((dongle.deltas bytes).get axis).toInt16.toInt else 0
  heard : after.pointerHeardMs = dongle.pointerHeardMs
  clockReads : after.clockReads = dongle.clockReads

theorem get_eq_zero_of_not_moves {totals : PointerTotals Int32}
    (h : (totals.dX != 0 || totals.dY != 0 || totals.dScrollY != 0 || totals.dScrollX != 0) = false)
    (axis : PointerAxis) : totals.get axis = 0 := by
  simp only [Bool.or_eq_false_iff, bne_eq_false_iff_eq] at h
  obtain ⟨⟨⟨hx, hy⟩, hscrollY⟩, hscrollX⟩ := h
  cases axis <;> assumption

theorem offerPointer_spec (dongle : RelayDongle config) (host : RelayHost) (bytes : Bytes) :
    OfferSpec (dongle.forgetPointerAfterSilence host) bytes (dongle.offerPointer host bytes).1
      (dongle.offerPointer host bytes).2 := by
  rw [offerPointer]
  generalize dongle.forgetPointerAfterSilence host = start
  dsimp only
  have hdeltas : (pointerTotalsToDeltas start.pointerTracks bytes).map Prod.snd =
    start.deltas bytes := rfl
  rw [hdeltas]
  split
  case isTrue =>
      generalize byteAt bytes esbHidRelayPointerButtonsOffset = buttons
      have hcall : ∀ (motionOnly accepted : Bool) (axis : PointerAxis),
          sinkMotion (start.calls ++ [⟨(MouseReportBody.mk buttons ((start.deltas bytes).map
            Int32.toInt16)).encode, motionOnly, accepted⟩]) axis = sinkMotion start.calls axis +
              if accepted then ((start.deltas bytes).get axis).toInt16.toInt else 0 := by
        intro motionOnly accepted axis
        rw [sinkMotion_concat, MouseReportBody.shortTotalAt_encode, PointerTotals.get_map]
        cases accepted <;> rfl
      rw [callback]
      dsimp only
      split
      case isTrue haccepted =>
          rw [haccepted]
          exact ⟨rfl, nofun, hcall _ true, rfl, rfl⟩
      case isFalse hrefused =>
          rw [Bool.not_eq_true] at hrefused
          rw [hrefused]
          exact ⟨rfl, fun _ => rfl, hcall _ false, rfl, rfl⟩
  case isFalse hquiet =>
      rw [Bool.not_eq_true, Bool.or_eq_false_iff] at hquiet
      refine ⟨rfl, nofun, fun axis => ?_, rfl, rfl⟩
      rw [get_eq_zero_of_not_moves hquiet.1 axis]
      exact (add_zero _).symm

/-! ## Every report -/

/-- A report the dongle committed: the number of its clock read, and the totals it was
stamped with. -/
structure CommittedReport where
  read : ℕ
  total : PointerAxis → ℤ

/-- No silence between the reads since the baseline. -/
def Unbroken (host : RelayHost) (committed : List CommittedReport) (clockReads : ℕ) : Prop :=
  ∀ first ∈ committed.head?, ∀ reads, first.read ≤ reads → reads + 1 < clockReads →
    host.uptimeMs (reads + 1) - host.uptimeMs reads ≤ host.lossDetectMs

theorem Unbroken.mono {committed longer : List CommittedReport} {clockReads more : ℕ}
    (h : Unbroken host longer more) (hhead : ∀ first ∈ committed.head?, first ∈ longer.head?)
    (hle : clockReads ≤ more) : Unbroken host committed clockReads :=
  fun first hfirst reads hread hlt =>
    h first (hhead first hfirst) reads hread (Nat.lt_of_lt_of_le hlt hle)

/-- Where the dongle stands after the reports it committed: the tracks at the last one,
the sink that much further than the first. -/
structure Tracked (host : RelayHost) (dongle : RelayDongle config)
    (committed : List CommittedReport) : Prop where
  silent : committed = [] → ∀ axis, (dongle.pointerTracks.get axis).valid = false ∧
    sinkMotion dongle.calls axis = 0
  heard : ∀ first ∈ committed.head?, first.read < dongle.clockReads ∧
    dongle.pointerHeardMs = host.uptimeMs (dongle.clockReads - 1)
  valid : committed ≠ [] → Unbroken host committed dongle.clockReads →
    ∀ axis, (dongle.pointerTracks.get axis).valid = true
  moved : Unbroken host committed dongle.clockReads → ∀ axis,
    Bounded 8192 (committed.map fun report => report.total axis) →
      ∀ first ∈ committed.head?, ∀ last ∈ committed.getLast?,
        (dongle.pointerTracks.get axis).StandsAt (last.total axis) ∧
          sinkMotion dongle.calls axis = last.total axis - first.total axis

theorem Tracked.boot (config : ReplyConfig) (host : RelayHost) : (boot config).Tracked host [] where
  silent := fun _ axis => ⟨by cases axis <;> rfl, rfl⟩
  heard := by intro first hfirst; cases hfirst
  valid := fun h => absurd rfl h
  moved := by intro _ axis _ first hfirst; cases hfirst

variable {committed : List CommittedReport}

/-- Without a silence before it, a report finds the tracks as they were. -/
theorem forget_of_heard (hheard : host.uptimeMs dongle.clockReads - dongle.pointerHeardMs ≤
    host.lossDetectMs) :
    (dongle.forgetPointerAfterSilence host).pointerTracks = dongle.pointerTracks :=
  if_neg (UInt32.not_lt.mpr hheard)

theorem Tracked.heard_of_unbroken (h : dongle.Tracked host committed) (hsome : committed ≠ [])
    (hunbroken : Unbroken host committed (dongle.clockReads + 1)) :
    host.uptimeMs dongle.clockReads - dongle.pointerHeardMs ≤ host.lossDetectMs := by
  obtain ⟨first, hfirst⟩ : ∃ first, first ∈ committed.head? :=
    ⟨_, List.head?_eq_some_head hsome⟩
  obtain ⟨hread, hheard⟩ := h.heard first hfirst
  obtain ⟨reads, hreads⟩ := Nat.exists_eq_succ_of_ne_zero (Nat.ne_zero_of_lt hread)
  have hgap := hunbroken first hfirst reads (by omega) (by omega)
  rw [hheard, hreads]
  exact hgap

theorem Tracked.forget_silent (h : dongle.Tracked host committed) (hnone : committed = [])
    (axis : PointerAxis) :
    ((dongle.forgetPointerAfterSilence host).pointerTracks.get axis).valid = false := by
  rw [forgetPointerAfterSilence]
  dsimp only
  split
  · rw [PointerTotals.get_map]
  · exact (h.silent hnone axis).1

/-- What offering a report does to the clock. -/
structure HeardNow (host : RelayHost) (dongle after : RelayDongle config) : Prop where
  clockReads : after.clockReads = dongle.clockReads + 1
  pointerHeardMs : after.pointerHeardMs = host.uptimeMs dongle.clockReads

theorem HeardNow.tracks {after : RelayDongle config} (hheard : HeardNow host dongle after)
    (h : dongle.Tracked host committed) (hsome : committed ≠ [])
    (hunbroken : Unbroken host committed after.clockReads) :
    (dongle.forgetPointerAfterSilence host).pointerTracks = dongle.pointerTracks := by
  rw [hheard.clockReads] at hunbroken
  exact forget_of_heard (h.heard_of_unbroken hsome hunbroken)

/-- A refused report leaves the dongle as it was. -/
theorem Tracked.refuse (h : dongle.Tracked host committed) {after : RelayDongle config}
    (hspec : OfferSpec (dongle.forgetPointerAfterSilence host) bytes after false)
    (hheard : HeardNow host dongle after) : after.Tracked host committed := by
  have hkept : after.pointerTracks = (dongle.forgetPointerAfterSilence host).pointerTracks :=
    hspec.tracks
  have hmotion : ∀ axis, sinkMotion after.calls axis = sinkMotion dongle.calls axis :=
    fun axis => (hspec.moved axis).trans (add_zero _)
  have hearlier : Unbroken host committed after.clockReads →
      Unbroken host committed dongle.clockReads :=
    fun hunbroken => hunbroken.mono (fun _ hfirst => hfirst) (by rw [hheard.clockReads]; omega)
  refine ⟨fun hnone axis => ?_, fun first hfirst => ?_, fun hsome hunbroken axis => ?_, ?_⟩
  · rw [hkept, hmotion]
    exact ⟨h.forget_silent hnone axis, (h.silent hnone axis).2⟩
  · have hread := (h.heard first hfirst).1
    rw [hheard.clockReads, hheard.pointerHeardMs]
    exact ⟨by omega, rfl⟩
  · rw [hkept, hheard.tracks h hsome hunbroken]
    exact h.valid hsome (hearlier hunbroken) axis
  · intro hunbroken axis hbounded first hfirst last hlast
    have hsome : committed ≠ [] := by
      rintro rfl
      cases hfirst
    rw [hkept, hheard.tracks h hsome hunbroken, hmotion]
    exact h.moved (hearlier hunbroken) axis hbounded first hfirst last hlast

/-- A committed report makes the baseline or adds its gap. -/
theorem Tracked.commit {total : PointerAxis → ℤ} (h : dongle.Tracked host committed)
    {after : RelayDongle config}
    (hspec : OfferSpec (dongle.forgetPointerAfterSilence host) bytes after true)
    (hheard : HeardNow host dongle after)
    (htotal : ∀ axis, shortTotalAt bytes axis = Int16.ofInt (total axis)) :
    after.Tracked host (committed ++ [⟨dongle.clockReads, total⟩]) := by
  generalize hstart : dongle.forgetPointerAfterSilence host = start at hspec
  have htrack : ∀ axis, after.pointerTracks.get axis =
      (shortDelta (start.pointerTracks.get axis) (Int16.ofInt (total axis))).1 := by
    intro axis
    have hmoved : after.pointerTracks =
        (pointerTotalsToDeltas start.pointerTracks bytes).map Prod.fst := hspec.tracks
    rw [hmoved, PointerTotals.get_map, pointerTotalsToDeltas, PointerTotals.get_ofFn, htotal]
  have hdelta : ∀ axis, (start.deltas bytes).get axis =
      (shortDelta (start.pointerTracks.get axis) (Int16.ofInt (total axis))).2 := by
    intro axis
    rw [deltas, PointerTotals.get_map, pointerTotalsToDeltas, PointerTotals.get_ofFn, htotal]
  have hmotion : ∀ axis, sinkMotion after.calls axis = sinkMotion dongle.calls axis +
      ((start.deltas bytes).get axis).toInt16.toInt := by
    intro axis
    rw [hspec.moved axis, ← hstart]
    rfl
  refine ⟨fun hnone => absurd hnone (by simp), fun first hfirst => ?_, fun _ _ axis => ?_, ?_⟩
  · rw [hheard.clockReads, hheard.pointerHeardMs]
    refine ⟨?_, rfl⟩
    cases hcommitted : committed with
    | nil =>
        rw [hcommitted] at hfirst
        cases hfirst
        exact Nat.lt_succ_self _
    | cons baseline rest =>
        rw [hcommitted] at hfirst
        have hread := (h.heard first (hcommitted ▸ hfirst)).1
        omega
  · rw [htrack]
    exact shortDelta_valid _ _
  · intro hunbroken axis hbounded first hfirst last hlast
    rw [List.getLast?_concat] at hlast
    cases hlast
    rw [htrack, hmotion, hdelta]
    by_cases hnone : committed = []
    · have hinvalid := h.forget_silent hnone axis
      rw [hstart] at hinvalid
      obtain ⟨hstands, hzero⟩ := shortDelta_baseline hinvalid (total axis)
      rw [hnone] at hfirst
      cases hfirst
      refine ⟨hstands, ?_⟩
      rw [hzero, (h.silent hnone axis).2, sub_self]
      rfl
    · have hmapped : committed.map (fun report => report.total axis) ≠ [] := by simpa using hnone
      rw [List.map_append, List.map_singleton, bounded_concat hmapped, List.getLast_map] at hbounded
      rw [List.head?_append_of_ne_nil _ hnone] at hfirst
      have hsofar : Unbroken host committed after.clockReads :=
        hunbroken.mono (fun _ hmem => by rwa [List.head?_append_of_ne_nil _ hnone]) (Nat.le_refl _)
      have hearlier : Unbroken host committed dongle.clockReads :=
        hsofar.mono (fun _ hmem => hmem) (by rw [hheard.clockReads]; omega)
      obtain ⟨hstands, hmoved⟩ := h.moved hearlier axis hbounded.1 first hfirst _
        (List.getLast_mem_getLast? hnone)
      rw [← hstart, hheard.tracks h hnone hsofar]
      obtain ⟨hnow, hgap⟩ := shortDelta_exact hbounded.2 hstands
      refine ⟨hnow, ?_⟩
      rw [toInt_toInt16_small (hgap ▸ hbounded.2), hgap, hmoved]
      ring

theorem Tracked.offerPointer {total : PointerAxis → ℤ} (h : dongle.Tracked host committed)
    (htotal : ∀ axis, shortTotalAt bytes axis = Int16.ofInt (total axis)) :
    (dongle.offerPointer host bytes).1.Tracked host
      (if (dongle.offerPointer host bytes).2 then committed ++ [⟨dongle.clockReads, total⟩]
        else committed) := by
  have hspec := dongle.offerPointer_spec host bytes
  have hheard : HeardNow host dongle (dongle.offerPointer host bytes).1 :=
    ⟨hspec.clockReads, hspec.heard⟩
  cases hcommitted : (dongle.offerPointer host bytes).2 with
  | true =>
      rw [hcommitted] at hspec
      exact h.commit hspec hheard htotal
  | false =>
      rw [hcommitted] at hspec
      exact h.refuse hspec hheard

end RelayDongle

end SplitEsb
