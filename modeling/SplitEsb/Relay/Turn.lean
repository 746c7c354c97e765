import SplitEsb.Relay.Stamping

/-! # What a turn writes of the pointer
A payload for a relay pipe holds the queued button reports that fit, or at most one
report appended to it. Once it is accepted `written_body` is the last of them. -/

namespace SplitEsb

open ByteString

variable {config : ReplyConfig}

/-! ## Pointer reports of a payload -/

/-- The pointer reports a payload brings the dongle, once the FIFO took it. -/
def AckWrite.pointerReports (config : ReplyConfig) (write : AckWrite) : List MouseReportBody :=
  if write.delivers then
    ((relayReports config write.data).filter RelayPointer.isMouseReport).map .decode
  else []

def pointerReports (config : ReplyConfig) (writes : List AckWrite) : List MouseReportBody :=
  writes.flatMap (AckWrite.pointerReports config)

@[simp] theorem pointerReports_append (front back : List AckWrite) :
    pointerReports config (front ++ back) =
      pointerReports config front ++ pointerReports config back := List.flatMap_append

@[simp] theorem pointerReports_singleton (write : AckWrite) :
    pointerReports config [write] = write.pointerReports config := List.flatMap_singleton ..

namespace RelayPointer

/-- A queued mouse report as it is written. -/
def stampedBody (pointer : RelayPointer) (bytes : Bytes) : MouseReportBody :=
  pointer.stampTotals
    { MouseReportBody.decode bytes with
      buttons := if pointer.active then byteAt bytes esbHidRelayPointerButtonsOffset else 0 }

/-- The report that ends a payload without one. -/
def appendedBody (pointer : RelayPointer) (changesQueued : Bool) : MouseReportBody :=
  pointer.stampTotals { MouseReportBody.zero with buttons := pointer.reportButtons changesQueued }

@[simp] theorem isMouseReport_encode (body : MouseReportBody) : isMouseReport body.encode = true := by
  simp [isMouseReport, MouseReportBody.encode, MouseReportBody.encodeTotals,
    esbHidRelayPointerLength, byteAt]

theorem take_eq {pointer : RelayPointer} {room : ℕ} {changesQueued : Bool} {bytes : Bytes}
    (h : pointer.take room changesQueued = some bytes) :
    bytes = (pointer.appendedBody changesQueued).encode := by
  simp only [take] at h
  split_ifs at h
  exact (Option.some.inj h).symm

end RelayPointer

namespace ReplyLink

open RelayPointer

theorem sentForm_eq (pointer : RelayPointer) (packet : Bytes) : sentForm true pointer packet =
    if isMouseReport packet then (pointer.stampedBody packet).encode else packet := by
  rw [sentForm, if_pos rfl]
  cases hmouse : isMouseReport packet with
  | true =>
      rw [stamp_eq_some_iff.mpr ⟨hmouse, rfl⟩, if_pos rfl]
      rfl
  | false => simp [stamp, hmouse]

/-- Packing keeps which reports are the pointer's. -/
theorem filter_sentForm (pointer : RelayPointer) (packets : List Bytes) :
    (packets.map (sentForm true pointer)).filter isMouseReport =
      (packets.filter isMouseReport).map fun packet => (pointer.stampedBody packet).encode := by
  induction packets with
  | nil => rfl
  | cons packet packets ih =>
      rw [List.map_cons, sentForm_eq]
      cases hmouse : isMouseReport packet <;> simp [hmouse, ih]

/-! ## Where the last one lies -/

/-- The offset of a packed payload is that of its last pointer report, if it has any. -/
structure Points (sent : List Bytes) (packed : PackedReplies) : Prop where
  data : packed.data = sent.flatten
  last : packed.hasPointer = true → ∃ body : MouseReportBody, ∃ rest,
    packed.data.drop packed.pointerOffset = body.encode ++ rest ∧
      (sent.filter isMouseReport).getLast? = some body.encode
  absent : packed.hasPointer = false → sent.filter isMouseReport = []

variable {pointer : RelayPointer} {sent : List Bytes} {packed : PackedReplies}

theorem Points.report (h : Points sent packed) (body : MouseReportBody) :
    Points (sent ++ [body.encode])
      { packed with
        data := packed.data ++ body.encode
        pointerOffset := packed.data.length
        hasPointer := true } where
  data := by rw [h.data, List.flatten_append, List.flatten_singleton]
  last _ := ⟨body, [], by simp, by simp⟩
  absent hnone := by cases hnone

theorem Points.other (h : Points sent packed) {packet : Bytes}
    (hpacket : isMouseReport packet = false) (taken : ℕ) :
    Points (sent ++ [packet])
      { packed with data := packed.data ++ packet, taken := taken } where
  data := by rw [h.data, List.flatten_append, List.flatten_singleton]
  last hpointer := by
    obtain ⟨body, rest, hdrop, hlast⟩ := h.last hpointer
    refine ⟨body, rest ++ packet, ?_, by simpa [hpacket] using hlast⟩
    have hinside : packed.pointerOffset ≤ packed.data.length := by
      have hlength := congrArg List.length hdrop
      rw [List.length_drop, List.length_append, MouseReportBody.length_encode,
        esbHidRelayPointerLength] at hlength
      omega
    rw [List.drop_append_of_le_length hinside, hdrop, List.append_assoc]
  absent hnone := by simpa [hpacket] using h.absent hnone

theorem Points.packReply (h : Points sent packed) (packet : Bytes) :
    Points (sent ++ [sentForm true pointer packet]) (packReply true pointer packet packed) := by
  rw [sentForm_eq, ReplyLink.packReply]
  cases hmouse : isMouseReport packet with
  | true =>
      have hstamp : pointer.stamp packet = some (pointer.stampedBody packet).encode :=
        stamp_eq_some_iff.mpr ⟨hmouse, rfl⟩
      have hpoints := h.report (pointer.stampedBody packet)
      simp only [if_true, hstamp, Option.getD_some, Option.isSome_some, Bool.or_true]
      exact ⟨hpoints.data, hpoints.last, hpoints.absent⟩
  | false =>
      have hstamp : pointer.stamp packet = none := by simp [stamp, hmouse]
      simp only [if_true, hstamp, Option.getD_none, Option.isSome_none, Bool.or_false,
        Bool.false_eq_true, if_false]
      exact h.other hmouse _

theorem points_packQueuedReplies (room : ℕ) (packets : List Bytes) (h : Points sent packed) :
    ∃ count, (packQueuedReplies true pointer room packets packed).taken = packed.taken + count ∧
      Points (sent ++ (packets.take count).map (sentForm true pointer))
        (packQueuedReplies true pointer room packets packed) := by
  induction packets generalizing sent packed with
  | nil => exact ⟨0, rfl, by simpa [packQueuedReplies] using h⟩
  | cons packet packets ih =>
      rw [packQueuedReplies]
      split
      · exact ⟨0, rfl, by simpa using h⟩
      · obtain ⟨count, htaken, hpoints⟩ := ih (h.packReply packet)
        rw [if_pos rfl]
        refine ⟨count + 1, ?_, ?_⟩
        · rw [htaken]
          exact Nat.add_right_comm packed.taken 1 count
        · simpa using hpoints

variable {pipe : ℕ} {link : ReplyLink config}

theorem points_packed (hrelay : config.relayPipe pipe = true) :
    Points (((link.queue pipe).take (link.packed pipe).taken).map (sentForm true link.pointer))
      (link.packed pipe) := by
  have hstart : Points [] ⟨[], 0, 0, false⟩ :=
    ⟨rfl, fun hpointer => (by cases hpointer), fun _ => rfl⟩
  obtain ⟨count, htaken, hpoints⟩ := @points_packQueuedReplies link.pointer _ _
    (link.queuedRoom pipe) (link.queue pipe) hstart
  rw [packed, hrelay, htaken]
  simpa using hpoints

theorem appendPointer_cases (link : ReplyLink config) (hrelay : config.relayPipe pipe = true)
    (data : Bytes) (changesQueued : Bool) :
    link.appendPointer pipe data changesQueued = none ∨
      link.appendPointer pipe data changesQueued =
        some (link.pointer.appendedBody changesQueued).encode := by
  rw [appendPointer, hrelay]
  cases htake : link.pointer.take (config.maxPayload - data.length) changesQueued with
  | none => exact .inl rfl
  | some bytes => exact .inr (congrArg some (take_eq htake))

/-- Only a payload with no queued pointer report gets one appended. -/
theorem points_withPointer (link : ReplyLink config) (hrelay : config.relayPipe pipe = true) :
    ∃ appended : Option MouseReportBody,
      Points (((link.queue pipe).take (link.packed pipe).taken).map (sentForm true link.pointer) ++
        (appended.map MouseReportBody.encode).toList) (link.withPointer pipe (link.packed pipe)) ∧
      ∀ body ∈ appended,
        ((link.queue pipe).take (link.packed pipe).taken).filter isMouseReport = [] ∧
          body = link.pointer.appendedBody
            (decide ((link.packed pipe).taken < (link.queue pipe).length)) := by
  have hpacked : Points _ (link.packed pipe) := points_packed hrelay
  rw [withPointer]
  cases hpointer : (link.packed pipe).hasPointer with
  | true =>
      refine ⟨none, ?_, fun body hbody => by cases hbody⟩
      simpa using hpacked
  | false =>
      have hnone := hpacked.absent hpointer
      rw [filter_sentForm, List.map_eq_nil_iff] at hnone
      rcases appendPointer_cases link hrelay (link.packed pipe).data
        (decide ((link.packed pipe).taken < (link.queue pipe).length)) with happend | happend
      · refine ⟨none, ?_, fun body hbody => by cases hbody⟩
        simp only [Bool.false_eq_true, if_false, happend, Option.getD_none, List.append_nil,
          Option.isSome_none, Option.map_none, Option.toList_none]
        exact ⟨hpacked.data, fun hsome => (by cases hsome), fun _ => hpacked.absent hpointer⟩
      · refine ⟨some _, ?_, fun body hbody => ⟨hnone, (Option.mem_some_iff.mp hbody).symm⟩⟩
        simp only [Bool.false_eq_true, if_false, happend, Option.getD_some, Option.isSome_some]
        exact hpacked.report _

/-! ## A turn of a relay pipe -/

/-- What a turn writes of the pointer: the queued button reports that leave, or at most
one report appended. -/
structure PointerTurn (pipe : ℕ) (before after : ReplyLink config) (taken : ℕ)
    (made : List MouseReportBody) : Prop where
  taken_le : taken ≤ (before.queue pipe).length
  queue : after.queue pipe = (before.queue pipe).drop taken
  writes : ∃ new, after.writes = before.writes ++ new ∧ (∀ write ∈ new, write.pipe = pipe) ∧
    pointerReports config new = made
  pointer : ∃ refreshDue, after.pointer =
    { before.pointer with
      writtenBody := made.getLast?.getD before.pointer.writtenBody
      refreshDue := refreshDue }
  bodies : made = (((before.queue pipe).take taken).filter isMouseReport).map
      before.pointer.stampedBody ∨
    ((before.queue pipe).take taken).filter isMouseReport = [] ∧ made =
      [before.pointer.appendedBody (decide (taken < (before.queue pipe).length))]

/-- A payload that delivers nothing leaves the pointer as it is. -/
theorem PointerTurn.nothing {after : ReplyLink config} (write : Option AckWrite)
    (hqueue : after.queue pipe = link.queue pipe) (hwrites : after.writes = link.writes ++ write.toList)
    (hpipe : ∀ made ∈ write, made.pipe = pipe ∧ made.delivers = false)
    (hpointer : after.pointer = link.pointer) : PointerTurn pipe link after 0 [] where
  taken_le := Nat.zero_le _
  queue := hqueue
  writes := by
    refine ⟨write.toList, hwrites, fun made hmem => (hpipe made (Option.mem_toList.mp hmem)).1, ?_⟩
    cases write with
    | none => rfl
    | some made =>
        rw [Option.toList_some, pointerReports_singleton, AckWrite.pointerReports,
          (hpipe made rfl).2, if_neg Bool.false_ne_true]
  pointer := ⟨link.pointer.refreshDue, hpointer⟩
  bodies := .inl rfl

theorem pointerTurn_writeControl (fifo : AckFifo) (kind : EsbLinkControl) (slot : ℕ) :
    PointerTurn pipe link (link.writeControl fifo pipe kind slot) 0 [] := by
  rw [writeControl_eq]
  refine .nothing (some (link.attempt fifo pipe _ _)) rfl rfl (fun made hmade => ?_) rfl
  rw [← Option.mem_some_iff.mp hmade]
  exact ⟨rfl, rfl⟩

/-- The pointer reports of a payload made of whole reports. -/
theorem pointerReports_attempt (fifo : AckFifo) {source : ReplySource} {data : Bytes}
    {reports : List Bytes} (hdata : data = reports.flatten)
    (hwhole : ∀ report ∈ reports, IsRelayReport config report)
    (hdelivers : (link.attempt fifo pipe source data).delivers = true) :
    (link.attempt fifo pipe source data).pointerReports config =
      (reports.filter isMouseReport).map .decode := by
  have hsplit : relayReports config data = reports := by
    rw [hdata, relayReports_flatten hwhole]
  rw [AckWrite.pointerReports, if_pos hdelivers]
  exact congrArg (fun all => (all.filter isMouseReport).map MouseReportBody.decode) hsplit

/-- Once accepted, the last pointer report of the payload is the one taken as written. -/
theorem Points.commit (h : Points sent packed) (pointer : RelayPointer) : ∃ refreshDue,
    (if packed.hasPointer then pointer.sent (packed.data.drop packed.pointerOffset) else pointer) =
      { pointer with
        writtenBody :=
          ((sent.filter isMouseReport).map MouseReportBody.decode).getLast?.getD pointer.writtenBody
        refreshDue := refreshDue } := by
  cases hpointer : packed.hasPointer with
  | true =>
      obtain ⟨body, rest, hdrop, hlast⟩ := h.last hpointer
      refine ⟨false, ?_⟩
      rw [if_pos rfl, RelayPointer.sent, hdrop, MouseReportBody.decode_encode_append,
        List.getLast?_map, hlast]
      simp
  | false =>
      refine ⟨pointer.refreshDue, ?_⟩
      rw [if_neg Bool.false_ne_true, h.absent hpointer]
      rfl

theorem queue_freshIdleReply (link : ReplyLink config) (pipe : ℕ) :
    (link.freshIdleReply pipe).1.queue = link.queue := by
  rw [freshIdleReply_eq]
  dsimp only
  split
  · rfl
  · split_ifs <;> rfl

theorem exists_pointerTurn_writePacked (fifo : AckFifo) (hrelay : config.relayPipe pipe = true)
    (hwhole : ∀ packet ∈ link.queue pipe, IsRelayReport config packet) : ∃ taken made,
    PointerTurn pipe link (link.writePacked fifo pipe (link.withPointer pipe (link.packed pipe)))
      taken made := by
  obtain ⟨appended, hpoints, happended⟩ := points_withPointer link hrelay
  have htaken := taken_withPointer link pipe (link.packed pipe)
  have hle := taken_packed_le link pipe
  generalize link.withPointer pipe (link.packed pipe) = packed at hpoints htaken ⊢
  rw [← htaken] at hpoints happended hle
  have hreports : ∀ report ∈ ((link.queue pipe).take packed.taken).map (sentForm true link.pointer) ++
      (appended.map MouseReportBody.encode).toList, IsRelayReport config report := by
    intro report hmem
    rcases List.mem_append.mp hmem with hsent | hlast
    · obtain ⟨packet, hpacket, rfl⟩ := List.mem_map.mp hsent
      exact isRelayReport_of_rewritten (rewritten_sentForm packet)
        (hwhole packet (List.mem_of_mem_take hpacket))
    · obtain ⟨body, -, rfl⟩ := Option.map_eq_some_iff.mp (Option.mem_toList.mp hlast)
      exact isRelayReport_encode body
  rw [writePacked_eq]
  dsimp only
  cases haccepted : (link.attempt fifo pipe (.queued packed.taken) packed.data).accepted with
  | false =>
      refine ⟨0, [], .nothing (some (link.attempt fifo pipe (.queued packed.taken) packed.data))
        (by simp) rfl (fun made hmade => ?_) (by simp)⟩
      rw [← Option.mem_some_iff.mp hmade]
      exact ⟨rfl, haccepted⟩
  | true =>
      have hdelivers : (link.attempt fifo pipe (.queued packed.taken) packed.data).delivers = true :=
        haccepted
      have hbodies : ((((link.queue pipe).take packed.taken).map (sentForm true link.pointer) ++
            (appended.map MouseReportBody.encode).toList).filter isMouseReport).map
              MouseReportBody.decode =
          (((link.queue pipe).take packed.taken).filter isMouseReport).map
            link.pointer.stampedBody ++ appended.toList := by
        rw [List.filter_append, List.map_append, filter_sentForm, List.map_map]
        cases appended <;> simp [Function.comp_def]
      have hmade := pointerReports_attempt fifo hpoints.data hreports hdelivers
      obtain ⟨refreshDue, hcommit⟩ := hpoints.commit link.pointer
      rw [hbodies] at hmade hcommit
      refine ⟨packed.taken, _, hle, by simp, ⟨[_], rfl, fun write hmem => ?_,
        (pointerReports_singleton _).trans hmade⟩, ⟨refreshDue, ?_⟩, ?_⟩
      · rw [List.mem_singleton.mp hmem]
        rfl
      · rw [Bool.true_and]
        exact hcommit
      · cases happend : appended with
        | none => exact .inl (List.append_nil _)
        | some body =>
            obtain ⟨hnone, hbody⟩ := happended body happend
            refine .inr ⟨hnone, ?_⟩
            rw [hnone, hbody]
            rfl

/-- With no reply queued, a pointer report may follow the latched states. -/
theorem exists_pointerTurn_writeFresh (fifo : AckFifo) (hrelay : config.relayPipe pipe = true)
    (hqueue : link.queue pipe = []) {fresh : Option ℕ}
    (hstates : HoldsStates config (link.idleBytes pipe fresh)) : ∃ made,
      PointerTurn pipe link (link.writeFresh fifo pipe fresh) 0 made := by
  obtain ⟨reports, hlatched, hstates⟩ := hstates
  have hother : reports.filter isMouseReport = [] := by
    refine List.filter_eq_nil_iff.mpr fun report hmem hmouse => (hstates report hmem).2 ?_
    simp only [isMouseReport, Bool.and_eq_true, beq_iff_eq] at hmouse
    exact hmouse.2
  rw [writeFresh_eq]
  dsimp only
  split
  · exact ⟨[], .nothing none rfl (by simp) (fun made hmade => by cases hmade) rfl⟩
  · generalize (fresh.map fun _ => (link.idle pipe).history.length - 1) = number
    obtain ⟨appended, happended, happend⟩ : ∃ appended : Option MouseReportBody,
        link.appendPointer pipe (link.idleBytes pipe fresh) false =
          appended.map MouseReportBody.encode ∧
        ∀ body ∈ appended, body = link.pointer.appendedBody false := by
      rcases appendPointer_cases link hrelay (link.idleBytes pipe fresh) false with hnone | hsome
      · exact ⟨none, hnone, fun body hbody => by cases hbody⟩
      · exact ⟨some _, hsome, fun body hbody => (Option.mem_some_iff.mp hbody).symm⟩
    rw [happended]
    have hreports : ∀ report ∈ reports ++ (appended.map MouseReportBody.encode).toList,
        IsRelayReport config report := by
      intro report hmem
      rcases List.mem_append.mp hmem with hheld | hlast
      · exact (hstates report hheld).1
      · obtain ⟨body, -, rfl⟩ := Option.map_eq_some_iff.mp (Option.mem_toList.mp hlast)
        exact isRelayReport_encode body
    have hdata : link.idleBytes pipe fresh ++ (appended.map MouseReportBody.encode).getD [] =
        (reports ++ (appended.map MouseReportBody.encode).toList).flatten := by
      rw [hlatched]
      cases appended <;> simp
    generalize hbytes : link.idleBytes pipe fresh ++
      (appended.map MouseReportBody.encode).getD [] = data at hdata ⊢
    cases haccepted : (link.attempt fifo pipe (.idle number) data).accepted with
    | false =>
        refine ⟨[], .nothing (some (link.attempt fifo pipe (.idle number) data)) rfl rfl
          (fun made hmade => ?_) (by simp)⟩
        rw [← Option.mem_some_iff.mp hmade]
        exact ⟨rfl, haccepted⟩
    | true =>
        have hdelivers : (link.attempt fifo pipe (.idle number) data).delivers = true := haccepted
        have hmade := pointerReports_attempt fifo hdata hreports hdelivers
        have hbodies : ((reports ++ (appended.map MouseReportBody.encode).toList).filter
            isMouseReport).map MouseReportBody.decode = appended.toList := by
          rw [List.filter_append, hother]
          cases appended <;> simp
        refine ⟨appended.toList, Nat.zero_le _, rfl, ⟨[_], rfl, fun write hmem => ?_, ?_⟩, ?_, ?_⟩
        · rw [List.mem_singleton.mp hmem]
          rfl
        · exact (pointerReports_singleton _).trans (hmade.trans hbodies)
        · cases appended with
          | none => exact ⟨link.pointer.refreshDue, by simp⟩
          | some body =>
              refine ⟨false, ?_⟩
              simp [← hbytes, RelayPointer.sent]
        · cases hsome : appended with
          | none => exact .inl (by simp)
          | some body =>
              refine .inr ⟨by simp, ?_⟩
              rw [hqueue, happend body hsome]
              simp

/-- Every turn of a relay pipe is one of these. -/
theorem exists_pointerTurn (h : link.RelaySound pipe)
    (hstates : (link.idle pipe).Calls fun call => HoldsStates config call.data)
    (hrelay : config.relayPipe pipe = true) (fifo : AckFifo) :
    ∃ taken made, PointerTurn pipe link (replyTo fifo link pipe) taken made := by
  refine replyTo_cases (motive := fun after => ∃ taken made, PointerTurn pipe link after taken made)
    ?_ ?_ ?_
  · exact fun kind slot _ => ⟨0, [], pointerTurn_writeControl fifo kind slot⟩
  · exact fun _ _ => exists_pointerTurn_writePacked fifo hrelay (h.queued hrelay)
  · intro _ htaken
    have hqueue : link.queue pipe = [] := by
      by_contra hsome
      exact taken_packed_ne_zero h.queue h.queued hsome htaken
    obtain ⟨hwrites, -, hpointer, -⟩ := freshIdleReply_keeps link pipe
    have hkept := queue_freshIdleReply link pipe
    have hcalls := calls_freshIdleReply link pipe
    have hheld : ((link.freshIdleReply pipe).1.idle pipe).Calls
        fun call => HoldsStates config call.data :=
      ⟨hcalls.1 ▸ hstates.writer, hcalls.2 ▸ hstates.history⟩
    have hlatched : HoldsStates config
        ((link.freshIdleReply pipe).1.idleBytes pipe (link.freshIdleReply pipe).2) := by
      rcases idleBytes_cases (h.cells.freshIdleReply pipe) hheld
        (fun slot hslot => peek_of_fresh hslot) with hnone | hsome
      · exact hnone ▸ ⟨[], rfl, by simp⟩
      · exact hsome
    obtain ⟨made, hturn⟩ := exists_pointerTurn_writeFresh fifo hrelay
      ((congrFun hkept pipe).trans hqueue) hlatched
    refine ⟨0, made, ?_⟩
    rw [writeIdleReply]
    exact ⟨Nat.zero_le _, hkept ▸ hturn.queue, hwrites ▸ hturn.writes, hpointer ▸ hturn.pointer,
      hpointer ▸ hkept ▸ hturn.bodies⟩

end ReplyLink

end SplitEsb
