import SplitEsb.Reply.AckQueues

/-! # The counters of the reply FIFO
The statistics follow the FIFO by the packets read and the writes taken. The radio acts
when a packet arrives, so the counters lag by the packets that wait to be read. -/

namespace SplitEsb

open ByteString Transition

variable {config : ReplyConfig}

/-! ## The counters -/

structure ReplyStats where
  repliesQueued : ℕ → UInt8
  replyOffered : ℕ → Bool
  txQueued : ℤ
  txPeak : UInt32

namespace ReplyStats

def zero : ReplyStats := ⟨fun _ => 0, fun _ => false, 0, 0⟩

def esbStatTxQueued (stats : ReplyStats) : ReplyStats :=
  let queued := stats.txQueued + 1
  { stats with txQueued := queued, txPeak := max stats.txPeak (UInt32.ofInt queued) }

def esbStatReplyWritten (pipeCount : ℕ) (stats : ReplyStats) (pipe : ℕ) : ReplyStats :=
  if pipeCount ≤ pipe then stats
  else esbStatTxQueued
    { stats with
      repliesQueued := Function.update stats.repliesQueued pipe (stats.repliesQueued pipe + 1) }

def esbStatReplyAsked (pipeCount : ℕ) (stats : ReplyStats) (pipe : ℕ) : ReplyStats :=
  if pipeCount ≤ pipe then stats
  else
    let stats :=
      if stats.replyOffered pipe && decide (0 < stats.repliesQueued pipe) then
        { stats with
          repliesQueued := Function.update stats.repliesQueued pipe (stats.repliesQueued pipe - 1)
          txQueued := if stats.txQueued ≤ 0 then 0 else stats.txQueued - 1 }
      else stats
    { stats with
      replyOffered :=
        Function.update stats.replyOffered pipe (decide (0 < stats.repliesQueued pipe)) }

def esbStatTxCleared (pipeCount : ℕ) (stats : ReplyStats) : ReplyStats :=
  { stats with
    repliesQueued pipe := if pipe < pipeCount then 0 else stats.repliesQueued pipe
    replyOffered pipe := if pipe < pipeCount then false else stats.replyOffered pipe
    txQueued := 0 }

/-- The counters after the interrupt read a packet, and after it wrote a payload. -/
def afterRead (pipeCount : ℕ) (stats : ReplyStats) (packet : RxPacket) : ReplyStats :=
  if packet.noack then stats else stats.esbStatReplyAsked pipeCount packet.pipe

def afterWrite (pipeCount : ℕ) (stats : ReplyStats) (write : AckWrite) : ReplyStats :=
  if write.accepted then stats.esbStatReplyWritten pipeCount write.pipe else stats

/-! ### What they count -/

/-- The counters of the pipes say what the FIFO holds. -/
def Agrees (pipeCount : ℕ) (stats : ReplyStats) (queues : AckQueues) : Prop :=
  ∀ pipe < pipeCount, (stats.repliesQueued pipe).toNat = (queues.replies pipe).length ∧
    stats.replyOffered pipe = queues.offered pipe

def total (pipeCount : ℕ) (stats : ReplyStats) : ℕ :=
  ∑ pipe ∈ Finset.range pipeCount, (stats.repliesQueued pipe).toNat

variable {pipeCount : ℕ} {stats : ReplyStats} {queues : AckQueues}

theorem toNat_sub_one {count : UInt8} (hpos : 0 < count.toNat) :
    (count - 1).toNat = count.toNat - 1 :=
  UInt8.toNat_sub_of_le _ _ (UInt8.le_iff_toNat_le.mpr hpos)

theorem toNat_add_one {count : UInt8} (hsmall : count.toNat < 255) :
    (count + 1).toNat = count.toNat + 1 := by
  rw [UInt8.toNat_add, UInt8.toNat_one]
  exact Nat.mod_eq_of_lt (by omega)

/-- The reply offered before has left. -/
def leaves (stats : ReplyStats) (pipe : ℕ) : Bool :=
  stats.replyOffered pipe && decide (0 < stats.repliesQueued pipe)

def countAfterAsked (stats : ReplyStats) (pipe : ℕ) : UInt8 :=
  if stats.leaves pipe then stats.repliesQueued pipe - 1 else stats.repliesQueued pipe

theorem esbStatReplyAsked_eq (stats : ReplyStats) {pipe : ℕ} (hpipe : pipe < pipeCount) :
    stats.esbStatReplyAsked pipeCount pipe =
      { repliesQueued := Function.update stats.repliesQueued pipe (stats.countAfterAsked pipe)
        replyOffered :=
          Function.update stats.replyOffered pipe (decide (0 < stats.countAfterAsked pipe))
        txQueued :=
          if stats.leaves pipe then (if stats.txQueued ≤ 0 then 0 else stats.txQueued - 1)
          else stats.txQueued
        txPeak := stats.txPeak } := by
  rw [esbStatReplyAsked, if_neg (Nat.not_le.mpr hpipe), countAfterAsked, leaves]
  by_cases hleaves : (stats.replyOffered pipe && decide (0 < stats.repliesQueued pipe)) = true
  · simp only [if_pos hleaves, Function.update_self]
  · simp only [if_neg hleaves, Function.update_eq_self]

theorem toNat_countAfterAsked (stats : ReplyStats) (pipe : ℕ) :
    (stats.countAfterAsked pipe).toNat =
      (stats.repliesQueued pipe).toNat - if stats.replyOffered pipe then 1 else 0 := by
  have hpos : 0 < stats.repliesQueued pipe ↔ 0 < (stats.repliesQueued pipe).toNat :=
    UInt8.lt_iff_toNat_lt
  rw [countAfterAsked, leaves]
  cases stats.replyOffered pipe with
  | false => simp
  | true =>
      by_cases hcount : 0 < stats.repliesQueued pipe
      · simp [hcount, toNat_sub_one (hpos.mp hcount)]
      · have hzero : (stats.repliesQueued pipe).toNat = 0 := by
          have := mt hpos.mpr hcount
          omega
        simp [hcount, hzero]

theorem asked_of_ne (stats : ReplyStats) {pipe other : ℕ} (hne : other ≠ pipe) :
    (stats.esbStatReplyAsked pipeCount pipe).repliesQueued other = stats.repliesQueued other ∧
      (stats.esbStatReplyAsked pipeCount pipe).replyOffered other = stats.replyOffered other := by
  by_cases hpipe : pipe < pipeCount
  · rw [esbStatReplyAsked_eq stats hpipe]
    exact ⟨Function.update_of_ne hne .., Function.update_of_ne hne ..⟩
  · rw [esbStatReplyAsked, if_pos (by omega)]
    exact ⟨rfl, rfl⟩

/-- A packet leaves one reply at most counted, and then offered, where only an offered
reply had a second one behind it. -/
theorem count_asked {pipe : ℕ} (hpipe : pipe < pipeCount)
    (h : (stats.repliesQueued pipe).toNat ≤ 1 + (stats.replyOffered pipe).toNat) :
    ((stats.esbStatReplyAsked pipeCount pipe).repliesQueued pipe).toNat ≤
      ((stats.esbStatReplyAsked pipeCount pipe).replyOffered pipe).toNat := by
  have hcount := toNat_countAfterAsked stats pipe
  have hpos : 0 < stats.countAfterAsked pipe ↔ 0 < (stats.countAfterAsked pipe).toNat :=
    UInt8.lt_iff_toNat_lt
  have hone : (stats.countAfterAsked pipe).toNat ≤ 1 := by
    cases hoffered : stats.replyOffered pipe <;> rw [hoffered] at hcount h <;>
      simp only [Bool.false_eq_true, if_false, if_true, Bool.toNat_false, Bool.toNat_true] at hcount h <;>
      omega
  rw [esbStatReplyAsked_eq stats hpipe]
  dsimp only
  rw [Function.update_self, Function.update_self]
  by_cases hsome : 0 < stats.countAfterAsked pipe
  · rw [decide_eq_true hsome, Bool.toNat_true]
    exact hone
  · have := mt hpos.mpr hsome
    omega

/-- Reading a packet counts what the radio did when it arrived. -/
theorem Agrees.asked (h : stats.Agrees pipeCount queues) (pipe : ℕ) :
    (stats.esbStatReplyAsked pipeCount pipe).Agrees pipeCount (queues.answer pipe) := by
  intro other hother
  by_cases hpipe : pipe < pipeCount
  · rw [esbStatReplyAsked_eq stats hpipe]
    rcases eq_or_ne other pipe with rfl | hne
    · obtain ⟨hcount, hoffered⟩ := h other hother
      have hafter : (stats.countAfterAsked other).toNat =
          ((queues.answer other).replies other).length := by
        rw [toNat_countAfterAsked, hcount, hoffered]
        simp only [AckQueues.answer, Function.update_self]
        split_ifs
        · exact List.length_drop.symm
        · rfl
      simp only [Function.update_self]
      refine ⟨hafter, ?_⟩
      have hpos : 0 < stats.countAfterAsked other ↔
          0 < ((queues.answer other).replies other).length := by
        rw [← hafter]
        exact UInt8.lt_iff_toNat_lt
      have hsent : (queues.answer other).offered other =
          !((queues.answer other).replies other).isEmpty := by
        simp [AckQueues.answer]
      rw [hsent, Bool.eq_iff_iff, decide_eq_true_iff, hpos]
      simp [List.length_pos_iff]
    · rw [(queues.answer_of_ne hne).1, (queues.answer_of_ne hne).2]
      simp only [Function.update_of_ne hne]
      exact h other hother
  · have hne : other ≠ pipe := by omega
    rw [(queues.answer_of_ne hne).1, (queues.answer_of_ne hne).2, esbStatReplyAsked,
      if_pos (by omega)]
    exact h other hother

/-- The counts of all pipes move with one of them. -/
theorem total_update {pipe : ℕ} (hpipe : pipe < pipeCount) (counts : ℕ → UInt8) (count : UInt8) :
    (∑ other ∈ Finset.range pipeCount, (Function.update counts pipe count other).toNat) +
        (counts pipe).toNat =
      (∑ other ∈ Finset.range pipeCount, (counts other).toNat) + count.toNat := by
  have hmem : pipe ∈ Finset.range pipeCount := Finset.mem_range.mpr hpipe
  rw [← Finset.sum_erase_add _ _ hmem, ← Finset.sum_erase_add (Finset.range pipeCount)
    (fun other => (counts other).toNat) hmem, Function.update_self]
  have hsame : ∑ other ∈ (Finset.range pipeCount).erase pipe,
      (Function.update counts pipe count other).toNat =
      ∑ other ∈ (Finset.range pipeCount).erase pipe, (counts other).toNat := by
    refine Finset.sum_congr rfl fun other hother => ?_
    rw [Function.update_of_ne (Finset.ne_of_mem_erase hother)]
  omega

/-- The queued count is the total, within two replies a pipe, and so was its peak. -/
structure Bounded (pipeCount : ℕ) (stats : ReplyStats) : Prop where
  txQueued : stats.txQueued = stats.total pipeCount
  two : ∀ pipe < pipeCount, (stats.repliesQueued pipe).toNat ≤ 2
  txPeak : stats.txPeak.toNat ≤ 2 * pipeCount

theorem sum_le_two {counts : ℕ → UInt8} (htwo : ∀ pipe < pipeCount, (counts pipe).toNat ≤ 2) :
    ∑ pipe ∈ Finset.range pipeCount, (counts pipe).toNat ≤ 2 * pipeCount := by
  have hsum : ∑ pipe ∈ Finset.range pipeCount, (counts pipe).toNat ≤
      ∑ _pipe ∈ Finset.range pipeCount, 2 :=
    Finset.sum_le_sum fun pipe hpipe => htwo pipe (Finset.mem_range.mp hpipe)
  rw [Finset.sum_const_nat fun _ _ => rfl, Finset.card_range] at hsum
  omega

theorem Bounded.asked (h : stats.Bounded pipeCount) (pipe : ℕ) :
    (stats.esbStatReplyAsked pipeCount pipe).Bounded pipeCount := by
  by_cases hpipe : pipe < pipeCount
  · have hcount := toNat_countAfterAsked stats pipe
    have htotal := total_update hpipe stats.repliesQueued (stats.countAfterAsked pipe)
    have hqueued := h.txQueued
    rw [esbStatReplyAsked_eq stats hpipe]
    refine ⟨?_, fun other hother => ?_, h.txPeak⟩
    · have hmoved : (∑ other ∈ Finset.range pipeCount, (Function.update stats.repliesQueued pipe
          (stats.countAfterAsked pipe) other).toNat) + (if stats.leaves pipe then 1 else 0) =
          stats.total pipeCount := by
        rw [total]
        cases hleaves : stats.leaves pipe with
        | true =>
            rw [leaves, Bool.and_eq_true, decide_eq_true_iff] at hleaves
            have hpos : 0 < (stats.repliesQueued pipe).toNat := UInt8.lt_iff_toNat_lt.mp hleaves.2
            rw [hleaves.1] at hcount
            simp only [if_true] at hcount ⊢
            omega
        | false =>
            rw [countAfterAsked, hleaves]
            simp
      rw [total, hqueued]
      dsimp only
      split_ifs at hmoved ⊢ <;> omega
    · dsimp only
      rcases eq_or_ne other pipe with rfl | hne
      · have := h.two other hother
        rw [Function.update_self]
        omega
      · rw [Function.update_of_ne hne]
        exact h.two other hother
  · rw [esbStatReplyAsked, if_pos (by omega)]
    exact h

/-- Counting a write that was taken follows what it parked. -/
theorem Agrees.written (h : stats.Agrees pipeCount queues) {pipe : ℕ} (hpipe : pipe < pipeCount)
    {txFifoSize maxPayload : ℕ} {data : Bytes}
    (htaken : (queues.write txFifoSize maxPayload pipe data).2 = true)
    (hroom : (queues.replies pipe).length < 255) :
    (stats.esbStatReplyWritten pipeCount pipe).Agrees pipeCount
      (queues.write txFifoSize maxPayload pipe data).1 := by
  obtain ⟨hoffered, hreplies⟩ := queues.write_eq txFifoSize maxPayload pipe data
  intro other hother
  obtain ⟨hcount, hsame⟩ := h other hother
  rw [esbStatReplyWritten, if_neg (Nat.not_le.mpr hpipe), esbStatTxQueued, hoffered, hreplies, htaken,
    Bool.true_and]
  refine ⟨?_, hsame⟩
  dsimp only
  rcases eq_or_ne other pipe with rfl | hne
  · rw [Function.update_self, beq_self_eq_true, if_pos rfl, List.length_append,
      List.length_singleton, toNat_add_one (by omega), hcount]
  · rw [Function.update_of_ne hne, beq_eq_false_iff_ne.mpr hne, if_neg Bool.false_ne_true,
      List.append_nil]
    exact hcount

theorem Bounded.written (h : stats.Bounded pipeCount) (hcount : pipeCount ≤ esbPipeCount) {pipe : ℕ}
    (hpipe : pipe < pipeCount) (hone : (stats.repliesQueued pipe).toNat ≤ 1) :
    (stats.esbStatReplyWritten pipeCount pipe).Bounded pipeCount := by
  have hadd : (stats.repliesQueued pipe + 1).toNat = (stats.repliesQueued pipe).toNat + 1 :=
    toNat_add_one (by omega)
  have htotal := total_update hpipe stats.repliesQueued (stats.repliesQueued pipe + 1)
  have hqueued := h.txQueued
  rw [esbStatReplyWritten, if_neg (Nat.not_le.mpr hpipe), esbStatTxQueued]
  have htwo : ∀ other < pipeCount,
      (Function.update stats.repliesQueued pipe (stats.repliesQueued pipe + 1) other).toNat ≤ 2 := by
    intro other hother
    rcases eq_or_ne other pipe with rfl | hne
    · rw [Function.update_self]
      omega
    · rw [Function.update_of_ne hne]
      exact h.two other hother
  have hnext : stats.txQueued + 1 = (∑ other ∈ Finset.range pipeCount,
      (Function.update stats.repliesQueued pipe (stats.repliesQueued pipe + 1) other).toNat : ℕ) := by
    rw [hqueued, total]
    omega
  have hle := sum_le_two htwo
  have hsmall : 2 * pipeCount < 2 ^ 32 := by
    have : esbPipeCount = 8 := rfl
    omega
  refine ⟨hnext, htwo, ?_⟩
  dsimp only
  rw [hnext]
  generalize (∑ other ∈ Finset.range pipeCount,
    (Function.update stats.repliesQueued pipe (stats.repliesQueued pipe + 1) other).toNat) =
      queued at hle
  have hvalue : (UInt32.ofInt (queued : ℤ)).toNat = queued := by
    rw [UInt32.ofInt, UInt32.toNat_ofNat']
    omega
  rw [UInt32.max_def]
  split_ifs
  · rw [hvalue]
    exact hle
  · exact h.txPeak

theorem agrees_cleared (pipeCount : ℕ) (stats : ReplyStats) :
    (stats.esbStatTxCleared pipeCount).Agrees pipeCount .empty := by
  intro pipe hpipe
  rw [esbStatTxCleared]
  dsimp only
  rw [if_pos hpipe, if_pos hpipe]
  exact ⟨rfl, rfl⟩

theorem Bounded.cleared (h : stats.Bounded pipeCount) :
    (stats.esbStatTxCleared pipeCount).Bounded pipeCount := by
  refine ⟨?_, fun pipe hpipe => ?_, h.txPeak⟩
  · rw [total, Finset.sum_eq_zero fun pipe hpipe => ?_]
    · rfl
    · rw [esbStatTxCleared]
      dsimp only
      rw [if_pos (Finset.mem_range.mp hpipe)]
      rfl
  · rw [esbStatTxCleared]
    dsimp only
    rw [if_pos hpipe]
    exact Nat.zero_le _

/-! ### The order of reads and writes -/

/-- The counters of the pipes are the same, whatever the sums are. -/
structure SameCounts (first second : ReplyStats) : Prop where
  repliesQueued : first.repliesQueued = second.repliesQueued
  replyOffered : first.replyOffered = second.replyOffered

variable {first second : ReplyStats}

theorem SameCounts.agrees (h : first.SameCounts second) (hagrees : second.Agrees pipeCount queues) :
    first.Agrees pipeCount queues := by
  rwa [Agrees, h.repliesQueued, h.replyOffered]

theorem SameCounts.trans {third : ReplyStats} (hfirst : first.SameCounts second)
    (hsecond : second.SameCounts third) : first.SameCounts third :=
  ⟨hfirst.repliesQueued.trans hsecond.repliesQueued, hfirst.replyOffered.trans hsecond.replyOffered⟩

theorem SameCounts.asked (h : first.SameCounts second) (pipe : ℕ) :
    (first.esbStatReplyAsked pipeCount pipe).SameCounts (second.esbStatReplyAsked pipeCount pipe) := by
  by_cases hpipe : pipe < pipeCount
  · rw [esbStatReplyAsked_eq first hpipe, esbStatReplyAsked_eq second hpipe]
    have hafter : first.countAfterAsked pipe = second.countAfterAsked pipe := by
      rw [countAfterAsked, countAfterAsked, leaves, leaves, h.repliesQueued, h.replyOffered]
    exact ⟨by rw [h.repliesQueued, hafter], by rw [h.replyOffered, hafter]⟩
  · rw [esbStatReplyAsked, esbStatReplyAsked, if_pos (by omega), if_pos (by omega)]
    exact h

theorem SameCounts.reads (h : first.SameCounts second) (received : List RxPacket) :
    (received.foldl (afterRead pipeCount) first).SameCounts
      (received.foldl (afterRead pipeCount) second) := by
  induction received generalizing first second with
  | nil => exact h
  | cons packet received ih =>
      refine ih ?_
      rw [afterRead, afterRead]
      split_ifs
      · exact h
      · exact h.asked packet.pipe

/-- A write of one pipe and a packet of another are counted in either order. -/
theorem written_asked (stats : ReplyStats) {pipe other : ℕ} (hpipe : pipe < pipeCount)
    (hne : other ≠ pipe) :
    ((stats.esbStatReplyWritten pipeCount pipe).esbStatReplyAsked pipeCount other).SameCounts
      ((stats.esbStatReplyAsked pipeCount other).esbStatReplyWritten pipeCount pipe) := by
  rw [esbStatReplyWritten, esbStatReplyWritten, if_neg (by omega), if_neg (by omega)]
  by_cases hother : other < pipeCount
  · rw [esbStatReplyAsked_eq _ hother, esbStatReplyAsked_eq _ hother]
    simp only [esbStatTxQueued, countAfterAsked, leaves, Function.update_of_ne hne,
      Function.update_of_ne hne.symm]
    exact ⟨Function.update_comm hne.symm .., rfl⟩
  · rw [esbStatReplyAsked, esbStatReplyAsked, if_pos (by omega), if_pos (by omega)]
    exact ⟨rfl, rfl⟩

theorem reads_written {pipe : ℕ} (hpipe : pipe < pipeCount) (received : List RxPacket)
    (hnone : ∀ packet ∈ received, packet.noack = false → packet.pipe ≠ pipe) (stats : ReplyStats) :
    (received.foldl (afterRead pipeCount) (stats.esbStatReplyWritten pipeCount pipe)).SameCounts
      ((received.foldl (afterRead pipeCount) stats).esbStatReplyWritten pipeCount pipe) := by
  induction received generalizing stats with
  | nil => exact ⟨rfl, rfl⟩
  | cons packet received ih =>
      obtain ⟨hfirst, hrest⟩ := List.forall_mem_cons.mp hnone
      rw [List.foldl_cons, List.foldl_cons, afterRead, afterRead]
      cases hnoack : packet.noack with
      | true => exact ih hrest stats
      | false =>
          have hswap := stats.written_asked hpipe (hfirst hnoack)
          exact (hswap.reads received).trans (ih hrest _)

end ReplyStats

/-! ## The counted radio -/

structure CountedRadio (config : ReplyConfig) where
  radio : AckRadio config
  stats : ReplyStats

inductive CountedAction where
  | radio (action : AckRadioAction)
  /-- The link is disabled, which flushes the FIFO. -/
  | flush
  /-- The log takes the peak. -/
  | takePeak

namespace CountedRadio

open ReplyStats

def boot (config : ReplyConfig) : CountedRadio config := ⟨.boot config, .zero⟩

/-- What a step of the radio counts: a packet read, or the write of a turn. -/
def statsAfter (txFifoSize : ℕ) (counted : CountedRadio config) : AckRadioAction → ReplyStats
  | .interrupt =>
      match counted.radio.serving, counted.radio.received with
      | _ :: _, _ =>
          ((counted.radio.interrupt txFifoSize).link.writes.drop
            counted.radio.link.writes.length).foldl (afterWrite config.pipeCount) counted.stats
      | [], packet :: _ => counted.stats.afterRead config.pipeCount packet
      | [], [] => counted.stats
  | _ => counted.stats

def step (txFifoSize : ℕ) (counted : CountedRadio config) : CountedAction → CountedRadio config
  | .radio action =>
      { radio := counted.radio.step txFifoSize action
        stats := counted.statsAfter txFifoSize action }
  | .flush =>
      { radio := { counted.radio with queues := .empty }
        stats := counted.stats.esbStatTxCleared config.pipeCount }
  | .takePeak => { counted with stats := { counted.stats with txPeak := 0 } }

/-- No packet of a pipe comes between a drain and its reply. -/
def Clear (counted : CountedRadio config) : CountedAction → Prop
  | .radio action => counted.radio.Clear action
  | _ => True

instance (counted : CountedRadio config) : DecidablePred counted.Clear
  | .radio action => inferInstanceAs (Decidable (counted.radio.Clear action))
  | .flush => inferInstanceAs (Decidable True)
  | .takePeak => inferInstanceAs (Decidable True)

/-- The counters once the packets that wait have been read. -/
def settledStats (counted : CountedRadio config) : ReplyStats :=
  counted.radio.received.foldl (afterRead config.pipeCount) counted.stats

variable {limit txFifoSize : ℕ} {counted : CountedRadio config}

/-- A turn counts its write, if it makes one that is taken. -/
theorem stats_serve (hholds : counted.radio.Holds limit txFifoSize) {pipe : ℕ} {pipes : List ℕ}
    (hserving : counted.radio.serving = pipe :: pipes) :
    (counted.statsAfter txFifoSize .interrupt = counted.stats ∧
        (counted.radio.interrupt txFifoSize).queues.replies = counted.radio.queues.replies ∧
        (counted.radio.interrupt txFifoSize).queues.offered = counted.radio.queues.offered) ∨
      ∃ data, (counted.radio.queues.write txFifoSize config.maxPayload pipe data).2 = true ∧
        counted.statsAfter txFifoSize .interrupt =
          counted.stats.esbStatReplyWritten config.pipeCount pipe ∧
        (counted.radio.interrupt txFifoSize).queues =
          (counted.radio.queues.write txFifoSize config.maxPayload pipe data).1 := by
  have hturn : counted.radio.interrupt txFifoSize = counted.radio.serve txFifoSize pipe pipes := by
    rw [AckRadio.interrupt, hserving]
  have hstats : counted.statsAfter txFifoSize .interrupt =
      ((counted.radio.serve txFifoSize pipe pipes).link.writes.drop
        counted.radio.link.writes.length).foldl (afterWrite config.pipeCount) counted.stats := by
    rw [statsAfter, hserving, hturn]
  rw [hstats, hturn]
  rcases AckRadio.serve_cases txFifoSize pipes hholds.sound (hholds.queue pipe) with
    ⟨hwrites, hqueues⟩ | ⟨write, hpipe, -, -, htaken, hwrites, hqueues⟩
  · refine .inl ⟨?_, by rw [hqueues], by rw [hqueues]⟩
    rw [hwrites, List.drop_length]
    rfl
  · rw [hwrites, List.drop_left, List.foldl_cons, List.foldl_nil, afterWrite, hqueues]
    obtain ⟨hoffered, hreplies⟩ := counted.radio.queues.write_eq txFifoSize config.maxPayload pipe
      write.data
    cases haccepted : write.accepted with
    | true => exact .inr ⟨write.data, htaken ▸ haccepted, by rw [if_pos rfl, hpipe], rfl⟩
    | false =>
        refine .inl ⟨if_neg Bool.false_ne_true, funext fun other => ?_, hoffered⟩
        rw [hreplies, ← htaken, haccepted, Bool.false_and]
        exact List.append_nil _

/-! ### In any run -/

/-- A turn of the pipe is due for packets that were read. -/
def due (radio : AckRadio config) (pipe : ℕ) : Bool :=
  BitTable.readBit radio.pipesAcked pipe || decide (pipe ∈ radio.serving)

/-- A pipe with a turn due counts one reply at most, and two only when the oldest was
offered. -/
structure Tracks (txFifoSize : ℕ) (counted : CountedRadio config) : Prop where
  holds : counted.radio.Holds 2 txFifoSize
  drained : counted.radio.serving ≠ [] → counted.radio.pipesAcked = 0
  due : ∀ pipe < config.pipeCount, (counted.stats.repliesQueued pipe).toNat +
    (due counted.radio pipe).toNat ≤ 1 + (counted.stats.replyOffered pipe).toNat
  bounded : counted.stats.Bounded config.pipeCount

theorem holds_flush (h : counted.radio.Holds limit txFifoSize) :
    (counted.step txFifoSize .flush).radio.Holds limit txFifoSize :=
  ⟨h.sound, h.queue, h.serving, h.owed, fun pipe hpipe => AckQueues.room_empty (h.owed pipe hpipe),
    fun _ _ => rfl, h.accepted⟩

theorem Tracks.boot (txFifoSize : ℕ) (config : ReplyConfig) : (boot config).Tracks txFifoSize where
  holds := .boot 2 txFifoSize config
  drained h := absurd rfl h
  due pipe _ := by simp [CountedRadio.boot, AckRadio.boot, CountedRadio.due, zero, BitTable.readBit]
  bounded := ⟨by simp [CountedRadio.boot, zero, total], fun _ _ => Nat.zero_le _, Nat.zero_le _⟩

theorem Tracks.flush (h : counted.Tracks txFifoSize) :
    (counted.step txFifoSize .flush).Tracks txFifoSize := by
  refine ⟨holds_flush h.holds, h.drained, fun pipe hpipe => ?_, h.bounded.cleared⟩
  have hzero : ((counted.stats.esbStatTxCleared config.pipeCount).repliesQueued pipe).toNat = 0 := by
    rw [esbStatTxCleared]
    dsimp only
    rw [if_pos hpipe]
    rfl
  have hdue := Bool.toNat_le (CountedRadio.due counted.radio pipe)
  change (((counted.stats.esbStatTxCleared config.pipeCount).repliesQueued pipe).toNat) +
    (CountedRadio.due counted.radio pipe).toNat ≤ 1 + _
  omega

theorem Tracks.readPacket (h : counted.Tracks txFifoSize) {packet : RxPacket}
    {received : List RxPacket} (hserving : counted.radio.serving = [])
    (hreceived : counted.radio.received = packet :: received) :
    (counted.step txFifoSize (.radio .interrupt)).Tracks txFifoSize := by
  have hstats : counted.statsAfter txFifoSize .interrupt =
      counted.stats.afterRead config.pipeCount packet := by
    rw [statsAfter, hserving, hreceived]
  have hholds : (counted.radio.readRx packet received).Holds 2 txFifoSize :=
    @AckRadio.interrupt_read config txFifoSize _ _ _ hserving hreceived ▸ h.holds.interrupt
  rw [step, AckRadio.step, AckRadio.interrupt_read hserving hreceived, hstats, afterRead]
  cases hnoack : packet.noack with
  | true =>
      refine ⟨hholds, absurd hserving, fun pipe hpipe => ?_, h.bounded⟩
      have hdue := h.due pipe hpipe
      simpa only [CountedRadio.due, AckRadio.readRx, AckRadio.askedBy, hnoack, if_true] using hdue
  | false =>
      refine ⟨hholds, absurd hserving, fun pipe hpipe => ?_, h.bounded.asked packet.pipe⟩
      have hdue := h.due pipe hpipe
      rcases eq_or_ne pipe packet.pipe with rfl | hne
      · have hone := @count_asked _ counted.stats _ hpipe (by omega)
        have hle := Bool.toNat_le (CountedRadio.due (counted.radio.readRx packet received) packet.pipe)
        dsimp only
        rw [if_neg Bool.false_ne_true]
        omega
      · obtain ⟨hcount, hoffered⟩ := @asked_of_ne config.pipeCount counted.stats _ _ hne
        have hsame : CountedRadio.due (counted.radio.readRx packet received) pipe =
            CountedRadio.due counted.radio pipe := by
          simp only [CountedRadio.due, AckRadio.readRx, AckRadio.askedBy, hnoack]
          rw [if_neg Bool.false_ne_true,
            BitTable.readBit_writeBit (hpipe.trans_le config.pipeCount_le), if_neg hne.symm]
        dsimp only
        rw [if_neg Bool.false_ne_true, hcount, hoffered, hsame]
        exact hdue

theorem Tracks.endDrain (h : counted.Tracks txFifoSize) (hserving : counted.radio.serving = [])
    (hreceived : counted.radio.received = []) :
    (counted.step txFifoSize (.radio .interrupt)).Tracks txFifoSize := by
  have hstats : counted.statsAfter txFifoSize .interrupt = counted.stats := by
    rw [statsAfter, hserving, hreceived]
  have hholds : counted.radio.endDrain.Holds 2 txFifoSize :=
    @AckRadio.interrupt_drained config txFifoSize _ hserving hreceived ▸ h.holds.interrupt
  rw [step, AckRadio.step, AckRadio.interrupt_drained hserving hreceived, hstats]
  refine ⟨hholds, fun _ => rfl, fun pipe hpipe => ?_, h.bounded⟩
  have hsame : CountedRadio.due counted.radio.endDrain pipe = CountedRadio.due counted.radio pipe := by
    simp only [CountedRadio.due, AckRadio.endDrain, hserving, ReplyLink.mem_servedPipes, hpipe]
    cases BitTable.readBit counted.radio.pipesAcked pipe <;> simp [BitTable.readBit]
  rw [hsame]
  exact h.due pipe hpipe

/-- A turn is due, so its write is the first or the second reply that is counted. -/
theorem Tracks.serve (h : counted.Tracks txFifoSize) {pipe : ℕ} {pipes : List ℕ}
    (hserving : counted.radio.serving = pipe :: pipes) :
    (counted.step txFifoSize (.radio .interrupt)).Tracks txFifoSize := by
  have hsublist := h.holds.serving
  rw [hserving] at hsublist
  have hpipe : pipe < config.pipeCount := List.mem_range.mp (hsublist.subset List.mem_cons_self)
  have hnodup := List.nodup_cons.mp (List.nodup_range.sublist hsublist)
  have hturn := @AckRadio.interrupt_serve config txFifoSize _ _ _ hserving
  have hmine : CountedRadio.due counted.radio pipe = true := by
    simp [CountedRadio.due, hserving]
  have hdue := h.due pipe hpipe
  rw [hmine, Bool.toNat_true] at hdue
  have hothers : ∀ other ≠ pipe,
      CountedRadio.due (counted.radio.interrupt txFifoSize) other =
        CountedRadio.due counted.radio other := by
    intro other hne
    rw [hturn, CountedRadio.due, CountedRadio.due, hserving]
    exact congrArg _ (decide_eq_decide.mpr (by simp [AckRadio.serve, hne]))
  have hmask : counted.radio.pipesAcked = 0 := h.drained (by simp [hserving])
  have hdone : CountedRadio.due (counted.radio.interrupt txFifoSize) pipe = false := by
    rw [hturn]
    simp [CountedRadio.due, AckRadio.serve, hmask, hnodup.1, BitTable.readBit]
  have hoffered := Bool.toNat_le (counted.stats.replyOffered pipe)
  have hserved := h.holds.interrupt
  have hdrained : (counted.radio.interrupt txFifoSize).serving ≠ [] →
      (counted.radio.interrupt txFifoSize).pipesAcked = 0 := by
    rw [hturn]
    exact fun _ => hmask
  rcases stats_serve h.holds hserving with ⟨hstats, -, -⟩ | ⟨data, -, hstats, -⟩
  · rw [step, AckRadio.step, hstats]
    refine ⟨hserved, hdrained, fun other hother => ?_, h.bounded⟩
    rcases eq_or_ne other pipe with rfl | hne
    · dsimp only
      rw [hdone, Bool.toNat_false]
      omega
    · rw [hothers other hne]
      exact h.due other hother
  · rw [step, AckRadio.step, hstats]
    refine ⟨hserved, hdrained, fun other hother => ?_,
      h.bounded.written config.pipeCount_le hpipe (by omega)⟩
    rw [esbStatReplyWritten, if_neg (Nat.not_le.mpr hpipe), esbStatTxQueued]
    dsimp only
    rcases eq_or_ne other pipe with rfl | hne
    · rw [Function.update_self, toNat_add_one (by omega), hdone, Bool.toNat_false]
      omega
    · rw [Function.update_of_ne hne, hothers other hne]
      exact h.due other hother

theorem Tracks.step (h : counted.Tracks txFifoSize) (action : CountedAction) :
    (CountedRadio.step txFifoSize counted action).Tracks txFifoSize := by
  cases action with
  | flush => exact h.flush
  | takePeak =>
      exact ⟨h.holds, h.drained, h.due, h.bounded.txQueued, h.bounded.two, Nat.zero_le _⟩
  | radio action =>
      cases action with
      | thread action =>
          have hholds := h.holds.step (.thread action)
          rcases counted.radio.step_thread action with hsame | ⟨hstep, -⟩
          · rw [CountedRadio.step, hsame]
            exact h
          · rw [CountedRadio.step]
            rw [hstep] at hholds ⊢
            exact ⟨hholds, h.drained, h.due, h.bounded⟩
      | arrive packet => exact ⟨h.holds.step (.arrive packet), h.drained, h.due, h.bounded⟩
      | interrupt =>
          cases hserving : counted.radio.serving with
          | cons pipe pipes => exact h.serve hserving
          | nil =>
              cases hreceived : counted.radio.received with
              | cons packet received => exact h.readPacket hserving hreceived
              | nil => exact h.endDrain hserving hreceived

/-! ### With no packet between a drain and its replies -/

structure Mirrors (txFifoSize : ℕ) (counted : CountedRadio config) : Prop where
  holds : counted.radio.Holds 1 txFifoSize
  agrees : counted.settledStats.Agrees config.pipeCount counted.radio.queues

theorem Mirrors.boot (txFifoSize : ℕ) (config : ReplyConfig) : (boot config).Mirrors txFifoSize where
  holds := .boot 1 txFifoSize config
  agrees := fun _ _ => ⟨rfl, rfl⟩

theorem answer_empty (pipe : ℕ) : AckQueues.empty.answer pipe = .empty := by
  simp [AckQueues.answer, AckQueues.empty]

theorem Mirrors.flush (h : counted.Mirrors txFifoSize) :
    (counted.step txFifoSize .flush).Mirrors txFifoSize := by
  refine ⟨holds_flush h.holds, ?_⟩
  have hread : ∀ (received : List RxPacket) (stats : ReplyStats),
      stats.Agrees config.pipeCount .empty →
        (received.foldl (afterRead config.pipeCount) stats).Agrees config.pipeCount .empty := by
    intro received
    induction received with
    | nil => exact fun _ hstats => hstats
    | cons packet received ih =>
        intro stats hstats
        refine ih _ ?_
        rw [afterRead]
        split_ifs
        · exact hstats
        · rw [← answer_empty packet.pipe]
          exact hstats.asked packet.pipe
  exact hread _ _ (agrees_cleared _ _)

/-- The peak is no part of what the pipes' counters say. -/
theorem Mirrors.takePeak (h : counted.Mirrors txFifoSize) :
    (counted.step txFifoSize .takePeak).Mirrors txFifoSize := by
  have hsame : ReplyStats.SameCounts { counted.stats with txPeak := 0 } counted.stats := ⟨rfl, rfl⟩
  exact ⟨h.holds, (hsame.reads counted.radio.received).agrees h.agrees⟩

/-- The radio answers a packet before the counters see it. -/
theorem Mirrors.arrive (h : counted.Mirrors txFifoSize) {packet : RxPacket}
    (hclear : counted.radio.Clear (.arrive packet)) :
    (counted.step txFifoSize (.radio (.arrive packet))).Mirrors txFifoSize := by
  refine ⟨h.holds.step_clear hclear, ?_⟩
  rw [settledStats, step]
  dsimp only [AckRadio.step, AckRadio.arrive, statsAfter]
  rw [List.foldl_append, List.foldl_cons, List.foldl_nil, afterRead]
  split_ifs
  · exact h.agrees
  · exact h.agrees.asked packet.pipe

/-- What waits to be read asks for no reply of a pipe that has its turn. -/
theorem Mirrors.serve (h : counted.Mirrors txFifoSize) {pipe : ℕ} {pipes : List ℕ}
    (hserving : counted.radio.serving = pipe :: pipes) :
    (counted.step txFifoSize (.radio .interrupt)).Mirrors txFifoSize := by
  have hholds := h.holds.interrupt
  have hagrees := h.agrees
  have hsublist := h.holds.serving
  rw [hserving] at hsublist
  have hpipe : pipe < config.pipeCount := List.mem_range.mp (hsublist.subset List.mem_cons_self)
  have howed := h.holds.owed pipe hpipe
  rw [AckRadio.owed, hserving, if_pos List.mem_cons_self] at howed
  have hasked : counted.radio.asked pipe = false := by
    cases hasked : counted.radio.asked pipe with
    | false => rfl
    | true =>
        rw [hasked, Bool.toNat_true] at howed
        omega
  have hnone : ∀ packet ∈ counted.radio.received, packet.noack = false → packet.pipe ≠ pipe := by
    rw [AckRadio.asked, Bool.or_eq_false_iff, List.any_eq_false] at hasked
    intro packet hmem hnoack hsame
    exact hasked.2 packet hmem (by simp [hnoack, hsame])
  have hreceived : (counted.radio.interrupt txFifoSize).received = counted.radio.received := by
    rw [AckRadio.interrupt_serve hserving]
    rfl
  refine ⟨hholds, ?_⟩
  rw [settledStats] at hagrees ⊢
  rw [step, AckRadio.step]
  dsimp only
  rw [hreceived]
  rcases stats_serve h.holds hserving with ⟨hstats, hreplies, hoffered⟩ | ⟨data, htaken, hstats, hqueues⟩
  · rw [hstats]
    intro other hother
    rw [hreplies, hoffered]
    exact hagrees other hother
  · have hroom := (h.holds.room pipe hpipe).length_le
    rw [hstats, hqueues]
    exact (reads_written hpipe _ hnone counted.stats).agrees
      (hagrees.written hpipe htaken (by omega))

theorem Mirrors.step (h : counted.Mirrors txFifoSize) {action : CountedAction}
    (hclear : counted.Clear action) :
    (CountedRadio.step txFifoSize counted action).Mirrors txFifoSize := by
  cases action with
  | flush => exact h.flush
  | takePeak => exact h.takePeak
  | radio action =>
      cases action with
      | thread action =>
          refine ⟨h.holds.step_clear hclear, ?_⟩
          rcases counted.radio.step_thread action with hsame | ⟨hstep, -⟩
          · rw [settledStats, CountedRadio.step, hsame]
            exact h.agrees
          · rw [settledStats, CountedRadio.step, hstep]
            exact h.agrees
      | arrive packet => exact h.arrive hclear
      | interrupt =>
          have hagrees := h.agrees
          rw [settledStats] at hagrees
          cases hserving : counted.radio.serving with
          | cons pipe pipes => exact h.serve hserving
          | nil =>
              refine ⟨h.holds.interrupt, ?_⟩
              rw [settledStats, CountedRadio.step, AckRadio.step, statsAfter, hserving]
              cases hreceived : counted.radio.received with
              | cons packet received =>
                  rw [AckRadio.interrupt_read hserving hreceived]
                  rwa [hreceived] at hagrees
              | nil =>
                  rw [AckRadio.interrupt_drained hserving hreceived]
                  exact hagrees

/-- In every run the queued count is the total over the pipes, which count two replies
each at most. While no packet of a pipe comes between a drain and its reply, the counters
are the FIFO once the packets that wait are read: each pipe's count and whether its
oldest reply was offered. -/
theorem stats_mirror_fifo (config : ReplyConfig) (txFifoSize : ℕ) (actions : List CountedAction) :
    let counted := run (step txFifoSize) (boot config) actions
    counted.stats.Bounded config.pipeCount ∧
      (Along (step txFifoSize) Clear (boot config) actions →
        counted.settledStats.Agrees config.pipeCount counted.radio.queues ∧
          (counted.radio.received = [] → counted.stats.txQueued = counted.radio.queues.used)) := by
  intro counted
  have htracks : counted.Tracks txFifoSize :=
    run_invariant (fun _ action h => h.step action) (Tracks.boot txFifoSize config) actions
  refine ⟨htracks.bounded, fun hclear => ?_⟩
  have hmirrors : counted.Mirrors txFifoSize :=
    run_invariant_along (fun _ _ h haction => h.step haction) (Mirrors.boot txFifoSize config) hclear
  refine ⟨hmirrors.agrees, fun hreceived => ?_⟩
  have hagrees := hmirrors.agrees
  rw [settledStats, hreceived, List.foldl_nil] at hagrees
  rw [htracks.bounded.txQueued, AckQueues.used_eq config.pipeCount_le hmirrors.holds.empty, total]
  refine congrArg Nat.cast (Finset.sum_congr rfl fun pipe hpipe => ?_)
  exact (hagrees pipe (Finset.mem_range.mp hpipe)).1

/-- After two commands were asked for, the count is what is parked. -/
theorem stats_mirror_fifo_sample :
    let counted := run (step 4) (boot sampleReplyConfig) (AckRadio.askedTwice.map .radio)
    counted.stats.txQueued = counted.radio.queues.used :=
  ((stats_mirror_fifo sampleReplyConfig 4 (AckRadio.askedTwice.map .radio)).2
    (by decide +kernel)).2 (by decide +kernel)

end CountedRadio

end SplitEsb
