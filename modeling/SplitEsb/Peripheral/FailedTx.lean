import Mathlib.Data.UInt
import SplitEsb.Hop.Control
import SplitEsb.Shared.Transition

/-! # A transmission that failed
The radio refuses a new channel while it transmits. The interrupt of a failed packet,
which finds the radio idle, tunes it after the fact, and restarts the packet a few times
before the FIFO is flushed. The hop engine retunes on a thread the interrupt breaks into. -/

namespace SplitEsb

open Transition

def esbLinkTxRestartsMax : ℕ := 2

/-- `applied_index` of a radio that no hop tuned yet. -/
def unappliedIndex : ℕ := 255

/-- Where the thread stands in `apply_hop_channel`: called, past the check of the applied
index, and past the setting with the radio's answer. -/
inductive Retune (config : HopConfig) where
  | idle
  | called
  | tuning (index : Fin config.hopCount)
  | tuned (index : Fin config.hopCount) (accepted : Bool)

/-- What became of the head of the FIFO, or that the link stopped. -/
inductive TxOutcome where
  | restarted
  | flushed
  | succeeded
  | stopped
  deriving DecidableEq

/-- `rfChannel` is the radio's, and `txFlushed` the statistics' counter, which `flushesTaken`
records each time it is taken. `history` records the outcomes, newest first. -/
structure TxRecovery (config : HopConfig) where
  hopIndex : Fin config.hopCount
  appliedIndex : ℕ
  rfChannel : UInt8
  retune : Retune config
  txRestarts : ℕ
  restartQueued : Bool
  txFlushed : UInt32
  flushesTaken : List UInt32
  history : List TxOutcome

/-- The thread hops, or goes on by a statement, or runs the restart; the radio reports;
the two statements of `esb_link_role_stop`; the statistics take the flushes. The radio
accepts a setting or not. -/
inductive RecoveryAction (config : HopConfig) where
  | hop (index : Fin config.hopCount)
  | retune (accepted : Bool)
  | txSuccess
  | txFailed (accepted acked : Bool)
  | restartWork
  | cancelRestart
  | clearRestarts
  | takeFlushed

variable {config : HopConfig}

/-- A failure that finds the link acked. -/
def RecoveryAction.fails : RecoveryAction config → Bool
  | .txFailed _ acked => acked
  | _ => false

/-- Neither a success nor a stop, nor a failure that finds the link silent. -/
def RecoveryAction.persists : RecoveryAction config → Bool
  | .txSuccess => false
  | .clearRestarts => false
  | .txFailed _ acked => acked
  | _ => true

def HopConfig.hopChannelAt (config : HopConfig) (index : ℕ) : UInt8 :=
  config.hopChannels.getD index 0

namespace TxRecovery

/-- `esb_link_radio_setup` may have tuned the radio, or not. -/
def boot (hopIndex : Fin config.hopCount) (rfChannel : UInt8) : TxRecovery config :=
  ⟨hopIndex, unappliedIndex, rfChannel, .idle, 0, false, 0, [], []⟩

def hopCurrentChannel (recovery : TxRecovery config) : UInt8 :=
  config.hopChannelAt recovery.hopIndex

/-! ## Retuning -/

def setRfChannel (recovery : TxRecovery config) (index : ℕ) (accepted : Bool) :
    TxRecovery config :=
  if accepted then { recovery with rfChannel := config.hopChannelAt index } else recovery

/-- `apply_hop_channel` where nothing breaks into it. -/
def applyHopChannel (recovery : TxRecovery config) (accepted : Bool) : TxRecovery config :=
  if recovery.hopIndex.val = recovery.appliedIndex then recovery
  else
    let recovery := recovery.setRfChannel recovery.hopIndex accepted
    if accepted then { recovery with appliedIndex := recovery.hopIndex } else recovery

/-- A statement of `apply_hop_channel` on the thread. -/
def retuneStep (recovery : TxRecovery config) (accepted : Bool) : TxRecovery config :=
  match recovery.retune with
  | .idle => recovery
  | .called =>
      if recovery.hopIndex.val = recovery.appliedIndex then { recovery with retune := .idle }
      else { recovery with retune := .tuning recovery.hopIndex }
  | .tuning index =>
      { recovery.setRfChannel index accepted with retune := .tuned index accepted }
  | .tuned index accepted =>
      { recovery with
        appliedIndex := if accepted then index.val else recovery.appliedIndex
        retune := .idle }

/-- The thread hops once it is out of the last retune. -/
def hop (recovery : TxRecovery config) (index : Fin config.hopCount) : TxRecovery config :=
  match recovery.retune with
  | .idle => { recovery with hopIndex := index, retune := .called }
  | _ => recovery

/-! ## Restarting -/

def roleTxSucceeded (recovery : TxRecovery config) : TxRecovery config :=
  { recovery with txRestarts := 0, history := .succeeded :: recovery.history }

/-- `esb_link_role_retry_failed_tx`, and whether the packet is restarted. -/
def roleRetryFailedTx (recovery : TxRecovery config) (accepted acked : Bool) :
    TxRecovery config × Bool :=
  let recovery := recovery.applyHopChannel accepted
  if !acked || decide (esbLinkTxRestartsMax ≤ recovery.txRestarts) then
    ({ recovery with txRestarts := 0, txFlushed := recovery.txFlushed + 1 }, false)
  else ({ recovery with txRestarts := recovery.txRestarts + 1, restartQueued := true }, true)

/-- `ESB_EVENT_TX_FAILED` of `on_esb_event`. -/
def onTxFailed (recovery : TxRecovery config) (accepted acked : Bool) : TxRecovery config :=
  let (recovery, restarts) := recovery.roleRetryFailedTx accepted acked
  { recovery with
    history := (if restarts then .restarted else .flushed) :: recovery.history }

def step (recovery : TxRecovery config) : RecoveryAction config → TxRecovery config
  | .hop index => recovery.hop index
  | .retune accepted => recovery.retuneStep accepted
  | .txSuccess => recovery.roleTxSucceeded
  | .txFailed accepted acked => recovery.onTxFailed accepted acked
  | .restartWork => { recovery with restartQueued := false }
  | .cancelRestart => { recovery with restartQueued := false }
  | .clearRestarts =>
      { recovery with txRestarts := 0, history := .stopped :: recovery.history }
  | .takeFlushed =>
      { recovery with
        txFlushed := 0, flushesTaken := recovery.flushesTaken ++ [recovery.txFlushed] }

/-! ## The applied channel -/

/-- The applied index names the radio's channel, but for the moment in which the thread
has tuned the radio and not said so. -/
structure Tuned (recovery : TxRecovery config) : Prop where
  tuning : ∀ index, recovery.retune = .tuning index → index = recovery.hopIndex
  tuned : ∀ index accepted, recovery.retune = .tuned index accepted → index = recovery.hopIndex
  ahead : ∀ index, recovery.retune = .tuned index true →
    recovery.rfChannel = config.hopChannelAt index
  applied : (∀ index, recovery.retune ≠ .tuned index true) →
    recovery.appliedIndex ≠ unappliedIndex →
      recovery.rfChannel = config.hopChannelAt recovery.appliedIndex

variable {recovery : TxRecovery config}

theorem hopIndex_ne_unapplied (index : Fin config.hopCount) : index.val ≠ unappliedIndex :=
  Nat.ne_of_lt (index.isLt.trans config.hopChannels_lt)

theorem applyHopChannel_false (recovery : TxRecovery config) :
    recovery.applyHopChannel false = recovery := by
  by_cases hsame : recovery.hopIndex.val = recovery.appliedIndex
  · rw [applyHopChannel, if_pos hsame]
  · rw [applyHopChannel, if_neg hsame]
    rfl

theorem applyHopChannel_true_of_ne (hne : recovery.hopIndex.val ≠ recovery.appliedIndex) :
    recovery.applyHopChannel true =
      { recovery with
        rfChannel := recovery.hopCurrentChannel, appliedIndex := recovery.hopIndex } := by
  rw [applyHopChannel, if_neg hne]
  rfl

theorem applyHopChannel_of_eq (hsame : recovery.hopIndex.val = recovery.appliedIndex)
    (accepted : Bool) : recovery.applyHopChannel accepted = recovery := by
  rw [applyHopChannel, if_pos hsame]

/-- Where the applied index is the hop index, no matter where the thread stands. -/
theorem Tuned.on_channel (h : recovery.Tuned)
    (hsame : recovery.hopIndex.val = recovery.appliedIndex) :
    recovery.rfChannel = recovery.hopCurrentChannel := by
  by_cases hahead : ∃ index, recovery.retune = .tuned index true
  · obtain ⟨index, hindex⟩ := hahead
    rw [h.ahead index hindex, h.tuned index true hindex, hopCurrentChannel]
  · have happlied : recovery.appliedIndex ≠ unappliedIndex :=
      hsame ▸ hopIndex_ne_unapplied recovery.hopIndex
    rw [h.applied (fun index hindex => hahead ⟨index, hindex⟩) happlied, ← hsame,
      hopCurrentChannel]

theorem Tuned.applyHopChannel_true (h : recovery.Tuned) :
    (recovery.applyHopChannel true).rfChannel = recovery.hopCurrentChannel := by
  by_cases hsame : recovery.hopIndex.val = recovery.appliedIndex
  · rw [applyHopChannel_of_eq hsame]
    exact h.on_channel hsame
  · rw [applyHopChannel_true_of_ne hsame]

theorem Tuned.applyHopChannel (h : recovery.Tuned) (accepted : Bool) :
    (recovery.applyHopChannel accepted).Tuned := by
  cases accepted with
  | false => rwa [applyHopChannel_false]
  | true =>
      by_cases hsame : recovery.hopIndex.val = recovery.appliedIndex
      · rwa [applyHopChannel_of_eq hsame]
      · rw [applyHopChannel_true_of_ne hsame]
        refine ⟨h.tuning, h.tuned, fun index hindex => ?_, fun _ _ => rfl⟩
        rw [h.tuned index true hindex]
        rfl

/-- A thread that is not about to tune the radio, or to say that it did. -/
theorem Tuned.of_resting (hresting : recovery.retune = .idle ∨ recovery.retune = .called)
    (happlied : recovery.appliedIndex ≠ unappliedIndex →
      recovery.rfChannel = config.hopChannelAt recovery.appliedIndex) : recovery.Tuned := by
  refine ⟨fun index hindex => ?_, fun index accepted hindex => ?_, fun index hindex => ?_,
    fun _ => happlied⟩ <;>
  · rw [hindex] at hresting
    rcases hresting with hother | hother <;> cases hother

theorem Tuned.applied_of_ne (h : recovery.Tuned) {retune : Retune config}
    (hretune : recovery.retune = retune) (hne : ∀ index, retune ≠ .tuned index true) :
    recovery.appliedIndex ≠ unappliedIndex →
      recovery.rfChannel = config.hopChannelAt recovery.appliedIndex :=
  h.applied (hretune ▸ hne)

theorem Tuned.boot (hopIndex : Fin config.hopCount) (rfChannel : UInt8) :
    (boot hopIndex rfChannel : TxRecovery config).Tuned :=
  Tuned.of_resting (.inl rfl) fun happlied => absurd rfl happlied

theorem Tuned.retuneStep (h : recovery.Tuned) (accepted : Bool) :
    (recovery.retuneStep accepted).Tuned := by
  rw [TxRecovery.retuneStep]
  cases hretune : recovery.retune with
  | idle => exact h
  | called =>
      have happlied := h.applied_of_ne hretune fun _ hother => by cases hother
      dsimp only
      split_ifs with hsame
      · exact Tuned.of_resting (.inl rfl) happlied
      · refine ⟨?_, fun _ _ hother => (by cases hother), fun _ hother => (by cases hother),
          fun _ => happlied⟩
        rintro _ ⟨⟩
        rfl
  | tuning index =>
      have hindex := h.tuning index hretune
      have htuned (taken : Bool) : ∀ other answer,
          Retune.tuned index taken = .tuned other answer → other = recovery.hopIndex := by
        rintro _ _ ⟨⟩
        exact hindex
      cases accepted with
      | true =>
          refine ⟨fun _ hother => (by cases hother), htuned true, ?_,
            fun hnot => absurd rfl (hnot index)⟩
          rintro _ ⟨⟩
          rfl
      | false =>
          have happlied := h.applied_of_ne hretune fun _ hother => by cases hother
          exact ⟨fun _ hother => (by cases hother), htuned false,
            fun _ hother => (by cases hother), fun _ => happlied⟩
  | tuned index taken =>
      refine Tuned.of_resting (.inl rfl) ?_
      cases taken with
      | true => exact fun _ => h.ahead index hretune
      | false => exact h.applied_of_ne hretune fun _ hother => by cases hother

/-- Hopping and tuning leave the counts alone. -/
structure KeepsTries (recovery after : TxRecovery config) : Prop where
  txRestarts : after.txRestarts = recovery.txRestarts
  txFlushed : after.txFlushed = recovery.txFlushed
  flushesTaken : after.flushesTaken = recovery.flushesTaken
  history : after.history = recovery.history

namespace KeepsTries

theorem refl (recovery : TxRecovery config) : KeepsTries recovery recovery := ⟨rfl, rfl, rfl, rfl⟩

theorem applyHopChannel (recovery : TxRecovery config) (accepted : Bool) :
    KeepsTries recovery (recovery.applyHopChannel accepted) := by
  cases accepted with
  | false =>
      rw [applyHopChannel_false]
      exact refl recovery
  | true =>
      by_cases hsame : recovery.hopIndex.val = recovery.appliedIndex
      · rw [applyHopChannel_of_eq hsame]
        exact refl recovery
      · rw [applyHopChannel_true_of_ne hsame]
        exact ⟨rfl, rfl, rfl, rfl⟩

theorem hop (recovery : TxRecovery config) (index : Fin config.hopCount) :
    KeepsTries recovery (recovery.hop index) := by
  rw [TxRecovery.hop]
  split
  · exact ⟨rfl, rfl, rfl, rfl⟩
  · exact refl recovery

theorem retuneStep (recovery : TxRecovery config) (accepted : Bool) :
    KeepsTries recovery (recovery.retuneStep accepted) := by
  rw [TxRecovery.retuneStep]
  split
  · exact refl recovery
  · split_ifs
    · exact ⟨rfl, rfl, rfl, rfl⟩
    · exact ⟨rfl, rfl, rfl, rfl⟩
  · rw [setRfChannel]
    split_ifs
    · exact ⟨rfl, rfl, rfl, rfl⟩
    · exact ⟨rfl, rfl, rfl, rfl⟩
  · exact ⟨rfl, rfl, rfl, rfl⟩

end KeepsTries

theorem roleRetryFailedTx_eq (recovery : TxRecovery config) (accepted acked : Bool) :
    recovery.roleRetryFailedTx accepted acked =
      let tuned := recovery.applyHopChannel accepted
      if acked && decide (recovery.txRestarts < esbLinkTxRestartsMax) then
        ({ tuned with txRestarts := recovery.txRestarts + 1, restartQueued := true }, true)
      else ({ tuned with txRestarts := 0, txFlushed := recovery.txFlushed + 1 }, false) := by
  obtain ⟨hrestarts, hflushed, -, -⟩ := KeepsTries.applyHopChannel recovery accepted
  rw [roleRetryFailedTx]
  dsimp only
  rw [hrestarts, hflushed]
  cases acked with
  | false => rfl
  | true =>
      by_cases hless : recovery.txRestarts < esbLinkTxRestartsMax
      · simp [hless, Nat.not_le.mpr hless]
      · simp [hless, Nat.le_of_not_lt hless]

/-- A failed packet is restarted or flushed, on the hop channel if the radio takes it. -/
theorem onTxFailed_eq (recovery : TxRecovery config) (accepted acked : Bool) :
    recovery.onTxFailed accepted acked =
      let tuned := recovery.applyHopChannel accepted
      if acked && decide (recovery.txRestarts < esbLinkTxRestartsMax) then
        { tuned with
          txRestarts := recovery.txRestarts + 1, restartQueued := true
          txFlushed := recovery.txFlushed, flushesTaken := recovery.flushesTaken
          history := .restarted :: recovery.history }
      else
        { tuned with
          txRestarts := 0, txFlushed := recovery.txFlushed + 1
          flushesTaken := recovery.flushesTaken
          history := .flushed :: recovery.history } := by
  obtain ⟨-, hflushed, htaken, hhistory⟩ := KeepsTries.applyHopChannel recovery accepted
  rw [onTxFailed, roleRetryFailedTx_eq]
  dsimp only
  rw [← hhistory, ← htaken]
  generalize (acked && decide (recovery.txRestarts < esbLinkTxRestartsMax)) = restarts
  cases restarts with
  | true => rw [← hflushed]; rfl
  | false => rfl

theorem Tuned.step (h : recovery.Tuned) (action : RecoveryAction config) :
    (recovery.step action).Tuned := by
  cases action with
  | hop index =>
      rw [TxRecovery.step, hop]
      cases hretune : recovery.retune with
      | idle =>
          exact Tuned.of_resting (.inr rfl)
            (h.applied_of_ne hretune fun _ hother => by cases hother)
      | _ => exact h
  | retune accepted => exact h.retuneStep accepted
  | txFailed accepted acked =>
      have happly := h.applyHopChannel accepted
      rw [TxRecovery.step, onTxFailed_eq]
      dsimp only
      split_ifs
      · exact ⟨happly.tuning, happly.tuned, happly.ahead, happly.applied⟩
      · exact ⟨happly.tuning, happly.tuned, happly.ahead, happly.applied⟩
  | txSuccess => exact ⟨h.tuning, h.tuned, h.ahead, h.applied⟩
  | restartWork => exact ⟨h.tuning, h.tuned, h.ahead, h.applied⟩
  | cancelRestart => exact ⟨h.tuning, h.tuned, h.ahead, h.applied⟩
  | clearRestarts => exact ⟨h.tuning, h.tuned, h.ahead, h.applied⟩
  | takeFlushed => exact ⟨h.tuning, h.tuned, h.ahead, h.applied⟩

/-! ## Restarts in a row -/

/-- The restarts since the last other outcome. -/
def restartsInRow (history : List TxOutcome) : ℕ :=
  (history.takeWhile fun outcome => outcome = .restarted).length

structure Counted (recovery : TxRecovery config) : Prop where
  restarts : recovery.txRestarts = restartsInRow recovery.history
  bounded : recovery.txRestarts ≤ esbLinkTxRestartsMax
  flushes : recovery.flushesTaken.sum + recovery.txFlushed =
    UInt32.ofNat (recovery.history.count .flushed)
  inRow : ∀ front rest, recovery.history = front ++ rest →
    restartsInRow rest ≤ esbLinkTxRestartsMax

theorem Counted.boot (hopIndex : Fin config.hopCount) (rfChannel : UInt8) :
    (boot hopIndex rfChannel : TxRecovery config).Counted where
  restarts := rfl
  bounded := Nat.zero_le _
  flushes := rfl
  inRow front rest h := by
    rw [(List.append_eq_nil_iff.mp h.symm).2]
    exact Nat.zero_le _

theorem inRow_cons {outcome : TxOutcome} {history : List TxOutcome} {limit : ℕ}
    (hinRow : ∀ front rest, history = front ++ rest → restartsInRow rest ≤ limit)
    (hnew : restartsInRow (outcome :: history) ≤ limit) (front rest : List TxOutcome)
    (h : outcome :: history = front ++ rest) : restartsInRow rest ≤ limit := by
  cases front with
  | nil => rwa [← h.trans (List.nil_append rest)]
  | cons other front => exact hinRow front rest (List.cons.inj h).2

theorem Counted.keeps (h : recovery.Counted) {after : TxRecovery config}
    (hkeeps : KeepsTries recovery after) : after.Counted := by
  obtain ⟨hrestarts, hflushed, htaken, hhistory⟩ := hkeeps
  refine ⟨?_, ?_, ?_, ?_⟩
  · rw [hrestarts, hhistory]
    exact h.restarts
  · rw [hrestarts]
    exact h.bounded
  · rw [htaken, hflushed, hhistory]
    exact h.flushes
  · rw [hhistory]
    exact h.inRow

theorem Counted.step (h : recovery.Counted) (action : RecoveryAction config) :
    (recovery.step action).Counted := by
  cases action with
  | hop index => exact h.keeps (.hop recovery index)
  | retune accepted => exact h.keeps (.retuneStep recovery accepted)
  | txFailed accepted acked =>
      rw [TxRecovery.step, onTxFailed_eq]
      dsimp only
      split_ifs with hrestarts
      · have hless : recovery.txRestarts < esbLinkTxRestartsMax := by simp_all
        have hrow : restartsInRow (.restarted :: recovery.history) = recovery.txRestarts + 1 := by
          rw [h.restarts]
          rfl
        exact ⟨hrow.symm, hless, h.flushes, inRow_cons h.inRow (hrow ▸ hless)⟩
      · refine ⟨rfl, Nat.zero_le _, ?_, inRow_cons h.inRow (Nat.zero_le _)⟩
        rw [List.count_cons_self, UInt32.ofNat_add, ← h.flushes, UInt32.add_assoc]
        rfl
  | txSuccess =>
      exact ⟨rfl, Nat.zero_le _, h.flushes.trans (by simp [TxRecovery.step, roleTxSucceeded]),
        inRow_cons h.inRow (Nat.zero_le _)⟩
  | restartWork => exact h.keeps ⟨rfl, rfl, rfl, rfl⟩
  | cancelRestart => exact h.keeps ⟨rfl, rfl, rfl, rfl⟩
  | clearRestarts =>
      exact ⟨rfl, Nat.zero_le _, h.flushes.trans (by simp [TxRecovery.step]),
        inRow_cons h.inRow (Nat.zero_le _)⟩
  | takeFlushed =>
      refine ⟨h.restarts, h.bounded, ?_, h.inRow⟩
      change (recovery.flushesTaken ++ [recovery.txFlushed]).sum + 0 = _
      rw [List.sum_append, List.sum_singleton, UInt32.add_zero]
      exact h.flushes

/-- What failures add one to each: the restarts, and a full row of them for each flush. -/
def tries (recovery : TxRecovery config) : ℕ :=
  recovery.history.count .flushed * (esbLinkTxRestartsMax + 1) + recovery.txRestarts

theorem KeepsTries.tries {after : TxRecovery config} (h : KeepsTries recovery after) :
    after.tries = recovery.tries := by
  rw [TxRecovery.tries, TxRecovery.tries, h.txRestarts, h.history]

theorem tries_step (h : recovery.txRestarts ≤ esbLinkTxRestartsMax)
    {action : RecoveryAction config} (hpersists : action.persists = true) :
    (recovery.step action).tries = recovery.tries + if action.fails then 1 else 0 := by
  cases action with
  | hop index => exact (KeepsTries.hop recovery index).tries
  | retune accepted => exact (KeepsTries.retuneStep recovery accepted).tries
  | txSuccess => cases hpersists
  | txFailed accepted acked =>
      obtain rfl : acked = true := hpersists
      rw [TxRecovery.step, onTxFailed_eq]
      by_cases hless : recovery.txRestarts < esbLinkTxRestartsMax
      · simp [hless, tries, RecoveryAction.fails, Nat.add_assoc]
      · have hfull : recovery.txRestarts = esbLinkTxRestartsMax := by omega
        simp [tries, RecoveryAction.fails, hfull, Nat.succ_mul, Nat.add_assoc]
  | restartWork => rfl
  | cancelRestart => rfl
  | clearRestarts => cases hpersists
  | takeFlushed => rfl

theorem tries_run (h : recovery.Counted) {actions : List (RecoveryAction config)}
    (hpersists : ∀ action ∈ actions, action.persists = true) :
    (run TxRecovery.step recovery actions).tries =
      recovery.tries + actions.countP RecoveryAction.fails := by
  induction actions generalizing recovery with
  | nil => rfl
  | cons action actions ih =>
      obtain ⟨hfirst, hrest⟩ := List.forall_mem_cons.mp hpersists
      rw [run_cons, ih (h.step action) hrest, tries_step h.bounded hfirst, List.countP_cons]
      omega

/-- The flushes are the full rows among the tries. -/
theorem Counted.count_flushed (h : recovery.Counted) :
    recovery.history.count .flushed = recovery.tries / (esbLinkTxRestartsMax + 1) := by
  have hrow : recovery.txRestarts / (esbLinkTxRestartsMax + 1) = 0 :=
    Nat.div_eq_of_lt (Nat.lt_succ_of_le h.bounded)
  rw [tries, Nat.mul_comm, Nat.mul_add_div (Nat.succ_pos _), hrow, Nat.add_zero]

/-- One failure in `esbLinkTxRestartsMax + 1` flushes while the link is acked. -/
theorem Counted.count_flushed_run (h : recovery.Counted) {actions : List (RecoveryAction config)}
    (hpersists : ∀ action ∈ actions, action.persists = true) :
    (run TxRecovery.step recovery actions).history.count .flushed =
      recovery.history.count .flushed +
        (recovery.txRestarts + actions.countP RecoveryAction.fails) /
          (esbLinkTxRestartsMax + 1) := by
  have hafter : (run TxRecovery.step recovery actions).Counted :=
    run_invariant (fun _ action h => h.step action) h actions
  rw [hafter.count_flushed, tries_run h hpersists, tries, Nat.add_assoc, Nat.mul_comm,
    Nat.mul_add_div (Nat.succ_pos _)]

/-! ## The results -/

/-- At whatever statement of a retune the interrupt breaks in, a skipped setting was
already made, and a failure whose setting the radio takes leaves it on the hop channel. -/
theorem radio_follows_hop_index (config : HopConfig) (hopIndex : Fin config.hopCount)
    (rfChannel : UInt8) (actions : List (RecoveryAction config)) :
    let recovery := run TxRecovery.step (boot hopIndex rfChannel) actions
    (recovery.hopIndex.val = recovery.appliedIndex →
        recovery.rfChannel = recovery.hopCurrentChannel) ∧
      (∀ index, recovery.retune = .tuned index true →
        recovery.rfChannel = recovery.hopCurrentChannel) ∧
      ∀ acked, (recovery.step (.txFailed true acked)).rfChannel = recovery.hopCurrentChannel := by
  intro recovery
  have htuned : recovery.Tuned :=
    run_invariant (fun _ action h => h.step action) (Tuned.boot hopIndex rfChannel) actions
  refine ⟨htuned.on_channel, fun index hindex => ?_, fun acked => ?_⟩
  · rw [htuned.ahead index hindex, htuned.tuned index true hindex, hopCurrentChannel]
  · rw [TxRecovery.step, onTxFailed_eq]
    dsimp only
    split_ifs
    · exact htuned.applyHopChannel_true
    · exact htuned.applyHopChannel_true

/-- A failure is restarted while the link is acked and fewer than the limit were restarted
since the last flush, success or stop, so never more than the limit in a row; and the
statistics count the flushes. -/
theorem restarts_in_a_row (config : HopConfig) (hopIndex : Fin config.hopCount)
    (rfChannel : UInt8) (actions : List (RecoveryAction config)) :
    let recovery := run TxRecovery.step (boot hopIndex rfChannel) actions
    (∀ accepted acked, (recovery.roleRetryFailedTx accepted acked).2 = true ↔
        acked = true ∧ restartsInRow recovery.history < esbLinkTxRestartsMax) ∧
      (∀ front rest, recovery.history = front ++ rest →
        restartsInRow rest ≤ esbLinkTxRestartsMax) ∧
      recovery.flushesTaken.sum + recovery.txFlushed =
        UInt32.ofNat (recovery.history.count .flushed) ∧
      ∀ more : List (RecoveryAction config), (∀ action ∈ more, action.persists = true) →
        (run TxRecovery.step recovery more).history.count .flushed =
          recovery.history.count .flushed +
            (restartsInRow recovery.history + more.countP RecoveryAction.fails) /
              (esbLinkTxRestartsMax + 1) := by
  intro recovery
  have hcounted : recovery.Counted :=
    run_invariant (fun _ action h => h.step action) (Counted.boot hopIndex rfChannel) actions
  refine ⟨fun accepted acked => ?_, hcounted.inRow, hcounted.flushes, fun more hmore => ?_⟩
  · rw [← hcounted.restarts, roleRetryFailedTx_eq]
    dsimp only
    split_ifs with hrestarts
    · simpa using hrestarts
    · simpa using hrestarts
  · rw [← hcounted.restarts]
    exact hcounted.count_flushed_run hmore

end TxRecovery

end SplitEsb
