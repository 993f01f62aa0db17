import Sponge.Sender.FillWindow

/-!
The retransmission timer and its backoff over every run of the sender.

A run is read beside a history (`TimerLog`): the window size of the last
acknowledgement, and one entry for each expiry since the last acknowledgement of new
data, which says whether the window was zero when it happened. Along every run
(`TimedReach.timerInv`) the timer runs exactly while something is outstanding, the count
of retransmissions is the number of those expiries and the timeout is the initial one
doubled once for each of them with a nonzero window, both as `unsigned int`s, modulo
`2^32`; and each expiry sends the oldest outstanding segment once more
(`tick_of_expires`).
-/

namespace Sponge

namespace TCPSender

variable {s t : TCPSender} {seg : TCPSegment} {rest : List TCPSegment} {ms : Nat}

/-- Whether a tick of `ms` handles an expiry, as `tick` tests it: something is outstanding
and, with the time added, the timer has run out. -/
def expires (s : TCPSender) (ms : Nat) : Bool :=
  !s.segmentsPending.isEmpty && (s.timer.tick ms).timedOut

/-- Whether an acknowledgement is of new data: past the last one accepted and not past the
window, the branch of `ack_received` that moves the window. -/
def acksNewData (s : TCPSender) (ackno : WrappingInt32) : Bool :=
  let absoluteAckno := (unwrap ackno s.isn (UInt64.ofNat s.receiverWindowLeft)).toNat
  decide (s.receiverWindowLeft < absoluteAckno) && decide (absoluteAckno ≤ s.receiverWindowRight)

/-- An acknowledgement of new data is the branch of `ack_received` that moves the window. -/
theorem acksNewData_eq (s : TCPSender) (ackno : WrappingInt32) :
    s.acksNewData ackno = decide (s.ackEnd ackno = .newData) := by
  unfold acksNewData ackEnd
  dsimp only
  generalize (unwrap ackno s.isn (UInt64.ofNat s.receiverWindowLeft)).toNat = a
  by_cases h0 : a > s.receiverWindowRight
  · rw [if_pos h0]
    simp only [reduceCtorEq, decide_false, Bool.and_eq_false_iff, decide_eq_false_iff_not]
    omega
  rw [if_neg h0]
  by_cases h1 : a > s.receiverWindowLeft
  · rw [if_pos h1]
    simp only [decide_true, Bool.and_eq_true, decide_eq_true_eq]
    omega
  · rw [if_neg h1, Bool.and_eq_false_iff.mpr (Or.inl (by simpa using h1))]
    split <;> simp

/-- A tick that handles no expiry only moves the timer, and stops it when nothing is
outstanding. -/
theorem tick_of_not_expires (h : s.expires ms = false) :
    s.tick ms = { s with timer :=
      if s.segmentsPending = [] then (s.timer.tick ms).stop else s.timer.tick ms } := by
  unfold tick
  rcases hp : s.segmentsPending with _ | ⟨seg, rest⟩
  · simp
  · have ht : (s.timer.tick ms).timedOut = false := by simpa [expires, hp] using h
    simp [ht]

/-- An expiry sends the oldest outstanding segment once more, counts it, doubles the
timeout unless the window was zero, and starts the timer again. -/
theorem tick_of_expires (hp : s.segmentsPending = seg :: rest)
    (ht : (s.timer.tick ms).timedOut = true) :
    s.tick ms =
      { s with segmentsOut := s.segmentsOut ++ [seg],
               consecutiveRetransmissions := (s.consecutiveRetransmissions + 1) % 2 ^ 32,
               retransmissionTimeout := if s.zeroWindowSize then s.retransmissionTimeout
                 else s.retransmissionTimeout * 2 % 2 ^ 32,
               timer := (s.timer.tick ms).start (if s.zeroWindowSize then s.retransmissionTimeout
                 else s.retransmissionTimeout * 2 % 2 ^ 32) } := by
  unfold tick
  simp only [hp, ht, if_true]
  split <;> rfl

theorem expires_iff : s.expires ms = true ↔
    ∃ seg rest, s.segmentsPending = seg :: rest ∧ (s.timer.tick ms).timedOut = true := by
  unfold expires
  rcases s.segmentsPending with _ | ⟨seg, rest⟩ <;> simp

/-- What a tick sends: the oldest outstanding segment, once, exactly when it handles an
expiry. -/
theorem tick_segmentsOut (s : TCPSender) (ms : Nat) :
    (s.tick ms).segmentsOut = s.segmentsOut ++ if s.expires ms then s.segmentsPending.take 1 else [] := by
  cases hx : s.expires ms with
  | false => rw [tick_of_not_expires hx]; simp
  | true =>
    obtain ⟨seg, rest, hp, ht⟩ := expires_iff.mp hx
    rw [tick_of_expires hp ht, hp]
    simp

end TCPSender

/-- The history the timer is read from: whether the window of the last acknowledgement
was zero, and for each expiry since the last acknowledgement of new data (or since the
sender was made), whether the window was zero when it happened. -/
structure TimerLog where
  lastWindowZero : Bool := false
  expiries : List Bool := []
  deriving DecidableEq, Repr

namespace TimerLog

/-- An acknowledgement: it sets the window, and one of new data starts the count again. -/
def ack (l : TimerLog) (newData : Bool) (windowSize : UInt16) : TimerLog :=
  { lastWindowZero := windowSize == 0, expiries := if newData then [] else l.expiries }

def expire (l : TimerLog) : TimerLog := { l with expiries := l.expiries ++ [l.lastWindowZero] }

/-- The expiries that doubled the timeout: those with a nonzero window. -/
def backoffs (l : TimerLog) : Nat := l.expiries.count false

@[simp] theorem ack_lastWindowZero (l : TimerLog) (newData : Bool) (windowSize : UInt16) :
    (l.ack newData windowSize).lastWindowZero = (windowSize == 0) := rfl
@[simp] theorem expire_lastWindowZero (l : TimerLog) : l.expire.lastWindowZero = l.lastWindowZero :=
  rfl
@[simp] theorem length_expire (l : TimerLog) : l.expire.expiries.length = l.expiries.length + 1 := by
  simp [expire]

theorem backoffs_expire (l : TimerLog) :
    l.expire.backoffs = if l.lastWindowZero then l.backoffs else l.backoffs + 1 := by
  cases h : l.lastWindowZero <;> simp [expire, backoffs, h]

end TimerLog

namespace TCPSender

/-- The sender's runs from its constructor, by every call with any arguments, each with the
history it adds. -/
inductive TimedReach : TCPSender → TimerLog → Prop
  | init (capacity : Nat) (retxTimeout : UInt16) (fixedIsn : Option WrappingInt32)
      (randomIsn : WrappingInt32) : TimedReach (init capacity retxTimeout fixedIsn randomIsn) {}
  | write {s l} (data : List UInt8) : TimedReach s l → TimedReach (s.streamInWrite data) l
  | endInput {s l} : TimedReach s l → TimedReach s.streamInEndInput l
  | fillWindow {s l} : TimedReach s l → TimedReach s.fillWindow l
  | sendEmptySegment {s l} : TimedReach s l → TimedReach s.sendEmptySegment l
  | ackReceived {s l} (ackno : WrappingInt32) (windowSize : UInt16) :
      TimedReach s l → TimedReach (s.ackReceived ackno windowSize) (l.ack (s.acksNewData ackno) windowSize)
  | tick {s l} (ms : Nat) :
      TimedReach s l → TimedReach (s.tick ms) (if s.expires ms then l.expire else l)

/-- The timer and the backoff against the history. -/
structure TimerInv (s : TCPSender) (l : TimerLog) : Prop where
  running_iff : s.timer.running = true ↔ s.segmentsPending ≠ []
  zeroWindowSize_eq : s.zeroWindowSize = l.lastWindowZero
  consecutive_eq : s.consecutiveRetransmissions = l.expiries.length % 2 ^ 32
  timeout_eq : s.retransmissionTimeout = s.initialRetransmissionTimeout * 2 ^ l.backoffs % 2 ^ 32
  initial_lt : s.initialRetransmissionTimeout < 2 ^ 32

variable {l : TimerLog}

/-- A state that keeps the backoff fields keeps the invariant, once its timer agrees with
what is outstanding. -/
theorem TimerInv.frame (hi : TimerInv s l) (hrun : t.timer.running = true ↔ t.segmentsPending ≠ [])
    (hz : t.zeroWindowSize = s.zeroWindowSize)
    (hc : t.consecutiveRetransmissions = s.consecutiveRetransmissions)
    (hr : t.retransmissionTimeout = s.retransmissionTimeout)
    (hinit : t.initialRetransmissionTimeout = s.initialRetransmissionTimeout) : TimerInv t l where
  running_iff := hrun
  zeroWindowSize_eq := hz.trans hi.zeroWindowSize_eq
  consecutive_eq := hc.trans hi.consecutive_eq
  timeout_eq := by rw [hr, hinit]; exact hi.timeout_eq
  initial_lt := hinit ▸ hi.initial_lt

/-- A state with no expiry since the last acknowledgement of new data, the timeout back at
its initial value. -/
theorem TimerInv.reset (hrun : s.timer.running = true ↔ s.segmentsPending ≠ [])
    (hz : s.zeroWindowSize = l.lastWindowZero) (hl : l.expiries = [])
    (hc : s.consecutiveRetransmissions = 0)
    (hr : s.retransmissionTimeout = s.initialRetransmissionTimeout)
    (hinit : s.initialRetransmissionTimeout < 2 ^ 32) : TimerInv s l where
  running_iff := hrun
  zeroWindowSize_eq := hz
  consecutive_eq := by simp [hc, hl]
  timeout_eq := by
    simp only [hr, hl, TimerLog.backoffs, List.count_nil, pow_zero, Nat.mul_one]
    exact (Nat.mod_eq_of_lt hinit).symm
  initial_lt := hinit

theorem timerInv_init (capacity : Nat) (retxTimeout : UInt16) (fixedIsn : Option WrappingInt32)
    (randomIsn : WrappingInt32) : TimerInv (init capacity retxTimeout fixedIsn randomIsn) {} :=
  TimerInv.reset (by simp [init]) rfl rfl rfl rfl (by have := retxTimeout.toNat_lt; simp [init]; omega)

theorem TimerInv.stream (hi : TimerInv s l) (st : ByteStream) : TimerInv { s with stream := st } l :=
  hi.frame hi.running_iff rfl rfl rfl rfl

theorem TimerInv.fined (hi : TimerInv s l) : TimerInv { s with fined := true } l :=
  hi.frame hi.running_iff rfl rfl rfl rfl

/-- A segment that occupies sequence space is outstanding and has the timer running. -/
theorem TimerInv.send (hi : TimerInv s l) (b : TCPSegmentBuilder) : TimerInv (s.send b) l := by
  refine hi.frame ?_ (send_zeroWindowSize b s) (send_consecutiveRetransmissions b s)
    (send_retransmissionTimeout b s) (send_initialRetransmissionTimeout b s)
  rw [send_timer_running, send_segmentsPending]
  by_cases hlen : 0 < b.buildSegment.lengthInSequenceSpace
  · simp [hlen]
  · simpa [hlen] using hi.running_iff

theorem TimerInv.fillWindow (hi : TimerInv s l) : TimerInv s.fillWindow l :=
  fillWindow_preserves (TimerInv · l) (fun _ b h => h.send b) (fun _ _ h => h.stream _)
    (fun _ h => h.fined) hi

theorem TimerInv.ackReceived (hi : TimerInv s l) (ackno : WrappingInt32) (windowSize : UInt16) :
    TimerInv (s.ackReceived ackno windowSize) (l.ack (s.acksNewData ackno) windowSize) := by
  -- only the window flag moves, unless the ackno is of new data
  have hflag : TimerInv { s with zeroWindowSize := windowSize == 0 } (l.ack false windowSize) :=
    { running_iff := hi.running_iff, zeroWindowSize_eq := rfl,
      consecutive_eq := hi.consecutive_eq, timeout_eq := hi.timeout_eq,
      initial_lt := hi.initial_lt }
  rw [ackReceived_eq, acksNewData_eq]
  cases s.ackEnd ackno with
  | ignored => exact hflag
  | newData =>
    -- the count and the timeout start again, and the timer follows what is left
    apply TimerInv.fillWindow
    exact TimerInv.reset (acceptAck_timer_running ..) (by simp) rfl (by simp) (by simp)
      (by simpa using hi.initial_lt)
  | sameAckno => exact hflag.frame hflag.running_iff rfl rfl rfl rfl

theorem TimerInv.tick (hi : TimerInv s l) (ms : Nat) :
    TimerInv (s.tick ms) (if s.expires ms then l.expire else l) := by
  cases hx : s.expires ms with
  | false =>
    -- no expiry: the timer stops exactly when nothing is outstanding
    rw [tick_of_not_expires hx]
    refine hi.frame ?_ rfl rfl rfl rfl
    by_cases hp : s.segmentsPending = []
    · simp [hp]
    · simpa [hp] using hi.running_iff
  | true =>
    obtain ⟨seg, rest, hp, ht⟩ := expires_iff.mp hx
    rw [tick_of_expires hp ht, if_pos rfl]
    have hz := hi.zeroWindowSize_eq
    exact
      { running_iff := by simp [hp]
        zeroWindowSize_eq := hz
        consecutive_eq := by simp [hi.consecutive_eq, Nat.add_mod]
        timeout_eq := by
          -- the timeout doubles exactly when the expiry counts as a backoff
          rw [TimerLog.backoffs_expire, ← hz, hi.timeout_eq]
          cases s.zeroWindowSize with
          | false => simp only [Bool.false_eq_true, if_false, pow_succ, Nat.mod_mul_mod, Nat.mul_assoc]
          | true => rfl
        initial_lt := hi.initial_lt }

theorem TimedReach.timerInv {l : TimerLog} (h : TimedReach s l) : TimerInv s l := by
  induction h with
  | init capacity retxTimeout fixedIsn randomIsn => exact timerInv_init capacity retxTimeout fixedIsn randomIsn
  | write data _ ih => exact ih.stream _
  | endInput _ ih => exact ih.stream _
  | fillWindow _ ih => exact ih.fillWindow
  | sendEmptySegment _ ih => exact ih.send _
  | ackReceived ackno windowSize _ ih => exact ih.ackReceived ackno windowSize
  | tick ms _ ih => exact ih.tick ms

/-- **The retransmission timer over every run.** The timer runs exactly while something is
outstanding; the count of retransmissions is the number of expiries since the last
acknowledgement of new data, and the timeout is the initial one doubled once for each of
them that came with a nonzero window, both modulo `2^32`; and a tick sends the oldest
outstanding segment once more exactly when it handles an expiry. -/
theorem retransmission_timer_backoff {l : TimerLog} (h : TimedReach s l) :
    (s.timer.running = true ↔ s.segmentsPending ≠ []) ∧
      s.consecutiveRetransmissions = l.expiries.length % 2 ^ 32 ∧
      s.retransmissionTimeout = s.initialRetransmissionTimeout * 2 ^ l.expiries.count false % 2 ^ 32 ∧
      ∀ ms, (s.tick ms).segmentsOut =
        s.segmentsOut ++ if s.expires ms then s.segmentsPending.take 1 else [] := by
  have hi := h.timerInv
  exact ⟨hi.running_iff, hi.consecutive_eq, hi.timeout_eq, tick_segmentsOut s⟩

/-- The SYN, sent and then retransmitted once, with the window still unknown. -/
theorem retransmission_timer_backoff_syn :
    let s : TCPSender := (TCPSender.init 10 1000 (some ⟨0⟩) ⟨0⟩).fillWindow.tick 1000
    let l : TimerLog := { expiries := [false] }
    TimedReach s l ∧ s.segmentsPending ≠ [] ∧ s.consecutiveRetransmissions = 1 ∧
      s.retransmissionTimeout = 2000 := by
  have h : TimedReach ((TCPSender.init 10 1000 (some ⟨0⟩) ⟨0⟩).fillWindow.tick 1000)
      { expiries := [false] } := by
    have hr := ((TimedReach.init 10 1000 (some ⟨0⟩) ⟨0⟩).fillWindow).tick 1000
    have hx : (TCPSender.init 10 1000 (some ⟨0⟩) ⟨0⟩).fillWindow.expires 1000 = true := by decide
    rw [hx] at hr
    exact hr
  obtain ⟨hrun, hc, hto, -⟩ := retransmission_timer_backoff h
  refine ⟨h, ?_, ?_, ?_⟩
  · exact hrun.mp (by decide)
  · simpa using hc
  · rw [hto]
    decide

/-- The timeout is an `unsigned int`: after seventeen expiries from an initial timeout of
`2^15` ms it has wrapped to `0`, not `2^32`, and a tick of no time at all sends the SYN again. -/
theorem retransmission_timeout_wraps :
    let s : TCPSender := (List.replicate 17 (2 ^ 32)).foldl TCPSender.tick
      (TCPSender.init 10 32768 (some ⟨0⟩) ⟨0⟩).fillWindow
    s.consecutiveRetransmissions = 17 ∧ s.initialRetransmissionTimeout * 2 ^ 17 = 2 ^ 32 ∧
      s.retransmissionTimeout = 0 ∧ (s.tick 0).segmentsOut.length = s.segmentsOut.length + 1 := by
  decide

end TCPSender

end Sponge
