import Sponge.Connection.Handshake
import Sponge.Connection.Window
import Sponge.Sender.Timer

/-!
A connection whose SYN is never answered.

Ticked past each timeout, a connection in `SYN_SENT` sends its SYN again at every expiry
and doubles the timeout (`tick_unanswered`, `run_unanswered`). The ninth expiry takes the
count of consecutive retransmissions past `MAX_RETX_ATTEMPTS`: the connection resets, an
RST goes out in place of the ninth retransmission, and the state is `RESET`
(`gives_up`).
-/

namespace Sponge

namespace TCPConnection

/-- The connection `k` expiries after `connect()`, its SYN unanswered and `t` ms gone by:
the timeout doubled `k` times and the SYN sent `k + 1` times. -/
def unanswered (cfg : TCPConfig) (randomIsn : WrappingInt32) (k t : Nat) : TCPConnection :=
  let c := (init cfg randomIsn).connect
  let rto := cfg.rtTimeout.toNat * 2 ^ k
  { c with sender := { c.sender with retransmissionTimeout := rto, consecutiveRetransmissions := k,
                                     timer := ({} : RetransmissionTimer).start rto },
           segmentsOut := List.replicate (k + 1) (c.segmentsOut.headD {}),
           timeSinceLastSegmentReceived := t }

variable {cfg : TCPConfig} {randomIsn : WrappingInt32}

/-- `connect()` leaves the connection with no expiry yet. -/
theorem connect_eq_unanswered : (init cfg randomIsn).connect = unanswered cfg randomIsn 0 0 := by
  unfold unanswered
  rw [pow_zero, mul_one]
  rfl

/-- An expiry before the ninth sends the SYN once more and doubles the timeout. -/
theorem tick_unanswered {k : Nat} (hk : k < 8) {ms t : Nat} (hms : cfg.rtTimeout.toNat * 2 ^ k ≤ ms) :
    (unanswered cfg randomIsn k t).tick ms = unanswered cfg randomIsn (k + 1) (Word.add 64 t ms) := by
  have ht : ((unanswered cfg randomIsn k t).sender.timer.tick ms).timedOut = true := by
    simp [unanswered, RetransmissionTimer.tick, RetransmissionTimer.timedOut, RetransmissionTimer.start,
      RetransmissionTimer.reset, hms]
  have hrto : cfg.rtTimeout.toNat * 2 ^ k * 2 % 2 ^ 32 = cfg.rtTimeout.toNat * 2 ^ (k + 1) := by
    have hrt : cfg.rtTimeout.toNat < 2 ^ 16 := UInt16.toNat_lt _
    have hpow : 2 ^ k ≤ 2 ^ 7 := Nat.pow_le_pow_right (by norm_num) (by omega)
    have hle := Nat.mul_le_mul hrt.le hpow
    rw [pow_succ 2 k, ← Nat.mul_assoc, Nat.mod_eq_of_lt (by omega)]
  have hcount : (k + 1) % 2 ^ 32 = k + 1 := Nat.mod_eq_of_lt (by omega)
  have hgt : ¬(k + 1 > TCPConfig.maxRetxAttempts) := by
    unfold TCPConfig.maxRetxAttempts
    omega
  unfold tick
  dsimp only
  rw [TCPSender.tick_of_expires rfl ht]
  have hz : (init cfg randomIsn).connect.sender.zeroWindowSize = false := rfl
  have hso : (init cfg randomIsn).connect.sender.segmentsOut = [] := rfl
  simp only [unanswered, hrto, hcount, if_neg hgt, hz, hso, Bool.false_eq_true, if_false, List.nil_append,
    RetransmissionTimer.start, RetransmissionTimer.reset, List.replicate_succ' (n := k + 1)]
  rfl

theorem unanswered_state (k t : Nat) : (unanswered cfg randomIsn k t).state = .ofState .synSent := rfl

/-- What the unanswered connection has sent: its SYN, `k + 1` times. -/
theorem unanswered_segmentsOut (cfg : TCPConfig) (randomIsn : WrappingInt32) (k t : Nat) :
    ∃ win, (unanswered cfg randomIsn k t).segmentsOut =
      List.replicate (k + 1) { header := { seqno := cfg.fixedIsn.getD randomIsn, syn := true, win } } := by
  obtain ⟨⟨win, h⟩, -⟩ := connect_spec cfg randomIsn
  exact ⟨win, by rw [unanswered, h]; rfl⟩

/-- The ninth expiry: the count passes `MAX_RETX_ATTEMPTS` and the connection resets, with
an RST at the sequence number after the SYN in place of the retransmission. -/
theorem tick_unanswered_last (randomIsn : WrappingInt32) (t : Nat) {ms : Nat}
    (hms : cfg.rtTimeout.toNat * 2 ^ 8 ≤ ms) :
    (∃ win, ((unanswered cfg randomIsn 8 t).tick ms).segmentsOut = (unanswered cfg randomIsn 8 t).segmentsOut ++
      [{ header := { seqno := wrap (UInt64.ofNat 1) (cfg.fixedIsn.getD randomIsn), rst := true, win } }]) ∧
    ((unanswered cfg randomIsn 8 t).tick ms).state = .ofState .reset := by
  have ht : ((unanswered cfg randomIsn 8 t).sender.timer.tick ms).timedOut = true := by
    simpa [unanswered, RetransmissionTimer.tick, RetransmissionTimer.timedOut, RetransmissionTimer.start,
      RetransmissionTimer.reset] using hms
  unfold tick
  dsimp only
  rw [TCPSender.tick_of_expires rfl ht]
  exact ⟨⟨_, rfl⟩, rfl⟩

/-- Ticks that each outlast the largest timeout before the ninth expiry are each an
expiry; the time since the last segment adds them up as a `size_t`. -/
theorem run_unanswered (ticks : List Nat) {k t : Nat} (hk : k + ticks.length ≤ 8) (ht : t < 2 ^ 64)
    (hms : ∀ ms ∈ ticks, cfg.rtTimeout.toNat * 2 ^ 8 ≤ ms) :
    (unanswered cfg randomIsn k t).run (ticks.map .tick) =
      unanswered cfg randomIsn (k + ticks.length) (Word.add 64 t ticks.sum) := by
  induction ticks generalizing k t with
  | nil => rw [List.sum_nil, Word.add_zero_of_lt ht]; rfl
  | cons ms rest ih =>
    have hms₁ : cfg.rtTimeout.toNat * 2 ^ k ≤ ms :=
      le_trans (Nat.mul_le_mul_left _ (Nat.pow_le_pow_right (by norm_num) (by simp at hk; omega)))
        (hms ms List.mem_cons_self)
    rw [List.map_cons, run, List.foldl_cons, ← run]
    show ((unanswered cfg randomIsn k t).tick ms).run _ = _
    rw [tick_unanswered (by simp at hk; omega) hms₁, ih (by simp at hk ⊢; omega) Word.add_lt
      (fun x hx => hms x (List.mem_cons_of_mem _ hx)), Word.add_add]
    simp only [List.length_cons, List.sum_cons]
    congr 1
    omega

/-- **A connection gives up on an unanswered SYN.** After `connect()`, ticks that each
outlast `2^8 * rt_timeout` ms expire the timer one by one. After the first eight the SYN
has been sent once for each and once more, the connection is still in `SYN_SENT` and counts
the retransmissions; the ninth resets it: an RST at the sequence number after the SYN is
sent instead of a ninth retransmission, and the connection is in `RESET`. -/
theorem gives_up (cfg : TCPConfig) (randomIsn : WrappingInt32) (ticks : List Nat)
    (hn : ticks.length ≤ 9) (hms : ∀ ms ∈ ticks, cfg.rtTimeout.toNat * 2 ^ 8 ≤ ms) :
    let c : TCPConnection := (init cfg randomIsn).connect.run (ticks.map .tick)
    ∃ syn rst : TCPSegment,
      c.segmentsOut = List.replicate (min ticks.length 8 + 1) syn ++ List.replicate (ticks.length - 8) rst ∧
      syn.header.syn = true ∧ syn.header.seqno = cfg.fixedIsn.getD randomIsn ∧ syn.payload = [] ∧
      rst.header.rst = true ∧ rst.header.seqno = wrap (UInt64.ofNat 1) (cfg.fixedIsn.getD randomIsn) ∧
      rst.payload = [] ∧
      (ticks.length ≤ 8 → c.state = .ofState .synSent ∧ c.sender.consecutiveRetransmissions = ticks.length) ∧
      (ticks.length = 9 → c.state = .ofState .reset) := by
  intro c
  rcases Nat.lt_or_ge ticks.length 9 with h8 | h9
  · have hrun : c = unanswered cfg randomIsn ticks.length (Word.add 64 0 ticks.sum) := by
      show (init cfg randomIsn).connect.run _ = _
      rw [connect_eq_unanswered, run_unanswered ticks (by omega) (Nat.two_pow_pos 64) hms, Nat.zero_add]
    obtain ⟨win, hout⟩ := unanswered_segmentsOut cfg randomIsn ticks.length (Word.add 64 0 ticks.sum)
    refine ⟨{ header := { seqno := cfg.fixedIsn.getD randomIsn, syn := true, win } },
      { header := { seqno := wrap (UInt64.ofNat 1) (cfg.fixedIsn.getD randomIsn), rst := true } }, ?_,
      rfl, rfl, rfl, rfl, rfl, rfl, fun _ => ⟨?_, ?_⟩, fun h => absurd h (by omega)⟩
    · rw [hrun, hout, Nat.min_eq_left (by omega), Nat.sub_eq_zero_of_le (by omega), List.replicate_zero,
        List.append_nil]
    · rw [hrun]
      exact unanswered_state _ _
    · rw [hrun]
      rfl
  · have h9' : ticks.length = 9 := by omega
    obtain ⟨pre, last, rfl⟩ : ∃ pre last, ticks = pre ++ [last] :=
      ⟨ticks.dropLast, ticks.getLast (List.ne_nil_of_length_pos (by omega)),
        (List.dropLast_append_getLast _).symm⟩
    have hpre : pre.length = 8 := by simp at h9'; omega
    have hrun : c = (unanswered cfg randomIsn 8 (Word.add 64 0 pre.sum)).tick last := by
      show (init cfg randomIsn).connect.run _ = _
      rw [List.map_append, List.map_singleton, run_append, connect_eq_unanswered,
        run_unanswered (k := 0) (t := 0) pre (by omega) (Nat.two_pow_pos 64) (fun x hx => hms x (by simp [hx])),
        hpre, Nat.zero_add]
      rfl
    obtain ⟨⟨win', hout'⟩, hst⟩ := tick_unanswered_last randomIsn (Word.add 64 0 pre.sum) (hms last (by simp))
    obtain ⟨win, hout⟩ := unanswered_segmentsOut cfg randomIsn 8 (Word.add 64 0 pre.sum)
    refine ⟨{ header := { seqno := cfg.fixedIsn.getD randomIsn, syn := true, win } },
      { header := { seqno := wrap (UInt64.ofNat 1) (cfg.fixedIsn.getD randomIsn), rst := true, win := win' } },
      ?_, rfl, rfl, rfl, rfl, rfl, rfl, fun h => absurd h (by simp; omega),
      fun _ => by rw [hrun]; exact hst⟩
    rw [hrun, hout', hout]
    simp [hpre]

/-- With the default configuration, nine ticks of 256 s: the SYN nine times, then an RST. -/
theorem gives_up_default :
    let c : TCPConnection := (init {} ⟨0⟩).connect.run ((List.replicate 9 256000).map .tick)
    ∃ syn rst : TCPSegment, c.segmentsOut = List.replicate 9 syn ++ [rst] ∧ syn.header.syn = true ∧
      rst.header.rst = true ∧ c.state = .ofState .reset := by
  obtain ⟨syn, rst, hout, hsyn, -, -, hrst, -, -, -, hreset⟩ :=
    gives_up {} ⟨0⟩ (List.replicate 9 256000) (by decide) (by decide)
  exact ⟨syn, rst, hout, hsyn, hrst, hreset rfl⟩

end TCPConnection

end Sponge
