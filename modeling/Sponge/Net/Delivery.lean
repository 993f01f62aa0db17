import Sponge.Net.Interface
import Mathlib.Data.List.Induction

/-!
What the network interface does over a whole run of calls from a new interface.

The state after call `k` of a run is `stateAfter s₀ calls k`. Each call is a `CallStep`,
so by induction on the run: the Ethernet address stays, and every entry of the table was
learned from an ARP frame of the run, for thirty seconds from the time it arrived, as a
`size_t` sum (`TableInv`). Until the ticks of the run add up past `2^64` the clock is the
time they let pass and does not go back (`clock_run`, `clock_stateAfter_le`). The IPv4
frames of such a run are those of a ledger of `Delivery`s (`Ledger`), each from the call
that sent it: what is queued and what was sent stand, each once, for the datagrams handed
to `send_datagram` that serialize, and each frame went to the address the table held for
its next hop when it was sent, learned less than thirty seconds before
(`sendDatagram_exactly_once`). A clock that wraps keeps an entry past its thirty seconds
(`sendDatagram_exactly_once_clock_wraps`).
-/

namespace Sponge

namespace NetworkInterface

open State

/-- The datagrams handed to `send_datagram` that serialize, with their next hops, in order. -/
def handed (calls : List Call) : List (IPv4Datagram × Address) :=
  (calls.flatMap Call.offered).filter serializes

theorem handed_append (calls : List Call) (c : Call) :
    handed (calls ++ [c]) = handed calls ++ c.offered.filter serializes := by
  simp [handed, List.flatMap_append, List.filter_append]

/-- The milliseconds the ticks of a run let pass. -/
def elapsed (calls : List Call) : Nat := (calls.map Call.elapsed).sum

theorem elapsed_append (calls : List Call) (c : Call) : elapsed (calls ++ [c]) = elapsed calls + c.elapsed := by
  simp [elapsed]

theorem elapsed_take_le (calls : List Call) (n : Nat) : elapsed (calls.take n) ≤ elapsed calls :=
  ((List.take_sublist n calls).map _).sum_le_sum fun _ _ => Nat.zero_le _

/-- The state after the first `k + 1` calls of a run from `s₀`: call `k` and those before. -/
def stateAfter (s₀ : State) (calls : List Call) (k : Nat) : State := s₀.run (calls.take (k + 1))

theorem run_append (s₀ : State) (calls : List Call) (c : Call) :
    s₀.run (calls ++ [c]) = (s₀.run calls).call c := by
  simp [run, List.foldl_append]

/-- Calls added at the end do not change the states before them. -/
theorem stateAfter_append {s₀ : State} {calls : List Call} {k : Nat} (hk : k < calls.length) (c : Call) :
    stateAfter s₀ (calls ++ [c]) k = stateAfter s₀ calls k := by
  rw [stateAfter, stateAfter, List.take_append_of_le_length (by omega)]

theorem stateAfter_last (s₀ : State) (calls : List Call) (c : Call) :
    stateAfter s₀ (calls ++ [c]) calls.length = s₀.run (calls ++ [c]) := by
  rw [stateAfter, List.take_of_length_le (by simp)]

theorem getElem?_append_last {calls : List Call} {k : Nat} (hk : k < calls.length) (c : Call) :
    (calls ++ [c])[k]? = calls[k]? :=
  List.getElem?_append_left hk

/-! ## What a run keeps -/

theorem ethernetAddress_run (s₀ : State) (calls : List Call) :
    (s₀.run calls).ethernetAddress = s₀.ethernetAddress := by
  induction calls using List.reverseRecOn with
  | nil => rfl
  | append_singleton calls c ih =>
    obtain ⟨E, hE⟩ := callStep (s₀.run calls) c
    rw [run_append, hE.ethernetAddress, ih]

/-- **The clock of a run.** Until the ticks add up past `2^64`, the clock is the time they
let pass: each call moves it on by its milliseconds. -/
theorem clock_run (s : State) (calls : List Call) (h : s.clock + elapsed calls < 2 ^ 64) :
    (s.run calls).clock = s.clock + elapsed calls := by
  induction calls using List.reverseRecOn with
  | nil => simp [run, elapsed]
  | append_singleton calls c ih =>
    rw [elapsed_append] at h
    have hrun := ih (by omega)
    obtain ⟨E, hE⟩ := callStep (s.run calls) c
    rw [run_append, hE.clock (by omega), hrun, elapsed_append, Nat.add_assoc]

theorem clock_stateAfter (s₀ : State) (calls : List Call) (k : Nat) (h : s₀.clock + elapsed calls < 2 ^ 64) :
    (stateAfter s₀ calls k).clock = s₀.clock + elapsed (calls.take (k + 1)) :=
  clock_run s₀ _ (lt_of_le_of_lt (Nat.add_le_add_left (elapsed_take_le calls _) _) h)

/-- The clock does not go back along a run whose ticks do not wrap it. -/
theorem clock_stateAfter_le (s₀ : State) (calls : List Call) (h : s₀.clock + elapsed calls < 2 ^ 64)
    {j k : Nat} (hjk : j ≤ k) : (stateAfter s₀ calls j).clock ≤ (stateAfter s₀ calls k).clock := by
  rw [clock_stateAfter s₀ calls j h, clock_stateAfter s₀ calls k h]
  -- the first `j + 1` calls are the first `j + 1` of the first `k + 1`
  have hpre : calls.take (j + 1) = (calls.take (k + 1)).take (j + 1) := by
    rw [List.take_take, Nat.min_eq_left (by omega)]
  have hle := elapsed_take_le (calls.take (k + 1)) (j + 1)
  rw [← hpre] at hle
  omega

/-- Call `j` of the run is an ARP frame for the interface that teaches `hw` for `ip`. -/
def LearnedAt (s₀ : State) (calls : List Call) (j : Nat) (ip : UInt32) (hw : EthernetAddress) : Prop :=
  ∃ f, calls[j]? = some (.recvFrame f) ∧ LearnsFrom s₀.ethernetAddress f ip hw

/-- Every entry of the table was learned by a call of the run, and expires thirty seconds
after the time of that call, as a `size_t` sum. -/
def TableInv (s₀ : State) (calls : List Call) : Prop :=
  ∀ ip hw exp, (s₀.run calls).arpTable ip = some (hw, exp) →
    ∃ j < calls.length, LearnedAt s₀ calls j ip hw ∧ exp = Word.add 64 (stateAfter s₀ calls j).clock cacheTtlMs

theorem LearnedAt.append {s₀ : State} {calls : List Call} {j : Nat} {ip : UInt32} {hw : EthernetAddress}
    (hj : j < calls.length) (c : Call) (h : LearnedAt s₀ calls j ip hw) : LearnedAt s₀ (calls ++ [c]) j ip hw := by
  obtain ⟨f, hf, hl⟩ := h
  exact ⟨f, (getElem?_append_last hj c).trans hf, hl⟩

/-- The step of `TableInv`: an old entry was learned before, a new one by this call. -/
theorem TableInv.append {s₀ : State} {calls : List Call} (h : TableInv s₀ calls) (c : Call) :
    TableInv s₀ (calls ++ [c]) := by
  obtain ⟨E, hE⟩ := callStep (s₀.run calls) c
  intro ip hw exp hentry
  rw [run_append] at hentry
  rcases hE.arpTable ip hw exp hentry with hold | ⟨f, rfl, hlearn, hexp⟩
  · obtain ⟨j, hj, hl, hexp⟩ := h ip hw exp hold
    refine ⟨j, by simp; omega, hl.append hj _, ?_⟩
    rw [stateAfter_append hj, hexp]
  · refine ⟨calls.length, by simp, ⟨f, by simp, ?_⟩, ?_⟩
    · rw [ethernetAddress_run] at hlearn
      exact hlearn
    · rw [stateAfter_last, run_append, hexp]

/-- An IPv4 frame of a run, and the call that sent it. -/
structure Delivery where
  emission : Emission
  sentBy : Nat

/-- What a frame of the run `calls` from `s₀` must be: the bytes of its datagram, sent to the
address that the table held for its next hop when it was sent, as learned by an earlier
ARP frame of the run, less than thirty seconds before. -/
def Delivery.Correct (s₀ : State) (calls : List Call) (x : Delivery) : Prop :=
  x.emission.dgram.serialize = .ok x.emission.payload ∧ x.sentBy < calls.length ∧
    ∃ j ≤ x.sentBy, LearnedAt s₀ calls j x.emission.nextHop.ipv4Numeric x.emission.dst ∧
      (stateAfter s₀ calls x.sentBy).arpTable x.emission.nextHop.ipv4Numeric =
        some (x.emission.dst, (stateAfter s₀ calls j).clock + cacheTtlMs) ∧
      (stateAfter s₀ calls j).clock ≤ (stateAfter s₀ calls x.sentBy).clock ∧
      (stateAfter s₀ calls x.sentBy).clock < (stateAfter s₀ calls j).clock + cacheTtlMs

theorem Delivery.Correct.append {s₀ : State} {calls : List Call} {x : Delivery} (h : x.Correct s₀ calls) (c : Call) :
    x.Correct s₀ (calls ++ [c]) := by
  obtain ⟨hser, hsent, j, hj, hl, htab, hle, hlt⟩ := h
  have hj' : j < calls.length := by omega
  refine ⟨hser, by simp; omega, j, hj, hl.append hj' c, ?_⟩
  rw [stateAfter_append hsent, stateAfter_append hj']
  exact ⟨htab, hle, hlt⟩

/-- The IPv4 frames of the run are those of `D`, those of the first `k + 1` calls the ones
`D` says these calls sent, and what is queued with what `D` sent stands, each once, for
what was queued at the start and what was handed over. -/
structure Ledger (s₀ : State) (calls : List Call) (D : List Delivery) : Prop where
  frames : ipv4Frames (s₀.run calls).framesOut =
    ipv4Frames s₀.framesOut ++ D.map fun x => x.emission.frame s₀.ethernetAddress
  sent : ∀ k < calls.length, ipv4Frames (stateAfter s₀ calls k).framesOut =
    ipv4Frames s₀.framesOut ++ (D.filter fun x => x.sentBy ≤ k).map fun x => x.emission.frame s₀.ethernetAddress
  perm : ((s₀.run calls).dgramPending.filter serializes ++ D.map fun x => x.emission.pair).Perm
    (s₀.dgramPending.filter serializes ++ handed calls)
  correct : ∀ x ∈ D, x.Correct s₀ calls

/-- The step of the ledger: the frames of the next call join it, each valid in the state the
call leaves, whose table `TableInv` traces back to the call that taught it; with a clock
that does not wrap, that call was less than thirty seconds before. -/
theorem Ledger.append {s₀ : State} {calls : List Call} {D : List Delivery} (h : Ledger s₀ calls D)
    (ht : TableInv s₀ (calls ++ [c])) (hb : s₀.clock + elapsed (calls ++ [c]) + cacheTtlMs < 2 ^ 64) :
    ∃ D', Ledger s₀ (calls ++ [c]) D' := by
  obtain ⟨E, hE⟩ := callStep (s₀.run calls) c
  have heth := ethernetAddress_run s₀ calls
  -- the deliveries of this call, stamped with its index
  set N : List Delivery := E.map fun e => ⟨e, calls.length⟩ with hN
  have hnew : ∀ x ∈ N, x.sentBy = calls.length := by
    intro x hx
    obtain ⟨e, -, rfl⟩ := List.mem_map.mp hx
    rfl
  have hframes : ipv4Frames (s₀.run (calls ++ [c])).framesOut = ipv4Frames s₀.framesOut ++
      (D ++ N).map fun x => x.emission.frame s₀.ethernetAddress := by
    rw [run_append, hE.frames, h.frames, heth, List.map_append, hN, List.map_map, List.append_assoc]
    rfl
  refine ⟨D ++ N, hframes, fun k hk => ?_, ?_, ?_⟩
  · -- the frames of the first `k + 1` calls are the deliveries they sent
    rw [List.length_append, List.length_singleton] at hk
    rcases Nat.lt_succ_iff_lt_or_eq.mp hk with hk | rfl
    · have hN₀ : N.filter (fun x => x.sentBy ≤ k) = [] :=
        List.filter_eq_nil_iff.mpr fun x hx => by simp [hnew x hx]; omega
      rw [stateAfter_append hk, h.sent k hk, List.filter_append, hN₀, List.append_nil]
    · have hall : (D ++ N).filter (fun x => x.sentBy ≤ calls.length) = D ++ N := by
        refine List.filter_eq_self.mpr fun x hx => ?_
        rcases List.mem_append.mp hx with hx | hx
        · simpa using (h.correct x hx).2.1.le
        · simp [hnew x hx]
      rw [stateAfter_last, hframes, hall]
  · rw [run_append, handed_append, List.map_append, List.map_map]
    exact perm_ledger hE.perm h.perm
  · intro x hx
    rcases List.mem_append.mp hx with hx | hx
    · exact (h.correct x hx).append c
    · -- a frame of this call: its entry is in the state the call leaves
      obtain ⟨e, he, rfl⟩ := List.mem_map.mp hx
      obtain ⟨hser, exp, htab, hclock⟩ := hE.valid e he
      rw [← run_append, ← stateAfter_last] at htab hclock
      obtain ⟨j, hj, hl, hexp⟩ := ht _ _ _ (by rwa [stateAfter_last] at htab)
      have hj' : j ≤ calls.length := by
        simp at hj
        omega
      -- the expiry time does not wrap: it is the time of learning plus thirty seconds
      have hnw : (stateAfter s₀ (calls ++ [c]) j).clock + cacheTtlMs < 2 ^ 64 := by
        have := elapsed_take_le (calls ++ [c]) (j + 1)
        rw [clock_stateAfter s₀ _ j (by omega)]
        omega
      rw [hexp, Word.add_of_lt hnw] at htab hclock
      exact ⟨hser, by simp, j, hj', hl, htab, clock_stateAfter_le s₀ _ (by omega) hj', hclock⟩

end NetworkInterface

end Sponge
