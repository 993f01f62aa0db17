import Sponge.Net.ARP
import Sponge.Net.TCPOverIP
import Sponge.Lib.Word

/-!
The network interface of `network_interface.{hh,cc}`: datagrams out as Ethernet frames,
with ARP to find the next hop's Ethernet address, and frames in.

`send_datagram` sends a datagram at once when the ARP table holds an unexpired address
for its next hop; otherwise it queues the datagram and broadcasts an ARP request, at
most one every five seconds for each address. `recv_frame` delivers an IPv4 frame's
datagram, and on an ARP frame learns the sender's address for thirty seconds, answers a
request for its own address, and then sends the queued datagrams again from the front
until one goes back into the queue. `tick` advances the clock and forgets expired
addresses.

A call that throws (`IPv4Datagram::serialize` on a payload of the wrong size) leaves the
interface as it was at the throw, so each call is a function to an `EStateM.Result`,
whose error case keeps that state. The table and the broadcast times are functions of
the IP address. The clock is a `size_t`: `tick` and the expiry time of a learned address
add in 64 bits (`Word.add 64`), so a run whose ticks add up past `2^64` wraps the clock as
the source does.
-/

namespace Sponge

namespace NetworkInterface

/-- `_cache_ttl_ms`. -/
def cacheTtlMs : Nat := 30 * 1000

/-- `_broadcast_interval_ms`. -/
def broadcastIntervalMs : Nat := 5 * 1000

/-- The state of a `NetworkInterface`. -/
structure State extends NetworkInterface where
  ipAddress : Address
  framesOut : List EthernetFrame := []
  clock : Nat := 0
  arpTable : UInt32 → Option (EthernetAddress × Nat) := fun _ => none
  lastBroadcastTime : UInt32 → Option Nat := fun _ => none
  dgramPending : List (IPv4Datagram × Address) := []

/-- The state a call leaves, whether it returns or throws. -/
def after {α : Type} : EStateM.Result String State α → State
  | .ok _ s => s
  | .error _ s => s

namespace State

/-- `NetworkInterface(ethernet_address, ip_address)`. -/
def init (ethernetAddress : EthernetAddress) (ipAddress : Address) : State :=
  { ethernetAddress, ipAddress }

/-- Lines 47-62 of `send_datagram`, where it goes when the table has no unexpired address
for the next hop: queue the datagram, and ask for the address unless asked recently. -/
def queueAndRequest (s : State) (dgram : IPv4Datagram) (nextHop : Address) : EStateM.Result String State Unit :=
  let nextHopIp := nextHop.ipv4Numeric
  let s := { s with dgramPending := s.dgramPending ++ [(dgram, nextHop)] }
  let recent := match s.lastBroadcastTime nextHopIp with
    | some t => decide (Word.sub 64 s.clock t < broadcastIntervalMs)
    | none => false
  if recent then .ok () s
  else
    let s := { s with lastBroadcastTime := Function.update s.lastBroadcastTime nextHopIp (some s.clock) }
    let arpReq : ARPMessage :=
      { opcode := ARPMessage.opcodeRequest, senderEthernetAddress := s.ethernetAddress,
        senderIpAddress := s.ipAddress.ipv4Numeric, targetIpAddress := nextHopIp }
    match arpReq.serialize with
    | .ok payload =>
      .ok () { s with framesOut := s.framesOut ++
        [{ header := { dst := ethernetBroadcast, src := s.ethernetAddress, type := EthernetHeader.typeARP },
           payload }] }
    | .error e => .error e s

/-- `send_datagram(dgram, next_hop)`. -/
def sendDatagram (s : State) (dgram : IPv4Datagram) (nextHop : Address) : EStateM.Result String State Unit :=
  match s.arpTable nextHop.ipv4Numeric with
  | some (hwAddress, timeExpired) =>
    if timeExpired > s.clock then
      match dgram.serialize with
      | .ok payload =>
        .ok () { s with framesOut := s.framesOut ++
          [{ header := { dst := hwAddress, src := s.ethernetAddress, type := EthernetHeader.typeIPv4 }, payload }] }
      | .error e => .error e s
    else s.queueAndRequest dgram nextHop
  | none => s.queueAndRequest dgram nextHop

/-- The loop at the end of `recv_frame`: the queued datagrams are sent again from the
front, and the loop stops after the first that goes back into the queue. Each round takes
one datagram off the front or stops, so the queue's length is fuel enough. -/
def pollPending : Nat → State → EStateM.Result String State Unit
  | 0, s => .ok () s
  | fuel + 1, s =>
    match s.dgramPending with
    | [] => .ok () s
    | (dgram, nextHop) :: _ =>
      let size := s.dgramPending.length
      match s.sendDatagram dgram nextHop with
      | .error e s => .error e s
      | .ok () s =>
        -- the datagram at the front failed to send again
        if size < s.dgramPending.length then .ok () { s with dgramPending := s.dgramPending.tail }
        else pollPending fuel { s with dgramPending := s.dgramPending.tail }

/-- Lines 84-107 of `recv_frame`, on an ARP message parsed with result `res`: learn the
sender's address, and answer a request for this interface's address. -/
def learnAndReply (s : State) (res : ParseResult) (arpMsg : ARPMessage) : EStateM.Result String State Unit :=
  if res = .noError then
    let entry := (arpMsg.senderEthernetAddress, Word.add 64 s.clock cacheTtlMs)
    let s := { s with arpTable := Function.update s.arpTable arpMsg.senderIpAddress (some entry) }
    if arpMsg.targetIpAddress = s.ipAddress.ipv4Numeric && arpMsg.opcode = ARPMessage.opcodeRequest then
      let arpReply := { arpMsg with
        opcode := ARPMessage.opcodeReply, senderEthernetAddress := s.ethernetAddress,
        senderIpAddress := s.ipAddress.ipv4Numeric, targetEthernetAddress := arpMsg.senderEthernetAddress,
        targetIpAddress := arpMsg.senderIpAddress }
      match arpReply.serialize with
      | .ok payload =>
        .ok () { s with framesOut := s.framesOut ++
          [{ header := { dst := arpMsg.senderEthernetAddress, src := s.ethernetAddress,
                         type := EthernetHeader.typeARP }, payload }] }
      | .error e => .error e s
    else .ok () s
  else .ok () s

/-- `recv_frame(frame)`. -/
def recvFrame (s : State) (frame : EthernetFrame) : EStateM.Result String State (Option IPv4Datagram) :=
  let dst := frame.header.dst
  if dst != s.ethernetAddress && dst != ethernetBroadcast then .ok none s
  else if frame.header.type = EthernetHeader.typeIPv4 then
    let (res, dgram) := ({} : IPv4Datagram).parse frame.payload
    if res = .noError then .ok (some dgram) s else .ok none s
  else if frame.header.type = EthernetHeader.typeARP then
    let (res, arpMsg) := ({} : ARPMessage).parse frame.payload
    match s.learnAndReply res arpMsg with
    | .error e s => .error e s
    | .ok () s =>
      -- then the loop, whether or not the message parsed
      match s.pollPending s.dgramPending.length with
      | .ok () s => .ok none s
      | .error e s => .error e s
  else .ok none s

/-- `tick(ms_since_last_tick)`. -/
def tick (s : State) (msSinceLastTick : Nat) : State :=
  let clock := Word.add 64 s.clock msSinceLastTick
  { s with clock, arpTable := fun ip => (s.arpTable ip).filter fun e => !(e.2 ≤ clock) }

end State

/-- A call on the interface. -/
inductive Call
  | sendDatagram (dgram : IPv4Datagram) (nextHop : Address)
  | recvFrame (frame : EthernetFrame)
  | tick (msSinceLastTick : Nat)

/-- The milliseconds a call lets pass: those of `tick`. -/
def Call.elapsed : Call → Nat
  | .tick ms => ms
  | _ => 0

namespace State

/-- The state after a call, which may have thrown. -/
def call (s : State) : Call → State
  | .sendDatagram dgram nextHop => after (s.sendDatagram dgram nextHop)
  | .recvFrame frame => after (s.recvFrame frame)
  | .tick ms => s.tick ms

/-- The state after a sequence of calls. -/
def run (s : State) (calls : List Call) : State := calls.foldl call s

end State

/-! ## What one call does to the IPv4 frames and the queue -/

/-- The IPv4 frames among `frames`. -/
def ipv4Frames (frames : List EthernetFrame) : List EthernetFrame :=
  frames.filter fun f => f.header.type == EthernetHeader.typeIPv4

@[simp] theorem ipv4Frames_append (l₁ l₂ : List EthernetFrame) :
    ipv4Frames (l₁ ++ l₂) = ipv4Frames l₁ ++ ipv4Frames l₂ :=
  List.filter_append _ _

/-- An ARP frame is not an IPv4 frame. -/
@[simp] theorem ipv4Frames_arp (h : EthernetHeader) (p : List UInt8) (ht : h.type = EthernetHeader.typeARP) :
    ipv4Frames [{ header := h, payload := p }] = [] := by
  simp [ipv4Frames, ht, EthernetHeader.typeARP, EthernetHeader.typeIPv4]

/-- A datagram whose `serialize` does not throw, with its next hop. -/
def serializes (p : IPv4Datagram × Address) : Bool := p.1.serialize.isOk

/-- An IPv4 frame sent: the datagram and its next hop, the Ethernet address it went to,
and the bytes. -/
structure Emission where
  dgram : IPv4Datagram
  nextHop : Address
  dst : EthernetAddress
  payload : List UInt8

namespace Emission

/-- The frame, from the Ethernet address `src`. -/
def frame (src : EthernetAddress) (e : Emission) : EthernetFrame :=
  { header := { dst := e.dst, src, type := EthernetHeader.typeIPv4 }, payload := e.payload }

/-- The datagram and its next hop. -/
def pair (e : Emission) : IPv4Datagram × Address := (e.dgram, e.nextHop)

/-- Sent in state `s`: the bytes are the datagram's serialization, and the table maps the
next hop to the destination, unexpired. -/
def Valid (s : State) (e : Emission) : Prop :=
  e.dgram.serialize = .ok e.payload ∧ ∃ exp, s.arpTable e.nextHop.ipv4Numeric = some (e.dst, exp) ∧ s.clock < exp

theorem serializes_pair {s : State} {e : Emission} (h : e.Valid s) : serializes e.pair = true := by
  simp [serializes, pair, h.1, Except.isOk, Except.toBool]

@[simp] theorem ipv4Frames_frame (src : EthernetAddress) (e : Emission) : ipv4Frames [e.frame src] = [e.frame src] := by
  simp [ipv4Frames, frame]

end Emission

/-- An ARP frame addressed to the interface `ethernetAddress` or to broadcast, whose message
parses and teaches the Ethernet address `hw` of the IP address `ip`. -/
def LearnsFrom (ethernetAddress : EthernetAddress) (frame : EthernetFrame) (ip : UInt32) (hw : EthernetAddress) :
    Prop :=
  (frame.header.dst = ethernetAddress ∨ frame.header.dst = ethernetBroadcast) ∧
    frame.header.type = EthernetHeader.typeARP ∧
    ∃ m, ({} : ARPMessage).parse frame.payload = (.noError, m) ∧ m.senderIpAddress = ip ∧ m.senderEthernetAddress = hw

/-- The interface's addresses, clock and table stay, and so do its IPv4 frames. -/
structure Quiet (s s' : State) : Prop where
  ethernetAddress : s'.ethernetAddress = s.ethernetAddress
  ipAddress : s'.ipAddress = s.ipAddress
  clock : s'.clock = s.clock
  arpTable : s'.arpTable = s.arpTable
  frames : ipv4Frames s'.framesOut = ipv4Frames s.framesOut

namespace State

/-- The queueing branch appends the datagram, and sends at most an ARP request, which is
supported and so does not throw. -/
theorem queueAndRequest_spec (s : State) (d : IPv4Datagram) (h : Address) :
    ∃ s', s.queueAndRequest d h = .ok () s' ∧ s'.dgramPending = s.dgramPending ++ [(d, h)] ∧ Quiet s s' := by
  unfold queueAndRequest
  dsimp only
  split
  · exact ⟨_, rfl, rfl, ⟨rfl, rfl, rfl, rfl, rfl⟩⟩
  · split
    · refine ⟨_, rfl, rfl, ⟨rfl, rfl, rfl, rfl, ?_⟩⟩
      rw [ipv4Frames_append, ipv4Frames_arp _ _ rfl, List.append_nil]
    · next msg hser =>
      -- a request from this interface is supported
      obtain ⟨bytes, hok⟩ := @ARPMessage.serialize_of_supported
        { opcode := ARPMessage.opcodeRequest, senderEthernetAddress := s.ethernetAddress,
          senderIpAddress := s.ipAddress.ipv4Numeric, targetIpAddress := h.ipv4Numeric } rfl
      rw [hok] at hser
      cases hser

/-- **What `send_datagram` does.** It sends the datagram to the address the table holds
for the next hop, or throws because the datagram does not serialize, or queues it. -/
theorem sendDatagram_cases (s : State) (d : IPv4Datagram) (h : Address) :
    (∃ e : Emission, e.pair = (d, h) ∧ e.Valid s ∧
      s.sendDatagram d h = .ok () { s with framesOut := s.framesOut ++ [e.frame s.ethernetAddress] }) ∨
    (∃ msg, d.serialize = .error msg ∧ s.sendDatagram d h = .error msg s) ∨
    (∃ s', s.sendDatagram d h = .ok () s' ∧ s'.dgramPending = s.dgramPending ++ [(d, h)] ∧ Quiet s s') := by
  unfold sendDatagram
  split
  · next hw exp htab =>
    split
    · next hexp =>
      split
      · next p hp => exact .inl ⟨⟨d, h, hw, p⟩, rfl, ⟨hp, exp, htab, hexp⟩, rfl⟩
      · next msg hp => exact .inr (.inl ⟨msg, hp, rfl⟩)
    · exact .inr (.inr (queueAndRequest_spec s d h))
  · exact .inr (.inr (queueAndRequest_spec s d h))

end State

open List in
/-- Two stretches of a ledger make one: what is held after the second (`A`) with what left in
it (`M₂`) stands for what was held after the first (`B`) with what came in (`O₂`), and so
on back to the start. -/
theorem perm_ledger {α : Type} {A B C M₁ M₂ O₁ O₂ : List α} (h₂ : (A ++ M₂).Perm (B ++ O₂))
    (h₁ : (B ++ M₁).Perm (C ++ O₁)) : (A ++ (M₁ ++ M₂)).Perm (C ++ (O₁ ++ O₂)) :=
  calc A ++ (M₁ ++ M₂) ~ (A ++ M₂) ++ M₁ := by
        rw [List.append_assoc]
        exact List.Perm.append_left _ List.perm_append_comm
    _ ~ (B ++ O₂) ++ M₁ := h₂.append_right _
    _ ~ (B ++ M₁) ++ O₂ := by
        rw [List.append_assoc, List.append_assoc]
        exact List.Perm.append_left _ List.perm_append_comm
    _ ~ (C ++ O₁) ++ O₂ := h₁.append_right _
    _ = C ++ (O₁ ++ O₂) := List.append_assoc _ _ _

/-- From `s` to `s'` the interface sends the frames of `E`, each of a datagram that was
queued or `offered`, and keeps the others queued: counted with multiplicity, what was
queued or offered and serializes is queued or sent. Its addresses, clock and table stay. -/
structure Sends (s s' : State) (offered : List (IPv4Datagram × Address)) (E : List Emission) : Prop where
  ethernetAddress : s'.ethernetAddress = s.ethernetAddress
  ipAddress : s'.ipAddress = s.ipAddress
  clock : s'.clock = s.clock
  arpTable : s'.arpTable = s.arpTable
  frames : ipv4Frames s'.framesOut = ipv4Frames s.framesOut ++ E.map (Emission.frame s.ethernetAddress)
  perm : (s'.dgramPending.filter serializes ++ E.map Emission.pair).Perm
    (s.dgramPending.filter serializes ++ offered.filter serializes)
  valid : ∀ e ∈ E, e.Valid s

namespace Sends

open List

variable {s s₁ s₂ : State} {o₁ o₂ : List (IPv4Datagram × Address)} {E₁ E₂ : List Emission}

theorem refl (s : State) : Sends s s [] [] :=
  ⟨rfl, rfl, rfl, rfl, by simp, by simp, by simp⟩

theorem trans (h₁ : Sends s s₁ o₁ E₁) (h₂ : Sends s₁ s₂ o₂ E₂) : Sends s s₂ (o₁ ++ o₂) (E₁ ++ E₂) := by
  refine ⟨h₂.ethernetAddress.trans h₁.ethernetAddress, h₂.ipAddress.trans h₁.ipAddress, h₂.clock.trans h₁.clock,
    h₂.arpTable.trans h₁.arpTable, ?_, ?_, ?_⟩
  · rw [h₂.frames, h₁.frames, h₁.ethernetAddress, List.map_append, List.append_assoc]
  · have hp₁ := h₁.perm
    have hp₂ := h₂.perm
    simp only [List.map_append, List.filter_append] at hp₁ hp₂ ⊢
    exact perm_ledger hp₂ hp₁
  · intro e he
    rcases List.mem_append.mp he with he | he
    · exact h₁.valid e he
    · obtain ⟨hser, exp, htab, hclock⟩ := h₂.valid e he
      exact ⟨hser, exp, h₁.arpTable ▸ htab, h₁.clock ▸ hclock⟩

/-- Sending one datagram to the address the table holds. -/
theorem emit {e : Emission} (hv : e.Valid s) :
    Sends s { s with framesOut := s.framesOut ++ [e.frame s.ethernetAddress] } [e.pair] [e] := by
  refine ⟨rfl, rfl, rfl, rfl, by simp, ?_, by simpa using hv⟩
  simp [Emission.serializes_pair hv]

/-- Queueing the datagram offered. -/
theorem queue {p : IPv4Datagram × Address} (hq : Quiet s s₁) (hp : s₁.dgramPending = s.dgramPending ++ [p]) :
    Sends s s₁ [p] [] :=
  ⟨hq.ethernetAddress, hq.ipAddress, hq.clock, hq.arpTable, by simpa using hq.frames,
    by rw [hp, List.filter_append, List.map_nil, List.append_nil], by simp⟩

/-- Offering a datagram that does not serialize changes nothing. -/
theorem throw {p : IPv4Datagram × Address} (hp : serializes p = false) : Sends s s [p] [] :=
  ⟨rfl, rfl, rfl, rfl, by simp, by simp [hp], by simp⟩

/-- The round of `recv_frame`'s loop on the datagram at the front: offering it again and
then popping the front leaves what was queued queued or sent. -/
theorem pop {p : IPv4Datagram × Address} {rest q : List (IPv4Datagram × Address)}
    (hs : s.dgramPending = p :: rest) (h : Sends s s₁ [p] E₁) (hq : s₁.dgramPending = p :: q) :
    Sends s { s₁ with dgramPending := q } [] E₁ := by
  refine ⟨h.ethernetAddress, h.ipAddress, h.clock, h.arpTable, h.frames, ?_, h.valid⟩
  have hp := h.perm
  rw [hq, hs] at hp
  rw [hs, List.filter_nil, List.append_nil]
  -- the copy of `p` at the front stands for the one offered
  have hp' : (p :: q).filter serializes ++ E₁.map Emission.pair ~
      [p].filter serializes ++ (p :: rest).filter serializes :=
    hp.trans List.perm_append_comm
  rw [show p :: q = [p] ++ q from rfl, List.filter_append, List.append_assoc] at hp'
  exact (List.perm_append_left_iff _).mp hp'

/-- The frames sent are valid in the state reached, which has the same table and clock. -/
theorem valid_end (h : Sends s s₁ o₁ E₁) : ∀ e ∈ E₁, e.Valid s₁ := by
  intro e he
  obtain ⟨hser, exp, htab, hclock⟩ := h.valid e he
  exact ⟨hser, exp, h.arpTable ▸ htab, h.clock ▸ hclock⟩

end Sends

namespace State

/-- `send_datagram` sends the datagram or queues it, or throws and changes nothing. -/
theorem sendDatagram_sends (s : State) (d : IPv4Datagram) (h : Address) :
    ∃ E, Sends s (after (s.sendDatagram d h)) [(d, h)] E := by
  rcases sendDatagram_cases s d h with ⟨e, hpair, hv, heq⟩ | ⟨msg, hser, heq⟩ | ⟨s', heq, hp, hq⟩
  · rw [heq, ← hpair]
    exact ⟨_, Sends.emit hv⟩
  · rw [heq]
    exact ⟨_, Sends.throw (by simp [serializes, hser, Except.isOk, Except.toBool])⟩
  · rw [heq]
    exact ⟨_, Sends.queue hq hp⟩

/-- **What `recv_frame`'s loop does.** Whatever the fuel, the queue's datagrams are sent or
stay queued, each once. -/
theorem pollPending_sends (n : Nat) (s : State) : ∃ E, Sends s (after (pollPending n s)) [] E := by
  induction n generalizing s with
  | zero => exact ⟨_, Sends.refl s⟩
  | succ n ih =>
    unfold pollPending
    split
    · exact ⟨_, Sends.refl s⟩
    · next d h rest hs =>
      rcases sendDatagram_cases s d h with ⟨e, hpair, hv, heq⟩ | ⟨msg, -, heq⟩ | ⟨s₁, heq, hp, hq⟩
      · -- sent: the queue is as it was, and the loop goes on without its front
        rw [heq]
        dsimp only
        rw [if_neg (by simp), hs, List.tail_cons]
        have hpop := Sends.pop hs (hpair ▸ Sends.emit hv) (by simpa using hs)
        obtain ⟨E, hE⟩ := ih { s with framesOut := s.framesOut ++ [e.frame s.ethernetAddress], dgramPending := rest }
        exact ⟨_, hpop.trans hE⟩
      · rw [heq]
        exact ⟨_, Sends.refl s⟩
      · -- queued again at the back: the loop stops
        rw [heq]
        dsimp only
        rw [if_pos (by simp [hp])]
        exact ⟨_, Sends.pop hs (Sends.queue hq hp) (by simp [hp, hs])⟩

/-- What learning does: the table maps the sender of a parsed message to its Ethernet
address for thirty seconds, and nothing throws, since a parsed message is supported and so
is its reply. -/
theorem learnAndReply_spec (s : State) {res : ParseResult} {m : ARPMessage}
    (hm : res = .noError → m.supported = true) :
    ∃ s₁, s.learnAndReply res m = .ok () s₁ ∧ s₁.ethernetAddress = s.ethernetAddress ∧
      s₁.ipAddress = s.ipAddress ∧ s₁.clock = s.clock ∧ s₁.dgramPending = s.dgramPending ∧
      ipv4Frames s₁.framesOut = ipv4Frames s.framesOut ∧
      s₁.arpTable = if res = .noError then
        Function.update s.arpTable m.senderIpAddress
          (some (m.senderEthernetAddress, Word.add 64 s.clock cacheTtlMs))
      else s.arpTable := by
  unfold learnAndReply
  by_cases hres : res = .noError
  · rw [if_pos hres]
    dsimp only
    split
    · split
      · refine ⟨_, rfl, rfl, rfl, rfl, rfl, ?_, rfl⟩
        rw [ipv4Frames_append, ipv4Frames_arp _ _ rfl, List.append_nil]
      · next msg hser =>
        -- the reply keeps the fixed fields of the message, all but the opcode
        have hs := hm hres
        obtain ⟨bytes, hok⟩ := @ARPMessage.serialize_of_supported
          { m with opcode := ARPMessage.opcodeReply, senderEthernetAddress := s.ethernetAddress,
                   senderIpAddress := s.ipAddress.ipv4Numeric, targetEthernetAddress := m.senderEthernetAddress,
                   targetIpAddress := m.senderIpAddress }
          (by simp_all [ARPMessage.supported, ARPMessage.opcodeReply])
        rw [hok] at hser
        cases hser
    · exact ⟨_, rfl, rfl, rfl, rfl, rfl, rfl, rfl⟩
  · rw [if_neg hres]
    exact ⟨_, rfl, rfl, rfl, rfl, rfl, rfl, (if_neg hres).symm⟩

/-- On an ARP frame addressed to the interface, `recv_frame` is the learning step, then its
loop over the queue. -/
theorem recvFrame_of_arp (s : State) (f : EthernetFrame)
    (hdst : f.header.dst = s.ethernetAddress ∨ f.header.dst = ethernetBroadcast)
    (hA : f.header.type = EthernetHeader.typeARP) {res : ParseResult} {m : ARPMessage}
    (hp : ({} : ARPMessage).parse f.payload = (res, m)) {s₁ : State} (hl : s.learnAndReply res m = .ok () s₁) :
    after (s.recvFrame f) = after (s₁.pollPending s₁.dgramPending.length) := by
  have hdst' : ¬(f.header.dst != s.ethernetAddress && f.header.dst != ethernetBroadcast) = true := by
    rcases hdst with h | h <;> simp [h]
  have h4 : f.header.type ≠ EthernetHeader.typeIPv4 := by
    rw [hA]
    decide
  unfold recvFrame
  dsimp only
  rw [if_neg hdst', if_neg h4, if_pos hA, hp]
  dsimp only
  rw [hl]
  dsimp only
  rcases s₁.pollPending s₁.dgramPending.length with ⟨⟨⟩, s₂⟩ | ⟨msg, s₂⟩ <;> rfl

/-- Every other frame leaves the interface as it was: one for another address, an IPv4
frame, whose datagram is returned or dropped, or a frame of another type. -/
theorem recvFrame_of_not_arp (s : State) (f : EthernetFrame)
    (h : ¬((f.header.dst = s.ethernetAddress ∨ f.header.dst = ethernetBroadcast) ∧
      f.header.type = EthernetHeader.typeARP)) :
    after (s.recvFrame f) = s := by
  unfold recvFrame
  dsimp only
  by_cases hdst : (f.header.dst != s.ethernetAddress && f.header.dst != ethernetBroadcast) = true
  · rw [if_pos hdst]
    rfl
  rw [if_neg hdst]
  by_cases h4 : f.header.type = EthernetHeader.typeIPv4
  · rw [if_pos h4]
    split <;> rfl
  -- an ARP frame for the interface is the other lemma's case
  have hA : f.header.type ≠ EthernetHeader.typeARP := by
    simp only [Bool.and_eq_true, bne_iff_ne, ne_eq, not_and, not_not] at hdst
    exact fun hA => h ⟨by tauto, hA⟩
  rw [if_neg h4, if_neg hA]
  rfl

/-- **What `recv_frame` does.** It learns at most the sender of an ARP frame addressed to
it, and then sends queued datagrams as `send_datagram` does; it sends no other IPv4 frame
and queues nothing new. -/
theorem recvFrame_sends (s : State) (f : EthernetFrame) :
    ∃ s₁ E, s₁.ethernetAddress = s.ethernetAddress ∧ s₁.ipAddress = s.ipAddress ∧ s₁.clock = s.clock ∧
      s₁.dgramPending = s.dgramPending ∧ ipv4Frames s₁.framesOut = ipv4Frames s.framesOut ∧
      (s₁.arpTable = s.arpTable ∨ ∃ ip hw, LearnsFrom s.ethernetAddress f ip hw ∧
        s₁.arpTable = Function.update s.arpTable ip (some (hw, Word.add 64 s.clock cacheTtlMs))) ∧
      Sends s₁ (after (s.recvFrame f)) [] E := by
  by_cases harp : (f.header.dst = s.ethernetAddress ∨ f.header.dst = ethernetBroadcast) ∧
      f.header.type = EthernetHeader.typeARP
  · obtain ⟨hfor, hA⟩ := harp
    rcases hp : ({} : ARPMessage).parse f.payload with ⟨res, m⟩
    obtain ⟨s₁, hl, he, hi, hc, hpend, hfr, htab⟩ :=
      learnAndReply_spec s (fun (hres : res = .noError) => ARPMessage.supported_of_parse (hres ▸ hp))
    obtain ⟨E, hE⟩ := pollPending_sends s₁.dgramPending.length s₁
    refine ⟨s₁, E, he, hi, hc, hpend, hfr, ?_, by rwa [recvFrame_of_arp s f hfor hA hp hl]⟩
    -- the table learned the sender if the message parsed
    by_cases hres : res = .noError
    · rw [if_pos hres] at htab
      exact .inr ⟨_, _, ⟨hfor, hA, m, hres ▸ hp, rfl, rfl⟩, htab⟩
    · rw [if_neg hres] at htab
      exact .inl htab
  · rw [recvFrame_of_not_arp s f harp]
    exact ⟨s, [], rfl, rfl, rfl, rfl, rfl, .inl rfl, Sends.refl s⟩

/-- `tick` moves the clock on and drops entries from the table, and nothing else. -/
theorem tick_spec (s : State) (ms : Nat) :
    (s.tick ms).ethernetAddress = s.ethernetAddress ∧ (s.tick ms).ipAddress = s.ipAddress ∧
      (s.tick ms).clock = Word.add 64 s.clock ms ∧ (s.tick ms).framesOut = s.framesOut ∧
      (s.tick ms).dgramPending = s.dgramPending ∧
      ∀ ip e, (s.tick ms).arpTable ip = some e → s.arpTable ip = some e := by
  refine ⟨rfl, rfl, rfl, rfl, rfl, fun ip e he => ?_⟩
  simp only [tick, Option.filter_eq_some_iff] at he
  exact he.1

/-- **The datagram `recv_frame` returns** is the one of the model of delivery alone
(`NetworkInterface.recvFrame`): learning, answering and sending do not change it. -/
theorem recvFrame_value (s : State) (f : EthernetFrame) {v : Option IPv4Datagram} {s' : State}
    (h : s.recvFrame f = .ok v s') : v = s.toNetworkInterface.recvFrame f := by
  unfold recvFrame at h
  unfold NetworkInterface.recvFrame
  dsimp only at h ⊢
  by_cases hdst : (f.header.dst != s.ethernetAddress && f.header.dst != ethernetBroadcast) = true
  · rw [if_pos hdst] at h
    rw [if_pos hdst]
    cases h
    rfl
  rw [if_neg hdst] at h
  rw [if_neg hdst]
  by_cases h4 : f.header.type = EthernetHeader.typeIPv4
  · rw [if_pos h4] at h
    rw [if_pos h4]
    rcases hp : ({} : IPv4Datagram).parse f.payload with ⟨res, d⟩
    rw [hp] at h
    dsimp only at h ⊢
    split at h <;> cases h
    · rw [if_pos ‹_›]
    · rw [if_neg ‹_›]
  rw [if_neg h4] at h
  rw [if_neg h4]
  -- an ARP frame, or another type: nothing is returned
  by_cases hA : f.header.type = EthernetHeader.typeARP
  · rw [if_pos hA] at h
    revert h
    split
    · intro h
      cases h
    · split <;> intro h <;> cases h
      rfl
  · rw [if_neg hA] at h
    cases h
    rfl

/-- Without an unexpired address for the next hop, `send_datagram` queues. -/
theorem sendDatagram_of_unresolved (s : State) (d : IPv4Datagram) (h : Address)
    (hu : ∀ hw exp, s.arpTable h.ipv4Numeric = some (hw, exp) → exp ≤ s.clock) :
    s.sendDatagram d h = s.queueAndRequest d h := by
  unfold sendDatagram
  split
  · next hw exp htab => rw [if_neg (by have := hu hw exp htab; omega)]
  · rfl

/-- **Head-of-line blocking.** When the next hop of the datagram at the front of the queue
is not resolved, `recv_frame`'s loop queues it again behind the others and stops: every
other queued datagram stays, whether its own next hop is resolved or not. -/
theorem pollPending_blocked (n : Nat) (s : State) {d : IPv4Datagram} {h : Address}
    {rest : List (IPv4Datagram × Address)} (hs : s.dgramPending = (d, h) :: rest)
    (hu : ∀ hw exp, s.arpTable h.ipv4Numeric = some (hw, exp) → exp ≤ s.clock) :
    (after (s.pollPending (n + 1))).dgramPending = rest ++ [(d, h)] := by
  obtain ⟨s₁, hq, hp, -⟩ := queueAndRequest_spec s d h
  unfold pollPending
  rw [hs]
  dsimp only
  rw [sendDatagram_of_unresolved s d h hu, hq]
  dsimp only
  rw [if_pos (by simp [hp, hs])]
  simp [after, hp, hs]

/-- Two datagrams queued for `10.0.0.2` and `10.0.0.3`, then an ARP reply from `10.0.0.3`:
the interface learns its address, but the loop stops at the datagram for `10.0.0.2` and the
one for `10.0.0.3` stays queued, with an unexpired entry for its next hop. -/
theorem resolved_datagram_left_pending :
    let eth : EthernetAddress := [2, 0, 0, 0, 0, 1]
    let reply : EthernetFrame :=
      { header := { dst := eth, src := [2, 0, 0, 0, 0, 3], type := EthernetHeader.typeARP },
        payload := [0, 1, 8, 0, 6, 4, 0, 2, 2, 0, 0, 0, 0, 3, 10, 0, 0, 3, 2, 0, 0, 0, 0, 1, 10, 0, 0, 1] }
    let d : IPv4Datagram := { header := { len := 20 } }
    let s := (init eth ⟨0x0a000001, 0⟩).run
      [.sendDatagram d ⟨0x0a000002, 0⟩, .sendDatagram d ⟨0x0a000003, 0⟩, .recvFrame reply]
    LearnsFrom eth reply 0x0a000003 [2, 0, 0, 0, 0, 3] ∧
      s.arpTable 0x0a000003 = some ([2, 0, 0, 0, 0, 3], cacheTtlMs) ∧ s.clock < cacheTtlMs ∧
      (d, ⟨0x0a000003, 0⟩) ∈ s.dgramPending := by
  intro eth reply d s
  let m : ARPMessage :=
    { opcode := ARPMessage.opcodeReply, senderEthernetAddress := [2, 0, 0, 0, 0, 3], senderIpAddress := 0x0a000003,
      targetEthernetAddress := eth, targetIpAddress := 0x0a000001 }
  have hp : ({} : ARPMessage).parse reply.payload = (.noError, m) := by decide +kernel
  -- the two sends queue both datagrams; the reply teaches `10.0.0.3` alone
  let s₂ := (init eth ⟨0x0a000001, 0⟩).run [.sendDatagram d ⟨0x0a000002, 0⟩, .sendDatagram d ⟨0x0a000003, 0⟩]
  have hq₂ : s₂.dgramPending = [(d, ⟨0x0a000002, 0⟩), (d, ⟨0x0a000003, 0⟩)] := by decide +kernel
  have hc₂ : s₂.clock = 0 := by decide +kernel
  have ht₂ : s₂.arpTable 0x0a000002 = none := by decide +kernel
  obtain ⟨s₁, hl, -, -, hc₁, hq₁, -, ht₁⟩ := learnAndReply_spec s₂ fun _ => ARPMessage.supported_of_parse hp
  have hs := recvFrame_of_arp s₂ reply (.inl rfl) rfl hp hl
  rw [if_pos rfl] at ht₁
  obtain ⟨E, hE⟩ := pollPending_sends s₁.dgramPending.length s₁
  have hrun : s = after (s₂.recvFrame reply) := by
    simp only [s, s₂, run, List.foldl_cons, List.foldl_nil, call]
  refine ⟨⟨.inl rfl, rfl, m, hp, rfl, rfl⟩, ?_, ?_, ?_⟩
  · rw [hrun, hs, hE.arpTable, ht₁, Function.update_self, hc₂]
    rfl
  · rw [hrun, hs, hE.clock, hc₁, hc₂]
    decide
  · -- the datagram at the front has no address: the loop queues it again and stops
    have hu : ∀ hw exp, s₁.arpTable (Address.ipv4Numeric ⟨0x0a000002, 0⟩) = some (hw, exp) → exp ≤ s₁.clock := by
      rw [ht₁, Function.update_of_ne (by decide), ht₂]
      intro hw exp h
      cases h
    have hlen : s₁.dgramPending.length = 1 + 1 := by rw [hq₁, hq₂]; rfl
    rw [hrun, hs, hlen, pollPending_blocked 1 s₁ (hq₁.trans hq₂) hu]
    simp
end State

/-- The datagram a call hands to the interface: that of `send_datagram`. -/
def Call.offered : Call → List (IPv4Datagram × Address)
  | .sendDatagram dgram nextHop => [(dgram, nextHop)]
  | _ => []

/-- What a call `c` from `s` does, with `E` the IPv4 frames it sends: the Ethernet address
stays, the clock moves on by the call's milliseconds unless that wraps it, the table only
loses entries or learns from an ARP frame of the call, and `Sends` holds of what was
queued or offered, for the state the call leaves. -/
structure CallStep (s : State) (c : Call) (E : List Emission) : Prop where
  ethernetAddress : (s.call c).ethernetAddress = s.ethernetAddress
  clock : s.clock + c.elapsed < 2 ^ 64 → (s.call c).clock = s.clock + c.elapsed
  arpTable : ∀ ip hw exp, (s.call c).arpTable ip = some (hw, exp) →
    s.arpTable ip = some (hw, exp) ∨
      ∃ f, c = .recvFrame f ∧ LearnsFrom s.ethernetAddress f ip hw ∧ exp = Word.add 64 (s.call c).clock cacheTtlMs
  frames : ipv4Frames (s.call c).framesOut = ipv4Frames s.framesOut ++ E.map (Emission.frame s.ethernetAddress)
  perm : ((s.call c).dgramPending.filter serializes ++ E.map Emission.pair).Perm
    (s.dgramPending.filter serializes ++ c.offered.filter serializes)
  valid : ∀ e ∈ E, e.Valid (s.call c)

namespace State

/-- **Every call is a `CallStep`.** -/
theorem callStep (s : State) (c : Call) : ∃ E, CallStep s c E := by
  cases c with
  | sendDatagram d h =>
    obtain ⟨E, hE⟩ := sendDatagram_sends s d h
    refine ⟨E, hE.ethernetAddress, fun _ => hE.clock, fun ip hw exp he => .inl (hE.arpTable ▸ he), hE.frames,
      hE.perm, hE.valid_end⟩
  | recvFrame f =>
    obtain ⟨s₁, E, he, -, hc, hp, hfr, htab, hE⟩ := recvFrame_sends s f
    refine ⟨E, hE.ethernetAddress.trans he, fun _ => hE.clock.trans hc, ?_, ?_, ?_, hE.valid_end⟩
    · -- an entry is an old one, or the one learned from the frame
      intro ip hw exp hentry
      rw [show (s.call (.recvFrame f)) = after (s.recvFrame f) from rfl, hE.arpTable] at hentry
      rcases htab with htab | ⟨ip', hw', hlearn, htab⟩
      · exact .inl (htab ▸ hentry)
      · rw [htab] at hentry
        by_cases hip : ip = ip'
        · subst hip
          rw [Function.update_self, Option.some.injEq, Prod.mk.injEq] at hentry
          obtain ⟨rfl, rfl⟩ := hentry
          refine .inr ⟨f, rfl, hlearn, ?_⟩
          rw [show (s.call (.recvFrame f)) = after (s.recvFrame f) from rfl, hE.clock, hc]
        · rw [Function.update_of_ne hip] at hentry
          exact .inl hentry
    · rw [show (s.call (.recvFrame f)) = after (s.recvFrame f) from rfl, hE.frames, hfr, he]
    · have hperm := hE.perm
      rw [hp] at hperm
      simpa [Call.offered, call] using hperm
  | tick ms =>
    obtain ⟨he, -, hc, hf, hp, htab⟩ := tick_spec s ms
    refine ⟨[], he, fun hb => hc.trans (Word.add_of_lt hb), fun ip hw exp h => .inl (htab ip _ h), ?_, ?_,
      by simp⟩
    · simp [call, hf]
    · simp [call, hp, Call.offered]

end State

end NetworkInterface

end Sponge
