import Sponge.Net.Delivery

/-!
The ARP frames a network interface sends, over every run of calls.

`send_datagram` broadcasts an ARP request for the next hop of a datagram it has to queue,
unless one for that address went out less than five seconds before (`_broadcast_interval_ms`),
and records the time; `recv_frame` answers a request for the interface's own IP address with a
reply to the requester. `ArpSends` says what a stretch of such steps at one time may send, with
one rule for each (`ArpSends.emit`, `ArpSends.queueAndRequest`, `ArpSends.pop`, `ArpSends.trans`),
and `ArpCallStep` what one call may (`arpCallStep`).

Along a run from a new interface, `arpLog` stamps each ARP frame with the clock when it went out.
By induction on the run: every ARP frame is a request for the next hop of a datagram handed to
`send_datagram`, or a reply to a request for the interface's address that it took in
(`Solicited`, `arp_frames_solicited`). While the ticks stay below `2^64`, so that the clock
does not wrap, requests for one address go out at least five seconds apart, and the next hop of
every queued datagram has been asked for (`ArpInv`, `arp_requests_paced`). The frames are
read as a host on the link reads them, with `ARPMessage::parse`; the interface's Ethernet
address has six bytes, as `EthernetAddress` does in the source.
-/

namespace Sponge

namespace NetworkInterface

open State

/-- The ARP frames among `frames`. -/
def arpFrames (frames : List EthernetFrame) : List EthernetFrame :=
  frames.filter fun f => f.header.type == EthernetHeader.typeARP

@[simp] theorem arpFrames_append (l₁ l₂ : List EthernetFrame) :
    arpFrames (l₁ ++ l₂) = arpFrames l₁ ++ arpFrames l₂ :=
  List.filter_append _ _

/-- The message of a frame, as `ARPMessage::parse` reads it. -/
def message (f : EthernetFrame) : ParseResult × ARPMessage := ({} : ARPMessage).parse f.payload

/-- A frame that parses as an ARP request for the Ethernet address of `ip`. -/
def RequestFor (ip : UInt32) (f : EthernetFrame) : Prop :=
  (message f).1 = .noError ∧ (message f).2.opcode = ARPMessage.opcodeRequest ∧
    (message f).2.targetIpAddress = ip

/-- The request `send_datagram` broadcasts for `ip` from the interface at `ethernetAddress`
and `ipAddress`. -/
def requestMessage (ethernetAddress : EthernetAddress) (ipAddress : Address) (ip : UInt32) : ARPMessage :=
  { opcode := ARPMessage.opcodeRequest, senderEthernetAddress := ethernetAddress,
    senderIpAddress := ipAddress.ipv4Numeric, targetIpAddress := ip }

/-- The broadcast frame of that request. -/
def RequestFrame (ethernetAddress : EthernetAddress) (ipAddress : Address) (ip : UInt32) (f : EthernetFrame) :
    Prop :=
  f.header = { dst := ethernetBroadcast, src := ethernetAddress, type := EthernetHeader.typeARP } ∧
    (requestMessage ethernetAddress ipAddress ip).serialize = .ok f.payload

/-- A request frame names its address: the request's last four bytes. -/
theorem RequestFrame.target_eq {e : EthernetAddress} {i : Address} {ip ip' : UInt32} {f : EthernetFrame}
    (h : RequestFrame e i ip f) (h' : RequestFrame e i ip' f) : ip = ip' := by
  have h₁ := h.2
  have h₂ := h'.2
  rw [ARPMessage.serialize, if_neg (by simp [show (requestMessage e i ip).supported = true from rfl])] at h₁
  rw [ARPMessage.serialize, if_neg (by simp [show (requestMessage e i ip').supported = true from rfl])] at h₂
  have hb := (Except.ok.inj h₁).trans (Except.ok.inj h₂).symm
  exact NetUnparser.u32_inj (List.append_cancel_left hb)

/-- The reply `recv_frame` sends to the request `q`, from the interface at `ethernetAddress`
and `ipAddress`. -/
def replyMessage (ethernetAddress : EthernetAddress) (ipAddress : Address) (q : ARPMessage) : ARPMessage :=
  { q with opcode := ARPMessage.opcodeReply, senderEthernetAddress := ethernetAddress,
           senderIpAddress := ipAddress.ipv4Numeric, targetEthernetAddress := q.senderEthernetAddress,
           targetIpAddress := q.senderIpAddress }

/-- The frame of that reply, to the sender of `q`. -/
def ReplyFrame (ethernetAddress : EthernetAddress) (ipAddress : Address) (q : ARPMessage) (f : EthernetFrame) :
    Prop :=
  f.header = { dst := q.senderEthernetAddress, src := ethernetAddress, type := EthernetHeader.typeARP } ∧
    (replyMessage ethernetAddress ipAddress q).serialize = .ok f.payload

/-- A frame that `recv_frame` of the interface at `ethernetAddress` and `ipAddress` takes in as
an ARP request `q` for its own address. -/
def Asks (ethernetAddress : EthernetAddress) (ipAddress : Address) (frame : EthernetFrame) (q : ARPMessage) :
    Prop :=
  (frame.header.dst = ethernetAddress ∨ frame.header.dst = ethernetBroadcast) ∧
    frame.header.type = EthernetHeader.typeARP ∧ message frame = (.noError, q) ∧
    q.opcode = ARPMessage.opcodeRequest ∧ q.targetIpAddress = ipAddress.ipv4Numeric

/-- No request for `ip` went out less than five seconds before: the test of `send_datagram`
fails. -/
def Fresh (s : State) (ip : UInt32) : Prop :=
  ∀ t, s.lastBroadcastTime ip = some t → broadcastIntervalMs ≤ Word.sub 64 s.clock t

namespace State

/-- **The queueing branch of `send_datagram`** broadcasts the request for the next hop when
none went out less than five seconds before, and then records the time; otherwise it only
queues. -/
theorem queueAndRequest_arp (s : State) (d : IPv4Datagram) (h : Address) :
    ∃ s', s.queueAndRequest d h = .ok () s' ∧ s'.ethernetAddress = s.ethernetAddress ∧
      s'.ipAddress = s.ipAddress ∧ s'.clock = s.clock ∧ s'.dgramPending = s.dgramPending ++ [(d, h)] ∧
      ((¬Fresh s h.ipv4Numeric ∧ s'.framesOut = s.framesOut ∧ s'.lastBroadcastTime = s.lastBroadcastTime) ∨
        (Fresh s h.ipv4Numeric ∧
          s'.lastBroadcastTime = Function.update s.lastBroadcastTime h.ipv4Numeric (some s.clock) ∧
          ∃ f, RequestFrame s.ethernetAddress s.ipAddress h.ipv4Numeric f ∧ s'.framesOut = s.framesOut ++ [f])) := by
  obtain ⟨bytes, hok⟩ := @ARPMessage.serialize_of_supported
    (requestMessage s.ethernetAddress s.ipAddress h.ipv4Numeric) rfl
  unfold queueAndRequest
  dsimp only
  have hser := hok
  unfold requestMessage at hser
  cases hl : s.lastBroadcastTime h.ipv4Numeric with
  | none =>
    rw [if_neg (by simp), hser]
    refine ⟨_, rfl, rfl, rfl, rfl, rfl, .inr ⟨fun t ht => ?_, rfl, _, ⟨rfl, hok⟩, rfl⟩⟩
    rw [hl] at ht
    cases ht
  | some t =>
    by_cases hr : Word.sub 64 s.clock t < broadcastIntervalMs
    · rw [if_pos (by simp [hr])]
      refine ⟨_, rfl, rfl, rfl, rfl, rfl, .inl ⟨fun hf => ?_, rfl, rfl⟩⟩
      have := hf t hl
      omega
    · rw [if_neg (by simp [hr]), hser]
      refine ⟨_, rfl, rfl, rfl, rfl, rfl, .inr ⟨fun t' ht' => ?_, rfl, _, ⟨rfl, hok⟩, rfl⟩⟩
      rw [hl, Option.some.injEq] at ht'
      subst ht'
      omega

end State

/-- An IPv4 frame is not an ARP frame. -/
@[simp] theorem arpFrames_ipv4 (h : EthernetHeader) (p : List UInt8) (ht : h.type = EthernetHeader.typeIPv4) :
    arpFrames [{ header := h, payload := p }] = [] := by
  simp [arpFrames, ht, EthernetHeader.typeARP, EthernetHeader.typeIPv4]

@[simp] theorem arpFrames_requestFrame {e : EthernetAddress} {i : Address} {ip : UInt32} {f : EthernetFrame}
    (h : RequestFrame e i ip f) : arpFrames [f] = [f] := by
  simp [arpFrames, h.1]

/-- From `s` to `s'`, at one time, the interface appends `G` to its frames. Its ARP frames are
requests, each for the next hop of a datagram queued or `offered`, for which none went out
less than five seconds before; each records the time for its address, at most one goes out
for each address, and no other time changes. What is queued was queued or offered, and what
is newly queued has its next hop asked for. -/
structure ArpSends (s s' : State) (offered : List (IPv4Datagram × Address)) (G : List EthernetFrame) : Prop where
  ethernetAddress : s'.ethernetAddress = s.ethernetAddress
  ipAddress : s'.ipAddress = s.ipAddress
  clock : s'.clock = s.clock
  frames : s'.framesOut = s.framesOut ++ G
  time : ∀ ip, s'.lastBroadcastTime ip = s.lastBroadcastTime ip ∨ s'.lastBroadcastTime ip = some s.clock
  timeSet : ∀ ip, s'.lastBroadcastTime ip ≠ s.lastBroadcastTime ip →
    ∃ f ∈ arpFrames G, RequestFrame s.ethernetAddress s.ipAddress ip f
  requests : ∀ f ∈ arpFrames G, ∃ p ∈ s.dgramPending ++ offered,
    RequestFrame s.ethernetAddress s.ipAddress p.2.ipv4Numeric f
  fresh : ∀ f ∈ arpFrames G, ∀ ip, RequestFrame s.ethernetAddress s.ipAddress ip f →
    Fresh s ip ∧ s'.lastBroadcastTime ip = some s.clock
  once : (arpFrames G).Pairwise fun f g =>
    ∀ ip, RequestFrame s.ethernetAddress s.ipAddress ip f → ¬RequestFrame s.ethernetAddress s.ipAddress ip g
  queue : ∀ p ∈ s'.dgramPending, p ∈ s.dgramPending ∨ p ∈ offered
  asked : ∀ p ∈ s'.dgramPending, p ∈ s.dgramPending ∨ (s'.lastBroadcastTime p.2.ipv4Numeric).isSome

namespace ArpSends

variable {s s₁ s₂ : State} {o₁ o₂ : List (IPv4Datagram × Address)} {G₁ G₂ : List EthernetFrame}

theorem refl (s : State) (offered : List (IPv4Datagram × Address)) : ArpSends s s offered [] where
  ethernetAddress := rfl
  ipAddress := rfl
  clock := rfl
  frames := by simp
  time _ := .inl rfl
  timeSet _ h := absurd rfl h
  requests := by simp [arpFrames]
  fresh := by simp [arpFrames]
  once := by simp [arpFrames]
  queue _ hp := .inl hp
  asked _ hp := .inl hp

/-- A time recorded in the first stretch keeps a second one from asking again. -/
theorem not_fresh (h : ArpSends s s₁ o₁ G₁) {ip : UInt32} (ht : s₁.lastBroadcastTime ip = some s.clock) :
    ¬Fresh s₁ ip := by
  intro hf
  have := hf _ ht
  rw [h.clock, Word.sub_of_le le_rfl, Nat.sub_self] at this
  exact absurd this (by decide)

theorem trans (h₁ : ArpSends s s₁ o₁ G₁) (h₂ : ArpSends s₁ s₂ o₂ G₂) : ArpSends s s₂ (o₁ ++ o₂) (G₁ ++ G₂) where
  ethernetAddress := h₂.ethernetAddress.trans h₁.ethernetAddress
  ipAddress := h₂.ipAddress.trans h₁.ipAddress
  clock := h₂.clock.trans h₁.clock
  frames := by rw [h₂.frames, h₁.frames, List.append_assoc]
  time ip := by
    rcases h₂.time ip with h | h <;> rw [h]
    · exact h₁.time ip
    · exact .inr (by rw [h₁.clock])
  timeSet ip hne := by
    by_cases h : s₁.lastBroadcastTime ip = s.lastBroadcastTime ip
    · obtain ⟨f, hf, hr⟩ := h₂.timeSet ip (by rwa [h])
      rw [h₁.ethernetAddress, h₁.ipAddress] at hr
      exact ⟨f, by simp [hf], hr⟩
    · obtain ⟨f, hf, hr⟩ := h₁.timeSet ip h
      exact ⟨f, by simp [hf], hr⟩
  requests f hf := by
    rw [arpFrames_append, List.mem_append] at hf
    rcases hf with hf | hf
    · obtain ⟨p, hp, hr⟩ := h₁.requests f hf
      rw [List.mem_append] at hp
      exact ⟨p, by rcases hp with hp | hp <;> simp [hp], hr⟩
    · obtain ⟨p, hp, hr⟩ := h₂.requests f hf
      rw [h₁.ethernetAddress, h₁.ipAddress] at hr
      rw [List.mem_append] at hp
      rcases hp with hp | hp
      · rcases h₁.queue p hp with hp | hp <;> exact ⟨p, by simp [hp], hr⟩
      · exact ⟨p, by simp [hp], hr⟩
  fresh f hf ip hr := by
    rw [arpFrames_append, List.mem_append] at hf
    rcases hf with hf | hf
    · obtain ⟨hfr, ht⟩ := h₁.fresh f hf ip hr
      refine ⟨hfr, ?_⟩
      rcases h₂.time ip with h | h <;> rw [h]
      · exact ht
      · rw [h₁.clock]
    · rw [← h₁.ethernetAddress, ← h₁.ipAddress] at hr
      obtain ⟨hfr, ht⟩ := h₂.fresh f hf ip hr
      rcases h₁.time ip with h | h
      · exact ⟨fun t htime => by rw [← h₁.clock]; exact hfr t (h.trans htime), by rw [ht, h₁.clock]⟩
      · exact absurd hfr (h₁.not_fresh h)
  once := by
    rw [arpFrames_append, List.pairwise_append]
    refine ⟨h₁.once, ?_, ?_⟩
    · have h₂once := h₂.once
      rwa [h₁.ethernetAddress, h₁.ipAddress] at h₂once
    · intro f hf g hg ip hrf hrg
      rw [← h₁.ethernetAddress, ← h₁.ipAddress] at hrg
      exact h₁.not_fresh (h₁.fresh f hf ip hrf).2 (h₂.fresh g hg ip hrg).1
  queue p hp := by
    rcases h₂.queue p hp with hp | hp
    · rcases h₁.queue p hp with hp | hp
      · exact .inl hp
      · exact .inr (List.mem_append_left _ hp)
    · exact .inr (List.mem_append_right _ hp)
  asked p hp := by
    rcases h₂.asked p hp with hp | hp
    · rcases h₁.asked p hp with hp | hp
      · exact .inl hp
      · right
        rcases h₂.time p.2.ipv4Numeric with h | h <;> rw [h]
        · exact hp
        · rfl
    · exact .inr hp

/-- Sending an IPv4 frame. -/
theorem emit {d : IPv4Datagram} {h : Address} (e : Emission) :
    ArpSends s { s with framesOut := s.framesOut ++ [e.frame s.ethernetAddress] } [(d, h)]
      [e.frame s.ethernetAddress] where
  ethernetAddress := rfl
  ipAddress := rfl
  clock := rfl
  frames := rfl
  time _ := .inl rfl
  timeSet _ h := absurd rfl h
  requests := by simp [Emission.frame]
  fresh := by simp [Emission.frame]
  once := by simp [Emission.frame]
  queue _ hp := .inl hp
  asked _ hp := .inl hp

/-- The queueing branch of `send_datagram`. -/
theorem queueAndRequest (s : State) (d : IPv4Datagram) (h : Address) :
    ∃ G, ArpSends s (after (s.queueAndRequest d h)) [(d, h)] G := by
  obtain ⟨s', hq, he, hi, hc, hp, hr⟩ := queueAndRequest_arp s d h
  rw [hq]
  change ∃ G, ArpSends s s' [(d, h)] G
  rcases hr with ⟨hnf, hfr, ht⟩ | ⟨hf, ht, f, hreq, hfr⟩
  · refine ⟨[], he, hi, hc, by simpa using hfr, fun ip => .inl (by rw [ht]), fun ip hne => absurd (by rw [ht]) hne,
      by simp [arpFrames], by simp [arpFrames], by simp [arpFrames], fun p hp' => ?_, fun p hp' => ?_⟩
    · rw [hp, List.mem_append] at hp'
      exact hp'
    · rw [hp, List.mem_append, List.mem_singleton] at hp'
      rcases hp' with hp' | rfl
      · exact .inl hp'
      · right
        -- asked less than five seconds before
        cases htime : s.lastBroadcastTime h.ipv4Numeric with
        | none => exact absurd (fun t ht' => by rw [htime] at ht'; cases ht') hnf
        | some t => rw [ht, htime]; rfl
  · refine ⟨[f], he, hi, hc, hfr, fun ip => ?_, fun ip hne => ?_, fun g hg => ?_, fun g hg ip hrg => ?_,
      by rw [arpFrames_requestFrame hreq]; exact List.pairwise_singleton _ _, fun p hp' => ?_, fun p hp' => ?_⟩
    · by_cases hip : ip = h.ipv4Numeric
      · subst hip
        exact .inr (by simp [ht])
      · exact .inl (by simp [ht, Function.update_of_ne hip])
    · by_cases hip : ip = h.ipv4Numeric
      · subst hip
        exact ⟨f, by simp [arpFrames_requestFrame hreq], hreq⟩
      · exact absurd (by simp [ht, Function.update_of_ne hip]) hne
    · rw [arpFrames_requestFrame hreq, List.mem_singleton] at hg
      subst hg
      exact ⟨(d, h), by simp, hreq⟩
    · rw [arpFrames_requestFrame hreq, List.mem_singleton] at hg
      subst hg
      obtain rfl := hreq.target_eq hrg
      exact ⟨hf, by simp [ht]⟩
    · rw [hp, List.mem_append] at hp'
      exact hp'
    · rw [hp, List.mem_append, List.mem_singleton] at hp'
      rcases hp' with hp' | rfl
      · exact .inl hp'
      · exact .inr (by simp [ht])

/-- The round of `recv_frame`'s loop on the datagram at the front: offering it again and
then popping the front. -/
theorem pop {p : IPv4Datagram × Address} {rest q : List (IPv4Datagram × Address)} {G : List EthernetFrame}
    (hs : s.dgramPending = p :: rest) (h : ArpSends s s₁ [p] G) (hq : s₁.dgramPending = p :: q) :
    ArpSends s { s₁ with dgramPending := q } [] G where
  ethernetAddress := h.ethernetAddress
  ipAddress := h.ipAddress
  clock := h.clock
  frames := h.frames
  time := h.time
  timeSet := h.timeSet
  requests f hf := by
    obtain ⟨p', hp', hr⟩ := h.requests f hf
    refine ⟨p', ?_, hr⟩
    rw [hs] at hp' ⊢
    simp only [List.mem_append, List.mem_cons, List.not_mem_nil, or_false] at hp' ⊢
    tauto
  fresh := h.fresh
  once := h.once
  queue p' hp' := by
    rcases h.queue p' (by rw [hq]; exact List.mem_cons_of_mem _ hp') with hp' | hp'
    · exact .inl hp'
    · rw [List.mem_singleton] at hp'
      subst hp'
      exact .inl (by rw [hs]; exact List.mem_cons_self)
  asked p' hp' := h.asked p' (by rw [hq]; exact List.mem_cons_of_mem _ hp')

end ArpSends

namespace State

/-- **What `send_datagram` sends by ARP.** -/
theorem sendDatagram_arpSends (s : State) (d : IPv4Datagram) (h : Address) :
    ∃ G, ArpSends s (after (s.sendDatagram d h)) [(d, h)] G := by
  unfold sendDatagram
  split
  · split
    · split
      · next p hp => exact ⟨_, ArpSends.emit ⟨d, h, _, p⟩⟩
      · exact ⟨_, ArpSends.refl s _⟩
    · exact ArpSends.queueAndRequest s d h
  · exact ArpSends.queueAndRequest s d h

/-- **What `recv_frame`'s loop sends by ARP**, whatever the fuel. -/
theorem pollPending_arpSends (n : Nat) (s : State) : ∃ G, ArpSends s (after (pollPending n s)) [] G := by
  induction n generalizing s with
  | zero => exact ⟨_, ArpSends.refl s _⟩
  | succ n ih =>
    unfold pollPending
    split
    · exact ⟨_, ArpSends.refl s _⟩
    · next d h rest hs =>
      obtain ⟨G₁, hG₁⟩ := sendDatagram_arpSends s d h
      rcases sendDatagram_cases s d h with ⟨e, -, -, heq⟩ | ⟨msg, -, heq⟩ | ⟨s₁, heq, hp, -⟩
      · rw [heq] at hG₁ ⊢
        simp only [after] at hG₁
        dsimp only
        rw [if_neg (by simp), hs, List.tail_cons]
        have hpop := ArpSends.pop hs hG₁ (by simpa using hs)
        obtain ⟨G, hG⟩ := ih { s with framesOut := s.framesOut ++ [e.frame s.ethernetAddress], dgramPending := rest }
        exact ⟨_, hpop.trans hG⟩
      · rw [heq]
        exact ⟨_, ArpSends.refl s _⟩
      · rw [heq] at hG₁ ⊢
        simp only [after] at hG₁
        dsimp only
        rw [if_pos (by simp [hp])]
        exact ⟨_, ArpSends.pop hs hG₁ (by simp [hp, hs])⟩

/-- **What learning sends**: a reply, to a parsed request for the interface's own address. -/
theorem learnAndReply_arp (s : State) {res : ParseResult} {m : ARPMessage}
    (hm : res = .noError → m.supported = true) :
    ∃ s₁ R, s.learnAndReply res m = .ok () s₁ ∧ s₁.ethernetAddress = s.ethernetAddress ∧
      s₁.ipAddress = s.ipAddress ∧ s₁.clock = s.clock ∧ s₁.dgramPending = s.dgramPending ∧
      s₁.lastBroadcastTime = s.lastBroadcastTime ∧ s₁.framesOut = s.framesOut ++ R ∧
      ∀ f ∈ R, res = .noError ∧ m.opcode = ARPMessage.opcodeRequest ∧
        m.targetIpAddress = s.ipAddress.ipv4Numeric ∧ ReplyFrame s.ethernetAddress s.ipAddress m f := by
  unfold learnAndReply
  by_cases hres : res = .noError
  · rw [if_pos hres]
    dsimp only
    split
    · next hask =>
      obtain ⟨bytes, hok⟩ := @ARPMessage.serialize_of_supported (replyMessage s.ethernetAddress s.ipAddress m)
        (by simp_all [ARPMessage.supported, replyMessage, ARPMessage.opcodeReply])
      have hser := hok
      unfold replyMessage at hser
      rw [hser]
      simp only [Bool.and_eq_true, decide_eq_true_eq] at hask
      refine ⟨_, _, rfl, rfl, rfl, rfl, rfl, rfl, rfl, fun f hf => ?_⟩
      rw [List.mem_singleton] at hf
      subst hf
      exact ⟨hres, hask.2, hask.1, rfl, hok⟩
    · exact ⟨_, [], rfl, rfl, rfl, rfl, rfl, rfl, by simp, by simp⟩
  · rw [if_neg hres]
    exact ⟨_, [], rfl, rfl, rfl, rfl, rfl, rfl, by simp, by simp⟩

/-- **What `recv_frame` sends by ARP**: at most a reply to a request for its own address, and
then what its loop sends. -/
theorem recvFrame_arp (s : State) (f : EthernetFrame) :
    ∃ s₁ R G, s₁.ethernetAddress = s.ethernetAddress ∧ s₁.ipAddress = s.ipAddress ∧ s₁.clock = s.clock ∧
      s₁.dgramPending = s.dgramPending ∧ s₁.lastBroadcastTime = s.lastBroadcastTime ∧
      s₁.framesOut = s.framesOut ++ R ∧ (∀ g ∈ R, ∃ q, Asks s.ethernetAddress s.ipAddress f q ∧
        ReplyFrame s.ethernetAddress s.ipAddress q g) ∧
      ArpSends s₁ (after (s.recvFrame f)) [] G := by
  by_cases harp : (f.header.dst = s.ethernetAddress ∨ f.header.dst = ethernetBroadcast) ∧
      f.header.type = EthernetHeader.typeARP
  · obtain ⟨hfor, hA⟩ := harp
    rcases hp : ({} : ARPMessage).parse f.payload with ⟨res, m⟩
    obtain ⟨s₁, R, hl, he, hi, hc, hpend, htime, hfr, hR⟩ :=
      learnAndReply_arp s (fun (hres : res = .noError) => ARPMessage.supported_of_parse (hres ▸ hp))
    obtain ⟨G, hG⟩ := pollPending_arpSends s₁.dgramPending.length s₁
    refine ⟨s₁, R, G, he, hi, hc, hpend, htime, hfr, fun g hg => ?_, by rwa [recvFrame_of_arp s f hfor hA hp hl]⟩
    obtain ⟨hres, hop, htgt, hrep⟩ := hR g hg
    exact ⟨m, ⟨hfor, hA, by rw [message, hp, hres], hop, htgt⟩, hrep⟩
  · rw [recvFrame_of_not_arp s f harp]
    exact ⟨s, [], [], rfl, rfl, rfl, rfl, rfl, by simp, by simp, ArpSends.refl s []⟩

end State

/-- What a call `c` from `s` sends by ARP: the replies `R`, each to a request for the
interface's own address that the call took in, and then `H`, whose ARP frames are requests
as in `ArpSends`, made at the time of the call. The addresses stay and the clock moves on by
the call's milliseconds unless that wraps it; what is queued was queued or handed over, and
what is newly queued has its next hop asked for. -/
structure ArpCallStep (s : State) (c : Call) (R H : List EthernetFrame) : Prop where
  ethernetAddress : (s.call c).ethernetAddress = s.ethernetAddress
  ipAddress : (s.call c).ipAddress = s.ipAddress
  clock : s.clock + c.elapsed < 2 ^ 64 → (s.call c).clock = s.clock + c.elapsed
  frames : (s.call c).framesOut = s.framesOut ++ (R ++ H)
  replies : ∀ f ∈ R, ∃ fr q, c = .recvFrame fr ∧ Asks s.ethernetAddress s.ipAddress fr q ∧
    ReplyFrame s.ethernetAddress s.ipAddress q f
  time : ∀ ip, (s.call c).lastBroadcastTime ip = s.lastBroadcastTime ip ∨
    (s.call c).lastBroadcastTime ip = some s.clock
  timeSet : ∀ ip, (s.call c).lastBroadcastTime ip ≠ s.lastBroadcastTime ip →
    ∃ f ∈ arpFrames H, RequestFrame s.ethernetAddress s.ipAddress ip f
  requests : ∀ f ∈ arpFrames H, ∃ p ∈ s.dgramPending ++ c.offered,
    RequestFrame s.ethernetAddress s.ipAddress p.2.ipv4Numeric f
  fresh : ∀ f ∈ arpFrames H, ∀ ip, RequestFrame s.ethernetAddress s.ipAddress ip f →
    Fresh s ip ∧ (s.call c).lastBroadcastTime ip = some s.clock ∧ (s.call c).clock = s.clock
  once : (arpFrames H).Pairwise fun f g =>
    ∀ ip, RequestFrame s.ethernetAddress s.ipAddress ip f → ¬RequestFrame s.ethernetAddress s.ipAddress ip g
  queue : ∀ p ∈ (s.call c).dgramPending, p ∈ s.dgramPending ∨ p ∈ c.offered
  asked : ∀ p ∈ (s.call c).dgramPending, p ∈ s.dgramPending ∨
    ((s.call c).lastBroadcastTime p.2.ipv4Numeric).isSome

/-- A stretch of `ArpSends` after the replies `R`, from a state that differs from `s` only in
its frames, is the step of a call that lets no time pass. -/
theorem ArpSends.callStep {s s₁ : State} {c : Call} {R G : List EthernetFrame} (hel : c.elapsed = 0)
    (he : s₁.ethernetAddress = s.ethernetAddress) (hi : s₁.ipAddress = s.ipAddress) (hc : s₁.clock = s.clock)
    (hp : s₁.dgramPending = s.dgramPending) (ht : s₁.lastBroadcastTime = s.lastBroadcastTime)
    (hf : s₁.framesOut = s.framesOut ++ R)
    (hR : ∀ f ∈ R, ∃ fr q, c = .recvFrame fr ∧ Asks s.ethernetAddress s.ipAddress fr q ∧
      ReplyFrame s.ethernetAddress s.ipAddress q f)
    (h : ArpSends s₁ (s.call c) c.offered G) : ArpCallStep s c R G where
  ethernetAddress := h.ethernetAddress.trans he
  ipAddress := h.ipAddress.trans hi
  clock _ := by rw [h.clock, hc, hel, Nat.add_zero]
  frames := by rw [h.frames, hf, List.append_assoc]
  replies := hR
  time ip := by rw [← ht, ← hc]; exact h.time ip
  timeSet ip hne := by
    rw [← ht] at hne
    rw [← he, ← hi]
    exact h.timeSet ip hne
  requests f hf' := by
    rw [← he, ← hi, ← hp]
    exact h.requests f hf'
  fresh f hf' ip hr := by
    rw [← he, ← hi] at hr
    obtain ⟨hfr, htime⟩ := h.fresh f hf' ip hr
    refine ⟨fun t htt => ?_, by rw [htime, hc], h.clock.trans hc⟩
    rw [← hc]
    exact hfr t (by rw [ht]; exact htt)
  once := by
    have honce := h.once
    rwa [he, hi] at honce
  queue p hp' := by
    rw [← hp]
    exact h.queue p hp'
  asked p hp' := by
    rw [← hp]
    exact h.asked p hp'

namespace State

/-- **Every call is an `ArpCallStep`.** -/
theorem arpCallStep (s : State) (c : Call) : ∃ R H, ArpCallStep s c R H := by
  cases c with
  | sendDatagram d h =>
    obtain ⟨G, hG⟩ := sendDatagram_arpSends s d h
    exact ⟨[], G, ArpSends.callStep rfl rfl rfl rfl rfl rfl (by simp) (by simp) hG⟩
  | recvFrame f =>
    obtain ⟨s₁, R, G, he, hi, hc, hp, ht, hf, hR, hG⟩ := recvFrame_arp s f
    exact ⟨R, G, ArpSends.callStep rfl he hi hc hp ht hf
      (fun g hg => by obtain ⟨q, hq⟩ := hR g hg; exact ⟨f, q, rfl, hq⟩) hG⟩
  | tick ms =>
    obtain ⟨he, hi, hc, hf, hp, -⟩ := tick_spec s ms
    refine ⟨[], [], he, hi, fun hb => hc.trans (Word.add_of_lt hb), by simp [call, hf], by simp,
      fun ip => .inl rfl, fun ip hne => absurd rfl hne, by simp [arpFrames], by simp [arpFrames],
      by simp [arpFrames], fun p hp' => .inl (by simpa [call, hp] using hp'), fun p hp' => .inl (by simpa [call, hp] using hp')⟩

end State

/-! ## What a host on the link reads -/

section Parse

variable {e : EthernetAddress} {i : Address} (he : e.length = 6)

include he in
theorem message_of_requestFrame {ip : UInt32} {f : EthernetFrame} (h : RequestFrame e i ip f) :
    message f = (.noError, requestMessage e i ip) := by
  unfold message
  rw [← List.append_nil f.payload]
  exact ARPMessage.parse_append_of_serialize h.2 he rfl {} []

include he in
/-- A request frame is read as a request for its own address, and for no other. -/
theorem RequestFrame.requestFor_iff {ip ip' : UInt32} {f : EthernetFrame} (h : RequestFrame e i ip f) :
    RequestFor ip' f ↔ ip = ip' := by
  simp [RequestFor, message_of_requestFrame he h, requestMessage]

include he in
theorem message_of_replyFrame {fr f : EthernetFrame} {q : ARPMessage} (ha : Asks e i fr q)
    (h : ReplyFrame e i q f) : message f = (.noError, replyMessage e i q) := by
  have hq := (ARPMessage.length_of_parse ha.2.2.1).1
  unfold message
  rw [← List.append_nil f.payload]
  exact ARPMessage.parse_append_of_serialize h.2 he hq {} []

include he in
/-- A reply is read as a reply, not as a request. -/
theorem ReplyFrame.not_requestFor {fr f : EthernetFrame} {q : ARPMessage} (ha : Asks e i fr q)
    (h : ReplyFrame e i q f) (ip : UInt32) : ¬RequestFor ip f := by
  intro hr
  have hop := hr.2.1
  rw [message_of_replyFrame he ha h] at hop
  exact absurd hop (by simp [replyMessage, ARPMessage.opcodeReply, ARPMessage.opcodeRequest])

end Parse

/-! ## The ARP frames of a run -/

/-- A call of a run, with the ARP frames it appends, each stamped with the clock after the
call. -/
def logCall (acc : State × List (Nat × EthernetFrame)) (c : Call) : State × List (Nat × EthernetFrame) :=
  (acc.1.call c, acc.2 ++ (arpFrames ((acc.1.call c).framesOut.drop acc.1.framesOut.length)).map
    fun f => ((acc.1.call c).clock, f))

/-- The ARP frames a run from `s₀` sends, in order, each with the clock of the interface when
it went out. -/
def arpLog (s₀ : State) (calls : List Call) : List (Nat × EthernetFrame) :=
  (calls.foldl logCall (s₀, [])).2

theorem foldl_logCall_fst (s₀ : State) (L : List (Nat × EthernetFrame)) (calls : List Call) :
    (calls.foldl logCall (s₀, L)).1 = s₀.run calls := by
  induction calls generalizing s₀ L with
  | nil => rfl
  | cons c calls ih => exact ih (s₀.call c) _

theorem arpLog_append (s₀ : State) (calls : List Call) (c : Call) :
    arpLog s₀ (calls ++ [c]) = arpLog s₀ calls ++
      (arpFrames (((s₀.run calls).call c).framesOut.drop (s₀.run calls).framesOut.length)).map
        fun f => (((s₀.run calls).call c).clock, f) := by
  have h := foldl_logCall_fst s₀ [] calls
  unfold arpLog
  rw [List.foldl_append, List.foldl_cons, List.foldl_nil]
  generalize calls.foldl logCall (s₀, []) = acc at h ⊢
  obtain ⟨s, L⟩ := acc
  subst h
  rfl

theorem ipAddress_run (s₀ : State) (calls : List Call) : (s₀.run calls).ipAddress = s₀.ipAddress := by
  induction calls using List.reverseRecOn with
  | nil => rfl
  | append_singleton calls c ih =>
    obtain ⟨R, H, hc⟩ := arpCallStep (s₀.run calls) c
    rw [run_append, hc.ipAddress, ih]

/-- The frames a call appends. -/
theorem ArpCallStep.drop_frames {s : State} {c : Call} {R H : List EthernetFrame} (h : ArpCallStep s c R H) :
    (s.call c).framesOut.drop s.framesOut.length = R ++ H := by
  rw [h.frames, List.drop_left]

/-- A frame a call sends that a host reads as a request for `ip` is a request for `ip` among
those of `H`. -/
theorem ArpCallStep.requestFrame_of_requestFor {s : State} {c : Call} {R H : List EthernetFrame}
    (h : ArpCallStep s c R H) (he : s.ethernetAddress.length = 6) {f : EthernetFrame}
    (hf : f ∈ arpFrames (R ++ H)) {ip : UInt32} (hr : RequestFor ip f) :
    f ∈ arpFrames H ∧ RequestFrame s.ethernetAddress s.ipAddress ip f := by
  rw [arpFrames_append, List.mem_append] at hf
  rcases hf with hf | hf
  · obtain ⟨fr, q, -, ha, hrep⟩ := h.replies f (List.mem_of_mem_filter hf)
    exact absurd hr (ReplyFrame.not_requestFor he ha hrep ip)
  · obtain ⟨p, -, hreq⟩ := h.requests f hf
    obtain rfl := (hreq.requestFor_iff he).mp hr
    exact ⟨hf, hreq⟩

/-- What the run `calls` from `s₀` has sent by ARP, whatever its clock: each frame answers a
call of the run, and each queued datagram was handed over by one. -/
structure Solicited (s₀ : State) (calls : List Call) : Prop where
  solicited : ∀ x ∈ arpLog s₀ calls,
    (∃ d h, Call.sendDatagram d h ∈ calls ∧ RequestFrame s₀.ethernetAddress s₀.ipAddress h.ipv4Numeric x.2) ∨
      ∃ fr q, Call.recvFrame fr ∈ calls ∧ Asks s₀.ethernetAddress s₀.ipAddress fr q ∧
        ReplyFrame s₀.ethernetAddress s₀.ipAddress q x.2
  handed : ∀ p ∈ (s₀.run calls).dgramPending, Call.sendDatagram p.1 p.2 ∈ calls

/-- What the run `calls` from `s₀` has sent by ARP, with the times recorded for each address,
and the queue, while its clock has not wrapped. -/
structure ArpInv (s₀ : State) (calls : List Call) : Prop extends Solicited s₀ calls where
  stamp_le : ∀ x ∈ arpLog s₀ calls, x.1 ≤ (s₀.run calls).clock
  time_le : ∀ ip t, (s₀.run calls).lastBroadcastTime ip = some t → t ≤ (s₀.run calls).clock
  time_none : ∀ ip, (s₀.run calls).lastBroadcastTime ip = none → ∀ x ∈ arpLog s₀ calls, ¬RequestFor ip x.2
  time_some : ∀ ip t, (s₀.run calls).lastBroadcastTime ip = some t →
    (∀ x ∈ arpLog s₀ calls, RequestFor ip x.2 → x.1 ≤ t) ∧ ∃ x ∈ arpLog s₀ calls, RequestFor ip x.2 ∧ x.1 = t
  asked : ∀ p ∈ (s₀.run calls).dgramPending, ((s₀.run calls).lastBroadcastTime p.2.ipv4Numeric).isSome
  spaced : ∀ ip, (arpLog s₀ calls).Pairwise fun x y =>
    RequestFor ip x.2 → RequestFor ip y.2 → x.1 + broadcastIntervalMs ≤ y.1

theorem arpInv_init (ethernetAddress : EthernetAddress) (ipAddress : Address) :
    ArpInv (init ethernetAddress ipAddress) [] where
  solicited := by simp [arpLog]
  stamp_le := by simp [arpLog]
  time_le _ _ h := by cases h
  time_none := by simp [arpLog]
  time_some _ _ h := by cases h
  asked := by simp [init, run]
  handed := by simp [init, run]
  spaced := by simp [arpLog]

section Step

variable {s₀ : State} {calls : List Call} {c : Call} {R H : List EthernetFrame}

/-- The log of the run one call longer. -/
theorem ArpCallStep.arpLog_append (hc : ArpCallStep (s₀.run calls) c R H) :
    arpLog s₀ (calls ++ [c]) =
      arpLog s₀ calls ++ (arpFrames (R ++ H)).map fun f => (((s₀.run calls).call c).clock, f) := by
  rw [NetworkInterface.arpLog_append, hc.drop_frames]

/-- A frame of the call that a host reads as a request for `ip` went out at the time of the
call, when none for `ip` had gone out for five seconds, and recorded that time. -/
theorem ArpCallStep.fresh_of_requestFor (hc : ArpCallStep (s₀.run calls) c R H)
    (he : s₀.ethernetAddress.length = 6) {f : EthernetFrame} (hf : f ∈ arpFrames (R ++ H)) {ip : UInt32}
    (hr : RequestFor ip f) :
    Fresh (s₀.run calls) ip ∧ ((s₀.run calls).call c).lastBroadcastTime ip = some (s₀.run calls).clock ∧
      ((s₀.run calls).call c).clock = (s₀.run calls).clock := by
  obtain ⟨hfH, hreq⟩ := hc.requestFrame_of_requestFor (by rwa [ethernetAddress_run]) hf hr
  exact hc.fresh f hfH ip hreq

/-- Two frames of one call are never both read as requests for one address. -/
theorem ArpCallStep.pairwise_requestFor (hc : ArpCallStep (s₀.run calls) c R H)
    (he : s₀.ethernetAddress.length = 6) (ip : UInt32) :
    (arpFrames (R ++ H)).Pairwise fun f g => RequestFor ip f → ¬RequestFor ip g := by
  have he' : (s₀.run calls).ethernetAddress.length = 6 := by rwa [ethernetAddress_run]
  have hrep : ∀ f ∈ arpFrames R, ¬RequestFor ip f := by
    intro f hf hr
    obtain ⟨fr, q, -, ha, hrep⟩ := hc.replies f (List.mem_of_mem_filter hf)
    exact ReplyFrame.not_requestFor he' ha hrep ip hr
  rw [arpFrames_append, List.pairwise_append]
  refine ⟨List.pairwise_of_forall_mem_list fun f hf _ _ hr _ => hrep f hf hr,
    hc.once.imp_of_mem fun {f g} hf hg hfg hrf hrg => ?_, fun f hf _ _ hr _ => hrep f hf hr⟩
  obtain ⟨-, hreqf⟩ := hc.requestFrame_of_requestFor he' (by simp [hf]) hrf
  obtain ⟨-, hreqg⟩ := hc.requestFrame_of_requestFor he' (by simp [hg]) hrg
  exact hfg ip hreqf hreqg

/-- The offered datagram of a call is that of a `send_datagram` call. -/
theorem mem_of_offered {p : IPv4Datagram × Address} (hp : p ∈ c.offered) :
    Call.sendDatagram p.1 p.2 ∈ calls ++ [c] := by
  cases c with
  | sendDatagram d h =>
    rw [Call.offered, List.mem_singleton] at hp
    subst hp
    simp
  | recvFrame f => cases hp
  | tick ms => cases hp

/-- The times recorded after the call: the request of the call for `ip` is the last one. -/
theorem ArpInv.time_some_append (hI : ArpInv s₀ calls) (hc : ArpCallStep (s₀.run calls) c R H)
    (he : s₀.ethernetAddress.length = 6) (ip : UInt32) (t : Nat)
    (ht : ((s₀.run calls).call c).lastBroadcastTime ip = some t) :
    (∀ x ∈ arpLog s₀ (calls ++ [c]), RequestFor ip x.2 → x.1 ≤ t) ∧
      ∃ x ∈ arpLog s₀ (calls ++ [c]), RequestFor ip x.2 ∧ x.1 = t := by
  have he' : (s₀.run calls).ethernetAddress.length = 6 := by rwa [ethernetAddress_run]
  rw [hc.arpLog_append]
  by_cases hsame : ((s₀.run calls).call c).lastBroadcastTime ip = (s₀.run calls).lastBroadcastTime ip
  · -- no request of the call for `ip`: the one recorded before is still the last
    obtain ⟨hle, x, hx, hxr, hxt⟩ := hI.time_some ip t (hsame ▸ ht)
    refine ⟨fun y hy hyr => ?_, x, List.mem_append_left _ hx, hxr, hxt⟩
    rcases List.mem_append.mp hy with hy | hy
    · exact hle y hy hyr
    · obtain ⟨f, hf, rfl⟩ := List.mem_map.mp hy
      obtain ⟨hfr, htime, -⟩ := hc.fresh_of_requestFor he hf hyr
      have htc : t = (s₀.run calls).clock := by
        rw [htime, Option.some.injEq] at ht
        exact ht.symm
      have := hfr t (hsame ▸ ht)
      rw [htc, Word.sub_of_le le_rfl, Nat.sub_self] at this
      exact absurd this (by decide)
  · -- the call sent the request for `ip`, at the time recorded
    have ht' : t = (s₀.run calls).clock := by
      rcases hc.time ip with h | h
      · exact absurd h hsame
      · rw [h, Option.some.injEq] at ht
        exact ht.symm
    obtain ⟨f, hf, hreq⟩ := hc.timeSet ip hsame
    obtain ⟨-, -, hclock⟩ := hc.fresh f hf ip hreq
    refine ⟨fun y hy hyr => ?_, ((((s₀.run calls).call c).clock, f)), List.mem_append_right _
      (List.mem_map.mpr ⟨f, by simp [hf], rfl⟩), (hreq.requestFor_iff he').mpr rfl, by rw [hclock, ht']⟩
    rcases List.mem_append.mp hy with hy | hy
    · exact ht' ▸ hI.stamp_le y hy
    · obtain ⟨g, hg, rfl⟩ := List.mem_map.mp hy
      obtain ⟨-, -, hclock'⟩ := hc.fresh_of_requestFor he hg hyr
      exact (hclock'.trans ht'.symm).le

/-- Requests for one address stay five seconds apart: one of the call goes out when none
had for five seconds, and every earlier one went out no later than the time recorded. -/
theorem ArpInv.spaced_append (hI : ArpInv s₀ calls) (hc : ArpCallStep (s₀.run calls) c R H)
    (he : s₀.ethernetAddress.length = 6) (ip : UInt32) :
    (arpLog s₀ (calls ++ [c])).Pairwise fun x y =>
      RequestFor ip x.2 → RequestFor ip y.2 → x.1 + broadcastIntervalMs ≤ y.1 := by
  rw [hc.arpLog_append, List.pairwise_append, List.pairwise_map]
  refine ⟨hI.spaced ip, (hc.pairwise_requestFor he ip).imp fun h hx hy => absurd hy (h hx), ?_⟩
  intro x hx y hy hxr hyr
  obtain ⟨g, hg, rfl⟩ := List.mem_map.mp hy
  obtain ⟨hfr, -, hclock⟩ := hc.fresh_of_requestFor he hg hyr
  dsimp only
  rw [hclock]
  cases htime : (s₀.run calls).lastBroadcastTime ip with
  | none => exact absurd hxr (hI.time_none ip htime x hx)
  | some t =>
    have hxt := (hI.time_some ip t htime).1 x hx hxr
    have htc := hI.time_le ip t htime
    have hgap := hfr t htime
    rw [Word.sub_of_le htc] at hgap
    omega

/-- Each frame a call sends answers a call of the run: a reply the frame it was given, a
request a datagram queued by it or before it. -/
theorem Solicited.solicited_append (hI : Solicited s₀ calls) (hc : ArpCallStep (s₀.run calls) c R H) :
    ∀ x ∈ arpLog s₀ (calls ++ [c]),
      (∃ d h, Call.sendDatagram d h ∈ calls ++ [c] ∧ RequestFrame s₀.ethernetAddress s₀.ipAddress h.ipv4Numeric x.2) ∨
        ∃ fr q, Call.recvFrame fr ∈ calls ++ [c] ∧ Asks s₀.ethernetAddress s₀.ipAddress fr q ∧
          ReplyFrame s₀.ethernetAddress s₀.ipAddress q x.2 := by
  have heth := ethernetAddress_run s₀ calls
  have hip := ipAddress_run s₀ calls
  intro x hx
  rw [hc.arpLog_append, List.mem_append] at hx
  rcases hx with hx | hx
  · rcases hI.solicited x hx with ⟨d, h, hm, hr⟩ | ⟨fr, q, hm, ha, hr⟩
    · exact .inl ⟨d, h, List.mem_append_left _ hm, hr⟩
    · exact .inr ⟨fr, q, List.mem_append_left _ hm, ha, hr⟩
  obtain ⟨f, hf, rfl⟩ := List.mem_map.mp hx
  rw [arpFrames_append, List.mem_append] at hf
  rcases hf with hf | hf
  · obtain ⟨fr, q, rfl, ha, hr⟩ := hc.replies f (List.mem_of_mem_filter hf)
    rw [heth, hip] at ha hr
    exact .inr ⟨fr, q, by simp, ha, hr⟩
  · obtain ⟨p, hp, hr⟩ := hc.requests f hf
    rw [heth, hip] at hr
    rcases List.mem_append.mp hp with hp | hp
    · exact .inl ⟨p.1, p.2, List.mem_append_left _ (hI.handed p hp), hr⟩
    · exact .inl ⟨p.1, p.2, mem_of_offered hp, hr⟩

/-- **The step of `Solicited`.** -/
theorem Solicited.append (hI : Solicited s₀ calls) (c : Call) : Solicited s₀ (calls ++ [c]) := by
  obtain ⟨R, H, hc⟩ := arpCallStep (s₀.run calls) c
  refine ⟨hI.solicited_append hc, fun p hp => ?_⟩
  rw [run_append] at hp
  rcases hc.queue p hp with hp | hp
  · exact List.mem_append_left _ (hI.handed p hp)
  · exact mem_of_offered hp

/-- **The step of `ArpInv`**, for a call after which the clock has not wrapped. -/
theorem ArpInv.append (hI : ArpInv s₀ calls) (he : s₀.ethernetAddress.length = 6) (c : Call)
    (hb : (s₀.run calls).clock + c.elapsed < 2 ^ 64) : ArpInv s₀ (calls ++ [c]) := by
  obtain ⟨R, H, hc⟩ := arpCallStep (s₀.run calls) c
  have hmono : (s₀.run calls).clock ≤ ((s₀.run calls).call c).clock := by
    rw [hc.clock hb]
    omega
  have hlog := hc.arpLog_append
  have hnew : ∀ x ∈ (arpFrames (R ++ H)).map fun f => (((s₀.run calls).call c).clock, f),
      x.1 = ((s₀.run calls).call c).clock ∧ x.2 ∈ arpFrames (R ++ H) := by
    intro x hx
    obtain ⟨f, hf, rfl⟩ := List.mem_map.mp hx
    exact ⟨rfl, hf⟩
  refine ⟨hI.toSolicited.append c, fun x hx => ?_, fun ip t ht => ?_, fun ip ht x hx hr => ?_,
    fun ip t ht => ?_, fun p hp => ?_, hI.spaced_append hc he⟩
  · rw [run_append]
    rw [hlog, List.mem_append] at hx
    rcases hx with hx | hx
    · exact (hI.stamp_le x hx).trans hmono
    · exact (hnew x hx).1.le
  · rw [run_append] at ht ⊢
    rcases hc.time ip with h | h
    · rw [h] at ht
      exact (hI.time_le ip t ht).trans hmono
    · rw [h, Option.some.injEq] at ht
      rw [← ht]
      exact hmono
  · rw [run_append] at ht
    rw [hlog, List.mem_append] at hx
    rcases hx with hx | hx
    · have hs : (s₀.run calls).lastBroadcastTime ip = none := by
        rcases hc.time ip with h | h
        · rw [← h]
          exact ht
        · rw [h] at ht
          cases ht
      exact hI.time_none ip hs x hx hr
    · obtain ⟨-, htime, -⟩ := hc.fresh_of_requestFor he (hnew x hx).2 hr
      rw [htime] at ht
      cases ht
  · rw [run_append] at ht
    exact hI.time_some_append hc he ip t ht
  · rw [run_append] at hp ⊢
    rcases hc.asked p hp with hp | hp
    · have hs := hI.asked p hp
      rcases hc.time p.2.ipv4Numeric with h | h <;> rw [h]
      · exact hs
      · rfl
    · exact hp

end Step

/-- The log holds the ARP frames the run appends, in order. -/
theorem arpFrames_run (s₀ : State) (calls : List Call) :
    arpFrames (s₀.run calls).framesOut = arpFrames s₀.framesOut ++ (arpLog s₀ calls).map Prod.snd := by
  induction calls using List.reverseRecOn with
  | nil => simp [run, arpLog]
  | append_singleton calls c ih =>
    obtain ⟨R, H, hc⟩ := arpCallStep (s₀.run calls) c
    rw [run_append, hc.frames, arpFrames_append, ih, hc.arpLog_append, List.map_append, List.map_map,
      List.append_assoc]
    congr 2
    exact (List.map_id _).symm

/-- **`Solicited` holds along every run** of a new interface. -/
theorem solicitedInv (ethernetAddress : EthernetAddress) (ipAddress : Address) (calls : List Call) :
    Solicited (init ethernetAddress ipAddress) calls := by
  induction calls using List.reverseRecOn with
  | nil => exact (arpInv_init ethernetAddress ipAddress).toSolicited
  | append_singleton calls c ih => exact ih.append c

/-- **`ArpInv` holds along every run** of an interface whose Ethernet address has six bytes,
while its ticks add up to less than `2^64`. -/
theorem arpInv (ethernetAddress : EthernetAddress) (ipAddress : Address) (he : ethernetAddress.length = 6)
    (calls : List Call) (h64 : elapsed calls < 2 ^ 64) : ArpInv (init ethernetAddress ipAddress) calls := by
  induction calls using List.reverseRecOn with
  | nil => exact arpInv_init ethernetAddress ipAddress
  | append_singleton calls c ih =>
    rw [elapsed_append] at h64
    have hclock := clock_run (init ethernetAddress ipAddress) calls (by simp [init]; omega)
    refine (ih (by omega)).append he c ?_
    rw [hclock]
    simp [init]
    omega

/-- **Every ARP frame an interface sends is solicited.** Along every run of `send_datagram`,
`recv_frame` and `tick` calls on a new interface whose Ethernet address has six bytes, the log
holds the ARP frames it sends, and each comes from the interface's Ethernet address and is
read by a host as a message from the interface's Ethernet and IP addresses that is either a
broadcast request for the next hop of a datagram handed to `send_datagram` in the run, or a
reply, sent to the requester, to an ARP request for the interface's own IP address that
`recv_frame` took in during the run. -/
theorem arp_frames_solicited (ethernetAddress : EthernetAddress) (ipAddress : Address)
    (he : ethernetAddress.length = 6) (calls : List Call) :
    (arpLog (init ethernetAddress ipAddress) calls).map Prod.snd =
        arpFrames ((init ethernetAddress ipAddress).run calls).framesOut ∧
      ∀ x ∈ arpLog (init ethernetAddress ipAddress) calls, x.2.header.src = ethernetAddress ∧
        ∃ m, message x.2 = (.noError, m) ∧ m.senderEthernetAddress = ethernetAddress ∧
          m.senderIpAddress = ipAddress.ipv4Numeric ∧
          ((m.opcode = ARPMessage.opcodeRequest ∧ x.2.header.dst = ethernetBroadcast ∧
              ∃ d h, Call.sendDatagram d h ∈ calls ∧ h.ipv4Numeric = m.targetIpAddress) ∨
            (m.opcode = ARPMessage.opcodeReply ∧ x.2.header.dst = m.targetEthernetAddress ∧
              ∃ fr q, Call.recvFrame fr ∈ calls ∧ Asks ethernetAddress ipAddress fr q ∧
                q.senderEthernetAddress = m.targetEthernetAddress ∧ q.senderIpAddress = m.targetIpAddress)) := by
  refine ⟨by rw [arpFrames_run]; rfl, fun x hx => ?_⟩
  rcases (solicitedInv ethernetAddress ipAddress calls).solicited x hx with ⟨d, h, hm, hr⟩ | ⟨fr, q, hm, ha, hr⟩
  · refine ⟨by rw [hr.1]; rfl, _, message_of_requestFrame he hr, rfl, rfl, .inl ⟨rfl, by rw [hr.1], d, h, hm, rfl⟩⟩
  · exact ⟨by rw [hr.1]; rfl, _, message_of_replyFrame he ha hr, rfl, rfl,
      .inr ⟨rfl, by rw [hr.1]; rfl, fr, q, hm, ha, rfl, rfl⟩⟩

/-- A request for `10.0.0.1` from `10.0.0.3` comes in: the interface at `10.0.0.1` answers it,
to the requester's address. -/
theorem arp_frames_solicited_reply :
    let e : EthernetAddress := [2, 0, 0, 0, 0, 1]
    let i : Address := ⟨0x0a000001, 0⟩
    let ask : EthernetFrame :=
      { header := { dst := ethernetBroadcast, src := [2, 0, 0, 0, 0, 3], type := EthernetHeader.typeARP },
        payload := [0, 1, 8, 0, 6, 4, 0, 1, 2, 0, 0, 0, 0, 3, 10, 0, 0, 3, 0, 0, 0, 0, 0, 0, 10, 0, 0, 1] }
    let calls : List Call := [.recvFrame ask]
    (arpLog (init e i) calls).map (fun x => x.2.header.dst) = [[2, 0, 0, 0, 0, 3]] ∧
      ((arpLog (init e i) calls).map Prod.snd = arpFrames ((init e i).run calls).framesOut ∧
        ∀ x ∈ arpLog (init e i) calls, x.2.header.src = e ∧
          ∃ m, message x.2 = (.noError, m) ∧ m.senderEthernetAddress = e ∧ m.senderIpAddress = i.ipv4Numeric ∧
            ((m.opcode = ARPMessage.opcodeRequest ∧ x.2.header.dst = ethernetBroadcast ∧
                ∃ d h, Call.sendDatagram d h ∈ calls ∧ h.ipv4Numeric = m.targetIpAddress) ∨
              (m.opcode = ARPMessage.opcodeReply ∧ x.2.header.dst = m.targetEthernetAddress ∧
                ∃ fr q, Call.recvFrame fr ∈ calls ∧ Asks e i fr q ∧
                  q.senderEthernetAddress = m.targetEthernetAddress ∧ q.senderIpAddress = m.targetIpAddress))) := by
  intro e i ask calls
  exact ⟨by decide +kernel, arp_frames_solicited e i (by decide) calls⟩

/-- **ARP requests are paced, and no queued datagram waits unasked.** Along every run of
`send_datagram`, `recv_frame` and `tick` calls on a new interface whose Ethernet address has six
bytes and whose ticks add up to less than `2^64`, so that its `size_t` clock does not wrap, any
two ARP frames it sends that a host reads as requests for the same IP address went out at least
five seconds (`_broadcast_interval_ms`) apart, by the interface's clock; and for every datagram
still queued, a request for its next hop's address has gone out. -/
theorem arp_requests_paced (ethernetAddress : EthernetAddress) (ipAddress : Address)
    (he : ethernetAddress.length = 6) (calls : List Call) (h64 : elapsed calls < 2 ^ 64) :
    (arpLog (init ethernetAddress ipAddress) calls).map Prod.snd =
        arpFrames ((init ethernetAddress ipAddress).run calls).framesOut ∧
      (∀ ip, (arpLog (init ethernetAddress ipAddress) calls).Pairwise fun x y =>
        RequestFor ip x.2 → RequestFor ip y.2 → x.1 + broadcastIntervalMs ≤ y.1) ∧
      ∀ p ∈ ((init ethernetAddress ipAddress).run calls).dgramPending,
        ∃ x ∈ arpLog (init ethernetAddress ipAddress) calls, RequestFor p.2.ipv4Numeric x.2 := by
  have hI := arpInv ethernetAddress ipAddress he calls h64
  refine ⟨by rw [arpFrames_run]; rfl, hI.spaced, fun p hp => ?_⟩
  obtain ⟨t, ht⟩ := Option.isSome_iff_exists.mp (hI.asked p hp)
  obtain ⟨x, hx, hr, -⟩ := (hI.time_some _ t ht).2
  exact ⟨x, hx, hr⟩

/-- Three datagrams for `10.0.0.2` at times 0, 1000 and 5000: the request goes out at 0, is not
sent again at 1000, and goes out again at 5000. -/
theorem arp_requests_paced_resend :
    let e : EthernetAddress := [2, 0, 0, 0, 0, 1]
    let i : Address := ⟨0x0a000001, 0⟩
    let d : IPv4Datagram := { header := { len := 20 } }
    let calls : List Call := [.sendDatagram d ⟨0x0a000002, 0⟩, .tick 1000, .sendDatagram d ⟨0x0a000002, 0⟩,
      .tick 4000, .sendDatagram d ⟨0x0a000002, 0⟩]
    (arpLog (init e i) calls).map Prod.fst = [0, 5000] ∧
      ((arpLog (init e i) calls).map Prod.snd = arpFrames ((init e i).run calls).framesOut ∧
        (∀ ip, (arpLog (init e i) calls).Pairwise fun x y =>
          RequestFor ip x.2 → RequestFor ip y.2 → x.1 + broadcastIntervalMs ≤ y.1) ∧
        ∀ p ∈ ((init e i).run calls).dgramPending, ∃ x ∈ arpLog (init e i) calls, RequestFor p.2.ipv4Numeric x.2) := by
  intro e i d calls
  exact ⟨by decide +kernel, arp_requests_paced e i (by decide) calls (by decide)⟩

end NetworkInterface

end Sponge
