import Sponge.Net.Headers
import Sponge.ByteStream

/-!
The composite parsers of `tcp_helpers/{ipv4_datagram,tcp_segment,ethernet_frame}.cc` and
the delivery of `NetworkInterface::recv_frame`.

Each composite parser runs its header's `parse` on a fresh `NetParser`, keeps what is
left as the payload, and returns the parser's error: the value the header's `parse`
returns is dropped. So whatever a header reports only by its return value, the composite
accepts. An Ethernet frame with six-byte addresses is parsed back from what its `serialize`
writes (`EthernetFrame.parse_serialize_concatenate`).
-/

namespace Sponge

/-- `IPv4Datagram`. -/
structure IPv4Datagram where
  header : IPv4Header := {}
  payload : List UInt8 := []
  deriving DecidableEq, Repr

/-- `IPv4Datagram::parse(buffer)`. -/
def IPv4Datagram.parse (d : IPv4Datagram) (buffer : List UInt8) : ParseResult × IPv4Datagram :=
  let ((_, header), p) := d.header.parse.run ⟨buffer, .noError⟩
  let d := { header, payload := p.buffer }
  if d.payload.length != d.header.payloadLength.toNat then (.packetTooShort, d)
  else (p.error, d)

/-- `TCPSegment::parse(buffer, datagram_layer_checksum)`: the checksum over the whole
segment first. -/
def TCPSegment.parse (seg : TCPSegment) (buffer : List UInt8) (datagramLayerChecksum : UInt32) :
    ParseResult × TCPSegment :=
  let check := ({ sum := datagramLayerChecksum } : InternetChecksum).add buffer
  if check.value != 0 then (.badChecksum, seg)
  else
    let ((_, header), p) := TCPHeader.parse.run ⟨buffer, .noError⟩
    (p.error, { header, payload := p.buffer })

/-- `EthernetFrame`. -/
structure EthernetFrame where
  header : EthernetHeader := {}
  payload : List UInt8 := []
  deriving DecidableEq, Repr

/-- `EthernetFrame::parse(buffer)`. -/
def EthernetFrame.parse (f : EthernetFrame) (buffer : List UInt8) : ParseResult × EthernetFrame :=
  let ((_, header), p) := f.header.parse.run ⟨buffer, .noError⟩
  (p.error, { header, payload := p.buffer })

/-- `EthernetFrame::serialize()`: the header's bytes, then the payload. -/
def EthernetFrame.serialize (f : EthernetFrame) : BufferList :=
  ((⟨[]⟩ : BufferList).append ⟨[f.header.serialize]⟩).append ⟨[f.payload]⟩

/-- A frame whose addresses have six bytes is parsed back from the bytes it serializes to. -/
theorem EthernetFrame.parse_serialize_concatenate (f₀ f : EthernetFrame) (hd : f.header.dst.length = 6)
    (hs : f.header.src.length = 6) : f₀.parse f.serialize.concatenate = (.noError, f) := by
  have hc : f.serialize.concatenate = f.header.serialize ++ f.payload := by
    simp [EthernetFrame.serialize, BufferList.concatenate, BufferList.append]
  simp only [hc, EthernetFrame.parse, EthernetHeader.parse_run_serialize _ _ hd hs]

/-- The part of `NetworkInterface` that `recv_frame` reads to decide what it delivers. -/
structure NetworkInterface where
  ethernetAddress : EthernetAddress
  deriving DecidableEq, Repr

/-- The datagram `recv_frame(frame)` returns: an IPv4 frame for this interface or for
broadcast, whose payload parses. An ARP frame updates the interface's table, may queue a
reply and returns nothing; those effects are not modelled. -/
def NetworkInterface.recvFrame (ni : NetworkInterface) (frame : EthernetFrame) : Option IPv4Datagram :=
  if frame.header.dst != ni.ethernetAddress && frame.header.dst != ethernetBroadcast then none
  else if frame.header.type = EthernetHeader.typeIPv4 then
    let (res, dgram) := ({} : IPv4Datagram).parse frame.payload
    if res = .noError then some dgram else none
  else none

/-! ## The composite parsers drop their header's verdict -/

/-- **`IPv4Datagram::parse` checks only the payload's length.** The header's `parse`
leaves no error in its parser (`IPv4Header.parse_run_error`), so the result is
`NoError` exactly when the payload has the length the header gives, and
`PacketTooShort` otherwise: a bad checksum, a wrong version, a short `hlen` or a
truncated packet is never reported. -/
theorem IPv4Datagram.parse_fst (d : IPv4Datagram) (b : List UInt8) :
    (d.parse b).1 = if (d.parse b).2.payload.length = (d.parse b).2.header.payloadLength.toNat
      then .noError else .packetTooShort := by
  have he := d.header.parse_run_error b
  unfold IPv4Datagram.parse
  rcases hr : d.header.parse.run ⟨b, .noError⟩ with ⟨⟨r, h⟩, p⟩
  rw [hr] at he
  dsimp only at he ⊢
  by_cases hl : p.buffer.length = h.payloadLength.toNat
  · simp [hl, he]
  · simp [hl]

/-- **`EthernetFrame::parse` accepts every buffer.** A buffer shorter than a header
returns `PacketTooShort` from the header's `parse` only, and a longer one is read
without error (`EthernetHeader.parse_run_error`). -/
theorem EthernetFrame.parse_noError (f : EthernetFrame) (b : List UInt8) : (f.parse b).1 = .noError := by
  have he := f.header.parse_run_error b
  unfold EthernetFrame.parse
  rcases hr : f.header.parse.run ⟨b, .noError⟩ with ⟨⟨r, h⟩, p⟩
  rw [hr] at he
  exact he

/-- **`TCPSegment::parse` reports no header check.** Past the checksum its result is
the parser's error, which no read sets to anything but `PacketTooShort`
(`TCPHeader.keeps_parse`): a `doff` below 5 is never reported. -/
theorem TCPSegment.parse_result (seg : TCPSegment) (b : List UInt8) (pc : UInt32) :
    (seg.parse b pc).1 = .noError ∨ (seg.parse b pc).1 = .badChecksum ∨
      (seg.parse b pc).1 = .packetTooShort := by
  have he := TCPHeader.keeps_parse ⟨b, .noError⟩ (Or.inl rfl)
  unfold TCPSegment.parse
  rcases hr : TCPHeader.parse.run ⟨b, .noError⟩ with ⟨⟨r, h⟩, p⟩
  rw [hr] at he
  dsimp only
  split
  · exact Or.inr (Or.inl rfl)
  · rcases he with he | he
    · exact Or.inl he
    · exact Or.inr (Or.inr he)

/-- **What `recv_frame` delivers.** An IPv4 frame for this interface or for broadcast
is delivered exactly when its payload has the length its header gives: no check of the
IPv4 header itself decides it. -/
theorem NetworkInterface.recvFrame_eq_some (ni : NetworkInterface) (frame : EthernetFrame)
    (d : IPv4Datagram) :
    ni.recvFrame frame = some d ↔
      (frame.header.dst = ni.ethernetAddress ∨ frame.header.dst = ethernetBroadcast) ∧
      frame.header.type = EthernetHeader.typeIPv4 ∧
      (({} : IPv4Datagram).parse frame.payload).2 = d ∧ d.payload.length = d.header.payloadLength.toNat := by
  have hres := ({} : IPv4Datagram).parse_fst frame.payload
  unfold recvFrame
  rcases hp : ({} : IPv4Datagram).parse frame.payload with ⟨res, dg⟩
  rw [hp] at hres
  dsimp only at hres ⊢
  by_cases hd : frame.header.dst = ni.ethernetAddress ∨ frame.header.dst = ethernetBroadcast
  · rw [if_neg (by simpa [not_or, or_iff_not_imp_left] using hd)]
    by_cases ht : frame.header.type = EthernetHeader.typeIPv4
    · rw [if_pos ht]
      -- the parse's result is decided by the length check alone
      by_cases hl : dg.payload.length = dg.header.payloadLength.toNat
      · rw [if_pos hl] at hres
        subst hres
        simp only [if_true, Option.some.injEq]
        constructor
        · rintro rfl
          exact ⟨hd, ht, rfl, hl⟩
        · rintro ⟨-, -, rfl, -⟩
          rfl
      · rw [if_neg hl] at hres
        subst hres
        simp only [reduceCtorEq, if_false, false_iff]
        rintro ⟨-, -, rfl, hl'⟩
        exact hl hl'
    · simp [ht]
  · rw [if_pos (by simpa [not_or] using hd)]
    simp [hd]

/-- Each composite parser accepts a buffer that its header's `parse` rejects, and
`recv_frame` delivers a datagram whose header checksum is wrong. The IPv4 header below
is well formed but for its checksum field, left at 0; a TCP header of 20 zero bytes has
`doff` 0, and a pseudo-header sum of `0xffff` makes its checksum verify; the empty
buffer is shorter than an Ethernet header. -/
theorem composite_parse_ignores_header :
    (({} : IPv4Header).parse.run ⟨[0x45, 0, 0, 20, 0, 0, 0, 0, 64, 6, 0, 0, 0, 0, 0, 0, 0, 0, 0, 0],
      .noError⟩).1.1 = .badChecksum ∧
    (({} : IPv4Datagram).parse [0x45, 0, 0, 20, 0, 0, 0, 0, 64, 6, 0, 0, 0, 0, 0, 0, 0, 0, 0, 0]).1 =
      .noError ∧
    (TCPHeader.parse.run ⟨List.replicate 20 0, .noError⟩).1.1 = .headerTooShort ∧
    (({} : TCPSegment).parse (List.replicate 20 0) 0xffff).1 = .noError ∧
    (({} : EthernetHeader).parse.run ⟨[], .noError⟩).1.1 = .packetTooShort ∧
    (({} : EthernetFrame).parse []).1 = .noError ∧
    (({ ethernetAddress := [2, 0, 0, 0, 0, 1] } : NetworkInterface).recvFrame
      { header := { dst := ethernetBroadcast, type := EthernetHeader.typeIPv4 },
        payload := [0x45, 0, 0, 20, 0, 0, 0, 0, 64, 6, 0, 0, 0, 0, 0, 0, 0, 0, 0, 0] }).isSome = true := by
  decide

end Sponge
