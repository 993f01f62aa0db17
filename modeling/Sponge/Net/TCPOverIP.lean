import Sponge.Net.Serialize

/-!
The TCP-over-IPv4 adapter of `tcp_helpers/tcp_over_ip.cc`.

`wrap_tcp_in_ip` writes the adapter's ports into the segment, builds an IPv4 header whose
`len` counts a 20-byte header, the TCP header and the payload, and serializes the segment
with that header's pseudo-header sum as its payload. `unwrap_tcp_in_ip` takes a datagram
back to a segment if it is addressed from the peer to this end, carries TCP, parses with
the pseudo-header sum of the header it arrived with, and names the right ports; a
listening adapter instead takes its addresses and the peer's port from the first SYN.

Wrapping, serializing, parsing and unwrapping at the peer give the wrapped segment back,
its checksum the one `serialize` computed (`unwrap_wrap_roundTrip`): the IPv4 header
round trip of `Serialize`, the TCP one under the pseudo-header sum, and the address and
port checks of the peer, which are this end's seen from the other side.
-/

namespace Sponge

/-- `Address`, for the IPv4 addresses the adapter reads: `ipv4_numeric()` and `port()`. -/
structure Address where
  ipv4Numeric : UInt32 := 0
  port : UInt16 := 0
  deriving DecidableEq, Repr

/-- `FdAdapterConfig`: the two ends of the connection. -/
structure FdAdapterConfig where
  source : Address := {}
  destination : Address := {}
  deriving DecidableEq, Repr

/-- `TCPOverIPv4Adapter`: the configuration and the listening flag of `FdAdapterBase`. -/
structure TCPOverIPv4Adapter where
  config : FdAdapterConfig := {}
  listening : Bool := false
  deriving DecidableEq, Repr

/-- `IPv4Header::PROTO_TCP`. -/
def IPv4Header.protoTCP : UInt8 := 6

namespace TCPOverIPv4Adapter

/-- `unwrap_tcp_in_ip(ip_dgram)`: the segment if it belongs to the connection, and the
adapter, whose configuration a listening adapter takes from a SYN. -/
def unwrapTcpInIp (a : TCPOverIPv4Adapter) (ipDgram : IPv4Datagram) : Option TCPSegment × TCPOverIPv4Adapter :=
  if !a.listening && ipDgram.header.dst != a.config.source.ipv4Numeric then (none, a)
  else if !a.listening && ipDgram.header.src != a.config.destination.ipv4Numeric then (none, a)
  else if ipDgram.header.proto != IPv4Header.protoTCP then (none, a)
  else
    let (res, tcpSeg) := ({} : TCPSegment).parse ipDgram.payload ipDgram.header.pseudoCksum
    if res != .noError then (none, a)
    else if tcpSeg.header.dport != a.config.source.port then (none, a)
    else
      -- a listening adapter answers a SYN without RST, and takes its addresses from it
      let next : Option TCPOverIPv4Adapter :=
        if a.listening then
          if tcpSeg.header.syn && !tcpSeg.header.rst then
            some { a with
              config := { a.config with
                source := { ipv4Numeric := ipDgram.header.dst, port := a.config.source.port }
                destination := { ipv4Numeric := ipDgram.header.src, port := tcpSeg.header.sport } }
              listening := false }
          else none
        else some a
      match next with
      | none => (none, a)
      | some a => if tcpSeg.header.sport != a.config.destination.port then (none, a) else (some tcpSeg, a)

/-- `wrap_tcp_in_ip(seg)`: the segment with the adapter's ports, which the source writes
back into its argument, and the datagram that carries it. `len` is a `uint16_t`. -/
def wrapTcpInIp (a : TCPOverIPv4Adapter) (seg : TCPSegment) : TCPSegment × Except String IPv4Datagram :=
  let seg := { seg with header := { seg.header with sport := a.config.source.port, dport := a.config.destination.port } }
  let header : IPv4Header := { src := a.config.source.ipv4Numeric, dst := a.config.destination.ipv4Numeric }
  let header := { header with
    len := UInt16.ofNat (header.hlen.toNat * 4 + seg.header.doff.toNat * 4 + seg.payload.length) }
  (seg, do
    let payload ← seg.serialize header.pseudoCksum
    return { header, payload })

end TCPOverIPv4Adapter

namespace IPv4Header

/-- `pseudo_cksum()` on naturals: the halves of both addresses, the protocol and the
payload length, which never carry out of 32 bits. -/
theorem pseudoCksum_toNat (h : IPv4Header) :
    h.pseudoCksum.toNat = h.src.toNat / 65536 + h.src.toNat % 65536 + h.dst.toNat / 65536 + h.dst.toNat % 65536 +
      h.proto.toNat + h.payloadLength.toNat := by
  have hs := h.src.toNat_lt
  have hd := h.dst.toNat_lt
  have hp := h.proto.toNat_lt
  have hl := h.payloadLength.toNat_lt
  simp only [pseudoCksum, UInt32.toNat_add, UInt32.toNat_shiftRight, UInt32.toNat_and, UInt8.toNat_toUInt32,
    UInt16.toNat_toUInt32, Nat.shiftRight_eq_div_pow]
  rw [show (16 : UInt32).toNat % 32 = 16 from rfl, show (0xffff : UInt32).toNat = 2 ^ 16 - 1 from rfl,
    Nat.and_two_pow_sub_one_eq_mod, Nat.and_two_pow_sub_one_eq_mod]
  omega

theorem pseudoCksum_le (h : IPv4Header) : h.pseudoCksum.toNat ≤ 5 * 65535 + 255 := by
  have hs := h.src.toNat_lt
  have hd := h.dst.toNat_lt
  have hp := h.proto.toNat_lt
  have hl := h.payloadLength.toNat_lt
  rw [pseudoCksum_toNat]
  omega

/-- The pseudo-header does not read the checksum. -/
@[simp] theorem pseudoCksum_cksum (h : IPv4Header) (c : UInt16) : { h with cksum := c }.pseudoCksum = h.pseudoCksum :=
  rfl

end IPv4Header

namespace TCPOverIPv4Adapter

/-- The IPv4 header `wrap_tcp_in_ip` builds for `seg`. -/
def ipHeader (a : TCPOverIPv4Adapter) (seg : TCPSegment) : IPv4Header :=
  { src := a.config.source.ipv4Numeric, dst := a.config.destination.ipv4Numeric,
    len := UInt16.ofNat (20 + seg.header.doff.toNat * 4 + seg.payload.length) }

@[simp] theorem wrapTcpInIp_fst (a : TCPOverIPv4Adapter) (seg : TCPSegment) :
    (a.wrapTcpInIp seg).1 =
      { seg with header := { seg.header with sport := a.config.source.port, dport := a.config.destination.port } } :=
  rfl

/-- What `wrap_tcp_in_ip` returns for a `doff` of at least 5: the header of `ipHeader`
over the serialized segment. -/
theorem wrapTcpInIp_snd (a : TCPOverIPv4Adapter) (seg : TCPSegment) (h5 : 5 ≤ seg.header.doff.toNat) :
    (a.wrapTcpInIp seg).2 = .ok
      { header := ipHeader a seg
        payload := { (a.wrapTcpInIp seg).1.header with
          cksum := ((({ sum := (ipHeader a seg).pseudoCksum } : InternetChecksum).add
            { (a.wrapTcpInIp seg).1.header with cksum := 0 }.serialized).add seg.payload).value }.serialized ++
          seg.payload } := by
  -- the header built in place is `ipHeader`, its `hlen * 4` being 20
  have hw : (a.wrapTcpInIp seg).2 = ((a.wrapTcpInIp seg).1.serialize (ipHeader a seg).pseudoCksum >>= fun payload =>
      pure { header := ipHeader a seg, payload }) := rfl
  rw [hw, TCPSegment.serialize_eq (a.wrapTcpInIp seg).1 _ h5]
  rfl

/-- A datagram from the peer to a connected adapter, carrying a segment that parses under
its pseudo-header sum with the connection's ports, is unwrapped to that segment. -/
theorem unwrapTcpInIp_eq (b : TCPOverIPv4Adapter) (dg : IPv4Datagram) (s : TCPSegment) (hl : b.listening = false)
    (hdst : dg.header.dst = b.config.source.ipv4Numeric) (hsrc : dg.header.src = b.config.destination.ipv4Numeric)
    (hproto : dg.header.proto = IPv4Header.protoTCP)
    (hparse : ({} : TCPSegment).parse dg.payload dg.header.pseudoCksum = (.noError, s))
    (hdport : s.header.dport = b.config.source.port) (hsport : s.header.sport = b.config.destination.port) :
    b.unwrapTcpInIp dg = (some s, b) := by
  simp only [unwrapTcpInIp, hl, hdst, hsrc, hproto, hparse, hdport, hsport, bne_self_eq_false, Bool.and_false,
    Bool.false_eq_true, if_false]

/-- **TCP in IPv4 goes round.** A segment with a `doff` from 5 to 15 and a payload that
fits a datagram, wrapped by one adapter, serialized, parsed, and unwrapped by a connected
peer whose ends are this adapter's the other way round, comes back as the wrapped segment
with the checksum `serialize` computed. -/
theorem unwrap_wrap_roundTrip (a b : TCPOverIPv4Adapter) (seg : TCPSegment)
    (h5 : 5 ≤ seg.header.doff) (h15 : seg.header.doff ≤ 15)
    (hp : seg.payload.length ≤ 65535 - 20 - 4 * seg.header.doff.toNat)
    (hsrc : b.config.source = a.config.destination) (hdst : b.config.destination = a.config.source)
    (hl : b.listening = false) :
    ∃ d bytes, (a.wrapTcpInIp seg).2 = .ok d ∧ d.serialize = .ok bytes ∧
      (({} : IPv4Datagram).parse bytes).1 = .noError ∧
      (b.unwrapTcpInIp (({} : IPv4Datagram).parse bytes).2).1 =
        some { (a.wrapTcpInIp seg).1 with header := { (a.wrapTcpInIp seg).1.header with
          cksum := ((({ sum := d.header.pseudoCksum } : InternetChecksum).add
            { (a.wrapTcpInIp seg).1.header with cksum := 0 }.serialized).add seg.payload).value } } := by
  have hd : 5 ≤ seg.header.doff.toNat := by simpa [UInt8.le_iff_toNat_le] using h5
  have hd15 : seg.header.doff.toNat ≤ 15 := by simpa [UInt8.le_iff_toNat_le] using h15
  have h16 : (a.wrapTcpInIp seg).1.header.doff < 16 := by
    rw [UInt8.lt_iff_toNat_lt]
    simp only [wrapTcpInIp_fst]
    simp
    omega
  have hw := wrapTcpInIp_snd a seg hd
  set H := ipHeader a seg with hH
  set tcpBytes := { (a.wrapTcpInIp seg).1.header with
    cksum := ((({ sum := H.pseudoCksum } : InternetChecksum).add
      { (a.wrapTcpInIp seg).1.header with cksum := 0 }.serialized).add seg.payload).value }.serialized ++
    seg.payload with hT
  -- `len` counts the 20-byte header, the TCP header and the payload, all below `2^16`
  have hlen : H.len.toNat = 20 + 4 * seg.header.doff.toNat + seg.payload.length := by
    simp only [hH, ipHeader, UInt16.toNat_ofNat']
    omega
  have hTlen : tcpBytes.length = 4 * seg.header.doff.toNat + seg.payload.length := by
    simp only [hT, List.length_append, TCPHeader.serialized_cksum, TCPHeader.length_leadBytes,
      NetUnparser.length_u16, List.length_replicate]
    simp only [wrapTcpInIp_fst]
    omega
  have hpl : tcpBytes.length = H.payloadLength.toNat := by
    rw [IPv4Header.payloadLength_toNat H (show (5 : UInt8) < 16 by decide), hlen, hTlen,
      show H.hlen.toNat = 5 from rfl]
    omega
  have hser := IPv4Datagram.serialize_eq ⟨H, tcpBytes⟩ rfl (show 5 ≤ 5 by decide) hpl
  refine ⟨⟨H, tcpBytes⟩, _, hw, hser, ?_⟩
  rw [IPv4Datagram.parse_of_serialize ⟨H, tcpBytes⟩ rfl (show (5 : UInt8) ≤ 5 by decide)
    (show (5 : UInt8) ≤ 15 by decide) (show (0 : UInt16) < 8192 by decide)
    (show 4 * H.hlen.toNat ≤ H.len.toNat by rw [hlen, show H.hlen.toNat = 5 from rfl]; omega) _ hser]
  refine ⟨rfl, ?_⟩
  -- the peer finds its own ends, and the segment under the same pseudo-header sum
  have hb : H.pseudoCksum.toNat + 65280 * (4 * (a.wrapTcpInIp seg).1.header.doff.toNat +
      (a.wrapTcpInIp seg).1.payload.length) + 65535 < 2 ^ 32 := by
    have := IPv4Header.pseudoCksum_le H
    simp only [wrapTcpInIp_fst]
    omega
  have htcp := TCPSegment.parse_of_serialize (a.wrapTcpInIp seg).1 H.pseudoCksum h5 h16 hb
    (TCPSegment.serialize_eq (a.wrapTcpInIp seg).1 _ hd)
  refine congrArg Prod.fst (unwrapTcpInIp_eq b _ _ hl ?_ ?_ rfl ?_ ?_ ?_)
  · rw [hsrc]
    rfl
  · rw [hdst]
    rfl
  · -- the header arrived with its checksum filled, which the pseudo-header does not read
    dsimp only
    rw [IPv4Header.pseudoCksum_cksum]
    exact htcp
  · rw [hsrc]
    rfl
  · rw [hdst]
    rfl

/-- A SYN from port 1 of address 1 to port 2 of address 2 goes round. -/
theorem unwrap_wrap_roundTrip_syn :
    let a : TCPOverIPv4Adapter := { config := { source := ⟨1, 1⟩, destination := ⟨2, 2⟩ } }
    let b : TCPOverIPv4Adapter := { config := { source := ⟨2, 2⟩, destination := ⟨1, 1⟩ } }
    let seg : TCPSegment := { header := { syn := true } }
    (5 ≤ seg.header.doff ∧ seg.header.doff ≤ 15 ∧ seg.payload.length ≤ 65535 - 20 - 4 * seg.header.doff.toNat ∧
      b.config.source = a.config.destination ∧ b.config.destination = a.config.source ∧ b.listening = false) ∧
    ∃ d bytes, (a.wrapTcpInIp seg).2 = .ok d ∧ d.serialize = .ok bytes ∧
      (({} : IPv4Datagram).parse bytes).1 = .noError ∧
      (b.unwrapTcpInIp (({} : IPv4Datagram).parse bytes).2).1 =
        some { (a.wrapTcpInIp seg).1 with header := { (a.wrapTcpInIp seg).1.header with
          cksum := ((({ sum := d.header.pseudoCksum } : InternetChecksum).add
            { (a.wrapTcpInIp seg).1.header with cksum := 0 }.serialized).add seg.payload).value } } :=
  ⟨⟨by decide, by decide, by decide, rfl, rfl, rfl⟩,
    unwrap_wrap_roundTrip _ _ _ (by decide) (by decide) (by decide) rfl rfl rfl⟩

end TCPOverIPv4Adapter

end Sponge
