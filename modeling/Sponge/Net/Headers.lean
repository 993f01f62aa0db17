import Sponge.Net.Parser
import Sponge.TCPSegment

/-!
The header parsers of `tcp_helpers/{ipv4,tcp,ethernet}_header.cc`, and the TCP header's
serializer.

Each `parse` reads its fields from a `NetParser`, checks them, and returns a
`ParseResult` of its own beside the parser's error: a check of the header itself
(`HeaderTooShort`, `WrongIPVersion`, `BadChecksum`, the size checks made before
reading) is reported only by the return value, not in the parser. An Ethernet address,
a `std::array<uint8_t, 6>`, is the list of its bytes.
-/

namespace Sponge

/-- Read `n` bytes, one `u8()` at a time. -/
def NetParser.readBytes : Nat → StateM NetParser (List UInt8)
  | 0 => return []
  | n + 1 => do
    let b ← NetParser.u8
    let bs ← NetParser.readBytes n
    return b :: bs

/-- Reading `n` bytes that are there takes them off the front, one `u8()` at a time. -/
theorem NetParser.readBytes_run {n : Nat} {l : List UInt8} (h : n ≤ l.length) :
    (NetParser.readBytes n).run ⟨l, .noError⟩ = (l.take n, ⟨l.drop n, .noError⟩) := by
  induction n generalizing l with
  | zero => rfl
  | succ n ih =>
    cases l with
    | nil => simp at h
    | cons x l =>
      simp only [List.length_cons, Nat.add_le_add_iff_right] at h
      simp only [NetParser.readBytes, NetParser.u8, bind_assoc, pure_bind]
      rw [NetParser.run_parseInt_bind (by simp), StateM.run_bind_of_run_eq (by simpa using ih h),
        StateM.run_pure_id]
      simp [Bytes.beNat]

/-- `n` reads of a byte give `n` bytes, whether they are there or not: past the end each
`u8()` gives 0. -/
theorem NetParser.length_readBytes (n : Nat) :
    StateM.Yields (fun bs : List UInt8 => bs.length = n) (NetParser.readBytes n) := by
  induction n with
  | zero => exact StateM.Yields.pure rfl
  | succ n ih =>
    refine StateM.Yields.bind fun _ => StateM.Yields.bind_of ih fun bs hbs => StateM.Yields.pure ?_
    simp [hbs]

/-- Reading `n` bytes that are there, then going on. -/
theorem NetParser.run_readBytes_bind {α : Type} (bs rest : List UInt8) (k : List UInt8 → StateM NetParser α) :
    (NetParser.readBytes bs.length >>= k).run ⟨bs ++ rest, .noError⟩ = (k bs).run ⟨rest, .noError⟩ := by
  rw [StateM.run_bind_of_run_eq (NetParser.readBytes_run (by simp)), List.take_left' rfl, List.drop_left' rfl]

/-- Each byte of an address written with `u8()` is written as itself. -/
theorem NetUnparser.flatMap_u8 (a : List UInt8) : a.flatMap NetUnparser.u8 = a := by
  induction a with
  | nil => rfl
  | cons b a ih =>
    rw [List.flatMap_cons, ih]
    have hb : NetUnparser.u8 b = [b] := by
      simp only [NetUnparser.u8, NetUnparser.unparseInt_eq_beBytes]
      rw [show Bytes.beBytes 1 b.toNat = [UInt8.ofNat (b.toNat / 1)] from rfl, Nat.div_one, UInt8.ofNat_toNat]
    rw [hb]
    rfl

/-- `IPv4Header`, with its defaults. -/
structure IPv4Header where
  ver : UInt8 := 4
  hlen : UInt8 := 5
  tos : UInt8 := 0
  len : UInt16 := 0
  id : UInt16 := 0
  df : Bool := true
  mf : Bool := false
  offset : UInt16 := 0
  ttl : UInt8 := 128
  proto : UInt8 := 6
  cksum : UInt16 := 0
  src : UInt32 := 0
  dst : UInt32 := 0
  deriving DecidableEq, Repr

namespace IPv4Header

/-- `IPv4Header::LENGTH`, without options. -/
def length : Nat := 20

/-- `payload_length()`: `len - 4 * hlen` as a `uint16_t`. -/
def payloadLength (h : IPv4Header) : UInt16 := h.len - 4 * h.hlen.toUInt16

/-- Lines 31-47 of `IPv4Header::parse`: the fixed fields, read in order. -/
def readFields (h : IPv4Header) : StateM NetParser IPv4Header := do
  let firstByte ← NetParser.u8
  let tos ← NetParser.u8
  let len ← NetParser.u16
  let id ← NetParser.u16
  let foVal ← NetParser.u16
  let ttl ← NetParser.u8
  let proto ← NetParser.u8
  let cksum ← NetParser.u16
  let src ← NetParser.u32
  let dst ← NetParser.u32
  return { h with
    ver := firstByte >>> 4, hlen := firstByte &&& 0x0f, tos, len, id,
    df := foVal &&& 0x4000 != 0, mf := foVal &&& 0x2000 != 0, offset := foVal &&& 0x1fff,
    ttl, proto, cksum, src, dst }

/-- `IPv4Header::parse(p)`: the header read, and the result. Too short a buffer returns
before any field is read; otherwise every field is read, then checked. -/
def parse (h : IPv4Header) : StateM NetParser (ParseResult × IPv4Header) := do
  let originalSerializedVersion := (← get).buffer
  let dataSize := originalSerializedVersion.length
  if dataSize < IPv4Header.length then return (.packetTooShort, h)
  let h ← readFields h
  if dataSize < 4 * h.hlen.toNat then return (.packetTooShort, h)
  if h.ver != 4 then return (.wrongIPVersion, h)
  if h.hlen < 5 then return (.headerTooShort, h)
  if dataSize != h.len.toNat then return (.truncatedPacket, h)
  NetParser.removePrefix (h.hlen.toNat * 4 - IPv4Header.length)
  let p ← get
  if p.hasError then return (p.error, h)
  let check := ({ sum := 0 } : InternetChecksum).add (originalSerializedVersion.take (4 * h.hlen.toNat))
  if check.value != 0 then return (.badChecksum, h)
  return (.noError, h)

open NetParser

/-- On a buffer of `LENGTH` bytes or more every field read succeeds. -/
theorem readFields_run (h : IPv4Header) {l : List UInt8} (hl : IPv4Header.length ≤ l.length) :
    ∃ h', h.readFields.run ⟨l, .noError⟩ = (h', ⟨l.drop IPv4Header.length, .noError⟩) := by
  simp only [IPv4Header.length] at hl ⊢
  simp only [readFields, u8, u16, u32, bind_assoc, pure_bind]
  simp (disch := (try simp only [List.length_drop]) <;> omega) only [run_parseInt_bind]
  simp only [StateT.run_pure, List.drop_drop]
  exact ⟨_, rfl⟩

/-- **The header's checks never reach the parser.** Whatever `parse` returns, the
`NetParser` it was given ends without an error: a buffer too short returns before any
read, every read of the fields fits, and the options skipped fit once the size checks
passed. -/
theorem parse_run_error (h : IPv4Header) (b : List UInt8) :
    (h.parse.run ⟨b, .noError⟩).2.error = .noError := by
  simp only [parse, pure_bind, StateT.run_bind, StateT.run_get]
  split
  · rfl
  · next hb =>
    obtain ⟨h₁, hread⟩ := readFields_run h (Nat.le_of_not_lt hb)
    rw [StateM.run_bind_of_run_eq hread]
    simp only [IPv4Header.length] at hb ⊢
    split
    · rfl
    · next h4 =>
      -- past the checks of the version, `hlen` and `len` only the options are left
      split
      · rfl
      split
      · rfl
      · next h5 =>
        split
        · rfl
        have h5' : 5 ≤ h₁.hlen.toNat := by simpa [UInt8.lt_iff_toNat_lt] using h5
        rw [run_removePrefix_bind (by simp only [List.length_drop]; omega)]
        simp only [StateT.run_bind, StateT.run_get, pure_bind, hasError, bne_self_eq_false,
          Bool.false_eq_true, if_false]
        split <;> rfl

end IPv4Header

namespace TCPHeader

/-- `TCPHeader::LENGTH`, without options. -/
def length : Nat := 20

/-- Lines 18-34 of `TCPHeader::parse`: every field, read in order whatever the parser's
error. -/
def readFields : StateM NetParser TCPHeader := do
  let sport ← NetParser.u16
  let dport ← NetParser.u16
  let seqno ← NetParser.u32
  let ackno ← NetParser.u32
  let doff := (← NetParser.u8) >>> 4
  let flB ← NetParser.u8
  let win ← NetParser.u16
  let cksum ← NetParser.u16
  let uptr ← NetParser.u16
  return {
    sport, dport, seqno := ⟨seqno⟩, ackno := ⟨ackno⟩, doff,
    urg := flB &&& 0x20 != 0, ack := flB &&& 0x10 != 0, psh := flB &&& 0x08 != 0,
    rst := flB &&& 0x04 != 0, syn := flB &&& 0x02 != 0, fin := flB &&& 0x01 != 0, win, cksum, uptr }

/-- `TCPHeader::parse(p)`: the fields, then the check of `doff`, then the options
skipped. -/
def parse : StateM NetParser (ParseResult × TCPHeader) := do
  let h ← readFields
  if h.doff < 5 then return (.headerTooShort, h)
  NetParser.removePrefix (h.doff.toNat * 4 - TCPHeader.length)
  let p ← get
  if p.hasError then return (p.error, h)
  return (.noError, h)

open NetParser StateM

/-- `parse` leaves no error in the parser but `PacketTooShort`: `HeaderTooShort` is
only ever returned. -/
theorem keeps_parse : Keeps ErrorOk parse := by
  have hread : Keeps ErrorOk readFields := by
    unfold readFields
    exact Keeps.bind keeps_u16 fun _ => Keeps.bind keeps_u16 fun _ => Keeps.bind keeps_u32 fun _ =>
      Keeps.bind keeps_u32 fun _ => Keeps.bind keeps_u8 fun _ => Keeps.bind keeps_u8 fun _ =>
      Keeps.bind keeps_u16 fun _ => Keeps.bind keeps_u16 fun _ => Keeps.bind keeps_u16 fun _ => Keeps.pure _
  unfold parse
  refine Keeps.bind hread fun h => Keeps.ite (Keeps.pure _) ?_
  exact Keeps.bind (keeps_removePrefix _) fun _ =>
    Keeps.get_bind fun _ _ => Keeps.ite (Keeps.pure _) (Keeps.pure _)

/-- `std::string::resize(n)`: truncate, or pad with zero bytes. -/
def resize (s : List UInt8) (n : Nat) : List UInt8 := (s ++ List.replicate (n - s.length) 0).take n

/-- `TCPHeader::serialize()`, which throws on a `doff` below 5. -/
def serialize (h : TCPHeader) : Except String (List UInt8) :=
  if h.doff < 5 then .error "TCP header too short"
  else
    let flB : UInt8 := (if h.urg then 0x20 else 0) ||| (if h.ack then 0x10 else 0) |||
      (if h.psh then 0x08 else 0) ||| (if h.rst then 0x04 else 0) ||| (if h.syn then 0x02 else 0) |||
      (if h.fin then 0x01 else 0)
    let ret := NetUnparser.u16 h.sport ++ NetUnparser.u16 h.dport ++ NetUnparser.u32 h.seqno.rawValue ++
      NetUnparser.u32 h.ackno.rawValue ++ NetUnparser.u8 (h.doff <<< 4) ++ NetUnparser.u8 flB ++
      NetUnparser.u16 h.win ++ NetUnparser.u16 h.cksum ++ NetUnparser.u16 h.uptr
    .ok (resize ret (4 * h.doff.toNat))

theorem resize_of_le {s : List UInt8} {n : Nat} (h : s.length ≤ n) :
    resize s n = s ++ List.replicate (n - s.length) 0 :=
  List.take_of_length_le (by simp; omega)

/-- The flags byte `serialize` builds gives each flag back to the masks of `parse`. -/
theorem flags_roundTrip (a b c d e f : Bool) :
    let flB : UInt8 := (if a then 0x20 else 0) ||| (if b then 0x10 else 0) |||
      (if c then 0x08 else 0) ||| (if d then 0x04 else 0) ||| (if e then 0x02 else 0) |||
      (if f then 0x01 else 0)
    (flB &&& 0x20 != 0) = a ∧ (flB &&& 0x10 != 0) = b ∧ (flB &&& 0x08 != 0) = c ∧
      (flB &&& 0x04 != 0) = d ∧ (flB &&& 0x02 != 0) = e ∧ (flB &&& 0x01 != 0) = f := by
  revert a b c d e f
  decide

/-- A `doff` of four bits survives the shift into the high half of its byte and back. -/
theorem doff_roundTrip {d : UInt8} (h : d < 16) : (d <<< 4) >>> 4 = d := by
  apply UInt8.toNat_inj.mp
  have hd : d.toNat < 16 := by simpa [UInt8.lt_iff_toNat_lt] using h
  simp only [UInt8.toNat_shiftRight, UInt8.toNat_shiftLeft]
  simp [Nat.shiftLeft_eq, Nat.shiftRight_eq_div_pow]
  omega

/-- Parsing what `serialize` wrote gives the header back: `parse` reads every field, skips
the zero padding up to `4 * doff` bytes, and leaves what follows. -/
theorem parse_run_of_serialize (h : TCPHeader) (h5 : 5 ≤ h.doff) (h16 : h.doff < 16) {bytes : List UInt8}
    (hser : h.serialize = .ok bytes) (rest : List UInt8) :
    parse.run ⟨bytes ++ rest, .noError⟩ = ((.noError, h), ⟨rest, .noError⟩) := by
  have hd : 5 ≤ h.doff.toNat := by simpa [UInt8.le_iff_toNat_le] using h5
  rw [serialize, if_neg (by simpa using h5), Except.ok.injEq] at hser
  subst hser
  obtain ⟨hu, ha, hp, hr, hs, hf⟩ := flags_roundTrip h.urg h.ack h.psh h.rst h.syn h.fin
  rw [resize_of_le (by simp; omega)]
  -- the nine fields, each read back by the read that matches its write
  simp only [List.append_assoc, parse, readFields, bind_assoc, run_u16_bind, run_u32_bind, run_u8_bind,
    pure_bind]
  rw [doff_roundTrip h16, if_neg (by simpa using h5)]
  simp only [List.length_append, NetUnparser.length_u16, NetUnparser.length_u32, NetUnparser.length_u8]
  -- then the padding, which the options' skip takes off
  rw [run_removePrefix_bind (by simp [TCPHeader.length]; omega), List.drop_left' (by simp [TCPHeader.length]; omega)]
  simp only [StateT.run_bind, StateT.run_get, pure_bind, hasError, bne_self_eq_false, Bool.false_eq_true,
    if_false, hu, ha, hp, hr, hs, hf]
  rfl

/-- **Parsing what `serialize` wrote gives the header back.** For a `doff` from 5 to 15,
the one a byte's high half can hold, `serialize` succeeds, and `parse` reads every field
back, skips the zero padding up to `4 * doff` bytes, and leaves what follows. -/
theorem parse_serialize (h : TCPHeader) (h5 : 5 ≤ h.doff) (h16 : h.doff < 16) (rest : List UInt8) :
    ∃ bytes, h.serialize = .ok bytes ∧
      parse.run ⟨bytes ++ rest, .noError⟩ = ((.noError, h), ⟨rest, .noError⟩) := by
  obtain ⟨bytes, hser⟩ : ∃ bytes, h.serialize = .ok bytes := ⟨_, by rw [serialize, if_neg (by simpa using h5)]⟩
  exact ⟨bytes, hser, parse_run_of_serialize h h5 h16 hser rest⟩

/-- The default header, with `doff` 5, is read back from its 20 bytes. -/
theorem parse_serialize_default :
    5 ≤ ({} : TCPHeader).doff ∧ ({} : TCPHeader).doff < 16 ∧
      ∃ bytes, ({} : TCPHeader).serialize = .ok bytes ∧
        parse.run ⟨bytes ++ [], .noError⟩ = ((.noError, {}), ⟨[], .noError⟩) :=
  ⟨by decide, by decide, parse_serialize {} (by decide) (by decide) []⟩

end TCPHeader

/-- `EthernetAddress`. -/
abbrev EthernetAddress := List UInt8

/-- `ETHERNET_BROADCAST`. -/
def ethernetBroadcast : EthernetAddress := [0xff, 0xff, 0xff, 0xff, 0xff, 0xff]

/-- `EthernetHeader`; the source leaves the fields of a new header uninitialized, here
they are zero. -/
structure EthernetHeader where
  dst : EthernetAddress := [0, 0, 0, 0, 0, 0]
  src : EthernetAddress := [0, 0, 0, 0, 0, 0]
  type : UInt16 := 0
  deriving DecidableEq, Repr

namespace EthernetHeader

/-- `EthernetHeader::LENGTH`. -/
def length : Nat := 14

/-- `TYPE_IPv4`. -/
def typeIPv4 : UInt16 := 0x800

/-- `EthernetHeader::parse(p)`. -/
def parse (h : EthernetHeader) : StateM NetParser (ParseResult × EthernetHeader) := do
  if (← get).buffer.length < EthernetHeader.length then return (.packetTooShort, h)
  let dst ← NetParser.readBytes 6
  let src ← NetParser.readBytes 6
  let type ← NetParser.u16
  return ((← get).error, { dst, src, type })

/-- `EthernetHeader::serialize()`: one `u8()` for each byte of the two addresses, then the
type. -/
def serialize (h : EthernetHeader) : List UInt8 :=
  h.dst.flatMap NetUnparser.u8 ++ h.src.flatMap NetUnparser.u8 ++ NetUnparser.u16 h.type

open NetParser

/-- **An Ethernet header never fails the parser.** A buffer too short returns before any
read; otherwise the 14 bytes are there. -/
theorem parse_run_error (h : EthernetHeader) (b : List UInt8) :
    (h.parse.run ⟨b, .noError⟩).2.error = .noError := by
  simp only [parse, StateT.run_bind, StateT.run_get, pure_bind]
  split
  · rfl
  · next hb =>
    simp only [EthernetHeader.length, Nat.not_lt] at hb
    rw [StateM.run_bind_of_run_eq (readBytes_run (by omega)),
      StateM.run_bind_of_run_eq (readBytes_run (by simp only [List.length_drop]; omega))]
    simp only [u16, bind_assoc, pure_bind]
    rw [run_parseInt_bind (by simp only [List.length_drop]; omega)]
    rfl

/-- A serialized header with six-byte addresses, whatever follows it, is read back whole, and
the parser is left on what follows. -/
theorem parse_run_serialize (h₀ h : EthernetHeader) (hd : h.dst.length = 6) (hs : h.src.length = 6)
    (rest : List UInt8) :
    h₀.parse.run ⟨h.serialize ++ rest, .noError⟩ = ((.noError, h), ⟨rest, .noError⟩) := by
  simp only [parse, StateT.run_bind, StateT.run_get, pure_bind]
  rw [if_neg (by simp [serialize, NetUnparser.flatMap_u8, hd, hs, EthernetHeader.length]; omega)]
  rw [serialize, NetUnparser.flatMap_u8, NetUnparser.flatMap_u8, List.append_assoc, List.append_assoc, ← hd,
    run_readBytes_bind, hd, ← hs, run_readBytes_bind, run_u16_bind]
  rfl

end EthernetHeader

end Sponge
