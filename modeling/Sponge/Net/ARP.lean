import Sponge.Net.Frames

/-!
The ARP messages of `tcp_helpers/arp_message.{hh,cc}`.

`parse` checks the length, reads the five fixed fields and stops with `Unsupported`
unless they describe an Ethernet/IPv4 request or reply (`supported()`); then it reads the
two address pairs. `serialize` throws on an unsupported message and writes the fields in
the same order. What `parse` accepts is supported (`supported_of_parse`), and a supported
message with six-byte Ethernet addresses is read back from what `serialize` writes, whatever
follows it (`parse_append_of_serialize`). With the Ethernet frame's own round trip this makes
the link layer go round (`link_layer_roundTrip`).
-/

namespace Sponge

/-- `EthernetHeader::TYPE_ARP`. -/
def EthernetHeader.typeARP : UInt16 := 0x806

/-- `ARPMessage`, with its defaults. -/
structure ARPMessage where
  hardwareType : UInt16 := 1
  protocolType : UInt16 := EthernetHeader.typeIPv4
  hardwareAddressSize : UInt8 := 6
  protocolAddressSize : UInt8 := 4
  opcode : UInt16 := 0
  senderEthernetAddress : EthernetAddress := [0, 0, 0, 0, 0, 0]
  senderIpAddress : UInt32 := 0
  targetEthernetAddress : EthernetAddress := [0, 0, 0, 0, 0, 0]
  targetIpAddress : UInt32 := 0
  deriving DecidableEq, Repr

namespace ARPMessage

/-- `ARPMessage::LENGTH`. -/
def length : Nat := 28

/-- `TYPE_ETHERNET`. -/
def typeEthernet : UInt16 := 1

/-- `OPCODE_REQUEST`. -/
def opcodeRequest : UInt16 := 1

/-- `OPCODE_REPLY`. -/
def opcodeReply : UInt16 := 2

/-- `supported()`: an Ethernet/IPv4 request or reply, with the sizes of the two address
types (`sizeof(EthernetHeader::src)` and `sizeof(IPv4Header::src)`). -/
def supported (m : ARPMessage) : Bool :=
  m.hardwareType == typeEthernet && m.protocolType == EthernetHeader.typeIPv4 &&
    m.hardwareAddressSize == 6 && m.protocolAddressSize == 4 &&
    (m.opcode == opcodeRequest || m.opcode == opcodeReply)

/-- `ARPMessage::parse(buffer)`: the result, and the message with the fields read so far. -/
def parse (m : ARPMessage) (buffer : List UInt8) : ParseResult × ARPMessage :=
  let read : StateM NetParser (ParseResult × ARPMessage) := do
    if (← get).buffer.length < length then return (.packetTooShort, m)
    let hardwareType ← NetParser.u16
    let protocolType ← NetParser.u16
    let hardwareAddressSize ← NetParser.u8
    let protocolAddressSize ← NetParser.u8
    let opcode ← NetParser.u16
    let m := { m with hardwareType, protocolType, hardwareAddressSize, protocolAddressSize, opcode }
    if !m.supported then return (.unsupported, m)
    -- the addresses, one `u8()` for each byte of the array
    let senderEthernetAddress ← NetParser.readBytes 6
    let senderIpAddress ← NetParser.u32
    let targetEthernetAddress ← NetParser.readBytes 6
    let targetIpAddress ← NetParser.u32
    return ((← get).error,
      { m with senderEthernetAddress, senderIpAddress, targetEthernetAddress, targetIpAddress })
  (read.run ⟨buffer, .noError⟩).1

/-- `ARPMessage::serialize()`. -/
def serialize (m : ARPMessage) : Except String (List UInt8) :=
  if !m.supported then
    throw "ARPMessage::serialize(): unsupported field combination (must be Ethernet/IP, and request or reply)"
  else
    return NetUnparser.u16 m.hardwareType ++ NetUnparser.u16 m.protocolType ++
      NetUnparser.u8 m.hardwareAddressSize ++ NetUnparser.u8 m.protocolAddressSize ++ NetUnparser.u16 m.opcode ++
      m.senderEthernetAddress.flatMap NetUnparser.u8 ++ NetUnparser.u32 m.senderIpAddress ++
      m.targetEthernetAddress.flatMap NetUnparser.u8 ++ NetUnparser.u32 m.targetIpAddress

/-! ## What `parse` accepts, and the round trip -/

/-- A supported message serializes. -/
theorem serialize_of_supported {m : ARPMessage} (h : m.supported = true) : ∃ bytes, m.serialize = .ok bytes :=
  ⟨_, by rw [serialize, if_neg (by simp [h])]; rfl⟩

/-- A message `parse` accepts is supported: the length check and the check of the fixed
fields return errors, and the last `return` keeps the fixed fields it checked. -/
theorem supported_of_parse {m m' : ARPMessage} {buffer : List UInt8} (h : m.parse buffer = (.noError, m')) :
    m'.supported = true := by
  unfold parse at h
  revert h
  refine (?_ : StateM.Yields (fun r : ParseResult × ARPMessage => r = (.noError, m') → m'.supported = true) _) _
  refine StateM.Yields.bind fun _ => StateM.Yields.ite (fun _ => StateM.Yields.pure (by simp)) fun _ => ?_
  -- the five fixed fields, whatever they are
  refine StateM.Yields.bind fun _ => StateM.Yields.bind fun _ => StateM.Yields.bind fun _ =>
    StateM.Yields.bind fun _ => StateM.Yields.bind fun _ => ?_
  refine StateM.Yields.ite (fun _ => StateM.Yields.pure (by simp)) fun hs => ?_
  -- the addresses do not touch the fields `supported()` reads
  refine StateM.Yields.bind fun _ => StateM.Yields.bind fun _ => StateM.Yields.bind fun _ =>
    StateM.Yields.bind fun _ => StateM.Yields.bind fun _ => StateM.Yields.pure ?_
  intro he
  rw [Prod.mk.injEq] at he
  rw [← he.2]
  rw [Bool.not_eq_true'] at hs
  exact Bool.of_not_eq_false hs

/-- A message `parse` accepts has six-byte Ethernet addresses, read one byte at a time. -/
theorem length_of_parse {m m' : ARPMessage} {buffer : List UInt8} (h : m.parse buffer = (.noError, m')) :
    m'.senderEthernetAddress.length = 6 ∧ m'.targetEthernetAddress.length = 6 := by
  unfold parse at h
  revert h
  refine (?_ : StateM.Yields (fun r : ParseResult × ARPMessage => r = (.noError, m') →
    m'.senderEthernetAddress.length = 6 ∧ m'.targetEthernetAddress.length = 6) _) _
  refine StateM.Yields.bind fun _ => StateM.Yields.ite (fun _ => StateM.Yields.pure (by simp)) fun _ => ?_
  refine StateM.Yields.bind fun _ => StateM.Yields.bind fun _ => StateM.Yields.bind fun _ =>
    StateM.Yields.bind fun _ => StateM.Yields.bind fun _ => ?_
  refine StateM.Yields.ite (fun _ => StateM.Yields.pure (by simp)) fun _ => ?_
  refine StateM.Yields.bind_of (NetParser.length_readBytes 6) fun se hse => StateM.Yields.bind fun _ => ?_
  refine StateM.Yields.bind_of (NetParser.length_readBytes 6) fun te hte => StateM.Yields.bind fun _ => ?_
  refine StateM.Yields.bind fun _ => StateM.Yields.pure ?_
  intro he
  rw [Prod.mk.injEq] at he
  rw [← he.2]
  exact ⟨hse, hte⟩

open NetParser in
/-- What `serialize` writes for a message with six-byte Ethernet addresses is read back as the
message, whatever follows it: `parse` reads its 28 bytes and ignores the rest. -/
theorem parse_append_of_serialize {m : ARPMessage} {bytes : List UInt8} (h : m.serialize = .ok bytes)
    (hse : m.senderEthernetAddress.length = 6) (hte : m.targetEthernetAddress.length = 6) (m₀ : ARPMessage)
    (rest : List UInt8) : m₀.parse (bytes ++ rest) = (.noError, m) := by
  unfold serialize at h
  split at h
  · cases h
  · next hs =>
    cases h
    rw [NetUnparser.flatMap_u8, NetUnparser.flatMap_u8]
    unfold parse
    simp only [StateT.run_bind, StateT.run_get, pure_bind]
    rw [if_neg (by simp [length, hse, hte]; omega)]
    simp only [List.append_assoc, run_u16_bind, run_u8_bind]
    rw [if_neg (by exact hs), ← hse, run_readBytes_bind, run_u32_bind, hse, ← hte, run_readBytes_bind, run_u32_bind]
    rfl

/-- `serialize` succeeds on a supported message, and with six-byte Ethernet addresses a
fresh `ARPMessage` parses exactly what it wrote back into the message. -/
theorem serialize_then_parse (m : ARPMessage) (hs : m.supported = true)
    (hse : m.senderEthernetAddress.length = 6) (hte : m.targetEthernetAddress.length = 6) :
    ∃ bytes, m.serialize = .ok bytes ∧ ({} : ARPMessage).parse bytes = (.noError, m) := by
  obtain ⟨bytes, hb⟩ := serialize_of_supported hs
  refine ⟨bytes, hb, ?_⟩
  rw [← List.append_nil bytes]
  exact parse_append_of_serialize hb hse hte {} []

/-- **A supported message goes round.** With six-byte Ethernet addresses, `serialize`
succeeds and `parse` reads every field back. -/
theorem parse_serialize_roundTrip (m : ARPMessage) (hs : m.supported = true)
    (hse : m.senderEthernetAddress.length = 6) (hte : m.targetEthernetAddress.length = 6) :
    ∃ bytes, m.serialize = .ok bytes ∧ ({} : ARPMessage).parse bytes = (.noError, m) :=
  serialize_then_parse m hs hse hte

/-- A request from `10.0.0.1` at `02:00:00:00:00:01` for `10.0.0.2` goes round. -/
theorem parse_serialize_roundTrip_request :
    let m : ARPMessage :=
      { opcode := opcodeRequest, senderEthernetAddress := [2, 0, 0, 0, 0, 1], senderIpAddress := 0x0a000001,
        targetIpAddress := 0x0a000002 }
    (m.supported = true ∧ m.senderEthernetAddress.length = 6 ∧ m.targetEthernetAddress.length = 6) ∧
      ∃ bytes, m.serialize = .ok bytes ∧ ({} : ARPMessage).parse bytes = (.noError, m) :=
  ⟨⟨rfl, rfl, rfl⟩, parse_serialize_roundTrip _ rfl rfl rfl⟩

end ARPMessage

/-- **The link-layer formats go round.** A frame whose addresses have six bytes is parsed back
whole from the concatenation of what `serialize` writes; a supported ARP message with six-byte
Ethernet addresses serializes, and `parse` reads every field of it back. -/
theorem link_layer_roundTrip :
    (∀ f : EthernetFrame, f.header.dst.length = 6 → f.header.src.length = 6 →
      ({} : EthernetFrame).parse f.serialize.concatenate = (.noError, f)) ∧
    ∀ m : ARPMessage, m.supported = true → m.senderEthernetAddress.length = 6 →
      m.targetEthernetAddress.length = 6 →
        ∃ bytes, m.serialize = .ok bytes ∧ ({} : ARPMessage).parse bytes = (.noError, m) := by
  exact ⟨fun f hd hs => EthernetFrame.parse_serialize_concatenate {} f hd hs, ARPMessage.serialize_then_parse⟩

/-- A broadcast frame carrying three bytes, and a reply from `10.0.0.2` at
`02:00:00:00:00:02` to `10.0.0.1` at `02:00:00:00:00:01`. -/
theorem link_layer_roundTrip_reply :
    let f : EthernetFrame :=
      { header := { dst := ethernetBroadcast, src := [2, 0, 0, 0, 0, 1], type := EthernetHeader.typeARP },
        payload := [1, 2, 3] }
    let m : ARPMessage :=
      { opcode := ARPMessage.opcodeReply, senderEthernetAddress := [2, 0, 0, 0, 0, 2],
        senderIpAddress := 0x0a000002, targetEthernetAddress := [2, 0, 0, 0, 0, 1], targetIpAddress := 0x0a000001 }
    ((f.header.dst.length = 6 ∧ f.header.src.length = 6) ∧
        ({} : EthernetFrame).parse f.serialize.concatenate = (.noError, f)) ∧
      (m.supported = true ∧ m.senderEthernetAddress.length = 6 ∧ m.targetEthernetAddress.length = 6) ∧
        ∃ bytes, m.serialize = .ok bytes ∧ ({} : ARPMessage).parse bytes = (.noError, m) := by
  intro f m
  exact ⟨⟨⟨rfl, rfl⟩, link_layer_roundTrip.1 f rfl rfl⟩, ⟨rfl, rfl, rfl⟩, link_layer_roundTrip.2 m rfl rfl rfl⟩

end Sponge
