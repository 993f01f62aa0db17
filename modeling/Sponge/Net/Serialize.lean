import Sponge.Net.Frames
import Sponge.Lib.OnesComplement
import Mathlib.Data.Nat.Bitwise

/-!
The serializers of `tcp_helpers/{ipv4_header,ipv4_datagram,tcp_segment}.cc`, and the wire
round trip of an IPv4 datagram.

`InternetChecksum.add` is a ones'-complement word sum (`add_spec`): `value()` after any
split of the bytes among `add` calls is the RFC 1071 checksum while the sum fits 32 bits
(`value_onesSum`), and a checksum field left at zero and then filled with `value()` makes the
sum check (`value_field`). A header
is read back field by field by `readFields`; `IPv4Header.parse_serialized` says what
`parse` returns on a serialized header and payload. The round trip holds when `len` counts
the header (`IPv4Datagram.serialize_roundTrip`); when it does not, `payload_length()` wraps in
`uint16_t`, `serialize` still succeeds, and `parse` rejects the bytes for every header with
options (`IPv4Datagram.parse_of_serialize_short_len`).
-/

namespace Sponge

/-! ## The checksum as a ones'-complement sum -/

namespace InternetChecksum

open OnesComplement

theorem add_append (c : InternetChecksum) (l₁ l₂ : List UInt8) : c.add (l₁ ++ l₂) = (c.add l₁).add l₂ :=
  List.foldl_append

/-- `add` is a word sum modulo `2^32`, and each byte flips the parity. -/
theorem add_spec (c : InternetChecksum) (data : List UInt8) :
    (c.add data).sum.toNat = (c.sum.toNat + wordSum c.parity data) % 2 ^ 32 ∧
      (c.add data).parity = if data.length % 2 = 0 then c.parity else !c.parity := by
  induction data generalizing c with
  | nil => simp [add, Nat.mod_eq_of_lt c.sum.toNat_lt]
  | cons b bs ih =>
    have hb : b.toNat < 256 := b.toNat_lt
    let c' : InternetChecksum :=
      { sum := c.sum + (if !c.parity then b.toUInt16 <<< 8 else b.toUInt16).toUInt32, parity := !c.parity }
    have hc : c.add (b :: bs) = c'.add bs := rfl
    obtain ⟨ihs, ihp⟩ := ih c'
    rw [hc, ihs, ihp, List.length_cons, half_succ]
    refine ⟨?_, rfl⟩
    -- the byte is the high half of a word on an even position
    cases hp : c.parity <;> simp [c', hp, UInt32.toNat_add, Nat.shiftLeft_eq] <;> omega

/-- The carry loop on a 32-bit word never overflows: it is `fold` on the naturals. -/
theorem foldCarries_toNat (n : Nat) (x : UInt32) : (foldCarries n x).toNat = fold n x.toNat := by
  induction n generalizing x with
  | zero => rfl
  | succ n ih =>
    have hlt : x > 0xffff ↔ 65535 < x.toNat := UInt32.lt_iff_toNat_lt
    rw [foldCarries, fold]
    by_cases hx : 65535 < x.toNat
    · rw [if_pos (hlt.mpr hx), if_pos hx, ih]
      -- the shift and the mask are the quotient and remainder by `2^16`
      have hlow : x.toNat &&& 65535 = x.toNat % 65536 := Nat.and_two_pow_sub_one_eq_mod x.toNat 16
      have hx32 := x.toNat_lt
      congr 1
      simp only [UInt32.toNat_add, UInt32.toNat_shiftRight, UInt32.toNat_and, Nat.shiftRight_eq_div_pow,
        UInt32.reduceToNat, hlow, carry, Nat.reduceMod, Nat.reducePow]
      omega
    · rw [if_neg (fun h => hx (hlt.mp h)), if_neg hx]

/-- `value()` is the complement of the folded sum. -/
theorem value_toNat (c : InternetChecksum) : c.value.toNat = 65535 - fold 2 c.sum.toNat := by
  have hle := fold_two_le c.sum.toNat_lt
  simp only [value, UInt16.toNat_not, UInt32.toNat_toUInt16, foldCarries_toNat]
  simp [UInt16.size]
  omega

/-- Any number of `add` calls add the bytes of all of them, in order. -/
theorem foldl_add (c : InternetChecksum) (ds : List (List UInt8)) : ds.foldl add c = c.add ds.flatten := by
  induction ds generalizing c with
  | nil => rfl
  | cons d ds ih => rw [List.foldl_cons, ih, List.flatten_cons, add_append]

/-- **`InternetChecksum` computes the RFC 1071 checksum.** From an initial sum below `2^20`,
after `add` calls on at most `65535 + 2^12` bytes in all, however the bytes are split among
them, `value()` is the complement of the ones'-complement sum of the two 16-bit halves of the
initial sum and the big-endian words of the bytes. -/
theorem value_onesSum (s : UInt32) (hs : s.toNat < 2 ^ 20) (ds : List (List UInt8))
    (hlen : (ds.map List.length).sum ≤ 65535 + 2 ^ 12) :
    (ds.foldl add { sum := s }).value =
      ~~~(UInt16.ofNat (onesSum ([s.toNat / 65536, s.toNat % 65536] ++ words ds.flatten))) := by
  rw [foldl_add]
  have hbs : ds.flatten.length ≤ 65535 + 2 ^ 12 := by
    rw [List.length_flatten]
    exact hlen
  -- the words add up to at most `0xffff` for each two bytes, so no sum overflows 32 bits
  have hW := sum_words_le ds.flatten
  have hx : s.toNat + (words ds.flatten).sum < 2 ^ 32 := by omega
  have hsum : (({ sum := s } : InternetChecksum).add ds.flatten).sum.toNat = s.toNat + (words ds.flatten).sum := by
    rw [(add_spec _ _).1, wordSum_false_eq_sum_words]
    exact Nat.mod_eq_of_lt hx
  -- the ones'-complement sum and the folded sum are the 16-bit form of the same sum
  have hws : ∀ w ∈ [s.toNat / 65536, s.toNat % 65536] ++ words ds.flatten, w ≤ 65535 := by
    intro w hw
    rcases List.mem_append.mp hw with hw | hw
    · simp only [List.mem_cons, List.not_mem_nil, or_false] at hw
      omega
    · exact le_of_mem_words hw
  have hform : onesSum ([s.toNat / 65536, s.toNat % 65536] ++ words ds.flatten) =
      fold 2 (s.toNat + (words ds.flatten).sum) := by
    refine ((represents_onesSum hws).congr ?_ ?_).unique (represents_fold hx)
    · simp only [List.sum_append, List.sum_cons, List.sum_nil]
      omega
    · simp only [List.sum_append, List.sum_cons, List.sum_nil]
      omega
  have hle := fold_two_le hx
  apply UInt16.toNat_inj.mp
  rw [value_toNat, hsum, UInt16.toNat_not, UInt16.toNat_ofNat', hform, Nat.mod_eq_of_lt (by omega)]
  rfl

/-- The bytes `12 34 56` added as `12` then `34 56`: the second call starts on the low half
of a word. -/
theorem value_onesSum_split :
    ((0x1234 : UInt32).toNat < 2 ^ 20 ∧ ([[0x12], [0x34, 0x56]].map List.length).sum ≤ 65535 + 2 ^ 12) ∧
      ([[0x12], [0x34, 0x56]].foldl add { sum := 0x1234 }).value =
        ~~~(UInt16.ofNat (onesSum ([(0x1234 : UInt32).toNat / 65536, (0x1234 : UInt32).toNat % 65536] ++
          words [[0x12], [0x34, 0x56]].flatten))) :=
  ⟨⟨by decide, by decide⟩, value_onesSum _ (by decide) _ (by decide)⟩

/-- **A checksum field filled with the checksum makes the sum check.** The sum over bytes
with a zero 16-bit field on a word boundary, from `s`, gives `value()`; written in the field,
that value makes `value()` zero, as long as nothing overflows 32 bits. -/
theorem value_field (s : UInt32) (A R : List UInt8) (hA : A.length % 2 = 0)
    (hb : s.toNat + wordSum false (A ++ NetUnparser.u16 0 ++ R) + 65535 < 2 ^ 32) :
    (({ sum := s } : InternetChecksum).add
      (A ++ NetUnparser.u16 (({ sum := s } : InternetChecksum).add (A ++ NetUnparser.u16 0 ++ R)).value ++ R)).value = 0 := by
  set x := s.toNat + wordSum false (A ++ NetUnparser.u16 0 ++ R) with hx
  have hzero : (({ sum := s } : InternetChecksum).add (A ++ NetUnparser.u16 0 ++ R)).sum.toNat = x := by
    rw [(add_spec _ _).1]
    dsimp only
    exact Nat.mod_eq_of_lt (by omega)
  set v := (({ sum := s } : InternetChecksum).add (A ++ NetUnparser.u16 0 ++ R)).value with hv
  have hvn : v.toNat = 65535 - fold 2 x := by rw [hv, value_toNat, hzero]
  have hfield : wordSum false (A ++ NetUnparser.u16 v ++ R) = wordSum false (A ++ NetUnparser.u16 0 ++ R) + v.toNat := by
    simp only [NetUnparser.u16, NetUnparser.unparseInt_eq_beBytes, UInt16.toNat_zero]
    rw [wordSum_field A R hA, Nat.mod_eq_of_lt v.toNat_lt]
  have hsum : (({ sum := s } : InternetChecksum).add (A ++ NetUnparser.u16 v ++ R)).sum.toNat =
      x + (65535 - fold 2 x) := by
    rw [(add_spec _ _).1]
    dsimp only
    rw [hfield, hvn, Nat.mod_eq_of_lt (by omega)]
    omega
  apply UInt16.toNat_inj.mp
  rw [value_toNat, hsum, fold_add_complement (by omega)]
  rfl

end InternetChecksum

/-! ## Serializers -/

/-- `IPv4Header::serialize()`: the fields, with the checksum as it stands, padded to
`4 * hlen` bytes. It throws on a version other than 4 and on a header shorter than
`LENGTH`. -/
def IPv4Header.serialize (h : IPv4Header) : Except String (List UInt8) :=
  if h.ver != 4 then .error "wrong IP version"
  else if 4 * h.hlen.toNat < IPv4Header.length then .error "IP header too short"
  else
    let firstByte : UInt8 := (h.ver <<< 4) ||| (h.hlen &&& 0xf)
    let foVal : UInt16 :=
      (if h.df then 0x4000 else 0) ||| (if h.mf then 0x2000 else 0) ||| (h.offset &&& 0x1fff)
    let ret := NetUnparser.u8 firstByte ++ NetUnparser.u8 h.tos ++ NetUnparser.u16 h.len ++
      NetUnparser.u16 h.id ++ NetUnparser.u16 foVal ++ NetUnparser.u8 h.ttl ++ NetUnparser.u8 h.proto ++
      NetUnparser.u16 h.cksum ++ NetUnparser.u32 h.src ++ NetUnparser.u32 h.dst
    .ok (TCPHeader.resize ret (4 * h.hlen.toNat))

/-- `IPv4Datagram::serialize()`: the header with its checksum computed over the header
alone, then the payload. It throws on a payload of another size than `payload_length()`. -/
def IPv4Datagram.serialize (d : IPv4Datagram) : Except String (List UInt8) := do
  if d.payload.length != d.header.payloadLength.toNat then
    throw "IPv4Datagram::serialize: payload is wrong size"
  let headerOut := { d.header with cksum := 0 }
  let headerZeroChecksum ← headerOut.serialize
  let check := ({ sum := 0 } : InternetChecksum).add headerZeroChecksum
  let headerOut := { headerOut with cksum := check.value }
  let header ← headerOut.serialize
  return header ++ d.payload

/-- `IPv4Header::pseudo_cksum()`: the sum of the pseudo-header of TCP's checksum. -/
def IPv4Header.pseudoCksum (h : IPv4Header) : UInt32 :=
  let pcksum := (h.src >>> 16) + (h.src &&& 0xffff)
  let pcksum := pcksum + (h.dst >>> 16) + (h.dst &&& 0xffff)
  let pcksum := pcksum + h.proto.toUInt32
  pcksum + h.payloadLength.toUInt32

/-- `TCPSegment::serialize(datagram_layer_checksum)`: the header with its checksum computed
over the pseudo-header sum, the header and the payload, then the payload. -/
def TCPSegment.serialize (seg : TCPSegment) (datagramLayerChecksum : UInt32) : Except String (List UInt8) := do
  let headerOut := { seg.header with cksum := 0 }
  let headerZeroChecksum ← headerOut.serialize
  let check := (({ sum := datagramLayerChecksum } : InternetChecksum).add headerZeroChecksum).add seg.payload
  let headerOut := { headerOut with cksum := check.value }
  let header ← headerOut.serialize
  return header ++ seg.payload

/-! ## The IPv4 header on the wire -/

namespace IPv4Header

theorem testBit_foVal (df mf : Bool) (off i : Nat) :
    (((if df then 16384 else 0) ||| (if mf then 8192 else 0) ||| (off &&& 8191) : Nat)).testBit i =
      ((df && decide (14 = i)) || (mf && decide (13 = i)) || (decide (i < 13) && off.testBit i)) := by
  have t14 : Nat.testBit 16384 i = decide (14 = i) := by
    rw [show (16384 : Nat) = 2 ^ 14 from rfl, Nat.testBit_two_pow]
  have t13 : Nat.testBit 8192 i = decide (13 = i) := by
    rw [show (8192 : Nat) = 2 ^ 13 from rfl, Nat.testBit_two_pow]
  have t81 : Nat.testBit 8191 i = decide (i < 13) := by
    rw [show (8191 : Nat) = 2 ^ 13 - 1 from rfl, Nat.testBit_two_pow_sub_one]
  rw [Nat.testBit_or, Nat.testBit_or, Nat.testBit_and, t81]
  cases df <;> cases mf <;> simp [t14, t13, Bool.and_comm]

/-- A bit of a 16-bit word, tested with a mask. -/
theorem and_pow_ne_zero (x : UInt16) {k : Nat} (hk : k < 16) :
    (x &&& UInt16.ofNat (2 ^ k) != 0) = x.toNat.testBit k := by
  have h2 : (UInt16.ofNat (2 ^ k)).toNat = 2 ^ k := by
    rw [UInt16.toNat_ofNat']
    exact Nat.mod_eq_of_lt (Nat.pow_lt_pow_right (by decide) hk)
  have hx : (x &&& UInt16.ofNat (2 ^ k)).toNat = (x.toNat.testBit k).toNat * 2 ^ k := by
    rw [UInt16.toNat_and, h2, Nat.and_two_pow]
  cases hb : x.toNat.testBit k <;> rw [hb] at hx
  · have : x &&& UInt16.ofNat (2 ^ k) = 0 := UInt16.toNat_inj.mp (by simpa using hx)
    simp [this]
  · have : x &&& UInt16.ofNat (2 ^ k) ≠ 0 := fun h0 => by
      rw [h0] at hx
      simp at hx
      exact absurd hx.symm (Nat.two_pow_pos k).ne'
    simpa using this

theorem foVal_roundTrip (df mf : Bool) {off : UInt16} (h : off < 8192) :
    let fo : UInt16 := (if df then 0x4000 else 0) ||| (if mf then 0x2000 else 0) ||| (off &&& 0x1fff)
    (fo &&& 0x4000 != 0) = df ∧ (fo &&& 0x2000 != 0) = mf ∧ fo &&& 0x1fff = off := by
  intro fo
  have hoff : off.toNat < 2 ^ 13 := by simpa [UInt16.lt_iff_toNat_lt] using h
  have hfo : fo.toNat = (((if df then 16384 else 0) ||| (if mf then 8192 else 0) ||| (off.toNat &&& 8191) : Nat)) := by
    cases df <;> cases mf <;> simp [fo]
  have hhigh : ∀ i, 13 ≤ i → off.toNat.testBit i = false := fun i hi =>
    Nat.testBit_lt_two_pow (lt_of_lt_of_le hoff (Nat.pow_le_pow_right (by decide) hi))
  refine ⟨?_, ?_, ?_⟩
  · rw [show (0x4000 : UInt16) = UInt16.ofNat (2 ^ 14) from rfl, and_pow_ne_zero fo (by decide), hfo, testBit_foVal]
    simp [hhigh 14 (by decide)]
  · rw [show (0x2000 : UInt16) = UInt16.ofNat (2 ^ 13) from rfl, and_pow_ne_zero fo (by decide), hfo, testBit_foVal]
    simp [hhigh 13 (by decide)]
  · apply UInt16.toNat_inj.mp
    apply Nat.eq_of_testBit_eq
    intro i
    rw [UInt16.toNat_and, Nat.testBit_and, hfo, testBit_foVal,
      show (0x1fff : UInt16).toNat = 2 ^ 13 - 1 from rfl, Nat.testBit_two_pow_sub_one]
    by_cases hi : i < 13
    · simp [hi]
      omega
    · simp [hi, hhigh i (by omega)]

/-- The first byte packs the version 4 and a four-bit `hlen`, and gives both back. -/
theorem firstByte_roundTrip {hlen : UInt8} (hl : hlen < 16) :
    ((4 : UInt8) <<< 4 ||| (hlen &&& 0xf)) >>> 4 = 4 ∧ ((4 : UInt8) <<< 4 ||| (hlen &&& 0xf)) &&& 0x0f = hlen := by
  have key : ∀ i : Fin 16, ((4 : UInt8) <<< 4 ||| (UInt8.ofNat i &&& 0xf)) >>> 4 = 4 ∧
      ((4 : UInt8) <<< 4 ||| (UInt8.ofNat i &&& 0xf)) &&& 0x0f = UInt8.ofNat i := by
    decide
  simpa using key ⟨hlen.toNat, by simpa [UInt8.lt_iff_toNat_lt] using hl⟩

/-- The ten bytes `serialize` writes before the checksum. -/
def leadBytes (h : IPv4Header) : List UInt8 :=
  NetUnparser.u8 ((h.ver <<< 4) ||| (h.hlen &&& 0xf)) ++ NetUnparser.u8 h.tos ++ NetUnparser.u16 h.len ++
    NetUnparser.u16 h.id ++
    NetUnparser.u16 ((if h.df then 0x4000 else 0) ||| (if h.mf then 0x2000 else 0) ||| (h.offset &&& 0x1fff)) ++
    NetUnparser.u8 h.ttl ++ NetUnparser.u8 h.proto

@[simp] theorem length_leadBytes (h : IPv4Header) : h.leadBytes.length = 10 := by
  simp [leadBytes]

/-- The bytes `serialize` writes for a header of version 4 and `hlen` at least 5. -/
def serialized (h : IPv4Header) : List UInt8 :=
  h.leadBytes ++ NetUnparser.u16 h.cksum ++
    (NetUnparser.u32 h.src ++ NetUnparser.u32 h.dst ++ List.replicate (4 * h.hlen.toNat - 20) 0)

/-- Only the checksum field changes with the checksum. -/
theorem serialized_cksum (h : IPv4Header) (c : UInt16) :
    { h with cksum := c }.serialized = h.leadBytes ++ NetUnparser.u16 c ++
      (NetUnparser.u32 h.src ++ NetUnparser.u32 h.dst ++ List.replicate (4 * h.hlen.toNat - 20) 0) := rfl

theorem serialize_eq (h : IPv4Header) (hv : h.ver = 4) (hl : 5 ≤ h.hlen.toNat) : h.serialize = .ok h.serialized := by
  rw [serialize, if_neg (by simp [hv]), if_neg (by simp [IPv4Header.length]; omega)]
  dsimp only
  rw [TCPHeader.resize_of_le (by simp; omega)]
  simp [serialized, leadBytes]

open NetParser in
/-- `readFields` reads back every field `serialize` wrote. -/
theorem readFields_serialized (h₀ h : IPv4Header) (hv : h.ver = 4) (hl : h.hlen < 16) (ho : h.offset < 8192)
    (rest : List UInt8) :
    (readFields h₀).run ⟨h.leadBytes ++ NetUnparser.u16 h.cksum ++ (NetUnparser.u32 h.src ++ NetUnparser.u32 h.dst ++ rest),
      .noError⟩ = (h, ⟨rest, .noError⟩) := by
  simp only [leadBytes, List.append_assoc, readFields, run_u8_bind, run_u16_bind, run_u32_bind,
    StateT.run_pure]
  obtain ⟨hver, hhlen⟩ := firstByte_roundTrip hl
  obtain ⟨hdf, hmf, hoff⟩ := foVal_roundTrip h.df h.mf ho
  rw [hv, hver, hhlen, hdf, hmf, hoff]
  cases h
  subst hv
  rfl

@[simp] theorem length_serialized (h : IPv4Header) (hl5 : 5 ≤ h.hlen.toNat) :
    h.serialized.length = 4 * h.hlen.toNat := by
  simp [serialized]
  omega

open NetParser in
/-- **What `parse` makes of a serialized header.** Every field is read back; the length
check compares the whole buffer with `len`, and past it the options are skipped and the
checksum is taken over the header. -/
theorem parse_serialized (h₀ h : IPv4Header) (hv : h.ver = 4) (hl5 : 5 ≤ h.hlen.toNat) (hl : h.hlen < 16)
    (ho : h.offset < 8192) (payload : List UInt8) :
    h₀.parse.run ⟨h.serialized ++ payload, .noError⟩ =
      if 4 * h.hlen.toNat + payload.length ≠ h.len.toNat then
        ((.truncatedPacket, h), ⟨List.replicate (4 * h.hlen.toNat - 20) 0 ++ payload, .noError⟩)
      else if (({ sum := 0 } : InternetChecksum).add h.serialized).value ≠ 0 then
        ((.badChecksum, h), ⟨payload, .noError⟩)
      else ((.noError, h), ⟨payload, .noError⟩) := by
  have htake : (h.serialized ++ payload).take (4 * h.hlen.toNat) = h.serialized :=
    List.take_left' (length_serialized h hl5)
  have hread := readFields_serialized h₀ h hv hl ho (List.replicate (4 * h.hlen.toNat - 20) 0 ++ payload)
  simp only [serialized, List.append_assoc] at hread htake ⊢
  simp only [parse, StateT.run_bind, StateT.run_get, pure_bind, List.length_append, length_leadBytes,
    NetUnparser.length_u16, NetUnparser.length_u32, List.length_replicate, IPv4Header.length]
  have hsz : 10 + (2 + (4 + (4 + (4 * h.hlen.toNat - 20 + payload.length)))) = 4 * h.hlen.toNat + payload.length := by
    omega
  have h5 : ¬ h.hlen < 5 := by
    rw [UInt8.lt_iff_toNat_lt]
    simpa using hl5
  rw [if_neg (by omega), StateM.run_bind_of_run_eq hread, hsz, if_neg (by omega), if_neg (by simp [hv]), if_neg h5]
  by_cases hne : 4 * h.hlen.toNat + payload.length ≠ h.len.toNat
  · rw [if_pos (by simpa using hne), if_pos hne]
    rfl
  -- the options are the zero padding, and the checksum is taken over the whole header
  rw [if_neg (by simpa using hne), if_neg hne,
    run_removePrefix_bind (by simp only [List.length_append, List.length_replicate]; omega),
    List.drop_left' (by simp only [List.length_replicate]; omega)]
  simp only [StateT.run_bind, StateT.run_get, pure_bind, hasError, bne_self_eq_false, Bool.false_eq_true,
    if_false]
  rw [htake]
  split
  · next hck =>
    rw [if_pos (by simpa using hck)]
    rfl
  · next hck =>
    rw [if_neg (by simpa using hck)]
    rfl

/-- `payload_length()` on naturals: `len - 4 * hlen`, wrapped modulo `2^16`. -/
theorem payloadLength_toNat (h : IPv4Header) (hl : h.hlen < 16) :
    h.payloadLength.toNat = (h.len.toNat + 65536 - 4 * h.hlen.toNat) % 65536 := by
  have hl' : h.hlen.toNat < 16 := by simpa [UInt8.lt_iff_toNat_lt] using hl
  simp only [payloadLength, UInt16.toNat_sub, UInt16.toNat_mul, UInt8.toNat_toUInt16]
  simp
  omega

/-- The checksum `IPv4Datagram::serialize` computes: over the header with a zero checksum. -/
theorem value_serialized (h : IPv4Header) (hl5 : 5 ≤ h.hlen.toNat) (hl : h.hlen < 16) :
    (({ sum := 0 } : InternetChecksum).add
      { h with cksum := (({ sum := 0 } : InternetChecksum).add { h with cksum := 0 }.serialized).value }.serialized).value = 0 := by
  have hl' : h.hlen.toNat < 16 := by simpa [UInt8.lt_iff_toNat_lt] using hl
  -- a header of at most 60 bytes sums far below `2^32`
  have hb : OnesComplement.wordSum false { h with cksum := 0 }.serialized ≤ 65280 * (4 * h.hlen.toNat) := by
    have := OnesComplement.wordSum_le false { h with cksum := 0 }.serialized
    rwa [length_serialized { h with cksum := 0 } hl5] at this
  rw [serialized_cksum, serialized_cksum] at *
  apply InternetChecksum.value_field 0 _ _ (by simp)
  simp only [UInt32.reduceToNat]
  omega

/-- `serialize` on a header whose checksum was just set. -/
theorem serialize_cksum_eq (h : IPv4Header) (c : UInt16) (hv : h.ver = 4) (hl : 5 ≤ h.hlen.toNat) :
    { h with cksum := c }.serialize = .ok { h with cksum := c }.serialized :=
  serialize_eq _ hv hl

end IPv4Header

namespace IPv4Datagram

theorem serialize_eq (d : IPv4Datagram) (hv : d.header.ver = 4) (hl5 : 5 ≤ d.header.hlen.toNat)
    (hp : d.payload.length = d.header.payloadLength.toNat) :
    d.serialize = .ok ({ d.header with
      cksum := (({ sum := 0 } : InternetChecksum).add { d.header with cksum := 0 }.serialized).value }.serialized ++
        d.payload) := by
  simp only [serialize, hp, bne_self_eq_false, Bool.false_eq_true, if_false]
  rw [IPv4Header.serialize_cksum_eq d.header 0 hv hl5]
  simp only [bind, Except.bind]
  rw [IPv4Header.serialize_cksum_eq d.header _ hv hl5]
  rfl

/-- `serialize` succeeds only on a payload of `payload_length()` bytes. -/
theorem length_payload_of_serialize {d : IPv4Datagram} {bytes : List UInt8} (hser : d.serialize = .ok bytes) :
    d.payload.length = d.header.payloadLength.toNat := by
  by_contra hne
  simp [serialize, hne] at hser
  cases hser

/-- The parse of a serialized datagram, before the datagram's own length check: the header's
result and the bytes its parser leaves. -/
theorem parse_eq (d : IPv4Datagram) (buffer : List UInt8) (r : ParseResult) (h : IPv4Header) (p : NetParser)
    (hp : d.header.parse.run ⟨buffer, .noError⟩ = ((r, h), p)) :
    d.parse buffer = if p.buffer.length != h.payloadLength.toNat then (.packetTooShort, ⟨h, p.buffer⟩)
      else (p.error, ⟨h, p.buffer⟩) := by
  simp only [parse, hp]

/-- **A datagram whose `len` counts its header comes back from the wire.** For version 4,
`hlen` from 5 to 15 and an offset that fits its 13 bits, `parse` of what `serialize` wrote
returns `NoError` with the same payload and every header field, the checksum being the one
`serialize` computed. -/
theorem parse_of_serialize (d : IPv4Datagram) (hv : d.header.ver = 4) (hl5 : 5 ≤ d.header.hlen)
    (hl15 : d.header.hlen ≤ 15) (ho : d.header.offset < 8192) (hlen : 4 * d.header.hlen.toNat ≤ d.header.len.toNat)
    (bytes : List UInt8) (hser : d.serialize = .ok bytes) :
    ({} : IPv4Datagram).parse bytes =
      (.noError, { d with header := { d.header with
        cksum := (({ sum := 0 } : InternetChecksum).add { d.header with cksum := 0 }.serialized).value } }) := by
  have hl5' : 5 ≤ d.header.hlen.toNat := by simpa [UInt8.le_iff_toNat_le] using hl5
  have hl : d.header.hlen < 16 := by
    rw [UInt8.lt_iff_toNat_lt]
    have := UInt8.le_iff_toNat_le.mp hl15
    simp at this ⊢
    omega
  have hp := length_payload_of_serialize hser
  rw [serialize_eq d hv hl5' hp, Except.ok.injEq] at hser
  subst hser
  set H := { d.header with
    cksum := (({ sum := 0 } : InternetChecksum).add { d.header with cksum := 0 }.serialized).value } with hH
  -- `len` is the header and the payload: the length check passes, and so does the checksum
  have hsum : ¬ 4 * H.hlen.toNat + d.payload.length ≠ H.len.toNat := by
    have := IPv4Header.payloadLength_toNat d.header hl
    have := d.header.len.toNat_lt
    simp only [hH]
    omega
  have hck : ¬ (({ sum := 0 } : InternetChecksum).add H.serialized).value ≠ 0 :=
    not_not.mpr (IPv4Header.value_serialized d.header hl5' hl)
  have hrun : ({} : IPv4Header).parse.run ⟨H.serialized ++ d.payload, .noError⟩ =
      ((.noError, H), ⟨d.payload, .noError⟩) := by
    rw [IPv4Header.parse_serialized {} H hv hl5' hl ho d.payload, if_neg hsum, if_neg hck]
  have hlen' : (d.payload.length != H.payloadLength.toNat) = false := by
    have hpl : H.payloadLength = d.header.payloadLength := rfl
    rw [hpl]
    simpa using hp
  rw [parse_eq {} _ _ _ _ hrun, hlen', if_neg Bool.false_ne_true]

/-- **The IPv4 wire round trip.** A datagram of version 4 whose `len` counts its header and
its payload serializes, and `parse` reads the bytes back: `NoError`, every header field and
the payload, the checksum being the one `serialize` computed. -/
theorem serialize_roundTrip (d : IPv4Datagram) (hv : d.header.ver = 4) (hl5 : 5 ≤ d.header.hlen)
    (hl15 : d.header.hlen ≤ 15) (ho : d.header.offset < 8192) (hlen : 4 * d.header.hlen.toNat ≤ d.header.len.toNat)
    (hp : d.payload.length = d.header.payloadLength.toNat) :
    ∃ bytes, d.serialize = .ok bytes ∧ ({} : IPv4Datagram).parse bytes =
      (.noError, { d with header := { d.header with
        cksum := (({ sum := 0 } : InternetChecksum).add { d.header with cksum := 0 }.serialized).value } }) := by
  have hl5' : 5 ≤ d.header.hlen.toNat := by simpa [UInt8.le_iff_toNat_le] using hl5
  have hser := serialize_eq d hv hl5' hp
  exact ⟨_, hser, parse_of_serialize d hv hl5 hl15 ho hlen _ hser⟩

/-- The default header with a 20-byte `len` and no payload goes round. -/
theorem serialize_roundTrip_empty :
    ∃ bytes, ({ header := { len := 20 } } : IPv4Datagram).serialize = .ok bytes ∧
      ({} : IPv4Datagram).parse bytes = (.noError,
        { header := { len := 20, cksum := (({ sum := 0 } : InternetChecksum).add
          ({ len := 20 } : IPv4Header).serialized).value } }) :=
  serialize_roundTrip { header := { len := 20 } } rfl (by decide) (by decide) (by decide) (by decide) (by decide)

/-- A `len` below the header's length wraps `payload_length()` to a payload longer than
`2^16 - 4 * hlen` bytes, which `serialize` accepts. `parse` then finds a buffer longer than
`len` and keeps the options as payload, so that for a header with options the payload's
length check fails. -/
theorem parse_of_serialize_short_len (d : IPv4Datagram) (hv : d.header.ver = 4) (hl6 : 5 < d.header.hlen)
    (hl15 : d.header.hlen ≤ 15) (ho : d.header.offset < 8192) (hlen : d.header.len.toNat < 4 * d.header.hlen.toNat)
    (bytes : List UInt8) (hser : d.serialize = .ok bytes) :
    (({} : IPv4Datagram).parse bytes).1 = .packetTooShort := by
  have hl6' : 6 ≤ d.header.hlen.toNat := by
    have := UInt8.lt_iff_toNat_lt.mp hl6
    simp at this
    omega
  have hl : d.header.hlen < 16 := by
    rw [UInt8.lt_iff_toNat_lt]
    have := UInt8.le_iff_toNat_le.mp hl15
    simp at this ⊢
    omega
  have hp := length_payload_of_serialize hser
  have hpl := IPv4Header.payloadLength_toNat d.header hl
  rw [serialize_eq d hv (by omega) hp, Except.ok.injEq] at hser
  subst hser
  set H := { d.header with
    cksum := (({ sum := 0 } : InternetChecksum).add { d.header with cksum := 0 }.serialized).value } with hH
  have hHl : H.hlen = d.header.hlen := rfl
  have hHlen : H.len = d.header.len := rfl
  have hHpl : H.payloadLength = d.header.payloadLength := rfl
  -- the buffer is `len + 2^16` bytes long: the header's length check fails before the options
  -- are skipped
  have hsum : 4 * H.hlen.toNat + d.payload.length ≠ H.len.toNat := by
    rw [hHl, hHlen]
    omega
  have hrun : ({} : IPv4Header).parse.run ⟨H.serialized ++ d.payload, .noError⟩ =
      ((.truncatedPacket, H), ⟨List.replicate (4 * H.hlen.toNat - 20) 0 ++ d.payload, .noError⟩) := by
    rw [IPv4Header.parse_serialized {} H hv (by rw [hHl]; omega) hl ho d.payload, if_pos hsum]
  have hlen' : ((List.replicate (4 * H.hlen.toNat - 20) 0 ++ d.payload).length != H.payloadLength.toNat) = true := by
    rw [hHl, hHpl, bne_iff_ne, List.length_append, List.length_replicate]
    omega
  rw [parse_eq {} _ _ _ _ hrun, hlen', if_pos rfl]

/-- `IPv4Datagram::serialize` accepts a datagram it cannot read back: version 4, `hlen` 6, `len`
0 and a payload of `0 - 24 = 65512` bytes modulo `2^16`. -/
theorem ipv4_short_len_rejected :
    ∃ bytes, ({ header := { hlen := 6, len := 0 }, payload := List.replicate 65512 0 } : IPv4Datagram).serialize =
        .ok bytes ∧ (({} : IPv4Datagram).parse bytes).1 = .packetTooShort := by
  have hp : (List.replicate 65512 (0 : UInt8)).length = ({ hlen := 6, len := 0 } : IPv4Header).payloadLength.toNat := by
    rw [List.length_replicate]
    decide
  have hser := serialize_eq { header := { hlen := 6, len := 0 }, payload := List.replicate 65512 0 } rfl (by decide) hp
  exact ⟨_, hser, parse_of_serialize_short_len _ rfl (by decide) (by decide) (by decide) (by decide) _ hser⟩

end IPv4Datagram

namespace TCPHeader

/-- The sixteen bytes `serialize` writes before the checksum. -/
def leadBytes (h : TCPHeader) : List UInt8 :=
  let flB : UInt8 := (if h.urg then 0x20 else 0) ||| (if h.ack then 0x10 else 0) |||
    (if h.psh then 0x08 else 0) ||| (if h.rst then 0x04 else 0) ||| (if h.syn then 0x02 else 0) |||
    (if h.fin then 0x01 else 0)
  NetUnparser.u16 h.sport ++ NetUnparser.u16 h.dport ++ NetUnparser.u32 h.seqno.rawValue ++
    NetUnparser.u32 h.ackno.rawValue ++ NetUnparser.u8 (h.doff <<< 4) ++ NetUnparser.u8 flB ++ NetUnparser.u16 h.win

@[simp] theorem length_leadBytes (h : TCPHeader) : h.leadBytes.length = 16 := by
  simp [leadBytes]

/-- The bytes `serialize` writes for a `doff` of at least 5. -/
def serialized (h : TCPHeader) : List UInt8 :=
  h.leadBytes ++ NetUnparser.u16 h.cksum ++ (NetUnparser.u16 h.uptr ++ List.replicate (4 * h.doff.toNat - 20) 0)

theorem serialized_cksum (h : TCPHeader) (c : UInt16) :
    { h with cksum := c }.serialized =
      h.leadBytes ++ NetUnparser.u16 c ++ (NetUnparser.u16 h.uptr ++ List.replicate (4 * h.doff.toNat - 20) 0) := rfl

@[simp] theorem length_serialized (h : TCPHeader) (h5 : 5 ≤ h.doff.toNat) : h.serialized.length = 4 * h.doff.toNat := by
  simp [serialized]
  omega

theorem serialize_eq (h : TCPHeader) (h5 : 5 ≤ h.doff.toNat) : h.serialize = .ok h.serialized := by
  rw [serialize, if_neg (by rw [UInt8.lt_iff_toNat_lt]; simp; omega)]
  dsimp only
  rw [resize_of_le (by simp; omega)]
  simp [serialized, leadBytes]

theorem serialize_cksum_eq (h : TCPHeader) (c : UInt16) (h5 : 5 ≤ h.doff.toNat) :
    { h with cksum := c }.serialize = .ok { h with cksum := c }.serialized :=
  serialize_eq _ h5

end TCPHeader

namespace TCPSegment

/-- The checksum `serialize` computes: over the pseudo-header sum, the header with a zero
checksum, and the payload. -/
theorem serialize_eq (seg : TCPSegment) (pc : UInt32) (h5 : 5 ≤ seg.header.doff.toNat) :
    seg.serialize pc = .ok ({ seg.header with
      cksum := ((({ sum := pc } : InternetChecksum).add { seg.header with cksum := 0 }.serialized).add
        seg.payload).value }.serialized ++ seg.payload) := by
  simp only [serialize]
  rw [TCPHeader.serialize_cksum_eq seg.header 0 h5]
  simp only [bind, Except.bind]
  rw [TCPHeader.serialize_cksum_eq seg.header _ h5]
  rfl

/-- The checksum written in the header makes the whole segment check. -/
theorem value_serialized (seg : TCPSegment) (pc : UInt32) (h5 : 5 ≤ seg.header.doff.toNat)
    (hb : pc.toNat + 65280 * (4 * seg.header.doff.toNat + seg.payload.length) + 65535 < 2 ^ 32) :
    (({ sum := pc } : InternetChecksum).add ({ seg.header with
      cksum := ((({ sum := pc } : InternetChecksum).add { seg.header with cksum := 0 }.serialized).add
        seg.payload).value }.serialized ++ seg.payload)).value = 0 := by
  -- the checksum field sits after the sixteen lead bytes, with the rest of the segment behind it
  set R := NetUnparser.u16 seg.header.uptr ++ (List.replicate (4 * seg.header.doff.toNat - 20) 0 ++ seg.payload)
  have hsplit : ∀ c : UInt16, { seg.header with cksum := c }.serialized ++ seg.payload =
      seg.header.leadBytes ++ NetUnparser.u16 c ++ R := by
    intro c
    simp [TCPHeader.serialized_cksum, R]
  have hw : OnesComplement.wordSum false (seg.header.leadBytes ++ NetUnparser.u16 0 ++ R) ≤
      65280 * (4 * seg.header.doff.toNat + seg.payload.length) := by
    refine (OnesComplement.wordSum_le _ _).trans (le_of_eq ?_)
    simp [R]
    omega
  rw [← InternetChecksum.add_append, hsplit, hsplit]
  exact InternetChecksum.value_field pc _ R (by simp) (by omega)

/-- **A serialized segment parses back.** For a `doff` from 5 to 15 and a payload short
enough that the checksum's 32-bit sum cannot overflow, `parse` with the same pseudo-header
sum finds the checksum right and reads the header, with the checksum `serialize` computed,
and the payload back. -/
theorem parse_of_serialize (seg : TCPSegment) (pc : UInt32) (h5 : 5 ≤ seg.header.doff) (h16 : seg.header.doff < 16)
    (hb : pc.toNat + 65280 * (4 * seg.header.doff.toNat + seg.payload.length) + 65535 < 2 ^ 32)
    {bytes : List UInt8} (hser : seg.serialize pc = .ok bytes) :
    ({} : TCPSegment).parse bytes pc = (.noError, { seg with header := { seg.header with
      cksum := ((({ sum := pc } : InternetChecksum).add { seg.header with cksum := 0 }.serialized).add
        seg.payload).value } }) := by
  have hd : 5 ≤ seg.header.doff.toNat := by simpa [UInt8.le_iff_toNat_le] using h5
  rw [serialize_eq seg pc hd, Except.ok.injEq] at hser
  subst hser
  have hrun := TCPHeader.parse_run_of_serialize { seg.header with
    cksum := ((({ sum := pc } : InternetChecksum).add { seg.header with cksum := 0 }.serialized).add
      seg.payload).value } h5 h16 (TCPHeader.serialize_cksum_eq _ _ hd) seg.payload
  unfold TCPSegment.parse
  dsimp only
  rw [value_serialized seg pc hd hb, hrun]
  rfl

end TCPSegment

end Sponge
