import Sponge.Lib.Bytes
import Sponge.Lib.StateRun

/-!
The byte-level parser and checksum of `util/parser.{hh,cc}` and `util/util.cc`.

A `NetParser` holds the bytes left and the first error met; its reads are actions of
`StateM NetParser`. A read past the end sets `PacketTooShort` and, like every read
after an error, returns 0 and consumes nothing. `NetUnparser` appends big-endian words,
and `InternetChecksum` is the ones'-complement sum of 16-bit words.
-/

namespace Sponge

/-- `ParseResult`. -/
inductive ParseResult
  | noError | badChecksum | packetTooShort | wrongIPVersion | headerTooShort | truncatedPacket
  | unsupported
  deriving DecidableEq, Repr

/-- `NetParser`: the bytes not yet read, and the result of parsing so far. -/
structure NetParser where
  buffer : List UInt8
  error : ParseResult := .noError
  deriving DecidableEq, Repr

namespace NetParser

/-- `error()`. -/
def hasError (p : NetParser) : Bool := p.error != .noError

/-- `_check_size(size)`. -/
def checkSize (size : Nat) : StateM NetParser Unit :=
  modify fun p => if size > p.buffer.length then { p with error := .packetTooShort } else p

/-- `_parse_int<T>()` for a type of `len` bytes: the next `len` bytes read big-endian,
or 0 once there is an error. -/
def parseInt (len : Nat) : StateM NetParser Nat := do
  checkSize len
  let p ← get
  if p.hasError then return 0
  set { p with buffer := p.buffer.drop len }
  return Bytes.beNat (p.buffer.take len)

def u32 : StateM NetParser UInt32 := return UInt32.ofNat (← parseInt 4)

def u16 : StateM NetParser UInt16 := return UInt16.ofNat (← parseInt 2)

def u8 : StateM NetParser UInt8 := return UInt8.ofNat (← parseInt 1)

/-- `remove_prefix(n)`. -/
def removePrefix (n : Nat) : StateM NetParser Unit := do
  checkSize n
  let p ← get
  if p.hasError then return
  set { p with buffer := p.buffer.drop n }

/-! ### Reads that succeed -/

variable {p : NetParser}

theorem checkSize_run_of_le {n : Nat} (h : n ≤ p.buffer.length) : (checkSize n).run p = ((), p) := by
  simp [checkSize, Nat.not_lt.mpr h]
  rfl

theorem parseInt_run_of_le {len : Nat} (he : p.error = .noError) (h : len ≤ p.buffer.length) :
    (parseInt len).run p = (Bytes.beNat (p.buffer.take len), { p with buffer := p.buffer.drop len }) := by
  simp [parseInt, checkSize, Nat.not_lt.mpr h, hasError, he]
  rfl

theorem removePrefix_run_of_le {n : Nat} (he : p.error = .noError) (h : n ≤ p.buffer.length) :
    (removePrefix n).run p = ((), { p with buffer := p.buffer.drop n }) := by
  simp [removePrefix, checkSize, Nat.not_lt.mpr h, hasError, he]
  rfl

/-- A read that fits, followed by the rest of a parse: the forms the header parsers'
proofs rewrite with. -/
theorem run_parseInt_bind {α : Type} {l : List UInt8} {len : Nat} (h : len ≤ l.length)
    (k : Nat → StateM NetParser α) :
    (parseInt len >>= k).run ⟨l, .noError⟩ = (k (Bytes.beNat (l.take len))).run ⟨l.drop len, .noError⟩ :=
  StateM.run_bind_of_run_eq (parseInt_run_of_le rfl h)

theorem run_removePrefix_bind {α : Type} {l : List UInt8} {n : Nat} (h : n ≤ l.length)
    (k : Unit → StateM NetParser α) :
    (removePrefix n >>= k).run ⟨l, .noError⟩ = (k ()).run ⟨l.drop n, .noError⟩ :=
  StateM.run_bind_of_run_eq (removePrefix_run_of_le rfl h)

/-! ### The only error a read sets -/

/-- The parser holds no error, or `PacketTooShort`: the one error a read sets. -/
def ErrorOk (p : NetParser) : Prop := p.error = .noError ∨ p.error = .packetTooShort

open StateM

theorem keeps_checkSize (n : Nat) : Keeps ErrorOk (checkSize n) := by
  apply Keeps.modify
  intro p hp
  split
  · exact Or.inr rfl
  · exact hp

theorem keeps_parseInt (len : Nat) : Keeps ErrorOk (parseInt len) := by
  apply Keeps.bind (keeps_checkSize len)
  intro _
  apply Keeps.get_bind
  intro p hp
  refine Keeps.ite (Keeps.pure _) ?_
  -- dropping bytes keeps the error
  exact Keeps.bind (Keeps.set hp) fun _ => Keeps.pure _

theorem keeps_u32 : Keeps ErrorOk u32 := Keeps.bind (keeps_parseInt 4) fun _ => Keeps.pure _

theorem keeps_u16 : Keeps ErrorOk u16 := Keeps.bind (keeps_parseInt 2) fun _ => Keeps.pure _

theorem keeps_u8 : Keeps ErrorOk u8 := Keeps.bind (keeps_parseInt 1) fun _ => Keeps.pure _

theorem keeps_removePrefix (n : Nat) : Keeps ErrorOk (removePrefix n) := by
  apply Keeps.bind (keeps_checkSize n)
  intro _
  apply Keeps.get_bind
  intro p hp
  exact Keeps.ite (Keeps.pure _) (Keeps.set hp)

end NetParser

/-- `NetUnparser::_unparse_int<T>(s, val)` for a type of `len` bytes. -/
def NetUnparser.unparseInt (len val : Nat) : List UInt8 :=
  (List.range len).map fun i => UInt8.ofNat ((val >>> ((len - i - 1) * 8)) &&& 0xff)

namespace NetUnparser

def u32 (val : UInt32) : List UInt8 := unparseInt 4 val.toNat

def u16 (val : UInt16) : List UInt8 := unparseInt 2 val.toNat

def u8 (val : UInt8) : List UInt8 := unparseInt 1 val.toNat

@[simp] theorem length_unparseInt (len val : Nat) : (unparseInt len val).length = len := by
  simp [unparseInt]

@[simp] theorem length_u32 (val : UInt32) : (u32 val).length = 4 := length_unparseInt _ _

@[simp] theorem length_u16 (val : UInt16) : (u16 val).length = 2 := length_unparseInt _ _

@[simp] theorem length_u8 (val : UInt8) : (u8 val).length = 1 := length_unparseInt _ _

/-- The bytes `_unparse_int` computes with shifts and masks are the big-endian bytes. -/
theorem unparseInt_eq_beBytes (len val : Nat) : unparseInt len val = Bytes.beBytes len val := by
  unfold unparseInt Bytes.beBytes
  apply List.map_congr_left
  intro i hi
  rw [List.mem_range] at hi
  -- `(val >> 8k) & 0xff` and `val / 256^k` agree on the low byte
  have hk : len - i - 1 = len - 1 - i := by omega
  rw [Nat.shiftRight_eq_div_pow, show (0xff : Nat) = 2 ^ 8 - 1 from rfl, Nat.and_two_pow_sub_one_eq_mod,
    hk, pow_mul']
  apply UInt8.toNat.inj
  simp

/-- Distinct words are written as distinct bytes. -/
theorem u32_inj {a b : UInt32} (h : u32 a = u32 b) : a = b := by
  have h' := congrArg Bytes.beNat h
  simp only [u32, unparseInt_eq_beBytes, Bytes.beNat_beBytes] at h'
  rw [Nat.mod_eq_of_lt (by simpa using a.toNat_lt), Nat.mod_eq_of_lt (by simpa using b.toNat_lt)] at h'
  exact UInt32.toNat.inj h'

end NetUnparser

/-! ### Reading back what was written -/

namespace NetParser

variable {α : Type} {rest : List UInt8}

theorem run_parseInt_beBytes_bind {len v : Nat} (k : Nat → StateM NetParser α) :
    (parseInt len >>= k).run ⟨Bytes.beBytes len v ++ rest, .noError⟩ = (k (v % 256 ^ len)).run ⟨rest, .noError⟩ := by
  rw [run_parseInt_bind (by simp), List.take_left' (by simp), List.drop_left' (by simp), Bytes.beNat_beBytes]

/-- Each `NetParser` read gives back the word the matching `NetUnparser` write wrote. -/
theorem run_u32_bind (v : UInt32) (k : UInt32 → StateM NetParser α) :
    (u32 >>= k).run ⟨NetUnparser.u32 v ++ rest, .noError⟩ = (k v).run ⟨rest, .noError⟩ := by
  simp only [u32, NetUnparser.u32, NetUnparser.unparseInt_eq_beBytes, bind_assoc, pure_bind]
  rw [run_parseInt_beBytes_bind, Nat.mod_eq_of_lt (by simpa using v.toNat_lt), UInt32.ofNat_toNat]

theorem run_u16_bind (v : UInt16) (k : UInt16 → StateM NetParser α) :
    (u16 >>= k).run ⟨NetUnparser.u16 v ++ rest, .noError⟩ = (k v).run ⟨rest, .noError⟩ := by
  simp only [u16, NetUnparser.u16, NetUnparser.unparseInt_eq_beBytes, bind_assoc, pure_bind]
  rw [run_parseInt_beBytes_bind, Nat.mod_eq_of_lt (by simpa using v.toNat_lt), UInt16.ofNat_toNat]

theorem run_u8_bind (v : UInt8) (k : UInt8 → StateM NetParser α) :
    (u8 >>= k).run ⟨NetUnparser.u8 v ++ rest, .noError⟩ = (k v).run ⟨rest, .noError⟩ := by
  simp only [u8, NetUnparser.u8, NetUnparser.unparseInt_eq_beBytes, bind_assoc, pure_bind]
  rw [run_parseInt_beBytes_bind, Nat.mod_eq_of_lt (by simpa using v.toNat_lt), UInt8.ofNat_toNat]

end NetParser

/-- `InternetChecksum`: the running 32-bit sum, and whether an odd number of bytes was
added. -/
structure InternetChecksum where
  sum : UInt32
  parity : Bool := false
  deriving DecidableEq, Repr

namespace InternetChecksum

/-- `add(data)`: a byte at an even position is the high byte of its 16-bit word. -/
def add (c : InternetChecksum) (data : List UInt8) : InternetChecksum :=
  data.foldl (fun c b =>
    let val : UInt16 := b.toUInt16
    let val := if !c.parity then val <<< 8 else val
    { sum := c.sum + val.toUInt32, parity := !c.parity }) c

/-- The loop of `value()` that adds the carries back; a 32-bit sum needs two rounds. -/
def foldCarries : Nat → UInt32 → UInt32
  | 0, ret => ret
  | fuel + 1, ret => if ret > 0xffff then foldCarries fuel ((ret >>> 16) + (ret &&& 0xffff)) else ret

/-- `value()`: the complement of the folded sum. -/
def value (c : InternetChecksum) : UInt16 := ~~~(foldCarries 2 c.sum).toUInt16

end InternetChecksum

end Sponge
