/-!
The words of the ledger: byte strings for identifiers and data, block heights, packet
sequences, accounts and agents. Heights and sequences stay at their last value where a sum
would not fit, so neither ever runs backwards by adding.
-/
namespace RelayLedger

/-- Identifiers and data are compared and stored as plain bytes. -/
abbrev Bytes := List UInt8

/-- The number of a block. -/
abbrev Height := UInt32

/-- The number of a packet on its channel. -/
abbrev Sequence := UInt64

abbrev Account := UInt64

abbrev AgentId := UInt64

namespace Height

/-- The height `blocks` later, or the last height if there is none so late. -/
def after (h : Height) (blocks : UInt32) : Height :=
  if h.toNat + blocks.toNat < 4294967296 then h + blocks else 4294967295

theorem toNat_after (h : Height) (blocks : UInt32) :
    (h.after blocks).toNat = min (h.toNat + blocks.toNat) 4294967295 := by
  unfold after
  split
  · rw [UInt32.toNat_add]
    omega
  · change (4294967295 : Nat) = _
    omega

end Height

namespace Sequence

/-- The sequence that follows, or the same one at the end of the numbering. -/
def next (s : Sequence) : Sequence :=
  if s.toNat + 1 < 18446744073709551616 then s + 1 else s

theorem toNat_next (s : Sequence) : (next s).toNat = min (s.toNat + 1) 18446744073709551615 := by
  have hs := s.toNat_lt
  unfold next
  split
  · rw [UInt64.toNat_add]
    change (s.toNat + 1) % 18446744073709551616 = _
    omega
  · omega

end Sequence

namespace Bytes

/-- Whether a byte string keeps to a length limit. -/
def fits (limit : UInt32) (bs : Bytes) : Bool :=
  bs.length ≤ limit.toNat

/-- The bytes of an ASCII text. -/
def ofAscii (text : String) : Bytes :=
  text.toList.map fun c => c.toNat.toUInt8

/-- The decimal digits of a number. -/
def decimal (n : Nat) : Bytes :=
  (Nat.toDigits 10 n).map fun c => c.toNat.toUInt8

/-- The text that the bytes spell, if they are valid UTF-8. -/
def toText? (bs : Bytes) : Option String :=
  String.fromUTF8? ⟨bs.toArray⟩

end Bytes

end RelayLedger
