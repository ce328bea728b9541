import RelayLedger.Layout

/-!
Digests of 32 bytes, and the hash function BLAKE2b with such a digest and no key. A message
is cut into blocks of 128 bytes, the last one filled up with zeros, and each block is stirred
into a state of eight words in twelve rounds.
-/
namespace RelayLedger

structure Digest where
  bytes : Bytes
  length_eq : bytes.length = 32
  deriving DecidableEq

namespace Digest

/-- A digest of a byte string, if it is one. -/
def ofBytes? (bs : Bytes) : Option Digest :=
  if h : bs.length = 32 then some ⟨bs, h⟩ else none

/-- A digest is laid out as its bytes, without a length. -/
def layout : Layout Digest where
  admits _ := true
  write d := d.bytes
  read input := (ofBytes? (input.take 32)).map fun d => (d, input.drop 32)
  maxLength := 32

end Digest

namespace Blake2b

/-- The fractional parts of the square roots of the first eight primes. -/
def initial : Vector UInt64 8 :=
  #v[0x6a09e667f3bcc908, 0xbb67ae8584caa73b, 0x3c6ef372fe94f82b, 0xa54ff53a5f1d36f1,
    0x510e527fade682d1, 0x9b05688c2b3e6c1f, 0x1f83d9abfb41bd6b, 0x5be0cd19137e2179]

/-- The order in which each of ten rounds takes the words of a block. -/
def schedule : Vector (Vector (Fin 16) 16) 10 :=
  #v[#v[0, 1, 2, 3, 4, 5, 6, 7, 8, 9, 10, 11, 12, 13, 14, 15],
    #v[14, 10, 4, 8, 9, 15, 13, 6, 1, 12, 0, 2, 11, 7, 5, 3],
    #v[11, 8, 12, 0, 5, 2, 15, 13, 10, 14, 3, 6, 7, 1, 9, 4],
    #v[7, 9, 3, 1, 13, 12, 11, 14, 2, 6, 5, 10, 4, 0, 15, 8],
    #v[9, 0, 5, 7, 2, 4, 10, 15, 14, 1, 11, 12, 6, 8, 3, 13],
    #v[2, 12, 6, 10, 0, 11, 8, 3, 4, 13, 7, 5, 15, 14, 1, 9],
    #v[12, 5, 1, 15, 14, 13, 4, 10, 0, 7, 6, 3, 9, 2, 8, 11],
    #v[13, 11, 7, 14, 12, 1, 3, 9, 5, 0, 15, 4, 8, 6, 2, 10],
    #v[6, 15, 14, 9, 11, 3, 0, 8, 12, 2, 13, 7, 1, 4, 10, 5],
    #v[10, 2, 8, 4, 7, 6, 1, 5, 15, 11, 9, 14, 3, 12, 13, 0]]

def rotateRight (w : UInt64) (k : UInt64) : UInt64 :=
  (w >>> k) ||| (w <<< (64 - k))

/-- One stirring of four words with two words of the block. -/
def mix (a b c d : Fin 16) (x y : UInt64) (v : Vector UInt64 16) : Vector UInt64 16 :=
  let va := v[a] + v[b] + x
  let vd := rotateRight (v[d] ^^^ va) 32
  let vc := v[c] + vd
  let vb := rotateRight (v[b] ^^^ vc) 24
  let va := va + vb + y
  let vd := rotateRight (vd ^^^ va) 16
  let vc := vc + vd
  let vb := rotateRight (vb ^^^ vc) 63
  (((v.set a va a.isLt).set b vb b.isLt).set c vc c.isLt).set d vd d.isLt

/-- A round stirs the four columns and then the four diagonals. -/
def round (m : Vector UInt64 16) (v : Vector UInt64 16) (s : Vector (Fin 16) 16) :
    Vector UInt64 16 :=
  let v := mix 0 4 8 12 m[s[0]] m[s[1]] v
  let v := mix 1 5 9 13 m[s[2]] m[s[3]] v
  let v := mix 2 6 10 14 m[s[4]] m[s[5]] v
  let v := mix 3 7 11 15 m[s[6]] m[s[7]] v
  let v := mix 0 5 10 15 m[s[8]] m[s[9]] v
  let v := mix 1 6 11 12 m[s[10]] m[s[11]] v
  let v := mix 2 7 8 13 m[s[12]] m[s[13]] v
  mix 3 4 9 14 m[s[14]] m[s[15]] v

/-- The twelve rounds: the ten orders, and the first two of them again. -/
def rounds : List (Vector (Fin 16) 16) :=
  schedule.toList ++ [schedule[0], schedule[1]]

/-- The number that up to eight bytes spell, lowest first. -/
def wordOf (bs : Bytes) : UInt64 :=
  bs.foldr (fun b w => (w <<< 8) ||| b.toUInt64) 0

/-- The sixteen words of a block; bytes that are missing count as zero. -/
def blockWords (block : Bytes) : Vector UInt64 16 :=
  Vector.ofFn fun i => wordOf ((block.drop (8 * i.val)).take 8)

/-- Stirs a block into the state; `count` is the number of message bytes up to its end. -/
def compress (h : Vector UInt64 8) (block : Bytes) (count : Nat) (last : Bool) :
    Vector UInt64 8 :=
  let tweak : Vector UInt64 8 :=
    #v[0, 0, 0, 0, UInt64.ofNat count, UInt64.ofNat (count / 18446744073709551616),
      if last then 0xffffffffffffffff else 0, 0]
  let v := h ++ Vector.zipWith (· ^^^ ·) initial tweak
  let v := rounds.foldl (round (blockWords block)) v
  Vector.ofFn fun i => h[i] ^^^ v[i.val] ^^^ v[i.val + 8]

/-- Takes in `blocks` whole blocks, of `done` bytes before them, and then the last block. -/
def absorb : Nat → Vector UInt64 8 → Nat → Bytes → Vector UInt64 8
  | 0, h, done, message => compress h message (done + message.length) true
  | blocks + 1, h, done, message =>
    absorb blocks (compress h (message.take 128) (done + 128) false) (done + 128)
      (message.drop 128)

/-- The eight bytes of a word, lowest first. -/
def wordBytes (w : UInt64) : Bytes :=
  (List.range 8).map fun i => (w >>> (8 * UInt64.ofNat i)).toUInt8

/-- The digest of a message. -/
def digest (message : Bytes) : Digest :=
  let h := initial.set 0 (initial[0] ^^^ 0x01010020)
  let h := absorb ((message.length - 1) / 128) h 0 message
  ⟨wordBytes h[0] ++ wordBytes h[1] ++ wordBytes h[2] ++ wordBytes h[3], by simp [wordBytes]⟩

end Blake2b

end RelayLedger
