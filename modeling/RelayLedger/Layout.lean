import RelayLedger.Basic

/-!
Byte layouts. A layout says how the values of a type are written one after another, which
values it admits, how one value is read off the front of an input, and how long an admitted
value can get. Words are written low byte first, lengths in one, two, four or five bytes
(the fewest that hold them, and no other form is read), options and alternatives behind a tag.
-/
namespace RelayLedger

/-- A description of the bytes of one type. -/
structure Layout (α : Type) where
  admits : α → Bool
  write : α → Bytes
  read : Bytes → Option (α × Bytes)
  maxLength : Nat

namespace Layout

variable {α β : Type}

/-- The value that all of the input spells. -/
def readAll (l : Layout α) (input : Bytes) : Option α :=
  match l.read input with
  | some (a, []) => some a
  | _ => none

/-- The same bytes for another type. -/
def via (l : Layout α) (unpack : β → α) (pack : α → β) : Layout β where
  admits b := l.admits (unpack b)
  write b := l.write (unpack b)
  read input := (l.read input).map fun (a, rest) => (pack a, rest)
  maxLength := l.maxLength

/-- One value behind another. -/
def pair (l : Layout α) (m : Layout β) : Layout (α × β) where
  admits x := l.admits x.1 && m.admits x.2
  write x := l.write x.1 ++ m.write x.2
  read input := do
    let (a, rest) ← l.read input
    let (b, rest) ← m.read rest
    some ((a, b), rest)
  maxLength := l.maxLength + m.maxLength

/-- No bytes at all. -/
def nothing : Layout Unit where
  admits _ := true
  write _ := []
  read input := some ((), input)
  maxLength := 0

/-! Words. -/

/-- The `k` low base-256 digits of a number, lowest first. -/
def writeWord : Nat → Nat → Bytes
  | 0, _ => []
  | k + 1, n => n.toUInt8 :: writeWord k (n / 256)

/-- The number whose `k` base-256 digits come first in the input. -/
def readWord : Nat → Bytes → Option (Nat × Bytes)
  | 0, input => some (0, input)
  | _ + 1, [] => none
  | k + 1, b :: input => (readWord k input).map fun (n, rest) => (b.toNat + 256 * n, rest)

/-- How many numbers there are of `k` base-256 digits. -/
def span : Nat → Nat
  | 0 => 1
  | k + 1 => 256 * span k

/-- A number of `k` bytes. -/
def word (k : Nat) : Layout Nat where
  admits n := n < span k
  write := writeWord k
  read := readWord k
  maxLength := k

def word16 : Layout UInt16 := (word 2).via UInt16.toNat UInt16.ofNat

def word32 : Layout UInt32 := (word 4).via UInt32.toNat UInt32.ofNat

def word64 : Layout UInt64 := (word 8).via UInt64.toNat UInt64.ofNat

/-- Signed words are laid out as the word with the same bits. -/
def int32 : Layout Int32 := word32.via Int32.toUInt32 UInt32.toInt32

/-! Lengths. -/

/-- The word of `k` bytes in front, without its two low bits, if it is at least `least` then. -/
def readShifted (k least : Nat) (input : Bytes) : Option (Nat × Bytes) :=
  ((readWord k input).map fun (n, rest) => (n / 4, rest)).filter fun x => least ≤ x.1

/-- A length below 4294967296; the two low bits of the first byte tell how many bytes it takes. -/
def length : Layout Nat where
  admits n := n < 4294967296
  write n :=
    if n < 64 then writeWord 1 (4 * n)
    else if n < 16384 then writeWord 2 (4 * n + 1)
    else if n < 1073741824 then writeWord 4 (4 * n + 2)
    else 3 :: writeWord 4 n
  read
    | [] => none
    | b :: input =>
      if b.toNat % 4 = 0 then readShifted 1 0 (b :: input)
      else if b.toNat % 4 = 1 then readShifted 2 64 (b :: input)
      else if b.toNat % 4 = 2 then readShifted 4 16384 (b :: input)
      else if b = 3 then (readWord 4 input).filter fun x => 1073741824 ≤ x.1
      else none
  maxLength := 5

/-- How many bytes a length takes. -/
def lengthSize (n : Nat) : Nat :=
  if n < 64 then 1 else if n < 16384 then 2 else if n < 1073741824 then 4 else 5

/-- A byte string of at most `limit` bytes, behind its length. -/
def bytes (limit : Nat) : Layout Bytes where
  admits bs := bs.length ≤ limit
  write bs := length.write bs.length ++ bs
  read input :=
    match length.read input with
    | some (n, rest) =>
      if n ≤ limit ∧ n ≤ rest.length then some (rest.take n, rest.drop n) else none
    | none => none
  maxLength := lengthSize limit + limit

/-- A byte string of any length that a length can tell. -/
def anyBytes : Layout Bytes := bytes 4294967295

/-- `count` values one behind another. -/
def readMany (l : Layout α) : Nat → Bytes → Option (List α × Bytes)
  | 0, input => some ([], input)
  | count + 1, input => do
    let (a, rest) ← l.read input
    let (as, rest) ← readMany l count rest
    some (a :: as, rest)

/-- A list of at most `limit` values, behind its length. -/
def list (limit : Nat) (l : Layout α) : Layout (List α) where
  admits as := as.length ≤ limit && as.all l.admits
  write as := length.write as.length ++ as.flatMap l.write
  read input :=
    match length.read input with
    | some (n, rest) => if n ≤ limit then l.readMany n rest else none
    | none => none
  maxLength := lengthSize limit + limit * l.maxLength

/-! Tags. -/

/-- A truth value is the byte 0 or 1. -/
def bool : Layout Bool where
  admits _ := true
  write b := [if b then 1 else 0]
  read
    | 0 :: rest => some (false, rest)
    | 1 :: rest => some (true, rest)
    | _ => none
  maxLength := 1

/-- An optional value is the byte 0, or the byte 1 and the value. -/
def option (l : Layout α) : Layout (Option α) where
  admits x := x.all l.admits
  write
    | none => [0]
    | some a => 1 :: l.write a
  read
    | 0 :: rest => some (none, rest)
    | 1 :: input => (l.read input).map fun (a, rest) => (some a, rest)
    | _ => none
  maxLength := 1 + l.maxLength

/-- One alternative of a type: the values that `wrap` builds from a body. -/
structure Case (α : Type) where
  Body : Type
  body : Layout Body
  wrap : Body → α
  unwrap : α → Option Body

/-- The alternative with a given body. -/
def Case.of (body : Layout β) (wrap : β → α) (unwrap : α → Option β) : Case α :=
  ⟨β, body, wrap, unwrap⟩

/-- The bytes of `a` by the first case that it belongs to; cases are tagged upward from `tag`. -/
def writeCase : List (Case α) → Nat → α → Bytes
  | [], _, _ => []
  | c :: cs, tag, a =>
    match c.unwrap a with
    | some x => tag.toUInt8 :: c.body.write x
    | none => writeCase cs (tag + 1) a

/-- A value of one of several cases, behind the number of its case. -/
def oneOf (cases : List (Case α)) : Layout α where
  admits a := cases.any fun c => (c.unwrap a).any c.body.admits
  write := writeCase cases 0
  read
    | [] => none
    | tag :: input =>
      match cases[tag.toNat]? with
      | some c => (c.body.read input).map fun (x, rest) => (c.wrap x, rest)
      | none => none
  maxLength := 1 + (cases.map fun c => c.body.maxLength).foldl Nat.max 0

end Layout

end RelayLedger
