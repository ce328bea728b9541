import RelayLedger.Layout

/-!
Exact layouts. A layout is exact if reading accepts what writing produces and nothing else:
the value that is read back is the one that was written, and the bytes it was read from are
the ones that writing it gives. All layouts here are exact if their parts are.
-/
namespace RelayLedger.Layout

variable {α β : Type}

/-- Reading and writing are inverse to each other. -/
structure Exact (l : Layout α) : Prop where
  read_write : ∀ {a : α} (rest : Bytes), l.admits a = true →
    l.read (l.write a ++ rest) = some (a, rest)
  eq_of_read : ∀ {input : Bytes} {a : α} {rest : Bytes}, l.read input = some (a, rest) →
    l.admits a = true ∧ input = l.write a ++ rest

namespace Exact

/-- The whole of an input spells a value exactly if it is what writing the value gives. -/
theorem readAll_eq_some_iff {l : Layout α} (hl : l.Exact) {input : Bytes} {a : α} :
    l.readAll input = some a ↔ l.admits a = true ∧ input = l.write a := by
  constructor
  · intro h
    unfold readAll at h
    split at h
    · next b heq =>
      cases h
      simpa using hl.eq_of_read heq
    · cases h
  · rintro ⟨ha, rfl⟩
    have := hl.read_write [] ha
    rw [List.append_nil] at this
    simp [readAll, this]

/-- No written value begins another one, whatever follows them. -/
theorem write_append_inj {l : Layout α} (hl : l.Exact) {a b : α} {xs ys : Bytes}
    (ha : l.admits a = true) (hb : l.admits b = true) (h : l.write a ++ xs = l.write b ++ ys) :
    a = b ∧ xs = ys := by
  have hread := hl.read_write xs ha
  rw [h, hl.read_write ys hb] at hread
  cases hread
  exact ⟨rfl, rfl⟩

theorem write_inj {l : Layout α} (hl : l.Exact) {a b : α} (ha : l.admits a = true)
    (hb : l.admits b = true) (h : l.write a = l.write b) : a = b := by
  have hwritten : l.write a ++ [] = l.write b ++ [] := by rw [h]
  exact (hl.write_append_inj ha hb hwritten).1

end Exact

theorem exact_via {l : Layout α} (hl : l.Exact) {unpack : β → α} {pack : α → β}
    (hpack : ∀ a, l.admits a = true → unpack (pack a) = a) (hunpack : ∀ b, pack (unpack b) = b) :
    (l.via unpack pack).Exact where
  read_write rest hb := by simp [via, hl.read_write rest hb, hunpack]
  eq_of_read h := by
    obtain ⟨⟨a, rest⟩, hread, heq⟩ := Option.map_eq_some_iff.mp h
    cases heq
    obtain ⟨ha, rfl⟩ := hl.eq_of_read hread
    simp [via, hpack a ha, ha]

theorem exact_pair {l : Layout α} {m : Layout β} (hl : l.Exact) (hm : m.Exact) :
    (l.pair m).Exact where
  read_write rest h := by
    obtain ⟨ha, hb⟩ := Bool.and_eq_true_iff.mp h
    simp [pair, List.append_assoc, hl.read_write _ ha, hm.read_write rest hb]
  eq_of_read h := by
    simp only [pair, Option.bind_eq_bind, Option.bind_eq_some_iff] at h
    obtain ⟨⟨a, between⟩, hreadA, ⟨b, rest⟩, hreadB, heq⟩ := h
    cases heq
    obtain ⟨ha, rfl⟩ := hl.eq_of_read hreadA
    obtain ⟨hb, rfl⟩ := hm.eq_of_read hreadB
    simp [pair, ha, hb]

theorem exact_nothing : nothing.Exact where
  read_write _ _ := rfl
  eq_of_read h := by
    cases h
    exact ⟨rfl, rfl⟩

/-! Words. -/

theorem span_pos (k : Nat) : 0 < span k := by
  induction k with
  | zero => decide
  | succ k ih =>
    unfold span
    omega

theorem readWord_writeWord {k n : Nat} (rest : Bytes) (h : n < span k) :
    readWord k (writeWord k n ++ rest) = some (n, rest) := by
  induction k generalizing n with
  | zero =>
    have hn : n = 0 := by
      unfold span at h
      omega
    simp [readWord, writeWord, hn]
  | succ k ih =>
    have hn : n / 256 < span k := by
      unfold span at h
      omega
    have hdigit : n % 256 + 256 * (n / 256) = n := by omega
    simp [readWord, writeWord, ih hn, hdigit]

theorem eq_of_readWord {k n : Nat} {input rest : Bytes} (h : readWord k input = some (n, rest)) :
    n < span k ∧ input = writeWord k n ++ rest := by
  induction k generalizing n input with
  | zero =>
    cases h
    exact ⟨span_pos 0, rfl⟩
  | succ k ih =>
    cases input with
    | nil => cases h
    | cons b input =>
      obtain ⟨⟨m, rest'⟩, hm, heq⟩ := Option.map_eq_some_iff.mp h
      cases heq
      obtain ⟨hlt, rfl⟩ := ih hm
      have hb : b.toNat < 256 := b.toNat_lt
      refine ⟨?_, ?_⟩
      · unfold span
        omega
      · have hdiv : (b.toNat + 256 * m) / 256 = m := by omega
        have hlow : (b.toNat + 256 * m).toUInt8 = b := by
          apply UInt8.toNat_inj.mp
          simp only [Nat.toUInt8, UInt8.toNat_ofNat']
          omega
        simp [writeWord, hdiv, hlow]

theorem exact_word (k : Nat) : (word k).Exact where
  read_write rest h := readWord_writeWord rest (by simpa [word] using h)
  eq_of_read h := by simpa [word] using eq_of_readWord h

theorem exact_word16 : word16.Exact :=
  exact_via (exact_word 2)
    (fun n hn => by
      have hn : n < 65536 := by simpa [word, span] using hn
      simp only [UInt16.toNat_ofNat']
      omega)
    fun w => UInt16.toNat_inj.mp (by simp)

theorem exact_word32 : word32.Exact :=
  exact_via (exact_word 4)
    (fun n hn => by
      have hn : n < 4294967296 := by simpa [word, span] using hn
      simp only [UInt32.toNat_ofNat']
      omega)
    fun w => UInt32.toNat_inj.mp (by simp)

theorem exact_word64 : word64.Exact :=
  exact_via (exact_word 8)
    (fun n hn => by
      have hn : n < 18446744073709551616 := by simpa [word, span] using hn
      simp only [UInt64.toNat_ofNat']
      omega)
    fun w => UInt64.toNat_inj.mp (by simp)

theorem exact_int32 : int32.Exact :=
  exact_via exact_word32 (fun _ _ => rfl) fun _ => rfl

@[simp] theorem admits_word64 (w : UInt64) : word64.admits w = true := by
  have := w.toNat_lt
  simpa [word64, via, word, span] using this

@[simp] theorem admits_word32 (w : UInt32) : word32.admits w = true := by
  have := w.toNat_lt
  simpa [word32, via, word, span] using this

@[simp] theorem admits_word16 (w : UInt16) : word16.admits w = true := by
  have := w.toNat_lt
  simpa [word16, via, word, span] using this

@[simp] theorem admits_int32 (w : Int32) : int32.admits w = true := admits_word32 w.toUInt32

/-! Lengths. -/

theorem readShifted_writeWord {k m least : Nat} (rest : Bytes) (hm : m < span k)
    (hleast : least ≤ m / 4) :
    readShifted k least (writeWord k m ++ rest) = some (m / 4, rest) := by
  simp [readShifted, readWord_writeWord rest hm, Option.filter, hleast]

theorem eq_of_readShifted {k n least : Nat} {input rest : Bytes}
    (h : readShifted k least input = some (n, rest)) :
    ∃ m, m < span k ∧ m / 4 = n ∧ least ≤ n ∧ input = writeWord k m ++ rest := by
  obtain ⟨hmap, hleast⟩ := Option.filter_eq_some_iff.mp h
  obtain ⟨⟨m, rest'⟩, hword, heq⟩ := Option.map_eq_some_iff.mp hmap
  cases heq
  obtain ⟨hm, hinput⟩ := eq_of_readWord hword
  exact ⟨m, hm, rfl, by simpa using hleast, hinput⟩

/-- The low byte of a number agrees with it up to multiples of four. -/
theorem toUInt8_mod_four (m : Nat) : m.toUInt8.toNat % 4 = m % 4 := by
  simp only [Nat.toUInt8, UInt8.toNat_ofNat']
  omega

/-- A word is written low byte first. -/
theorem writeWord_succ_append (k m : Nat) (rest : Bytes) :
    writeWord (k + 1) m ++ rest = m.toUInt8 :: (writeWord k (m / 256) ++ rest) := rfl

private theorem mod_four_of_cons_eq {k m : Nat} {b : UInt8} {input rest : Bytes}
    (h : b :: input = writeWord (k + 1) m ++ rest) : b.toNat % 4 = m % 4 := by
  rw [(List.cons.inj h).1]
  exact toUInt8_mod_four m

/-- The first byte tells in which form a length stands. -/
private theorem read_length_cons (b : UInt8) (input : Bytes) :
    length.read (b :: input) =
      if b.toNat % 4 = 0 then readShifted 1 0 (b :: input)
      else if b.toNat % 4 = 1 then readShifted 2 64 (b :: input)
      else if b.toNat % 4 = 2 then readShifted 4 16384 (b :: input)
      else if b = 3 then (readWord 4 input).filter fun x => 1073741824 ≤ x.1
      else none := rfl

/-- A length that stands in one of the shifted forms is read back. -/
private theorem read_length_shifted {k m n : Nat} (least : Nat) (rest : Bytes)
    (hread : ∀ b input, b.toNat % 4 = m % 4 →
      length.read (b :: input) = readShifted (k + 1) least (b :: input))
    (hm : m < span (k + 1)) (hleast : least ≤ n) (hn : m / 4 = n) :
    length.read (writeWord (k + 1) m ++ rest) = some (n, rest) := by
  subst hn
  rw [writeWord_succ_append, hread _ _ (toUInt8_mod_four m), ← writeWord_succ_append]
  exact readShifted_writeWord rest hm hleast

private theorem write_length (n : Nat) :
    length.write n =
      if n < 64 then writeWord 1 (4 * n)
      else if n < 16384 then writeWord 2 (4 * n + 1)
      else if n < 1073741824 then writeWord 4 (4 * n + 2)
      else 3 :: writeWord 4 n := rfl

private theorem admits_length (n : Nat) : length.admits n = true ↔ n < 4294967296 := by
  simp [length]

theorem exact_length : length.Exact where
  read_write {n} rest h := by
    have hn := (admits_length n).mp h
    rw [write_length]
    split
    · refine read_length_shifted 0 rest (fun b input hb => ?_)
        (by simp only [span]; omega) (by omega) (by omega)
      rw [read_length_cons, if_pos (by omega)]
    · split
      · refine read_length_shifted 64 rest (fun b input hb => ?_)
          (by simp only [span]; omega) (by omega) (by omega)
        rw [read_length_cons, if_neg (by omega), if_pos (by omega)]
      · split
        · refine read_length_shifted 16384 rest (fun b input hb => ?_)
            (by simp only [span]; omega) (by omega) (by omega)
          rw [read_length_cons, if_neg (by omega), if_neg (by omega), if_pos (by omega)]
        · rw [List.cons_append, read_length_cons, if_neg (by decide), if_neg (by decide),
            if_neg (by decide), if_pos rfl, readWord_writeWord rest (by simp only [span]; omega)]
          simp [Option.filter]
          omega
  eq_of_read {input n rest} h := by
    cases input with
    | nil => cases h
    | cons b input =>
      rw [read_length_cons] at h
      rw [admits_length, write_length]
      split at h
      · obtain ⟨m, hm, hmn, hleast, hinput⟩ := eq_of_readShifted h
        have hmod := mod_four_of_cons_eq hinput
        simp only [span] at hm
        refine ⟨by omega, ?_⟩
        rw [if_pos (by omega), hinput, show m = 4 * n by omega]
      · split at h
        · obtain ⟨m, hm, hmn, hleast, hinput⟩ := eq_of_readShifted h
          have hmod := mod_four_of_cons_eq hinput
          simp only [span] at hm
          refine ⟨by omega, ?_⟩
          rw [if_neg (by omega), if_pos (by omega), hinput, show m = 4 * n + 1 by omega]
        · split at h
          · obtain ⟨m, hm, hmn, hleast, hinput⟩ := eq_of_readShifted h
            have hmod := mod_four_of_cons_eq hinput
            simp only [span] at hm
            refine ⟨by omega, ?_⟩
            rw [if_neg (by omega), if_neg (by omega), if_pos (by omega), hinput,
              show m = 4 * n + 2 by omega]
          · split at h
            · next hb =>
              obtain ⟨hword, hleast⟩ := Option.filter_eq_some_iff.mp h
              obtain ⟨hn, hinput⟩ := eq_of_readWord hword
              simp only [span] at hn
              simp only [decide_eq_true_eq] at hleast
              refine ⟨by omega, ?_⟩
              rw [if_neg (by omega), if_neg (by omega), if_neg (by omega), hb, hinput]
              rfl
            · cases h

theorem exact_bytes {limit : Nat} (hlimit : limit < 4294967296) : (bytes limit).Exact where
  read_write {bs} rest h := by
    have hbs : bs.length ≤ limit := by simpa [bytes] using h
    have hlength := exact_length.read_write (bs ++ rest) ((admits_length bs.length).mpr (by omega))
    simp [bytes, List.append_assoc, hlength, hbs]
  eq_of_read {input bs rest} h := by
    simp only [bytes] at h
    split at h
    · next n tail hlength =>
      split at h
      · next hn =>
        cases h
        obtain ⟨-, rfl⟩ := exact_length.eq_of_read hlength
        have htake : (tail.take n).length = n := by simp [hn.2]
        simp [bytes, htake, hn.1]
      · cases h
    · cases h

theorem exact_anyBytes : anyBytes.Exact := exact_bytes (by decide)

theorem readMany_flatMap {l : Layout α} (hl : l.Exact) {as : List α} (rest : Bytes)
    (has : as.all l.admits = true) :
    l.readMany as.length (as.flatMap l.write ++ rest) = some (as, rest) := by
  induction as with
  | nil => rfl
  | cons a as ih =>
    obtain ⟨ha, has⟩ := Bool.and_eq_true_iff.mp (List.all_cons ▸ has)
    simp [readMany, List.append_assoc, hl.read_write _ ha, ih has]

theorem eq_of_readMany {l : Layout α} (hl : l.Exact) {count : Nat} {input rest : Bytes}
    {as : List α} (h : l.readMany count input = some (as, rest)) :
    as.length = count ∧ as.all l.admits = true ∧ input = as.flatMap l.write ++ rest := by
  induction count generalizing input as with
  | zero =>
    cases h
    exact ⟨rfl, rfl, rfl⟩
  | succ count ih =>
    simp only [readMany, Option.bind_eq_bind, Option.bind_eq_some_iff] at h
    obtain ⟨⟨a, between⟩, hread, ⟨as', rest'⟩, hmany, heq⟩ := h
    cases heq
    obtain ⟨ha, rfl⟩ := hl.eq_of_read hread
    obtain ⟨hcount, has, rfl⟩ := ih hmany
    exact ⟨by simp [hcount], by simp [ha, has], by simp [List.append_assoc]⟩

theorem exact_list {l : Layout α} (hl : l.Exact) {limit : Nat} (hlimit : limit < 4294967296) :
    (list limit l).Exact where
  read_write {as} rest h := by
    obtain ⟨hlen, has⟩ := Bool.and_eq_true_iff.mp h
    have hlen : as.length ≤ limit := by simpa using hlen
    have hlength := exact_length.read_write (as.flatMap l.write ++ rest)
      ((admits_length as.length).mpr (by omega))
    simp [list, List.append_assoc, hlength, hlen, readMany_flatMap hl rest has]
  eq_of_read {input as rest} h := by
    simp only [list] at h
    split at h
    · next n tail hlength =>
      split at h
      · next hn =>
        obtain ⟨hcount, has, rfl⟩ := eq_of_readMany hl h
        obtain ⟨-, rfl⟩ := exact_length.eq_of_read hlength
        subst hcount
        simp only [list]
        exact ⟨Bool.and_eq_true_iff.mpr ⟨by simpa using hn, has⟩, by simp [List.append_assoc]⟩
      · cases h
    · cases h

/-! Tags. -/

theorem exact_bool : bool.Exact where
  read_write {b} rest _ := by cases b <;> rfl
  eq_of_read {input b rest} h := by
    simp only [bool] at h
    split at h
    · cases h
      exact ⟨rfl, rfl⟩
    · cases h
      exact ⟨rfl, rfl⟩
    · cases h

theorem exact_option {l : Layout α} (hl : l.Exact) : l.option.Exact where
  read_write {x} rest h := by
    cases x with
    | none => rfl
    | some a => simp [option, hl.read_write rest h]
  eq_of_read {input x rest} h := by
    simp only [option] at h
    split at h
    · cases h
      exact ⟨rfl, rfl⟩
    · next input =>
      obtain ⟨⟨a, rest'⟩, hread, heq⟩ := Option.map_eq_some_iff.mp h
      cases heq
      obtain ⟨ha, rfl⟩ := hl.eq_of_read hread
      exact ⟨ha, rfl⟩
    · cases h

/-- A case takes apart what it puts together, and its body is exact. -/
structure Case.Exact (c : Case α) : Prop where
  body : c.body.Exact
  unwrap_wrap : ∀ x, c.unwrap (c.wrap x) = some x
  eq_wrap : ∀ {a x}, c.unwrap a = some x → a = c.wrap x

theorem Case.Exact.of {body : Layout β} {wrap : β → α} {unwrap : α → Option β}
    (hbody : body.Exact) (hwrap : ∀ x, unwrap (wrap x) = some x)
    (hunwrap : ∀ a x, unwrap a = some x → a = wrap x) : (Case.of body wrap unwrap).Exact :=
  ⟨hbody, hwrap, hunwrap _ _⟩

/-- No value belongs to both cases. -/
def Case.Apart (c d : Case α) : Prop := ∀ x, d.unwrap (c.wrap x) = none

theorem writeCase_of_apart {cases : List (Case α)} {tag i : Nat} {c : Case α} {x : c.Body}
    (hcases : cases.Pairwise fun c d => d.Apart c) (hi : cases[i]? = some c)
    (hc : c.unwrap (c.wrap x) = some x) :
    writeCase cases tag (c.wrap x) = (tag + i).toUInt8 :: c.body.write x := by
  induction cases generalizing tag i with
  | nil => simp at hi
  | cons d ds ih =>
    obtain ⟨hd, hds⟩ := List.pairwise_cons.mp hcases
    cases i with
    | zero =>
      obtain rfl : d = c := by simpa using hi
      simp [writeCase, hc]
    | succ i =>
      have hmem : c ∈ ds := List.mem_of_getElem? (by simpa using hi)
      simp only [writeCase, hd c hmem x]
      rw [ih hds (by simpa using hi), Nat.add_assoc, Nat.add_comm 1]

theorem exact_oneOf {cases : List (Case α)} (hlength : cases.length ≤ 256)
    (hcases : ∀ c ∈ cases, c.Exact) (hapart : cases.Pairwise fun c d => d.Apart c) :
    (oneOf cases).Exact where
  read_write {a} rest h := by
    obtain ⟨c, hc, hany⟩ := List.any_eq_true.mp h
    cases hx : c.unwrap a with
    | none => simp [hx] at hany
    | some x =>
      rw [hx] at hany
      obtain rfl := (hcases c hc).eq_wrap hx
      obtain ⟨i, hlt, hi⟩ := List.getElem_of_mem hc
      have hi : cases[i]? = some c := List.getElem?_eq_some_iff.mpr ⟨hlt, hi⟩
      have htag : i % 256 = i := Nat.mod_eq_of_lt (by omega)
      have hread := (hcases c hc).body.read_write rest (show c.body.admits x = true from hany)
      simp only [oneOf]
      rw [writeCase_of_apart hapart hi hx, List.cons_append]
      simp [htag, hi, hread]
  eq_of_read {input a rest} h := by
    simp only [oneOf] at h
    split at h
    · cases h
    · next tag input =>
      split at h
      · next c hc =>
        obtain ⟨⟨x, rest'⟩, hread, heq⟩ := Option.map_eq_some_iff.mp h
        cases heq
        have hmem := List.mem_of_getElem? hc
        obtain ⟨hx, rfl⟩ := (hcases c hmem).body.eq_of_read hread
        have hwrap := (hcases c hmem).unwrap_wrap x
        refine ⟨List.any_eq_true.mpr ⟨c, hmem, by simp [hwrap, hx]⟩, ?_⟩
        simp only [oneOf]
        rw [writeCase_of_apart hapart hc hwrap]
        simp
      · cases h

end RelayLedger.Layout
