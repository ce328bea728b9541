import RelayLedger.Basic

/-!
Tables from keys to values in which every key has a value: a key that was never written holds
the blank value of the type, and writing the blank value clears the key. The entries that are
kept stand in ascending order of their keys and are never blank, so two tables with the same
values at every key are equal, whatever was written to them and in which order.
-/
namespace RelayLedger

/-- The strict order in which a table lists its keys. -/
class Key (K : Type) where
  before : K → K → Bool
  irrefl : ∀ a, before a a = false
  trans : ∀ {a b c}, before a b = true → before b c = true → before a c = true
  connected : ∀ {a b}, before a b = false → before b a = false → a = b

/-- The value of a key that holds nothing. -/
class Blank (V : Type) where
  blank : V

export Blank (blank)

instance : Key UInt64 where
  before a b := decide (a < b)
  irrefl a := by simp
  trans hab hbc := by
    simp only [decide_eq_true_eq, UInt64.lt_iff_toNat_lt] at *
    omega
  connected hab hba := by
    simp only [decide_eq_false_iff_not, UInt64.lt_iff_toNat_lt] at *
    exact UInt64.toNat_inj.mp (by omega)

namespace Bytes

/-- Dictionary order: the first byte that differs decides, and a shorter string comes first. -/
def before : List UInt8 → List UInt8 → Bool
  | _, [] => false
  | [], _ :: _ => true
  | a :: as, b :: bs => decide (a < b) || (a == b && before as bs)

theorem before_irrefl (as : List UInt8) : before as as = false := by
  induction as with
  | nil => rfl
  | cons a as ih => simp [before, ih]

theorem before_trans {as bs cs : List UInt8} :
    before as bs = true → before bs cs = true → before as cs = true := by
  induction as generalizing bs cs with
  | nil => cases bs <;> cases cs <;> simp [before]
  | cons a as ih =>
    cases bs with
    | nil => simp [before]
    | cons b bs =>
      cases cs with
      | nil => simp [before]
      | cons c cs =>
        simp only [before, Bool.or_eq_true, Bool.and_eq_true, decide_eq_true_eq, beq_iff_eq,
          UInt8.lt_iff_toNat_lt]
        rintro (hab | ⟨rfl, hab⟩) (hbc | ⟨rfl, hbc⟩)
        · exact .inl (by omega)
        · exact .inl hab
        · exact .inl hbc
        · exact .inr ⟨rfl, ih hab hbc⟩

theorem before_connected {as bs : List UInt8} :
    before as bs = false → before bs as = false → as = bs := by
  induction as generalizing bs with
  | nil => cases bs <;> simp [before]
  | cons a as ih =>
    cases bs with
    | nil => simp [before]
    | cons b bs =>
      simp only [before, Bool.or_eq_false_iff, Bool.and_eq_false_imp, decide_eq_false_iff_not,
        beq_iff_eq, UInt8.lt_iff_toNat_lt]
      rintro ⟨hab, has⟩ ⟨hba, hbs⟩
      have hEq : a = b := UInt8.toNat_inj.mp (by omega)
      rw [hEq, ih (has hEq) (hbs hEq.symm)]

end Bytes

instance : Key (List UInt8) where
  before := Bytes.before
  irrefl := Bytes.before_irrefl
  trans := Bytes.before_trans
  connected := Bytes.before_connected

instance {V : Type} : Blank (Option V) := ⟨none⟩

instance {V : Type} : Blank (List V) := ⟨[]⟩

instance : Blank UInt32 := ⟨0⟩

@[simp] theorem blank_option {V : Type} : (blank : Option V) = none := rfl

@[simp] theorem blank_list {V : Type} : (blank : List V) = [] := rfl

@[simp] theorem blank_uint32 : (blank : UInt32) = 0 := rfl

/-- A finite table: `entries` are the keys whose value is not blank. -/
structure Table (K V : Type) [Key K] [Blank V] where
  entries : List (K × V)
  ascending : entries.Pairwise fun a b => Key.before a.1 b.1 = true
  kept : ∀ e ∈ entries, e.2 ≠ blank

namespace Table

variable {K V : Type} [Key K] [Blank V]

theorem ne_of_before {a b : K} (h : Key.before a b = true) : a ≠ b := by
  rintro rfl
  simp [Key.irrefl] at h

/-- The entries with `(k, v)` added at its place; `k` is not among them. -/
def place (k : K) (v : V) : List (K × V) → List (K × V)
  | [] => [(k, v)]
  | e :: rest => if Key.before k e.1 then (k, v) :: e :: rest else e :: place k v rest

omit [Blank V] in
theorem mem_place {k : K} {v : V} {x : K × V} {es : List (K × V)} :
    x ∈ place k v es ↔ x = (k, v) ∨ x ∈ es := by
  induction es with
  | nil => simp [place]
  | cons e es ih =>
    unfold place
    split <;> simp [ih, or_left_comm]

omit [Blank V] in
theorem pairwise_place {k : K} {v : V} {es : List (K × V)}
    (hes : es.Pairwise fun a b => Key.before a.1 b.1 = true) (hk : ∀ e ∈ es, e.1 ≠ k) :
    (place k v es).Pairwise fun a b => Key.before a.1 b.1 = true := by
  induction es with
  | nil => simp [place]
  | cons e es ih =>
    have hrest := List.pairwise_cons.mp hes
    unfold place
    split
    case isTrue hlt =>
      refine List.pairwise_cons.mpr ⟨fun x hx => ?_, hes⟩
      rcases List.mem_cons.mp hx with rfl | hx
      · exact hlt
      · exact Key.trans hlt (hrest.1 x hx)
    case isFalse hlt =>
      have hek : Key.before e.1 k = true := by
        cases hb : Key.before e.1 k with
        | true => rfl
        | false =>
          exact absurd (Key.connected hb (by simpa using hlt)) (hk e List.mem_cons_self)
      refine List.pairwise_cons.mpr
        ⟨fun x hx => ?_, ih hrest.2 fun x hx => hk x (List.mem_cons_of_mem _ hx)⟩
      rcases mem_place.mp hx with rfl | hx
      · exact hek
      · exact hrest.1 x hx

omit [Blank V] in
theorem length_place (k : K) (v : V) (es : List (K × V)) :
    (place k v es).length = es.length + 1 := by
  induction es with
  | nil => rfl
  | cons e es ih =>
    unfold place
    split <;> simp [ih]

/-- The table in which every key is blank. -/
def empty : Table K V := ⟨[], .nil, by simp⟩

instance : Blank (Table K V) := ⟨empty⟩

/-- The number of keys whose value is not blank. -/
def size (t : Table K V) : Nat := t.entries.length

theorem eq_of_entries {t u : Table K V} (h : t.entries = u.entries) : t = u := by
  cases t; cases u; cases h; rfl

variable [DecidableEq K]

instance [DecidableEq V] : DecidableEq (Table K V) := fun t u =>
  decidable_of_iff (t.entries = u.entries) ⟨eq_of_entries, fun h => h ▸ rfl⟩

/-- The value at a key. -/
def get (t : Table K V) (k : K) : V :=
  ((t.entries.find? fun e => e.1 = k).map (·.2)).getD blank

/-- The table with the key made blank. -/
def clear (t : Table K V) (k : K) : Table K V where
  entries := t.entries.filter fun e => e.1 ≠ k
  ascending := t.ascending.filter _
  kept e he := t.kept e (List.mem_filter.mp he).1

theorem key_ne_of_mem_clear {t : Table K V} {k : K} {e : K × V} (he : e ∈ (t.clear k).entries) :
    e.1 ≠ k := by
  simpa using (List.mem_filter.mp he).2

variable [DecidableEq V]

/-- The table with `v` at `k`. -/
def set (t : Table K V) (k : K) (v : V) : Table K V :=
  if hv : v = blank then t.clear k else
    { entries := place k v (t.clear k).entries
      ascending := pairwise_place (t.clear k).ascending fun _ => key_ne_of_mem_clear
      kept := fun e he => (mem_place.mp he).elim (fun h => h ▸ hv) ((t.clear k).kept e) }

/-- The table with `f` applied to the value at `k`. -/
def modify (t : Table K V) (k : K) (f : V → V) : Table K V :=
  t.set k (f (t.get k))

/-! Reading back what was written. -/

omit [DecidableEq V]

@[simp] theorem get_empty (k : K) : (empty : Table K V).get k = blank := rfl

theorem get_of_mem {t : Table K V} {k : K} {v : V} (h : (k, v) ∈ t.entries) : t.get k = v := by
  obtain ⟨es, ascending, kept⟩ := t
  simp only [get] at h ⊢
  clear kept
  induction es with
  | nil => simp at h
  | cons e es ih =>
    have hes := List.pairwise_cons.mp ascending
    rcases List.mem_cons.mp h with rfl | h
    · simp
    · have hne : e.1 ≠ k := ne_of_before (hes.1 _ h)
      simpa [List.find?_cons, hne] using ih hes.2 h

theorem mem_of_get {t : Table K V} {k : K} (h : t.get k ≠ blank) : (k, t.get k) ∈ t.entries := by
  unfold get at h ⊢
  cases hf : t.entries.find? fun e => decide (e.1 = k) with
  | none => simp [hf] at h
  | some e =>
    have hk : e.1 = k := by simpa using List.find?_some hf
    subst hk
    simpa [hf] using List.mem_of_find?_eq_some hf

theorem mem_entries_iff {t : Table K V} {k : K} {v : V} :
    (k, v) ∈ t.entries ↔ v ≠ blank ∧ t.get k = v := by
  constructor
  · exact fun h => ⟨t.kept _ h, get_of_mem h⟩
  · rintro ⟨hv, rfl⟩
    exact mem_of_get hv

omit [Blank V] [DecidableEq K] in
/-- Two ascending lists with the same members are the same list. -/
private theorem entries_ext {es fs : List (K × V)}
    (hes : es.Pairwise fun a b => Key.before a.1 b.1 = true)
    (hfs : fs.Pairwise fun a b => Key.before a.1 b.1 = true)
    (h : ∀ e, e ∈ es ↔ e ∈ fs) : es = fs := by
  induction es generalizing fs with
  | nil =>
    cases fs with
    | nil => rfl
    | cons f fs => simpa using h f
  | cons e es ih =>
    cases fs with
    | nil => simpa using h e
    | cons f fs =>
      have hes' := List.pairwise_cons.mp hes
      have hfs' := List.pairwise_cons.mp hfs
      have hfirst : e = f := by
        rcases List.mem_cons.mp ((h e).mp List.mem_cons_self) with hef | he
        · exact hef
        · rcases List.mem_cons.mp ((h f).mpr List.mem_cons_self) with hfe | hf
          · exact hfe.symm
          · have hround := Key.trans (hes'.1 f hf) (hfs'.1 e he)
            simp [Key.irrefl] at hround
      subst hfirst
      have hne (x : K × V) (hx : x ∈ es) : x ≠ e := by
        rintro rfl
        simpa [Key.irrefl] using hes'.1 x hx
      have hne' (x : K × V) (hx : x ∈ fs) : x ≠ e := by
        rintro rfl
        simpa [Key.irrefl] using hfs'.1 x hx
      rw [ih hes'.2 hfs'.2 fun x => ⟨fun hx => ?_, fun hx => ?_⟩]
      · exact (List.mem_cons.mp ((h x).mp (List.mem_cons_of_mem _ hx))).resolve_left (hne x hx)
      · exact (List.mem_cons.mp ((h x).mpr (List.mem_cons_of_mem _ hx))).resolve_left (hne' x hx)

/-- The keys that hold something. -/
def keys (t : Table K V) : List K := t.entries.map (·.1)

theorem mem_keys {t : Table K V} {k : K} : k ∈ t.keys ↔ t.get k ≠ blank := by
  unfold keys
  rw [List.mem_map]
  constructor
  · rintro ⟨⟨k, v⟩, he, rfl⟩
    rw [get_of_mem he]
    exact t.kept _ he
  · intro h
    exact ⟨_, mem_of_get h, rfl⟩

omit [DecidableEq K] in
theorem nodup_keys (t : Table K V) : t.keys.Nodup := by
  unfold keys
  rw [List.Nodup, List.pairwise_map]
  exact t.ascending.imp ne_of_before

omit [DecidableEq K] in
theorem length_keys (t : Table K V) : t.keys.length = t.size := List.length_map ..

/-- A table is its values. -/
theorem ext_get {t u : Table K V} (h : ∀ k, t.get k = u.get k) : t = u := by
  refine eq_of_entries (entries_ext t.ascending u.ascending fun ⟨k, v⟩ => ?_)
  rw [mem_entries_iff, mem_entries_iff, h k]

@[simp] theorem get_clear (t : Table K V) (k a : K) :
    (t.clear k).get a = if a = k then blank else t.get a := by
  split
  case isTrue hak =>
    subst hak
    by_cases h : (t.clear a).get a = blank
    · exact h
    · exact absurd rfl (key_ne_of_mem_clear (mem_of_get h))
  case isFalse hak =>
    by_cases h : t.get a = blank
    · by_cases hc : (t.clear k).get a = blank
      · rw [h, hc]
      · exact (get_of_mem (List.mem_filter.mp (mem_of_get hc)).1).symm
    · exact get_of_mem (List.mem_filter.mpr ⟨mem_of_get h, by simpa using hak⟩)

variable [DecidableEq V]

theorem get_set (t : Table K V) (k a : K) (v : V) :
    (t.set k v).get a = if a = k then v else t.get a := by
  unfold set
  split
  case isTrue hv => simp [hv]
  case isFalse hv =>
    split
    case isTrue hak =>
      subst hak
      exact get_of_mem (mem_place.mpr (.inl rfl))
    case isFalse hak =>
      have hclear := get_clear t k a
      rw [if_neg hak] at hclear
      rw [← hclear]
      by_cases h : (t.clear k).get a = blank
      · refine Decidable.byContradiction fun hne => ?_
        rw [h] at hne
        rcases mem_place.mp (mem_of_get hne) with heq | hmem
        · exact hak (Prod.mk.inj heq).1
        · exact hne ((get_of_mem hmem).symm.trans h)
      · exact get_of_mem (mem_place.mpr (.inr (mem_of_get h)))

@[simp] theorem get_set_self (t : Table K V) (k : K) (v : V) : (t.set k v).get k = v := by
  simp [get_set]

@[simp] theorem get_set_of_ne (t : Table K V) {k a : K} (v : V) (h : a ≠ k) :
    (t.set k v).get a = t.get a := by
  simp [get_set, h]

@[simp] theorem get_modify (t : Table K V) (k a : K) (f : V → V) :
    (t.modify k f).get a = if a = k then f (t.get k) else t.get a :=
  get_set t k a (f (t.get k))

/-- Writing back what a key holds changes nothing. -/
@[simp] theorem set_get (t : Table K V) (k : K) : t.set k (t.get k) = t := by
  refine ext_get fun a => ?_
  rw [get_set]
  split
  · next h => rw [h]
  · rfl

@[simp] theorem set_set (t : Table K V) (k : K) (v w : V) : (t.set k v).set k w = t.set k w := by
  refine ext_get fun a => ?_
  simp only [get_set]
  split <;> rfl

/-- Writes to different keys may trade places. -/
theorem set_comm (t : Table K V) {j k : K} (v w : V) (h : j ≠ k) :
    (t.set j v).set k w = (t.set k w).set j v := by
  refine ext_get fun a => ?_
  simp only [get_set]
  split
  · next hk => rw [if_neg fun hj => h (hj.symm.trans hk)]
  · rfl

omit [Blank V] [DecidableEq V] in
private theorem length_filter_key {es : List (K × V)} (k : K)
    (hes : es.Pairwise fun a b => Key.before a.1 b.1 = true) :
    (es.filter fun e => e.1 ≠ k).length +
      (if (es.find? fun e => e.1 = k).isSome then 1 else 0) = es.length := by
  induction es with
  | nil => rfl
  | cons e es ih =>
    have hrest := List.pairwise_cons.mp hes
    by_cases hk : e.1 = k
    · have hnone : es.filter (fun e => e.1 ≠ k) = es := by
        refine List.filter_eq_self.mpr fun x hx => ?_
        have := ne_of_before (hrest.1 x hx)
        simpa using fun h => this (hk.trans h.symm)
      rw [List.filter_cons_of_neg (by simpa using hk), hnone]
      simp [hk]
    · have := ih hrest.2
      rw [List.filter_cons_of_pos (by simpa using hk), List.find?_cons_of_neg (by simpa using hk)]
      simp only [List.length_cons] at this ⊢
      omega

private theorem size_clear (t : Table K V) (k : K) :
    (t.clear k).size + (if t.get k = blank then 0 else 1) = t.size := by
  rw [size, size, ← length_filter_key k t.ascending]
  cases hf : t.entries.find? fun e => decide (e.1 = k) with
  | none => simp [clear, get, hf]
  | some e =>
    have hmem := List.mem_of_find?_eq_some hf
    simp [clear, get, hf, t.kept e hmem]

/-- A write adds the new entry to the count and takes the old one off. -/
theorem size_set (t : Table K V) (k : K) (v : V) :
    (t.set k v).size + (if t.get k = blank then 0 else 1) =
      t.size + (if v = blank then 0 else 1) := by
  have hclear := size_clear t k
  unfold set
  split
  case isTrue hv => simpa [hv] using hclear
  case isFalse hv =>
    simp only [size, length_place] at hclear ⊢
    omega

end Table

end RelayLedger
