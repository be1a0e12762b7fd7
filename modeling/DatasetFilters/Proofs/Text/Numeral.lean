import DatasetFilters.Text.Decimal
import Mathlib.Algebra.Group.Nat.Defs

namespace DatasetFilters.Decimal

theorem toNat_digit {n : Nat} (h : n < 10) : (digit n).toNat = 48 + n := by
  simp [digit]; omega

theorem isDigit_digit {n : Nat} (h : n < 10) : isDigit (digit n) = true := by
  have : ∀ n : Fin 10, isDigit (digit n) = true := by decide
  exact this ⟨n, h⟩

theorem valueFrom_append (acc : Nat) (ds es : Octets) :
    valueFrom acc (ds ++ es) = valueFrom (valueFrom acc ds) es := by
  simp [valueFrom]

theorem value_octetsUpTo {fuel n : Nat} (h : n < 10 ^ fuel) :
    value (octetsUpTo fuel n) = n := by
  induction fuel generalizing n with
  | zero => simp at h; simp [octetsUpTo, value, valueFrom, h]
  | succ fuel ih =>
    unfold octetsUpTo
    split
    · next hn => simp [value, valueFrom, toNat_digit hn]
    · have hq : n / 10 < 10 ^ fuel := by rw [Nat.pow_succ] at h; omega
      have := ih hq
      simp only [value] at this ⊢
      rw [valueFrom_append, this]
      simp only [valueFrom, List.foldl_cons, List.foldl_nil]
      rw [toNat_digit (by omega)]
      omega

theorem lt_ten_pow_log2 (n : Nat) : n < 10 ^ (n.log2 + 1) :=
  Nat.lt_of_lt_of_le Nat.lt_log2_self (Nat.pow_le_pow_left (by decide) _)

theorem value_octets (n : Nat) : value (octets n) = n :=
  value_octetsUpTo (lt_ten_pow_log2 n)

theorem isDigit_of_mem_octetsUpTo {fuel n : Nat} {b : UInt8} (h : b ∈ octetsUpTo fuel n) :
    isDigit b = true := by
  induction fuel generalizing n with
  | zero => simp [octetsUpTo] at h
  | succ fuel ih =>
    unfold octetsUpTo at h
    split at h
    · next hn => simp at h; subst h; exact isDigit_digit hn
    · rcases List.mem_append.1 h with h | h
      · exact ih h
      · simp at h; subst h; exact isDigit_digit (by omega)

theorem isDigit_of_mem_octets {n : Nat} {b : UInt8} (h : b ∈ octets n) : isDigit b = true :=
  isDigit_of_mem_octetsUpTo h

theorem octetsUpTo_head {fuel n : Nat} (h : n < 10 ^ fuel) (hn : 0 < n) :
    ∃ b tail, octetsUpTo fuel n = b :: tail ∧ b ≠ 48 := by
  induction fuel generalizing n with
  | zero => simp at h; omega
  | succ fuel ih =>
    unfold octetsUpTo
    by_cases hs : n < 10
    · have nonzero : ∀ m : Fin 10, 0 < m.val → digit m ≠ 48 := by decide
      rw [if_pos hs]
      exact ⟨_, _, rfl, nonzero ⟨n, hs⟩ hn⟩
    · have hq : n / 10 < 10 ^ fuel := by rw [Nat.pow_succ] at h; omega
      obtain ⟨b, tail, he, hb⟩ := ih hq (by omega)
      rw [if_neg hs, he]
      exact ⟨b, _, rfl, hb⟩

/-- A numeral is not empty, and starts with a zero only if it is the numeral of zero. -/
theorem octets_head (n : Nat) :
    ∃ b tail, octets n = b :: tail ∧ isDigit b = true ∧ (b = 48 → tail = []) := by
  by_cases hn : n = 0
  · subst hn
    exact ⟨48, [], rfl, rfl, fun _ => rfl⟩
  · obtain ⟨b, tail, he, hb⟩ := octetsUpTo_head (lt_ten_pow_log2 n) (by omega)
    refine ⟨b, tail, he, ?_, fun h => absurd h hb⟩
    exact isDigit_of_mem_octets (n := n) (by rw [octets, he]; simp)

theorem length_octetsUpTo_le {fuel n width : Nat} (h : n < 10 ^ width) (hw : 0 < width) :
    (octetsUpTo fuel n).length ≤ width := by
  induction fuel generalizing n width with
  | zero => exact Nat.zero_le width
  | succ fuel ih =>
    unfold octetsUpTo
    by_cases hs : n < 10
    · rw [if_pos hs]
      exact hw
    · obtain ⟨width, rfl⟩ : ∃ k, width = k + 1 := ⟨width - 1, by omega⟩
      have hq : n / 10 < 10 ^ width := by rw [Nat.pow_succ] at h; omega
      have positive : 0 < width := by
        rcases Nat.eq_zero_or_pos width with rfl | hp
        · simp at h; omega
        · exact hp
      rw [if_neg hs, List.length_append]
      exact Nat.succ_le_succ (ih hq positive)

/-- A number that fits is written with just as many digits as are wanted. -/
theorem length_padded {width n : Nat} (h : n < 10 ^ width) (hw : 0 < width) :
    (padded width n).length = width := by
  have hle : (octets n).length ≤ width := length_octetsUpTo_le h hw
  simp only [padded, List.length_append, List.length_replicate]
  omega

theorem length_padded_le {least width n : Nat} (h : n < 10 ^ width) (hw : 0 < width)
    (hl : least ≤ width) : (padded least n).length ≤ width := by
  have hle : (octets n).length ≤ width := length_octetsUpTo_le h hw
  simp only [padded, List.length_append, List.length_replicate]
  omega

theorem padded_ne_nil (width n : Nat) : padded width n ≠ [] := by
  obtain ⟨b, tail, he, -, -⟩ := octets_head n
  simp [padded, he]

theorem isDigit_of_mem_padded {width n : Nat} {b : UInt8} (h : b ∈ padded width n) :
    isDigit b = true := by
  rcases List.mem_append.mp h with h | h
  · rw [List.eq_of_mem_replicate h]
    rfl
  · exact isDigit_of_mem_octets h

theorem valueFrom_zero_replicate (k : Nat) : valueFrom 0 (List.replicate k 48) = 0 := by
  induction k with
  | zero => rfl
  | succ k ih => exact ih

/-- Zeros in front make no difference to the number that is read. -/
theorem value_padded (width n : Nat) : value (padded width n) = n := by
  simp only [padded, value, valueFrom_append, valueFrom_zero_replicate]
  exact value_octets n

theorem isDigit_ofNat {b : UInt8} (hb : isDigit b = true) :
    (Char.ofNat b.toNat).isDigit = true ∧ UInt8.ofNat (Char.ofNat b.toNat).toNat = b := by
  have all : ∀ n : Fin 256, isDigit (UInt8.ofNat n) = true →
      (Char.ofNat n).isDigit = true ∧ UInt8.ofNat (Char.ofNat n).toNat = UInt8.ofNat n := by
    decide +kernel
  have h := all ⟨b.toNat, b.toNat_lt⟩
  simp only [UInt8.ofNat_toNat] at h
  exact h hb

theorem isDigit_of_mem_toChars {ds : Octets} (h : ∀ d ∈ ds, isDigit d = true) {c : Char}
    (hc : c ∈ toChars ds) : c.isDigit = true := by
  obtain ⟨d, hd, rfl⟩ := List.mem_map.mp hc
  exact (isDigit_ofNat (h d hd)).1

theorem ofChars_toChars {ds : Octets} (h : ∀ d ∈ ds, isDigit d = true) :
    ofChars (toChars ds) = ds := by
  induction ds with
  | nil => rfl
  | cons d ds ih =>
    have head := (isDigit_ofNat (h d List.mem_cons_self)).2
    have tail := ih fun e he => h e (List.mem_cons_of_mem _ he)
    simp only [ofChars, toChars, List.map_cons] at tail ⊢
    rw [head, tail]

end DatasetFilters.Decimal
