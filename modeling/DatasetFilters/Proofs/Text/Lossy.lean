import DatasetFilters.Proofs.Text.Percent

namespace DatasetFilters.Octets

theorem followers?_two : ∀ n < 32, 2 ≤ n →
    followers? (UInt8.ofNat (n + 192)) = some (0x80, 0xBF, 1) := by
  decide

/-- The first of three octets says which second ones may follow; none of these encodes a
surrogate. -/
theorem followers?_three : ∀ n < 16, followers? (UInt8.ofNat (n + 224)) =
    some (.ofNat (if n = 0 then 0xA0 else 0x80), .ofNat (if n = 13 then 0x9F else 0xBF), 2) := by
  decide

theorem followers?_four : ∀ n < 5, followers? (UInt8.ofNat (n + 240)) =
    some (.ofNat (if n = 0 then 0x90 else 0x80), .ofNat (if n = 4 then 0x8F else 0xBF), 3) := by
  decide

theorem between_ofNat (low high : Nat) {n : Nat} (hlow : low ≤ n) (hhigh : n ≤ high) (fits : high < 256) :
    UInt8.ofNat low ≤ UInt8.ofNat n ∧ UInt8.ofNat n ≤ UInt8.ofNat high := by
  rw [UInt8.le_iff_toNat_le, UInt8.le_iff_toNat_le, UInt8.toNat_ofNat', UInt8.toNat_ofNat',
    UInt8.toNat_ofNat']
  omega

theorem wellFormedTail_append {low high b : UInt8} {tail : Octets} (first : low ≤ b ∧ b ≤ high)
    (others : ∀ t ∈ tail, 0x80 ≤ t ∧ t ≤ 0xBF) (rest : Octets) :
    wellFormedTail low high (tail.length + 1) (b :: tail ++ rest) = tail.length + 1 := by
  induction tail generalizing low high b with
  | nil => simp [wellFormedTail, first]
  | cons t tail ih =>
    obtain ⟨ht, others⟩ := List.forall_mem_cons.mp others
    rw [List.cons_append, wellFormedTail, if_pos (by simpa using first), List.length_cons, ih ht others]
    omega

/-- A character is read from a lead and its followers, whatever is behind them. -/
theorem charsLossy_lead {lead low high b : UInt8} {tail : Octets} (beyond : ¬lead < 0x80)
    (follow : followers? lead = some (low, high, tail.length + 1)) (first : low ≤ b ∧ b ≤ high)
    (others : ∀ t ∈ tail, 0x80 ≤ t ∧ t ≤ 0xBF) (fuel : Nat) (rest : Octets) :
    charsLossy (fuel + 1) (lead :: b :: tail ++ rest) =
      Char.ofNat (codePoint lead (b :: tail)) :: charsLossy fuel rest := by
  have whole := wellFormedTail_append first others rest
  have taken : (b :: tail ++ rest).take (tail.length + 1) = b :: tail := List.take_left' rfl
  have left : (b :: tail ++ rest).drop (tail.length + 1) = rest := List.drop_left' rfl
  rw [List.cons_append, charsLossy, if_neg beyond, follow]
  simp only [whole, taken, left, if_true]

/-- Each character is read from just the octets that encode it. -/
theorem charsLossy_encode (c : Char) (fuel : Nat) (rest : Octets) :
    charsLossy (fuel + 1) (String.utf8EncodeChar c ++ rest) = c :: charsLossy fuel rest := by
  have point : c.val.toNat < 0xD800 ∨ 0xDFFF < c.val.toNat ∧ c.val.toNat < 0x110000 := c.valid
  have same {n : Nat} (h : n = c.val.toNat) : Char.ofNat n = c := by
    rw [h]
    exact Char.ofNat_toNat c
  have beyond {n : Nat} (low : 0x80 ≤ n) (high : n < 256) : ¬UInt8.ofNat n < 0x80 := by
    rw [UInt8.lt_iff_toNat_lt, UInt8.toNat_ofNat', Nat.mod_eq_of_lt high]
    exact Nat.not_lt.mpr low
  have follows (n : Nat) : 0x80 ≤ UInt8.ofNat (n % 64 + 128) ∧ UInt8.ofNat (n % 64 + 128) ≤ 0xBF :=
    between_ofNat 0x80 0xBF (by omega) (by omega) (by omega)
  unfold String.utf8EncodeChar
  simp only
  generalize c.val.toNat = v at *
  split
  next ascii =>
    have small : UInt8.ofNat v < 0x80 := by
      rw [UInt8.lt_iff_toNat_lt, UInt8.toNat_ofNat']
      change v % 256 < 128
      omega
    rw [List.cons_append, List.nil_append, charsLossy, if_pos small, same]
    rw [UInt8.toNat_ofNat']
    omega
  next =>
  split
  next two =>
    have follow := followers?_two (v / 64 % 32) (by omega) (by omega)
    rw [charsLossy_lead (beyond (by omega) (by omega)) follow (follows v) (by simp), same]
    simp only [codePoint, List.length_cons, List.length_nil, List.foldl_cons, List.foldl_nil,
      UInt8.toNat_ofNat']
    omega
  next =>
  split
  next three =>
    have follow := followers?_three (v / 4096 % 16) (by omega)
    have first := between_ofNat (if v / 4096 % 16 = 0 then 0xA0 else 0x80)
      (if v / 4096 % 16 = 13 then 0x9F else 0xBF) (show _ ≤ v / 64 % 64 + 128 by split <;> omega)
      (by split <;> omega) (by split <;> omega)
    have others : ∀ t ∈ [UInt8.ofNat (v % 64 + 128)], 0x80 ≤ t ∧ t ≤ 0xBF :=
      List.forall_mem_singleton.mpr (follows v)
    rw [charsLossy_lead (beyond (by omega) (by omega)) follow first others, same]
    simp only [codePoint, List.length_cons, List.length_nil, List.foldl_cons, List.foldl_nil,
      UInt8.toNat_ofNat']
    omega
  next four =>
    have follow := followers?_four (v / 262144 % 8) (by omega)
    have first := between_ofNat (if v / 262144 % 8 = 0 then 0x90 else 0x80)
      (if v / 262144 % 8 = 4 then 0x8F else 0xBF) (show _ ≤ v / 4096 % 64 + 128 by split <;> omega)
      (by split <;> omega) (by split <;> omega)
    have others : ∀ t ∈ [UInt8.ofNat (v / 64 % 64 + 128), UInt8.ofNat (v % 64 + 128)],
        0x80 ≤ t ∧ t ≤ 0xBF :=
      List.forall_mem_cons.mpr ⟨follows (v / 64), List.forall_mem_singleton.mpr (follows v)⟩
    rw [charsLossy_lead (beyond (by omega) (by omega)) follow first others, same]
    simp only [codePoint, List.length_cons, List.length_nil, List.foldl_cons, List.foldl_nil,
      UInt8.toNat_ofNat']
    omega

/-- Text is read back from its octets by the reader that puts up with faulty ones. -/
theorem textLossy_ofText (s : String) : textLossy (ofText s) = s := by
  have read (cs : List Char) (fuel : Nat) (enough : (cs.flatMap String.utf8EncodeChar).length ≤ fuel) :
      charsLossy fuel (cs.flatMap String.utf8EncodeChar) = cs := by
    induction cs generalizing fuel with
    | nil => cases fuel <;> rfl
    | cons c cs ih =>
      have some_octets : 1 ≤ (String.utf8EncodeChar c).length := by
        rw [String.length_utf8EncodeChar]
        exact c.utf8Size_pos
      rw [List.flatMap_cons, List.length_append] at enough
      cases fuel with
      | zero => omega
      | succ fuel => rw [List.flatMap_cons, charsLossy_encode, ih fuel (by omega)]
  obtain ⟨cs, rfl⟩ : ∃ cs, s = String.ofList cs := ⟨s.toList, String.ofList_toList.symm⟩
  rw [ofText_ofList, textLossy, read cs _ (Nat.le_refl _)]

end DatasetFilters.Octets
