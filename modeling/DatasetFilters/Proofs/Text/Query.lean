import DatasetFilters.Proofs.Text.Cut
import DatasetFilters.Proofs.Text.Lossy
import DatasetFilters.Proofs.Text.Numeral

namespace DatasetFilters

namespace Decimal

theorem encode_ascii : ∀ n < 128, String.utf8EncodeChar (Char.ofNat n) = [UInt8.ofNat n] := by
  decide

theorem ofText_text (n : Nat) : Octets.ofText (text n) = octets n := by
  have written (ds : Octets) (h : ∀ d ∈ ds, isDigit d = true) :
      (toChars ds).flatMap String.utf8EncodeChar = ds := by
    induction ds with
    | nil => rfl
    | cons d ds ih =>
      obtain ⟨hd, hds⟩ := List.forall_mem_cons.mp h
      have ascii : d.toNat < 128 := by
        rw [isDigit, Bool.and_eq_true, decide_eq_true_eq, decide_eq_true_eq, UInt8.le_iff_toNat_le,
          UInt8.le_iff_toNat_le] at hd
        exact Nat.lt_of_le_of_lt hd.2 (by decide)
      change String.utf8EncodeChar (Char.ofNat d.toNat) ++ (toChars ds).flatMap String.utf8EncodeChar = _
      rw [encode_ascii _ ascii, ih hds, UInt8.ofNat_toNat]
      rfl
  rw [text, Octets.ofText_ofList, written _ fun d mem => isDigit_of_mem_octets mem]

end Decimal

namespace Percent

theorem keptInForm_hexDigit : ∀ n < 16, keptInForm (hexDigit n) = true := by
  decide

/-- The octets of a written value: a plus sign, a percent sign, or one that is kept. -/
theorem of_mem_form {s : String} {b : UInt8} (h : b ∈ form s) :
    b = 43 ∨ b = 37 ∨ keptInForm b = true := by
  obtain ⟨a, -, mem⟩ := List.mem_flatMap.mp h
  split at mem
  · exact .inl (List.mem_singleton.mp mem)
  · split at mem
    next keeps => exact .inr (.inr (List.mem_singleton.mp mem ▸ keeps))
    next =>
      have := a.toNat_lt
      simp only [escape, List.mem_cons, List.not_mem_nil, or_false] at mem
      rcases mem with rfl | rfl | rfl
      · exact .inr (.inl rfl)
      · exact .inr (.inr (keptInForm_hexDigit _ (by omega)))
      · exact .inr (.inr (keptInForm_hexDigit _ (by omega)))

/-- The octets that the query of an address is cut at: a fragment, a pair, a value. -/
theorem notMem_form {b : UInt8} (h : b = 35 ∨ b = 38 ∨ b = 61) (s : String) : b ∉ form s := by
  intro mem
  rcases h with rfl | rfl | rfl <;> exact absurd (of_mem_form mem) (by decide)

theorem map_plus_form (s : String) :
    (form s).map (fun b => if b = 43 then 32 else b) =
      encodeWith (fun b => b == 32 || keptInForm b) (Octets.ofText s) := by
  rw [form, encodeWith, List.map_flatMap]
  refine List.flatMap_congr fun b _ => ?_
  by_cases space : b = 32
  · simp [space]
  · by_cases keeps : keptInForm b = true
    · have plus : b ≠ 43 := by
        rintro rfl
        cases keeps
      simp [space, keeps, plus]
    · have digit (n : Nat) (small : n < 16) : hexDigit n ≠ 43 := by
        intro same
        have := keptInForm_hexDigit n small
        rw [same] at this
        cases this
      have := b.toNat_lt
      simp [space, keeps, escape, digit (b.toNat / 16) (by omega), digit (b.toNat % 16) (by omega)]

/-- What is written as a value of a query is read back, whatever characters it has. -/
theorem decodeForm_form (s : String) : decodeForm (form s) = s := by
  rw [decodeForm, map_plus_form, decode_encodeWith rfl, Octets.textLossy_ofText]

theorem decodeForm_ofText {s : String} (plus : 43 ∉ Octets.ofText s) (percent : 37 ∉ Octets.ofText s) :
    decodeForm (Octets.ofText s) = s := by
  have kept : (Octets.ofText s).map (fun b => if b = 43 then 32 else b) = Octets.ofText s := by
    refine (List.map_congr_left fun b mem => if_neg ?_).trans (List.map_id _)
    rintro rfl
    exact plus mem
  rw [decodeForm, kept, decode_of_notMem percent, Octets.textLossy_ofText]

theorem notMem_octets {b : UInt8} (h : Decimal.isDigit b = false) (n : Nat) : b ∉ Decimal.octets n := by
  intro mem
  rw [Decimal.isDigit_of_mem_octets mem] at h
  cases h

/-- Numbers stand in a query as they are. -/
theorem decodeForm_octets (n : Nat) : decodeForm (Decimal.octets n) = Decimal.text n := by
  rw [← Decimal.ofText_text]
  refine decodeForm_ofText ?_ ?_ <;> rw [Decimal.ofText_text] <;> exact notMem_octets rfl n

theorem pairs_append (query query' : Octets) :
    pairs (query ++ 38 :: query') = pairs query ++ pairs query' := by
  rw [pairs, Text.splitAt_eq_splitOn, List.splitOn_append_cons_self, List.filterMap_append, pairs, pairs,
    Text.splitAt_eq_splitOn, Text.splitAt_eq_splitOn]

theorem pairs_of_notMem {name value : Octets} (pair : 38 ∉ name ∧ 38 ∉ value) (equals : 61 ∉ name) :
    pairs (name ++ 61 :: value) = [(decodeForm name, decodeForm value)] := by
  have whole : Text.splitAt 38 (name ++ 61 :: value) = [name ++ 61 :: value] := by
    refine Text.splitAt_eq_cons_iff.mpr ⟨(List.append_nil _).symm, List.forall_mem_singleton.mpr ?_⟩
    simp [pair]
  have ordinary : ∀ b ∈ name, (b != 61) = true := fun b mem =>
    bne_iff_ne.mpr fun same => equals (same ▸ mem)
  rw [pairs, whole]
  simp [List.takeWhile_append_of_pos ordinary, List.dropWhile_append_of_pos ordinary]

end Percent

end DatasetFilters
