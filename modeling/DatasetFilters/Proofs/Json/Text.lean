import DatasetFilters.Json.Parser
import DatasetFilters.Json.Printer
import Mathlib.Tactic.SplitIfs

namespace DatasetFilters.Json

theorem textOctets?_of_hexQuad?_none {a b c d : UInt8} (rest : Octets)
    (hq : hexQuad? a b c d = none) :
    textOctets? (92 :: 117 :: a :: b :: c :: d :: rest) = none := by
  by_cases hr : ∃ e f g h rest', rest = 92 :: 117 :: e :: f :: g :: h :: rest'
  · obtain ⟨e, f, g, h, rest', rfl⟩ := hr
    rw [textOctets?.eq_3, hq]
    rfl
  · rw [textOctets?.eq_4 _ _ _ _ _ (fun e f g h rest' he => hr ⟨e, f, g, h, rest', he⟩), hq]
    rfl

/-- An escape of four digits that names no surrogate stands for its code point, whatever follows. -/
theorem textOctets?_of_hexQuad? {a b c d : UInt8} {n : Nat} (rest : Octets)
    (hq : hexQuad? a b c d = some n) (hn : n < 0xD800) :
    textOctets? (92 :: 117 :: a :: b :: c :: d :: rest) =
      (textOctets? rest).map (prepend (encodePoint? n)) := by
  by_cases hr : ∃ e f g h rest', rest = 92 :: 117 :: e :: f :: g :: h :: rest'
  · obtain ⟨e, f, g, h, rest', rfl⟩ := hr
    have low : (decide (0xD800 ≤ n) && decide (n < 0xDC00)) = false := by simp; omega
    rw [textOctets?.eq_3, hq]
    cases hm : hexQuad? e f g h with
    | none =>
      rw [textOctets?_of_hexQuad?_none rest' hm]
      rfl
    | some m =>
      simp only [Option.bind_eq_bind, Option.bind_some, low, Bool.false_eq_true, if_false]
      cases textOctets? (92 :: 117 :: e :: f :: g :: h :: rest') <;> rfl
  · rw [textOctets?.eq_4 _ _ _ _ _ (fun e f g h rest' he => hr ⟨e, f, g, h, rest', he⟩), hq]
    cases textOctets? rest <;> rfl

theorem textOctets?_of_plainEscape? {e b : UInt8} (rest : Octets) (he : plainEscape? e = some b) :
    textOctets? (92 :: e :: rest) = (textOctets? rest).map (prepend (some [b])) := by
  have hu : e ≠ 117 := by
    intro same
    obtain rfl := same
    simp [plainEscape?] at he
  rw [textOctets?.eq_5 _ _ (fun _ _ _ _ _ _ _ _ _ h _ => hu h) (fun _ _ _ _ _ h _ => hu h), he]
  cases textOctets? rest <;> rfl

/-- An octet that needs no escape stands for itself. -/
theorem textOctets?_of_plain {b : UInt8} (rest : Octets) (hc : 32 ≤ b) (hq : b ≠ 34) (hs : b ≠ 92) :
    textOctets? (b :: rest) = (textOctets? rest).map (prepend (some [b])) := by
  have hlt : ¬ b < 32 := UInt8.not_lt.mpr hc
  rw [textOctets?.eq_6 _ _ hq (fun _ _ _ _ _ _ _ _ _ h _ => hs h) (fun _ _ _ _ _ h _ => hs h)
    (fun _ _ h _ => hs h)]
  simp [hlt, hs]

theorem encodePoint?_of_control {b : UInt8} (hb : b < 32) :
    hexQuad? 48 48 (48 + b / 16) (if b % 16 < 10 then 48 + b % 16 else 87 + b % 16) =
        some b.toNat ∧ encodePoint? b.toNat = some [b] := by
  have all : ∀ n : Fin 32,
      hexQuad? 48 48 (48 + UInt8.ofNat n / 16)
          (if UInt8.ofNat n % 16 < 10 then 48 + UInt8.ofNat n % 16 else 87 + UInt8.ofNat n % 16) =
        some n.val ∧ encodePoint? n.val = some [UInt8.ofNat n] := by decide
  have h := all ⟨b.toNat, UInt8.lt_iff_toNat_lt.mp hb⟩
  simpa using h

/-- A control character is written by its number, and read back. -/
theorem textOctets?_of_control {b : UInt8} (rest : Octets) (hb : b < 32) :
    textOctets? (92 :: 117 :: 48 :: 48 :: (48 + b / 16) ::
      (if b % 16 < 10 then 48 + b % 16 else 87 + b % 16) :: rest) =
      (textOctets? rest).map (prepend (some [b])) := by
  obtain ⟨hq, hp⟩ := encodePoint?_of_control hb
  have hn : b.toNat < 0xD800 := by
    have := UInt8.lt_iff_toNat_lt.mp hb
    simp at this
    omega
  rw [← hp]
  exact textOctets?_of_hexQuad? rest hq hn

/-- What is written for an octet is read as that octet, whatever follows. -/
theorem textOctets?_escapeOctet (b : UInt8) (rest : Octets) :
    textOctets? (escapeOctet b ++ rest) = (textOctets? rest).map (prepend (some [b])) := by
  by_cases hcontrol : b < 32
  · have escape := textOctets?_of_control rest hcontrol
    unfold escapeOctet
    split_ifs with hquote hslash h8 h9 h10 h12 h13 hdigit
    · subst hquote
      exact textOctets?_of_plainEscape? rest (by decide)
    · subst hslash
      exact textOctets?_of_plainEscape? rest (by decide)
    · subst h8
      exact textOctets?_of_plainEscape? rest (by decide)
    · subst h9
      exact textOctets?_of_plainEscape? rest (by decide)
    · subst h10
      exact textOctets?_of_plainEscape? rest (by decide)
    · subst h12
      exact textOctets?_of_plainEscape? rest (by decide)
    · subst h13
      exact textOctets?_of_plainEscape? rest (by decide)
    · rwa [if_pos hdigit] at escape
    · rwa [if_neg hdigit] at escape
  · by_cases hquote : b = 34
    · subst hquote
      exact textOctets?_of_plainEscape? rest (by decide)
    · by_cases hslash : b = 92
      · subst hslash
        exact textOctets?_of_plainEscape? rest (by decide)
      · have plain : escapeOctet b = [b] := by
          have large (c : UInt8) (hc : c < 32) : b ≠ c := fun h => hcontrol (h ▸ hc)
          simp [escapeOctet, hquote, hslash, hcontrol, large 8, large 9, large 10, large 12, large 13]
        rw [plain]
        exact textOctets?_of_plain rest (UInt8.not_lt.mp hcontrol) hquote hslash

theorem textOctets?_flatMap_escapeOctet (bs rest : Octets) :
    textOctets? (bs.flatMap escapeOctet ++ 34 :: rest) = some (some bs, rest) := by
  induction bs with
  | nil => rw [List.flatMap_nil, List.nil_append, textOctets?.eq_2]
  | cons b bs ih =>
    rw [List.flatMap_cons, List.append_assoc, textOctets?_escapeOctet, ih]
    rfl

/-- What is written for a text is read back, whatever follows the closing quote. -/
theorem text?_writeText (s : String) (rest : Octets) :
    ∃ body, writeText s ++ rest = 34 :: body ∧ text? body = some (some s, rest) := by
  refine ⟨(Octets.ofText s).flatMap escapeOctet ++ 34 :: rest, by simp [writeText], ?_⟩
  rw [text?, textOctets?_flatMap_escapeOctet]
  simp [Octets.text?_ofText]

end DatasetFilters.Json
