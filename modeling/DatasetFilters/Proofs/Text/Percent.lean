import DatasetFilters.Text.Percent

namespace DatasetFilters

namespace Octets

theorem ofText_append (s t : String) : ofText (s ++ t) = ofText s ++ ofText t := by
  simp [ofText]

theorem ofText_eq_nil_iff {s : String} : ofText s = [] ↔ s = "" :=
  ⟨fun h => ofText_injective h, fun h => by rw [h]; rfl⟩

theorem text?_eq_some_iff {bs : Octets} {s : String} : text? bs = some s ↔ bs = ofText s := by
  constructor
  · intro h
    rw [text?, String.fromUTF8?] at h
    split at h
    next =>
      obtain rfl := Option.some.inj h
      rfl
    next => cases h
  · rintro rfl
    exact text?_ofText s

theorem ofText_ofList (cs : List Char) :
    ofText (String.ofList cs) = cs.flatMap String.utf8EncodeChar := by
  simp [ofText, List.utf8Encode]

/-- An ASCII octet stands for itself, never for a part of another character. -/
theorem toNat_of_mem_utf8EncodeChar {c : Char} {b : UInt8} (h : b ∈ String.utf8EncodeChar c)
    (ascii : b.toNat < 128) : c.toNat = b.toNat := by
  have high (n : Nat) (low : 128 ≤ n) (fits : n < 256) : b ≠ UInt8.ofNat n := by
    rintro rfl
    rw [UInt8.toNat_ofNat'] at ascii
    omega
  unfold String.utf8EncodeChar at h
  simp only at h
  split at h
  · rw [List.mem_singleton] at h
    rw [h, UInt8.toNat_ofNat']
    change c.val.toNat = _
    omega
  · -- every octet of a longer character has its highest bit set
    have longer : ∃ n, b = UInt8.ofNat n ∧ 128 ≤ n ∧ n < 256 := by
      split at h
      · simp only [List.mem_cons, List.not_mem_nil, or_false] at h
        rcases h with h | h <;> exact ⟨_, h, by omega, by omega⟩
      · split at h <;> simp only [List.mem_cons, List.not_mem_nil, or_false] at h
        · rcases h with h | h | h <;> exact ⟨_, h, by omega, by omega⟩
        · rcases h with h | h | h | h <;> exact ⟨_, h, by omega, by omega⟩
    obtain ⟨n, same, low, fits⟩ := longer
    exact absurd same (high n low fits)

/-- An octet that stands for a character of seven bits stands for nothing else. -/
theorem mem_of_mem_ofText {cs : List Char} {c : Char} (ascii : c.toNat < 128)
    (h : UInt8.ofNat c.toNat ∈ ofText (String.ofList cs)) : c ∈ cs := by
  rw [ofText_ofList, List.mem_flatMap] at h
  obtain ⟨d, hd, hb⟩ := h
  have small : (UInt8.ofNat c.toNat).toNat = c.toNat := by
    rw [UInt8.toNat_ofNat']
    omega
  have same : d.toNat = c.toNat := (toNat_of_mem_utf8EncodeChar hb (by omega)).trans small
  rwa [Char.toNat_inj.mp same] at hd

end Octets

namespace Percent

theorem decode_cons_of_ne {b : UInt8} (h : b ≠ 37) (rest : Octets) :
    decode (b :: rest) = b :: decode rest := by
  rw [decode]
  exact fun _ _ _ same => absurd same h

theorem hexValue?_hexDigit : ∀ n < 16, Octets.hexValue? (hexDigit n) = some n := by
  decide

theorem decode_escape (b : UInt8) (rest : Octets) : decode (escape b ++ rest) = b :: decode rest := by
  have := b.toNat_lt
  rw [escape, List.cons_append, List.cons_append, List.cons_append, List.nil_append, decode,
    hexValue?_hexDigit _ (by omega), hexValue?_hexDigit _ (by omega)]
  simp only [Nat.div_add_mod, UInt8.ofNat_toNat]

/-- Decoding gives back what was encoded, whichever octets are kept as they are. -/
theorem decode_encodeWith {kept : UInt8 → Bool} (percent : kept 37 = false) (bs : Octets) :
    decode (encodeWith kept bs) = bs := by
  induction bs with
  | nil => simp [encodeWith, decode]
  | cons b bs ih =>
    change decode ((if kept b then [b] else escape b) ++ encodeWith kept bs) = _
    split
    next keeps =>
      have ordinary : b ≠ 37 := by
        rintro rfl
        rw [percent] at keeps
        cases keeps
      rw [List.cons_append, List.nil_append, decode_cons_of_ne ordinary, ih]
    next => rw [decode_escape, ih]

theorem decode_segment (s : String) : decode (segment s) = Octets.ofText s :=
  decode_encodeWith rfl _

theorem segment_injective {s t : String} (h : segment s = segment t) : s = t :=
  Octets.ofText_injective (by rw [← decode_segment, h, decode_segment])

/-- A percent sign stands in front of two hexadecimal digits. -/
def Escapes (bs : Octets) : Prop :=
  ∃ a b, Octets.hexValue? a ≠ none ∧ Octets.hexValue? b ≠ none ∧ [37, a, b] <:+: bs

theorem length_decode_le (bs : Octets) : (decode bs).length ≤ bs.length := by
  fun_induction decode bs with
  | case1 a b rest x y second first ih => simp only [List.length_cons]; omega
  | case2 a b rest undigit ih => simpa using ih
  | case3 x rest plain ih => simpa using ih
  | case4 => exact Nat.le_refl _

/-- Decoding keeps the length only of what it keeps. -/
theorem decode_eq_self_of_length {bs : Octets} (h : (decode bs).length = bs.length) : decode bs = bs := by
  fun_induction decode bs with
  | case1 a b rest x y second first ih =>
    have shorter := length_decode_le rest
    simp only [List.length_cons] at h
    omega
  | case2 a b rest undigit ih => rw [ih (by simpa using h)]
  | case3 x rest plain ih => rw [ih (by simpa using h)]
  | case4 => rfl

/-- Octets that were not encoded are decoded to themselves just if nothing in them reads as an
escape. -/
theorem decode_eq_self_iff (bs : Octets) : decode bs = bs ↔ ¬Escapes bs := by
  have behind (x : UInt8) (rest : Octets) : Escapes (x :: rest) ↔
      (∃ a b, Octets.hexValue? a ≠ none ∧ Octets.hexValue? b ≠ none ∧ [37, a, b] <+: x :: rest) ∨
        Escapes rest := by
    simp only [Escapes, List.infix_cons_iff, and_or_left, exists_or]
  fun_induction decode bs with
  | case1 a b rest x y second first ih =>
    refine iff_of_false (fun same => ?_) fun plain => plain ⟨a, b, ?_, ?_, [], rest, rfl⟩
    · have shorter := length_decode_le rest
      have same := congrArg List.length same
      simp only [List.length_cons] at same
      omega
    · exact Option.ne_none_iff_exists'.mpr ⟨x, first⟩
    · exact Option.ne_none_iff_exists'.mpr ⟨y, second⟩
  | case2 a b rest undigit ih =>
    refine (List.cons_inj_right 37).trans (ih.trans (not_congr ((behind _ _).trans (or_iff_right ?_)).symm))
    rintro ⟨a', b', first, second, leads⟩
    simp only [List.cons_prefix_cons, List.nil_prefix, and_true, true_and] at leads
    obtain ⟨rfl, rfl⟩ := leads
    obtain ⟨x, hx⟩ := Option.ne_none_iff_exists'.mp first
    obtain ⟨y, hy⟩ := Option.ne_none_iff_exists'.mp second
    exact undigit x y hx hy
  | case3 x rest plain ih =>
    refine (List.cons_inj_right x).trans (ih.trans (not_congr ((behind _ _).trans (or_iff_right ?_)).symm))
    rintro ⟨a, b, -, -, after, leads⟩
    obtain ⟨rfl, rfl⟩ := List.cons.inj leads
    exact plain a b after rfl rfl
  | case4 =>
    refine iff_of_true rfl ?_
    rintro ⟨a, b, -, -, within⟩
    exact List.cons_ne_nil _ _ (List.infix_nil.mp within)

theorem decode_of_notMem {bs : Octets} (h : 37 ∉ bs) : decode bs = bs := by
  refine (decode_eq_self_iff bs).mpr ?_
  rintro ⟨a, b, -, -, within⟩
  exact h (within.subset List.mem_cons_self)

/-- The octets that an address is cut at: those before a fragment, a segment and the query. -/
def isSeparator (b : UInt8) : Bool := b == 35 || b == 47 || b == 63

theorem isSeparator_hexDigit : ∀ n < 16, isSeparator (hexDigit n) = false := by
  decide

/-- None of the octets that an address is cut at stands in a written segment. -/
theorem notMem_segment {b : UInt8} (h : isSeparator b = true) (s : String) : b ∉ segment s := by
  intro mem
  obtain ⟨a, -, mem⟩ := List.mem_flatMap.mp mem
  have unkept : keptInSegment b = false := by
    rw [isSeparator, Bool.or_eq_true, Bool.or_eq_true, beq_iff_eq, beq_iff_eq, beq_iff_eq] at h
    rcases h with (rfl | rfl) | rfl <;> decide
  split at mem
  next keeps =>
    rw [List.mem_singleton.mp mem, keeps] at unkept
    cases unkept
  next =>
    have := a.toNat_lt
    simp only [escape, List.mem_cons, List.not_mem_nil, or_false] at mem
    rcases mem with rfl | rfl | rfl
    · cases h
    · rw [isSeparator_hexDigit _ (by omega)] at h
      cases h
    · rw [isSeparator_hexDigit _ (by omega)] at h
      cases h

/-- A text that stands for itself in a path: nothing in it separates the parts of an address or reads as an
escape. -/
structure Verbatim (s : String) : Prop where
  unseparated : ∀ b ∈ Octets.ofText s, isSeparator b = false
  unescaped : ¬Escapes (Octets.ofText s)

/-- A text stands for itself in a path just if it is not cut there and decoded to itself. -/
theorem verbatim_iff (s : String) :
    Verbatim s ↔ (35 ∉ Octets.ofText s ∧ 63 ∉ Octets.ofText s) ∧ 47 ∉ Octets.ofText s ∧
      decode (Octets.ofText s) = Octets.ofText s := by
  have unseparated : (∀ b ∈ Octets.ofText s, isSeparator b = false) ↔
      (35 ∉ Octets.ofText s ∧ 63 ∉ Octets.ofText s) ∧ 47 ∉ Octets.ofText s := by
    constructor
    · intro h
      have apart {b : UInt8} (separates : isSeparator b = true) : b ∉ Octets.ofText s := fun mem => by
        rw [h b mem] at separates
        cases separates
      exact ⟨⟨apart rfl, apart rfl⟩, apart rfl⟩
    · rintro ⟨⟨fragment, query⟩, slash⟩ b mem
      refine Bool.eq_false_iff.mpr fun separates => ?_
      simp only [isSeparator, Bool.or_eq_true, beq_iff_eq] at separates
      rcases separates with (rfl | rfl) | rfl
      · exact fragment mem
      · exact slash mem
      · exact query mem
  rw [← and_assoc, ← unseparated, decode_eq_self_iff]
  exact ⟨fun h => ⟨h.1, h.2⟩, fun h => ⟨h.1, h.2⟩⟩

end Percent

end DatasetFilters
