import DatasetFilters.Etag.Content
import Mathlib.Algebra.Group.Nat.Defs

namespace DatasetFilters

namespace Octets

theorem bigEndian_injective {width m n : Nat} (hm : m < 256 ^ width) (hn : n < 256 ^ width)
    (h : bigEndian width m = bigEndian width n) : m = n := by
  induction width generalizing m n with
  | zero => simp at hm hn; omega
  | succ width ih =>
    rw [bigEndian, bigEndian] at h
    obtain ⟨front, last⟩ := List.append_inj' h rfl
    have low : m % 256 = n % 256 := by
      have := congrArg UInt8.toNat (List.cons.inj last).1
      simpa using this
    rw [Nat.pow_succ] at hm hn
    have high : m / 256 = n / 256 := ih (by omega) (by omega) front
    omega

theorem length_ofText_le (s : String) : (ofText s).length ≤ 4 * s.length := by
  have octets (cs : List Char) : (String.ofList cs).utf8ByteSize ≤ 4 * cs.length := by
    induction cs with
    | nil => simp
    | cons c cs ih =>
      have := c.utf8Size_le_four
      rw [String.ofList_cons, String.utf8ByteSize_append, List.length_cons]
      simp 
      omega
  have h := octets s.toList
  simpa [ofText, String.size_toByteArray, String.length_toList] using h

end Octets

namespace Content

/-- A text whose length is written in 64 bits. -/
def Fits (s : String) : Prop := (Octets.ofText s).length < 2 ^ 64

/-- A list of 64 bit length, and so for its members. -/
def AllFit (fits : α → Prop) (l : List α) : Prop := l.length < 2 ^ 64 ∧ ∀ a ∈ l, fits a

/-- Whatever follows the layout of a value that fits, the octets tell how the value looks and where
its layout ends. Such a layout can be read from the front. -/
structure Determines (fits : α → Prop) (layout : α → Octets) (view : α → β) : Prop where
  injective : ∀ a b r r', fits a → fits b → layout a ++ r = layout b ++ r' → view a = view b ∧ r = r'
  fits_of_short : ∀ a, (layout a).length < 2 ^ 64 → fits a

namespace Determines

variable {fits : α → Prop} {f : α → Octets} {v : α → β}

/-- A pair of layouts is read one after the other. -/
theorem append {fits' : α → Prop} {g : α → Octets} {w : α → γ} (hf : Determines fits f v)
    (hg : Determines fits' g w) :
    Determines (fun a => fits a ∧ fits' a) (fun a => f a ++ g a) fun a => (v a, w a) where
  injective := by
    intro a b r r' ha hb h
    rw [List.append_assoc, List.append_assoc] at h
    obtain ⟨hv, h⟩ := hf.injective a b _ _ ha.1 hb.1 h
    obtain ⟨hw, h⟩ := hg.injective a b r r' ha.2 hb.2 h
    exact ⟨Prod.ext hv hw, h⟩
  fits_of_short := by
    intro a hl
    rw [List.length_append] at hl
    exact ⟨hf.fits_of_short a (by omega), hg.fits_of_short a (by omega)⟩

theorem of (hf : Determines fits f v) (part : δ → α) :
    Determines (fun d => fits (part d)) (fun d => f (part d)) fun d => v (part d) :=
  ⟨fun a b => hf.injective (part a) (part b), fun a => hf.fits_of_short (part a)⟩

theorem map (hf : Determines fits f v) {w : α → γ} (h : ∀ a b, v a = v b → w a = w b) :
    Determines fits f w where
  injective := by
    intro a b r r' ha hb he
    obtain ⟨hv, hr⟩ := hf.injective a b r r' ha hb he
    exact ⟨h a b hv, hr⟩
  fits_of_short := hf.fits_of_short

theorem domain {fits' : α → Prop} (hf : Determines fits f v) (h : ∀ a, fits' a ↔ fits a) :
    Determines fits' f v :=
  ⟨fun a b r r' ha hb => hf.injective a b r r' ((h a).mp ha) ((h b).mp hb),
    fun a hl => (h a).mpr (hf.fits_of_short a hl)⟩

theorem cons (hf : Determines fits f v) (mark : UInt8) :
    Determines fits (fun a => mark :: f a) v where
  injective := fun a b r r' ha hb h => hf.injective a b r r' ha hb (List.cons.inj h).2
  fits_of_short := fun a hl => hf.fits_of_short a (Nat.lt_of_succ_lt hl)

/-- What has the same layout looks the same. -/
theorem view_eq (hf : Determines fits f v) {a b : α} (ha : fits a) (hb : fits b) (h : f a = f b) :
    v a = v b :=
  (hf.injective a b [] [] ha hb (by rw [h])).1

end Determines

theorem number_append_injective {m n : Nat} {r r' : Octets} (hm : m < 2 ^ 64) (hn : n < 2 ^ 64)
    (h : number m ++ r = number n ++ r') : m = n ∧ r = r' := by
  obtain ⟨hfront, hr⟩ := List.append_inj h (by simp [number])
  obtain ⟨hdigits, -⟩ := List.append_inj' hfront rfl
  exact ⟨Octets.bigEndian_injective (by simpa using hm) (by simpa using hn) hdigits, hr⟩

/-- Numbers are kept in 64 bits, so they are told as long as they have no more. -/
theorem determines_number (part : α → Nat) (hp : ∀ a, part a < 2 ^ 64) :
    Determines (fun _ => True) (fun a => number (part a)) part :=
  ⟨fun a b _ _ _ _ h => number_append_injective (hp a) (hp b) h, fun _ _ => trivial⟩

/-- A text is determined by its layout: the length tells where it ends. -/
theorem determines_text : Determines Fits text fun s => s where
  injective := by
    intro s t r r' hs ht h
    unfold Fits at hs ht
    have split (s : String) (r : Octets) : text s ++ r =
        Octets.bigEndian 8 (Octets.ofText s).length ++ (Octets.ofText s ++ (0x1f :: r)) := by
      simp [text]
    rw [split, split] at h
    obtain ⟨hlength, h⟩ := List.append_inj h (by simp)
    have length := Octets.bigEndian_injective (by simpa using hs) (by simpa using ht) hlength
    obtain ⟨hs, h⟩ := List.append_inj h length
    exact ⟨Octets.ofText_injective hs, (List.cons.inj h).2⟩
  fits_of_short := by
    intro s hl
    simp only [text, List.length_append] at hl
    rw [Fits]
    omega

theorem determines_flag : Determines (fun _ => True) flag fun f => f where
  injective := by
    intro f g r r' _ _ h
    rcases f with _ | _ | _ <;> rcases g with _ | _ | _ <;> simp_all [flag]
  fits_of_short := fun _ _ => trivial

theorem length_le_length_flatMap {f : α → Octets} (hf : ∀ a, 0 < (f a).length) (l : List α) :
    l.length ≤ (l.flatMap f).length := by
  induction l with
  | nil => exact Nat.zero_le _
  | cons a l ih =>
    have := hf a
    rw [List.flatMap_cons, List.length_append, List.length_cons]
    omega

theorem length_le_of_mem_flatMap {f : α → Octets} {a : α} {l : List α} (ha : a ∈ l) :
    (f a).length ≤ (l.flatMap f).length := by
  obtain ⟨l₁, l₂, rfl⟩ := List.append_of_mem ha
  simp only [List.flatMap_append, List.flatMap_cons, List.length_append]
  omega

namespace Determines

variable {fits : α → Prop} {f : α → Octets} {v : α → β}

/-- Layouts behind each other tell their members, if it is known how many they are. -/
theorem flatMap (hf : Determines fits f v) :
    ∀ (l l' : List α) (r r' : Octets), l.length = l'.length → (∀ a ∈ l, fits a) →
      (∀ a ∈ l', fits a) → l.flatMap f ++ r = l'.flatMap f ++ r' → l.map v = l'.map v ∧ r = r' := by
  intro l
  induction l with
  | nil =>
    intro l' r r' hn _ _ h
    obtain rfl := List.length_eq_zero_iff.mp hn.symm
    exact ⟨rfl, h⟩
  | cons a l ih =>
    intro l' r r' hn hl hl' h
    obtain ⟨b, l', rfl⟩ := List.exists_cons_of_length_eq_add_one hn.symm
    rw [List.flatMap_cons, List.append_assoc] at h
    rw [List.flatMap_cons, List.append_assoc] at h
    obtain ⟨ha, hl⟩ := List.forall_mem_cons.mp hl
    obtain ⟨hb, hl'⟩ := List.forall_mem_cons.mp hl'
    obtain ⟨hv, h⟩ := hf.injective a b _ _ ha hb h
    obtain ⟨hmap, hr⟩ := ih l' r r' (Nat.succ.inj hn) hl hl' h
    exact ⟨by rw [List.map_cons, List.map_cons, hv, hmap], hr⟩

/-- A list whose length is written in front of it is told, with its members. -/
theorem counted (hf : Determines fits f v) (hpos : ∀ a, 0 < (f a).length) :
    Determines (AllFit fits) (fun l : List α => number l.length ++ l.flatMap f)
      fun l => l.map v where
  injective := by
    intro l l' r r' hl hl' h
    rw [List.append_assoc, List.append_assoc] at h
    obtain ⟨hn, h⟩ := number_append_injective hl.1 hl'.1 h
    exact hf.flatMap l l' r r' hn hl.2 hl'.2 h
  fits_of_short := by
    intro l hl
    rw [List.length_append] at hl
    have hle := length_le_length_flatMap hpos l
    refine ⟨by omega, fun a ha => hf.fits_of_short a ?_⟩
    have := length_le_of_mem_flatMap (f := f) ha
    omega

end Determines

end Content
end DatasetFilters
