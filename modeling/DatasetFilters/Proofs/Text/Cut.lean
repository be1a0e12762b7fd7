import DatasetFilters.Text.Blank
import Mathlib.Data.List.DropRight

namespace DatasetFilters.Text

variable {α : Type}

theorem dropEndWhile_append_of_pos {p : α → Bool} {tail : List α} (h : ∀ a ∈ tail, p a = true)
    (l : List α) : dropEndWhile p (l ++ tail) = dropEndWhile p l := by
  have reversed : ∀ a ∈ tail.reverse, p a = true := fun a ha => h a (List.mem_reverse.mp ha)
  rw [dropEndWhile, List.reverse_append, List.dropWhile_append_of_pos reversed, dropEndWhile]

theorem dropEndWhile_of_last {p : α → Bool} {l : List α} (h : ∀ a ∈ l.getLast?, p a = false) :
    dropEndWhile p l = l := by
  refine List.rdropWhile_eq_self_iff.mpr fun hl => ?_
  simpa using h _ (List.getLast_mem_getLast? hl)

theorem dropWhile_of_head {p : α → Bool} {l : List α} (h : ∀ a ∈ l.head?, p a = false) :
    l.dropWhile p = l := by
  cases l with
  | nil => rfl
  | cons a l => exact List.dropWhile_cons_of_neg (by simp [h a rfl])

/-- Neither the first nor the last of some characters is of a kind. -/
structure Bare (p : Char → Bool) (cs : List Char) : Prop where
  head : ∀ c ∈ cs.head?, p c = false
  last : ∀ c ∈ cs.getLast?, p c = false

/-- Characters with others of a kind in front of them and behind. -/
def Around (p : Char → Bool) (inner cs : List Char) : Prop :=
  ∃ front back, cs = front ++ inner ++ back ∧ (∀ c ∈ front, p c = true) ∧ ∀ c ∈ back, p c = true

theorem bare_trimChars (p : Char → Bool) (cs : List Char) : Bare p (trimChars p cs) := by
  have kept : trimChars p cs <+: cs.dropWhile p := List.rdropWhile_prefix p (cs.dropWhile p)
  constructor
  · intro c hc
    obtain ⟨tail, ht⟩ := List.head?_eq_some_iff.mp hc
    obtain ⟨more, hmore⟩ := kept
    have first : (cs.dropWhile p).head? = some c := by rw [← hmore, ht]; rfl
    have stops := List.head?_dropWhile_not p cs
    rw [first] at stops
    simpa using stops
  · intro c hc
    have nonempty : (cs.dropWhile p).rdropWhile p ≠ [] := List.ne_nil_of_mem (List.mem_of_getLast? hc)
    have last : ((cs.dropWhile p).rdropWhile p).getLast nonempty = c :=
      Option.some.inj ((List.getLast?_eq_some_getLast nonempty).symm.trans hc)
    have stops := List.rdropWhile_last_not p (cs.dropWhile p) nonempty
    rw [last] at stops
    simpa using stops

theorem around_trimChars (p : Char → Bool) (cs : List Char) : Around p (trimChars p cs) cs := by
  refine ⟨cs.takeWhile p, (cs.dropWhile p).rtakeWhile p, ?_, ?_, ?_⟩
  · rw [List.append_assoc]
    change cs = cs.takeWhile p ++ ((cs.dropWhile p).rdropWhile p ++ (cs.dropWhile p).rtakeWhile p)
    rw [List.rdropWhile_append_rtakeWhile, List.takeWhile_append_dropWhile]
  · intro c hc
    exact List.mem_takeWhile_imp hc
  · intro c hc
    exact List.mem_rtakeWhile_imp hc

theorem trimChars_of_around {p : Char → Bool} {inner cs : List Char} (bare : Bare p inner)
    (around : Around p inner cs) : trimChars p cs = inner := by
  obtain ⟨front, back, rfl, hfront, hback⟩ := around
  rw [trimChars, List.append_assoc, List.dropWhile_append_of_pos hfront]
  cases inner with
  | nil =>
    have gone : back.dropWhile p = [] := List.dropWhile_eq_nil_iff.mpr hback
    rw [List.nil_append, gone]
    rfl
  | cons c inner =>
    have head : (c :: inner ++ back).dropWhile p = c :: inner ++ back :=
      dropWhile_of_head (by simpa using bare.head)
    rw [head, dropEndWhile_append_of_pos hback, dropEndWhile_of_last bare.last]

/-- `s` is `t` with blanks in front and behind, all blanks at its ends. -/
def Pads (t s : String) : Prop :=
  Bare isBlank t.toList ∧ Around isBlank t.toList s.toList

/-- Trimming finds the one part of a text that is bare at both ends and has nothing but blanks
around it. -/
theorem trim_eq_iff {s t : String} : trim s = t ↔ Pads t s := by
  constructor
  · rintro rfl
    simp only [Pads, trim, String.toList_ofList]
    exact ⟨bare_trimChars isBlank s.toList, around_trimChars isBlank s.toList⟩
  · rintro ⟨bare, around⟩
    rw [trim, trimChars_of_around bare around, String.ofList_toList]

theorem pads_trim (s : String) : Pads (trim s) s := trim_eq_iff.mp rfl

/-- A lead is dropped from the texts that have it, and from no others. -/
theorem dropLead?_eq_some_iff {lead s rest : String} :
    dropLead? lead s = some rest ↔ s = lead ++ rest := by
  unfold dropLead?
  constructor
  · intro h
    split at h
    · next leads =>
      obtain ⟨tail, ht⟩ := List.isPrefixOf_iff_prefix.mp leads
      obtain rfl := Option.some.inj h
      rw [← ht, List.drop_left, ← String.toList_inj, String.toList_append, String.toList_ofList, ht]
    · simp at h
  · rintro rfl
    rw [if_pos (List.isPrefixOf_iff_prefix.mpr (by simp)), String.toList_append, List.drop_left,
      String.ofList_toList]

/-- Cutting at a separator is that of the library. -/
theorem splitAt_eq_splitOn [BEq α] (sep : α) (l : List α) : splitAt sep l = l.splitOn sep := by
  induction l with
  | nil => rfl
  | cons x xs ih =>
    rw [List.splitOn_cons_eq_if_modifyHead, splitAt, ih]
    split
    · rfl
    · cases h : xs.splitOn sep with
      | nil => exact absurd h (List.splitOn_ne_nil sep xs)
      | cons part parts => rfl

theorem append_flatMap_cons (sep : α) (part : List α) (parts : List (List α)) :
    part ++ parts.flatMap (sep :: ·) = List.intercalate [sep] (part :: parts) := by
  induction parts generalizing part with
  | nil => simp
  | cons p parts ih =>
    rw [List.flatMap_cons, List.intercalate_cons_cons, ← ih]
    simp

theorem notMem_of_mem_splitAt [BEq α] [LawfulBEq α] {sep : α} {l part : List α}
    (h : part ∈ splitAt sep l) : sep ∉ part := by
  induction l generalizing part with
  | nil =>
    obtain rfl := List.mem_singleton.mp h
    exact List.not_mem_nil
  | cons x xs ih =>
    rw [splitAt] at h
    split at h
    next =>
      rcases List.mem_cons.mp h with rfl | h
      · exact List.not_mem_nil
      · exact ih h
    next other =>
      have apart : sep ≠ x := by
        rintro rfl
        exact other BEq.rfl
      cases rest : splitAt sep xs with
      | nil =>
        rw [rest] at h
        obtain rfl := List.mem_singleton.mp h
        simpa using apart
      | cons p parts =>
        rw [rest] at h ih
        rcases List.mem_cons.mp h with rfl | h
        · exact List.not_mem_cons_of_ne_of_not_mem apart (ih List.mem_cons_self)
        · exact ih (List.mem_cons_of_mem _ h)

/-- The parts that a list is cut into hold no separator, and are the whole with separators between them. -/
theorem splitAt_eq_cons_iff [BEq α] [LawfulBEq α] {sep : α} {l part : List α} {parts : List (List α)} :
    splitAt sep l = part :: parts ↔
      l = part ++ parts.flatMap (sep :: ·) ∧ ∀ p ∈ part :: parts, sep ∉ p := by
  rw [append_flatMap_cons]
  constructor
  · intro h
    refine ⟨?_, fun p mem => notMem_of_mem_splitAt (h ▸ mem)⟩
    rw [← h, splitAt_eq_splitOn, List.intercalate_splitOn]
  · rintro ⟨rfl, free⟩
    rw [splitAt_eq_splitOn]
    exact List.splitOn_intercalate sep free (List.cons_ne_nil _ _)

theorem split_of_notMem {c : Char} {s : String} (h : c ∉ s.toList) : split c s = [s] := by
  have whole : splitAt c s.toList = [s.toList] :=
    splitAt_eq_cons_iff.mpr ⟨(List.append_nil _).symm, List.forall_mem_singleton.mpr h⟩
  rw [split, whole, List.map_singleton, String.ofList_toList]

theorem notMem_of_mem_split {c : Char} {s part : String} (h : part ∈ split c s) : c ∉ part.toList := by
  obtain ⟨cs, mem, rfl⟩ := List.mem_map.mp h
  rw [String.toList_ofList]
  exact notMem_of_mem_splitAt mem

/-- Joined parts are cut where they were joined, and where they have separators themselves. -/
theorem splitAt_intercalate [BEq α] [LawfulBEq α] (sep : α) {parts : List (List α)}
    (nonempty : parts ≠ []) : splitAt sep ([sep].intercalate parts) = parts.flatMap (splitAt sep) := by
  cases parts with
  | nil => exact absurd rfl nonempty
  | cons part parts =>
    rw [← append_flatMap_cons]
    induction parts generalizing part with
    | nil => simp
    | cons part' parts ih =>
      rw [List.flatMap_cons, List.cons_append, splitAt_eq_splitOn, List.splitOn_append_cons_self,
        ← splitAt_eq_splitOn, ← splitAt_eq_splitOn, ih part' (List.cons_ne_nil _ _)]
      rfl

/-- Texts with commas between them are cut into the parts of each. -/
theorem split_joined {l : List String} (nonempty : l ≠ []) :
    split ',' (",".intercalate l) = l.flatMap (split ',') := by
  have comma : ",".toList = [','] := by decide
  rw [split, String.toList_intercalate, comma, splitAt_intercalate ',' (by simpa using nonempty),
    List.flatMap_map, List.map_flatMap]
  rfl

theorem head_of_splitAt [BEq α] [LawfulBEq α] {sep : α} {l : List α}
    (h : (splitAt sep l).head? ≠ some []) : ∀ a ∈ l.head?, (a == sep) = false := by
  intro a ha
  obtain ⟨tail, rfl⟩ := List.head?_eq_some_iff.mp ha
  by_contra same
  rw [splitAt, if_pos (by simpa using same)] at h
  exact h rfl

theorem last_of_splitAt [BEq α] [LawfulBEq α] {sep : α} {l : List α}
    (h : (splitAt sep l).getLast? ≠ some []) : ∀ a ∈ l.getLast?, (a == sep) = false := by
  intro a ha
  obtain ⟨front, rfl⟩ := List.getLast?_eq_some_iff.mp ha
  by_contra same
  obtain rfl : a = sep := by simpa using same
  rw [splitAt_eq_splitOn, List.splitOn_append_cons_self, List.splitOn_nil] at h
  simp at h

/-- Separators at both ends make no difference but for the empty parts that they cut off. -/
theorem splitAt_trimmed [BEq α] [LawfulBEq α] {sep : α} {l : List α} {parts : List (List α)}
    (h : splitAt sep l = [] :: parts) (nonempty : parts ≠ []) (head : parts.head? ≠ some [])
    (last : parts.getLast? ≠ some []) :
    splitAt sep (dropEndWhile (· == sep) (l.dropWhile (· == sep))) = parts := by
  have behind : ∃ inner, l = sep :: inner ∧ splitAt sep inner = parts := by
    cases l with
    | nil => simp [splitAt, eq_comm, nonempty] at h
    | cons a inner =>
      rw [splitAt] at h
      split at h
      · next same => exact ⟨inner, by rw [eq_of_beq same], (List.cons.inj h).2⟩
      · split at h <;> simp at h
  obtain ⟨inner, rfl, rfl⟩ := behind
  have bare : (sep :: inner).dropWhile (· == sep) = inner := by
    rw [List.dropWhile_cons_of_pos (by simp), dropWhile_of_head (head_of_splitAt head)]
  rw [bare, dropEndWhile_of_last (last_of_splitAt last)]

end DatasetFilters.Text
