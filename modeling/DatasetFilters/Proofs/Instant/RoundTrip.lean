import DatasetFilters.Instant.Parser
import DatasetFilters.Instant.Printer
import DatasetFilters.Proofs.Text.Numeral
import Mathlib.Tactic.SplitIfs

namespace DatasetFilters

theorem Date.ofDays_bounds (n : Int) : (Date.ofDays n).month ≤ 12 ∧ (Date.ofDays n).day ≤ 31 := by
  unfold ofDays
  simp only
  generalize hz : n + 719468 = z
  obtain ⟨yoe, doy, he, -, -, hd0, hd1, -⟩ :=
    @yearAndDay_eq (z % 146097) (by omega) (by omega)
  rw [he]
  simp only [daysBeforeMonth]
  split_ifs <;> simp only <;> omega

theorem Date.ofDays_year_bounds {n : Int} (hn : -96465292 ≤ n ∧ n < 95026237) :
    (Date.ofDays n).year.natAbs < 10 ^ 6 := by
  unfold ofDays
  simp only
  generalize hz : n + 719468 = z
  obtain ⟨yoe, doy, he, hy0, hy1, -, -, -⟩ :=
    @yearAndDay_eq (z % 146097) (by omega) (by omega)
  rw [he]
  split_ifs <;> simp only <;> omega

namespace Instant

def numeral (width n : Nat) : List Char := Decimal.toChars (Decimal.padded width n)

def EndsNumber : List Char → Prop
  | [] => True
  | c :: _ => c.isDigit = false

theorem isDigit_of_mem_numeral {width n : Nat} {c : Char} (h : c ∈ numeral width n) :
    c.isDigit = true :=
  Decimal.isDigit_of_mem_toChars (fun _ => Decimal.isDigit_of_mem_padded) h

/-- A number that is not too large is written with as many digits as the format has for it. -/
theorem length_numeral {width n : Nat} (h : n < 10 ^ width) (hw : 0 < width) :
    (numeral width n).length = width := by
  rw [numeral, Decimal.toChars, List.length_map, Decimal.length_padded h hw]

/-- Digits are read as the number that they were written for. -/
theorem number_numeral (width n : Nat) : number (numeral width n) = n := by
  rw [number, numeral, Decimal.ofChars_toChars fun _ => Decimal.isDigit_of_mem_padded,
    Decimal.value_padded]

theorem numeral_head (width n : Nat) :
    ∃ c tail, numeral width n = c :: tail ∧ c.isDigit = true := by
  cases h : numeral width n with
  | nil =>
    have := Decimal.padded_ne_nil width n
    simp [numeral, Decimal.toChars] at h
    contradiction
  | cons c tail => exact ⟨c, tail, rfl, isDigit_of_mem_numeral (h ▸ List.mem_cons_self)⟩

theorem isBlank_of_isDigit {c : Char} (hc : c.isDigit = true) : Text.isBlank c = false := by
  have bounds : 48 ≤ c.toNat ∧ c.toNat ≤ 57 := by
    simpa [Char.isDigit, UInt32.le_iff_toNat_le] using hc
  simp only [Text.isBlank, Bool.or_eq_false_iff, Bool.and_eq_false_iff, beq_eq_false_iff_ne,
    decide_eq_false_iff_not]
  omega

theorem skipBlank_of_not_blank {c : Char} (tail : List Char) (hc : Text.isBlank c = false) :
    skipBlank (c :: tail) = c :: tail := by
  simp [skipBlank, hc]

theorem skipBlank_numeral (width n : Nat) (rest : List Char) :
    skipBlank (numeral width n ++ rest) = numeral width n ++ rest := by
  obtain ⟨c, tail, he, hc⟩ := numeral_head width n
  rw [he, List.cons_append, skipBlank_of_not_blank _ (isBlank_of_isDigit hc)]

theorem takeWhile_eq_nil {rest : List Char} (h : EndsNumber rest) (n : Nat) :
    (rest.take n).takeWhile Char.isDigit = [] := by
  cases n with
  | zero => rfl
  | succ n =>
    cases rest with
    | nil => rfl
    | cons c rest =>
      have hc : ¬c.isDigit = true := by simp [show c.isDigit = false from h]
      rw [List.take_succ_cons, List.takeWhile_cons_of_neg hc]

/-- A numeral that fits the limit is taken as a whole, if it is followed by no digit or if there is
no room for one. -/
theorem digits?_numeral {limit width n : Nat} (rest : List Char)
    (hl : (numeral width n).length ≤ limit)
    (hr : (numeral width n).length = limit ∨ EndsNumber rest) :
    digits? limit (numeral width n ++ rest) = some (numeral width n, rest) := by
  obtain ⟨c, tail, he, -⟩ := numeral_head width n
  have all : ∀ d ∈ numeral width n, d.isDigit = true := fun _ => isDigit_of_mem_numeral
  have taken : ((numeral width n ++ rest).take limit).takeWhile Char.isDigit = numeral width n := by
    rw [List.take_append, List.take_of_length_le hl, List.takeWhile_append_of_pos all]
    rcases hr with hr | hr
    · simp [hr]
    · rw [takeWhile_eq_nil hr, List.append_nil]
  have nonempty : (numeral width n).isEmpty = false := by rw [he]; rfl
  rw [digits?, taken, nonempty]
  simp

theorem two?_writeTwo (greatest : Nat) {n : Nat} (h : n ≤ greatest) (hg : greatest < 100)
    (rest : List Char) : two? greatest (writeTwo n ++ rest) = some (n, rest) := by
  have hl : (numeral 2 n).length = 2 := length_numeral (by omega) (by decide)
  have read := digits?_numeral rest (Nat.le_of_eq hl) (Or.inl hl)
  have skip := skipBlank_numeral 2 n rest
  have value := number_numeral 2 n
  simp only [numeral] at read skip value
  simp [two?, writeTwo, skip, read, value, h]

theorem mark?_self {c : Char} (hc : Text.isBlank c = false) (rest : List Char) :
    mark? c (c :: rest) = some ((), rest) := by
  simp [mark?, skipBlank_of_not_blank rest hc]

/-- A year is read up to a character that is no digit. -/
theorem year?_writeYear (y : Int) {rest : List Char} (hr : EndsNumber rest) :
    year? (writeYear y ++ rest) = some (y, rest) := by
  have value := number_numeral 4 y.natAbs
  -- behind a sign the whole rest of the text may be digits
  have signed : digits? (numeral 4 y.natAbs ++ rest).length (numeral 4 y.natAbs ++ rest) =
      some (numeral 4 y.natAbs, rest) :=
    digits?_numeral rest (by rw [List.length_append]; omega) (Or.inr hr)
  simp only [numeral, List.length_append] at value signed
  unfold writeYear
  split_ifs with hneg hbig
  · have negated : -(y.natAbs : Int) = y := by omega
    simp only [List.cons_append, List.nil_append, year?, List.length_append,
      skipBlank_of_not_blank _ (by decide : Text.isBlank '-' = false), signed, Option.map_some, value,
      negated]
  · have kept : (y.natAbs : Int) = y := by omega
    simp only [List.cons_append, List.nil_append, year?, List.length_append,
      skipBlank_of_not_blank _ (by decide : Text.isBlank '+' = false), signed, Option.map_some, value,
      kept]
  · have hl : (numeral 4 y.natAbs).length = 4 := length_numeral (by omega) (by decide)
    have read := digits?_numeral rest (Nat.le_of_eq hl) (Or.inl hl)
    have skip := skipBlank_numeral 4 y.natAbs rest
    have kept : (y.natAbs : Int) = y := by omega
    obtain ⟨c, tail, he, hc⟩ := numeral_head 4 y.natAbs
    have unsigned : c ≠ '-' ∧ c ≠ '+' := by
      constructor <;> intro same <;> subst same <;> simp at hc
    simp only [numeral] at read skip he
    rw [List.nil_append, year?, skip]
    rw [he, List.cons_append] at read ⊢
    split
    · next h => exact absurd (List.cons.inj h).1 unsigned.1
    · next h => exact absurd (List.cons.inj h).1 unsigned.2
    · rw [read, ← he, Option.map_some, value, kept]

theorem date?_write {d : Date} (hm : d.month ≤ 12) (hd : d.day ≤ 31) (rest : List Char) :
    date? (writeYear d.year ++ '-' :: (writeTwo d.month ++ '-' :: (writeTwo d.day ++ rest))) =
      some (d, rest) := by
  have hyphen : EndsNumber ('-' :: (writeTwo d.month ++ '-' :: (writeTwo d.day ++ rest))) := rfl
  have mark := mark?_self (by decide : Text.isBlank '-' = false)
  simp [date?, year?_writeYear d.year hyphen, mark, two?_writeTwo 12 hm, two?_writeTwo 31 hd]

/-- Formats that keep the whole fraction of a second, in universal time as `Z`. -/
def Format.IsExact (f : Format) : Prop := (f.places = none ∨ f.places = some 9) ∧ f.zone = "Z"

theorem documentFormat_isExact : documentFormat.IsExact := ⟨Or.inl rfl, rfl⟩

theorem tagFormat_isExact : tagFormat.IsExact := ⟨Or.inr rfl, rfl⟩

/-- A fraction is read with however many places it is written. -/
theorem fraction?_numeral {places nanos : Nat} (hp : 0 < places) (h9 : places ≤ 9)
    (hn : nanos < 10 ^ 9) (hd : 10 ^ (9 - places) ∣ nanos) {rest : List Char}
    (hr : EndsNumber rest) :
    fraction? ('.' :: numeral places (nanos / 10 ^ (9 - places)) ++ rest) = some (nanos, rest) := by
  have fits : nanos / 10 ^ (9 - places) < 10 ^ places := by
    rw [Nat.div_lt_iff_lt_mul (Nat.pow_pos (by decide)), ← Nat.pow_add]
    simpa [Nat.add_sub_cancel' h9] using hn
  have hl := length_numeral fits hp
  have read := digits?_numeral rest (hl ▸ h9) (Or.inr hr)
  have rest_kept : rest.dropWhile Char.isDigit = rest := by
    cases rest with
    | nil => rfl
    | cons c rest => exact List.dropWhile_cons_of_neg (by simp [show c.isDigit = false from hr])
  simp [fraction?, read, number_numeral, hl, rest_kept, Nat.div_mul_cancel hd]

theorem fraction?_writeFraction {places : Option Nat} (hp : places = none ∨ places = some 9)
    {nanos : Nat} (hn : nanos < 10 ^ 9) {c : Char} (hc : c.isDigit = false) (hpoint : c ≠ '.')
    (rest : List Char) :
    fraction? (writeFraction places nanos ++ c :: rest) = some (nanos, c :: rest) := by
  have ends : EndsNumber (c :: rest) := hc
  have exact (n : Nat) (h0 : 0 < n) (h9 : n ≤ 9) (hd : 10 ^ (9 - n) ∣ nanos) :
      fraction? ((if n = 0 then [] else '.' :: numeral n (nanos / 10 ^ (9 - n))) ++ c :: rest) =
        some (nanos, c :: rest) := by
    rw [if_neg (Nat.ne_of_gt h0)]
    exact fraction?_numeral h0 h9 hn hd ends
  simp only [numeral] at exact
  unfold writeFraction
  rcases hp with rfl | rfl
  · by_cases h0 : nanos = 0
    · subst h0
      rw [Option.getD_none, if_pos rfl, if_pos rfl, List.nil_append, fraction?]
      intro t h
      exact hpoint (List.cons.inj h).1
    · rw [Option.getD_none, if_neg h0]
      by_cases h3 : nanos % 1000000 = 0
      · rw [if_pos h3]
        exact exact 3 (by decide) (by decide) (Nat.dvd_of_mod_eq_zero h3)
      · rw [if_neg h3]
        by_cases h6 : nanos % 1000 = 0
        · rw [if_pos h6]
          exact exact 6 (by decide) (by decide) (Nat.dvd_of_mod_eq_zero h6)
        · rw [if_neg h6]
          exact exact 9 (by decide) (by decide) (Nat.one_dvd nanos)
  · exact exact 9 (by decide) (by decide) (Nat.one_dvd nanos)

/-- A time of the day is read back, whatever follows that is no digit and no point. -/
theorem time?_write {places : Option Nat} (hp : places = none ∨ places = some 9) (t : Instant)
    {c : Char} (hc : c.isDigit = false) (hpoint : c ≠ '.') (rest : List Char) :
    time? (writeTwo ((t.seconds % 86400).toNat / 3600) ++
      ':' :: (writeTwo ((t.seconds % 86400).toNat / 60 % 60) ++
      ':' :: (writeTwo ((t.seconds % 86400).toNat % 60 + t.nanos / 10 ^ 9) ++
        (writeFraction places (t.nanos % 10 ^ 9) ++ c :: rest)))) =
      some (((t.seconds % 86400).toNat, t.nanos), c :: rest) := by
  have valid := t.nanosValid
  have mark := mark?_self (by decide : Text.isBlank ':' = false)
  have fraction := fraction?_writeFraction hp (Nat.mod_lt t.nanos (by decide)) hc hpoint rest
  have bounds : (t.seconds % 86400).toNat < 86400 := by omega
  have hour := two?_writeTwo 23 (n := (t.seconds % 86400).toNat / 3600) (by omega) (by decide)
  have minute := two?_writeTwo 59 (n := (t.seconds % 86400).toNat / 60 % 60) (by omega) (by decide)
  have second := two?_writeTwo 60 (n := (t.seconds % 86400).toNat % 60 + t.nanos / 10 ^ 9)
    (by omega) (by decide)
  simp only [time?, Option.bind_eq_bind, hour, mark, minute, second, fraction, Option.bind_some]
  rcases Nat.lt_or_ge t.nanos (10 ^ 9) with small | leap
  · have ordinary : ((t.seconds % 86400).toNat % 60 + t.nanos / 10 ^ 9 == 60) = false := by
      rw [beq_eq_false_iff_ne]
      omega
    simp only [ordinary, Bool.false_eq_true, if_false]
    refine congrArg some (Prod.ext (Prod.ext ?_ ?_) rfl) <;> simp only <;> omega
  · have last : ((t.seconds % 86400).toNat % 60 + t.nanos / 10 ^ 9 == 60) = true := by
      rw [beq_iff_eq]
      omega
    simp only [last, if_true]
    refine congrArg some (Prod.ext (Prod.ext ?_ ?_) rfl) <;> simp only <;> omega

/-- An instant is read back from its written form in any exact format. -/
theorem parse?_write {f : Format} (hf : f.IsExact) (t : Instant) : parse? (t.write f) = some t := by
  obtain ⟨hmonth, hday⟩ := Date.ofDays_bounds (t.seconds / 86400)
  have range := t.inRange
  have date := date?_write hmonth hday ('T' ::
    (writeTwo ((t.seconds % 86400).toNat / 3600) ++
      ':' :: (writeTwo ((t.seconds % 86400).toNat / 60 % 60) ++
      ':' :: (writeTwo ((t.seconds % 86400).toNat % 60 + t.nanos / 10 ^ 9) ++
        (writeFraction f.places (t.nanos % 10 ^ 9) ++ 'Z' :: [])))))
  have time := time?_write hf.1 t (by decide : 'Z'.isDigit = false) (by decide) []
  have zone : offset? ['Z'] = some (0, []) := by decide
  have inCalendar : dayInRange (t.seconds / 86400) = true := by
    simp only [dayInRange, Bool.and_eq_true, decide_eq_true_eq]
    omega
  have whole : t.seconds / 86400 * 86400 + (t.seconds % 86400).toNat - 0 = t.seconds := by omega
  have written : (t.write f).toList = writeYear (Date.ofDays (t.seconds / 86400)).year ++
      '-' :: (writeTwo (Date.ofDays (t.seconds / 86400)).month ++
      '-' :: (writeTwo (Date.ofDays (t.seconds / 86400)).day ++ 'T' ::
      (writeTwo ((t.seconds % 86400).toNat / 3600) ++
      ':' :: (writeTwo ((t.seconds % 86400).toNat / 60 % 60) ++
      ':' :: (writeTwo ((t.seconds % 86400).toNat % 60 + t.nanos / 10 ^ 9) ++
        (writeFraction f.places (t.nanos % 10 ^ 9) ++ 'Z' :: [])))))) := by
    simp [write, hf.2]
  rw [parse?, written, date]
  simp only [Option.bind_eq_bind, Option.bind_some, time, zone, Date.days?_ofDays, inCalendar, whole,
    ofParts?_self]
  rfl

theorem length_numeral_le {least width n : Nat} (h : n < 10 ^ width) (hw : 0 < width)
    (hl : least ≤ width) : (numeral least n).length ≤ width := by
  rw [numeral, Decimal.toChars, List.length_map]
  exact Decimal.length_padded_le h hw hl

theorem length_writeYear_le {y : Int} (hy : y.natAbs < 10 ^ 6) : (writeYear y).length ≤ 7 := by
  have := length_numeral_le hy (by decide) (by decide : 4 ≤ 6)
  rw [numeral] at this
  rw [writeYear, List.length_append]
  split_ifs <;> simp only [List.length_cons, List.length_nil] <;> omega

theorem length_writeTwo {n : Nat} (h : n < 100) : (writeTwo n).length = 2 :=
  (length_numeral h (by decide) : (numeral 2 n).length = 2)

/-- What is written of an instant in a tag is short, whatever its year. -/
theorem length_write_tagFormat_le (t : Instant) : (t.write tagFormat).length ≤ 34 := by
  obtain ⟨hmonth, hday⟩ := Date.ofDays_bounds (t.seconds / 86400)
  have range := t.inRange
  have valid := t.nanosValid
  have year := length_writeYear_le (Date.ofDays_year_bounds (n := t.seconds / 86400) (by omega))
  have month := length_writeTwo (n := (Date.ofDays (t.seconds / 86400)).month) (by omega)
  have day := length_writeTwo (n := (Date.ofDays (t.seconds / 86400)).day) (by omega)
  have hour := length_writeTwo (n := (t.seconds % 86400).toNat / 3600) (by omega)
  have minute := length_writeTwo (n := (t.seconds % 86400).toNat / 60 % 60) (by omega)
  have second := length_writeTwo
    (n := (t.seconds % 86400).toNat % 60 + t.nanos / 1000000000) (by omega)
  have fraction : (writeFraction tagFormat.places (t.nanos % 1000000000)).length = 10 := by
    have digits : (numeral 9 (t.nanos % 1000000000)).length = 9 :=
      length_numeral (Nat.mod_lt _ (by decide)) (by decide)
    simpa [writeFraction, tagFormat, numeral] using digits
  simp only [write, String.length_ofList, List.length_append, List.length_cons, month, day, hour,
    minute, second, fraction]
  have : tagFormat.zone.toList.length = 1 := rfl
  omega

end Instant
end DatasetFilters
