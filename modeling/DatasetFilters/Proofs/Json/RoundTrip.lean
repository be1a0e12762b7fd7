import DatasetFilters.Proofs.Json.Text
import DatasetFilters.Proofs.Text.Numeral

namespace DatasetFilters.Json

mutual

/-- Whether the numbers of a value are natural and its texts Unicode, as in all values that are
written here. -/
def isPlain : Json → Bool
  | .garbled => false
  | .number n => n == .ofNat n.whole
  | .array items => arePlainItems items
  | .object members => arePlainMembers members
  | _ => true

def arePlainItems : List Json → Bool
  | [] => true
  | v :: vs => isPlain v && arePlainItems vs

def arePlainMembers : List (Option String × Json) → Bool
  | [] => true
  | (name, v) :: vs => name.isSome && isPlain v && arePlainMembers vs

end

/-- What may follow a value in a text: nothing, a comma or a closing bracket. -/
def Delimited : Octets → Prop
  | [] => True
  | b :: _ => b = 44 ∨ b = 93 ∨ b = 125

/-- A number is read up to what may follow a value. -/
theorem number?_octets (n : Nat) {rest : Octets} (hd : Delimited rest) :
    number? (Decimal.octets n ++ rest) = some (.ofNat n, rest) := by
  obtain ⟨b, tail, he, hb, hz⟩ := Decimal.octets_head n
  have digits : ∀ d ∈ Decimal.octets n, Decimal.isDigit d = true :=
    fun d => Decimal.isDigit_of_mem_octets
  have ends : rest.takeWhile Decimal.isDigit = [] ∧ rest.dropWhile Decimal.isDigit = rest ∧
      fraction? rest = some ([], rest) ∧ exponent? rest = some (none, rest) := by
    cases rest with
    | nil => exact ⟨rfl, rfl, rfl, rfl⟩
    | cons c rest => rcases hd with rfl | rfl | rfl <;> exact ⟨rfl, rfl, rfl, rfl⟩
  have sign : b ≠ 45 := by
    intro same
    obtain rfl := same
    simp [Decimal.isDigit] at hb
  have unsigned : number? (Decimal.octets n ++ rest) = unsigned? false (Decimal.octets n ++ rest) := by
    rw [he, List.cons_append, number?.eq_2 _ (fun _ h => sign (List.cons.inj h).1)]
  have canonical : ((Decimal.octets n).isEmpty || ((Decimal.octets n).head? == some 48 &&
      decide ((Decimal.octets n).length > 1))) = false := by
    by_cases h48 : b = 48
    · simp [he, hz h48]
    · simp [he, h48]
  rw [unsigned, unsigned?, List.takeWhile_append_of_pos digits, List.dropWhile_append_of_pos digits,
    ends.1, ends.2.1, ends.2.2.1, List.append_nil, canonical]
  simp [ends.2.2.2, Decimal.value_octets, JsonNumber.ofNat]

theorem skipSpace_of_not_space {b : UInt8} (tail : Octets) (hb : isSpace b = false) :
    skipSpace (b :: tail) = b :: tail := by
  simp [skipSpace, hb]

theorem isSpace_of_isDigit {b : UInt8} (hb : Decimal.isDigit b = true) : isSpace b = false := by
  have other (c : UInt8) (hc : Decimal.isDigit c = false) : (b == c) = false := by
    rw [beq_eq_false_iff_ne]
    intro same
    obtain rfl := same
    simp [hc] at hb
  rw [isSpace, other 32 rfl, other 9 rfl, other 10 rfl, other 13 rfl]
  rfl

/-- No value is written as a space or a closing bracket first. -/
theorem write_head (j : Json) :
    ∃ b tail, write j = b :: tail ∧ isSpace b = false ∧ b ≠ 93 := by
  cases j with
  | null => exact ⟨110, _, by rw [write], by decide, by decide⟩
  | garbled => exact ⟨110, _, by rw [write], by decide, by decide⟩
  | bool b =>
    cases b
    · exact ⟨102, _, by rw [write], by decide, by decide⟩
    · exact ⟨116, _, by rw [write], by decide, by decide⟩
  | text s => exact ⟨34, _, by rw [write, writeText], by decide, by decide⟩
  | array items => exact ⟨91, _, by rw [write], by decide, by decide⟩
  | object members => exact ⟨123, _, by rw [write], by decide, by decide⟩
  | number n =>
    obtain ⟨b, tail, he, hb, -⟩ := Decimal.octets_head n.whole
    rw [write, writeNumber, he]
    cases n.negative with
    | true => exact ⟨45, _, rfl, by decide, by decide⟩
    | false =>
      refine ⟨b, _, rfl, isSpace_of_isDigit hb, ?_⟩
      intro same
      obtain rfl := same
      simp [Decimal.isDigit] at hb

theorem skipSpace_write (j : Json) (rest : Octets) :
    skipSpace (write j ++ rest) = write j ++ rest := by
  obtain ⟨b, tail, he, hb, -⟩ := write_head j
  rw [he, List.cons_append, skipSpace_of_not_space _ hb]

theorem writeItems_head (v : Json) (vs : List Json) :
    ∃ b tail, writeItems (v :: vs) = b :: tail ∧ isSpace b = false ∧ b ≠ 93 := by
  obtain ⟨b, tail, he, hb, hc⟩ := write_head v
  cases vs with
  | nil => exact ⟨b, tail, by rw [writeItems, he], hb, hc⟩
  | cons w vs => exact ⟨b, _, by rw [writeItems, he, List.cons_append], hb, hc⟩

theorem writeMembers_head (m : Option String × Json) (ms : List (Option String × Json)) :
    ∃ tail, writeMembers (m :: ms) = 34 :: tail := by
  cases ms with
  | nil => exact ⟨_, by rw [writeMembers, writeText, List.cons_append]⟩
  | cons w ms => exact ⟨_, by rw [writeMembers, writeText, List.cons_append]⟩

/-- Digits are read as a number, since no other value starts with one. -/
theorem value?_octets (fuel n : Nat) {rest : Octets} (hd : Delimited rest) :
    value? (fuel + 1) (Decimal.octets n ++ rest) = some (.number (.ofNat n), rest) := by
  obtain ⟨b, tail, he, hb, -⟩ := Decimal.octets_head n
  have other (c : UInt8) (hc : Decimal.isDigit c = false) (t t' : Octets) : b :: t ≠ c :: t' := by
    intro h
    rw [(List.cons.inj h).1, hc] at hb
    exact absurd hb (by decide)
  have read := number?_octets n hd
  rw [he, List.cons_append] at read ⊢
  rw [value?, read]
  · rfl
  all_goals exact fun t => other _ rfl _ _

theorem members?_cons {fuel : Nat} {name : String} {v : Json} {rest after : Octets}
    (hv : value? fuel (write v ++ rest) = some (v, after)) :
    members? (fuel + 1) (writeText name ++ 58 :: (write v ++ rest)) =
      (match skipSpace after with
        | 44 :: rest => do
          let (vs, rest) ← members? fuel rest
          return ((some name, v) :: vs, rest)
        | 125 :: rest => some ([(some name, v)], rest)
        | _ => none) := by
  obtain ⟨body, he, hb⟩ := text?_writeText name (58 :: (write v ++ rest))
  rw [members?, he, skipSpace_of_not_space body rfl]
  simp only [hb, Option.bind_eq_bind, Option.bind_some,
    skipSpace_of_not_space _ (rfl : isSpace 58 = false), skipSpace_write, hv]
  rfl

/- The induction is on the fuel, which bounds the length of the written form: a value is longer
than its items or members, and these are longer than each of them. -/
mutual

/-- A plain value is read back, and what follows it is left. -/
theorem value?_write (j : Json) (hj : isPlain j = true) (fuel : Nat)
    (hf : (write j).length ≤ fuel) (rest : Octets) (hd : Delimited rest) :
    value? fuel (write j ++ rest) = some (j, rest) := by
  obtain ⟨b, tail, he, -, -⟩ := write_head j
  obtain ⟨fuel, rfl⟩ : ∃ f, fuel = f + 1 := by
    rw [he, List.length_cons] at hf
    exact ⟨fuel - 1, by omega⟩
  cases j with
  | null => rw [write]; rfl
  | garbled => simp [isPlain] at hj
  | bool b => cases b <;> rw [write] <;> rfl
  | text s =>
    obtain ⟨body, hs, hb⟩ := text?_writeText s rest
    rw [write, hs]
    simp [value?, hb]
  | number n =>
    have hn : n = .ofNat n.whole := by simpa [isPlain] using hj
    have written : write (.number n) = Decimal.octets n.whole := by
      rw [hn, write, writeNumber]
      simp [JsonNumber.ofNat]
    rw [written, value?_octets fuel n.whole hd, ← hn]
  | array items =>
    rw [write] at hf ⊢
    cases items with
    | nil => simp [writeItems, value?, skipSpace_of_not_space _ (rfl : isSpace 93 = false)]
    | cons v vs =>
      have read := items?_write v vs (by simpa [isPlain] using hj) fuel
        (by simp at hf ⊢; omega) rest
      obtain ⟨c, tail, hc, hspace, hclose⟩ := writeItems_head v vs
      rw [List.cons_append, List.append_assoc, List.singleton_append]
      rw [hc, List.cons_append] at read ⊢
      simp [value?, skipSpace_of_not_space _ hspace, hclose, read]
  | object members =>
    rw [write] at hf ⊢
    cases members with
    | nil => simp [writeMembers, value?, skipSpace_of_not_space _ (rfl : isSpace 125 = false)]
    | cons m ms =>
      have read := members?_write m ms (by simpa [isPlain] using hj) fuel
        (by simp at hf ⊢; omega) rest
      obtain ⟨tail, hc⟩ := writeMembers_head m ms
      rw [List.cons_append, List.append_assoc, List.singleton_append]
      rw [hc, List.cons_append] at read ⊢
      simp [value?, skipSpace_of_not_space _ (rfl : isSpace 34 = false), read]
termination_by fuel

theorem items?_write (v : Json) (vs : List Json) (hp : arePlainItems (v :: vs) = true) (fuel : Nat)
    (hf : (writeItems (v :: vs)).length + 1 ≤ fuel) (rest : Octets) :
    items? fuel (writeItems (v :: vs) ++ 93 :: rest) = some (v :: vs, rest) := by
  obtain ⟨fuel, rfl⟩ : ∃ f, fuel = f + 1 := ⟨fuel - 1, by omega⟩
  rw [arePlainItems, Bool.and_eq_true] at hp
  cases vs with
  | nil =>
    rw [writeItems] at hf ⊢
    have first := value?_write v hp.1 fuel (by omega) (93 :: rest) (Or.inr (Or.inl rfl))
    simp [items?, skipSpace_write, first, skipSpace_of_not_space _ (rfl : isSpace 93 = false)]
  | cons w vs =>
    rw [writeItems, List.length_append, List.length_cons] at hf
    rw [writeItems, List.append_assoc, List.cons_append]
    have first := value?_write v hp.1 fuel (by omega) (44 :: (writeItems (w :: vs) ++ 93 :: rest))
      (Or.inl rfl)
    have others := items?_write w vs hp.2 fuel (by omega) rest
    simp [items?, skipSpace_write, first, skipSpace_of_not_space _ (rfl : isSpace 44 = false), others]
termination_by fuel

theorem members?_write (m : Option String × Json) (ms : List (Option String × Json))
    (hp : arePlainMembers (m :: ms) = true) (fuel : Nat)
    (hf : (writeMembers (m :: ms)).length + 1 ≤ fuel) (rest : Octets) :
    members? fuel (writeMembers (m :: ms) ++ 125 :: rest) = some (m :: ms, rest) := by
  obtain ⟨fuel, rfl⟩ : ∃ f, fuel = f + 1 := ⟨fuel - 1, by omega⟩
  obtain ⟨name, v⟩ := m
  rw [arePlainMembers, Bool.and_eq_true, Bool.and_eq_true] at hp
  obtain ⟨⟨hname, hv⟩, hms⟩ := hp
  obtain ⟨name, rfl⟩ := Option.isSome_iff_exists.mp hname
  cases ms with
  | nil =>
    rw [writeMembers, List.length_append, List.length_cons] at hf
    rw [writeMembers, List.append_assoc, List.cons_append]
    have value := value?_write v hv fuel (by omega) (125 :: rest) (Or.inr (Or.inr rfl))
    rw [Option.getD_some, members?_cons value, skipSpace_of_not_space _ rfl]
    rfl
  | cons w ms =>
    rw [writeMembers, List.length_append, List.length_cons, List.length_append,
      List.length_cons] at hf
    rw [writeMembers, List.append_assoc, List.cons_append, List.append_assoc, List.cons_append]
    have value := value?_write v hv fuel (by omega)
      (44 :: (writeMembers (w :: ms) ++ 125 :: rest)) (Or.inl rfl)
    have others := members?_write w ms hms fuel (by omega) rest
    rw [Option.getD_some, members?_cons value, skipSpace_of_not_space _ rfl]
    simp [others]
termination_by fuel

end

/-- The written form of a plain value denotes that value. -/
theorem parse?_write {j : Json} (hj : j.isPlain = true) : parse? (write j) = some j := by
  have start : skipSpace (write j) = write j := by
    simpa using skipSpace_write j []
  have read := value?_write j hj (2 * (write j).length + 2) (by omega) [] trivial
  rw [List.append_nil] at read
  rw [parse?, start, read]
  rfl

end DatasetFilters.Json
