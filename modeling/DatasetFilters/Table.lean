namespace DatasetFilters.Table

variable {κ α : Type} [DecidableEq κ]

/-- Replaces the value of a key in a list of entries with distinct keys, or adds an entry at the
end. -/
def put (key : κ) (value : α) : List (κ × α) → List (κ × α)
  | [] => [(key, value)]
  | e :: es => if e.1 = key then (key, value) :: es else e :: put key value es

theorem lookup_cons (k : κ) (e : κ × α) (es : List (κ × α)) :
    (e :: es).lookup k = if k = e.1 then some e.2 else es.lookup k := by
  rw [List.lookup_cons]
  by_cases h : k = e.1
  · simp [h]
  · rw [if_neg h, beq_false_of_ne h]

/-- After `put`, a key has the new value if it is the one put and its old one otherwise. -/
theorem lookup_put (key k : κ) (value : α) (l : List (κ × α)) :
    (put key value l).lookup k = if k = key then some value else l.lookup k := by
  induction l with
  | nil => simp only [put, lookup_cons, List.lookup_nil]
  | cons e es ih =>
    unfold put
    split
    · next he =>
      subst he
      simp only [lookup_cons]
      split <;> rfl
    · next he =>
      simp only [lookup_cons, ih]
      by_cases hk : k = e.1
      · have hne : k ≠ key := fun hk' => he (hk ▸ hk')
        rw [if_pos hk, if_pos hk, if_neg hne]
      · rw [if_neg hk, if_neg hk]

end DatasetFilters.Table
