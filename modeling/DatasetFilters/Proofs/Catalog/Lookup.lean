import DatasetFilters.Catalog.Lookup
import DatasetFilters.Service.Validation

namespace DatasetFilters

theorem flatten_chunks (n : Nat) (l : List α) : (chunks n l).flatten = l := by
  fun_induction chunks n l with
  | case1 => rfl
  | case2 a rest ih => rw [List.flatten_cons, ih, List.cons_append, List.take_append_drop]

namespace Lookup

/-- The courses of a lookup whose batches are answered as `honest` allows. -/
inductive Runs (honest : List String → CatalogReply (List String) → Prop) :
    Lookup → Lookup → Prop
  | rest (l : Lookup) : Runs honest l l
  | start {l l' l'' : Lookup} (runs : Runs honest l l') (h : l'.start? = some l'') :
      Runs honest l l''
  | finish {l l' l'' : Lookup} (runs : Runs honest l l') (i : Nat) (batch : List String)
      (hbatch : l'.running[i]? = some batch) (answer : CatalogReply (List String))
      (hanswer : honest batch answer) (h : l'.finish? i answer = some l'') : Runs honest l l''

/-- No id is lost, as long as nothing failed, and what is confirmed are options. -/
structure Covers (option : String → Prop) (ids : List String) (l : Lookup) : Prop where
  complete : l.failure = none → ∀ id ∈ ids, id ∈ l.waiting.flatten ∨ id ∈ l.running.flatten ∨
    ∃ c ∈ l.confirmed, id ∈ c.requested
  found : ∀ c ∈ l.confirmed, ∀ id ∈ c.found, option id

variable {honest : List String → CatalogReply (List String) → Prop} {option : String → Prop}
  {ids : List String} {l l' : Lookup}

theorem covers_plan (limits : BatchLimits) (ids : List String) :
    (plan limits ids).Covers option ids where
  complete := by
    intro _ id hid
    exact Or.inl (by rw [plan, flatten_chunks]; exact hid)
  found := by simp [plan]

theorem Covers.start (hl : l.Covers option ids) (h : l.start? = some l') :
    l'.Covers option ids := by
  unfold start? at h
  split at h
  · rename_i batch rest hwaiting
    split at h
    · obtain rfl := Option.some.inj h
      refine ⟨?_, hl.found⟩
      intro hfailure id hid
      have old := hl.complete hfailure id hid
      simp only [hwaiting, List.flatten_cons, List.mem_append] at old
      simp only [List.flatten_append, List.flatten_cons, List.flatten_nil, List.append_nil,
        List.mem_append]
      rcases old with (h | h) | h | h
      · exact Or.inr (Or.inl (Or.inr h))
      · exact Or.inl h
      · exact Or.inr (Or.inl (Or.inl h))
      · exact Or.inr (Or.inr h)
    · exact absurd h (by simp)
  · exact absurd h (by simp)

theorem mem_flatten_eraseIdx {batches : List (List String)} {i : Nat} {batch : List String}
    (h : batches[i]? = some batch) {id : String} (hid : id ∈ batches.flatten) :
    id ∈ batch ∨ id ∈ (batches.eraseIdx i).flatten := by
  obtain ⟨b, hb, hid⟩ := List.mem_flatten.mp hid
  obtain ⟨j, hj⟩ := List.mem_iff_getElem?.mp hb
  by_cases hij : j = i
  · rw [hij, h, Option.some.injEq] at hj
    exact Or.inl (hj ▸ hid)
  · have kept := List.mem_eraseIdx_iff_getElem?.mpr ⟨j, hij, hj⟩
    exact Or.inr (List.mem_flatten.mpr ⟨b, kept, hid⟩)

/-- An answer confirms the options in its batch, or is a failure. -/
theorem Covers.finish (hl : l.Covers option ids)
    (hhonest : ∀ batch found, honest batch (.ok found) → ∀ id ∈ found, option id) {i : Nat}
    {batch : List String} (hbatch : l.running[i]? = some batch)
    {answer : CatalogReply (List String)} (hanswer : honest batch answer)
    (h : l.finish? i answer = some l') : l'.Covers option ids := by
  simp only [finish?, hbatch] at h
  cases hfailure : l.failure with
  | some e =>
    simp only [hfailure, Option.isSome_some, if_true, Option.some.injEq] at h
    subst h
    exact ⟨by simp, hl.found⟩
  | none =>
    simp only [hfailure, Option.isSome_none, Bool.false_eq_true, if_false] at h
    cases answer with
    | error e =>
      obtain rfl := Option.some.inj h
      exact ⟨by simp, hl.found⟩
    | ok found =>
      obtain rfl := Option.some.inj h
      constructor
      · intro _ id hid
        simp only [List.mem_append, List.mem_singleton]
        rcases hl.complete hfailure id hid with h | h | ⟨c, hc, h⟩
        · exact Or.inl h
        · rcases mem_flatten_eraseIdx hbatch h with h | h
          · exact Or.inr (Or.inr ⟨⟨batch, found⟩, Or.inr rfl, h⟩)
          · exact Or.inr (Or.inl h)
        · exact Or.inr (Or.inr ⟨c, Or.inl hc, h⟩)
      · intro c hc
        rcases List.mem_append.mp hc with hc | hc
        · exact hl.found c hc
        · rw [List.mem_singleton.mp hc]
          exact hhonest batch found hanswer

/-- No id is lost in a whole run, whatever the order in which answers arrive. -/
theorem Runs.covers (h : Runs honest l l') (hl : l.Covers option ids)
    (hhonest : ∀ batch found, honest batch (.ok found) → ∀ id ∈ found, option id) :
    l'.Covers option ids := by
  induction h with
  | rest => exact hl
  | start runs h ih => exact ih.start h
  | finish runs i batch hbatch answer hanswer h ih =>
    exact ih.finish hhonest hbatch hanswer h

/-- A lookup that is done and leaves nothing missing has confirmed all ids. -/
theorem Runs.option_of_verdict {limits : BatchLimits} {confirmed : List Confirmation}
    {dimension : String} (h : Runs honest (plan limits ids) l)
    (hhonest : ∀ batch found, honest batch (.ok found) → ∀ id ∈ found, option id)
    (hdone : l.isDone = true) (houtcome : l.outcome = .ok confirmed)
    (hverdict : Validation.verdict dimension ids confirmed = .ok ()) : ∀ id ∈ ids, option id := by
  have covers : l.Covers option ids := h.covers (covers_plan limits ids) hhonest
  intro id hid
  unfold outcome at houtcome
  cases hfailure : l.failure with
  | some e => simp [hfailure] at houtcome
  | none =>
    simp only [hfailure, Except.ok.injEq] at houtcome
    simp only [isDone, hfailure, Option.isSome_none, Bool.or_false, Bool.and_eq_true,
      List.isEmpty_iff] at hdone
    obtain ⟨hrunning, hwaiting⟩ := hdone
    have requested := covers.complete hfailure id hid
    simp only [hrunning, hwaiting, List.flatten_nil, List.not_mem_nil, false_or] at requested
    obtain ⟨c, hc, hidc⟩ := requested
    by_cases found : id ∈ c.found
    · exact covers.found c hc id found
    · -- an id that was requested and not found would have been missing
      have missing : id ∈ Validation.missing confirmed := by
        rw [← houtcome, Validation.missing, List.mem_flatMap]
        exact ⟨c, hc, List.mem_filter.mpr ⟨hidc, by simp [found]⟩⟩
      have unknown : id ∈ ids.filter (Validation.missing confirmed).contains :=
        List.mem_filter.mpr ⟨hid, List.contains_iff_mem.mpr missing⟩
      unfold Validation.verdict at hverdict
      cases hunknown : ids.filter (Validation.missing confirmed).contains with
      | nil => simp [hunknown] at unknown
      | cons first rest => simp [hunknown] at hverdict

end Lookup
end DatasetFilters
