import DatasetFilters.Proofs.Catalog.Lookup

namespace DatasetFilters

/-- No batch is empty, and none is longer than the size of batches. -/
theorem length_of_mem_chunks {n : Nat} {l c : List α} (h : c ∈ chunks n l) :
    c ≠ [] ∧ c.length ≤ n + 1 := by
  fun_induction chunks n l with
  | case1 => exact absurd h List.not_mem_nil
  | case2 a rest ih =>
    rcases List.mem_cons.mp h with rfl | h
    · exact ⟨List.cons_ne_nil _ _, Nat.succ_le_succ (List.length_take_le n rest)⟩
    · exact ih h

theorem length_chunks_le (n : Nat) (l : List α) : (chunks n l).length ≤ l.length := by
  fun_induction chunks n l with
  | case1 => exact Nat.le_refl _
  | case2 a rest ih =>
    rw [List.length_drop] at ih
    simp only [List.length_cons]
    omega

namespace Lookup

/-- What happens in a course: a batch is asked for, or is answered. -/
inductive Incident where
  | asked (batch : List String)
  | answered (batch : List String) (answer : CatalogReply (List String))

namespace Incident

def asked? : Incident → Option (List String)
  | asked batch => some batch
  | answered _ _ => none

def answered? : Incident → Option (List String)
  | asked _ => none
  | answered batch _ => some batch

def failure? : Incident → Option CatalogError
  | answered _ (.error e) => some e
  | _ => none

end Incident

/-- The batches that were asked for, in order. -/
def asked (log : List Incident) : List (List String) := log.filterMap Incident.asked?

/-- The batches that were answered, in order. -/
def answered (log : List Incident) : List (List String) := log.filterMap Incident.answered?

/-- The failure that came first. -/
def firstFailure? (log : List Incident) : Option CatalogError := log.findSome? Incident.failure?

section

variable (log : List Incident) (batch : List String) (answer : CatalogReply (List String))

@[simp] theorem asked_append (log' : List Incident) : asked (log ++ log') = asked log ++ asked log' :=
  List.filterMap_append

@[simp] theorem answered_append (log' : List Incident) :
    answered (log ++ log') = answered log ++ answered log' :=
  List.filterMap_append

@[simp] theorem firstFailure?_append (log' : List Incident) :
    firstFailure? (log ++ log') = (firstFailure? log).or (firstFailure? log') :=
  List.findSome?_append

@[simp] theorem asked_asked : asked [.asked batch] = [batch] := rfl

@[simp] theorem asked_answered : asked [.answered batch answer] = [] := rfl

@[simp] theorem answered_asked : answered [.asked batch] = [] := rfl

@[simp] theorem answered_answered : answered [.answered batch answer] = [batch] := rfl

@[simp] theorem firstFailure?_asked : firstFailure? [.asked batch] = none := rfl

theorem length_eq_asked_add_answered : log.length = (asked log).length + (answered log).length := by
  induction log with
  | nil => rfl
  | cons i log ih =>
    rw [← List.singleton_append, List.length_append, asked_append, answered_append,
      List.length_append, List.length_append, ih]
    cases i with
    | asked batch =>
      simp only [asked_asked, answered_asked, List.length_nil, List.length_singleton]
      omega
    | answered batch answer =>
      simp only [asked_answered, answered_answered, List.length_nil, List.length_singleton]
      omega

end

variable {l l' l'' : Lookup} {log log' : List Incident}

/-- A batch is asked for while nothing failed and a worker is free. -/
theorem start?_eq_some (h : l.start? = some l') : ∃ batch, l.waiting = batch :: l'.waiting ∧
    l.failure = none ∧ l.running.length < l.workers ∧
    l' = { l with waiting := l'.waiting, running := l.running ++ [batch] } := by
  unfold start? at h
  split at h
  · next batch rest hwaiting =>
    split at h
    · next room =>
      obtain rfl := Option.some.inj h
      simp only [Bool.and_eq_true, Option.isNone_iff_eq_none, decide_eq_true_eq] at room
      exact ⟨batch, hwaiting, room.1, room.2, rfl⟩
    · contradiction
  · contradiction

/-- An answer is kept, or is the failure, or is dropped after one. -/
theorem finish?_eq_some {i : Nat} {batch : List String} {answer : CatalogReply (List String)}
    (hbatch : l.running[i]? = some batch) (h : l.finish? i answer = some l') :
    ∃ confirmed, l' = { l with
        running := l.running.eraseIdx i
        confirmed := confirmed
        failure := l.failure.or (firstFailure? [.answered batch answer]) } ∧
      (confirmed = l.confirmed ∨
        ∃ found, answer = .ok found ∧ confirmed = l.confirmed ++ [⟨batch, found⟩]) := by
  simp only [finish?, hbatch] at h
  cases hfailure : l.failure with
  | some e =>
    simp only [hfailure, Option.isSome_some, if_true, Option.some.injEq] at h
    exact ⟨_, h.symm, Or.inl rfl⟩
  | none =>
    simp only [hfailure, Option.isSome_none, Bool.false_eq_true, if_false] at h
    cases answer with
    | error e => exact ⟨_, (Option.some.inj h).symm, Or.inl rfl⟩
    | ok found => exact ⟨_, (Option.some.inj h).symm, Or.inr ⟨found, rfl, rfl⟩⟩

/-- What happens from one state of a lookup to another. Any request in flight may be answered
next. -/
inductive Course (l : Lookup) : List Incident → Lookup → Prop
  | rest : Course l [] l
  | start {log : List Incident} {l' l'' : Lookup} (course : Course l log l')
      (batch : List String) (hbatch : l'.waiting.head? = some batch) (h : l'.start? = some l'') :
      Course l (log ++ [.asked batch]) l''
  | finish {log : List Incident} {l' l'' : Lookup} (course : Course l log l') (i : Nat)
      (batch : List String) (hbatch : l'.running[i]? = some batch)
      (answer : CatalogReply (List String)) (h : l'.finish? i answer = some l'') :
      Course l (log ++ [.answered batch answer]) l''

namespace Course

theorem runs {honest : List String → CatalogReply (List String) → Prop} (course : l.Course log l')
    (h : ∀ batch answer, .answered batch answer ∈ log → honest batch answer) :
    Runs honest l l' := by
  induction course with
  | rest => exact .rest l
  | start course batch hbatch hstart ih =>
    exact .start (ih fun b a hb => h b a (List.mem_append_left _ hb)) hstart
  | finish course i batch hbatch answer hfinish ih =>
    exact .finish (ih fun b a hb => h b a (List.mem_append_left _ hb)) i batch hbatch answer
      (h batch answer (List.mem_append_right _ List.mem_cons_self)) hfinish

/-- What has happened at some time is a course as well. -/
theorem of_prefix {earlier : List Incident} (course : l.Course log l') (h : earlier <+: log) :
    ∃ l'', l.Course earlier l'' := by
  induction course with
  | rest => exact ⟨l, List.prefix_nil.mp h ▸ .rest⟩
  | @start log l₁ l₂ course batch hbatch hstart ih =>
    rcases List.prefix_concat_iff.mp h with rfl | h
    · exact ⟨l₂, .start course batch hbatch hstart⟩
    · exact ih h
  | @finish log l₁ l₂ course i batch hbatch answer hfinish ih =>
    rcases List.prefix_concat_iff.mp h with rfl | h
    · exact ⟨l₂, .finish course i batch hbatch answer hfinish⟩
    · exact ih h

end Course

/-- What a planned lookup keeps to. -/
structure Keeps (limits : BatchLimits) (ids : List String) (log : List Incident) (l : Lookup) :
    Prop where
  workers : l.workers = max limits.workers 1
  batches : asked log ++ l.waiting = chunks (max limits.size 1 - 1) ids
  inFlight : (asked log).length = (answered log).length + l.running.length
  room : l.running.length ≤ l.workers
  failure : l.failure = firstFailure? log
  confirmed : ∀ c ∈ l.confirmed, .answered c.requested (.ok c.found) ∈ log

variable {limits : BatchLimits} {ids : List String}

theorem keeps_plan : Keeps limits ids [] (plan limits ids) where
  workers := rfl
  batches := rfl
  inFlight := rfl
  room := Nat.zero_le _
  failure := rfl
  confirmed := fun _ hc => absurd hc List.not_mem_nil

theorem Keeps.start (keeps : Keeps limits ids log l) {batch : List String}
    (hbatch : l.waiting.head? = some batch) (h : l.start? = some l') :
    Keeps limits ids (log ++ [.asked batch]) l' := by
  obtain ⟨first, hwaiting, hfailure, hroom, hl'⟩ := start?_eq_some h
  rw [hwaiting, List.head?_cons, Option.some.injEq] at hbatch
  subst hbatch
  have batches := keeps.batches
  have inFlight := keeps.inFlight
  rw [hwaiting] at batches
  rw [hl']
  refine ⟨keeps.workers, ?_, ?_, ?_, ?_, ?_⟩
  · simpa using batches
  · simp only [asked_append, asked_asked, answered_append, answered_asked, List.append_nil,
      List.length_append, List.length_singleton]
    omega
  · simpa using Nat.succ_le_of_lt hroom
  · simpa using keeps.failure
  · exact fun c hc => List.mem_append_left _ (keeps.confirmed c hc)

/-- The answer to any of the batches in flight, good or bad, keeps to it. -/
theorem Keeps.finish (keeps : Keeps limits ids log l) {i : Nat} {batch : List String}
    {answer : CatalogReply (List String)} (hbatch : l.running[i]? = some batch)
    (h : l.finish? i answer = some l') : Keeps limits ids (log ++ [.answered batch answer]) l' := by
  obtain ⟨confirmed, rfl, hconfirmed⟩ := finish?_eq_some hbatch h
  have inFlight := keeps.inFlight
  have room := keeps.room
  obtain ⟨hi, -⟩ := List.getElem?_eq_some_iff.mp hbatch
  refine ⟨keeps.workers, ?_, ?_, ?_, ?_, ?_⟩
  · simpa using keeps.batches
  · simp only [asked_append, asked_answered, answered_append, answered_answered, List.append_nil,
      List.length_append, List.length_singleton, List.length_eraseIdx_of_lt hi]
    omega
  · simp only [List.length_eraseIdx_of_lt hi]
    omega
  · rw [firstFailure?_append, keeps.failure]
  · intro c hc
    rcases hconfirmed with rfl | ⟨found, rfl, rfl⟩
    · exact List.mem_append_left _ (keeps.confirmed c hc)
    · rcases List.mem_append.mp hc with hc | hc
      · exact List.mem_append_left _ (keeps.confirmed c hc)
      · exact List.mem_append_right _ (List.mem_singleton.mp hc ▸ List.mem_cons_self)

/-- Whatever the order of the answers, a course of a planned lookup keeps to it. -/
theorem Course.keeps (course : (plan limits ids).Course log l) : Keeps limits ids log l := by
  induction course with
  | rest => exact keeps_plan
  | start course batch hbatch h ih => exact ih.start hbatch h
  | finish course i batch hbatch answer h ih => exact ih.finish hbatch h

namespace Course

section

variable (course : (plan limits ids).Course log l)

include course

/-- The batches asked for hold the ids in order, from the first one on. -/
theorem asked_prefix : (asked log).flatten <+: ids := by
  refine ⟨l.waiting.flatten, ?_⟩
  rw [← List.flatten_append, course.keeps.batches, flatten_chunks]

theorem asked_fits {batch : List String} (h : batch ∈ asked log) :
    batch ≠ [] ∧ batch.length ≤ max limits.size 1 := by
  have chunk : batch ∈ chunks (max limits.size 1 - 1) ids :=
    course.keeps.batches ▸ List.mem_append_left _ h
  obtain ⟨nonempty, short⟩ := length_of_mem_chunks chunk
  exact ⟨nonempty, by omega⟩

/-- No more batches are in flight than there are workers. -/
theorem inFlight_le : (asked log).length ≤ (answered log).length + max limits.workers 1 := by
  have keeps := course.keeps
  rw [keeps.inFlight, ← keeps.workers]
  exact Nat.add_le_add_left keeps.room _

/-- After a failure no batch is asked for. -/
theorem asked_eq_nil {before after : List Incident} (hlog : log = before ++ after)
    (hfailed : firstFailure? before ≠ none) : asked after = [] := by
  induction course generalizing after with
  | rest =>
    rw [(List.append_eq_nil_iff.mp hlog.symm).2]
    rfl
  | @start log l₁ l₂ course batch hbatch h ih =>
    rcases List.eq_nil_or_concat after with rfl | ⟨earlier, last, rfl⟩
    · rfl
    · rw [List.concat_eq_append, ← List.append_assoc] at hlog
      obtain ⟨rfl, -⟩ := List.append_inj' hlog rfl
      obtain ⟨-, -, none, -⟩ := start?_eq_some h
      rw [course.keeps.failure, firstFailure?_append, Option.or_eq_none_iff] at none
      exact absurd none.1 hfailed
  | @finish log l₁ l₂ course i batch hbatch answer h ih =>
    rcases List.eq_nil_or_concat after with rfl | ⟨earlier, last, rfl⟩
    · rfl
    · rw [List.concat_eq_append, ← List.append_assoc] at hlog
      obtain ⟨rfl, hlast⟩ := List.append_inj' hlog rfl
      rw [List.concat_eq_append, asked_append, ih rfl, ← hlast]
      rfl

/-- A lookup that is done without a failure has asked for everything and heard every answer. -/
theorem all_answered (hdone : l.isDone = true) (hok : firstFailure? log = none) :
    l.running = [] ∧ l.waiting = [] := by
  simpa [isDone, course.keeps.failure, hok] using hdone

/-- A lookup that is done without a failure has asked for all ids. -/
theorem asked_eq (hdone : l.isDone = true) (hok : firstFailure? log = none) :
    (asked log).flatten = ids := by
  have batches := course.keeps.batches
  rw [(course.all_answered hdone hok).2, List.append_nil] at batches
  rw [batches, flatten_chunks]

/-- A lookup that is done without a failure has an answer for every id. -/
theorem confirmed (hdone : l.isDone = true) (hok : firstFailure? log = none) :
    ∀ id ∈ ids, ∃ c ∈ l.confirmed, id ∈ c.requested := by
  intro id hid
  have runs : Runs (fun _ _ => True) (plan limits ids) l := course.runs fun _ _ _ => trivial
  have covers : l.Covers (fun _ => True) ids :=
    runs.covers (covers_plan limits ids) fun _ _ _ _ _ => trivial
  obtain ⟨running, waiting⟩ := course.all_answered hdone hok
  simpa [running, waiting] using covers.complete (course.keeps.failure.trans hok) id hid

/-- No course is longer than it takes to ask for every id on its own and to answer. -/
theorem length_le : log.length ≤ 2 * ids.length := by
  have keeps := course.keeps
  have batches := congrArg List.length keeps.batches
  have bound := length_chunks_le (max limits.size 1 - 1) ids
  have inFlight := keeps.inFlight
  rw [List.length_append] at batches
  rw [length_eq_asked_add_answered]
  omega

/-- A lookup that is not done asks for the next batch, or waits for an answer. -/
theorem goes_on (h : l.isDone = false) : (∃ l', l.start? = some l') ∨ l.running ≠ [] := by
  by_cases running : l.running = []
  · left
    have keeps := course.keeps
    simp only [isDone, running, List.isEmpty_nil, Bool.true_and, Bool.or_eq_false_iff,
      Option.isSome_eq_false_iff] at h
    cases hwaiting : l.waiting with
    | nil => simp [hwaiting] at h
    | cons batch rest =>
      have room : 0 < l.workers := by
        have := keeps.workers
        omega
      simp [start?, hwaiting, h.2, running, room]
  · exact Or.inr running

end

/-- A lookup that is not done can go on, with whatever is replied. -/
theorem next (reply : List String → CatalogReply (List String))
    (course : (plan limits ids).Course log l) (h : l.isDone = false) :
    ∃ i l', (plan limits ids).Course (log ++ [i]) l' ∧
      ∀ batch answer, i = .answered batch answer → answer = reply batch := by
  rcases course.goes_on h with ⟨l', hl'⟩ | hrunning
  · obtain ⟨batch, hwaiting, -⟩ := start?_eq_some hl'
    exact ⟨.asked batch, l', .start course batch (by rw [hwaiting]; rfl) hl', by simp⟩
  · obtain ⟨batch, rest, hbatch⟩ := List.exists_cons_of_ne_nil hrunning
    have first : l.running[0]? = some batch := by rw [hbatch]; rfl
    obtain ⟨l', hl'⟩ : ∃ l', l.finish? 0 (reply batch) = some l' := by
      simp only [finish?, first]
      split
      · exact ⟨_, rfl⟩
      · cases reply batch <;> exact ⟨_, rfl⟩
    refine ⟨.answered batch (reply batch), l', .finish course 0 batch first _ hl', ?_⟩
    rintro _ _ ⟨⟩
    rfl

/-- Every course can be taken to its end, however the batches still to come are answered. -/
theorem can_finish {log : List Incident} {l : Lookup}
    (reply : List String → CatalogReply (List String)) (course : (plan limits ids).Course log l) :
    ∃ more l', (plan limits ids).Course (log ++ more) l' ∧ l'.isDone = true ∧
      ∀ batch answer, .answered batch answer ∈ more → answer = reply batch := by
  by_cases h : l.isDone = true
  · exact ⟨[], l, by rwa [List.append_nil], h, by simp⟩
  · obtain ⟨i, l₁, course₁, hi⟩ := course.next reply (by simpa using h)
    -- courses are bounded, so there are fewer incidents left to come
    have bound := course₁.length_le
    obtain ⟨more, l', course', hdone, hmore⟩ := can_finish reply course₁
    refine ⟨i :: more, l', by simpa using course', hdone, fun batch answer hb => ?_⟩
    rcases List.mem_cons.mp hb with hb | hb
    · exact hi batch answer hb.symm
    · exact hmore batch answer hb
termination_by 2 * ids.length - log.length
decreasing_by
  rw [List.length_append, List.length_singleton] at *
  omega

end Course
end Lookup
end DatasetFilters
