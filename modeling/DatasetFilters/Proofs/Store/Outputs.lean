import DatasetFilters.Proofs.Output.RoundTrip
import DatasetFilters.Proofs.Store.Documents
import DatasetFilters.Service.Outputs

namespace DatasetFilters

/-- What an output is made to be, and remains through all its life. -/
def Output.plan (o : Output) : Output :=
  { o with events := [], state := .created, downloads := {}, stamp := 0, lastUpdated := default }

theorem Output.plan_completeIfReady (o : Output) (now : Instant) :
    (o.completeIfReady now).plan = o.plan := by
  unfold completeIfReady
  by_cases h : o.completes = true
  · rw [if_pos h]
    rfl
  · rw [if_neg h]

namespace OutputUpdate

theorem plan_mergeFormat (u : OutputUpdate) (downloadUrl : String) (o : Output)
    (f : DownloadFormat) : (u.mergeFormat downloadUrl o f).plan = o.plan := by
  unfold mergeFormat
  cases u.artefact? f with
  | none => rfl
  | some change => rfl

theorem plan_merge (u : OutputUpdate) (downloadUrl : String) (o : Output) :
    (u.merge downloadUrl o).plan = o.plan := by
  have folded (formats : List DownloadFormat) (o : Output) :
      (formats.foldl (u.mergeFormat downloadUrl) o).plan = o.plan := by
    induction formats generalizing o with
    | nil => rfl
    | cons f formats ih => exact (ih _).trans (u.plan_mergeFormat downloadUrl o f)
  exact folded _ o

/-- Whatever workers deliver, an output remains an output of the same selections. -/
theorem plan_apply {u : OutputUpdate} {downloadUrl : String} {now : Instant} {o : Output}
    {p : Output × Bool} (h : u.apply downloadUrl now o = .ok p) : p.1.plan = o.plan := by
  unfold apply at h
  cases hf : (u.forbidden o).isEmpty with
  | false => simp [hf] at h
  | true =>
    simp only [hf, Bool.not_true, Bool.false_eq_true, if_false, Except.ok.injEq] at h
    rw [← h, Output.plan_completeIfReady, plan_merge]

end OutputUpdate

namespace Store

/-- The output under a key. -/
def output? (s : Store) (id : String) : Option Output :=
  (s.backend.find? .outputs id).bind Output.decode?

/-- Every text among the outputs is that of an output under its own key. -/
def KeepsOutputs (s : Store) : Prop :=
  ∀ key text, s.backend.find? .outputs key = some text → ∃ o : Output, text = o.encode ∧ o.id = key

/-- A changed output as it is written: with the marks of the write. -/
def restampedOutput (s : Store) (now : Instant) (o : Output) : Output :=
  { o with stamp := max (s.clock.next now) (o.stamp + 1), lastUpdated := now }

def puttingOutput (s : Store) (now : Instant) (key : String) (o : Output) : Store :=
  { backend := s.backend.touched.put .outputs key o.encode, clock := s.clock.advanced now }

theorem output?_of_outputs_eq {s s' : Store} (h : s'.backend.outputs = s.backend.outputs)
    (id : String) : s'.output? id = s.output? id := by
  simp only [output?, Backend.find?, Backend.documents, h]

theorem output?_of_free {s : Store} {id : String} (h : s.backend.find? .outputs id = none) :
    s.output? id = none := by
  rw [output?, h]
  rfl

theorem output?_of_empty {s : Store} (h : s.backend.outputs = []) (id : String) :
    s.output? id = none :=
  output?_of_free (by rw [Backend.find?, Backend.documents, h]; rfl)

theorem output?_puttingOutput (s : Store) (now : Instant) (key : String) (o : Output) (id : String) :
    (s.puttingOutput now key o).output? id = if id = key then some o else s.output? id := by
  rw [output?, puttingOutput, Backend.find?_put, Backend.find?_touched]
  by_cases h : id = key
  · rw [if_pos ⟨rfl, h⟩, if_pos h, Option.bind_some, Output.decode?_encode]
  · rw [if_neg (fun hid => h hid.2), if_neg h, output?]

@[simp] theorem output?_puttingOutput_self (s : Store) (now : Instant) (key : String) (o : Output) :
    (s.puttingOutput now key o).output? key = some o := by
  rw [output?_puttingOutput, if_pos rfl]

namespace KeepsOutputs

variable {s : Store}

theorem id_eq (h : s.KeepsOutputs) {id : String} {o : Output} (ho : s.output? id = some o) :
    o.id = id := by
  rw [output?, Option.bind_eq_some_iff] at ho
  obtain ⟨text, ht, hdecode⟩ := ho
  obtain ⟨o', rfl, hid⟩ := h id text ht
  rw [Output.decode?_encode, Option.some.injEq] at hdecode
  rw [← hdecode, hid]

theorem of_empty (h : s.backend.outputs = []) : s.KeepsOutputs := by
  intro key text ht
  simp [Backend.find?, Backend.documents, h] at ht

theorem puttingOutput (h : s.KeepsOutputs) (now : Instant) {key : String} {o : Output}
    (hid : o.id = key) : (s.puttingOutput now key o).KeepsOutputs := by
  intro key' text ht
  rw [Store.puttingOutput, Backend.find?_put, Backend.find?_touched] at ht
  by_cases hk : key' = key
  · rw [if_pos ⟨rfl, hk⟩] at ht
    exact ⟨o, (Option.some.inj ht).symm, hid.trans hk.symm⟩
  · rw [if_neg (fun hid => hk hid.2)] at ht
    exact h key' text ht

end KeepsOutputs

theorem getOutput_cases (s : Store) (id : String) :
    (∃ error, s.getOutput id = (.error error, s.touched)) ∨
      ∃ o, s.output? id = some o ∧ s.getOutput id = (.ok o, s.touched) := by
  rw [getOutput, Backend.get]
  cases s.backend.failure? .get .outputs with
  | some e => exact Or.inl ⟨e, rfl⟩
  | none =>
    cases ht : s.backend.find? .outputs id with
    | none => exact Or.inl ⟨_, rfl⟩
    | some text =>
      cases hd : Output.decode? text with
      | none =>
        exact Or.inl ⟨.serialization "not an output", by simp only [Except.bind, readOutput, hd]; rfl⟩
      | some o =>
        refine Or.inr ⟨o, ?_, by simp only [Except.bind, readOutput, hd]; rfl⟩
        rw [output?, ht, Option.bind_some, hd]

/-- An addition leaves the documents alone, or puts the output under a key that was free. -/
theorem addOutput_cases (s : Store) (now : Instant) (o : Output) :
    (∃ error, s.addOutput now o =
      (.error error, { s.touched with clock := s.clock.advanced now })) ∨
    (s.backend.find? .outputs o.id = none ∧ s.addOutput now o =
      (.ok { o with stamp := s.clock.next now },
        s.puttingOutput now o.id { o with stamp := s.clock.next now })) := by
  rw [addOutput, Backend.insert]
  cases s.backend.failure? .insert .outputs with
  | some e => exact Or.inl ⟨e, rfl⟩
  | none =>
    cases ht : s.backend.find? .outputs o.id with
    | none => exact Or.inr ⟨rfl, rfl⟩
    | some text => exact Or.inl ⟨.alreadyExists o.id, rfl⟩

/-- Adding an output fails with the backend, or where the key is taken. -/
theorem addOutput_error {s : Store} {now : Instant} {o : Output} {error : StoreError}
    (he : (s.addOutput now o).1 = .error error) :
    s.backend.failure? .insert .outputs = some error ∨ error = .alreadyExists o.id := by
  unfold addOutput Backend.insert at he
  cases hf : s.backend.failure? .insert .outputs with
  | some failure =>
    rw [hf] at he
    exact Or.inl (congrArg some (Except.error.inj he))
  | none =>
    simp only [hf] at he
    cases taken : (s.backend.find? .outputs o.id).isSome with
    | true =>
      simp only [taken, if_true] at he
      exact Or.inr (Except.error.inj he).symm
    | false =>
      simp only [taken, Bool.false_eq_true, if_false] at he
      cases he

theorem addOutput_of_error {s s' : Store} {time : Instant} {o : Output} {error : StoreError}
    (h : s.addOutput time o = (.error error, s')) :
    s'.backend.filters = s.backend.filters ∧ s'.backend.outputs = s.backend.outputs := by
  rcases s.addOutput_cases time o with ⟨_, he⟩ | ⟨-, he⟩
  · obtain ⟨-, rfl⟩ := Prod.ext_iff.mp (he.symm.trans h)
    exact ⟨rfl, rfl⟩
  · simp [he] at h

theorem addOutput_of_ok {s s' : Store} {time : Instant} {o made : Output}
    (h : s.addOutput time o = (.ok made, s')) :
    s.backend.find? .outputs made.id = none ∧ made.filterId = o.filterId ∧
      s' = s.puttingOutput time made.id made := by
  rcases s.addOutput_cases time o with ⟨_, he⟩ | ⟨free, he⟩
  · simp [he] at h
  · obtain ⟨same, rfl⟩ := Prod.ext_iff.mp (he.symm.trans h)
    obtain rfl := Except.ok.inj same
    exact ⟨free, rfl, rfl⟩

/-- A change leaves the documents alone, or puts the changed output in the place of the old. -/
theorem modifyOutput_cases (s : Store) (now : Instant) (id : String) (failed : StoreError → ε)
    (change : Output → Except ε (Output × α)) :
    (∃ error, s.modifyOutput now id failed change = (.error error, s.touched)) ∨
    ∃ o p, s.output? id = some o ∧ change o = .ok p ∧ s.modifyOutput now id failed change =
      (.ok (s.restampedOutput now p.1, p.2),
        s.puttingOutput now id (s.restampedOutput now p.1)) := by
  rw [modifyOutput, Backend.modify]
  cases s.backend.failure? .modify .outputs with
  | some e => exact Or.inl ⟨failed e, rfl⟩
  | none =>
    cases ht : s.backend.find? .outputs id with
    | none => exact Or.inl ⟨_, rfl⟩
    | some text =>
      cases hd : Output.decode? text with
      | none =>
        refine Or.inl ⟨failed (.serialization "not an output"), ?_⟩
        simp only [projectOutput, readOutput, hd]
        rfl
      | some o =>
        cases hc : change o with
        | error e =>
          refine Or.inl ⟨e, ?_⟩
          simp only [projectOutput, readOutput, hd, Except.mapError, bind, Except.bind, hc]
          rfl
        | ok p =>
          refine Or.inr ⟨o, p, ?_, hc, ?_⟩
          · rw [output?, ht, Option.bind_some, hd]
          · simp only [projectOutput, readOutput, hd, Except.mapError, bind, Except.bind, hc]
            rfl

/-- An access to an output that is there, up to the store's failures. -/
theorem modifyOutput_eq {s : Store} {id : String} {o : Output} (stored : s.output? id = some o)
    (now : Instant) (failed : StoreError → ε) (change : Output → Except ε (Output × α)) :
    s.modifyOutput now id failed change =
      match s.backend.failure? .modify .outputs with
      | some e => (.error (failed e), s.touched)
      | none =>
        match change o with
        | .error e => (.error e, s.touched)
        | .ok p => (.ok (s.restampedOutput now p.1, p.2),
            s.puttingOutput now id (s.restampedOutput now p.1)) := by
  obtain ⟨text, there, decoded⟩ := Option.bind_eq_some_iff.mp stored
  rw [modifyOutput, Backend.modify, there]
  cases s.backend.failure? .modify .outputs with
  | some e => rfl
  | none =>
    simp only [projectOutput, readOutput, decoded, Except.mapError, bind, Except.bind]
    cases change o <;> rfl

/-- Reporting an event fails, or adds the event to the stored output. -/
theorem addOutputEvent_cases (s : Store) (now : Instant) (id : String) (e : Event) :
    (∃ error, s.addOutputEvent now id e = (.error error, s.touched)) ∨
    ∃ o p, s.output? id = some o ∧ p = s.restampedOutput now { o with events := o.events ++ [e] } ∧
      s.addOutputEvent now id e = (.ok p, s.puttingOutput now id p) := by
  rw [addOutputEvent]
  rcases s.modifyOutput_cases now id (fun e => e)
    fun o => .ok ({ o with events := o.events ++ [e] }, ()) with ⟨error, he⟩ | ⟨o, p, ho, hp, he⟩ <;>
    rw [he]
  · exact Or.inl ⟨error, rfl⟩
  · obtain rfl := Except.ok.inj hp
    exact Or.inr ⟨o, _, ho, rfl, rfl⟩

end Store
end DatasetFilters
