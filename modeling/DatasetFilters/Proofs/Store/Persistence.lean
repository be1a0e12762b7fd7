import DatasetFilters.Proofs.Store.Outputs

namespace DatasetFilters

namespace Store

variable {s s' : Store} {now : Instant} {id : String} {selector : Selector}

/-- An addition that succeeds leaves the blueprint that it returns under its key, with the tag of
its own content. -/
theorem filter?_of_addFilter {b kept : Blueprint} (h : s.addFilter now b = (.ok kept, s')) :
    s'.filter? b.id = some kept ∧ kept.etag = kept.tag := by
  unfold addFilter Backend.insert at h
  cases failed : s.backend.failure? .insert .filters with
  | some error => simp [failed, Except.map] at h
  | none =>
    cases taken : (s.backend.find? .filters (s.stampedFilter now b).id).isSome with
    | true => simp [failed, taken, Except.map] at h
    | false =>
      simp only [failed, taken, Except.map, Bool.false_eq_true, if_false, Prod.mk.injEq,
        Except.ok.injEq] at h
      obtain ⟨rfl, rfl⟩ := h
      exact ⟨filter?_keeping_self s now (s.stampedFilter now b), rfl⟩

/-- What is to be written of a changed blueprint has the tag of its content. -/
theorem etag_of_projectFilter {clock : WriteClock} {change : Blueprint → Except StoreError Blueprint}
    {text : Option Octets} {kept : Blueprint}
    (h : projectFilter clock now id selector change text = .ok (kept, true)) :
    kept.etag = kept.tag := by
  simp only [projectFilter, bind, Except.bind] at h
  split at h
  · cases h
  · split at h
    · cases h
    · split at h
      · cases h
      · obtain rfl := (Prod.mk.inj (Except.ok.inj h)).1
        rfl

/-- A change that succeeds leaves what it returns under the key, unless it left the documents
alone. -/
theorem filter?_of_modifyFilter {change : Blueprint → Except StoreError Blueprint} {kept : Blueprint}
    (h : s.modifyFilter now id selector change = (.ok kept, s')) :
    s'.backend.filters = s.backend.filters ∨ s'.filter? id = some kept ∧ kept.etag = kept.tag := by
  unfold modifyFilter Backend.modify at h
  cases failed : s.backend.failure? .modify .filters with
  | some error => simp [failed] at h
  | none =>
    cases made : projectFilter s.clock now id selector change (s.backend.find? .filters id) with
    | error error => simp [failed, made, Except.map] at h
    | ok p =>
      obtain ⟨b, written⟩ := p
      simp only [failed, made, Except.map] at h
      cases written with
      | false =>
        obtain ⟨-, rfl⟩ := Prod.mk.inj h
        exact .inl rfl
      | true =>
        obtain ⟨same, rfl⟩ := Prod.mk.inj h
        obtain rfl := Except.ok.inj same
        refine .inr ⟨?_, etag_of_projectFilter made⟩
        simp only [filter?, if_true, Backend.find?_put, and_self, Option.bind_some,
          Blueprint.decode?_encode]

theorem output?_of_addOutput {o kept : Output} (h : s.addOutput now o = (.ok kept, s')) :
    s'.output? o.id = some kept := by
  rcases s.addOutput_cases now o with ⟨_, he⟩ | ⟨-, he⟩
  · simp [he] at h
  · obtain ⟨same, rfl⟩ := Prod.mk.inj (he.symm.trans h)
    obtain rfl := Except.ok.inj same
    exact output?_puttingOutput_self s now o.id { o with stamp := s.clock.next now }

theorem output?_of_modifyOutput {ε α : Type} {failed : StoreError → ε}
    {change : Output → Except ε (Output × α)} {kept : Output} {told : α}
    (h : s.modifyOutput now id failed change = (.ok (kept, told), s')) :
    s'.output? id = some kept := by
  rcases s.modifyOutput_cases now id failed change with ⟨_, he⟩ | ⟨o, p, -, -, he⟩
  · simp [he] at h
  · obtain ⟨same, rfl⟩ := Prod.mk.inj (he.symm.trans h)
    obtain ⟨rfl, -⟩ := Prod.mk.inj (Except.ok.inj same)
    exact output?_puttingOutput_self s now id (s.restampedOutput now p.1)

/-- Every blueprint and every output is read back from its text as it was. So what a write returns is
what is read under its key from then on, and a blueprint that was written has the tag of its content
when it is read. -/
theorem documents_survive :
    (∀ b : Blueprint, Blueprint.decode? b.encode = some b) ∧
    (∀ o : Output, Output.decode? o.encode = some o) ∧
    (∀ (s s' : Store) now b kept, s.addFilter now b = (.ok kept, s') →
      s'.filter? b.id = some kept ∧ kept.etag = kept.tag) ∧
    (∀ (s s' : Store) now id selector change kept,
      s.modifyFilter now id selector change = (.ok kept, s') →
        s'.backend.filters = s.backend.filters ∨
          s'.filter? id = some kept ∧ kept.etag = kept.tag) ∧
    (∀ (s s' : Store) now o kept, s.addOutput now o = (.ok kept, s') →
      s'.output? o.id = some kept) ∧
    ∀ (ε α : Type) (s s' : Store) now id (failed : StoreError → ε)
      (change : Output → Except ε (Output × α)) kept told,
      s.modifyOutput now id failed change = (.ok (kept, told), s') → s'.output? id = some kept :=
  ⟨Blueprint.decode?_encode, Output.decode?_encode,
    fun _ _ _ _ _ h => filter?_of_addFilter h,
    fun _ _ _ _ _ _ _ h => filter?_of_modifyFilter h,
    fun _ _ _ _ _ h => output?_of_addOutput h,
    fun _ _ _ _ _ _ _ _ _ _ h => output?_of_modifyOutput h⟩

end Store

namespace Small

/-- The last moment of the calendar, within a leap second. -/
def lastMoment : Instant :=
  ⟨95026237 * 86400 - 1, 1999999999, by decide, by decide⟩

/-- An output with hardly anything in it: texts are empty, and its artefacts are without a link. -/
def hollow : Output where
  id := ""
  filterId := "\u0000\""
  instanceId := ""
  dataset := ⟨"", "", 4294967295⟩
  dimensions := [⟨"", []⟩]
  events := [⟨.completed, lastMoment⟩]
  state := .completed
  published := none
  kind := ""
  downloads := { csv := some {} }
  stamp := 0xFFFFFFFFFFFFFFFF
  lastUpdated := lastMoment

/-- A blueprint with hardly anything in it. -/
def hollowBlueprint : Blueprint where
  id := ""
  instanceId := ""
  dataset := ⟨"", "", 0⟩
  dimensions := []
  events := []
  state := .created
  published := some false
  kind := ""
  outputId := some ""
  etag := ""
  stamp := 0
  lastUpdated := lastMoment

theorem added :
    ({} : Store).addFilter lastMoment hollowBlueprint =
      (.ok (({} : Store).stampedFilter lastMoment hollowBlueprint),
        ({} : Store).keeping lastMoment (({} : Store).stampedFilter lastMoment hollowBlueprint)) := by
  rw [Store.addFilter_eq (.of_empty rfl), Store.filter?_of_empty rfl]
  rfl

theorem reread {b : Blueprint} (hid : b.id = "") (htag : b.etag = b.tag) :
    (({} : Store).keeping lastMoment b).modifyFilter lastMoment "" .any .ok =
      (.ok b, (({} : Store).keeping lastMoment b).touched) := by
  have sound : (({} : Store).keeping lastMoment b).Sound := (Store.Sound.of_empty rfl).keeping _ htag
  have stored : (({} : Store).keeping lastMoment b).filter? "" = some b :=
    hid ▸ Store.filter?_keeping_self {} lastMoment b
  rw [Store.modifyFilter_eq sound _ _ _ fun b c same => by rw [Except.ok.inj same], stored]
  simp only [if_pos htag.symm]
  rfl

theorem added_output :
    ({} : Store).addOutput lastMoment hollow =
      (.ok { hollow with stamp := ({} : Store).clock.next lastMoment },
        ({} : Store).puttingOutput lastMoment ""
          { hollow with stamp := ({} : Store).clock.next lastMoment }) := rfl

theorem reread_output (o : Output) :
    ∃ p s, (({} : Store).puttingOutput lastMoment "" o).modifyOutput lastMoment "" (fun e => e)
      (fun o => .ok (o, ())) = (.ok (p, ()), s) := by
  have stored : (({} : Store).puttingOutput lastMoment "" o).backend.find? .outputs "" =
      some o.encode := Backend.find?_put {} .outputs .outputs "" "" o.encode
  have failed : (({} : Store).puttingOutput lastMoment "" o).backend.failure? .modify .outputs =
      none := rfl
  simp only [Store.modifyOutput, Backend.modify, failed, stored, Store.projectOutput,
    Store.readOutput, Output.decode?_encode]
  exact ⟨_, _, rfl⟩

/-- Both are added to an empty store and changed after that; what is returned is what is read. -/
theorem hollow_survives :
    Blueprint.decode? hollowBlueprint.encode = some hollowBlueprint ∧
    Output.decode? hollow.encode = some hollow ∧
    (∃ b s, ({} : Store).addFilter lastMoment hollowBlueprint = (.ok b, s) ∧
      s.filter? "" = some b ∧ b.etag = b.tag ∧
      ∃ c s', s.modifyFilter lastMoment "" .any .ok = (.ok c, s') ∧
        (s'.backend.filters = s.backend.filters ∨ s'.filter? "" = some c ∧ c.etag = c.tag)) ∧
    ∃ o s, ({} : Store).addOutput lastMoment hollow = (.ok o, s) ∧ s.output? "" = some o ∧
      ∃ p s', s.modifyOutput lastMoment "" (fun e => e) (fun o => .ok (o, ())) = (.ok (p, ()), s') ∧
        s'.output? "" = some p := by
  obtain ⟨blueprint, output, filterKept, filterChanged, outputKept, outputChanged⟩ :=
    Store.documents_survive
  refine ⟨blueprint hollowBlueprint, output hollow, ⟨_, _, added, ?_⟩, ⟨_, _, added_output, ?_⟩⟩
  · obtain ⟨stored, tagged⟩ := filterKept _ _ _ _ _ added
    have again := reread (b := ({} : Store).stampedFilter lastMoment hollowBlueprint) rfl tagged
    have changed := filterChanged _ _ _ _ _ _ _ again
    exact ⟨stored, tagged, _, _, again, changed⟩
  · have stored := outputKept _ _ _ _ _ added_output
    obtain ⟨p, s, again⟩ := reread_output { hollow with stamp := ({} : Store).clock.next lastMoment }
    have changed := outputChanged _ _ _ _ _ _ _ _ _ _ again
    exact ⟨stored, p, s, again, changed⟩

end Small
end DatasetFilters
