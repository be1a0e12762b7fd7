import DatasetFilters.Proofs.Store.Outputs
import Mathlib.Data.List.Forall2

namespace DatasetFilters

/-- Both fail in the same way, or both succeed, as `p` has it. -/
inductive Both (p : α → β → Prop) : Except ε α → Except ε β → Prop
  | error (e : ε) : Both p (.error e) (.error e)
  | ok {a : α} {b : β} (h : p a b) : Both p (.ok a) (.ok b)

theorem Both.refl (r : Except ε α) : Both (· = ·) r r := by
  cases r with
  | error e => exact .error e
  | ok a => exact .ok rfl

theorem Both.mono {p p' : α → β → Prop} {r : Except ε α} {r' : Except ε β} (h : Both p r r')
    (hp : ∀ a b, p a b → p' a b) : Both p' r r' := by
  cases h with
  | error e => exact .error e
  | ok h => exact .ok (hp _ _ h)

theorem Both.mapError {p : α → β → Prop} {r : Except ε α} {r' : Except ε β} (h : Both p r r')
    (f : ε → δ) : Both p (r.mapError f) (r'.mapError f) := by
  cases h with
  | error e => exact .error (f e)
  | ok h => exact .ok h

section

variable {p : α → β → Prop} {x : Option α} {y : Option β}

theorem map_eq_of_rel (h : Option.Rel p x y) {f : α → γ} {g : β → γ}
    (hfg : ∀ a b, p a b → f a = g b) : x.map f = y.map g := by
  cases h with
  | none => rfl
  | some h => exact congrArg some (hfg _ _ h)

theorem any_eq_of_rel (h : Option.Rel p x y) {f : α → Bool} {g : β → Bool}
    (hfg : ∀ a b, p a b → f a = g b) : x.any f = y.any g := by
  cases h with
  | none => rfl
  | some h => exact hfg _ _ h

end

theorem Both.map {p : α → β → Prop} {p' : γ → δ → Prop} {r : Except ε α} {r' : Except ε β}
    {f : α → γ} {f' : β → δ} (h : Both p r r') (hf : ∀ a b, p a b → p' (f a) (f' b)) :
    Both p' (r.map f) (r'.map f') := by
  cases h with
  | error e => exact .error e
  | ok h => exact .ok (hf _ _ h)

/-- The artefacts agree but for the texts of their links, and both have a private link or neither. -/
structure Artefact.Alike (a a' : Artefact) : Prop where
  redacted : a.redacted = a'.redacted
  privateLink : a.privateLink = "" ↔ a'.privateLink = ""

def Downloads.Alike (d d' : Downloads) : Prop := ∀ f, Option.Rel Artefact.Alike (d.get? f) (d'.get? f)

/-- The outputs agree but for the texts of links, and have private links in the same artefacts. -/
structure Output.Alike (o o' : Output) : Prop where
  rest : { o with downloads := {} } = { o' with downloads := {} }
  downloads : o.downloads.Alike o'.downloads

theorem Artefact.Alike.refl (a : Artefact) : a.Alike a := ⟨rfl, Iff.rfl⟩

theorem Output.Alike.refl (o : Output) : o.Alike o := by
  refine ⟨rfl, fun f => ?_⟩
  cases o.downloads.get? f with
  | none => exact .none
  | some a => exact .some (.refl a)

/-- An update makes artefacts that are alike into such artefacts again. -/
theorem ArtefactUpdate.merge_alike (u : ArtefactUpdate) {a a' : Artefact} (h : a.Alike a') :
    (u.merge a).Alike (u.merge a') := by
  obtain ⟨hredacted, hprivate⟩ := h
  simp only [Artefact.redacted, Artefact.mk.injEq, true_and] at hredacted
  obtain ⟨hhref, hsize, hskipped⟩ := hredacted
  refine ⟨by simp [merge, Artefact.redacted, hhref, hsize, hskipped], ?_⟩
  cases hu : u.privateLink with
  | none => simpa [merge, hu] using hprivate
  | some link => simp [merge, hu]

namespace Downloads.Alike

variable {d d' : Downloads}

theorem set (h : d.Alike d') (f : DownloadFormat) {a a' : Artefact} (ha : a.Alike a') :
    (d.set f (some a)).Alike (d'.set f (some a')) := by
  intro g
  by_cases hg : f = g
  · subst hg
    rw [get?_set_self, get?_set_self]
    exact .some ha
  · rw [get?_set_of_ne d hg, get?_set_of_ne d' hg]
    exact h g

/-- With their links taken away, downloads that are alike are the same. -/
theorem redacted (h : d.Alike d') : d.redacted = d'.redacted := by
  have formats (f : DownloadFormat) :
      (d.get? f).map Artefact.redacted = (d'.get? f).map Artefact.redacted :=
    map_eq_of_rel (h f) fun _ _ ha => ha.redacted
  exact congrArg₂ Downloads.mk (formats .csv) (formats .xls)

/-- Whether downloads are complete does not depend on what their links are. -/
theorem isComplete (h : d.Alike d') : d.isComplete = d'.isComplete := by
  have ready (f : DownloadFormat) :
      (d.get? f).any Artefact.isReady = (d'.get? f).any Artefact.isReady := by
    refine any_eq_of_rel (h f) fun a a' ha => ?_
    have redacted := ha.redacted
    simp only [Artefact.redacted, Artefact.mk.injEq] at redacted
    simp [Artefact.isReady, redacted.1, redacted.2.2.2.2]
  simp only [Downloads.isComplete, ready]

end Downloads.Alike

namespace Output.Alike

variable {o o' : Output}

/-- With their links taken away, outputs that are alike are the same. -/
theorem redacted (h : o.Alike o') : o.redacted = o'.redacted := by
  have rest := h.rest
  simp only [Output.mk.injEq] at rest
  simp [Output.redacted, rest, h.downloads.redacted]

theorem isPublished (h : o.Alike o') : o.isPublished = o'.isPublished := by
  rw [Output.isPublished, Output.isPublished, (Output.mk.inj h.rest).2.2.2.2.2.2.2.1]

theorem completeIfReady (h : o.Alike o') (now : Instant) :
    o.completes = o'.completes ∧ (o.completeIfReady now).Alike (o'.completeIfReady now) := by
  have rest := h.rest
  simp only [Output.mk.injEq] at rest
  have completes : o.completes = o'.completes := by
    rw [Output.completes, Output.completes, h.downloads.isComplete, rest.2.2.2.2.2.2.1]
  refine ⟨completes, ?_⟩
  rw [Output.completeIfReady, Output.completeIfReady, completes]
  split
  · exact ⟨by simp [rest], h.downloads⟩
  · exact h

theorem record (h : o.Alike o') (e : Event) :
    Output.Alike { o with events := o.events ++ [e] } { o' with events := o'.events ++ [e] } := by
  have rest := h.rest
  simp only [Output.mk.injEq] at rest
  exact ⟨by simp [rest], h.downloads⟩

/-- They are marked alike when they are written. -/
theorem marked (h : o.Alike o') (clock : WriteClock) (now : Instant) :
    Output.Alike { o with stamp := max (clock.next now) (o.stamp + 1), lastUpdated := now }
      { o' with stamp := max (clock.next now) (o'.stamp + 1), lastUpdated := now } := by
  have rest := h.rest
  simp only [Output.mk.injEq] at rest
  exact ⟨by simp [rest], h.downloads⟩

end Output.Alike

namespace OutputUpdate

variable {o o' : Output}

/-- An update is refused for the same members, whatever the private links are. -/
theorem forbidden_alike (u : OutputUpdate) (h : o.Alike o') : u.forbidden o = u.forbidden o' := by
  have replaces : u.replacesPrivate o = u.replacesPrivate o' := by
    funext f
    have final : (o.downloads.get? f).any (!·.privateLink.isEmpty) =
        (o'.downloads.get? f).any (!·.privateLink.isEmpty) := by
      refine any_eq_of_rel (h.downloads f) fun a a' ha => ?_
      have empty : a.privateLink.isEmpty = a'.privateLink.isEmpty := by
        rw [Bool.eq_iff_iff]
        simpa using ha.privateLink
      rw [empty]
    rw [replacesPrivate, replacesPrivate, final]
  rw [forbidden, forbidden, h.isPublished, replaces]

theorem mergeFormat_alike (u : OutputUpdate) (downloadUrl : String) (h : o.Alike o')
    (f : DownloadFormat) : (u.mergeFormat downloadUrl o f).Alike (u.mergeFormat downloadUrl o' f) := by
  have id : o.id = o'.id := (Output.mk.inj h.rest).1
  rw [mergeFormat, mergeFormat]
  cases u.artefact? f with
  | none => exact h
  | some change =>
    have stored : ((o.downloads.get? f).getD {}).Alike ((o'.downloads.get? f).getD {}) := by
      have hf := h.downloads f
      generalize o.downloads.get? f = a at hf
      generalize o'.downloads.get? f = a' at hf
      cases hf with
      | none => exact .refl {}
      | some ha => exact ha
    have merged := change.merge_alike stored
    refine ⟨h.rest, h.downloads.set f ⟨?_, merged.privateLink⟩⟩
    have redacted := merged.redacted
    simp only [Artefact.redacted, Artefact.mk.injEq] at redacted ⊢
    simp [href, id, redacted]

/-- An update makes outputs that are alike into such outputs again. -/
theorem merge_alike (u : OutputUpdate) (downloadUrl : String) (h : o.Alike o') :
    (u.merge downloadUrl o).Alike (u.merge downloadUrl o') := by
  have folded (formats : List DownloadFormat) {o o' : Output} (h : o.Alike o') :
      (formats.foldl (u.mergeFormat downloadUrl) o).Alike
        (formats.foldl (u.mergeFormat downloadUrl) o') := by
    induction formats generalizing o o' with
    | nil => exact h
    | cons f formats ih => exact ih (u.mergeFormat_alike downloadUrl h f)
  exact folded _ h

/-- Whether an update is taken, and what for, does not depend on the texts of links. -/
theorem apply_alike (u : OutputUpdate) (downloadUrl : String) (now : Instant) (h : o.Alike o') :
    Both (fun p p' => p.1.Alike p'.1 ∧ p.2 = p'.2) (u.apply downloadUrl now o)
      (u.apply downloadUrl now o') := by
  obtain ⟨completes, completed⟩ := (u.merge_alike downloadUrl h).completeIfReady now
  simp only [apply, u.forbidden_alike h]
  split
  · exact .error _
  · exact .ok ⟨completed, completes⟩

end OutputUpdate

/-- Texts of which both are the same, or both stand for outputs that are alike. -/
inductive TextsAlike : Octets → Octets → Prop
  | same (text : Octets) : TextsAlike text text
  | outputs {text text' : Octets} {o o' : Output} (ho : Output.decode? text = some o)
      (ho' : Output.decode? text' = some o') (h : o.Alike o') : TextsAlike text text'

theorem TextsAlike.encode {o o' : Output} (h : o.Alike o') : TextsAlike o.encode o'.encode :=
  .outputs (Output.decode?_encode o) (Output.decode?_encode o') h

/-- The stores agree but for the texts of links. -/
structure Store.Alike (s s' : Store) : Prop where
  outputs : List.Forall₂ (fun e e' => e.1 = e'.1 ∧ TextsAlike e.2 e'.2) s.backend.outputs
    s'.backend.outputs
  rest : { s with backend := { s.backend with outputs := [] } } =
    { s' with backend := { s'.backend with outputs := [] } }

section

variable {es es' : List (String × Octets)}

theorem lookup_alike (h : List.Forall₂ (fun e e' => e.1 = e'.1 ∧ TextsAlike e.2 e'.2) es es')
    (key : String) : Option.Rel TextsAlike (es.lookup key) (es'.lookup key) := by
  induction h with
  | nil => exact .none
  | cons he _ ih =>
    rw [Table.lookup_cons, Table.lookup_cons, ← he.1]
    split
    · exact .some he.2
    · exact ih

theorem put_alike (h : List.Forall₂ (fun e e' => e.1 = e'.1 ∧ TextsAlike e.2 e'.2) es es')
    (key : String) {text text' : Octets} (ht : TextsAlike text text') :
    List.Forall₂ (fun e e' => e.1 = e'.1 ∧ TextsAlike e.2 e'.2) (Table.put key text es)
      (Table.put key text' es') := by
  induction h with
  | nil => exact .cons ⟨rfl, ht⟩ .nil
  | cons he rest ih =>
    rw [Table.put, Table.put, ← he.1]
    split
    · exact .cons ⟨rfl, ht⟩ rest
    · exact .cons he ih

/-- Texts that are alike are read as outputs that are alike, or fail in the same way. -/
theorem readOutput_alike (id : String) {text text' : Option Octets}
    (h : Option.Rel TextsAlike text text') :
    Both Output.Alike (Store.readOutput id text) (Store.readOutput id text') := by
  cases h with
  | none => exact .error _
  | some h =>
    cases h with
    | same =>
      rw [Store.readOutput]
      split
      · exact .error _
      · exact .ok (.refl _)
    | outputs ho ho' h =>
      simp only [Store.readOutput, ho, ho']
      exact .ok h

end

namespace Store.Alike

variable {s s' : Store}

theorem eq_rest (h : s.Alike s') :
    s' = { s with backend := { s.backend with outputs := s'.backend.outputs } } := by
  obtain ⟨⟨filters, outputs, outage, accesses⟩, clock⟩ := s
  obtain ⟨⟨filters', outputs', outage', accesses'⟩, clock'⟩ := s'
  simpa [eq_comm] using h.rest

theorem failure? (h : s.Alike s') (a : Access) (c : Collection) :
    s'.backend.failure? a c = s.backend.failure? a c := by
  rw [h.eq_rest]
  rfl

theorem touched (h : s.Alike s') : s.touched.Alike s'.touched := by
  refine ⟨h.outputs, ?_⟩
  rw [h.eq_rest]
  rfl

theorem putting (h : s.Alike s') (now : Instant) (key : String) {text text' : Octets}
    (ht : TextsAlike text text') :
    Alike { backend := s.backend.touched.put .outputs key text, clock := s.clock.advanced now }
      { backend := s'.backend.touched.put .outputs key text', clock := s'.clock.advanced now } := by
  refine ⟨put_alike h.outputs key ht, ?_⟩
  rw [h.eq_rest]
  rfl

theorem getOutput (h : s.Alike s') (id : String) :
    Both Output.Alike (s.getOutput id).1 (s'.getOutput id).1 ∧
      (s.getOutput id).2.Alike (s'.getOutput id).2 := by
  rw [Store.getOutput, Store.getOutput, Backend.get, Backend.get, h.failure?]
  cases s.backend.failure? .get .outputs with
  | some e => exact ⟨.error e, h.touched⟩
  | none => exact ⟨readOutput_alike id (lookup_alike h.outputs id), h.touched⟩

theorem projectOutput (clock : WriteClock) (now : Instant) (id : String) (failed : StoreError → ε)
    {change : Output → Except ε (Output × α)}
    (hchange : ∀ o o', o.Alike o' →
      Both (fun p p' => p.1.Alike p'.1 ∧ p.2 = p'.2) (change o) (change o'))
    {text text' : Option Octets} (ht : Option.Rel TextsAlike text text') :
    Both (fun p p' => p.1.Alike p'.1 ∧ p.2 = p'.2)
      (Store.projectOutput clock now id failed change text)
      (Store.projectOutput clock now id failed change text') := by
  have read := (readOutput_alike id ht).mapError failed
  simp only [Store.projectOutput, bind, Except.bind]
  generalize (readOutput id text).mapError failed = r at read ⊢
  generalize (readOutput id text').mapError failed = r' at read ⊢
  cases read with
  | error e => exact .error e
  | @ok o o' ho =>
    have changed := hchange o o' ho
    simp only
    generalize change o = r at changed ⊢
    generalize change o' = r' at changed ⊢
    cases changed with
    | error e => exact .error e
    | ok hp => exact .ok ⟨hp.1.marked clock now, hp.2⟩

/-- A change that treats alike what is alike leaves stores that are alike. -/
theorem modifyOutput (h : s.Alike s') (now : Instant) (id : String) (failed : StoreError → ε)
    (change : Output → Except ε (Output × α))
    (hchange : ∀ o o', o.Alike o' →
      Both (fun p p' => p.1.Alike p'.1 ∧ p.2 = p'.2) (change o) (change o')) :
    Both (fun p p' => p.1.Alike p'.1 ∧ p.2 = p'.2) (s.modifyOutput now id failed change).1
        (s'.modifyOutput now id failed change).1 ∧
      (s.modifyOutput now id failed change).2.Alike (s'.modifyOutput now id failed change).2 := by
  have clock : s'.clock = s.clock := by rw [h.eq_rest]
  have projected : Both (fun p p' => p.1.Alike p'.1 ∧ p.2 = p'.2)
      (Store.projectOutput s.clock now id failed change (s.backend.find? .outputs id))
      (Store.projectOutput s'.clock now id failed change (s'.backend.find? .outputs id)) :=
    clock ▸ projectOutput s.clock now id failed hchange (lookup_alike h.outputs id)
  rw [Store.modifyOutput, Store.modifyOutput, Backend.modify, Backend.modify, h.failure?]
  cases s.backend.failure? .modify .outputs with
  | some e => exact ⟨.error (failed e), h.touched⟩
  | none =>
    generalize Store.projectOutput s.clock now id failed change _ = r at projected ⊢
    generalize Store.projectOutput s'.clock now id failed change _ = r' at projected ⊢
    cases projected with
    | error e => exact ⟨.error e, h.touched⟩
    | ok hp => exact ⟨.ok hp, h.putting now id (.encode hp.1)⟩

theorem addOutputEvent (h : s.Alike s') (now : Instant) (id : String) (e : Event) :
    Both Output.Alike (s.addOutputEvent now id e).1 (s'.addOutputEvent now id e).1 ∧
      (s.addOutputEvent now id e).2.Alike (s'.addOutputEvent now id e).2 := by
  have recorded := h.modifyOutput now id (fun e => e)
    (fun o => .ok ({ o with events := o.events ++ [e] }, ())) fun _ _ alike =>
      .ok ⟨alike.record e, rfl⟩
  exact ⟨recorded.1.map fun _ _ hp => hp.1, recorded.2⟩

end Store.Alike
end DatasetFilters
