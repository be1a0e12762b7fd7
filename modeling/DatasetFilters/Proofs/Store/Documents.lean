import DatasetFilters.Proofs.Blueprint.RoundTrip
import DatasetFilters.Store.Basic

namespace DatasetFilters.Store

/-- The blueprint under a key. -/
def filter? (s : Store) (id : String) : Option Blueprint :=
  (s.backend.find? .filters id).bind Blueprint.decode?

/-- Every text among the blueprints is that of a blueprint under its own key, with the tag of its
content. -/
def Sound (s : Store) : Prop :=
  ∀ key text, s.backend.find? .filters key = some text →
    ∃ b : Blueprint, text = b.encode ∧ b.id = key ∧ b.etag = b.tag

/-- The store after an access that writes nothing. -/
def touched (s : Store) : Store := { s with backend := s.backend.touched }

def keeping (s : Store) (now : Instant) (b : Blueprint) : Store :=
  { backend := s.backend.touched.put .filters b.id b.encode, clock := s.clock.advanced now }

/-- A changed blueprint as it is written: with its own tag and the marks of the write. -/
def restamped (s : Store) (now : Instant) (b : Blueprint) : Blueprint :=
  { b with etag := b.tag, stamp := max (s.clock.next now) (b.stamp + 1), lastUpdated := now }

/-- The stamp of a changed blueprint is pushed on beyond the old one. -/
theorem stamp_le_restamped (s : Store) (t : Instant) (b : Blueprint) :
    b.stamp + 1 ≤ (s.restamped t b).stamp := by
  change b.stamp + 1 ≤ if s.clock.next t ≤ b.stamp + 1 then b.stamp + 1 else s.clock.next t
  split
  · exact UInt64.le_refl _
  · next later => exact UInt64.le_of_lt (UInt64.not_le.mp later)

@[simp] theorem filter?_touched (s : Store) (id : String) : s.touched.filter? id = s.filter? id := by
  rw [filter?, touched, Backend.find?_touched, filter?]

theorem filter?_keeping (s : Store) (now : Instant) (b : Blueprint) (id : String) :
    (s.keeping now b).filter? id = if id = b.id then some b else s.filter? id := by
  rw [filter?, keeping, Backend.find?_put, Backend.find?_touched]
  by_cases h : id = b.id
  · rw [if_pos ⟨rfl, h⟩, if_pos h, Option.bind_some, Blueprint.decode?_encode]
  · rw [if_neg (fun hid => h hid.2), if_neg h, filter?]

@[simp] theorem filter?_keeping_self (s : Store) (now : Instant) (b : Blueprint) :
    (s.keeping now b).filter? b.id = some b := by
  rw [filter?_keeping, if_pos rfl]

theorem filter?_keeping_of_ne {s : Store} {now : Instant} {b : Blueprint} {id : String}
    (h : id ≠ b.id) : (s.keeping now b).filter? id = s.filter? id := by
  rw [filter?_keeping, if_neg h]

theorem filter?_of_filters_eq {s s' : Store} (h : s'.backend.filters = s.backend.filters)
    (id : String) : s'.filter? id = s.filter? id := by
  simp only [filter?, Backend.find?, Backend.documents, h]

namespace Sound

variable {s : Store}

theorem find?_eq (h : s.Sound) (id : String) :
    s.backend.find? .filters id = (s.filter? id).map Blueprint.encode := by
  cases ht : s.backend.find? .filters id with
  | none => rw [filter?, ht]; rfl
  | some text =>
    obtain ⟨b, rfl, -, -⟩ := h id text ht
    rw [filter?, ht, Option.bind_some, Blueprint.decode?_encode]
    rfl

theorem of_filter? (h : s.Sound) {id : String} {b : Blueprint} (hb : s.filter? id = some b) :
    b.id = id ∧ b.etag = b.tag := by
  have ht : s.backend.find? .filters id = some b.encode := by rw [h.find?_eq, hb]; rfl
  obtain ⟨c, hc, hid, htag⟩ := h id _ ht
  have same : some b = some c := by
    rw [← Blueprint.decode?_encode b, ← Blueprint.decode?_encode c, hc]
  obtain rfl := Option.some.inj same
  exact ⟨hid, htag⟩

theorem id_eq (h : s.Sound) {id : String} {b : Blueprint} (hb : s.filter? id = some b) :
    b.id = id :=
  (h.of_filter? hb).1

theorem etag_eq (h : s.Sound) {id : String} {b : Blueprint} (hb : s.filter? id = some b) :
    b.etag = b.tag :=
  (h.of_filter? hb).2

theorem of_filters_eq {s' : Store} (h : s.Sound)
    (he : s'.backend.filters = s.backend.filters) : s'.Sound := by
  intro key text ht
  simp only [Backend.find?, Backend.documents, he] at ht
  exact h key text ht

theorem touched (h : s.Sound) : s.touched.Sound := h.of_filters_eq rfl

theorem keeping (h : s.Sound) (now : Instant) {b : Blueprint} (hb : b.etag = b.tag) :
    (s.keeping now b).Sound := by
  intro key text ht
  rw [Store.keeping, Backend.find?_put, Backend.find?_touched] at ht
  by_cases hk : key = b.id
  · rw [if_pos ⟨rfl, hk⟩] at ht
    exact ⟨b, (Option.some.inj ht).symm, hk.symm, hb⟩
  · rw [if_neg (fun hid => hk hid.2)] at ht
    exact h key text ht

/-- In a sound store, what is read under a condition is judged by the stored tag. -/
theorem selectFilter_eq (h : s.Sound) (id : String) (selector : Selector) :
    selectFilter id selector (s.backend.find? .filters id) =
      match s.filter? id with
      | none => .error (.filterNotFound id)
      | some b => if selector.accepts b.etag then .ok b else .error (.conflict id) := by
  rw [h.find?_eq]
  cases s.filter? id with
  | none => rfl
  | some b =>
    simp only [Option.map_some, selectFilter, readFilter, Blueprint.decode?_encode]
    rfl

end Sound

/-- Reading as a function on blueprints, so that texts need not be looked at again. -/
theorem getFilter_eq {s : Store} (h : s.Sound) (id : String) (selector : Selector) :
    s.getFilter id selector =
      (match s.backend.failure? .get .filters with
        | some e => .error e
        | none => match s.filter? id with
          | none => .error (.filterNotFound id)
          | some b => if selector.accepts b.etag then .ok b else .error (.conflict id),
        s.touched) := by
  rw [getFilter, Backend.get]
  cases s.backend.failure? .get .filters with
  | some e => rfl
  | none => exact Prod.ext (h.selectFilter_eq id selector) rfl

theorem addFilter_eq {s : Store} (h : s.Sound) (now : Instant) (b : Blueprint) :
    s.addFilter now b =
      match s.backend.failure? .insert .filters with
      | some e => (.error e, { s.touched with clock := s.clock.advanced now })
      | none => match s.filter? b.id with
        | some _ => (.error (.alreadyExists b.id), { s.touched with clock := s.clock.advanced now })
        | none => (.ok (s.stampedFilter now b), s.keeping now (s.stampedFilter now b)) := by
  rw [addFilter, Backend.insert]
  cases s.backend.failure? .insert .filters with
  | some e => rfl
  | none =>
    have taken : (s.backend.find? .filters b.id).isSome = (s.filter? b.id).isSome := by
      rw [h.find?_eq, Option.isSome_map]
    cases hb : s.filter? b.id with
    | none =>
      rw [hb] at taken
      simp only [stampedFilter, taken, Option.isSome_none, Bool.false_eq_true, if_false]
      rfl
    | some _ =>
      rw [hb] at taken
      simp only [stampedFilter, taken, Option.isSome_some, if_true]
      rfl

theorem Sound.projectFilter_eq {s : Store} (h : s.Sound) (now : Instant) (id : String)
    (selector : Selector) (change : Blueprint → Except StoreError Blueprint) :
    projectFilter s.clock now id selector change (s.backend.find? .filters id) =
      match s.filter? id with
      | none => .error (.filterNotFound id)
      | some b =>
        if selector.accepts b.etag then
          match change b with
          | .error e => .error e
          | .ok c => if c.tag = b.etag then .ok (c, false) else .ok (s.restamped now c, true)
        else .error (.conflict id) := by
  rw [projectFilter, h.selectFilter_eq]
  cases s.filter? id with
  | none => rfl
  | some b =>
    by_cases ha : selector.accepts b.etag = true
    · simp only [if_pos ha, bind, Except.bind]
      cases change b with
      | error e => rfl
      | ok c => by_cases ht : c.tag = b.etag <;> simp only [ht, if_true, if_false] <;> rfl
    · simp only [if_neg ha]
      rfl

/-- Changing: what is under the key has to meet the selector, the change may refuse, and a change
that leaves the tag as it was writes nothing. -/
theorem modifyFilter_eq {s : Store} (h : s.Sound) (now : Instant) (id : String)
    (selector : Selector) {change : Blueprint → Except StoreError Blueprint}
    (hid : ∀ b c, change b = .ok c → c.id = b.id) :
    s.modifyFilter now id selector change =
      match s.backend.failure? .modify .filters with
      | some e => (.error e, s.touched)
      | none => match s.filter? id with
        | none => (.error (.filterNotFound id), s.touched)
        | some b =>
          if selector.accepts b.etag then
            match change b with
            | .error e => (.error e, s.touched)
            | .ok c =>
              if c.tag = b.etag then (.ok c, s.touched)
              else (.ok (s.restamped now c), s.keeping now (s.restamped now c))
          else (.error (.conflict id), s.touched) := by
  rw [modifyFilter, Backend.modify]
  cases s.backend.failure? .modify .filters with
  | some e => rfl
  | none =>
    simp only [h.projectFilter_eq]
    cases hb : s.filter? id with
    | none => rfl
    | some b =>
      by_cases ha : selector.accepts b.etag = true
      · simp only [if_pos ha]
        cases hc : change b with
        | error e => rfl
        | ok c =>
          have key : id = c.id := by rw [hid b c hc, h.id_eq hb]
          by_cases ht : c.tag = b.etag
          · simp only [if_pos ht]
            rfl
          · simp only [if_neg ht, key]
            rfl
      · simp only [if_neg ha]
        rfl

theorem filter?_of_empty {s : Store} (h : s.backend.filters = []) (id : String) :
    s.filter? id = none := by
  rw [filter?, Backend.find?, Backend.documents, h]
  rfl

theorem Sound.of_empty {s : Store} (h : s.backend.filters = []) : s.Sound := by
  intro key text hfind
  have none : s.backend.find? .filters key = none := by
    rw [Backend.find?, Backend.documents, h]
    rfl
  simp [none] at hfind

theorem filters_addOutput (s : Store) (now : Instant) (o : Output) :
    (s.addOutput now o).2.backend.filters = s.backend.filters := by
  unfold addOutput Backend.insert
  cases s.backend.failure? .insert .outputs with
  | some e => rfl
  | none => cases h : (s.backend.find? .outputs o.id).isSome <;> simp only [h] <;> rfl

end DatasetFilters.Store
