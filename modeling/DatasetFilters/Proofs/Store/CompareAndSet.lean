import DatasetFilters.Proofs.Store.Edit

namespace DatasetFilters

inductive FilterOperation where
  | add (b : Blueprint)
  | edit (id : String) (selector : Selector) (e : FilterEdit)
  | get (id : String) (selector : Selector)
  deriving DecidableEq, Repr

namespace FilterOperation

/-- The store after an operation at a time of day, and the tag that the operation replies. -/
def perform (now : Instant) (s : Store) : FilterOperation → Except StoreError String × Store
  | add b => Store.tagOnly (s.addFilter now b)
  | edit id selector (.change c) => Store.tagOnly (s.updateFilter now id c selector)
  | edit id selector (.addDimension d) => s.addDimension now id d selector
  | edit id selector (.removeDimension name) => s.removeDimension now id name selector
  | edit id selector (.addOptions name options) => s.addOptions now id name options selector
  | edit id selector (.removeOptions name options) => s.removeOptions now id name options selector
  | get id selector => Store.tagOnly (s.getFilter id selector)

def id : FilterOperation → String
  | add b => b.id
  | edit id _ _ => id
  | get id _ => id

def selector? : FilterOperation → Option Selector
  | add _ => none
  | edit _ selector _ => some selector
  | get _ selector => some selector

/-- How an operation uses the backend. -/
def access : FilterOperation → Access
  | add _ => .insert
  | edit _ _ _ => .modify
  | get _ _ => .get

def isWrite : FilterOperation → Bool
  | get _ _ => false
  | _ => true

def performAll (s : Store) (ops : List (Instant × FilterOperation)) : Store :=
  ops.foldl (fun s op => (op.2.perform op.1 s).2) s

/-- How many of some operations leave another document under a key. -/
def persisted (key : String) (s : Store) : List (Instant × FilterOperation) → Nat
  | [] => 0
  | (now, op) :: rest =>
    let s' := (op.perform now s).2
    (if s'.filter? key = s.filter? key then 0 else 1) + persisted key s' rest

/-- Writes to a blueprint only under one and the same tag. -/
def WritesUnder (key tag : String) : FilterOperation → Prop
  | add b => b.id ≠ key
  | edit id selector _ => id = key → selector = .exact tag
  | get _ _ => True

theorem perform_edit (now : Instant) (s : Store) (id : String) (selector : Selector)
    (e : FilterEdit) :
    (edit id selector e).perform now s = Store.tagOnly (s.modifyFilter now id selector e.apply) := by
  cases e <;> rfl

end FilterOperation

/-- How a sound store keeps to the tags of its blueprints: what is stored carries its own tag, replies
tell the stored tag, another tag is a conflict, and of the writes that name one and the same tag at most
one is kept. -/
structure Store.ComparesAndSets (s : Store) : Prop where
  readable : ∀ id text, s.backend.find? .filters id = some text → ∃ b, s.filter? id = some b
  fresh : ∀ id b, s.filter? id = some b → b.etag = b.tag
  /-- A write replies the tag that is read from then on, if the backend does not fail. -/
  returned : ∀ (now : Instant) (op : FilterOperation) (tag : String),
    op.isWrite = true → (op.perform now s).1 = .ok tag →
    ∃ b, (op.perform now s).2.filter? op.id = some b ∧ b.etag = tag ∧
      ((op.perform now s).2.getFilter op.id .any).1 =
        match (op.perform now s).2.backend.failure? .get .filters with
        | some failure => .error failure
        | none => .ok b
  /-- An operation that names another tag than the stored one is a conflict, if it is not the
  backend that fails. -/
  conflict : ∀ (now : Instant) (op : FilterOperation) (tag : String) (b : Blueprint),
    op.selector? = some (.exact tag) → s.filter? op.id = some b → tag ≠ b.etag →
    (op.perform now s).1 = .error ((s.backend.failure? op.access .filters).getD (.conflict op.id))
  refused : ∀ (now : Instant) (op : FilterOperation) (error : StoreError),
    (op.perform now s).1 = .error error →
    (op.perform now s).2.backend.filters = s.backend.filters
  /-- An edit that leaves the tag as it was leaves all documents as they were. -/
  unchanged : ∀ now id selector e b c, s.filter? id = some b → FilterEdit.apply e b = .ok c →
    c.tag = b.tag →
    ((FilterOperation.edit id selector e).perform now s).2.backend.filters = s.backend.filters
  /-- At most one of the writes under one tag is kept. -/
  once : ∀ (key tag : String) (ops : List (Instant × FilterOperation)),
    (∀ op ∈ ops, FilterOperation.WritesUnder key tag op.2) →
    FilterOperation.persisted key s ops ≤ 1

namespace FilterOperation

/-- What an operation can do: nothing, with an error or with the stored tag; or keep a blueprint,
either a new one or one with another tag than before. -/
theorem perform_cases {s : Store} (h : s.Sound) (now : Instant) (op : FilterOperation) :
    (∃ error, (op.perform now s).1 = .error error ∧
      (op.perform now s).2.backend.filters = s.backend.filters) ∨
    (∃ b, s.filter? op.id = some b ∧ op.perform now s = (.ok b.etag, s.touched)) ∨
    ∃ b : Blueprint, b.id = op.id ∧ b.etag = b.tag ∧
      op.perform now s = (.ok b.etag, s.keeping now b) ∧
      ((∃ new, op = add new) ∨
        ∃ selector e old, op = edit op.id selector e ∧ s.filter? op.id = some old ∧
          selector.accepts old.etag = true ∧ b.etag ≠ old.etag) := by
  cases op with
  | add b =>
    rcases Store.addFilter_cases h now b with ⟨error, he⟩ | ⟨hfree, he⟩
    · exact Or.inl ⟨error, by rw [perform, he]; exact ⟨rfl, rfl⟩⟩
    · exact Or.inr (Or.inr ⟨s.stampedFilter now b, rfl, rfl, by rw [perform, he]; rfl,
        Or.inl ⟨b, rfl⟩⟩)
  | edit id selector e =>
    rw [perform_edit]
    rcases Store.modifyFilter_cases h now id selector e with ⟨error, he⟩ | ⟨b, c, hb, ha, hc, he⟩
    · exact Or.inl ⟨error, by rw [he]; exact ⟨rfl, rfl⟩⟩
    · have key : c.id = id := by rw [(FilterEdit.apply_id_etag hc).1, h.id_eq hb]
      rcases he with ⟨ht, he⟩ | ⟨ht, he⟩
      · refine Or.inr (Or.inl ⟨b, hb, ?_⟩)
        rw [he, Store.tagOnly, Except.map, (FilterEdit.apply_id_etag hc).2]
      · exact Or.inr (Or.inr ⟨s.restamped now c, key, rfl, by rw [he]; rfl,
          Or.inr ⟨selector, e, b, rfl, hb, ha, ht⟩⟩)
  | get id selector =>
    rcases Store.getFilter_cases h id selector with ⟨error, he⟩ | ⟨b, hb, -, he⟩
    · exact Or.inl ⟨error, by rw [perform, he]; exact ⟨rfl, rfl⟩⟩
    · exact Or.inr (Or.inl ⟨b, hb, by rw [perform, he]; rfl⟩)

theorem sound_perform {s : Store} (h : s.Sound) (now : Instant) (op : FilterOperation) :
    (op.perform now s).2.Sound := by
  rcases perform_cases h now op with ⟨_, -, hf⟩ | ⟨_, -, he⟩ | ⟨b, -, hb, he, -⟩
  · exact h.of_filters_eq hf
  · rw [he]
    exact h.touched
  · rw [he]
    exact h.keeping now hb

/-- A store stays sound, whatever is done to it. -/
theorem sound_performAll {s : Store} (h : s.Sound) (ops : List (Instant × FilterOperation)) :
    (performAll s ops).Sound := by
  induction ops generalizing s with
  | nil => exact h
  | cons op ops ih => exact ih (sound_perform h op.1 op.2)

/-- An operation that writes to a key under a tag only changes the document there if that is the
stored tag, and then it leaves another one. -/
theorem perform_under {s : Store} (h : s.Sound) (now : Instant) {key tag : String}
    {op : FilterOperation} (hop : op.WritesUnder key tag) :
    (op.perform now s).2.filter? key = s.filter? key ∨
    ∃ old new, s.filter? key = some old ∧ old.etag = tag ∧
      (op.perform now s).2.filter? key = some new ∧ new.etag ≠ tag := by
  rcases perform_cases h now op with ⟨_, -, hf⟩ | ⟨_, -, he⟩ | ⟨b, hid, -, he, hb⟩
  · exact Or.inl (Store.filter?_of_filters_eq hf key)
  · exact Or.inl (by rw [he, Store.filter?_touched])
  · rw [he]
    by_cases hk : key = b.id
    · subst hk
      rcases hb with ⟨new, rfl⟩ | ⟨selector, e, old, hedit, hold, ha, hne⟩
      · exact absurd hid.symm hop
      · rw [hedit, WritesUnder] at hop
        rw [hop hid.symm] at ha
        have htag : tag = old.etag := by simpa [Selector.accepts] using ha
        refine Or.inr ⟨old, b, hid ▸ hold, htag.symm, Store.filter?_keeping_self s now b, ?_⟩
        rwa [htag]
    · exact Or.inl (Store.filter?_keeping_of_ne hk)

/-- Writes under a tag that is not the stored one leave nothing. -/
theorem persisted_of_other_tag {s : Store} (h : s.Sound) {key tag : String}
    (hs : ∀ b, s.filter? key = some b → b.etag ≠ tag)
    (ops : List (Instant × FilterOperation)) (hops : ∀ op ∈ ops, WritesUnder key tag op.2) :
    persisted key s ops = 0 := by
  induction ops generalizing s with
  | nil => rfl
  | cons op ops ih =>
    obtain ⟨now, op⟩ := op
    have same : (op.perform now s).2.filter? key = s.filter? key := by
      rcases perform_under h now (hops (now, op) List.mem_cons_self) with same | ⟨old, _, hold, ht, -⟩
      · exact same
      · exact absurd ht (hs old hold)
    have rest := ih (sound_perform h now op) (by rwa [same])
      fun op' hmem => hops op' (List.mem_cons_of_mem _ hmem)
    simp only [persisted, same, if_true, rest]

/-- Of writes under one tag at most one is kept: from then on another tag is stored. -/
theorem persisted_le_one {s : Store} (h : s.Sound) (key tag : String)
    (ops : List (Instant × FilterOperation)) (hops : ∀ op ∈ ops, WritesUnder key tag op.2) :
    persisted key s ops ≤ 1 := by
  induction ops generalizing s with
  | nil => exact Nat.zero_le 1
  | cons op ops ih =>
    obtain ⟨now, op⟩ := op
    have hrest : ∀ op' ∈ ops, WritesUnder key tag op'.2 :=
      fun op' hmem => hops op' (List.mem_cons_of_mem _ hmem)
    have sound := sound_perform h now op
    rcases perform_under h now (hops (now, op) List.mem_cons_self) with
      same | ⟨_, new, -, -, hnew, hne⟩
    · simp only [persisted, same, if_true, Nat.zero_add]
      exact ih sound hrest
    · have rest : persisted key (op.perform now s).2 ops = 0 := by
        refine persisted_of_other_tag sound ?_ ops hrest
        intro b hb
        rw [hnew] at hb
        rwa [← Option.some.inj hb]
      simp only [persisted, rest, Nat.add_zero]
      split <;> decide

/-- Another tag than the stored one is a conflict, unless the backend fails. -/
theorem perform_conflict {s : Store} (h : s.Sound) (now : Instant) {op : FilterOperation}
    {tag : String} {b : Blueprint} (hop : op.selector? = some (.exact tag))
    (hb : s.filter? op.id = some b) (ht : tag ≠ b.etag) :
    (op.perform now s).1 = .error ((s.backend.failure? op.access .filters).getD (.conflict op.id)) := by
  have rejects : (Selector.exact tag).accepts b.etag = false := by simpa [Selector.accepts] using ht
  cases op with
  | add new => exact absurd hop (by simp [selector?])
  | edit id selector e =>
    obtain rfl : selector = .exact tag := Option.some.inj hop
    change s.filter? id = some b at hb
    rw [perform_edit, Store.tagOnly, Store.modifyFilter_conflict h now e hb rejects]
    rfl
  | get id selector =>
    obtain rfl : selector = .exact tag := Option.some.inj hop
    change s.filter? id = some b at hb
    rw [perform, Store.tagOnly, Store.getFilter_eq h, hb, access, FilterOperation.id]
    cases s.backend.failure? .get .filters with
    | some failure => rfl
    | none =>
      simp only [rejects, Bool.false_eq_true, if_false]
      rfl

/-- The tag that is replied is that of what is stored, and is read there unless the backend
fails. -/
theorem perform_returned {s : Store} (h : s.Sound) (now : Instant) {op : FilterOperation}
    {tag : String} (hok : (op.perform now s).1 = .ok tag) :
    ∃ b, (op.perform now s).2.filter? op.id = some b ∧ b.etag = tag ∧
      ((op.perform now s).2.getFilter op.id .any).1 =
        match (op.perform now s).2.backend.failure? .get .filters with
        | some failure => .error failure
        | none => .ok b := by
  have stored : ∃ b, (op.perform now s).2.filter? op.id = some b ∧ b.etag = tag := by
    rcases perform_cases h now op with ⟨_, he, -⟩ | ⟨b, hb, he⟩ | ⟨b, hid, -, he, -⟩
    · rw [he] at hok
      exact absurd hok (by simp)
    · rw [he] at hok ⊢
      exact ⟨b, by rwa [Store.filter?_touched], by simpa using hok⟩
    · rw [he] at hok ⊢
      exact ⟨b, by rw [← hid, Store.filter?_keeping_self], by simpa using hok⟩
  obtain ⟨b, hb, ht⟩ := stored
  refine ⟨b, hb, ht, ?_⟩
  rw [Store.getFilter_eq (sound_perform h now op), hb]
  cases (op.perform now s).2.backend.failure? .get .filters <;> rfl

/-- Whatever fails leaves the blueprints as they were. -/
theorem perform_refused {s : Store} (h : s.Sound) (now : Instant) {op : FilterOperation}
    {error : StoreError} (herr : (op.perform now s).1 = .error error) :
    (op.perform now s).2.backend.filters = s.backend.filters := by
  rcases perform_cases h now op with ⟨_, -, hf⟩ | ⟨_, -, he⟩ | ⟨_, -, -, he, -⟩
  · exact hf
  · rw [he]
    rfl
  · rw [he] at herr
    exact absurd herr (by simp)

theorem perform_unchanged {s : Store} (h : s.Sound) (now : Instant) {id : String}
    (selector : Selector) {e : FilterEdit} {b c : Blueprint} (hb : s.filter? id = some b)
    (hc : e.apply b = .ok c) (ht : c.tag = b.tag) :
    ((edit id selector e).perform now s).2.backend.filters = s.backend.filters := by
  rw [perform_edit]
  rcases Store.modifyFilter_cases h now id selector e with ⟨_, he⟩ | ⟨b', c', hb', -, hc', he⟩
  · rw [he]
    rfl
  · obtain rfl := Option.some.inj (hb.symm.trans hb')
    obtain rfl := Except.ok.inj (hc.symm.trans hc')
    rcases he with ⟨-, he⟩ | ⟨hne, -⟩
    · rw [he]
      rfl
    · exact absurd (ht.trans (h.etag_eq hb).symm) hne

/-- Whatever operations were performed on an empty store and whenever its backend fails, every
operation keeps to the tags. -/
theorem comparesAndSets_performAll (outage : Nat → Access → Collection → Option String)
    (past : List (Instant × FilterOperation)) :
    (performAll { backend := { outage } } past).ComparesAndSets := by
  have empty : Store.Sound { backend := { outage } } := by
    intro key text ht
    exact absurd ht (by simp [Backend.find?, Backend.documents])
  have sound := sound_performAll empty past
  exact {
    readable := fun id text ht => by
      obtain ⟨b, rfl, -, -⟩ := sound id text ht
      exact ⟨b, by rw [Store.filter?, ht, Option.bind_some, Blueprint.decode?_encode]⟩
    fresh := fun id b hb => sound.etag_eq hb
    returned := fun now op tag _ hok => perform_returned sound now hok
    conflict := fun now op tag b hop hb ht => perform_conflict sound now hop hb ht
    refused := fun now op error herr => perform_refused sound now herr
    unchanged := fun now id selector e b c hb hc ht => perform_unchanged sound now selector hb hc ht
    once := fun key tag ops hops => persisted_le_one sound key tag ops hops }

end FilterOperation
end DatasetFilters
