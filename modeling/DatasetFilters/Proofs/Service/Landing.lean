import DatasetFilters.Proofs.Blueprint.Selection
import DatasetFilters.Proofs.Service.Steady

namespace DatasetFilters

/-- An edit of the dimensions of a blueprint. -/
structure Landing where
  id : String
  edit : DimensionEdit
  deriving DecidableEq

namespace Landing

/-- The edits of one of the blueprints. -/
def on (id : String) (es : List Landing) : List DimensionEdit :=
  es.filterMap fun e => if e.id = id then some e.edit else none

@[simp] theorem on_append (id : String) (es es' : List Landing) :
    on id (es ++ es') = on id es ++ on id es' :=
  List.filterMap_append

/-- All of some edits of one blueprint. -/
def all (id : String) (edits : List DimensionEdit) : List Landing := edits.map fun edit => ⟨id, edit⟩

@[simp] theorem on_all (id : String) (edits : List DimensionEdit) : on id (all id edits) = edits := by
  rw [on, all, List.filterMap_map]
  simp

theorem on_all_of_ne {id id' : String} (h : id ≠ id') (edits : List DimensionEdit) :
    on id' (all id edits) = [] := by
  rw [on, all, List.filterMap_map]
  simp [h]

end Landing

/-- What is stored under an id has the dimensions of a selection. -/
def World.Shows (w : World) (id : String) (s : Selection) : Prop :=
  ∃ b, w.store.filter? id = some b ∧ b.Shows s

namespace Moment

variable {m : Moment} {es es' : List Landing}

/-- The moment left all blueprints as they were. -/
def Still (m : Moment) : Prop := m.after.store.backend.filters = m.before.store.backend.filters

theorem Still.filter?_eq (h : m.Still) (id : String) :
    m.after.store.filter? id = m.before.store.filter? id :=
  Store.filter?_of_filters_eq h id

theorem Rests.still (h : m.Rests) : m.Still := h.filters

/-- The edits land at the moment: they are what happens to the selections that are stored. -/
structure Lands (m : Moment) (es : List Landing) : Prop where
  edited : ∀ id s, m.before.Shows id s →
    ∃ s', s.editAll? (Landing.on id es) = some s' ∧ m.after.Shows id s'
  created : ∀ id b, m.before.store.filter? id = none → m.after.store.filter? id = some b → ∃ s, b.Shows s

theorem Lands.of_still (h : m.Still) : m.Lands [] where
  edited id s := by
    rintro ⟨b, hb, hs⟩
    exact ⟨s, rfl, b, (h.filter?_eq id).trans hb, hs⟩
  created id b none some := by
    rw [h.filter?_eq, none] at some
    simp at some

theorem Lands.congr (h : m.Lands es)
    (same : ∀ id s, m.before.Shows id s →
      s.editAll? (Landing.on id es) = s.editAll? (Landing.on id es')) : m.Lands es' where
  edited id s hs := same id s hs ▸ h.edited id s hs
  created := h.created

theorem Lands.of_keeping {mover : Option Client} {now : World} {t : Instant} {b : Blueprint}
    (free : now.store.filter? b.id = none) (distinct : (b.dimensions.map (·.name)).Nodup) :
    (⟨mover, now, { now with store := now.store.keeping t b }⟩ : Moment).Lands [] := by
  constructor
  · rintro id s ⟨c, hc, hs⟩
    have other : id ≠ b.id := by
      rintro rfl
      simp [hc] at free
    exact ⟨s, rfl, c, (Store.filter?_keeping_of_ne other).trans hc, hs⟩
  · intro id c none some
    by_cases other : id = b.id
    · subst other
      obtain rfl := Option.some.inj ((Store.filter?_keeping_self _ t b).symm.trans some)
      exact Blueprint.exists_shows distinct
    · rw [Store.filter?_keeping_of_ne other, none] at some
      simp at some

/-- An edit lands too where it changes nothing of what is stored then. -/
theorem Lands.append (h : m.Lands es) {x : Blueprint} (stored : m.after.Stores x)
    {edits : List DimensionEdit} (idle : ∀ s, x.Shows s → s.editAll? edits = some s) :
    m.Lands (es ++ Landing.all x.id edits) where
  edited id s hs := by
    obtain ⟨s', applied, b, hb, hs'⟩ := h.edited id s hs
    refine ⟨s', ?_, b, hb, hs'⟩
    rw [Landing.on_append, Selection.editAll?_append, applied, Option.bind_some]
    by_cases hid : x.id = id
    · subst hid
      obtain rfl : x = b := Option.some.inj (stored.symm.trans hb)
      rw [Landing.on_all, idle s' hs']
    · rw [Landing.on_all_of_ne hid]
      rfl
  created := h.created

end Moment

namespace FilterEdit

variable {mover : Option Client} {now : World} {t : Instant} {id : String} {e : FilterEdit}
  {y c : Blueprint}

/-- A change that is written lands at the moment of the write. -/
theorem lands_written (sound : now.store.Sound) (stored : now.store.filter? id = some y)
    (applied : e.apply y = .ok c) :
    (⟨mover, now, { now with store := now.store.keeping t (now.store.restamped t c) }⟩ : Moment).Lands
      (Landing.all id e.edits) := by
  have hid : (now.store.restamped t c).id = id := (apply_id_etag applied).1.trans (sound.id_eq stored)
  have kept (key : String) (other : key ≠ id) :
      (now.store.keeping t (now.store.restamped t c)).filter? key = now.store.filter? key :=
    Store.filter?_keeping_of_ne (hid.symm ▸ other)
  constructor
  · rintro key s ⟨b, hb, hs⟩
    by_cases other : key = id
    · subst other
      obtain rfl : y = b := Option.some.inj (stored.symm.trans hb)
      obtain ⟨s', edited, shows'⟩ := shows_apply applied hs
      refine ⟨s', by rw [Landing.on_all, edited], now.store.restamped t c, ?_, shows'⟩
      rw [← hid]
      exact Store.filter?_keeping_self _ t _
    · refine ⟨s, by rw [Landing.on_all_of_ne (Ne.symm other)]; rfl, b, ?_, hs⟩
      exact (kept key other).trans hb
  · intro key b none some
    by_cases other : key = id
    · rw [other, stored] at none
      simp at none
    · rw [kept key other, none] at some
      simp at some

/-- A change that leaves everything observable as it was lands where it is not written. -/
theorem lands_unwritten {m : Moment} (still : m.Still) (stored : m.before.store.filter? id = some y)
    (applied : e.apply y = .ok c) (same : c.observed = y.observed) :
    m.Lands (Landing.all id e.edits) := by
  constructor
  · rintro key s ⟨b, hb, hs⟩
    refine ⟨s, ?_, b, (still.filter?_eq key).trans hb, hs⟩
    by_cases other : key = id
    · subst other
      obtain rfl : y = b := Option.some.inj (stored.symm.trans hb)
      obtain ⟨s', edited, shows'⟩ := shows_apply applied hs
      have unmoved : s'.dimensions = s.dimensions := by
        rw [← shows', ← hs, Blueprint.selected_congr same]
      rw [Landing.on_all, edited, Selection.ext unmoved]
    · rw [Landing.on_all_of_ne (Ne.symm other)]
      rfl
  · exact (Moment.Lands.of_still still).created

end FilterEdit

/-- The edits of a client, in the order in which they landed at its moments. -/
inductive Landed : List Landing → List Moment → Prop
  | start : Landed [] []
  | next {es es' : List Landing} {m : Moment} {own : List Moment} (h : Landed es own)
      (lands : m.Lands es') : Landed (es ++ es') (m :: own)

/-- The blueprint was stored after one of the client's moments, and nothing landed later. -/
inductive Holding (x : Blueprint) : List Landing → List Moment → Prop
  | got {es es' : List Landing} {m : Moment} {own : List Moment} (h : Landed es own)
      (lands : m.Lands es') (stored : m.after.Stores x) : Holding x (es ++ es') (m :: own)
  | still {es : List Landing} {m : Moment} {own : List Moment} (h : Holding x es own) (still : m.Still) :
      Holding x es (m :: own)

theorem Landed.still {es : List Landing} {m : Moment} {own : List Moment} (h : Landed es own)
    (still : m.Still) : Landed es (m :: own) := by
  have := h.next (.of_still still)
  rwa [List.append_nil] at this

namespace Holding

variable {x : Blueprint} {es : List Landing} {own : List Moment}

theorem landed (h : Holding x es own) : Landed es own := by
  induction h with
  | got h lands _ => exact h.next lands
  | still _ still ih => exact ih.still still

theorem stored (h : Holding x es own) : ∃ m ∈ own, m.after.Stores x := by
  induction h with
  | got _ _ stored => exact ⟨_, List.mem_cons_self, stored⟩
  | still _ _ ih =>
    obtain ⟨m, hm, stored⟩ := ih
    exact ⟨m, List.mem_cons_of_mem _ hm, stored⟩

theorem append (h : Holding x es own) {edits : List DimensionEdit}
    (idle : ∀ s, x.Shows s → s.editAll? edits = some s) :
    Holding x (es ++ Landing.all x.id edits) own := by
  induction h with
  | got h lands stored =>
    rw [List.append_assoc]
    exact .got h (lands.append stored idle) stored
  | still _ still ih => exact ih.still still

end Holding

/-- A client had in its hands what looked like this blueprint and had its tag. -/
def Holds (b : Blueprint) (es : List Landing) (own : List Moment) : Prop :=
  ∃ x, Holding x es own ∧ x.id = b.id ∧ x.etag = b.etag ∧ x.selected = b.selected

namespace Holds

variable {b : Blueprint} {es : List Landing} {own : List Moment}

theorem landed (h : Holds b es own) : Landed es own := by
  obtain ⟨x, holding, -⟩ := h
  exact holding.landed

theorem still (h : Holds b es own) {m : Moment} (still : m.Still) : Holds b es (m :: own) := by
  obtain ⟨x, holding, same⟩ := h
  exact ⟨x, .still holding still, same⟩

theorem append (h : Holds b es own) {edits : List DimensionEdit}
    (idle : ∀ s, b.Shows s → s.editAll? edits = some s) :
    Holds b (es ++ Landing.all b.id edits) own := by
  obtain ⟨x, holding, hid, htag, same⟩ := h
  refine ⟨x, ?_, hid, htag, same⟩
  rw [← hid]
  exact holding.append fun s hs => idle s (same.symm.trans hs)

end Holds

end DatasetFilters
