import DatasetFilters.Proofs.Catalog.Batches
import DatasetFilters.Proofs.Dimension
import DatasetFilters.Proofs.Service.Alone
import DatasetFilters.Proofs.Service.Course

namespace DatasetFilters

namespace Dimension

/-- The ids that are no options, each once, where it first stands. -/
def missing (options ids : List String) : List String :=
  (ids.filter fun id => !id.isEmpty && !options.contains id).eraseDups

/-- The ids that are no options are found among those that were asked for. -/
theorem filter_distinct (options ids : List String) :
    (distinct ids).filter (fun id => !options.contains id) = missing options ids := by
  rw [distinct_eq, filter_eraseDups, List.filter_filter, missing]
  simp only [Bool.and_comm]

theorem missing_eq_nil_iff {options ids : List String} :
    missing options ids = [] ↔ ∀ id ∈ ids, id ≠ "" → id ∈ options := by
  rw [← filter_distinct, List.filter_eq_nil_iff]
  simp [mem_distinct]

end Dimension

namespace Validation

variable {options ids : List String} {confirmed : List Confirmation}

/-- A batch is confirmed that all ids are requested in: the ones not found are the ones that are no
options. -/
theorem verdict_eq (dimension : String) (complete : ∀ id ∈ ids, ∃ c ∈ confirmed, id ∈ c.requested)
    (found : ∀ c ∈ confirmed, ∀ id, id ∈ c.found ↔ id ∈ c.requested ∧ id ∈ options) :
    verdict dimension ids confirmed =
      if (ids.filter fun id => !options.contains id).isEmpty then .ok ()
      else .error (.incorrectOptions dimension (ids.filter fun id => !options.contains id)) := by
  have unknown : ids.filter (missing confirmed).contains =
      ids.filter fun id => !options.contains id := by
    refine List.filter_congr fun id hid => ?_
    rw [Bool.eq_iff_iff, List.contains_iff_mem, missing, List.mem_flatMap]
    simp only [List.mem_filter, Bool.not_eq_true', List.contains_eq_mem, decide_eq_false_iff_not]
    constructor
    · rintro ⟨c, hc, requested, absent⟩ known
      exact absent ((found c hc id).mpr ⟨requested, known⟩)
    · intro unknown
      obtain ⟨c, hc, requested⟩ := complete id hid
      exact ⟨c, hc, requested, fun known => unknown ((found c hc id).mp known).2⟩
  rw [verdict, unknown]

open Lookup (Incident)

/-- How the questions of a validation are answered, and the incidents of its lookup noted. Any course
of the lookup may be taken; batches may fail, or tell which of their ids are options. -/
structure Answers
    (answer : (q : Query) → World → List Incident → q.Reply × World × List Incident)
    (limits : BatchLimits) (d : DatasetRef) (name : String) (ids : List String)
    (declared : CatalogReply (List VersionDimension)) (options : List String) : Prop where
  dimensions : ∀ w log, ∃ w', answer (.dimensions d) w log = (declared, w', log)
  options : ∀ w log, ∃ course l w',
    (Lookup.plan limits (Dimension.distinct ids)).Course course l ∧ l.isDone = true ∧
    (∀ batch found, .answered batch (.ok found) ∈ course →
      ∀ id, id ∈ found ↔ id ∈ batch ∧ id ∈ options) ∧
    answer (.options d name (Lookup.plan limits (Dimension.distinct ids))) w log =
      (l.outcome, w', log ++ course)

/-- What a validation results in, by what the catalog declares and by the incidents of the lookup. -/
structure Judges (limits : BatchLimits) (name : String) (ids : List String)
    (declared : CatalogReply (List VersionDimension)) (options : List String)
    (result : Except ServiceError Unit) (log : List Incident) : Prop where
  /-- Without a failure, the validation passes just if the catalog knows everything. -/
  passes : Lookup.firstFailure? log = none → (result = .ok () ↔
    ∃ ds, declared = .ok ds ∧ name ∈ ds.map (·.name) ∧ ∀ id ∈ ids, id ≠ "" → id ∈ options)
  undeclared : ∀ ds, declared = .ok ds → name ∉ ds.map (·.name) →
    result = .error (.incorrectDimensions [name]) ∧ log = []
  unknown : ∀ ds, declared = .ok ds → name ∈ ds.map (·.name) →
    Lookup.firstFailure? log = none → Dimension.missing options ids ≠ [] →
      result = .error (.incorrectOptions name (Dimension.missing options ids))
  unanswered : ∀ e, declared = .error e → result = .error (.ofCatalog e) ∧ log = []
  failed : ∀ e, Lookup.firstFailure? log = some e → result = .error (.ofCatalog e)
  stopped : ∀ before after, log = before ++ after → Lookup.firstFailure? before ≠ none →
    Lookup.asked after = []
  /-- No id is asked for twice, in one batch or in two. -/
  once : (Lookup.asked log).flatten.Nodup
  batches : ∀ batch ∈ Lookup.asked log, (batch ≠ [] ∧ batch.length ≤ max limits.size 1) ∧
    ∀ id ∈ batch, id ∈ ids ∧ id ≠ ""
  all : ∀ ds, declared = .ok ds → name ∈ ds.map (·.name) → Lookup.firstFailure? log = none →
    ∀ id ∈ ids, id ≠ "" → ∃ batch ∈ Lookup.asked log, id ∈ batch
  inFlight : ∀ moment, moment <+: log →
    (Lookup.asked moment).length ≤ (Lookup.answered moment).length + max limits.workers 1

section

variable {answer : (q : Query) → World → List Incident → q.Reply × World × List Incident}
  {limits : BatchLimits} {d : DatasetRef} {name : String}
  {declared : CatalogReply (List VersionDimension)}

theorem run_declared (answers : Answers answer limits d name ids declared options) (w : World)
    (log : List Incident) : ∃ w', ((Validation.declared d) w).run answer log =
      (declared.mapError .ofCatalog |>.map fun ds => ds.map (·.name), w', log) := by
  obtain ⟨w', hw'⟩ := answers.dimensions w log
  refine ⟨w', ?_⟩
  have asked : ((Request.ask (.dimensions d) : Request ServiceError _) w).run answer log =
      (.ok declared, w', log) := by rw [Request.run_ask, hw']
  rw [Validation.declared, Request.run_bind asked]
  cases declared <;> rfl

/-- The options of a dimension are judged from any course of their lookup. -/
theorem run_options (answers : Answers answer limits d name ids declared options) (w : World)
    (log : List Incident) : ∃ course l w',
    (Lookup.plan limits (Dimension.distinct ids)).Course course l ∧ l.isDone = true ∧
    ((Validation.options limits d name ids) w).run answer log =
      (match Lookup.firstFailure? course with
        | some e => .error (.ofCatalog e)
        | none => if (Dimension.missing options ids).isEmpty then .ok ()
          else .error (.incorrectOptions name (Dimension.missing options ids)),
        w', log ++ course) := by
  by_cases hids : Dimension.distinct ids = []
  · have nothing : Dimension.missing options ids = [] := by
      rw [← Dimension.filter_distinct, hids]
      rfl
    have idle : (Lookup.plan limits []).isDone = true := by simp [Lookup.plan, Lookup.isDone, chunks]
    refine ⟨[], _, w, .rest, hids ▸ idle, ?_⟩
    simp only [Validation.options, hids, nothing, List.append_nil, List.isEmpty_nil, if_true]
    rfl
  · obtain ⟨course, l, w', hcourse, hdone, honest, hw'⟩ := answers.options w log
    refine ⟨course, l, w', hcourse, hdone, ?_⟩
    have asked : ((Request.ask (.options d name (Lookup.plan limits (Dimension.distinct ids))) :
        Request ServiceError _) w).run answer log = (.ok l.outcome, w', log ++ course) := by
      rw [Request.run_ask, hw']
    have some_ids : (Dimension.distinct ids).isEmpty = false := by simpa using hids
    simp only [Validation.options, some_ids, Bool.false_eq_true, if_false]
    rw [Request.run_bind asked, Lookup.outcome, hcourse.keeps.failure]
    cases hfailure : Lookup.firstFailure? course with
    | some e => rfl
    | none =>
      have judged := verdict_eq name (hcourse.confirmed hdone hfailure)
        fun c hc => honest c.requested c.found (hcourse.keeps.confirmed c hc)
      rw [Dimension.filter_distinct] at judged
      rw [← judged]
      rfl

/-- Without a lookup a validation keeps to every bound. -/
theorem judges_nil {result : Except ServiceError Unit}
    (passes : result = .ok () ↔ ∃ ds, declared = .ok ds ∧ name ∈ ds.map (·.name) ∧
      ∀ id ∈ ids, id ≠ "" → id ∈ options)
    (undeclared : ∀ ds, declared = .ok ds → name ∉ ds.map (·.name) ∧
      result = .error (.incorrectDimensions [name]))
    (unanswered : ∀ e, declared = .error e → result = .error (.ofCatalog e)) :
    Judges limits name ids declared options result [] where
  passes := fun _ => passes
  undeclared := fun ds hds _ => ⟨(undeclared ds hds).2, rfl⟩
  unknown := fun ds hds known => absurd known (undeclared ds hds).1
  unanswered := fun e he => ⟨unanswered e he, rfl⟩
  failed := fun _ h => absurd h (by simp [Lookup.firstFailure?])
  stopped := by
    intro before after h
    obtain ⟨rfl, rfl⟩ := List.append_eq_nil_iff.mp h.symm
    exact fun _ => rfl
  once := List.nodup_nil
  batches := fun _ h => absurd h List.not_mem_nil
  all := fun ds hds known => absurd known (undeclared ds hds).1
  inFlight := by
    intro moment h
    rw [List.prefix_nil.mp h]
    exact Nat.zero_le _

/-- A lookup judges each option by itself, whatever its course. -/
theorem judges_course {course : List Incident} {l : Lookup}
    (hcourse : (Lookup.plan limits (Dimension.distinct ids)).Course course l)
    (hdone : l.isDone = true) {ds : List VersionDimension} (known : name ∈ ds.map (·.name))
    {result : Except ServiceError Unit}
    (failed : ∀ e, Lookup.firstFailure? course = some e → result = .error (.ofCatalog e))
    (judged : Lookup.firstFailure? course = none → result =
      if (Dimension.missing options ids).isEmpty then .ok ()
      else .error (.incorrectOptions name (Dimension.missing options ids))) :
    Judges limits name ids (.ok ds) options result course where
  passes := by
    intro hok
    rw [judged hok]
    cases hmissing : Dimension.missing options ids with
    | nil => exact ⟨fun _ => ⟨ds, rfl, known, Dimension.missing_eq_nil_iff.mp hmissing⟩, fun _ => rfl⟩
    | cons id rest =>
      have some_missing : ¬ ∀ id ∈ ids, id ≠ "" → id ∈ options := by
        rw [← Dimension.missing_eq_nil_iff, hmissing]
        exact List.cons_ne_nil _ _
      exact ⟨fun h => by contradiction, fun ⟨_, _, _, all⟩ => absurd all some_missing⟩
  undeclared := fun _ hds hname => by
    obtain rfl := Except.ok.inj hds
    exact absurd known hname
  unknown := by
    intro _ _ _ hok hmissing
    rw [judged hok, if_neg (by simpa using hmissing)]
  unanswered := fun _ h => by contradiction
  failed := failed
  stopped := fun _ _ hlog hfailed => hcourse.asked_eq_nil hlog hfailed
  once := (Dimension.nodup_distinct ids).sublist hcourse.asked_prefix.sublist
  batches := by
    intro batch hbatch
    refine ⟨hcourse.asked_fits hbatch, fun id hid => ?_⟩
    have among := hcourse.asked_prefix.subset (List.mem_flatten.mpr ⟨batch, hbatch, hid⟩)
    exact Dimension.mem_distinct.mp among
  all := by
    intro _ _ _ hok id hid hne
    have asked := hcourse.asked_eq hdone hok
    exact List.mem_flatten.mp (asked ▸ Dimension.mem_distinct.mpr ⟨hid, hne⟩)
  inFlight := by
    intro moment hmoment
    obtain ⟨l', earlier⟩ := hcourse.of_prefix hmoment
    exact earlier.inFlight_le

theorem judges_run (answers : Answers answer limits d name ids declared options) (w : World) :
    Judges limits name ids declared options
      ((Validation.dimension limits d name ids w).run answer []).1
      ((Validation.dimension limits d name ids w).run answer []).2.2 := by
  obtain ⟨w', hdeclared⟩ := run_declared answers w []
  cases hds : declared with
  | error e =>
    rw [hds] at hdeclared
    rw [Validation.dimension, Request.run_bind_of_error hdeclared]
    exact judges_nil (by simp) (by simp) (by simp)
  | ok ds =>
    rw [hds] at hdeclared
    rw [Validation.dimension, Request.run_bind hdeclared]
    by_cases known : name ∈ ds.map (·.name)
    · have found : (ds.map (·.name)).contains name = true := List.contains_iff_mem.mpr known
      obtain ⟨course, l, w'', hcourse, hdone, hrun⟩ := run_options answers w' []
      simp only [found, Bool.not_true, Bool.false_eq_true, if_false, hrun, List.nil_append]
      refine judges_course hcourse hdone known (fun e he => ?_) fun hok => ?_
      · rw [he]
      · rw [hok]
    · have absent : (ds.map (·.name)).contains name = false := by
        simpa [List.contains_eq_mem] using known
      simp only [absent, Bool.not_false, if_true]
      refine judges_nil ?_ ?_ (by simp)
      · constructor
        · exact fun h => by contradiction
        · rintro ⟨ds', hds', hname, -⟩
          obtain rfl := Except.ok.inj hds'
          exact absurd hname known
      · intro ds' hds'
        obtain rfl := Except.ok.inj hds'
        exact ⟨known, rfl⟩

end

/-- A lookup of options always comes to its end, and a validation judges each option by itself, whatever
the bounds of the batches and in whatever order they are answered. -/
theorem dimension_judges (limits : BatchLimits) (d : DatasetRef) (name : String) (ids : List String)
    (declared : CatalogReply (List VersionDimension)) (options : List String) :
    (∀ course l, (Lookup.plan limits (Dimension.distinct ids)).Course course l →
      ∃ more l', (Lookup.plan limits (Dimension.distinct ids)).Course (course ++ more) l' ∧
        l'.isDone = true) ∧
    ∀ answer, Answers answer limits d name ids declared options → ∀ w,
      Judges limits name ids declared options
        ((Validation.dimension limits d name ids w).run answer []).1
        ((Validation.dimension limits d name ids w).run answer []).2.2 := by
  refine ⟨fun course l hcourse => ?_, fun answer answers w => judges_run answers w⟩
  obtain ⟨more, l', finished, hdone, -⟩ := hcourse.can_finish .ok
  exact ⟨more, l', finished, hdone⟩

end Validation

namespace Small

/-- Two of three batches are in flight, and the one that was asked for first is answered last. -/
def ages : List Lookup.Incident :=
  [.asked ["27"], .asked ["99"], .answered ["99"] (.ok []), .asked ["28"],
   .answered ["28"] (.ok ["28"]), .answered ["27"] (.ok ["27"])]

def confirmedAges : List Confirmation := [⟨["99"], []⟩, ⟨["28"], ["28"]⟩, ⟨["27"], ["27"]⟩]

/-- A catalog that answers batches of ages out of order. -/
def unordered : (q : Query) → World → List Lookup.Incident →
    q.Reply × World × List Lookup.Incident
  | .dimensions _, w, log => (.ok [⟨"age", "Age"⟩], w, log)
  | .options .., w, log => (.ok confirmedAges, w, log ++ ages)
  | .dataset id, w, log => (.error (.datasetNotFound id), w, log)
  | .version .., w, log => (.error (.versionNotFound "d"), w, log)
  | .forward .., w, log => (.error "unavailable", w, log)

theorem unordered_answers : Validation.Answers unordered ⟨1, 2⟩ dataset "age"
    ["27", "", "99", "27", "28"] (.ok [⟨"age", "Age"⟩]) ["27", "28"] where
  dimensions := fun w log => ⟨w, rfl⟩
  options := by
    intro w log
    have planned : Lookup.plan ⟨1, 2⟩ (Dimension.distinct ["27", "", "99", "27", "28"]) =
        ⟨2, [["27"], ["99"], ["28"]], [], [], none⟩ := by
      simp [Lookup.plan, chunks, show Dimension.distinct ["27", "", "99", "27", "28"] =
        ["27", "99", "28"] from by decide]
    refine ⟨ages, ⟨2, [], [], confirmedAges, none⟩, w, ?_, rfl, ?_, rfl⟩
    · rw [planned]
      exact .finish (.finish (.start (.finish (.start (.start .rest ["27"] rfl rfl) ["99"] rfl rfl)
        1 ["99"] rfl (.ok []) rfl) ["28"] rfl rfl) 1 ["28"] rfl (.ok ["28"]) rfl)
        0 ["27"] rfl (.ok ["27"]) rfl
    · intro batch found h
      simp only [ages, List.mem_cons, Lookup.Incident.answered.injEq, Except.ok.injEq,
        List.not_mem_nil, or_false, reduceCtorEq, false_or] at h
      rcases h with ⟨rfl, rfl⟩ | ⟨rfl, rfl⟩ | ⟨rfl, rfl⟩ <;> simp

theorem unknown_age : ((Validation.dimension ⟨1, 2⟩ dataset "age" ["27", "", "99", "27", "28"]
    world).run unordered []).1 = .error (.incorrectOptions "age" ["99"]) := by
  obtain ⟨-, judges⟩ := Validation.dimension_judges ⟨1, 2⟩ dataset "age"
    ["27", "", "99", "27", "28"] (.ok [⟨"age", "Age"⟩]) ["27", "28"]
  have missing : Dimension.missing ["27", "28"] ["27", "", "99", "27", "28"] = ["99"] := by decide
  have judged := (judges unordered unordered_answers world).unknown _ rfl (by decide) rfl
  rw [missing] at judged
  exact judged (by decide)

end Small
end DatasetFilters
