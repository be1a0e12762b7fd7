import DatasetFilters.Proofs.Service.Calls

namespace DatasetFilters

section

variable {settings : Settings} {answers : Nat → (q : Query) → q.Reply → Prop}
  {reply : (q : Query) → q.Reply} {start : World} {past : List Moment} {s : Server}

def lastWorld (start : World) : List Moment → World
  | [] => start
  | m :: _ => m.after

/-- The moments of a request that runs from a world on its own, added to the past. -/
def Step.moments (reply : (q : Query) → q.Reply) (me : Client) :
    Step ε α → World → List Moment → List Moment
  | done _ w, before, past => ⟨some me, before, w⟩ :: past
  | acted w resume, before, past =>
    (resume w).moments reply me w (⟨some me, before, w⟩ :: past)
  | ask w q resume, before, past =>
    (resume (reply q) w).moments reply me w (⟨some me, before, w⟩ :: past)

/-- The moments of calls that follow each other, the last one first. -/
def course (settings : Settings) (reply : (q : Query) → q.Reply) (start : World) :
    List (Caller × ServiceCall) → List Moment
  | [] => []
  | (caller, call) :: earlier =>
    let past := course settings reply start earlier
    let now := lastWorld start past
    (call.request settings caller now).moments reply ⟨earlier.length, caller, call⟩ now past

theorem Step.mover_of_mem_moments {reply : (q : Query) → q.Reply} {me : Client} {step : Step ε α}
    {before : World} {past : List Moment} {m : Moment} (h : m ∈ step.moments reply me before past) :
    m.mover = some me ∨ m ∈ past := by
  induction step generalizing before past with
  | done r w =>
    rcases List.mem_cons.mp h with rfl | h
    · exact Or.inl rfl
    · exact Or.inr h
  | acted w resume ih =>
    rcases ih w h with h | h
    · exact Or.inl h
    · rcases List.mem_cons.mp h with rfl | h
      · exact Or.inl rfl
      · exact Or.inr h
  | ask w q resume ih =>
    rcases ih (reply q) w h with h | h
    · exact Or.inl h
    · rcases List.mem_cons.mp h with rfl | h
      · exact Or.inl rfl
      · exact Or.inr h

/-- Whoever moves in a course sent one of its calls. -/
theorem sent_of_mem_course {settings : Settings} {reply : (q : Query) → q.Reply} {start : World}
    {calls : List (Caller × ServiceCall)} {m : Moment} (h : m ∈ course settings reply start calls) :
    ∃ me, m.mover = some me ∧ (me.caller, me.call) ∈ calls := by
  induction calls with
  | nil => simp [course] at h
  | cons first earlier ih =>
    obtain ⟨caller, call⟩ := first
    rcases Step.mover_of_mem_moments h with mover | h
    · exact ⟨_, mover, List.mem_cons_self⟩
    · obtain ⟨me, mover, sent⟩ := ih h
      exact ⟨me, mover, List.mem_cons_of_mem _ sent⟩

namespace Run

theorem world_eq (run : Run settings answers start past s) : s.world = lastWorld start past := by
  cases run with
  | start => rfl
  | next run move => rfl

theorem of_suffix {past' : List Moment} (run : Run settings answers start past s)
    (hs : past' <:+ past) : ∃ s', Run settings answers start past' s' := by
  induction run with
  | start =>
    rw [List.suffix_nil.mp hs]
    exact ⟨_, .start⟩
  | @next past s s' mover run move ih =>
    rcases List.suffix_cons_iff.mp hs with rfl | hs
    · exact ⟨s', .next run move⟩
    · exact ih hs

/-- A request that has moved can go on to its end with no other in between. -/
theorem goesOn (honest : ∀ n q, answers n q (reply q)) {me : Client} {i : Nat}
    {step : Step ServiceError Answer} {before : World}
    (run : Run settings answers start (⟨some me, before, step.world⟩ :: past) s)
    (hi : s.tasks[i]? = some ⟨me, step⟩) (hw : s.world = step.world) :
    ∃ s' r w, Run settings answers start (step.moments reply me before past) s' ∧
      s'.tasks = s.tasks.set i ⟨me, .done r w⟩ := by
  have placed {s : Server} {step step' : Step ServiceError Answer}
      (h : s.tasks[i]? = some ⟨me, step⟩) :
      (s.tasks.set i ⟨me, step'⟩)[i]? = some ⟨me, step'⟩ := by
    obtain ⟨bound, -⟩ := List.getElem?_eq_some_iff.mp h
    exact List.getElem?_set_self bound
  induction step generalizing before past s with
  | done r w =>
    obtain ⟨bound, same⟩ := List.getElem?_eq_some_iff.mp hi
    exact ⟨s, r, w, run, by rw [← same, List.set_getElem_self]⟩
  | acted w resume ih =>
    have move : s.Moves settings (answers (⟨some me, before, w⟩ :: past).length) (some me)
        ⟨(resume s.world).world, s.tasks.set i ⟨me, resume s.world⟩⟩ :=
      .goOn i ⟨me, .acted w resume⟩ _ hi (.acted w resume)
    have next := run.next move
    have same : s.world = w := hw
    obtain ⟨s', r, w', run', tasks⟩ := ih s.world next (placed hi) rfl
    rw [same] at run'
    exact ⟨s', r, w', run', by rw [tasks, List.set_set]⟩
  | ask w q resume ih =>
    have move : s.Moves settings (answers (⟨some me, before, w⟩ :: past).length) (some me)
        ⟨(resume (reply q) s.world).world, s.tasks.set i ⟨me, resume (reply q) s.world⟩⟩ :=
      .goOn i ⟨me, .ask w q resume⟩ _ hi (.answered w q resume (reply q) (honest _ q))
    have next := run.next move
    have same : s.world = w := hw
    obtain ⟨s', r, w', run', tasks⟩ := ih (reply q) s.world next (placed hi) rfl
    rw [same] at run'
    exact ⟨s', r, w', run', by rw [tasks, List.set_set]⟩

/-- Calls can follow each other, each to its end. -/
theorem of_course (honest : ∀ n q, answers n q (reply q)) (calls : List (Caller × ServiceCall)) :
    ∃ s, Run settings answers start (course settings reply start calls) s ∧
      s.tasks.length = calls.length ∧ (∀ task ∈ s.tasks, ∃ r w, task.step = .done r w) ∧
      ∀ caller call earlier, calls = (caller, call) :: earlier →
        ∃ task ∈ s.tasks, task.client = ⟨earlier.length, caller, call⟩ := by
  induction calls with
  | nil => exact ⟨_, .start, rfl, by simp⟩
  | cons first earlier ih =>
    obtain ⟨caller, call⟩ := first
    obtain ⟨s, run, length, done, -⟩ := ih
    let me : Client := ⟨earlier.length, caller, call⟩
    let step := call.request settings caller s.world
    let past := course settings reply start earlier
    have enters : s.Moves settings (answers past.length) (some ⟨s.tasks.length, caller, call⟩)
        ⟨step.world, s.tasks ++ [⟨⟨s.tasks.length, caller, call⟩, step⟩]⟩ := .enter caller call
    rw [length] at enters
    have placed : (s.tasks ++ [⟨me, step⟩])[earlier.length]? = some ⟨me, step⟩ := by
      rw [← length, List.getElem?_concat_length]
    obtain ⟨s', r, w, run', tasks⟩ := goesOn honest (run.next enters) placed rfl
    have last : s'.tasks = s.tasks ++ [⟨me, .done r w⟩] := by
      rw [tasks, List.set_append_right _ _ (Nat.le_of_eq length), length, Nat.sub_self]
      rfl
    refine ⟨s', ?_, ?_, ?_, ?_⟩
    · rw [course, ← run.world_eq]
      exact run'
    · rw [last, List.length_append, length]
      rfl
    · intro task sent
      rw [last] at sent
      rcases List.mem_append.mp sent with sent | sent
      · exact done task sent
      · rw [List.mem_singleton.mp sent]
        exact ⟨r, w, rfl⟩
    · intro caller' call' earlier' heq
      obtain ⟨same, rfl⟩ := List.cons.inj heq
      obtain ⟨rfl, rfl⟩ := Prod.mk.inj same
      exact ⟨⟨me, .done r w⟩, by simp [last], rfl⟩

end Run

end

/-- A call that comes in, or a request that goes on. -/
inductive Server.Turn where
  | enter (caller : Caller) (call : ServiceCall)
  | goOn (i : Nat)

/-- How a suspended request goes on, its question answered by a fixed function. -/
def Step.next? (reply : (q : Query) → q.Reply) (w : World) : Step ε α → Option (Step ε α)
  | done .. => none
  | acted _ resume => some (resume w)
  | ask _ q resume => some (resume (reply q) w)

def Step.isDone : Step ε α → Bool
  | done .. => true
  | _ => false

def Server.turn? (settings : Settings) (reply : (q : Query) → q.Reply) (s : Server) :
    Server.Turn → Option (Client × Server)
  | .enter caller call =>
    let step := call.request settings caller s.world
    let me : Client := ⟨s.tasks.length, caller, call⟩
    some (me, ⟨step.world, s.tasks ++ [⟨me, step⟩]⟩)
  | .goOn i =>
    s.tasks[i]?.bind fun task => (task.step.next? reply s.world).map fun step =>
      (task.client, ⟨step.world, s.tasks.set i ⟨task.client, step⟩⟩)

/-- The moments of some turns, the last one first, and the server after them. -/
def interleaved (settings : Settings) (reply : (q : Query) → q.Reply) (start : World) :
    List Server.Turn → Option (List Moment × Server)
  | [] => some ([], ⟨start, []⟩)
  | turn :: earlier => (interleaved settings reply start earlier).bind fun (past, s) =>
    (s.turn? settings reply turn).map fun (me, s') => (⟨some me, s.world, s'.world⟩ :: past, s')

section

variable {settings : Settings} {answers : Nat → (q : Query) → q.Reply → Prop}
  {reply : (q : Query) → q.Reply} {start : World} {past : List Moment} {s : Server}

theorem Step.resumes_next {answers : (q : Query) → q.Reply → Prop}
    (honest : ∀ q, answers q (reply q)) {w : World} {step step' : Step ε α}
    (h : step.next? reply w = some step') : step.Resumes answers w step' := by
  cases step with
  | done r w => simp [next?] at h
  | acted left resume =>
    obtain rfl := Option.some.inj h
    exact .acted left resume
  | ask left q resume =>
    obtain rfl := Option.some.inj h
    exact .answered left q resume (reply q) (honest q)

/-- Turns that can be taken one after the other make up a run. -/
theorem Run.of_interleaved (honest : ∀ n q, answers n q (reply q)) {turns : List Server.Turn}
    (h : interleaved settings reply start turns = some (past, s)) :
    Run settings answers start past s := by
  induction turns generalizing past s with
  | nil =>
    obtain ⟨rfl, rfl⟩ := Prod.mk.inj (Option.some.inj h)
    exact .start
  | cons turn earlier ih =>
    obtain ⟨⟨past', s'⟩, before, h⟩ := Option.bind_eq_some_iff.mp h
    obtain ⟨⟨me, s''⟩, taken, h⟩ := Option.map_eq_some_iff.mp h
    obtain ⟨rfl, rfl⟩ := Prod.mk.inj h
    refine (ih before).next ?_
    cases turn with
    | enter caller call =>
      obtain ⟨rfl, rfl⟩ := Prod.mk.inj (Option.some.inj taken)
      exact .enter caller call
    | goOn i =>
      obtain ⟨task, hi, taken⟩ := Option.bind_eq_some_iff.mp taken
      obtain ⟨step, next, taken⟩ := Option.map_eq_some_iff.mp taken
      obtain ⟨rfl, rfl⟩ := Prod.mk.inj taken
      exact .goOn i task step hi (Step.resumes_next (honest past'.length) next)

end

theorem Store.mem_of_filter? {s : Store} {id : String} {b : Blueprint} (h : s.filter? id = some b) :
    ∃ text, (id, text) ∈ s.backend.filters := by
  rw [Store.filter?, Option.bind_eq_some_iff] at h
  obtain ⟨text, hfind, -⟩ := h
  obtain ⟨l₁, l₂, heq, -⟩ := List.lookup_eq_some_iff.mp hfind
  rw [Backend.documents] at heq
  exact ⟨text, by simp [heq]⟩

namespace Small

def dataset : DatasetRef := ⟨"d", "e", 1⟩

/-- The one option of the catalog is confirmed when it is asked for alone. -/
def looked : Lookup → CatalogReply (List Confirmation)
  | ⟨1, [["27"]], [], [], none⟩ => .ok [⟨["27"], ["27"]⟩]
  | _ => .error (.transport "unavailable")

/-- A catalog of one version that is not public, with one dimension. -/
def reply : (q : Query) → q.Reply
  | .version _ authenticated =>
    if authenticated then .ok ⟨"i", "created"⟩ else .error (.versionNotFound "d")
  | .dimensions _ => .ok [⟨"age", "Age"⟩]
  | .options _ _ lookup => looked lookup
  | .dataset id => .error (.datasetNotFound id)
  | .forward .. => .error "unavailable"

def answers (_ : Nat) (q : Query) (r : q.Reply) : Prop := r = reply q

theorem answers_reply (n : Nat) (q : Query) : answers n q (reply q) := rfl

def world : World where
  channel := .create "jobs" 1 0
  ids := fun n => if n = 0 then "f" else "o"
  clock := fun _ => default

def settings : Settings := ⟨⟨1, 1⟩, 10, ""⟩

def blank : Blueprint where
  id := "f"
  instanceId := "i"
  dataset := dataset
  dimensions := [⟨"age", []⟩]
  events := []
  state := .created
  published := some false
  kind := ""
  outputId := none
  etag := "1dad894cc12aec61959b48231c6e8f269a7173f53c9612134db7b95b9a88b298"
  stamp := 1
  lastUpdated := default

def chosen : Blueprint := { blank with
  dimensions := [⟨"age", ["27"]⟩]
  etag := "42964f6d42db8509e1250396bc3c97c9d669fb25acee1fba9d1974a3e12e8472"
  stamp := 2 }

def submitted : Blueprint := { chosen with
  events := [⟨.created, default⟩]
  state := .submitted
  outputId := some "o"
  etag := "b88db535afc9cd390b081a68a7604748c81919d3c98a237f9e12b80158fc70c9"
  stamp := 6 }

def known : Caller := ⟨true, false⟩

/-- An option is added, removed, and added once more on the tag of the blank blueprint, which then
is submitted by somebody unknown. -/
def calls : List (Caller × ServiceCall) :=
  [(.anonymous, .update "f" {} true .any),
   (known, .addOption "f" "age" "27" (.exact blank.etag)),
   (known, .removeOption "f" "age" "27" .any),
   (known, .addOption "f" "age" "27" (.exact blank.etag)),
   (known, .create ⟨dataset, [⟨"age", []⟩], ""⟩ false)]

def moments : List Moment := course settings reply world calls

def contents : List Octets := [blank.content, chosen.content, submitted.content]

theorem world_fresh : world.Fresh := rfl

/-- The client that adds the option first, and the one that adds it once more. -/
def first : Client := ⟨1, known, .addOption "f" "age" "27" (.exact blank.etag)⟩
def second : Client := ⟨3, known, .addOption "f" "age" "27" (.exact blank.etag)⟩

def stranger : Client := ⟨4, .anonymous, .update "f" {} true .any⟩

/-- At the last of the moments a client changed the blueprint, which it had not done before. -/
def changesFirst (me : Client) (x y : Blueprint) : List Moment → Bool
  | [] => false
  | m :: past => m.mover = some me ∧ m.before.store.filter? "f" = some x ∧
      m.after.store.filter? "f" = some y ∧ ∀ m ∈ past, m.mover = some me →
        m.after.store.backend.filters = m.before.store.backend.filters

theorem run {answers : Nat → (q : Query) → q.Reply → Prop}
    (honest : ∀ n q, answers n q (reply q)) : ∃ s, Run settings answers world moments s ∧
      ∃ task ∈ s.tasks, task.client = stranger := by
  obtain ⟨s, run, -, -, sent⟩ := Run.of_course honest calls
  exact ⟨s, run, sent _ _ _ rfl⟩

theorem computed :
    (∀ m ∈ moments, (∀ p ∈ m.after.store.backend.filters, p.1 = "f") ∧
      ∀ b ∈ m.after.store.filter? "f", b.content ∈ contents ∧ b.isPublished = false) ∧
    (lastWorld world moments).store.filter? "f" = some submitted ∧
    changesFirst first blank chosen (moments.drop 21) ∧
    changesFirst second { blank with stamp := 3 } { chosen with stamp := 4 } (moments.drop 11) ∧
    (∃ m ∈ moments, m.mover = some stranger ∧
      m.after.store.backend.filters ≠ m.before.store.backend.filters) ∧
    ∀ m ∈ contents, m.length < 1000 ∧ ∀ m' ∈ contents, Sha256.hash m = Sha256.hash m' → m = m' := by
  decide +kernel

theorem kept {b : Blueprint} (h : Kept moments b) :
    b.id = "f" ∧ b.content ∈ contents ∧ b.isPublished = false := by
  obtain ⟨m, hm, hb⟩ := h
  obtain ⟨text, hmem⟩ := Store.mem_of_filter? hb
  obtain ⟨hkeys, hcontents⟩ := computed.1 m hm
  have hid : b.id = "f" := hkeys _ hmem
  rw [World.Stores, hid] at hb
  exact ⟨hid, hcontents b hb⟩

theorem collisionless : Collisionless moments := by
  obtain ⟨-, -, -, -, -, distinct⟩ := computed
  exact .of_contents (fun b hb => (kept hb).2.1) distinct

def storing (b : Blueprint) : World := { world with store := ({} : Store).keeping default b }

theorem storing_sound {b : Blueprint} (hb : b.etag = b.tag) : (storing b).store.Sound :=
  (Store.Sound.of_empty rfl).keeping default hb

theorem storing_stores (b : Blueprint) : (storing b).Stores b :=
  Store.filter?_keeping_self {} default b

end Small

end DatasetFilters
