import DatasetFilters.Proofs.Service.Hashed
import DatasetFilters.Proofs.Service.Ledger
import DatasetFilters.Proofs.Service.Submission
import Mathlib.Algebra.GroupWithZero.Nat
import Mathlib.Algebra.Order.BigOperators.Group.List
import Mathlib.Algebra.Order.Group.Int

namespace DatasetFilters

section

variable {settings : Settings} {answers : Nat → (q : Query) → q.Reply → Prop} {me : Client}
  {past own : List Moment} {start : World} {s : Server} {strokes : List Stroke} {l : Ledger}

theorem Client.own_cons (me : Client) (m : Moment) (past : List Moment) (f : Moment → Int) :
    ((me.own (m :: past)).map f).sum =
      (if some me = m.mover then f m else 0) + ((me.own past).map f).sum := by
  by_cases h : m.mover = some me
  · simp [own, h]
  · rw [own_cons_of_ne h, if_neg (Ne.symm h), zero_add]

/-- What all moments come to is what those of all clients come to. -/
theorem Client.sum_own {clients : List Client} (distinct : clients.Nodup) (f : Moment → Int)
    (idle : ∀ m ∈ past, m.mover = none → f m = 0)
    (among : ∀ m ∈ past, ∀ me, m.mover = some me → me ∈ clients) :
    (past.map f).sum = (clients.map fun me => ((me.own past).map f).sum).sum := by
  induction past with
  | nil => simp [own]
  | cons m past ih =>
    have rest := ih (fun m hm => idle m (List.mem_cons_of_mem _ hm))
      fun m hm => among m (List.mem_cons_of_mem _ hm)
    simp only [own_cons, List.sum_map_add, ← rest, List.map_cons, List.sum_cons]
    congr 1
    cases mover : m.mover with
    | none => simp [idle m List.mem_cons_self mover]
    | some you =>
      have mine := among m List.mem_cons_self you mover
      simp only [Option.some.injEq]
      rw [List.sum_map_ite_eq, List.count_eq_one_of_mem distinct mine]
      simp

namespace Run

theorem clients_nodup (run : Run settings answers start past s) :
    (s.tasks.map Task.client).Nodup := by
  refine List.nodup_iff_injective_get.mpr fun i j same => ?_
  have placed {i : Nat} (hi : i < s.tasks.length) : s.tasks[i].client.place = i :=
    run.placed.1 i _ (List.getElem?_eq_getElem hi)
  have hi : i.1 < s.tasks.length := by simpa using i.2
  have hj : j.1 < s.tasks.length := by simpa using j.2
  simp only [List.get_eq_getElem, List.getElem_map] at same
  rw [Fin.ext_iff, ← placed hi, ← placed hj, same]

/-- What the moments of a run come to is what the clients' own do, if those of nobody come to
nothing. -/
theorem sum_eq (run : Run settings answers start past s) (f : Moment → Int)
    (idle : ∀ m ∈ past, m.mover = none → f m = 0) :
    (past.map f).sum =
      (s.tasks.map fun task => ((task.client.own past).map f).sum).sum := by
  have among : ∀ m ∈ past, ∀ me, m.mover = some me → me ∈ s.tasks.map Task.client := by
    intro m hm me mover
    obtain ⟨step, sent⟩ := run.placed.2 m hm me mover
    exact List.mem_map.mpr ⟨_, List.mem_of_getElem? sent, rfl⟩
  rw [Client.sum_own run.clients_nodup f idle among, List.map_map]
  rfl

/-- What a quantity gains in a run it gains at its moments. -/
theorem sum_gain (run : Run settings answers start past s) (quantity : World → Int) :
    (past.map fun m => quantity m.after - quantity m.before).sum =
      quantity s.world - quantity start := by
  induction run with
  | start => simp
  | next run move ih =>
    rw [List.map_cons, List.sum_cons, ih]
    exact sub_add_sub_cancel _ _ _

/-- What a run shifts in a ledger is what the balance went up or down, and the messages. -/
theorem sum_shift (run : Run settings answers start past s) (l : Ledger) :
    (past.map fun m => m.shift l).sum =
      s.world.balance l - start.balance l + l.messages past := by
  have messages (past : List Moment) :
      (past.map fun m => l.messages [m]).sum = l.messages past := by
    induction past with
    | nil => cases l <;> rfl
    | cons m past ih => rw [List.map_cons, List.sum_cons, ih, ← l.messages_cons]
  unfold Moment.shift
  rw [List.sum_map_add, run.sum_gain (World.balance · l), messages]

end Run

/-- A blueprint that was stored, or what one would be if it were submitted to an output made of it. -/
inductive Sealed (past : List Moment) : Blueprint → Prop
  | kept {b : Blueprint} (kept : Kept past b) : Sealed past b
  | submission {b : Blueprint} {outputId : String} {time : Instant} (kept : Kept past b)
      (editable : b.isSubmitted = false) (rendered : Rendered past b.id outputId time) :
      Sealed past ((BlueprintChange.submission outputId time).apply b)

/-- The hash keeps apart what was stored, submitted or not, so that a submission is always written
and not taken for done. -/
def SealsApart (past : List Moment) : Prop :=
  Sha256.Separates fun m => ∃ b, Sealed past b ∧ m = b.content

theorem Unsubmitted.mono {id tag : String} (h : Unsubmitted own id tag) (within : own ⊆ past) :
    Unsubmitted past id tag := by
  obtain ⟨m, hm, h⟩ := h
  exact ⟨m, within hm, h⟩

theorem Rendered.mono {id outputId : String} {time : Instant} (h : Rendered own id outputId time)
    (within : own ⊆ past) : Rendered past id outputId time := by
  obtain ⟨m, hm, h⟩ := h
  exact ⟨m, within hm, h⟩

/-- A mark finds what its client saw unsubmitted, and changes its tag. -/
theorem Stroke.Does.written {now next : World} {stroke : Stroke} (hash : SealsApart past)
    (h : stroke.Does settings own now next) (within : own ⊆ past)
    (sound : ∀ m ∈ past, m.after.store.Sound) (hnow : now.store.Sound)
    (kept : ∀ y, now.Stores y → Kept past y) : stroke.Written now := by
  cases stroke with
  | marks id tag outputId time =>
    intro y hy htag
    obtain ⟨unsubmitted, rendered, -⟩ := h
    obtain ⟨n, hn, x, hx, rfl, rfl, editable⟩ := unsubmitted.mono within
    have hid := hnow.id_eq hy
    have stored := kept y (World.stores_of_filter? hnow hy)
    have tags : x.tag = y.tag := by
      rw [← (sound n hn).etag_eq hx, ← hnow.etag_eq hy, htag]
    have looks : x.observed = y.observed :=
      hash.observed_eq (.kept ⟨n, hn, hx⟩) (.kept stored) tags
    have editable : y.isSubmitted = false := (Blueprint.isSubmitted_congr looks).symm.trans editable
    refine ⟨editable, fun same => ?_⟩
    rw [hnow.etag_eq hy] at same
    have looks := hash.observed_eq
      (.submission stored editable (hid.symm ▸ rendered.mono within)) (.kept stored) same
    have submitted : ((BlueprintChange.submission outputId time).apply y).isSubmitted = true := rfl
    rw [Blueprint.isSubmitted_congr looks, editable] at submitted
    exact absurd submitted (by simp)
  | _ => trivial

/-- What is there at any moment was stored at an earlier one. -/
theorem Run.kept_before (run : Run settings answers start past s)
    (empty : start.store.backend.filters = []) :
    (∀ y, s.world.Stores y → Kept past y) ∧ ∀ m ∈ past, ∀ y, m.before.Stores y → Kept past y := by
  induction run with
  | start =>
    refine ⟨fun y hy => ?_, by simp⟩
    simp [World.Stores, Store.filter?_of_empty empty] at hy
  | @next past s s' mover run move ih =>
    obtain ⟨now, earlier⟩ := ih
    have later {y : Blueprint} (h : Kept past y) : Kept (⟨mover, s.world, s'.world⟩ :: past) y :=
      h.mono (List.suffix_cons _ past)
    refine ⟨fun y hy => ⟨_, List.mem_cons_self, hy⟩, fun m hm y hy => ?_⟩
    rcases List.mem_cons.mp hm with rfl | hm
    · exact later (now y hy)
    · exact later (earlier m hm y hy)

/-- What a client's moments shift is the weight of its strokes. -/
theorem Traced.shift (h : Traced settings own strokes)
    (known : ∀ m ∈ own, m.before.store.Sound ∧ ∃ me, m.mover = some me)
    (written : l = .submitted → ∀ m ∈ own, ∀ own' (stroke : Stroke), own' ⊆ own →
      stroke.Does settings own' m.before m.after → stroke.Written m.before) :
    (own.map fun m => m.shift l).sum = (strokes.map (Stroke.weight l)).sum := by
  induction h with
  | start => rfl
  | @calm m own strokes h calm ih =>
    rw [List.map_cons, List.sum_cons, calm.shift, zero_add]
    exact ih (fun m hm => known m (List.mem_cons_of_mem _ hm)) fun hl m hm own' stroke within =>
      written hl m (List.mem_cons_of_mem _ hm) own' stroke fun _ h => List.mem_cons_of_mem _ (within h)
  | @next m own strokes stroke h does ih =>
    obtain ⟨sound, me, mover⟩ := known m List.mem_cons_self
    have shifts : m.shift l = stroke.weight l := by
      obtain ⟨mover', now, next⟩ := m
      obtain rfl : mover' = some me := mover
      exact does.shift me sound fun hl => written hl _ List.mem_cons_self own stroke
        (List.subset_cons_self _ _) does
    rw [List.map_cons, List.sum_cons, List.map_cons, List.sum_cons, shifts]
    congr 1
    exact ih (fun m hm => known m (List.mem_cons_of_mem _ hm)) fun hl m hm own' stroke within =>
      written hl m (List.mem_cons_of_mem _ hm) own' stroke fun _ h => List.mem_cons_of_mem _ (within h)

/-- A request that is done or asks leaves all agreements as they were. -/
theorem Task.Told.shift {task : Task} (told : task.Told settings past) (rest : task.step.AtRest)
    (sound : ∀ m ∈ past, m.before.store.Sound)
    (written : l = .submitted → ∀ m ∈ past, ∀ own' (stroke : Stroke), own' ⊆ past →
      stroke.Does settings own' m.before m.after → stroke.Written m.before) :
    ((task.client.own past).map fun m => m.shift l).sum = 0 := by
  obtain ⟨strokes, traced, balanced⟩ := told.balanced rest
  have within : task.client.own past ⊆ past := List.filter_sublist.subset
  rw [traced.shift, balanced l]
  · intro m hm
    exact ⟨sound m (within hm), _, of_decide_eq_true (List.mem_filter.mp hm).2⟩
  · intro hl m hm own' stroke hs
    exact written hl m (within hm) own' stroke (List.Subset.trans hs within)

/-- Whenever all requests are done or ask, nothing is shifted on the whole. -/
theorem Run.balanced (empty : start.store.backend.filters = [])
    (run : Run settings answers start past s) (rest : ∀ task ∈ s.tasks, task.step.AtRest)
    (hash : l = .submitted → SealsApart past) : (past.map fun m => m.shift l).sum = 0 := by
  have sound := Store.Sound.of_empty empty
  obtain ⟨-, struck⟩ := run.struck sound
  obtain ⟨-, kept⟩ := run.kept_before empty
  rw [run.sum_eq _ fun m hm mover => (run.ofReceiver m hm mover).shift]
  refine List.sum_eq_zero fun x hx => ?_
  obtain ⟨task, sent, rfl⟩ := List.mem_map.mp hx
  refine (run.told sound task sent).shift (rest task sent) (fun m hm => (struck m hm).1) ?_
  intro hl m hm own' stroke within does
  exact does.written (hash hl) within (fun n hn => (struck n hn).2.sound (struck n hn).1)
    (struck m hm).1 (kept m hm)

/-- The operations that a reply to a patch lists as carried out. -/
def Task.listed (task : Task) : List PatchOperation :=
  match task.client.call, task.step with
  | .patch .., .done r _ => carriedOut r
  | _, _ => []

/-- The operations that are listed in all the replies to patches. -/
def Server.listed (s : Server) : List PatchOperation := s.tasks.flatMap Task.listed

theorem Server.cast_countP_listed (s : Server) (p : PatchOperation → Bool) :
    (s.listed.countP p : Int) = (s.tasks.map fun task => (task.listed.countP p : Int)).sum := by
  unfold listed
  induction s.tasks with
  | nil => rfl
  | cons task tasks ih =>
    rw [List.flatMap_cons, List.countP_append, List.map_cons, List.sum_cons, ← ih]
    rfl

/-- What a moment adds to a counter. -/
def Moment.gain (m : Moment) (c : Counter) : Int :=
  m.after.counters.value c - m.before.counters.value c

theorem Traced.gain (h : Traced settings own strokes) (c : Counter) :
    (own.map fun m => m.gain c).sum = ((strokes.map (Stroke.counted c)).sum : Nat) := by
  induction h with
  | start => rfl
  | calm h calm ih =>
    rw [List.map_cons, List.sum_cons, ih, Moment.gain, calm.counters, sub_self, zero_add]
  | next h does ih =>
    rw [List.map_cons, List.sum_cons, ih, List.map_cons, List.sum_cons, Moment.gain,
      does.value_counters c]
    omega

/-- A patch counts the operations that it carries out, by their kind. -/
theorem Patches.counted {id : String} {base : List Stroke} {done : List PatchOperation}
    (h : Patches id base done strokes) (a : PatchAction) :
    (strokes.map (Stroke.counted (.patchOperations a))).sum =
      (base.map (Stroke.counted (.patchOperations a))).sum + done.countP (·.action == a) := by
  have counts (o : PatchOperation) (done : List PatchOperation) :
      (done ++ [o]).countP (·.action == a) = done.countP (·.action == a) +
        (Stroke.counts (.patchOperations o.action)).counted (.patchOperations a) := by
    rw [List.countP_append, List.countP_singleton, Stroke.counted]
    by_cases same : o.action = a
    · simp [same]
    · simp [same, Ne.symm same]
  induction h with
  | start => rfl
  | idle h o ih =>
    rw [List.map_cons, List.sum_cons, ih, counts]
    omega
  | edit h o tag e ih =>
    rw [List.map_cons, List.sum_cons, List.map_cons, List.sum_cons, ih, counts]
    simp only [Stroke.counted]
    omega

/-- Only patches count operations. -/
theorem Stroke.By.counted {stroke : Stroke} {call : ServiceCall} (h : stroke.By call)
    (other : call.isPatch = false) (a : PatchAction) : stroke.counted (.patchOperations a) = 0 := by
  cases stroke with
  | counts c =>
    cases c with
    | patchOperations a' => exact absurd ((show call.isPatch = true from h).symm.trans other) (by simp)
    | _ => rfl
  | _ => rfl

theorem Stroke.sum_counted_eq_zero {c : Counter} (h : ∀ stroke ∈ strokes, stroke.counted c = 0) :
    (strokes.map (Stroke.counted c)).sum = 0 :=
  List.sum_eq_zero fun x hx => by
    obtain ⟨stroke, hmem, rfl⟩ := List.mem_map.mp hx
    exact h stroke hmem

namespace Task.Told

variable {task : Task} (told : task.Told settings past) (a : PatchAction)
include told

/-- What a patch that is done has counted it lists. -/
theorem gain_of_done {r : Except ServiceError Answer} {w : World}
    (patch : task.client.call.isPatch = true)
    (done : task.step = .done r w) :
    ((task.client.own past).map fun m => m.gain (.patchOperations a)).sum =
      task.listed.countP (·.action == a) := by
  obtain ⟨strokes, ends, traced⟩ := told.ended r w done
  rw [traced.gain]
  obtain ⟨⟨place, caller, call⟩, step⟩ := task
  obtain rfl : step = _ := done
  cases call with
  | patch id name operations selector =>
    obtain ⟨base, looks, patches⟩ := ends
    have idle : ∀ stroke ∈ base, stroke.counted (.patchOperations a) = 0 := by
      rcases looks with rfl | ⟨-, tag, rfl⟩ <;> simp [Stroke.counted]
    rw [patches.counted, Stroke.sum_counted_eq_zero idle, Nat.zero_add]
    rfl
  | _ => simp [ServiceCall.isPatch] at patch

/-- No other request counts operations. -/
theorem gain_of_other (other : task.client.call.isPatch = false) :
    ((task.client.own past).map fun m => m.gain (.patchOperations a)).sum =
      task.listed.countP (·.action == a) := by
  obtain ⟨strokes, later, result, ends, traced⟩ := told.partway
  have idle := Stroke.sum_counted_eq_zero fun stroke hs =>
    (ends.by stroke (List.mem_append_right later hs)).counted other a
  rw [traced.gain, idle]
  obtain ⟨⟨place, caller, call⟩, step⟩ := task
  cases call with
  | patch => simp [ServiceCall.isPatch] at other
  | _ => rfl

/-- At any time a request has counted what it lists. -/
theorem le_gain : (task.listed.countP (·.action == a) : Int) ≤
    ((task.client.own past).map fun m => m.gain (.patchOperations a)).sum := by
  cases patch : task.client.call.isPatch with
  | false => exact Int.le_of_eq (told.gain_of_other a patch).symm
  | true =>
    by_cases done : ∃ r w, task.step = .done r w
    · obtain ⟨r, w, done⟩ := done
      exact Int.le_of_eq (told.gain_of_done a patch done).symm
    · have nothing : task.listed = [] := by
        obtain ⟨⟨place, caller, call⟩, step⟩ := task
        unfold Task.listed
        split
        next r w hcall hstep => exact absurd ⟨r, w, hstep⟩ done
        next => rfl
      obtain ⟨strokes, -, -, -, traced⟩ := told.partway
      rw [nothing, traced.gain]
      exact Int.natCast_nonneg _

end Task.Told

/-- Blueprints, outputs, messages and replies agree with what is counted. -/
structure Server.Accounted (s : Server) (past : List Moment) : Prop extends s.world.store.Keyed where
  created : s.world.counters.value .blueprintsCreated = s.world.store.blueprints.length
  submitted : SealsApart past → s.world.counters.value .blueprintsSubmitted =
    s.world.store.blueprints.countP Blueprint.isSubmitted
  dispatched : s.world.counters.value .blueprintsSubmitted =
    (past.flatMap Moment.sent).length + s.world.counters.value .dispatchFailures
  completed : s.world.counters.value .outputsCompleted =
    s.world.store.outputs.countP Output.isCompleted
  /-- Operations of a patch under way are counted before a reply lists them. -/
  listed : ∀ a, s.listed.countP (·.action == a) ≤ s.world.counters.value (.patchOperations a)
  patched : (∀ task ∈ s.tasks, task.client.call.isPatch = true → ∃ r w, task.step = .done r w) →
    ∀ a, s.world.counters.value (.patchOperations a) = s.listed.countP (·.action == a)

namespace Run

/-- What requests gain in a counter is in it at the end. -/
theorem sum_gain_counter (run : Run settings answers start past s)
    (zero : ∀ c, start.counters.value c = 0) (c : Counter) :
    (s.world.counters.value c : Int) =
      (s.tasks.map fun task => ((task.client.own past).map fun m => m.gain c).sum).sum := by
  have idle : ∀ m ∈ past, m.mover = none → m.gain c = 0 := by
    intro m hm mover
    rw [Moment.gain, (run.ofReceiver m hm mover).counters, sub_self]
  rw [← run.sum_eq _ idle]
  have gained := run.sum_gain fun w => (w.counters.value c : Int)
  rw [zero] at gained
  rw [← sub_zero (s.world.counters.value c : Int)]
  exact gained.symm

/-- From an empty store and with counters at zero: whenever all requests are done or ask, however they
came in between each other and whatever failed, the counters account for what is there. -/
theorem accounted (filters : start.store.backend.filters = [])
    (outputs : start.store.backend.outputs = []) (zero : ∀ c, start.counters.value c = 0)
    (run : Run settings answers start past s) (rest : ∀ task ∈ s.tasks, task.step.AtRest) :
    s.Accounted past := by
  have sound := Store.Sound.of_empty filters
  have told := run.told sound
  have agrees (l : Ledger) (hash : l = .submitted → SealsApart past) :
      s.world.balance l + l.messages past = 0 := by
    rw [← run.balanced filters rest hash, run.sum_shift l, start.balance_of_empty filters outputs zero,
      sub_zero]
  refine { toKeyed := ?_, created := ?_, submitted := ?_, dispatched := ?_, completed := ?_,
           listed := ?_, patched := ?_ }
  · exact (run.holds sound (.of_empty filters outputs) (fun _ _ hf ho h => h.of_backend_eq hf ho)
      fun _ _ _ _ _ does h => does.keyed h).1
  · have := agrees .created (by simp)
    simp only [World.balance, Ledger.messages] at this
    omega
  · intro hash
    have := agrees .submitted fun _ => hash
    simp only [World.balance, Ledger.messages] at this
    omega
  · have := agrees .dispatched (by simp)
    simp only [World.balance, Ledger.messages] at this
    omega
  · have := agrees .completed (by simp)
    simp only [World.balance, Ledger.messages] at this
    omega
  · intro a
    rw [← Int.ofNat_le, s.cast_countP_listed, run.sum_gain_counter zero]
    exact List.sum_le_sum fun task sent => (told task sent).le_gain a
  · intro done a
    rw [← Int.ofNat_inj, s.cast_countP_listed, run.sum_gain_counter zero]
    refine congrArg List.sum (List.map_congr_left fun task sent => ?_)
    cases patch : task.client.call.isPatch with
    | false => exact (told task sent).gain_of_other a patch
    | true =>
      obtain ⟨r, w, hstep⟩ := done task sent patch
      exact (told task sent).gain_of_done a patch hstep

end Run

end

namespace Small.Whole

def midnight : Instant := ⟨86400, 0, by decide, by decide⟩

def delivery : OutputUpdate :=
  { downloads := some { csv := some { size := some "1" }, xls := some { skipped := some true } } }

/-- A blueprint is created, patched and submitted, and its output delivered and reported. -/
def calls : List (Caller × ServiceCall) :=
  [(known, .addEvent "o" ⟨some "FilterOutputCompleted", some midnight⟩),
   (known, .updateOutput "o" delivery),
   (known, .update "f" {} true .any),
   (known, .patch "f" "age" [⟨.add, "options", ["27"]⟩] .any),
   (known, .create ⟨dataset, [⟨"age", []⟩], ""⟩ false)]

def moments : List Moment := course settings reply world calls

/-- The contents of the documents, and of the first one submitted as it is. -/
def contents : List Octets := [blank.content, chosen.content, submitted.content,
  ((BlueprintChange.submission "o" default).apply blank).content]

theorem computed :
    (∀ m ∈ moments, (∀ p ∈ m.after.store.backend.filters, p.1 = "f") ∧
      (∀ b ∈ m.after.store.filter? "f", b.content ∈ contents ∧ (b.isSubmitted = false →
        ((BlueprintChange.submission "o" default).apply b).content ∈ contents)) ∧
      (∀ p ∈ m.after.store.backend.outputs, p.1 = "o") ∧
      ∀ o ∈ m.after.store.output? "o", o.events.head? = some ⟨.created, default⟩) ∧
    (∀ c ∈ [Counter.blueprintsCreated, .blueprintsSubmitted, .outputsCompleted,
      .patchOperations .add], (lastWorld world moments).counters.value c = 1) ∧
    ((lastWorld world moments).store.output? "o").any
      (fun o => o.isCompleted && o.completions == 2) = true ∧
    ∀ m ∈ contents, m.length < 1000 ∧ ∀ m' ∈ contents, Sha256.hash m = Sha256.hash m' → m = m' := by
  decide +kernel

theorem kept {b : Blueprint} (h : Kept moments b) : b.id = "f" ∧ b.content ∈ contents ∧
    (b.isSubmitted = false →
      ((BlueprintChange.submission "o" default).apply b).content ∈ contents) := by
  obtain ⟨m, hm, hb⟩ := h
  obtain ⟨text, hmem⟩ := Store.mem_of_filter? hb
  obtain ⟨keys, filters, -⟩ := computed.1 m hm
  have hid : b.id = "f" := keys _ hmem
  rw [World.Stores, hid] at hb
  exact ⟨hid, filters b hb⟩

theorem rendered {id outputId : String} {time : Instant} (h : Rendered moments id outputId time) :
    outputId = "o" ∧ time = default := by
  obtain ⟨m, hm, o, ho, -, events⟩ := h
  obtain ⟨-, -, keys, outputs⟩ := computed.1 m hm
  have hid : outputId = "o" := by
    rw [Store.output?, Option.bind_eq_some_iff] at ho
    obtain ⟨text, hfind, -⟩ := ho
    exact keys _ (Table.mem_of_lookup_eq_some hfind)
  subst hid
  have head := outputs o ho
  rw [events, List.head?_cons, Option.some.injEq] at head
  exact ⟨rfl, congrArg Event.time head⟩

theorem sealsApart : SealsApart moments := by
  obtain ⟨-, -, -, distinct⟩ := computed
  refine .of_contents (fun b sealed => ?_) distinct
  cases sealed with
  | kept h => exact (kept h).2.1
  | submission h editable made =>
    obtain ⟨rfl, rfl⟩ := rendered made
    exact (kept h).2.2 editable

theorem run : ∃ s, Run settings answers world moments s ∧ s.world = lastWorld world moments ∧
    ∀ task ∈ s.tasks, ∃ r w, task.step = .done r w := by
  obtain ⟨s, (run : Run settings answers world moments s), -, done, -⟩ :=
    Run.of_course answers_reply calls
  exact ⟨s, run, run.world_eq, done⟩

/-- One blueprint was created and submitted, its output completed, and one operation carried out. -/
theorem counters_agree : ∃ s, Run settings answers world moments s ∧
    s.world.store.blueprints.length = 1 ∧
    s.world.store.blueprints.countP Blueprint.isSubmitted = 1 ∧
    (moments.flatMap Moment.sent).length + s.world.counters.value .dispatchFailures = 1 ∧
    s.world.store.outputs.countP Output.isCompleted = 1 ∧
    s.listed.countP (·.action == .add) = 1 := by
  obtain ⟨s, run, left, done⟩ := run
  have rest : ∀ task ∈ s.tasks, task.step.AtRest := by
    intro task sent
    obtain ⟨r, w, hstep⟩ := done task sent
    rw [hstep]
    trivial
  have accounted := Run.accounted rfl rfl (fun _ => rfl) run rest
  have one := computed.2.1
  rw [← left] at one
  refine ⟨s, run, ?_, ?_, ?_, ?_, ?_⟩
  · rw [← accounted.created, one _ (by simp)]
  · rw [← accounted.submitted sealsApart, one _ (by simp)]
  · rw [← accounted.dispatched, one _ (by simp)]
  · rw [← accounted.completed, one _ (by simp)]
  · rw [← accounted.patched fun task sent _ => done task sent, one _ (by simp)]

end Small.Whole

end DatasetFilters
