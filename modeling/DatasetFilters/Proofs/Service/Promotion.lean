import DatasetFilters.Proofs.Service.Alone
import DatasetFilters.Proofs.Service.Course
import DatasetFilters.Proofs.Service.Reliance

namespace DatasetFilters

/-- A published form of a blueprint, under its own tag: but for the flag and the marks of a write it is
the same. -/
structure Blueprint.PublishedAs (b p : Blueprint) : Prop where
  rest : p = b.promoted.marked p.etag p.stamp p.lastUpdated
  etag : p.etag = p.tag

namespace Blueprint.PublishedAs

variable {b p : Blueprint} (h : b.PublishedAs p)
include h

theorem isPublished : p.isPublished = true := by
  rw [h.rest]
  rfl

theorem id_eq : p.id = b.id := by
  rw [h.rest]
  rfl

end Blueprint.PublishedAs

theorem Blueprint.publishedAs_restamped (b : Blueprint) (s : Store) (t : Instant) :
    b.PublishedAs (s.restamped t b.promoted) := ⟨rfl, rfl⟩

/-- What the move of a reader makes of the world: it leaves the documents, or publishes the blueprint. -/
inductive World.Advances (b : Blueprint) (w w' : World) : Prop
  | rests (filters : w'.store.backend.filters = w.store.backend.filters)
      (outputs : w'.store.backend.outputs = w.store.backend.outputs)
      (outage : w'.store.backend.outage = w.store.backend.outage)
  | publishes (t : Instant) (stored : w.Stores b) (new : b.promoted.tag ≠ b.tag)
      (store : w'.store = w.store.keeping t (w.store.restamped t b.promoted))

/-- A store that works and has the blueprint as it was, or a published form of it under another tag. -/
structure World.Offers (b : Blueprint) (w : World) : Prop where
  sound : w.store.Sound
  works : w.store.Works
  stands : w.Stores b ∨ b.promoted.tag ≠ b.tag ∧ ∃ p, b.PublishedAs p ∧ w.Stores p

/-- A published form that stays: it is the stored one, or could not be stored because the tag that the
promotion would give the blueprint is the one that it has. -/
def World.Settles (b c : Blueprint) (w : World) : Prop :=
  b.PublishedAs c ∧ (w.Stores c ∨ b.promoted.tag = b.tag ∧ c = b.promoted ∧ w.Stores b)

section

variable {b : Blueprint} {allowed : (q : Query) → q.Reply → Prop}

namespace World

theorem Advances.idle (b : Blueprint) {w w' : World} (h : w'.store = w.store) : w.Advances b w' :=
  .rests (by rw [h]) (by rw [h]) (by rw [h])

/-- Whatever readers do, the blueprint stays there, as it was or published. -/
theorem lasting_offers : Lasting (Advances b) (Offers b) := by
  intro w w' move h
  cases move with
  | rests filters _ outage =>
    refine ⟨h.sound.of_filters_eq filters, fun n a c => ?_, ?_⟩
    · rw [outage]
      exact h.works n a c
    · refine h.stands.imp (stores_of_filters_eq filters).mpr ?_
      rintro ⟨new, p, published, stored⟩
      exact ⟨new, p, published, (stores_of_filters_eq filters).mpr stored⟩
  | publishes t _ new store =>
    refine ⟨?_, ?_, Or.inr ⟨new, _, b.publishedAs_restamped w.store t, ?_⟩⟩
    · rw [store]
      exact h.sound.keeping t rfl
    · rw [store]
      exact h.works.keeping t _
    · rw [Stores, store]
      exact Store.filter?_keeping_self w.store t _

variable (unpublished : b.isPublished = false)
include unpublished

theorem Stores.not_published {w : World} (stored : w.Stores b) {p : Blueprint}
    (published : b.PublishedAs p) : ¬w.Stores p := by
  intro h
  have same := stored.unique h published.id_eq.symm
  simp [same, published.isPublished] at unpublished

theorem lasting_published (p : Blueprint) :
    Lasting (Advances b) fun w => b.PublishedAs p ∧ w.Stores p := by
  rintro w w' move ⟨published, stored⟩
  cases move with
  | rests filters _ _ => exact ⟨published, (stores_of_filters_eq filters).mpr stored⟩
  | publishes t before => exact absurd stored (before.not_published unpublished published)

theorem lasting_settles (c : Blueprint) : Lasting (Advances b) (Settles b c) := by
  rintro w w' move ⟨published, stored | ⟨same, rfl, before⟩⟩
  · exact ⟨published, Or.inl (lasting_published unpublished c w w' move ⟨published, stored⟩).2⟩
  · cases move with
    | rests filters _ _ =>
      exact ⟨published, Or.inr ⟨same, rfl, (stores_of_filters_eq filters).mpr before⟩⟩
    | publishes _ _ new => exact absurd same new

end World

/-- How a reader finds the blueprint: as it was, or in the published form that is stored. -/
def World.Presents (b c : Blueprint) (w : World) : Prop :=
  w.Offers b ∧ (c = b ∨ b.PublishedAs c ∧ w.Stores c)

/-- How the attempt to publish the blueprint ends: what it is then is settled, or another reader has
come first. -/
def World.Promoted (b : Blueprint) : Except StoreError Blueprint → World → Prop
  | .ok c, w => w.Settles b c
  | .error (.conflict _), w => w.Offers b ∧ ∃ p, b.PublishedAs p ∧ w.Stores p
  | .error _, _ => False

namespace World

variable {w : World}

theorem Offers.touched (h : w.Offers b) : Offers b { w with store := w.store.touched } :=
  lasting_offers w _ (.rests rfl rfl rfl) h

theorem Offers.getFilter (h : w.Offers b) {p : Blueprint} (published : b.PublishedAs p)
    (stored : w.Stores p) : w.store.getFilter b.id .any = (.ok p, w.store.touched) := by
  rw [← published.id_eq]
  exact h.works.getFilter h.sound stored rfl

theorem Offers.presents (h : w.Offers b) : ∃ c,
    w.store.getFilter b.id .any = (.ok c, w.store.touched) ∧
      Presents b c { w with store := w.store.touched } := by
  rcases h.stands with stored | ⟨-, p, published, stored⟩
  · exact ⟨b, h.works.getFilter h.sound stored rfl, h.touched, Or.inl rfl⟩
  · exact ⟨p, h.getFilter published stored, h.touched,
      Or.inr ⟨published, (stores_of_filters_eq rfl).mpr stored⟩⟩

/-- An attempt to publish succeeds and settles what the blueprint is, or another reader has come
first. -/
theorem Offers.promoted (h : w.Offers b) (tagged : b.etag = b.tag) (t : Instant) : ∃ r s,
    w.store.updateFilter t b.id { published := some true } (.exact b.etag) = (r, s) ∧
      w.Advances b { w with store := s } ∧ Promoted b r { w with store := s } := by
  rcases h.stands with stored | ⟨new, p, published, stored⟩
  · have written := h.works.modifyFilter h.sound stored (e := .change .promotion) rfl t
    rw [BlueprintChange.apply_promotion] at written
    by_cases same : b.promoted.tag = b.etag
    · rw [if_pos same] at written
      have published : b.PublishedAs b.promoted := ⟨rfl, same.symm⟩
      have kept : Stores { w with store := w.store.touched } b := (stores_of_filters_eq rfl).mpr stored
      exact ⟨_, _, written, .rests rfl rfl rfl, published, Or.inr ⟨same.trans tagged, rfl, kept⟩⟩
    · rw [if_neg same] at written
      let p := w.store.restamped t b.promoted
      have new : b.promoted.tag ≠ b.tag := fun h => same (h.trans tagged.symm)
      have kept : Stores { w with store := w.store.keeping t p } p :=
        Store.filter?_keeping_self w.store t p
      exact ⟨_, _, written, .publishes t stored new rfl, b.publishedAs_restamped w.store t, Or.inl kept⟩
  · have other : p.etag ≠ b.etag := by
      rw [published.etag, published.rest, Blueprint.tag_marked, tagged]
      exact new
    have refused := h.works.modifyFilter_of_ne h.sound stored other (.change .promotion) t
    rw [published.id_eq] at refused
    have kept : Stores { w with store := w.store.touched } p := (stores_of_filters_eq rfl).mpr stored
    exact ⟨_, _, refused, .rests rfl rfl rfl, h.touched, p, published, kept⟩

theorem lasting_presents (unpublished : b.isPublished = false) (c : Blueprint) :
    Lasting (Advances b) (Presents b c) := by
  rintro w w' move ⟨offers, rfl | shown⟩
  · exact ⟨lasting_offers w w' move offers, Or.inl rfl⟩
  · exact ⟨lasting_offers w w' move offers, Or.inr (lasting_published unpublished c w w' move shown)⟩

theorem lasting_promoted (unpublished : b.isPublished = false) (r : Except StoreError Blueprint) :
    Lasting (Advances b) (Promoted b r) := by
  intro w w' move h
  cases r with
  | ok c => exact lasting_settles unpublished c w w' move h
  | error error =>
    cases error with
    | conflict key =>
      obtain ⟨offers, p, hp⟩ := h
      exact ⟨lasting_offers w w' move offers, p, lasting_published unpublished p w w' move hp⟩
    | _ => exact h.elim

end World

namespace Blueprints

variable (unpublished : b.isPublished = false) (tagged : b.etag = b.tag)
  (reported : ∀ reply : CatalogReply Version, allowed (.version b.dataset false) reply →
    ∃ v, reply = .ok v)
include unpublished tagged reported

/-- Whether or not another reader comes first, the promotion ends with what is settled. -/
theorem relies_promote :
    (promote b).Relies (World.Advances b) allowed (World.Offers b) 4 (World.Settles b) := by
  refine Request.relies_ask World.lasting_offers fun reply known => ?_
  obtain ⟨v, rfl⟩ := reported reply known
  refine Request.relies_act (M := fun _ => World.Offers b) (fun w h => ?_)
    (fun _ => World.lasting_offers) fun t => ?_
  · exact ⟨.idle b rfl, World.lasting_offers w _ (.idle b rfl) h⟩
  refine Request.relies_act (M := World.Promoted b) (fun w h => ?_)
    (World.lasting_promoted unpublished) fun r => ?_
  · obtain ⟨r, s, wrote, move, promoted⟩ := h.promoted tagged t
    simp only [wrote]
    exact ⟨move, promoted⟩
  cases r with
  | ok c => exact Request.relies_pure fun _ h => h
  | error error =>
    cases error with
    | conflict key =>
      -- another reader came first, and what it left stays
      refine Request.relies_access (M := fun c w => b.PublishedAs c ∧ w.Stores c) ?_
        (World.lasting_published unpublished) fun c => ?_
      · rintro w ⟨offers, p, published, stored⟩
        exact ⟨p, _, offers.getFilter published stored, .rests rfl rfl rfl, published,
          (World.stores_of_filters_eq rfl).mpr stored⟩
      · rintro w ⟨published, stored⟩
        simp only [published.isPublished, if_true]
        exact ⟨rfl, c, rfl, published, Or.inl stored⟩
    | _ => exact fun _ h => h.elim

/-- A reader gets what is settled, after five suspensions at most, and does no more to the world
than publish. -/
theorem relies_get {caller : Caller} (anonymous : caller.authenticated = false) :
    (get b.id .any caller).Relies (World.Advances b) allowed (World.Offers b) 5 (World.Settles b) := by
  unfold get Request.read
  rw [bind_assoc]
  refine Request.relies_access (M := World.Presents b) ?_ (World.lasting_presents unpublished) fun c => ?_
  · intro w offers
    obtain ⟨c, got, presents⟩ := offers.presents
    exact ⟨c, _, got, .rests rfl rfl rfl, presents⟩
  change (if (c.isPublished || caller.authenticated) = true then (pure c : Request ServiceError _)
    else promote c).Relies _ _ _ _ _
  rintro w ⟨offers, rfl | ⟨published, stored⟩⟩
  · simp only [unpublished, anonymous, Bool.or_self, Bool.false_eq_true, if_false]
    exact relies_promote unpublished tagged reported w offers
  · simp only [published.isPublished, Bool.true_or, if_true]
    exact ⟨rfl, c, rfl, published, Or.inl stored⟩

end Blueprints

end

/-- An anonymous reader of a blueprint who names no tag. -/
def Client.Reads (b : Blueprint) (me : Client) : Prop :=
  me.call = .get b.id .any ∧ me.caller.authenticated = false

def Answer.Settles (b : Blueprint) (a : Answer) (w : World) : Prop :=
  ∃ c, a = .blueprint c ∧ w.Settles b c

/-- Whether a moment changed a document. -/
def Moment.writes (m : Moment) : Bool :=
  m.after.store.backend.filters ≠ m.before.store.backend.filters ∨
    m.after.store.backend.outputs ≠ m.before.store.backend.outputs

section

variable {b : Blueprint} {settings : Settings} {answers : Nat → (q : Query) → q.Reply → Prop}
  {start : World} {past : List Moment} {s : Server}

namespace World.Advances

variable {mover : Option Client} {w w' : World}

theorem writes_eq_false (filters : w'.store.backend.filters = w.store.backend.filters)
    (outputs : w'.store.backend.outputs = w.store.backend.outputs) :
    (⟨mover, w, w'⟩ : Moment).writes = false := by
  simp [Moment.writes, filters, outputs]

theorem writes_eq_true (unpublished : b.isPublished = false) (stored : w.Stores b) {p : Blueprint}
    (published : b.PublishedAs p) (stored' : w'.Stores p) : (⟨mover, w, w'⟩ : Moment).writes = true := by
  refine decide_eq_true (Or.inl fun same => ?_)
  exact stored.not_published unpublished published ((stores_of_filters_eq same).mp stored')

end World.Advances

/-- The blueprint is published by one write, and nothing else is written. -/
theorem Run.written_once (unpublished : b.isPublished = false) (stored : start.Stores b)
    (run : Run settings answers start past s) (readers : ∀ m ∈ past, m.before.Advances b m.after) :
    (s.world.Stores b ∧ past.countP Moment.writes = 0) ∨
      ∃ p, b.PublishedAs p ∧ s.world.Stores p ∧ past.countP Moment.writes = 1 := by
  induction run with
  | start => exact Or.inl ⟨stored, rfl⟩
  | @next past s s' mover run move ih =>
    obtain ⟨latest, earlier⟩ := List.forall_mem_cons.mp readers
    have before := ih earlier
    cases latest with
    | rests filters outputs _ =>
      have idle : ¬(⟨mover, s.world, s'.world⟩ : Moment).writes = true := by
        simp [World.Advances.writes_eq_false filters outputs]
      rw [List.countP_cons_of_neg idle]
      refine before.imp (fun h => ⟨(World.stores_of_filters_eq filters).mpr h.1, h.2⟩) ?_
      rintro ⟨p, published, h, count⟩
      exact ⟨p, published, (World.stores_of_filters_eq filters).mpr h, count⟩
    | publishes t here _ store =>
      rcases before with ⟨-, count⟩ | ⟨p, published, h, -⟩
      · have published := b.publishedAs_restamped s.world.store t
        have kept : s'.world.Stores (s.world.store.restamped t b.promoted) := by
          rw [World.Stores, store]
          exact Store.filter?_keeping_self s.world.store t _
        rw [List.countP_cons_of_pos (World.Advances.writes_eq_true unpublished here published kept),
          count]
        exact Or.inr ⟨_, published, kept, rfl⟩
      · exact absurd h (here.not_published unpublished published)

section

variable (sound : start.store.Sound) (works : start.store.Works) (stored : start.Stores b)
  (unpublished : b.isPublished = false)
  (reported : ∀ n (reply : CatalogReply Version), answers n (.version b.dataset false) reply →
    ∃ v, reply = .ok v)
  (run : Run settings answers start past s) (readers : ∀ task ∈ s.tasks, task.client.Reads b)
include sound works stored unpublished reported run readers

/-- In a run of readers each does no more than publish, and each ends as it should in six
moments. -/
theorem Run.readers_advance : (∀ m ∈ past, m.before.Advances b m.after) ∧
    ∀ task ∈ s.tasks, ∃ k, task.step.Awaits (World.Advances b) (fun q r => ∃ n, answers n q r)
      (Answer.Settles b) k s.world ∧ k + (task.client.own past).length ≤ 6 := by
  have offers : start.Offers b := ⟨sound, works, Or.inl stored⟩
  have kinds (me : Client) (step : Step ServiceError Answer)
      (sent : s.tasks[me.place]? = some ⟨me, step⟩) : me.Reads b :=
    readers _ (List.mem_of_getElem? sent)
  have lasting (a : Answer) : Lasting (World.Advances b) (a.Settles b) := by
    rintro w w' move ⟨c, rfl, settles⟩
    exact ⟨c, rfl, World.lasting_settles unpublished c w w' move settles⟩
  let allowed (q : Query) (r : q.Reply) : Prop := ∃ n, answers n q r
  have reported' (reply : CatalogReply Version) (h : allowed (.version b.dataset false) reply) :
      ∃ v, reply = .ok v := by
    obtain ⟨n, h⟩ := h
    exact reported n reply h
  have serves (me : Client) (reads : me.Reads b) : (me.call.request settings me.caller).Relies
      (World.Advances b) allowed (Relation.ReflTransGen (World.Advances b) start) 5
      (Answer.Settles b) := by
    intro w reach
    obtain ⟨call, anonymous⟩ := reads
    rw [call]
    have gets : (Blueprints.get b.id .any me.caller).Relies _ allowed _ _ _ :=
      Blueprints.relies_get unpublished (sound.etag_eq stored) reported' anonymous
    exact (gets.reply fun c w settles => ⟨c, rfl, settles⟩) w
      (World.lasting_offers.of_reach reach offers)
  have honest (n : Nat) (q : Query) (r : q.Reply) (h : answers n q r) : allowed q r := ⟨n, h⟩
  obtain ⟨⟨-, each⟩, awaits⟩ :=
    run.relies (fun _ _ => World.Advances.idle b) honest lasting serves kinds
  refine ⟨each, fun task sent => ?_⟩
  obtain ⟨i, hi⟩ := List.getElem?_of_mem sent
  obtain rfl := run.placed.1 i task hi
  exact awaits task.client task.step hi

/-- Anonymous readers of a blueprint whose version is published, as many as come and however their
requests get in between each other. There is one form of the blueprint, published and the same but for
the marks of a write, that all who have been served were given; the others are under way and have moved
less than six times, and nobody fails. The blueprint is written once at most, and just once when somebody
has been served, if its promotion makes a difference to the tag. -/
theorem Run.readers_share_one_promotion : ∃ p : Blueprint,
    (p.isPublished = true ∧ p.etag = p.tag ∧
      p = b.promoted.marked p.etag p.stamp p.lastUpdated) ∧
    (∀ task ∈ s.tasks, (∃ w, task.step = .done (.ok (.blueprint p)) w) ∨
      (∀ r w, task.step ≠ .done r w) ∧ (task.client.own past).length < 6) ∧
    past.countP Moment.writes ≤ 1 ∧
    (b.promoted.tag ≠ b.tag → (∃ task ∈ s.tasks, ∃ r w, task.step = .done r w) →
      past.countP Moment.writes = 1 ∧ s.world.Stores p) := by
  obtain ⟨each, awaits⟩ := run.readers_advance sound works stored unpublished reported readers
  have served {p : Blueprint} (same : ∀ c, s.world.Settles b c → c = p) (task : Task)
      (sent : task ∈ s.tasks) : (∃ w, task.step = .done (.ok (.blueprint p)) w) ∨
        (∀ r w, task.step ≠ .done r w) ∧ (task.client.own past).length < 6 := by
    obtain ⟨k, hk, bound⟩ := awaits task sent
    cases step : task.step with
    | done r w =>
      rw [step] at hk
      obtain ⟨a, rfl, c, rfl, settles⟩ := hk
      exact Or.inl ⟨w, by rw [same c settles]⟩
    | acted w resume =>
      rw [step] at hk
      obtain ⟨j, rfl, -⟩ := hk
      exact Or.inr ⟨by simp, by omega⟩
    | ask w q resume =>
      rw [step] at hk
      obtain ⟨j, rfl, -⟩ := hk
      exact Or.inr ⟨by simp, by omega⟩
  rcases run.written_once unpublished stored each with ⟨here, count⟩ | ⟨p, published, kept, count⟩
  · -- nothing is written, so whoever has been served could not write
    have same (c : Blueprint) (settles : s.world.Settles b c) : b.promoted.tag = b.tag ∧
        c = b.promoted.marked b.promoted.tag b.stamp b.lastUpdated := by
      obtain ⟨published, kept | ⟨same, rfl, -⟩⟩ := settles
      · exact absurd kept (here.not_published unpublished published)
      · exact ⟨same, congrArg (b.promoted.marked · b.stamp b.lastUpdated) published.etag⟩
    refine ⟨_, ⟨rfl, rfl, rfl⟩, served fun c settles => (same c settles).2, by omega, ?_⟩
    rintro new ⟨task, sent, r, w, done⟩
    obtain ⟨k, hk, -⟩ := awaits task sent
    rw [done] at hk
    obtain ⟨a, -, c, -, settles⟩ := hk
    exact absurd (same c settles).1 new
  · have same (c : Blueprint) (settles : s.world.Settles b c) : c = p := by
      obtain ⟨published', kept' | ⟨-, -, here⟩⟩ := settles
      · exact kept'.unique kept (published'.id_eq.trans published.id_eq.symm)
      · exact absurd kept (here.not_published unpublished published)
    exact ⟨p, ⟨published.isPublished, published.etag, published.rest⟩, served same,
      Nat.le_of_eq count, fun _ _ => ⟨count, kept⟩⟩

end

end

namespace Small

/-- The catalog reports the version as published, to everybody. -/
def unveiled : (q : Query) → q.Reply
  | .version .. => .ok ⟨"i", "published"⟩
  | q => reply q

def unveils (_ : Nat) (q : Query) (r : q.Reply) : Prop := r = unveiled q

/-- Two readers ask the catalog before either of them has its answer. -/
def crossing : List Server.Turn :=
  [.enter .anonymous (.get "f" .any), .enter .anonymous (.get "f" .any), .goOn 0, .goOn 1, .goOn 0,
    .goOn 1, .goOn 0, .goOn 1, .goOn 0, .goOn 1, .goOn 1].reverse

theorem crossing_computed : (interleaved settings unveiled (storing blank) crossing).map (fun r =>
    r.2.tasks.map fun task => (task.client.caller, task.client.call, task.step.isDone)) =
      some (List.replicate 2 (.anonymous, .get "f" .any, true)) := by decide +kernel

/-- The reader that comes second meets a conflict, and gets what the first one has left. -/
theorem crossing_readers_share : ∃ past s p, Run settings unveils (storing blank) past s ∧
    s.tasks.length = 2 ∧ (∀ task ∈ s.tasks, ∃ w, task.step = .done (.ok (.blueprint p)) w) ∧
    p.isPublished = true ∧ past.countP Moment.writes = 1 ∧ s.world.Stores p := by
  obtain ⟨⟨past, s⟩, played, tasks⟩ := Option.map_eq_some_iff.mp crossing_computed
  simp only at tasks
  have run : Run settings unveils (storing blank) past s := Run.of_interleaved (fun _ _ => rfl) played
  have tag : blank.etag = blank.tag := by decide +kernel
  have new : blank.promoted.tag ≠ blank.tag := by decide +kernel
  have two : s.tasks.length = 2 := by simpa using congrArg List.length tasks
  have ended (task : Task) (sent : task ∈ s.tasks) :
      task.client.Reads blank ∧ task.step.isDone = true := by
    have listed := List.eq_of_mem_replicate (tasks ▸ List.mem_map_of_mem sent)
    simp only [Prod.mk.injEq] at listed
    obtain ⟨caller, call, done⟩ := listed
    exact ⟨⟨call, by rw [caller]; rfl⟩, done⟩
  obtain ⟨p, ⟨published, -, -⟩, served, -, once⟩ := run.readers_share_one_promotion
    (storing_sound tag) (fun _ _ _ => rfl) (storing_stores blank) rfl
    (fun _ reply known => ⟨_, known⟩) fun task sent => (ended task sent).1
  have done (task : Task) (sent : task ∈ s.tasks) :
      ∃ w, task.step = .done (.ok (.blueprint p)) w := by
    rcases served task sent with done | ⟨suspended, -⟩
    · exact done
    · have done := (ended task sent).2
      cases step : task.step with
      | done r w => exact absurd step (suspended r w)
      | _ => simp [step, Step.isDone] at done
  obtain ⟨task, sent⟩ := List.exists_mem_of_length_pos (by omega : 0 < s.tasks.length)
  obtain ⟨w, step⟩ := done task sent
  obtain ⟨count, kept⟩ := once new ⟨task, sent, _, w, step⟩
  exact ⟨past, s, p, run, two, done, published, count, kept⟩

end Small

end DatasetFilters
