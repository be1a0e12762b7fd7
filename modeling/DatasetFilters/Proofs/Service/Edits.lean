import DatasetFilters.Proofs.Service.Editing

namespace DatasetFilters

/-- A record of a run: its moments, the last one first, each with the edits that land there. -/
abbrev Log := List (Moment × List Landing)

namespace Log

/-- The edits that land at the moments of a client, in order. -/
def of (me : Client) : Log → List Landing
  | [] => []
  | (m, es) :: log => if m.mover = some me then of me log ++ es else of me log

/-- The edits of one of the blueprints, in order. -/
def about (id : String) : Log → List DimensionEdit
  | [] => []
  | (_, es) :: log => about id log ++ Landing.on id es

end Log

/-- What each client landed at its own moments makes up a log of all moments. -/
theorem exists_log (past : List Moment) (landings : Client → List Landing)
    (landed : ∀ me : Client, Landed (landings me) (me.own past))
    (quiet : ∀ m ∈ past, m.mover = none → m.Still) :
    ∃ log : Log, log.map Prod.fst = past ∧ (∀ me, log.of me = landings me) ∧
      ∀ e ∈ log, e.1.Lands e.2 ∧ (e.1.mover = none → e.2 = []) := by
  induction past generalizing landings with
  | nil =>
    refine ⟨[], rfl, fun me => ?_, by simp⟩
    have nothing : Landed (landings me) [] := landed me
    generalize landings me = es at nothing ⊢
    cases nothing
    rfl
  | cons m past ih =>
    have quiet' : ∀ m ∈ past, m.mover = none → m.Still :=
      fun m hm => quiet m (List.mem_cons_of_mem _ hm)
    -- what others had landed they had landed before
    have earlier {me : Client} (h : m.mover ≠ some me) : Landed (landings me) (me.own past) :=
      Client.own_cons_of_ne h past ▸ landed me
    obtain ⟨mover, before, after⟩ := m
    cases mover with
    | none =>
      obtain ⟨log, rfl, hof, lands⟩ := ih landings (fun me => earlier (by simp)) quiet'
      refine ⟨(⟨none, before, after⟩, []) :: log, rfl, fun me => ?_, ?_⟩
      · rw [Log.of, if_neg (by simp), hof]
      · refine List.forall_mem_cons.mpr ⟨⟨.of_still ?_, fun _ => rfl⟩, lands⟩
        exact quiet _ List.mem_cons_self rfl
    | some you =>
      -- the last of the client's edits land at this moment
      obtain ⟨es, es', both, yours, here⟩ : ∃ es es', landings you = es ++ es' ∧
          Landed es (you.own past) ∧ (⟨some you, before, after⟩ : Moment).Lands es' := by
        have all := landed you
        rw [Client.own_cons_self] at all
        generalize landings you = total at all ⊢
        cases all with
        | next h lands => exact ⟨_, _, rfl, h, lands⟩
      have before' (me : Client) : Landed (Function.update landings you es me) (me.own past) := by
        by_cases hme : me = you
        · rw [hme, Function.update_self]
          exact yours
        · rw [Function.update_of_ne hme]
          exact earlier fun same => hme (Option.some.inj same).symm
      obtain ⟨log, rfl, hof, lands⟩ := ih _ before' quiet'
      refine ⟨(⟨some you, before, after⟩, es') :: log, rfl, fun me => ?_, ?_⟩
      · rw [Log.of, hof]
        by_cases hme : me = you
        · subst hme
          rw [if_pos rfl, Function.update_self, both]
        · rw [if_neg fun same => hme (Option.some.inj same).symm, Function.update_of_ne hme]
      · exact List.forall_mem_cons.mpr ⟨⟨here, by simp⟩, lands⟩

/-- A blueprint that is stored at some time of a run, or that an edit which a client asks for makes of
a stored one under the same tag. -/
inductive Tagged (start : World) (past : List Moment) (b : Blueprint) : Prop
  | started (stored : start.Stores b)
  | kept (kept : Kept past b)
  | unmoved (m : Moment) (me : Client) (e : FilterEdit) (x : Blueprint) (hm : m ∈ past)
      (mover : m.mover = some me) (asks : me.call.Asks x.id e) (stored : m.before.Stores x)
      (applied : e.apply x = .ok b) (same : b.tag = x.etag)

variable {settings : Settings} {answers : Nat → (q : Query) → q.Reply → Prop} {me : Client}
  {past : List Moment} {start : World} {s : Server}

/-- What a client has landed at some time of its request. -/
theorem Step.Reports.landed {step : Step ServiceError Answer} {own : List Moment}
    (h : step.Reports (.landing me fun e => me.Ended (.error e)) me (fun a => me.Ended (.ok a)) own) :
    ∃ es, Landed es own ∧ es <+: me.call.edits ∧
      ∀ result w, step = .done result w → es = me.call.reported result := by
  have done {result : Except ServiceError Answer} {w : World} {own' : List Moment} {now : World}
      (ended : me.Ended result own') :
      ∃ es, Landed es (⟨some me, now, now⟩ :: own') ∧ es <+: me.call.edits ∧
        ∀ result' w', Step.done result w = .done result' w' → es = me.call.reported result' := by
    refine ⟨_, ended.landed.still rfl, ended.within, ?_⟩
    intro result' w' same
    rw [(Step.done.inj same).1]
  cases step with
  | done result w =>
    cases result with
    | ok a =>
      obtain ⟨now, own', rfl, ended⟩ := h
      exact done ended
    | error e =>
      obtain ⟨now, own', rfl, ended⟩ := h
      exact done ended
  | acted w resume =>
    obtain ⟨⟨es, within, landed⟩, -⟩ := h
    exact ⟨es, landed, within, by simp⟩
  | ask w q resume =>
    obtain ⟨⟨⟨es, within, landed⟩, -⟩, -⟩ := h
    exact ⟨es, landed, within, by simp⟩

section

variable (hash : Sha256.Separates fun m => ∃ b, Tagged start past b ∧ m = b.content)
  (covered : ∀ m ∈ past, m.before.Covered (Tagged start past) ∧ m.after.Covered (Tagged start past))
include hash covered

theorem Client.legible {own : List Moment} (hs : own <:+ me.own past) : me.Legible own where
  alike := by
    intro m hm n hn x y hx hy tags
    have among {m : Moment} (hm : m ∈ own) := covered m (List.mem_of_mem_filter (hs.mem hm))
    exact (among hm).2.observed_eq hash (among hn).1 hx hy tags
  unmoved := by
    intro n hn e y c hy asks applied same
    obtain ⟨hn, mover⟩ := List.mem_filter.mp (hs.mem hn)
    obtain ⟨before, -⟩ := covered n hn
    refine hash.observed_eq ?_ (before.known y hy) (same.trans (before.sound.etag_eq hy))
    exact .unmoved n me e y hn (of_decide_eq_true mover) asks hy applied same

/-- What a client of a run has landed. -/
theorem Run.landed (run : Run settings answers start past s) (me : Client) :
    ∃ es, Landed es (me.own past) ∧ es <+: me.call.edits ∧
      ∀ result w, ⟨me, .done result w⟩ ∈ s.tasks → es = me.call.reported result := by
  obtain ⟨placed, movers⟩ := run.placed
  have at_place {task : Task} (h : task ∈ s.tasks) : s.tasks[task.client.place]? = some task := by
    obtain ⟨i, hi⟩ := List.mem_iff_getElem?.mp h
    rwa [placed i task hi]
  by_cases hsent : ∃ step, s.tasks[me.place]? = some ⟨me, step⟩
  · obtain ⟨step, sent⟩ := hsent
    obtain ⟨es, landed, within, reported⟩ := (run.accounts_on (fun m hm => (covered m hm).1.sound)
      (fun own hs => Client.legible hash covered hs) sent (ServiceCall.lands_request me)).landed
    refine ⟨es, landed, within, ?_⟩
    intro result w h
    have same := (at_place h).symm.trans sent
    exact reported result w (Task.mk.inj (Option.some.inj same)).2.symm
  · -- who has not been sent has no moments
    have nothing : me.own past = [] := by
      refine List.filter_eq_nil_iff.mpr fun m hm mover => hsent ?_
      exact movers m hm me (of_decide_eq_true mover)
    refine ⟨[], nothing ▸ .start, List.nil_prefix, ?_⟩
    intro result w h
    exact absurd ⟨_, at_place h⟩ hsent

end

namespace Run

/-- A log of edits that land, replayed on a selection that was stored. -/
theorem replayed {later earlier : Log} (lands : ∀ e ∈ later, e.1.Lands e.2)
    (run : Run settings answers start ((later ++ earlier).map Prod.fst) s) {id : String}
    {before : Selection} (shown : (lastWorld start (earlier.map Prod.fst)).Shows id before) :
    ∃ after, before.editAll? (Log.about id later) = some after ∧ s.world.Shows id after := by
  induction later generalizing s with
  | nil => exact ⟨before, rfl, run.world_eq ▸ shown⟩
  | cons entry later ih =>
    obtain ⟨m, es⟩ := entry
    obtain ⟨here, rest⟩ := List.forall_mem_cons.mp lands
    rw [List.cons_append, List.map_cons] at run
    cases run with
    | next run move =>
      obtain ⟨between, replayed, shown⟩ := ih rest run
      obtain ⟨after, edited, shown⟩ := here.edited id between shown
      refine ⟨after, ?_, shown⟩
      rw [Log.about, Selection.editAll?_append, replayed, Option.bind_some, edited]

/-- Where all that happens are edits, stored blueprints show selections. -/
theorem exists_shows (run : Run settings answers start past s)
    (lands : ∀ m ∈ past, ∃ es, m.Lands es)
    (shown : ∀ id b, start.store.filter? id = some b → ∃ sel, b.Shows sel) :
    ∀ id b, s.world.store.filter? id = some b → ∃ sel, b.Shows sel := by
  refine run.invariant (I := fun w => ∀ id b, w.store.filter? id = some b → ∃ sel, b.Shows sel) shown ?_
  intro m earlier hs ih id b hb
  obtain ⟨es, lands⟩ := lands m (hs.mem List.mem_cons_self)
  cases stored : m.before.store.filter? id with
  | none => exact lands.created id b stored hb
  | some old =>
    obtain ⟨sel, hsel⟩ := ih id old stored
    obtain ⟨sel', -, c, hc, shows'⟩ := lands.edited id sel ⟨old, stored, hsel⟩
    obtain rfl := Option.some.inj (hb.symm.trans hc)
    exact ⟨sel', shows'⟩

/-- However requests come in between each other, there is a log of the run on which every request has,
at moments of its own, the first of the edits that it asks for, and once it has ended just those that
it reports. Whatever is stored at some time shows in the end what the log makes of it from then on. -/
theorem no_edit_lost (sound : start.store.Sound)
    (distinct : ∀ b, start.Stores b → (b.dimensions.map (·.name)).Nodup)
    (run : Run settings answers start past s)
    (hash : Sha256.Separates fun m => ∃ b, Tagged start past b ∧ m = b.content) :
    ∃ log : Log, log.map Prod.fst = past ∧ (∀ me, log.of me <+: me.call.edits) ∧
      (∀ me result w, ⟨me, .done result w⟩ ∈ s.tasks → log.of me = me.call.reported result) ∧
      (∀ e ∈ log, e.1.mover = none → e.2 = []) ∧
      ∀ later earlier, log = later ++ earlier →
        ∀ b, (lastWorld start (earlier.map Prod.fst)).Stores b → ∃ before after, b.Shows before ∧
          before.editAll? (Log.about b.id later) = some after ∧ s.world.Shows b.id after := by
  obtain ⟨hvalid, -, keeps⟩ := run.sound_covered ⟨sound, fun b hb => .started hb⟩
    (fun m hm b hb => .kept ⟨m, hm, hb⟩) hash
  choose landings landed within reported using Run.landed hash hvalid.2 run
  have quiet (m : Moment) (hm : m ∈ past) (mover : m.mover = none) : m.Still := by
    obtain ⟨earlier, hs⟩ := suffix_of_mem hm
    cases keeps m earlier hs with
    | received => rfl
    | _ => simp at mover
  obtain ⟨log, rfl, hof, lands⟩ := exists_log past landings landed quiet
  refine ⟨log, rfl, fun me => hof me ▸ within me, ?_, fun e he => (lands e he).2, ?_⟩
  · intro me result w h
    rw [hof, reported me result w h]
  · rintro later earlier rfl b hb
    obtain ⟨s', run'⟩ := run.of_suffix ((List.suffix_append later earlier).map Prod.fst)
    obtain ⟨before, hbefore⟩ : ∃ before, b.Shows before := by
      refine run'.exists_shows ?_ ?_ b.id b (run'.world_eq ▸ hb)
      · intro m hm
        obtain ⟨e, he, rfl⟩ := List.mem_map.mp hm
        exact ⟨_, (lands e (List.mem_append_right later he)).1⟩
      · intro id b hb
        exact Blueprint.exists_shows (distinct b (World.stores_of_filter? sound hb))
    obtain ⟨after, replayed, shown⟩ := run.replayed
      (fun e he => (lands e (List.mem_append_left earlier he)).1) ⟨b, hb, hbefore⟩
    exact ⟨before, after, hbefore, replayed, shown⟩

end Run

namespace Small

/-- The changes of dimensions that the calls of the small run ask for. -/
def toggles : List FilterEdit := [.addOptions "age" ["27"], .removeOptions "age" ["27"]]

theorem toggles_of_asks {me : Client} (sent : (me.caller, me.call) ∈ calls) {id : String}
    {e : FilterEdit} (asks : me.call.Asks id e) : id = "f" ∧ e ∈ toggles := by
  obtain ⟨place, caller, call⟩ := me
  cases asks <;> simp_all [calls, toggles]

theorem toggles_computed : (lastWorld world (moments.drop 22)).store.filter? "f" = some blank ∧
    ∀ m ∈ moments, ∀ x ∈ m.before.store.filter? "f", ∀ e ∈ toggles,
      ∀ b ∈ (e.apply x).toOption, b.content ∈ contents := by
  decide +kernel

theorem tagged_separates : Sha256.Separates fun m => ∃ b, Tagged world moments b ∧ m = b.content := by
  obtain ⟨-, -, -, -, -, distinct⟩ := computed
  refine .of_contents ?_ distinct
  intro b tagged
  cases tagged with
  | started stored => simp [World.Stores, Store.filter?_of_empty world_fresh] at stored
  | kept h => exact (kept h).2.1
  | unmoved m me e x hm mover asks stored applied same =>
    obtain ⟨you, moved, sent⟩ := sent_of_mem_course hm
    obtain rfl := Option.some.inj (mover.symm.trans moved)
    obtain ⟨hid, he⟩ := toggles_of_asks sent asks
    rw [World.Stores, hid] at stored
    exact toggles_computed.2 m hm x stored e he b (by rw [applied]; rfl)

/-- What was added, removed and added once more makes the submitted blueprint out of the blank one. -/
theorem blank_edited : ∃ (log : Log) (before after : Selection), log.map Prod.fst = moments ∧
    blank.Shows before ∧ before.editAll? (Log.about "f" (log.take 22)) = some after ∧
    submitted.Shows after := by
  obtain ⟨s, run, -⟩ := run answers_reply
  obtain ⟨log, moments_eq, -, -, -, replayed⟩ := Run.no_edit_lost (.of_empty world_fresh)
    (fun b hb => by simp [World.Stores, Store.filter?_of_empty world_fresh] at hb) run tagged_separates
  have stored : (lastWorld world ((log.drop 22).map Prod.fst)).Stores blank := by
    rw [List.map_drop, moments_eq]
    exact toggles_computed.1
  obtain ⟨before, after, shown, edited, c, hc, shown'⟩ :=
    replayed _ _ (List.take_append_drop 22 log).symm blank stored
  rw [run.world_eq] at hc
  obtain rfl := Option.some.inj (computed.2.1.symm.trans hc)
  exact ⟨log, before, after, moments_eq, shown, edited, shown'⟩

end Small

end DatasetFilters
