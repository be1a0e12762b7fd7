import DatasetFilters.Proofs.Service.Alone
import DatasetFilters.Proofs.Service.Course

namespace DatasetFilters

variable {settings : Settings} {answers : Nat → (q : Query) → q.Reply → Prop}
  {documents : Blueprint → Prop} {me : Client} {m : Moment} {past : List Moment} {start : World}
  {s : Server}

/-- At this moment the client edits a blueprint that it has not edited before. -/
structure Client.FirstEdits (me : Client) (past : List Moment) (m : Moment) (x y : Blueprint) :
    Prop where
  mover : m.mover = some me
  edits : m.Edits x y
  first : ¬me.Edited past x.id

/-- The client read a blueprint of a tag, and another looks like it or like it made public. -/
def Client.ReadLike (me : Client) (past : List Moment) (tag : String) (x : Blueprint) : Prop :=
  ∃ d, me.Saw past d ∧ d.id = x.id ∧ d.etag = tag ∧ x.LooksLike d

theorem Moment.not_edits {x y : Blueprint}
    (h : m.after.store.backend.filters = m.before.store.backend.filters) : ¬m.Edits x y := by
  intro edits
  obtain ⟨hx, hy, hid, hne, -⟩ := edits
  have hy' := (World.stores_of_filters_eq h).mp hy
  exact hne (congrArg Blueprint.observed (hy'.unique hx hid.symm))

/-- What is known of an edit: it changed what has the tag of a blueprint that the client may follow
up, on grounds that concern this blueprint. -/
theorem Moment.Keeps.of_edits (h : m.Keeps (.ofServices settings answers documents) past)
    (mover : m.mover = some me) {x y : Blueprint} (edits : m.Edits x y) :
    ∃ a c e, me.Saw past a ∧ me.Follows past a ∧ x.id = a.id ∧ x.etag = a.etag ∧
      Justified settings answers me past a e ∧ e.apply x = .ok c ∧ y.observed = c.observed := by
  cases h with
  | idle => exact absurd edits (Moment.not_edits rfl)
  | received => exact absurd edits (Moment.not_edits rfl)
  | own me' past now next hvalid hdeed =>
    obtain rfl := Option.some.inj mover
    cases hdeed with
    | rests filters _ _ => exact absurd edits (Moment.not_edits filters)
    | works _ _ filters _ => exact absurd edits (Moment.not_edits filters)
    | creates b t version _ free _ _ _ _ _ _ kept =>
      obtain ⟨hx, hy, hid, hne, -⟩ := edits
      simp only at hx hy
      rw [kept] at hy
      rcases World.stores_keeping hy with rfl | hy
      · rw [World.Stores, hid, free] at hx
        simp at hx
      · exact absurd (congrArg Blueprint.observed (hy.unique hx hid.symm)) hne
    | edits a z c t e saw follows _ _ stored same justified applied _ kept =>
      obtain ⟨hx, hy, hid, hne, -⟩ := edits
      simp only at hx hy
      rw [kept] at hy
      rcases World.stores_keeping hy with rfl | hy
      · have idz : x.id = z.id := hid.trans (FilterEdit.apply_id_etag applied).1
        obtain rfl := hx.unique stored idz
        exact ⟨a, c, e, saw, follows, same.1, same.2, justified, applied, rfl⟩
      · exact absurd (congrArg Blueprint.observed (hy.unique hx hid.symm)) hne

theorem Moment.Keeps.isPublished_of_edits
    (h : m.Keeps (.ofServices settings answers documents) past) (mover : m.mover = some me)
    {x y : Blueprint} (edits : m.Edits x y) (hx : x.isPublished = true) : y.isPublished = true := by
  obtain ⟨a, c, e, -, -, -, -, -, applied, looks⟩ := h.of_edits mover edits
  rw [Blueprint.isPublished_congr looks]
  exact FilterEdit.isPublished_of_apply applied hx

/-- The blueprint that a client edits first looks like the one whose tag its call names, made public
at most, or the client was overtaken. -/
theorem Run.first_edit (fresh : start.Fresh) (run : Run settings answers start (m :: past) s)
    (hash : Collisionless (m :: past)) {id tag : String}
    {x y : Blueprint} (condition : me.call.target? = some (id, .exact tag))
    (edit : me.FirstEdits past m x y) :
    x.id = id ∧ (me.ReadLike past tag x ∨ me.Overtaken past x) := by
  obtain ⟨-, -, hmoments⟩ := run.sound_services fresh hash
  have keeps := hmoments m past (List.suffix_refl _)
  obtain ⟨a, c, e, saw, follows, hid, htag, -, -, -⟩ := keeps.of_edits edit.mover edit.edits
  have looks : x.observed = a.observed := saw.observed_eq hash keeps.valid edit.edits.1 htag
  refine ⟨hid.trans (follows.addressed id _ condition), ?_⟩
  rcases follows.grounds with h | ⟨d, hd, hdid, hacc, hlooks⟩ | ⟨ha, hl, hb, d, hd, hdid, hrest⟩
  · exact absurd (hid ▸ h) edit.first
  · have hdtag : tag = d.etag := beq_iff_eq.mp (hacc id _ condition)
    have like : x.LooksLike d := Blueprint.LooksLike.trans (Or.inl looks) hlooks
    exact Or.inl ⟨d, hd, hdid.trans hid.symm, hdtag.symm, like⟩
  · have published := (Blueprint.isPublished_congr looks).trans hb
    exact Or.inr ⟨ha, hl, published, d, hd, hdid.trans hid.symm, hrest⟩

theorem Moment.Keeps.not_looksLike_of_edits
    (h : m.Keeps (.ofServices settings answers documents) past) (mover : m.mover = some me)
    {x y d : Blueprint} (edits : m.Edits x y) (hx : x.LooksLike d) : ¬y.LooksLike d := by
  obtain ⟨-, -, -, differs, differs_public⟩ := id edits
  intro like
  rcases like with hy | hy
  · rcases hx with hx | hx
    · exact differs (hy.trans hx.symm)
    · -- then `x` is public, so `y` and `d` are, and `d` made public looks no different
      have published : y.isPublished = true :=
        h.isPublished_of_edits mover edits ((Blueprint.isPublished_congr hx).trans rfl)
      have same : d.promoted.observed = d.observed := by
        have hd := (Blueprint.isPublished_congr hy).symm.trans published
        rw [Blueprint.isPublished, beq_iff_eq] at hd
        simp only [Blueprint.observed, Blueprint.promoted, hd]
      exact differs (hy.trans (same.symm.trans hx.symm))
  · rcases hx with hx | hx
    · exact differs_public (hy.trans (Blueprint.promoted_observed_congr hx).symm)
    · exact differs (hy.trans hx.symm)

/-- A moment at which a blueprint comes to look like another one, or like that one made public. -/
def Moment.Restores (m : Moment) (d : Blueprint) : Prop :=
  (∀ x, m.before.Stores x → x.id = d.id → ¬x.LooksLike d) ∧
    ∃ y, m.after.Stores y ∧ y.id = d.id ∧ y.LooksLike d

/-- If two clients edit a blueprint on the same tag, and each of them what looks like the one of this
tag, then it was restored in between. -/
theorem Run.restored_between {m₁ m₂ : Moment} {past₁ past₂ : List Moment} {me₁ me₂ : Client}
    (fresh : start.Fresh) (run : Run settings answers start (m₂ :: past₂) s)
    (hash : Collisionless (m₂ :: past₂))
    (order : (m₁ :: past₁) <:+ past₂) {tag : String} {x₁ y₁ x₂ y₂ : Blueprint}
    (edit₁ : me₁.FirstEdits past₁ m₁ x₁ y₁) (edit₂ : me₂.FirstEdits past₂ m₂ x₂ y₂)
    (same : x₁.id = x₂.id) (read₁ : me₁.ReadLike past₁ tag x₁) (read₂ : me₂.ReadLike past₂ tag x₂) :
    ∃ d, d.id = x₁.id ∧ d.etag = tag ∧ ∃ m past, (m :: past) <:+ past₂ ∧ (m₁ :: past₁) <:+ past ∧
      m.Restores d := by
  obtain ⟨hvalid, -, hmoments⟩ := run.sound_services fresh hash
  obtain ⟨d, ⟨n₁, hn₁, -, stored₁⟩, hid₁, htag₁, like₁⟩ := read₁
  obtain ⟨d₂, ⟨n₂, hn₂, -, stored₂⟩, hid₂, htag₂, like₂⟩ := read₂
  have within : past₁ <:+ m₂ :: past₂ :=
    (List.suffix_cons _ _).trans (order.trans (List.suffix_cons _ _))
  have alike : d₂.observed = d.observed :=
    (hvalid.2 n₂ (List.mem_cons_of_mem _ hn₂)).2.observed_eq hash (hvalid.2 n₁ (within.mem hn₁)).2
      stored₂ stored₁ (htag₂.trans htag₁.symm)
  have keeps₁ := hmoments m₁ past₁ (order.trans (List.suffix_cons _ _))
  obtain ⟨-, hy₁, hidy₁, -⟩ := id edit₁.edits
  have gone : ∀ x, m₁.after.Stores x → x.id = d.id → ¬x.LooksLike d := by
    intro x hx hid
    rw [hx.unique hy₁ (hid.trans (hid₁.trans hidy₁))]
    exact keeps₁.not_looksLike_of_edits edit₁.mover edit₁.edits like₁
  have back : x₂.LooksLike d := like₂.trans (Or.inl alike)
  obtain ⟨hx₂, -⟩ := id edit₂.edits
  cases run with
  | @next past s₂ s' mover run move =>
    obtain ⟨m, earlier, hs, hbetween, hbefore, hafter⟩ := run.turning
      (I := fun w => ∀ x, w.Stores x → x.id = d.id → ¬x.LooksLike d) order gone
      fun h => h x₂ hx₂ (same.symm.trans hid₁.symm) back
    have restored : ∃ y, m.after.Stores y ∧ y.id = d.id ∧ y.LooksLike d := by
      refine Classical.byContradiction fun hnone => hafter ?_
      intro y hy hid like
      exact hnone ⟨y, hy, hid, like⟩
    exact ⟨d, hid₁, htag₁, m, earlier, hs, hbetween, hbefore, restored⟩

/-- An anonymous client that reads a hidden blueprint and is told about its version while others put
a public one in its place goes on from that one, although it named the tag of the first. -/
theorem Blueprints.run_get_overtaken {answer : (q : Query) → World → σ → q.Reply × World × σ}
    {t t' : σ} {d c : Blueprint} {w w' : World} {version : Version} (sound : w.store.Sound)
    (works : w.store.Works) (hd : w.Stores d) (hidden : d.isPublished = false)
    (told : answer (.version d.dataset false) { w with store := w.store.touched } t =
      (.ok version, w', t'))
    (sound' : w'.store.Sound) (works' : w'.store.Works) (hc : w'.Stores c) (hid : c.id = d.id)
    (published : c.isPublished = true) (other : c.etag ≠ d.etag)
    (rest : Blueprint → Request ServiceError α) :
    ∃ w'', w''.store.backend.filters = w'.store.backend.filters ∧
      ((get d.id (.exact d.etag) .anonymous >>= rest) w).run answer t = (rest c w'').run answer t' := by
  have reads := Request.run_read answer t (f := (·.getFilter d.id (.exact d.etag)))
    (works.getFilter sound hd (beq_self_eq_true d.etag))
  have asks : ((Request.ask (.version d.dataset false) : Request ServiceError _)
      { w with store := w.store.touched }).run answer t = (.ok (.ok version), w', t') := by
    rw [Request.run_ask, told]
  have conflict : w'.store.updateFilter (w'.clock w'.readings) d.id { published := some true }
      (.exact d.etag) = (.error (.conflict d.id), w'.store.touched) := by
    rw [Store.updateFilter_eq_modifyFilter, ← hid]
    exact works'.modifyFilter_of_ne sound' hc other _ _
  have current : w'.store.touched.getFilter d.id .any = (.ok c, w'.store.touched.touched) := by
    have stored : w'.store.touched.filter? c.id = some c := by
      rw [Store.filter?_touched]
      exact hc
    rw [← hid]
    exact works'.touched.getFilter sound'.touched stored rfl
  have loses : ((Request.access fun s =>
      s.updateFilter (w'.clock w'.readings) d.id { published := some true } (.exact d.etag) :
      Request ServiceError _) { w' with readings := w'.readings + 1 }).run answer t' =
      (.ok (.error (.conflict d.id)),
        { w' with store := w'.store.touched, readings := w'.readings + 1 }, t') := by
    rw [Request.run_access, conflict]
  let w'' := { w' with store := w'.store.touched.touched, readings := w'.readings + 1 }
  have rereads : ((Request.access (·.getFilter d.id .any) : Request ServiceError _)
      { w' with store := w'.store.touched, readings := w'.readings + 1 }).run answer t' =
      (.ok (.ok c), w'', t') := by
    rw [Request.run_access, current]
  have promotes : ((promote d) { w with store := w.store.touched }).run answer t =
      (.ok c, w'', t') := by
    refine (Request.run_bind asks _).trans ?_
    refine (Request.run_bind Request.run_now _).trans ?_
    refine (Request.run_bind loses _).trans ?_
    refine (Request.run_bind rereads _).trans ?_
    simp only [published, if_true]
    exact Request.run_pure c
  have gets : ((get d.id (.exact d.etag) .anonymous) w).run answer t = (.ok c, w'', t') := by
    refine (Request.run_bind reads _).trans ?_
    simp only [hidden, Caller.anonymous, Bool.or_self, Bool.false_eq_true, if_false]
    exact promotes
  exact ⟨w'', rfl, Request.run_bind gets rest⟩

/-- Only anonymous callers publish what they read, so no one else is overtaken. -/
theorem Client.not_overtaken_of_known (known : me.caller.authenticated = true) (b : Blueprint) :
    ¬me.Overtaken past b := by
  intro overtaken
  obtain ⟨anonymous, -⟩ := overtaken
  simp [known] at anonymous

/-- What naming a tag in a call brings about. The blueprint that a client edits first looks like the
one of this tag, made public at most, unless the client was overtaken. If another client edited on
the tag before and neither was overtaken, then what is edited was restored in between. And a client
that is overtaken goes on, in whatever it does, from the blueprint that it was overtaken by. -/
theorem Client.tag_honoured_unless_overtaken (fresh : start.Fresh)
    (run : Run settings answers start (m :: past) s) (hash : Collisionless (m :: past))
    {id tag : String} {x y : Blueprint} (condition : me.call.target? = some (id, .exact tag))
    (edit : me.FirstEdits past m x y) :
    (x.id = id ∧ (me.ReadLike past tag x ∨ me.Overtaken past x)) ∧
    (∀ {m₁ : Moment} {past₁ : List Moment} {me₁ : Client} {x₁ y₁ : Blueprint},
      (m₁ :: past₁) <:+ past → me₁.call.target? = some (id, .exact tag) →
      me₁.FirstEdits past₁ m₁ x₁ y₁ → ¬me₁.Overtaken past₁ x₁ → ¬me.Overtaken past x →
      ∃ d, d.id = id ∧ d.etag = tag ∧ ∃ m past', (m :: past') <:+ past ∧ (m₁ :: past₁) <:+ past' ∧
        m.Restores d) ∧
    (∀ {σ : Type} {answer : (q : Query) → World → σ → q.Reply × World × σ} {t t' : σ}
        {d c : Blueprint} {w w' : World} {version : Version} {α : Type}
        (rest : Blueprint → Request ServiceError α),
      w.store.Sound → w.store.Works → w.Stores d → d.isPublished = false →
      answer (.version d.dataset false) { w with store := w.store.touched } t =
        (.ok version, w', t') →
      w'.store.Sound → w'.store.Works → w'.Stores c → c.id = d.id → c.isPublished = true →
      c.etag ≠ d.etag →
      ∃ w'', w''.store.backend.filters = w'.store.backend.filters ∧
        ((Blueprints.get d.id (.exact d.etag) .anonymous >>= rest) w).run answer t =
          (rest c w'').run answer t') := by
  have honoured := run.first_edit fresh hash condition edit
  refine ⟨honoured, ?_, ?_⟩
  · intro m₁ past₁ me₁ x₁ y₁ order condition₁ edit₁ alone₁ alone
    have within : (m₁ :: past₁) <:+ m :: past := order.trans (List.suffix_cons _ _)
    obtain ⟨s₁, run₁⟩ := run.of_suffix within
    obtain ⟨id₁, read₁⟩ := run₁.first_edit fresh (hash.earlier within) condition₁ edit₁
    have restored := run.restored_between fresh hash order edit₁ edit (id₁.trans honoured.1.symm)
      (read₁.resolve_right alone₁) (honoured.2.resolve_right alone)
    rw [id₁] at restored
    exact restored
  · intro σ answer t t' d c w w' version α rest sound works hd hidden told sound' works' hc hid
      published other
    exact Blueprints.run_get_overtaken sound works hd hidden told sound' works' hc hid published other
      rest

namespace Small

theorem firstEdits_of_changesFirst {x y : Blueprint} {moments : List Moment}
    (h : changesFirst me x y moments = true) (hx : x.id = "f") (hy : y.id = "f")
    (differs : y.observed ≠ x.observed) (differs_public : y.observed ≠ x.promoted.observed) :
    ∃ m past, moments = m :: past ∧ me.FirstEdits past m x y := by
  cases moments with
  | nil => simp [changesFirst] at h
  | cons m past =>
    obtain ⟨mover, before, after, idle⟩ := of_decide_eq_true h
    refine ⟨m, past, rfl, mover, ⟨?_, ?_, hx.trans hy.symm, differs, differs_public⟩, ?_⟩
    · rw [World.Stores, hx]
      exact before
    · rw [World.Stores, hy]
      exact after
    · intro edited
      obtain ⟨n, hn, hmover, x', y', edits, -⟩ := edited
      exact Moment.not_edits (idle n hn hmover) edits

def shown : Blueprint := { chosen with
  published := some true
  etag := "3e1abdb7451fda101fc57a209e1302b39c330707eee9e569503d0fb24eedaec8" }

/-- Somebody chooses the option and publishes while the catalog is asked about the version. -/
def meanwhile : (q : Query) → World → Unit → q.Reply × World × Unit
  | .version _ _, _, t => (.ok ⟨"i", "published"⟩, storing shown, t)
  | q, w, t => (reply q, w, t)

theorem first_edits :
    ∃ m past, moments.drop 21 = m :: past ∧ first.FirstEdits past m blank chosen := by
  obtain ⟨-, -, changes, -⟩ := computed
  exact firstEdits_of_changesFirst changes rfl rfl (by decide +kernel) (by decide +kernel)

theorem second_edits : ∃ m past, moments.drop 11 = m :: past ∧
    second.FirstEdits past m { blank with stamp := 3 } { chosen with stamp := 4 } := by
  obtain ⟨-, -, -, changes, -⟩ := computed
  exact firstEdits_of_changesFirst changes rfl rfl (by decide +kernel) (by decide +kernel)

theorem tag_honoured :
    (∃ m past, moments.drop 11 = m :: past ∧
      (second.ReadLike past blank.etag { blank with stamp := 3 } ∨
        second.Overtaken past { blank with stamp := 3 })) ∧
    (∃ d, d.id = "f" ∧ d.etag = blank.etag ∧ ∃ m past, (m :: past) <:+ moments.drop 12 ∧
      moments.drop 21 <:+ past ∧ m.Restores d) ∧
    ∃ w : World, w.store.backend.filters = (storing shown).store.backend.filters ∧
      ((Blueprints.get "f" (.exact blank.etag) .anonymous >>= pure) (storing blank)).run meanwhile
        () = (.ok shown, w, ()) := by
  obtain ⟨s, run, -⟩ := run answers_reply
  obtain ⟨m₁, past₁, at₁, edit₁⟩ := first_edits
  obtain ⟨m₂, past₂, at₂, edit₂⟩ := second_edits
  have suffix₂ : (m₂ :: past₂) <:+ moments := at₂ ▸ List.drop_suffix 11 moments
  obtain ⟨s₂, run₂⟩ := run.of_suffix suffix₂
  have rest₂ : moments.drop 12 = past₂ := by
    have tail := congrArg List.tail at₂
    rwa [List.tail_drop] at tail
  have order : (m₁ :: past₁) <:+ past₂ := by
    have later : moments.drop 21 = (moments.drop 12).drop 9 := by rw [List.drop_drop]
    rw [← at₁, later, rest₂]
    exact List.drop_suffix 9 past₂
  obtain ⟨⟨-, honoured⟩, restored, overtaken⟩ :=
    Client.tag_honoured_unless_overtaken world_fresh run₂ (collisionless.earlier suffix₂) rfl edit₂
  refine ⟨⟨m₂, past₂, at₂, honoured⟩, ?_, ?_⟩
  · rw [rest₂, at₁]
    exact restored order rfl edit₁ (Client.not_overtaken_of_known rfl _)
      (Client.not_overtaken_of_known rfl _)
  · have blank_tag : blank.etag = blank.tag := by decide +kernel
    have shown_tag : shown.etag = shown.tag := by decide +kernel
    have other : shown.etag ≠ blank.etag := by decide +kernel
    have told : meanwhile (.version blank.dataset false)
        { storing blank with store := (storing blank).store.touched } () =
          (.ok ⟨"i", "published"⟩, storing shown, ()) := rfl
    obtain ⟨w, same, goesOn⟩ := overtaken (fun b => pure b) (storing_sound blank_tag)
      (fun _ _ _ => rfl) (storing_stores blank) rfl told (storing_sound shown_tag)
      (fun _ _ _ => rfl) (storing_stores shown) rfl rfl other
    exact ⟨w, same, goesOn⟩

end Small

end DatasetFilters
