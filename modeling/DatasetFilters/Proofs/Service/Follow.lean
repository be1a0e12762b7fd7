import DatasetFilters.Proofs.Service.Deed

namespace DatasetFilters

variable {settings : Settings} {answers : Nat → (q : Query) → q.Reply → Prop}
  {documents : Blueprint → Prop} {me : Client} {past past' : List Moment} {now next : World}

namespace Client

theorem Saw.mono {b : Blueprint} (h : me.Saw past b) (hp : past <:+ past') : me.Saw past' b := by
  obtain ⟨m, hm, hmover, hs⟩ := h
  exact ⟨m, hp.mem hm, hmover, hs⟩

theorem Edited.mono {id : String} (h : me.Edited past id) (hp : past <:+ past') :
    me.Edited past' id := by
  obtain ⟨m, hm, hmover, hs⟩ := h
  exact ⟨m, hp.mem hm, hmover, hs⟩

theorem Overtaken.mono {b : Blueprint} (h : me.Overtaken past b) (hp : past <:+ past') :
    me.Overtaken past' b := by
  obtain ⟨ha, hl, hb, d, hd, hid, hacc, hu, m, hm, hmover, hz⟩ := h
  exact ⟨ha, hl, hb, d, hd.mono hp, hid, hacc, hu, m, hp.mem hm, hmover, hz⟩

theorem Follows.mono {b : Blueprint} (h : me.Follows past b) (hp : past <:+ past') :
    me.Follows past' b := by
  refine ⟨h.addressed, ?_⟩
  rcases h.grounds with h | ⟨d, hd, hid, hacc, hlooks⟩ | h
  · exact Or.inl (h.mono hp)
  · exact Or.inr (Or.inl ⟨d, hd.mono hp, hid, hacc, hlooks⟩)
  · exact Or.inr (Or.inr (h.mono hp))

theorem Heard.mono {q : Query} {r : q.Reply} (h : me.Heard answers past q r)
    (hp : past <:+ past') : me.Heard answers past' q r := by
  obtain ⟨m, earlier, n, hs, hmover, hn, hlength, hr⟩ := h
  exact ⟨m, earlier, n, hs.trans hp, hmover, hn, Nat.le_trans hlength hp.length_le, hr⟩

theorem Sees.mono {b : Blueprint} (h : me.Sees answers past b) (hp : past <:+ past') :
    me.Sees answers past' b := by
  intro looks
  rcases h looks with h | h | ⟨version, h⟩
  · exact Or.inl h
  · exact Or.inr (Or.inl h)
  · exact Or.inr (Or.inr ⟨version, h.mono hp⟩)

theorem accepts_of_target {id tag : String} {selector : Selector}
    (hcall : me.call.target? = some (id, selector)) (hacc : selector.accepts tag = true) :
    me.Accepts tag := by
  intro id' selector' h
  rw [hcall, Option.some.injEq, Prod.mk.injEq] at h
  exact h.2 ▸ hacc

/-- What a client saw under a tag that its call accepts it may follow up. -/
theorem Saw.follows {b : Blueprint} {selector : Selector} (h : me.Saw past b)
    (hcall : me.call.target? = some (b.id, selector)) (hacc : selector.accepts b.etag = true) :
    me.Follows past b where
  addressed := by
    intro id selector' h
    rw [hcall, Option.some.injEq, Prod.mk.injEq] at h
    exact h.1
  grounds := Or.inr (Or.inl ⟨b, h, rfl, accepts_of_target hcall hacc, Or.inl rfl⟩)

end Client

theorem Chosen.mono {dataset : DatasetRef} {name : String} {ids : List String}
    (h : Chosen settings answers me past dataset name ids) (hp : past <:+ past') :
    Chosen settings answers me past' dataset name ids := by
  rcases h with h | ⟨confirmed, h, hverdict⟩
  · exact Or.inl h
  · exact Or.inr ⟨confirmed, h.mono hp, hverdict⟩

theorem Confirmed.mono {dataset : DatasetRef} {name : String} {ids : List String}
    (h : Confirmed settings answers me past dataset name ids) (hp : past <:+ past') :
    Confirmed settings answers me past' dataset name ids := by
  obtain ⟨⟨dimensions, heard, hname⟩, hoptions⟩ := h
  exact ⟨⟨dimensions, heard.mono hp, hname⟩, hoptions.mono hp⟩

namespace Client

theorem Updates.mono {a : Blueprint} {c : BlueprintChange}
    (h : me.Updates settings answers past a c) (hp : past <:+ past') :
    me.Updates settings answers past' a c := by
  cases h with
  | report asked valid => exact .report asked valid
  | move found asked valid other editable told confirmed =>
    exact .move found asked valid other editable (told.mono hp) fun d hd => (confirmed d hd).mono hp

theorem Took.mono {grounds : List Moment → Blueprint → BlueprintChange → Prop} {b : Blueprint}
    (h : me.Took past grounds b) (hp : past <:+ past') : me.Took past' grounds b := by
  rcases h with saw | ⟨m, earlier, hs, hmover, rest⟩
  · exact Or.inl (saw.mono hp)
  · exact Or.inr ⟨m, earlier, hs.trans hp, hmover, rest⟩

theorem Took.weaken {grounds grounds' : List Moment → Blueprint → BlueprintChange → Prop}
    {b : Blueprint} (h : me.Took past grounds b)
    (hg : ∀ earlier a c, grounds earlier a c → grounds' earlier a c) : me.Took past grounds' b := by
  rcases h with saw | ⟨m, earlier, hs, hmover, a, x, c, saw, stored, hid, htag, ground, rest⟩
  · exact Or.inl saw
  · exact Or.inr ⟨m, earlier, hs, hmover, a, x, c, saw, stored, hid, htag, hg _ _ _ ground, rest⟩

theorem Took.changes {b : Blueprint} (h : me.Took past (me.Updates settings answers) b) :
    me.Took past (me.Changes settings answers) b :=
  h.weaken fun _ _ _ updates => .update updates

theorem Made.mono {b : Blueprint} {outputId : String} {time : Instant}
    (h : me.Made settings answers past b outputId time) (hp : past <:+ past') :
    me.Made settings answers past' b outputId time := by
  obtain ⟨m, earlier, hs, made⟩ := h
  exact ⟨m, earlier, hs.trans hp, made⟩

end Client

theorem Justified.mono {a : Blueprint} {e : FilterEdit} (h : Justified settings answers me past a e)
    (hp : past <:+ past') : Justified settings answers me past' a e := by
  cases h with
  | promotion told =>
    obtain ⟨version, heard⟩ := told
    exact .promotion ⟨version, heard.mono hp⟩
  | update updates => exact .update (updates.mono hp)
  | submission editable same made => exact .submission editable same (made.mono hp)
  | addDimension d confirmed => exact .addDimension d (confirmed.mono hp)
  | removeDimension name => exact .removeDimension name
  | addOptions name options confirmed => exact .addOptions name options (confirmed.mono hp)
  | removeOptions name options => exact .removeOptions name options

theorem BlueprintUpdate.Passes.mono {u : BlueprintUpdate} {andSubmit : Bool} {b : Blueprint}
    (h : u.Passes settings answers me past andSubmit b) (hp : past <:+ past') :
    u.Passes settings answers me past' andSubmit b where
  permitted := h.permitted
  events := h.events
  move := by
    intro version hversion
    obtain ⟨open', ⟨found, heard⟩, confirmed⟩ := h.move version hversion
    exact ⟨open', ⟨found, heard.mono hp⟩, fun d hd => (confirmed d hd).mono hp⟩
  editable := h.editable

theorem Client.Cleared.mono (h : me.Cleared settings answers past) (hp : past <:+ past') :
    me.Cleared settings answers past' := by
  intro id u andSubmit selector hcall
  obtain ⟨b, saw, hid, hacc, passes⟩ := h id u andSubmit selector hcall
  exact ⟨b, saw.mono hp, hid, hacc, passes.mono hp⟩

namespace Blueprint

theorem promoted_observed_congr {b b' : Blueprint} (h : b.observed = b'.observed) :
    b.promoted.observed = b'.promoted.observed := by
  have same := congrArg (fun o : Observation => { o with published := some true }) h
  exact same

theorem isPublished_congr {b b' : Blueprint} (h : b.observed = b'.observed) :
    b.isPublished = b'.isPublished := by
  have := congrArg Observation.published h
  simp only [observed] at this
  rw [isPublished, isPublished, this]

theorem id_congr {b b' : Blueprint} (h : b.observed = b'.observed) : b.id = b'.id :=
  congrArg Observation.id h

theorem dataset_congr {b b' : Blueprint} (h : b.observed = b'.observed) : b.dataset = b'.dataset :=
  congrArg Observation.dataset h

end Blueprint

theorem Blueprint.LooksLike.trans {a b d : Blueprint} (h : b.LooksLike a) (h' : a.LooksLike d) :
    b.LooksLike d := by
  rcases h with h | h <;> rcases h' with h' | h'
  · exact Or.inl (h.trans h')
  · exact Or.inr (h.trans h')
  · exact Or.inr (h.trans (promoted_observed_congr h'))
  · have once : a.promoted.observed = d.promoted.promoted.observed := promoted_observed_congr h'
    exact Or.inr (h.trans once)

theorem Blueprint.LooksLike.isPublished {b d : Blueprint} (h : b.LooksLike d)
    (hd : d.isPublished = true) : b.isPublished = true := by
  rcases h with h | h
  · exact (isPublished_congr h).trans hd
  · exact (isPublished_congr h).trans rfl

/-- Whatever a client makes of a blueprint that looks like one which it may follow up, it may follow
up the outcome: if it only made it public it still is where it was, else it has edited it. -/
theorem Client.Follows.after_write {a x y : Blueprint} (h : me.Follows past a)
    (hxa : x.observed = a.observed) {m : Moment} (hm : m ∈ past) (hmover : m.mover = some me)
    (hx : m.before.Stores x) (hy : m.after.Stores y) (hid : x.id = y.id) : me.Follows past y := by
  have ida : a.id = y.id := (Blueprint.id_congr hxa).symm.trans hid
  refine ⟨fun id selector hcall => ida.symm.trans (h.addressed id selector hcall), ?_⟩
  by_cases hedit : m.Edits x y
  · exact Or.inl ⟨m, hm, hmover, x, y, hedit, hid⟩
  · -- then the outcome looks like `a`, made public at most
    have looks : y.LooksLike a := by
      by_cases hsame : y.observed = x.observed
      · exact Or.inl (hsame.trans hxa)
      · by_cases hpub : y.observed = x.promoted.observed
        · exact Or.inr (hpub.trans (Blueprint.promoted_observed_congr hxa))
        · exact absurd ⟨hx, hy, hid, hsame, hpub⟩ hedit
    rcases h.grounds with h | ⟨d, hd, hdid, hacc, hlooks⟩ | ⟨ha, hl, hb, d, hd, hdid, hrest⟩
    · exact Or.inl (ida ▸ h)
    · exact Or.inr (Or.inl ⟨d, hd, hdid.trans ida, hacc, looks.trans hlooks⟩)
    · exact Or.inr (Or.inr ⟨ha, hl, looks.isPublished hb, d, hd, hdid.trans ida, hrest⟩)

namespace World

theorem stores_of_filter? {w : World} {id : String} {b : Blueprint} (hw : w.store.Sound)
    (h : w.store.filter? id = some b) : w.Stores b := by
  rw [Stores, hw.id_eq h]
  exact h

theorem Stores.unique {w : World} {b c : Blueprint} (hb : w.Stores b) (hc : w.Stores c)
    (hid : b.id = c.id) : b = c := by
  rw [Stores, hid, hc] at hb
  exact (Option.some.inj hb).symm

theorem stores_of_filters_eq {w w' : World} {b : Blueprint}
    (h : w'.store.backend.filters = w.store.backend.filters) : w'.Stores b ↔ w.Stores b := by
  rw [Stores, Stores, Store.filter?_of_filters_eq h]

theorem stores_keeping {now : World} {t : Instant} {b c : Blueprint}
    (hc : World.Stores { now with store := now.store.keeping t b } c) : c = b ∨ now.Stores c := by
  have kept := Store.filter?_keeping now.store t b c.id
  rw [World.Stores, kept] at hc
  by_cases hid : c.id = b.id
  · rw [if_pos hid, Option.some.injEq] at hc
    exact Or.inl hc.symm
  · rw [if_neg hid] at hc
    exact Or.inr hc

end World

/-- Where the hash keeps documents apart, what is stored under one tag looks the same. -/
theorem World.Covered.observed_eq (hash : Sha256.Separates fun m => ∃ b, documents b ∧ m = b.content)
    {w w' : World} (hw : w.Covered documents) (hw' : w'.Covered documents) {b b' : Blueprint}
    (hb : w.Stores b) (hb' : w'.Stores b') (h : b.etag = b'.etag) : b.observed = b'.observed := by
  rw [hw.sound.etag_eq hb, hw'.sound.etag_eq hb'] at h
  exact hash.observed_eq (hw.known b hb) (hw'.known b' hb') h

/-- The blueprint that a client saw still looks as it did if its tag is still there. -/
theorem Client.Saw.observed_eq {a x : Blueprint} (saw : me.Saw past a)
    (hash : Sha256.Separates fun m => ∃ b, documents b ∧ m = b.content)
    (hvalid : (Rules.ofServices settings answers documents).valid past now) (hx : now.Stores x)
    (htag : x.etag = a.etag) : x.observed = a.observed := by
  obtain ⟨m, hm, -, ha⟩ := saw
  exact hvalid.1.observed_eq hash (hvalid.2 m hm).2 hx ha htag

theorem Deed.sound (h : Deed settings answers me past now next) (hnow : now.store.Sound) :
    next.store.Sound := by
  cases h with
  | rests filters _ _ => exact hnow.of_filters_eq filters
  | works _ _ filters _ => exact hnow.of_filters_eq filters
  | creates b t version _ _ _ _ _ _ _ fresh kept =>
    rw [kept]
    exact hnow.keeping t fresh
  | edits a x c t e _ _ _ _ _ _ _ _ _ kept =>
    rw [kept]
    exact hnow.keeping t rfl

theorem Rules.ofServices_preserved : (Rules.ofServices settings answers documents).Preserved
    fun w => ∀ b, w.Stores b → documents b := by
  intro m past hm hnext
  have covered : m.before.Covered documents ∧ m.after.Covered documents := by
    cases hm with
    | idle me past now hvalid => exact ⟨hvalid.1, hvalid.1⟩
    | own me past now next hvalid hdeed =>
      exact ⟨hvalid.1, Deed.sound hdeed hvalid.1.sound, hnext⟩
    | received past now channel hvalid => exact ⟨hvalid.1, hvalid.1.sound, hvalid.1.known⟩
  have earlier : ∀ m ∈ past, m.before.Covered documents ∧ m.after.Covered documents := by
    cases hm with
    | idle me past now hvalid => exact hvalid.2
    | own me past now next hvalid hdeed => exact hvalid.2
    | received past now channel hvalid => exact hvalid.2
  refine ⟨covered.2, ?_⟩
  intro m' hm'
  rcases List.mem_cons.mp hm' with rfl | hm'
  · exact covered
  · exact earlier m' hm'

end DatasetFilters
