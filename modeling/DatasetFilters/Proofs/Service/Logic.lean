import DatasetFilters.Proofs.Service.Run

namespace DatasetFilters

structure Rules where
  /-- What holds of the past and the present world at all times. -/
  valid : List Moment → World → Prop
  /-- The answers that can be given after so many moments. -/
  answers : Nat → (q : Query) → q.Reply → Prop
  /-- What a client may do to the world, in the light of the past. -/
  guarantee : Client → List Moment → World → World → Prop

/-- The client was given an answer, at some time since it first moved. -/
def Client.Heard (answers : Nat → (q : Query) → q.Reply → Prop) (me : Client) (past : List Moment)
    (q : Query) (r : q.Reply) : Prop :=
  ∃ m earlier n, (m :: earlier) <:+ past ∧ m.mover = some me ∧ earlier.length < n ∧
    n ≤ past.length ∧ answers n q r

theorem suffix_of_mem {m : Moment} {past : List Moment} (h : m ∈ past) :
    ∃ earlier, (m :: earlier) <:+ past := by
  obtain ⟨later, earlier, rfl⟩ := List.append_of_mem h
  exact ⟨earlier, List.suffix_append later _⟩

variable {rules : Rules} {me : Client}

namespace Step

variable (rules me) in
/-- A request under way that keeps to the rules and succeeds, if it does, as `p` has it. While it is
suspended the past only grows at its head. -/
def Meets (p : α → List Moment → Prop) : Step ε α → List Moment → World → Prop
  | done r w, past, now => w = now ∧ ∀ a, r = .ok a → p a past
  | acted w resume, past, now => rules.guarantee me past now w ∧
      ∀ past' now', (⟨some me, now, w⟩ :: past) <:+ past' → rules.valid past' now' →
        (resume now').Meets p past' now'
  | ask w q resume, past, now => w = now ∧
      ∀ past' now' r, (⟨some me, now, w⟩ :: past) <:+ past' → rules.valid past' now' →
        rules.answers past'.length q r → (resume r now').Meets p past' now'

variable {past past' : List Moment} {now : World} {p : α → List Moment → Prop}

theorem Meets.andThen {step : Step ε α} {f : α → Request ε β} {p' : β → List Moment → Prop}
    (h : step.Meets rules me p past now) (hvalid : rules.valid past now)
    (hf : ∀ a past' now', past <:+ past' → rules.valid past' now' → p a past' →
      (f a now').Meets rules me p' past' now') :
    (step.andThen f).Meets rules me p' past now := by
  induction step generalizing past now with
  | done r w =>
    obtain ⟨rfl, hp⟩ := h
    cases r with
    | ok a => exact hf a past w (List.suffix_refl past) hvalid (hp a rfl)
    | error e => exact ⟨rfl, by simp⟩
  | acted w resume ih =>
    obtain ⟨hguarantee, hrest⟩ := h
    refine ⟨hguarantee, ?_⟩
    intro past' now' hsuffix hvalid'
    have grown := (List.suffix_cons _ _).trans hsuffix
    exact ih now' (hrest past' now' hsuffix hvalid') hvalid'
      fun a past'' now'' hs => hf a past'' now'' (grown.trans hs)
  | ask w q resume ih =>
    obtain ⟨rfl, hrest⟩ := h
    refine ⟨rfl, ?_⟩
    intro past' now' r hsuffix hvalid' hr
    have grown := (List.suffix_cons _ _).trans hsuffix
    exact ih r now' (hrest past' now' r hsuffix hvalid' hr) hvalid'
      fun a past'' now'' hs => hf a past'' now'' (grown.trans hs)

theorem Meets.attempted {step : Step ε α} (h : step.Meets rules me p past now) :
    (step.mapResult (Except.ok : _ → Except δ _)).Meets rules me
      (fun r past => ∀ a, r = .ok a → p a past) past now := by
  induction step generalizing past now with
  | done r w =>
    obtain ⟨rfl, hp⟩ := h
    refine ⟨rfl, ?_⟩
    intro r' hr a ha
    obtain rfl := Except.ok.inj hr
    exact hp a ha
  | acted w resume ih =>
    obtain ⟨hguarantee, hrest⟩ := h
    exact ⟨hguarantee, fun past' now' hs hv => ih now' (hrest past' now' hs hv)⟩
  | ask w q resume ih =>
    obtain ⟨rfl, hrest⟩ := h
    exact ⟨rfl, fun past' now' r hs hv hr => ih r now' (hrest past' now' r hs hv hr)⟩

theorem Meets.weaken {step : Step ε α} {p' : α → List Moment → Prop}
    (h : step.Meets rules me p past now)
    (hp : ∀ a past', past <:+ past' → p a past' → p' a past') :
    step.Meets rules me p' past now := by
  induction step generalizing past now with
  | done r w => exact ⟨h.1, fun a ha => hp a past (List.suffix_refl past) (h.2 a ha)⟩
  | acted w resume ih =>
    refine ⟨h.1, ?_⟩
    intro past' now' hs hv
    have grown := (List.suffix_cons _ _).trans hs
    exact ih now' (h.2 past' now' hs hv) fun a past'' hs' => hp a past'' (grown.trans hs')
  | ask w q resume ih =>
    refine ⟨h.1, ?_⟩
    intro past' now' r hs hv hr
    have grown := (List.suffix_cons _ _).trans hs
    exact ih r now' (h.2 past' now' r hs hv hr) fun a past'' hs' => hp a past'' (grown.trans hs')

end Step

namespace Request

/-- A request that keeps to the rules wherever it is sent after some past. -/
def Keeps (rules : Rules) (me : Client) (past : List Moment) (p : α → List Moment → Prop)
    (r : Request ε α) : Prop :=
  ∀ now, rules.valid past now → (r now).Meets rules me p past now

variable {past : List Moment} {p : α → List Moment → Prop}

theorem keeps_pure {a : α} (h : p a past) : (pure a : Request ε α).Keeps rules me past p := by
  intro now _
  refine ⟨rfl, ?_⟩
  intro a' ha
  obtain rfl := Except.ok.inj ha
  exact h

theorem keeps_fail (e : ε) : (fail e : Request ε α).Keeps rules me past p :=
  fun _ _ => ⟨rfl, by simp⟩

theorem keeps_ofExcept {r : Except ε α} (h : ∀ a, r = .ok a → p a past) :
    (ofExcept r).Keeps rules me past p :=
  fun _ _ => ⟨rfl, h⟩

theorem keeps_ite {c : Prop} [Decidable c] {r r' : Request ε α}
    (h : c → r.Keeps rules me past p) (h' : ¬c → r'.Keeps rules me past p) :
    (if c then r else r').Keeps rules me past p := by
  by_cases hc : c
  · rw [if_pos hc]
    exact h hc
  · rw [if_neg hc]
    exact h' hc

theorem Keeps.bind {r : Request ε α} {f : α → Request ε β} {p' : β → List Moment → Prop}
    (h : r.Keeps rules me past p)
    (hf : ∀ a past', past <:+ past' → p a past' → (f a).Keeps rules me past' p') :
    (r >>= f).Keeps rules me past p' :=
  fun now hvalid => Step.Meets.andThen (h now hvalid) hvalid
    fun a past' now' hs hv hp => hf a past' hs hp now' hv

theorem Keeps.weaken {r : Request ε α} {p' : α → List Moment → Prop}
    (h : r.Keeps rules me past p) (hp : ∀ a past', past <:+ past' → p a past' → p' a past') :
    r.Keeps rules me past p' :=
  fun now hvalid => (h now hvalid).weaken hp

theorem Keeps.map {r : Request ε α} {f : α → β} {p' : β → List Moment → Prop}
    (h : r.Keeps rules me past p) (hf : ∀ a past', p a past' → p' (f a) past') :
    (r >>= fun a => pure (f a)).Keeps rules me past p' :=
  h.bind fun a past' _ ha => keeps_pure (hf a past' ha)

theorem Keeps.attempt {r : Request ε α} (h : r.Keeps rules me past p) :
    (r.attempt : Request δ (Except ε α)).Keeps rules me past
      fun result past => ∀ a, result = .ok a → p a past :=
  fun now hvalid => (h now hvalid).attempted

/-- An action does what the client may do; its result is known from then on, with the moment at
which it happened. -/
theorem keeps_act {f : World → α × World}
    (h : ∀ now, rules.valid past now → rules.guarantee me past now (f now).2 ∧
      ∀ past', (⟨some me, now, (f now).2⟩ :: past) <:+ past' → p (f now).1 past') :
    (act f : Request ε α).Keeps rules me past p := by
  intro now hvalid
  obtain ⟨hguarantee, hp⟩ := h now hvalid
  refine ⟨hguarantee, ?_⟩
  intro past' now' hs _
  refine ⟨rfl, ?_⟩
  intro a ha
  obtain rfl := Except.ok.inj ha
  exact hp past' hs

theorem Keeps.mapAct {f : World → α × World} {p' : β → List Moment → Prop}
    (h : (act f : Request ε α).Keeps rules me past p) (g : α → β)
    (hg : ∀ a past', p a past' → p' (g a) past') :
    (act fun w => (g (f w).1, (f w).2) : Request ε β).Keeps rules me past p' := by
  intro now hvalid
  obtain ⟨hguarantee, hrest⟩ := h now hvalid
  refine ⟨hguarantee, ?_⟩
  intro past' now' hs hv
  refine ⟨rfl, ?_⟩
  intro b hb
  obtain rfl := Except.ok.inj hb
  exact hg _ past' ((hrest past' now' hs hv).2 _ rfl)

/-- While a question is open the past grows, and the answer was heard. -/
theorem keeps_ask (q : Query) :
    (ask q : Request ε q.Reply).Keeps rules me past fun r past => me.Heard rules.answers past q r := by
  intro now hvalid
  refine ⟨rfl, ?_⟩
  intro past' now' r hs _ hr
  refine ⟨rfl, ?_⟩
  intro a ha
  obtain rfl := Except.ok.inj ha
  exact ⟨_, past, past'.length, hs, rfl, hs.length_le, Nat.le_refl _, hr⟩

end Request

namespace Step

variable (rules me) in
/-- A request that was left in some past and keeps to the rules when it goes on, whatever was added
to that past. -/
def Waits (p : α → List Moment → Prop) : Step ε α → List Moment → Prop
  | done r _, past => ∃ past₀, past₀ <:+ past ∧ ∀ a, r = .ok a → p a past₀
  | acted _ resume, past => ∀ past' now', past <:+ past' → rules.valid past' now' →
      (resume now').Meets rules me p past' now'
  | ask _ q resume, past => ∀ past' now' r, past <:+ past' → rules.valid past' now' →
      rules.answers past'.length q r → (resume r now').Meets rules me p past' now'

variable {past past' : List Moment} {now : World} {p : α → List Moment → Prop}

theorem Waits.grown {step : Step ε α} (h : step.Waits rules me p past) (hp : past <:+ past') :
    step.Waits rules me p past' := by
  cases step with
  | done r w =>
    obtain ⟨past₀, hs, hr⟩ := h
    exact ⟨past₀, hs.trans hp, hr⟩
  | acted w resume => exact fun past'' now' hs => h past'' now' (hp.trans hs)
  | ask w q resume => exact fun past'' now' r hs => h past'' now' r (hp.trans hs)

theorem Meets.waits {step : Step ε α} (h : step.Meets rules me p past now) :
    step.Waits rules me p (⟨some me, now, step.world⟩ :: past) := by
  cases step with
  | done r w => exact ⟨past, List.suffix_cons _ _, h.2⟩
  | acted w resume => exact fun past' now' hs => h.2 past' now' hs
  | ask w q resume => exact fun past' now' r hs => h.2 past' now' r (h.1 ▸ hs)

/-- A request that was left goes on in whatever world it finds. -/
theorem Waits.resumes {step step' : Step ε α} (h : step.Waits rules me p past)
    (hvalid : rules.valid past now) (hr : step.Resumes (rules.answers past.length) now step') :
    step'.Meets rules me p past now := by
  cases hr with
  | acted left resume => exact h past now (List.suffix_refl past) hvalid
  | answered left q resume r hq => exact h past now r (List.suffix_refl past) hvalid hq

theorem Meets.leaves {step : Step ε α} (h : step.Meets rules me p past now) :
    step.world = now ∨ rules.guarantee me past now step.world := by
  cases step with
  | done r w => exact Or.inl h.1
  | acted w resume => exact Or.inr h.1
  | ask w q resume => exact Or.inl h.1

end Step

inductive Moment.Keeps (rules : Rules) : Moment → List Moment → Prop
  | idle (me : Client) (past : List Moment) (now : World) (hvalid : rules.valid past now) :
      Keeps rules ⟨some me, now, now⟩ past
  | own (me : Client) (past : List Moment) (now next : World) (hvalid : rules.valid past now)
      (hguarantee : rules.guarantee me past now next) : Keeps rules ⟨some me, now, next⟩ past
  | received (past : List Moment) (now : World) (channel : Channel)
      (hvalid : rules.valid past now) : Keeps rules ⟨none, now, { now with channel }⟩ past

theorem Moment.Keeps.valid {m : Moment} {past : List Moment} (h : m.Keeps rules past) :
    rules.valid past m.before := by
  cases h with
  | idle me past now hvalid => exact hvalid
  | own me past now next hvalid _ => exact hvalid
  | received past now channel hvalid => exact hvalid

/-- All moments that are admitted keep the rules valid. -/
def Rules.Preserved (rules : Rules) (admits : World → Prop) : Prop :=
  ∀ m past, m.Keeps rules past → admits m.after → rules.valid (m :: past) m.after

/-- If all calls keep to the rules and all moments preserve them, the rules are valid throughout the
run, every request that was sent keeps to them, and so did every moment. -/
theorem Run.sound {settings : Settings} {start : World} {past : List Moment} {s : Server}
    {admits : World → Prop} {p : Client → Answer → List Moment → Prop}
    (run : Run settings rules.answers start past s) (hstart : rules.valid [] start)
    (hpreserved : rules.Preserved admits) (hadmits : ∀ m ∈ past, admits m.after)
    (hcalls : ∀ (me : Client) past,
      (me.call.request settings me.caller).Keeps rules me past (p me)) :
    rules.valid past s.world ∧
      (∀ task ∈ s.tasks, task.step.Waits rules task.client (p task.client) past) ∧
      ∀ m earlier, (m :: earlier) <:+ past → m.Keeps rules earlier := by
  induction run with
  | start => exact ⟨hstart, by simp, by simp⟩
  | @next past s s' mover run move ih =>
    obtain ⟨hvalid, htasks, hmoments⟩ := ih fun m hm => hadmits m (List.mem_cons_of_mem _ hm)
    have admitted : admits s'.world := hadmits _ List.mem_cons_self
    have others (moment : Moment) {task : Task} (ht : task ∈ s.tasks) :
        task.step.Waits rules task.client (p task.client) (moment :: past) :=
      (htasks task ht).grown (List.suffix_cons _ _)
    -- the moment at which a request moved
    have moved {me : Client} {step : Step ServiceError Answer}
        (hm : step.Meets rules me (p me) past s.world) :
        Moment.Keeps rules ⟨some me, s.world, step.world⟩ past := by
      rcases hm.leaves with same | hg
      · rw [same]
        exact .idle me past s.world hvalid
      · exact .own me past s.world step.world hvalid hg
    have now_last {m : Moment} (hm : m.Keeps rules past) :
        ∀ m' earlier, (m' :: earlier) <:+ (m :: past) → m'.Keeps rules earlier := by
      intro m' earlier hs
      rcases List.suffix_cons_iff.mp hs with heq | hs
      · obtain ⟨rfl, rfl⟩ := List.cons.inj heq
        exact hm
      · exact hmoments m' earlier hs
    cases move with
    | enter caller call =>
      have meets := hcalls ⟨s.tasks.length, caller, call⟩ past s.world hvalid
      refine ⟨hpreserved _ _ (moved meets) admitted, ?_, now_last (moved meets)⟩
      intro task ht
      rcases List.mem_append.mp ht with ht | ht
      · exact others _ ht
      · rw [List.mem_singleton.mp ht]
        exact meets.waits
    | goOn i task step hi hr =>
      have meets := (htasks task (List.mem_of_getElem? hi)).resumes hvalid hr
      refine ⟨hpreserved _ _ (moved meets) admitted, ?_, now_last (moved meets)⟩
      intro task' ht
      rcases List.mem_or_eq_of_mem_set ht with ht | rfl
      · exact others _ ht
      · exact meets.waits
    | receive =>
      have keeps := Moment.Keeps.received past s.world s.world.channel.receive.2 hvalid
      exact ⟨hpreserved _ _ keeps admitted, fun task ht => others _ ht, now_last keeps⟩
    | close =>
      have keeps := Moment.Keeps.received past s.world s.world.channel.close hvalid
      exact ⟨hpreserved _ _ keeps admitted, fun task ht => others _ ht, now_last keeps⟩

/-- What holds at first and is kept by each moment holds in the end. -/
theorem Run.invariant {settings : Settings} {answers : Nat → (q : Query) → q.Reply → Prop}
    {start : World} {past : List Moment} {s : Server} {I : World → Prop}
    (run : Run settings answers start past s) (hstart : I start)
    (hstep : ∀ m earlier, (m :: earlier) <:+ past → I m.before → I m.after) :
    I s.world := by
  induction run with
  | start => exact hstart
  | @next past s s' mover run move ih =>
    refine hstep ⟨mover, s.world, s'.world⟩ past (List.suffix_refl _) (ih ?_)
    intro m earlier hs
    exact hstep m earlier (hs.trans (List.suffix_cons _ _))

theorem Run.invariant_after {settings : Settings} {answers : Nat → (q : Query) → q.Reply → Prop}
    {start : World} {past : List Moment} {s : Server} {I : World → Prop}
    (run : Run settings answers start past s) (hstart : I start)
    (hstep : ∀ m earlier, (m :: earlier) <:+ past → I m.before → I m.after) :
    ∀ m ∈ past, I m.after := by
  induction run with
  | start => simp
  | @next past s s' mover run move ih =>
    intro m hm
    have earlier : ∀ m earlier, (m :: earlier) <:+ past → I m.before → I m.after :=
      fun m earlier hs => hstep m earlier (hs.trans (List.suffix_cons _ _))
    rcases List.mem_cons.mp hm with rfl | hm
    · exact hstep _ past (List.suffix_refl _) (run.invariant hstart earlier)
    · exact ih earlier m hm

/-- Between a moment after which something holds and the end of the run, where it does not hold, there
is a moment at which it ceased to hold. -/
theorem Run.turning {settings : Settings} {answers : Nat → (q : Query) → q.Reply → Prop}
    {start : World} {past earlier : List Moment} {m : Moment} {s : Server} {I : World → Prop}
    (run : Run settings answers start past s) (hs : (m :: earlier) <:+ past) (hm : I m.after)
    (hend : ¬I s.world) : ∃ m' earlier', (m' :: earlier') <:+ past ∧ (m :: earlier) <:+ earlier' ∧
      I m'.before ∧ ¬I m'.after := by
  induction run with
  | start => simp at hs
  | @next past s s' mover run move ih =>
    rcases List.suffix_cons_iff.mp hs with heq | hs
    · obtain ⟨rfl, -⟩ := List.cons.inj heq
      exact absurd hm hend
    · by_cases hI : I s.world
      · exact ⟨⟨mover, s.world, s'.world⟩, past, List.suffix_refl _, hs, hI, hend⟩
      · obtain ⟨m', earlier', hs', hbetween⟩ := ih hs hI
        exact ⟨m', earlier', hs'.trans (List.suffix_cons _ _), hbetween⟩

end DatasetFilters
