import DatasetFilters.Proofs.Service.Visibility

namespace DatasetFilters

/-- The moments at which a client moved. -/
def Client.own (me : Client) (past : List Moment) : List Moment :=
  past.filter fun m => m.mover = some me

@[simp] theorem Client.own_cons_self (me : Client) (before after : World) (past : List Moment) :
    me.own (⟨some me, before, after⟩ :: past) = ⟨some me, before, after⟩ :: me.own past := by
  simp [own]

theorem Client.own_cons_of_ne {me : Client} {m : Moment} (h : m.mover ≠ some me)
    (past : List Moment) : me.own (m :: past) = me.own past := by
  simp [own, h]

/-- What the moments of a client are judged by: what is given of them, what is to hold of them all
along, what besides whenever the request asks, and what when it fails. -/
structure Terms (ε : Type) where
  given : List Moment → Prop
  always : List Moment → Prop
  asking : List Moment → Prop
  failed : ε → List Moment → Prop

/-- The terms that only say what holds when a request fails, for whatever reason. -/
abbrev Terms.ofFailed (failed : List Moment → Prop) : Terms ε where
  given _ := True
  always _ := True
  asking _ := True
  failed _ := failed

instance : Coe (List Moment → Prop) (Terms ε) := ⟨Terms.ofFailed⟩

variable {terms : Terms ε} {failed : List Moment → Prop} {me : Client} {own : List Moment}

namespace Step

variable (terms me) in
/-- A request under way that ends, after its client has moved on, as `p` has it, or fails as the terms
have it. -/
def Accounts (p : α → List Moment → Prop) : Step ε α → List Moment → World → Prop
  | done (.ok a) w, own, now => w = now ∧ p a own
  | done (.error e) w, own, now => w = now ∧ terms.failed e own
  | acted w resume, own, now => terms.given (⟨some me, now, w⟩ :: own) →
      terms.always (⟨some me, now, w⟩ :: own) ∧ ∀ now', now'.store.Sound →
        (resume now').Accounts p (⟨some me, now, w⟩ :: own) now'
  | ask w _ resume, own, now => w = now ∧ (terms.given (⟨some me, now, w⟩ :: own) →
      (terms.always (⟨some me, now, w⟩ :: own) ∧ terms.asking (⟨some me, now, w⟩ :: own)) ∧
        ∀ r now', now'.store.Sound → (resume r now').Accounts p (⟨some me, now, w⟩ :: own) now')

variable {p : α → List Moment → Prop} {now : World}

theorem Accounts.andThen {step : Step ε α} {f : α → Request ε β} {p' : β → List Moment → Prop}
    (h : step.Accounts terms me p own now) (hnow : now.store.Sound)
    (hf : ∀ a own' now', now'.store.Sound → p a own' → (f a now').Accounts terms me p' own' now') :
    (step.andThen f).Accounts terms me p' own now := by
  induction step generalizing own now with
  | done r w =>
    cases r with
    | ok a =>
      obtain ⟨rfl, hp⟩ := h
      exact hf a own w hnow hp
    | error e => exact h
  | acted w resume ih =>
    intro given
    obtain ⟨always, rest⟩ := h given
    exact ⟨always, fun now' hnow' => ih now' (rest now' hnow') hnow'⟩
  | ask w q resume ih =>
    refine ⟨h.1, fun given => ?_⟩
    obtain ⟨always, rest⟩ := h.2 given
    exact ⟨always, fun r now' hnow' => ih r now' (rest r now' hnow') hnow'⟩

/-- A weaker account, of results and of failures. -/
theorem Accounts.mono {step : Step ε α} {p' : α → List Moment → Prop}
    {failed' : ε → List Moment → Prop} (h : step.Accounts terms me p own now)
    (hp : ∀ a own, p a own → p' a own) (hf : ∀ e own, terms.failed e own → failed' e own) :
    step.Accounts { terms with failed := failed' } me p' own now := by
  induction step generalizing own now with
  | done r w =>
    cases r with
    | ok a => exact ⟨h.1, hp a own h.2⟩
    | error e => exact ⟨h.1, hf e own h.2⟩
  | acted w resume ih =>
    intro given
    obtain ⟨always, rest⟩ := h given
    exact ⟨always, fun now' hnow' => ih now' (rest now' hnow')⟩
  | ask w q resume ih =>
    refine ⟨h.1, fun given => ?_⟩
    obtain ⟨always, rest⟩ := h.2 given
    exact ⟨always, fun r now' hnow' => ih r now' (rest r now' hnow')⟩

/-- What further moments leave true is still true when the request ends. -/
theorem Accounts.keeping {step : Step ε α} {kept : List Moment → Prop}
    (later : ∀ m own, kept own → kept (m :: own)) (h : step.Accounts terms me p own now)
    (holds : kept own) : step.Accounts terms me (fun a own => kept own ∧ p a own) own now := by
  induction step generalizing own now with
  | done r w =>
    cases r with
    | ok a => exact ⟨h.1, holds, h.2⟩
    | error e => exact h
  | acted w resume ih =>
    intro given
    obtain ⟨always, rest⟩ := h given
    exact ⟨always, fun now' hnow' => ih now' (rest now' hnow') (later _ _ holds)⟩
  | ask w q resume ih =>
    refine ⟨h.1, fun given => ?_⟩
    obtain ⟨always, rest⟩ := h.2 given
    exact ⟨always, fun r now' hnow' => ih r now' (rest r now' hnow') (later _ _ holds)⟩

/-- What is said of results and of failures, said of the result that a failure has become. -/
def Outcome (p : α → List Moment → Prop) (failed : ε → List Moment → Prop) :
    Except ε α → List Moment → Prop
  | .ok a => p a
  | .error e => failed e

theorem Accounts.attempted {step : Step ε α} {failed' : δ → List Moment → Prop}
    (h : step.Accounts terms me p own now) :
    (step.mapResult (Except.ok : _ → Except δ _)).Accounts { terms with failed := failed' } me
      (Outcome p terms.failed) own now := by
  induction step generalizing own now with
  | done r w => cases r <;> exact h
  | acted w resume ih =>
    intro given
    obtain ⟨always, rest⟩ := h given
    exact ⟨always, fun now' hnow' => ih now' (rest now' hnow')⟩
  | ask w q resume ih =>
    refine ⟨h.1, fun given => ?_⟩
    obtain ⟨always, rest⟩ := h.2 given
    exact ⟨always, fun r now' hnow' => ih r now' (rest r now' hnow')⟩

end Step

namespace Request

variable (terms me) in
/-- A request that, sent after some moments of its client, ends as `p` has it or fails as the terms
have it, whatever others do to the world in between. -/
def Accounts (own : List Moment) (p : α → List Moment → Prop) (r : Request ε α) : Prop :=
  ∀ now, now.store.Sound → (r now).Accounts terms me p own now

variable {p : α → List Moment → Prop}

theorem accounts_pure {a : α} (h : p a own) : (pure a : Request ε α).Accounts terms me own p :=
  fun _ _ => ⟨rfl, h⟩

theorem accounts_fail (e : ε) (h : terms.failed e own) :
    (fail e : Request ε α).Accounts terms me own p :=
  fun _ _ => ⟨rfl, h⟩

/-- A result that is known; the account of a failure may depend on why it is one. -/
theorem accounts_result {r : Except ε α} (h : ∀ a, r = .ok a → p a own)
    (hf : ∀ e, r = .error e → terms.failed e own) : (ofExcept r).Accounts terms me own p := by
  intro now _
  cases r with
  | ok a => exact ⟨rfl, h a rfl⟩
  | error e => exact ⟨rfl, hf e rfl⟩

theorem accounts_ite {c : Prop} [Decidable c] {r r' : Request ε α}
    (h : c → r.Accounts terms me own p) (h' : ¬c → r'.Accounts terms me own p) :
    (if c then r else r').Accounts terms me own p := by
  by_cases hc : c
  · rw [if_pos hc]
    exact h hc
  · rw [if_neg hc]
    exact h' hc

theorem Accounts.bind {r : Request ε α} {f : α → Request ε β} {p' : β → List Moment → Prop}
    (h : r.Accounts terms me own p)
    (hf : ∀ a own', p a own' → (f a).Accounts terms me own' p') :
    (r >>= f).Accounts terms me own p' :=
  fun now hnow => (h now hnow).andThen hnow fun a own' now' hnow' ha => hf a own' ha now' hnow'

/-- What a request gives is put in another form. -/
theorem Accounts.reply {r : Request ε α} (h : r.Accounts terms me own p) (f : α → β) :
    (r >>= fun a => pure (f a)).Accounts terms me own fun _ _ => True :=
  h.bind fun _ _ _ => accounts_pure trivial

theorem Accounts.mono {r : Request ε α} {p' : α → List Moment → Prop}
    {failed' : ε → List Moment → Prop} (h : r.Accounts terms me own p)
    (hp : ∀ a own, p a own → p' a own) (hf : ∀ e own, terms.failed e own → failed' e own) :
    r.Accounts { terms with failed := failed' } me own p' :=
  fun now hnow => (h now hnow).mono hp hf

theorem Accounts.weaken {r : Request ε α} {p' : α → List Moment → Prop}
    (h : r.Accounts terms me own p) (hp : ∀ a own, p a own → p' a own) :
    r.Accounts terms me own p' :=
  h.mono hp fun _ _ h => h

theorem Accounts.keeping {r : Request ε α} {kept : List Moment → Prop}
    (later : ∀ m own, kept own → kept (m :: own)) (h : r.Accounts terms me own p)
    (holds : kept own) : r.Accounts terms me own fun a own => kept own ∧ p a own :=
  fun now hnow => (h now hnow).keeping later holds

theorem Accounts.attempt {r : Request ε α} {failed' : δ → List Moment → Prop}
    (h : r.Accounts terms me own p) : (r.attempt : Request δ (Except ε α)).Accounts
      { terms with failed := failed' } me own (Step.Outcome p terms.failed) :=
  fun now hnow => (h now hnow).attempted

/-- An action; what is given is given of its moment too. -/
theorem accounts_action {f : World → α × World}
    (h : ∀ now, now.store.Sound → terms.given (⟨some me, now, (f now).2⟩ :: own) →
      terms.always (⟨some me, now, (f now).2⟩ :: own) ∧ p (f now).1 (⟨some me, now, (f now).2⟩ :: own)) :
    (act f : Request ε α).Accounts terms me own p := by
  intro now hnow given
  obtain ⟨always, hp⟩ := h now hnow given
  exact ⟨always, fun _ _ => ⟨rfl, hp⟩⟩

/-- An action is judged by the one moment that it takes, in whatever sound store it finds. -/
theorem accounts_act {f : World → α × World}
    (h : ∀ now, now.store.Sound → p (f now).1 (⟨some me, now, (f now).2⟩ :: own)) :
    (act f : Request ε α).Accounts failed me own p :=
  accounts_action fun now hnow _ => ⟨trivial, h now hnow⟩

theorem accounts_question {q : Query} {p : q.Reply → List Moment → Prop}
    (h : ∀ now, terms.given (⟨some me, now, now⟩ :: own) →
      (terms.always (⟨some me, now, now⟩ :: own) ∧ terms.asking (⟨some me, now, now⟩ :: own)) ∧
        ∀ r, p r (⟨some me, now, now⟩ :: own)) :
    (ask q : Request ε q.Reply).Accounts terms me own p := by
  intro now _
  refine ⟨rfl, fun given => ?_⟩
  obtain ⟨always, hp⟩ := h now given
  exact ⟨always, fun r _ _ => ⟨rfl, hp r⟩⟩

end Request

namespace Step

variable (terms me) in
/-- What is known of a request that was left after moments of its client. -/
def Reports (p : α → List Moment → Prop) : Step ε α → List Moment → Prop
  | done (.ok a) _, own => ∃ now own', own = ⟨some me, now, now⟩ :: own' ∧ p a own'
  | done (.error e) _, own => ∃ now own', own = ⟨some me, now, now⟩ :: own' ∧ terms.failed e own'
  | acted _ resume, own => terms.always own ∧
      ∀ now', now'.store.Sound → (resume now').Accounts terms me p own now'
  | ask _ _ resume, own => (terms.always own ∧ terms.asking own) ∧
      ∀ r now', now'.store.Sound → (resume r now').Accounts terms me p own now'

variable {p : α → List Moment → Prop} {now : World}

theorem Accounts.reports {step : Step ε α} (h : step.Accounts terms me p own now)
    (given : terms.given (⟨some me, now, step.world⟩ :: own)) :
    step.Reports terms me p (⟨some me, now, step.world⟩ :: own) := by
  cases step with
  | done r w =>
    cases r with
    | ok a =>
      obtain ⟨rfl, hp⟩ := h
      exact ⟨w, own, rfl, hp⟩
    | error e =>
      obtain ⟨rfl, hp⟩ := h
      exact ⟨w, own, rfl, hp⟩
  | acted w resume => exact h given
  | ask w q resume => exact h.2 given

theorem Reports.resumes {answers : (q : Query) → q.Reply → Prop} {step step' : Step ε α}
    (h : step.Reports terms me p own) (hnow : now.store.Sound)
    (hr : step.Resumes answers now step') : step'.Accounts terms me p own now := by
  cases hr with
  | acted left resume => exact h.2 now hnow
  | answered left q resume r hq => exact h.2 r now hnow

theorem reply_nonempty (q : Query) : Nonempty q.Reply := by
  cases q with
  | forward => exact ⟨.error ""⟩
  | _ => exact ⟨.error (.transport "")⟩

/-- What holds of the moments of a client whenever its request ends, and held before it moved, holds
of them all along. -/
theorem Accounts.soFar {good : List Moment → Prop} (step : Step ε α)
    (free : ∀ own, terms.given own) (earlier : ∀ m own, good (m :: own) → good own)
    (hf : ∀ e own, terms.failed e own → good own) (hp : ∀ a own, p a own → good own)
    (hnow : now.store.Sound) (h : step.Accounts terms me p own now) : good own := by
  induction step generalizing own now with
  | done r w =>
    cases r with
    | ok a => exact hp a own h.2
    | error e => exact hf e own h.2
  | acted w resume ih => exact earlier _ own (ih now hnow ((h (free _)).2 now hnow))
  | ask w q resume ih =>
    obtain ⟨r⟩ := reply_nonempty q
    exact earlier _ own (ih r now hnow ((h.2 (free _)).2 r now hnow))

theorem Reports.soFar (good : List Moment → Prop) {step : Step ε α}
    (free : ∀ own, terms.given own) (earlier : ∀ m own, good (m :: own) → good own)
    (idle : ∀ now own, good own → good (⟨some me, now, now⟩ :: own))
    (hf : ∀ e own, terms.failed e own → good own) (hp : ∀ a own, p a own → good own)
    (hnow : now.store.Sound) (h : step.Reports terms me p own) : good own := by
  cases step with
  | done r w =>
    cases r with
    | ok a =>
      obtain ⟨now, own, rfl, h⟩ := h
      exact idle now own (hp a own h)
    | error e =>
      obtain ⟨now, own, rfl, h⟩ := h
      exact idle now own (hf e own h)
  | acted w resume => exact (h.2 now hnow).soFar _ free earlier hf hp hnow
  | ask w q resume =>
    obtain ⟨r⟩ := reply_nonempty q
    exact (h.2 r now hnow).soFar _ free earlier hf hp hnow

end Step

/-- Clients are told apart by their places among the tasks. -/
def Server.Placed (s : Server) : Prop :=
  ∀ (i : Nat) (task : Task), s.tasks[i]? = some task → task.client.place = i

variable {settings : Settings}

/-- A move is none of a client, or takes one client from its sending or waiting to its next step and
leaves all others where they are. -/
theorem Server.Moves.of_client {answers : (q : Query) → q.Reply → Prop} {s s' : Server}
    {mover : Option Client} (placed : s.Placed) (move : s.Moves settings answers mover s') :
    (mover = none ∧ s'.tasks = s.tasks) ∨ ∃ me step, mover = some me ∧ s'.world = step.world ∧
      s'.tasks[me.place]? = some ⟨me, step⟩ ∧ (∀ j, j ≠ me.place → s'.tasks[j]? = s.tasks[j]?) ∧
      ((s.tasks[me.place]? = none ∧ step = me.call.request settings me.caller s.world) ∨
        ∃ old, s.tasks[me.place]? = some ⟨me, old⟩ ∧ old.Resumes answers s.world step) := by
  cases move with
  | enter caller call =>
    refine Or.inr ⟨_, _, rfl, rfl, List.getElem?_concat_length, ?_,
      Or.inl ⟨List.getElem?_eq_none (Nat.le_refl _), rfl⟩⟩
    intro j hj
    change j ≠ s.tasks.length at hj
    simp only [List.getElem?_append, List.getElem?_singleton]
    by_cases h : j < s.tasks.length
    · rw [if_pos h]
    · rw [if_neg h, if_neg (by omega), List.getElem?_eq_none (by omega)]
  | goOn i task step hi hr =>
    have here := placed i task hi
    subst here
    obtain ⟨bound, -⟩ := List.getElem?_eq_some_iff.mp hi
    refine Or.inr ⟨_, _, rfl, rfl, List.getElem?_set_self bound, ?_, Or.inr ⟨_, hi, hr⟩⟩
    intro j hj
    exact List.getElem?_set_ne (Ne.symm hj)
  | receive => exact Or.inl ⟨rfl, rfl⟩
  | close => exact Or.inl ⟨rfl, rfl⟩

variable {answers : Nat → (q : Query) → q.Reply → Prop} {past : List Moment} {start : World}
  {s : Server}

/-- In a run clients stand at their places, and whoever moved is there. -/
theorem Run.placed (run : Run settings answers start past s) :
    s.Placed ∧ ∀ m ∈ past, ∀ me, m.mover = some me → ∃ step, s.tasks[me.place]? = some ⟨me, step⟩ := by
  induction run with
  | start =>
    refine ⟨?_, by simp⟩
    intro i task hi
    simp at hi
  | @next past s s' mover run move ih =>
    obtain ⟨placed, movers⟩ := ih
    rcases move.of_client placed with ⟨rfl, same⟩ | ⟨me, step, rfl, -, here, others, before⟩
    · refine ⟨fun i task hi => placed i task (same ▸ hi), ?_⟩
      intro m hm you hyou
      rcases List.mem_cons.mp hm with rfl | hm
      · simp at hyou
      · rw [same]
        exact movers m hm you hyou
    · constructor
      · intro i task hi
        by_cases hplace : i = me.place
        · subst hplace
          rw [here, Option.some.injEq] at hi
          rw [← hi]
        · rw [others i hplace] at hi
          exact placed i task hi
      · intro m hm you hyou
        rcases List.mem_cons.mp hm with rfl | hm
        · obtain rfl := Option.some.inj hyou
          exact ⟨step, here⟩
        · obtain ⟨old, hold⟩ := movers m hm you hyou
          by_cases hplace : you.place = me.place
          · rw [hplace] at hold ⊢
            rcases before with ⟨free, -⟩ | ⟨old', hold', -⟩
            · simp [free] at hold
            · rw [hold', Option.some.injEq] at hold
              exact ⟨step, (Task.mk.inj hold).1 ▸ here⟩
          · exact ⟨old, (others _ hplace).trans hold⟩

/-- Who has no place yet has not moved. -/
theorem Run.own_eq_nil (run : Run settings answers start past s) {me : Client}
    (free : s.tasks[me.place]? = none) : me.own past = [] := by
  refine List.filter_eq_nil_iff.mpr fun m hm hmover => ?_
  obtain ⟨step, hstep⟩ := run.placed.2 m hm me (of_decide_eq_true hmover)
  simp [free] at hstep

/-- What a request accounts for if it is sent before its client has moved, it reports at any time of a
run of all the moments at which its client moved, if of these holds at any time what is given. -/
theorem Run.accounts_on {terms : Terms ServiceError} {p : Answer → List Moment → Prop}
    (run : Run settings answers start past s) (sound : ∀ m ∈ past, m.before.store.Sound) {me : Client}
    (given : ∀ own, own <:+ me.own past → terms.given own) {step : Step ServiceError Answer}
    (sent : s.tasks[me.place]? = some ⟨me, step⟩)
    (accounts : (me.call.request settings me.caller).Accounts terms me [] p) :
    step.Reports terms me p (me.own past) := by
  induction run generalizing step with
  | start => simp at sent
  | @next past s s' mover run move ih =>
    obtain ⟨placed, -⟩ := run.placed
    have hnow : s.world.store.Sound := sound _ List.mem_cons_self
    have earlier : ∀ m ∈ past, m.before.store.Sound := fun m hm => sound m (List.mem_cons_of_mem _ hm)
    have given' : ∀ own, own <:+ me.own past → terms.given own := fun own hs =>
      given own (hs.trans ((List.suffix_cons _ past).filter _))
    rcases move.of_client placed with ⟨rfl, same⟩ | ⟨you, step', rfl, left, here, others, before⟩
    · rw [Client.own_cons_of_ne (by simp)]
      exact ih earlier given' (same ▸ sent)
    · by_cases hplace : me.place = you.place
      · -- the client has moved itself
        rw [hplace, here, Option.some.injEq] at sent
        obtain ⟨rfl, rfl⟩ := Task.mk.inj sent
        rw [left, Client.own_cons_self] at given ⊢
        rcases before with ⟨free, rfl⟩ | ⟨old, hold, resumes⟩
        · rw [run.own_eq_nil free] at given ⊢
          exact (accounts s.world hnow).reports (given _ (List.suffix_refl _))
        · exact ((ih earlier given' hold).resumes hnow resumes).reports (given _ (List.suffix_refl _))
      · have other : some you ≠ some me := fun h =>
          hplace (congrArg Client.place (Option.some.inj h)).symm
        rw [Client.own_cons_of_ne other]
        rw [others _ hplace] at sent
        exact ih earlier given' sent

/-- Each client's own moments in a run are accounted for as if its request were alone. -/
theorem Run.accounts {failed : List Moment → Prop} {p : Answer → List Moment → Prop}
    (run : Run settings answers start past s)
    (sound : ∀ m ∈ past, m.before.store.Sound) {me : Client} {step : Step ServiceError Answer}
    (sent : s.tasks[me.place]? = some ⟨me, step⟩)
    (accounts : (me.call.request settings me.caller).Accounts failed me [] p) :
    step.Reports failed me p (me.own past) :=
  run.accounts_on sound (fun _ _ => trivial) sent accounts

end DatasetFilters
