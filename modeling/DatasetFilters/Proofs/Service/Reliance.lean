import DatasetFilters.Proofs.Service.Strokes
import Mathlib.Logic.Relation

namespace DatasetFilters

open Relation (ReflTransGen)

variable {moves : World → World → Prop} {allowed : (q : Query) → q.Reply → Prop}

/-- What no move ends. -/
def Lasting (moves : World → World → Prop) (P : World → Prop) : Prop :=
  ∀ w w', moves w w' → P w → P w'

theorem Lasting.of_reach {P : World → Prop} (lasting : Lasting moves P) {w w' : World}
    (reach : ReflTransGen moves w w') (h : P w) : P w' := by
  induction reach with
  | refl => exact h
  | tail _ move ih => exact lasting _ _ move ih

section

variable (moves allowed)

namespace Step

/-- A step that a request takes from a world, as far as its first suspension: it keeps to the moves, and
ends as `Q` has it after at most `n` more suspensions, its questions answered as is allowed. -/
def Relies (Q : α → World → Prop) : Step ε α → Nat → World → Prop
  | done r w, _, now => w = now ∧ ∃ a, r = .ok a ∧ Q a now
  | acted w resume, n, now => moves now w ∧ ∃ k, n = k + 1 ∧
      ∀ w', ReflTransGen moves w w' → (resume w').Relies Q k w'
  | ask w q resume, n, now => w = now ∧ ∃ k, n = k + 1 ∧
      ∀ r, allowed q r → ∀ w', ReflTransGen moves w w' → (resume r w').Relies Q k w'

/-- What a request that was left in such a step still does, as the world is by now. -/
def Awaits (Q : α → World → Prop) : Step ε α → Nat → World → Prop
  | done r _, _, now => ∃ a, r = .ok a ∧ Q a now
  | acted _ resume, n, now => ∃ k, n = k + 1 ∧
      ∀ w', ReflTransGen moves now w' → (resume w').Relies moves allowed Q k w'
  | ask _ q resume, n, now => ∃ k, n = k + 1 ∧
      ∀ r, allowed q r → ∀ w', ReflTransGen moves now w' → (resume r w').Relies moves allowed Q k w'

end Step

/-- A request that, sent in a world as `P` has it, keeps to the moves and, if the others do too, ends as
`Q` has it after at most `n` suspensions. -/
def Request.Relies (P : World → Prop) (n : Nat) (r : Request ε α) (Q : α → World → Prop) : Prop :=
  ∀ w, P w → (r w).Relies moves allowed Q n w

end

variable {P : World → Prop} {Q : α → World → Prop} {n : Nat}

namespace Step

theorem Relies.andThen_pure {step : Step ε α} {now : World} (h : step.Relies moves allowed Q n now)
    {f : α → β} {Q' : β → World → Prop} (hQ : ∀ a w, Q a w → Q' (f a) w) :
    (step.andThen fun a => pure (f a)).Relies moves allowed Q' n now := by
  induction step generalizing n now with
  | done r w =>
    obtain ⟨rfl, a, rfl, h⟩ := h
    exact ⟨rfl, f a, rfl, hQ a w h⟩
  | acted w resume ih =>
    obtain ⟨move, k, hk, h⟩ := h
    exact ⟨move, k, hk, fun w' reach => ih w' (h w' reach)⟩
  | ask w q resume ih =>
    obtain ⟨same, k, hk, h⟩ := h
    exact ⟨same, k, hk, fun r hr w' reach => ih r w' (h r hr w' reach)⟩

theorem Relies.awaits {step : Step ε α} {now : World} (idle : ∀ w, moves w w)
    (h : step.Relies moves allowed Q n now) :
    moves now step.world ∧ step.Awaits moves allowed Q n step.world := by
  cases step with
  | done r w =>
    obtain ⟨rfl, h⟩ := h
    exact ⟨idle w, h⟩
  | acted w resume => exact h
  | ask w q resume =>
    obtain ⟨rfl, h⟩ := h
    exact ⟨idle w, h⟩

/-- What a request still does is not changed by the moves of others. -/
theorem Awaits.lasting (lasting : ∀ a, Lasting moves (Q a)) (step : Step ε α) (n : Nat) :
    Lasting moves (step.Awaits moves allowed Q n) := by
  intro w w' move h
  cases step with
  | done r w₀ =>
    obtain ⟨a, ended, ha⟩ := h
    exact ⟨a, ended, lasting a w w' move ha⟩
  | acted w₀ resume =>
    obtain ⟨k, hk, h⟩ := h
    exact ⟨k, hk, fun w'' reach => h w'' (.head move reach)⟩
  | ask w₀ q resume =>
    obtain ⟨k, hk, h⟩ := h
    exact ⟨k, hk, fun r hr w'' reach => h r hr w'' (.head move reach)⟩

/-- A request that goes on has one suspension behind it. -/
theorem Awaits.resumes {answers : (q : Query) → q.Reply → Prop} {step step' : Step ε α} {now : World}
    (h : step.Awaits moves allowed Q n now) (honest : ∀ q r, answers q r → allowed q r)
    (hr : step.Resumes answers now step') :
    ∃ k, n = k + 1 ∧ step'.Relies moves allowed Q k now := by
  cases hr with
  | acted left resume =>
    obtain ⟨k, hk, h⟩ := h
    exact ⟨k, hk, h now .refl⟩
  | answered left q resume r hq =>
    obtain ⟨k, hk, h⟩ := h
    exact ⟨k, hk, h r (honest q r hq) now .refl⟩

end Step

namespace Request

theorem relies_pure {a : α} (h : ∀ w, P w → Q a w) :
    (pure a : Request ε α).Relies moves allowed P n Q :=
  fun w hw => ⟨rfl, a, rfl, h w hw⟩

/-- An action, and what follows it once the others have moved too. -/
theorem relies_act {f : World → α × World} {g : α → Request ε β} {M : α → World → Prop}
    {Q : β → World → Prop} (acts : ∀ w, P w → moves w (f w).2 ∧ M (f w).1 (f w).2)
    (lasting : ∀ a, Lasting moves (M a)) (goesOn : ∀ a, (g a).Relies moves allowed (M a) n Q) :
    (act f >>= g).Relies moves allowed P (n + 1) Q := by
  intro w hw
  obtain ⟨move, hM⟩ := acts w hw
  exact ⟨move, n, rfl, fun w' reach => goesOn _ w' ((lasting _).of_reach reach hM)⟩

/-- An access to the store that succeeds. -/
theorem relies_access {f : Store → Except δ α × Store} {g : Except δ α → Request ε β}
    {M : α → World → Prop} {Q : β → World → Prop}
    (succeeds : ∀ w, P w → ∃ a store, f w.store = (.ok a, store) ∧ moves w { w with store } ∧
      M a { w with store })
    (lasting : ∀ a, Lasting moves (M a)) (goesOn : ∀ a, (g (.ok a)).Relies moves allowed (M a) n Q) :
    (access f >>= g).Relies moves allowed P (n + 1) Q := by
  intro w hw
  obtain ⟨a, store, accessed, move, hM⟩ := succeeds w hw
  have acts : (access f : Request ε _) w =
      .acted { w with store } fun w' => .done (.ok (.ok a)) w' := by
    simp only [access, act, accessed]
  change ((access f w).andThen g).Relies moves allowed Q (n + 1) w
  rw [acts]
  exact ⟨move, n, rfl, fun w' reach => goesOn a w' ((lasting a).of_reach reach hM)⟩

/-- A question is one more suspension, and whatever lasts is still there after it. -/
theorem relies_ask {q : Query} {g : q.Reply → Request ε β} {Q : β → World → Prop}
    (lasting : Lasting moves P) (goesOn : ∀ r, allowed q r → (g r).Relies moves allowed P n Q) :
    (ask q >>= g).Relies moves allowed P (n + 1) Q :=
  fun _ hw => ⟨rfl, n, rfl, fun r hr w' reach => goesOn r hr w' (lasting.of_reach reach hw)⟩

theorem Relies.reply {r : Request ε α} (h : r.Relies moves allowed P n Q) {f : α → β}
    {Q' : β → World → Prop} (hQ : ∀ a w, Q a w → Q' (f a) w) :
    (r >>= fun a => pure (f a)).Relies moves allowed P n Q' :=
  fun w hw => (h w hw).andThen_pure hQ

end Request

variable {settings : Settings} {answers : Nat → (q : Query) → q.Reply → Prop} {start : World}
  {past : List Moment} {s : Server} {Q : Answer → World → Prop}

/-- While all clients of a run keep to the moves, each of their requests has ended as it should, or goes
on to do so, with as many suspensions to come as are left to it. -/
theorem Run.relies {kind : Client → Prop} (idle : ∀ w w', w'.store = w.store → moves w w')
    (honest : ∀ n q r, answers n q r → allowed q r) (lasting : ∀ a, Lasting moves (Q a))
    (each : ∀ me, kind me → (me.call.request settings me.caller).Relies moves allowed
      (ReflTransGen moves start) n Q)
    (run : Run settings answers start past s)
    (kinds : ∀ me step, s.tasks[me.place]? = some ⟨me, step⟩ → kind me) :
    (ReflTransGen moves start s.world ∧ ∀ m ∈ past, moves m.before m.after) ∧
      ∀ (me : Client) (step : Step ServiceError Answer), s.tasks[me.place]? = some ⟨me, step⟩ →
        ∃ k, step.Awaits moves allowed Q k s.world ∧ k + (me.own past).length ≤ n + 1 := by
  induction run with
  | start => exact ⟨⟨.refl, by simp⟩, by simp⟩
  | @next past s s' mover run move ih =>
    obtain ⟨placed, -⟩ := run.placed
    rcases move.of_client placed with ⟨rfl, same⟩ | ⟨you, step', rfl, left, here, others, before⟩
    · obtain ⟨⟨reach, earlier⟩, awaits⟩ := ih fun me step sent => kinds me step (same ▸ sent)
      have moved : moves s.world s'.world := idle _ _ move.ofReceiver.store
      refine ⟨⟨reach.tail moved, List.forall_mem_cons.mpr ⟨moved, earlier⟩⟩, fun me step sent => ?_⟩
      obtain ⟨k, hk, bound⟩ := awaits me step (same ▸ sent)
      rw [Client.own_cons_of_ne (by simp)]
      exact ⟨k, .lasting lasting step k _ _ moved hk, bound⟩
    · -- whoever was there before is there still
      have kinds' : ∀ me step, s.tasks[me.place]? = some ⟨me, step⟩ → kind me := by
        intro me step sent
        by_cases hplace : me.place = you.place
        · rcases before with ⟨free, -⟩ | ⟨old, hold, -⟩
          · simp [hplace, free] at sent
          · rw [hplace, hold, Option.some.injEq] at sent
            exact (Task.mk.inj sent).1 ▸ kinds you step' here
        · exact kinds me step ((others _ hplace).trans sent)
      obtain ⟨⟨reach, earlier⟩, awaits⟩ := ih kinds'
      obtain ⟨k, relies, bound⟩ : ∃ k, step'.Relies moves allowed Q k s.world ∧
          k + (you.own past).length ≤ n := by
        rcases before with ⟨free, rfl⟩ | ⟨old, hold, resumes⟩
        · rw [run.own_eq_nil free]
          exact ⟨n, each you (kinds you _ here) s.world reach, Nat.le_refl n⟩
        · obtain ⟨k, hk, bound⟩ := awaits you old hold
          obtain ⟨j, rfl, relies⟩ := hk.resumes (honest past.length) resumes
          exact ⟨j, relies, by omega⟩
      obtain ⟨moved, ends⟩ := relies.awaits fun w => idle w w rfl
      rw [left]
      refine ⟨⟨reach.tail moved, List.forall_mem_cons.mpr ⟨moved, earlier⟩⟩, fun me step sent => ?_⟩
      by_cases hplace : me.place = you.place
      · rw [hplace, here, Option.some.injEq] at sent
        obtain ⟨rfl, rfl⟩ := Task.mk.inj sent
        rw [Client.own_cons_self, List.length_cons]
        exact ⟨k, ends, by omega⟩
      · obtain ⟨j, hj, bound'⟩ := awaits me step ((others _ hplace).symm.trans sent)
        have other : some you ≠ some me := fun h =>
          hplace (congrArg Client.place (Option.some.inj h)).symm
        rw [Client.own_cons_of_ne other]
        exact ⟨j, .lasting lasting step j _ _ moved hj, bound'⟩

end DatasetFilters
