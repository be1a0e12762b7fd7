import DatasetFilters.Service.Blueprints

namespace DatasetFilters

theorem Step.andThen_pure (step : Step ε α) : step.andThen (pure : α → Request ε α) = step := by
  induction step with
  | done r w => cases r <;> rfl
  | acted w resume ih => exact congrArg (Step.acted w) (funext ih)
  | ask w q resume ih => exact congrArg (Step.ask w q) (funext fun r => funext (ih r))

theorem Step.andThen_andThen (step : Step ε α) (f : α → Request ε β) (g : β → Request ε γ) :
    (step.andThen f).andThen g = step.andThen fun a w => (f a w).andThen g := by
  induction step with
  | done r w => cases r <;> rfl
  | acted w resume ih => exact congrArg (Step.acted w) (funext ih)
  | ask w q resume ih => exact congrArg (Step.ask w q) (funext fun r => funext (ih r))

instance : LawfulMonad (Request ε) :=
  .mk' (Request ε) (fun r => funext fun w => (r w).andThen_pure) (fun _ _ => rfl)
    fun r f g => funext fun w => (r w).andThen_andThen f g

namespace Blueprints

/-- An update up to what it is to change: the blueprint as it is stored, and the change. -/
def revision (settings : Settings) (id : String) (u : BlueprintUpdate) (selector : Selector)
    (caller : Caller) : Request ServiceError (Blueprint × BlueprintChange) := do
  let current ← Request.read (·.getFilter id selector)
  if !(u.forbidden current).isEmpty then Request.fail (.forbidden (u.forbidden current))
  else
    let events ← Request.ofExcept u.validEvents
    let move ← match u.newVersion? current with
      | some version => moveTo settings current version caller
      | none => pure {}
    return (current, { move with events })

/-- The change of an update is made, if it is one. -/
def revise (id : String) (current : Blueprint) (change : BlueprintChange) :
    Request ServiceError Blueprint :=
  if change.isEmpty then pure current
  else Request.write fun s t => s.updateFilter t id change (.exact current.etag)

/-- A blueprint is submitted in the end, if the request is to. -/
def submitIf (andSubmit : Bool) (b : Blueprint) : Request ServiceError Blueprint :=
  if andSubmit then submit b else pure b

/-- Creating and submitting is creating, then submitting. -/
theorem create_submitting (settings : Settings) (r : NewBlueprint) (caller : Caller) :
    create settings r true caller = create settings r false caller >>= submit := by
  simp [create]

/-- An update reads, checks and revises, and is refused in between if it is to submit what is
submitted already. -/
theorem update_eq (settings : Settings) (id : String) (u : BlueprintUpdate) (andSubmit : Bool)
    (selector : Selector) (caller : Caller) :
    update settings id u andSubmit selector caller =
      revision settings id u selector caller >>= fun p =>
        if andSubmit && p.1.isSubmitted then Request.fail (.alreadySubmitted p.1.id)
        else revise id p.1 p.2 >>= submitIf andSubmit := by
  simp only [update, revision, bind_assoc]
  refine bind_congr fun current => ?_
  by_cases forbidden : (!(u.forbidden current).isEmpty) = true
  · rw [if_pos forbidden, if_pos forbidden]
    rfl
  · rw [if_neg forbidden, if_neg forbidden]
    simp only [bind_assoc]
    refine bind_congr fun events => ?_
    have finishes (change : BlueprintChange) :
        (if andSubmit && current.isSubmitted then Request.fail (.alreadySubmitted current.id)
          else if change.isEmpty then pure current >>= submitIf andSubmit
          else (Request.write fun s t => s.updateFilter t id change (.exact current.etag)) >>=
            submitIf andSubmit) =
        if andSubmit && current.isSubmitted then Request.fail (.alreadySubmitted current.id)
          else revise id current change >>= submitIf andSubmit := by
      unfold revise
      cases change.isEmpty <;> rfl
    cases u.newVersion? current with
    | none => exact finishes { events }
    | some version =>
      simp only [bind_assoc]
      refine bind_congr fun move => ?_
      exact finishes { move with events }

/-- An update that is to submit, up to the submission. -/
def edition (settings : Settings) (id : String) (u : BlueprintUpdate) (selector : Selector)
    (caller : Caller) : Request ServiceError Blueprint :=
  revision settings id u selector caller >>= fun p =>
    if p.1.isSubmitted then Request.fail (.alreadySubmitted p.1.id) else revise id p.1 p.2

theorem update_submitting (settings : Settings) (id : String) (u : BlueprintUpdate)
    (selector : Selector) (caller : Caller) :
    update settings id u true selector caller = edition settings id u selector caller >>= submit := by
  rw [update_eq, edition, bind_assoc]
  refine bind_congr fun p => ?_
  cases p.1.isSubmitted <;> rfl

theorem update_plain (settings : Settings) (id : String) (u : BlueprintUpdate) (selector : Selector)
    (caller : Caller) : update settings id u false selector caller =
      revision settings id u selector caller >>= fun p => revise id p.1 p.2 := by
  rw [update_eq]
  refine bind_congr fun p => ?_
  rw [Bool.false_and, if_neg Bool.false_ne_true]
  exact bind_pure _

end Blueprints

end DatasetFilters
