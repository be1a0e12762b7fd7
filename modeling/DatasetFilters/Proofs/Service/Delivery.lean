import DatasetFilters.Proofs.Output.Artefacts
import DatasetFilters.Proofs.Service.Frame
import DatasetFilters.Proofs.Service.Redaction
import Mathlib.Data.List.Nodup

namespace DatasetFilters

namespace Outputs

variable {answer : (q : Query) → World → σ → q.Reply × World × σ} {t : σ} {settings : Settings}
  {id : String} {u : OutputUpdate} {caller : Caller} {w : World} {o : Output}

section

variable (authenticated : caller.authenticated = true)
include authenticated

theorem run_update {p : Output} {completed : Bool} {store : Store}
    (accessed : w.store.modifyOutput (w.clock w.readings) id ServiceError.ofStore
      (u.apply settings.downloadUrl (w.clock w.readings)) = (.ok (p, completed), store)) :
    ((update settings id u caller) w).run answer t = (.ok (present p caller), { w with
      store
      readings := w.readings + 1
      counters := if completed then w.counters.increment .outputsCompleted else w.counters }, t) := by
  rw [update, authenticated, Bool.not_true, if_neg Bool.false_ne_true, Request.run_bind Request.run_now,
    Request.run_bind (Request.run_access answer t _), accessed]
  cases completed <;> rfl

theorem run_update_of_error {e : ServiceError} {store : Store}
    (accessed : w.store.modifyOutput (w.clock w.readings) id ServiceError.ofStore
      (u.apply settings.downloadUrl (w.clock w.readings)) = (.error e, store)) :
    ((update settings id u caller) w).run answer t =
      (.error e, { w with store, readings := w.readings + 1 }, t) := by
  rw [update, authenticated, Bool.not_true, if_neg Bool.false_ne_true, Request.run_bind Request.run_now,
    Request.run_bind (Request.run_access answer t _), accessed]
  rfl

end

theorem run_update_of_unauthenticated (unauthenticated : caller.authenticated = false) :
    ((update settings id u caller) w).run answer t = (.error .unauthorised, w, t) := by
  rw [update, unauthenticated]
  rfl

/-- An update that is taken in has written what it makes of the stored output. -/
theorem of_run_update {shown : Output} {w' : World} {t' : σ}
    (taken : ((update settings id u caller) w).run answer t = (.ok shown, w', t')) :
    ∃ o p completed stamp written, w.store.output? id = some o ∧
      u.apply settings.downloadUrl (w.clock w.readings) o = .ok (p, completed) ∧
      w'.store.output? id = some { p with stamp, lastUpdated := written } := by
  cases authenticated : caller.authenticated with
  | false => simp [run_update_of_unauthenticated authenticated] at taken
  | true =>
    rcases w.store.modifyOutput_cases (w.clock w.readings) id ServiceError.ofStore
      (u.apply settings.downloadUrl (w.clock w.readings)) with ⟨e, accessed⟩ | ⟨o, p, stored, applied, accessed⟩
    · simp [run_update_of_error authenticated accessed] at taken
    · rw [run_update authenticated accessed, Prod.mk.injEq, Prod.mk.injEq] at taken
      obtain ⟨-, rfl, -⟩ := taken
      exact ⟨o, p.1, p.2, _, _, stored, applied, Store.output?_puttingOutput_self ..⟩

/-- Handing in an update that was taken in once more, when nothing else was made of the output since. -/
theorem update_again (caller' : Caller) {shown : Output} {w₁ v : World} {t₁ : σ}
    (first : ((update settings id u caller) w).run answer t = (.ok shown, w₁, t₁))
    (authenticated : caller'.authenticated = true)
    (same : v.store.output? id = w₁.store.output? id)
    (working : v.store.backend.failure? .modify .outputs = none) :
    ∃ o₁ result v', w₁.store.output? id = some o₁ ∧
      ((update settings id u caller') v).run answer t = (result, v', t) ∧
      v'.channel = v.channel ∧ v'.counters = v.counters ∧
      if o₁.published = some true ∧ u.finals ≠ [] then
        result = .error (.forbidden u.finals) ∧ v.SameDocuments v'
      else ∃ o₂, result = .ok (present o₂ caller') ∧ v'.store.output? id = some o₂ ∧
        o₂.downloads = o₁.downloads ∧ o₂.state = o₁.state ∧ o₂.events = o₁.events := by
  obtain ⟨o, p, completed, stamp, written, -, applied, stored⟩ := of_run_update first
  have accessed := Store.modifyOutput_eq (same.trans stored) (v.clock v.readings) ServiceError.ofStore
    (u.apply settings.downloadUrl (v.clock v.readings))
  rw [working] at accessed
  rw [OutputUpdate.apply_again applied] at accessed
  by_cases refused : p.published = some true ∧ u.finals ≠ []
  · rw [if_pos refused] at accessed
    refine ⟨_, _, _, stored, run_update_of_error authenticated accessed, rfl, rfl, ?_⟩
    rw [if_pos refused]
    exact ⟨rfl, .of_eq rfl rfl⟩
  · rw [if_neg refused] at accessed
    refine ⟨_, _, _, stored, run_update authenticated accessed, rfl, rfl, ?_⟩
    rw [if_neg refused]
    exact ⟨_, rfl, Store.output?_puttingOutput_self .., rfl, rfl, rfl⟩

end Outputs

namespace Small

/-- A published output with one artefact. -/
def issued : Output := { delivery "s3://a" with published := some true }

/-- A world with one output. -/
def offering (o : Output) : World :=
  { world with store := { backend := { outputs := [(o.id, o.encode)] } } }

theorem offering_stores (o : Output) : (offering o).store.output? o.id = some o := by
  rw [Store.output?, offering, Backend.find?, Backend.documents]
  simp [Output.decode?_encode]

/-- A worker delivers the other artefact, with a private link. -/
def spreadsheet : OutputUpdate :=
  { downloads := some { xls := some { size := some "1", privateLink := some "s3://x" } } }

theorem spreadsheet_final : ∃ shown w₁ w₂,
    ((Outputs.update settings "o" spreadsheet known) (offering issued)).run alone () =
      (.ok shown, w₁, ()) ∧
    ((Outputs.update settings "o" spreadsheet known) w₁).run alone () =
      (.error (.forbidden ["downloads.xls.private"]), w₂, ()) ∧ w₁.SameDocuments w₂ := by
  have accessed := Store.modifyOutput_eq (offering_stores issued) default ServiceError.ofStore
    (spreadsheet.apply settings.downloadUrl default)
  rw [show (offering issued).store.backend.failure? .modify .outputs = none from rfl,
    OutputUpdate.apply_eq, if_pos (by decide)] at accessed
  have first : ((Outputs.update settings "o" spreadsheet known) (offering issued)).run alone () = _ :=
    Outputs.run_update rfl accessed
  obtain ⟨o₁, result, w₂, stored, again, -, -, refused⟩ :=
    Outputs.update_again known first rfl rfl rfl
  have published : o₁.published = some true := by
    obtain rfl := Option.some.inj (stored.symm.trans (Store.output?_puttingOutput_self ..))
    rfl
  rw [if_pos ⟨published, by decide⟩] at refused
  obtain ⟨rfl, same⟩ := refused
  exact ⟨_, _, w₂, first, again, same⟩

end Small

/-- What a worker hands in. -/
structure Delivery where
  caller : Caller
  update : OutputUpdate

namespace Delivery

variable {d e : Delivery} {url : String} {o : Output}

/-- What becomes of a delivery to an output. -/
def outcome (d : Delivery) (o : Output) : Except ServiceError Unit :=
  if d.caller.authenticated then
    if d.update.forbidden o = [] then .ok () else .error (.forbidden (d.update.forbidden o))
  else .error .unauthorised

/-- What becomes of an output, times aside. -/
def after (d : Delivery) (url : String) (o : Output) : Output :=
  match d.outcome o with
  | .ok () => (d.update.merge url o).completeIfReady default
  | .error _ => o

theorem after_of_taken (h : d.outcome o = .ok ()) :
    d.after url o = (d.update.merge url o).completeIfReady default := by
  rw [after, h]

theorem after_of_refused {refusal : ServiceError} (h : d.outcome o = .error refusal) :
    d.after url o = o := by
  rw [after, h]

theorem outcome_congr {p : Output} (h : d.update.forbidden o = d.update.forbidden p) :
    d.outcome o = d.outcome p := by
  rw [outcome, outcome, h]

/-- Deliveries that name different artefacts are judged alike in either order. -/
theorem outcome_after (apart : e.update.Apart d.update) : e.outcome (d.after url o) = e.outcome o := by
  cases taken : d.outcome o with
  | error _ => rw [after_of_refused taken]
  | ok _ =>
    rw [after_of_taken taken]
    refine outcome_congr ?_
    rw [← OutputUpdate.forbidden_merge_of_apart url o apart]
    exact OutputUpdate.forbidden_congr (by rw [Output.completeIfReady_eq])
      fun f _ => by rw [Output.completeIfReady_eq]

/-- Deliveries of different artefacts commute. -/
theorem after_comm (apart : d.update.Apart e.update) :
    e.after url (d.after url o) = d.after url (e.after url o) := by
  have hd : d.outcome (e.after url o) = d.outcome o := outcome_after apart
  have he : e.outcome (d.after url o) = e.outcome o := outcome_after apart.symm
  cases taken : d.outcome o with
  | error _ => rw [after_of_refused taken, after_of_refused (hd.trans taken)]
  | ok _ =>
    cases taken' : e.outcome o with
    | error _ => rw [after_of_refused taken', after_of_refused (he.trans taken')]
    | ok _ =>
      -- whichever comes first may complete the output; the other completes it as well
      rw [after_of_taken (he.trans taken'), after_of_taken taken, after_of_taken (hd.trans taken),
        after_of_taken taken', OutputUpdate.complete_merge_complete,
        OutputUpdate.complete_merge_complete, OutputUpdate.merge_comm apart.symm]

/-- An output is completed at most once. -/
theorem completions_after : (d.after url o).completions + o.isCompleted.toNat =
    o.completions + (d.after url o).isCompleted.toNat := by
  cases taken : d.outcome o with
  | error _ => rw [after_of_refused taken]
  | ok _ =>
    have merged : (d.update.merge url o).completions = o.completions ∧
        (d.update.merge url o).isCompleted = o.isCompleted := by
      rw [Output.completions, Output.isCompleted, OutputUpdate.state_events_merge.1,
        OutputUpdate.state_events_merge.2]
      exact ⟨rfl, rfl⟩
    rw [after_of_taken taken, ← merged.1, ← merged.2]
    exact Output.completions_completeIfReady _ default

section

variable {κ : Type}

/-- What becomes of deliveries one after the other, each under its key. -/
def outcomes (ds : κ → Delivery) (url : String) :
    List κ → Output → List (κ × Except ServiceError Unit)
  | [], _ => []
  | k :: keys, o => (k, (ds k).outcome o) :: outcomes ds url keys ((ds k).after url o)

/-- What becomes of the output. -/
def final (ds : κ → Delivery) (url : String) (keys : List κ) (o : Output) : Output :=
  keys.foldl (fun o k => (ds k).after url o) o

/-- The delivery names the artefact of a format. -/
def names (ds : κ → Delivery) (f : DownloadFormat) (k : κ) : Bool := (ds k).update.touches f

/-- Two orders of the same deliveries in which those of one artefact follow each other alike. -/
structure Reordered (ds : κ → Delivery) (first second : List κ) : Prop where
  perm : first.Perm second
  kept : ∀ f, first.filter (names ds f) = second.filter (names ds f)

variable {ds : κ → Delivery} {first second before later : List κ} {key : κ}

section

variable (apart : ∀ k ∈ before, (ds k).update.Apart (ds key).update)
include apart

/-- A delivery may be moved past others that name other artefacts. -/
theorem final_move : final ds url (before ++ key :: later) o =
    final ds url (key :: (before ++ later)) o := by
  induction before generalizing o with
  | nil => rfl
  | cons k before ih =>
    have here := apart k List.mem_cons_self
    calc final ds url (before ++ key :: later) ((ds k).after url o)
      _ = final ds url (before ++ later) ((ds key).after url ((ds k).after url o)) :=
          ih fun k hk => apart k (List.mem_cons_of_mem _ hk)
      _ = final ds url (before ++ later) ((ds k).after url ((ds key).after url o)) := by
          rw [after_comm here]

theorem outcomes_move : (outcomes ds url (before ++ key :: later) o).Perm
    (outcomes ds url (key :: (before ++ later)) o) := by
  induction before generalizing o with
  | nil => exact List.Perm.refl _
  | cons k before ih =>
    have here := apart k List.mem_cons_self
    have moved := ih (o := (ds k).after url o) fun k hk => apart k (List.mem_cons_of_mem _ hk)
    refine (moved.cons _).trans ?_
    simp only [outcomes, List.cons_append, outcome_after here, outcome_after here.symm,
      after_comm here]
    exact List.Perm.swap ..

end

/-- Whatever stands before the delivery that is to come first names no artefact that it names. -/
theorem Reordered.apart (h : Reordered ds (before ++ key :: later) (key :: second))
    (new : key ∉ before) : ∀ k ∈ before, (ds k).update.Apart (ds key).update := by
  intro k hk f touched
  cases named : names ds f key with
  | false => exact named
  | true =>
    -- of the deliveries of this artefact the one to come first is the first, and stands behind
    have kept := h.kept f
    rw [List.filter_append, List.filter_cons_of_pos named, List.filter_cons_of_pos named] at kept
    cases earlier : before.filter (names ds f) with
    | nil => exact absurd (List.mem_filter.mpr ⟨hk, touched⟩) (by rw [earlier]; exact List.not_mem_nil)
    | cons x xs =>
      rw [earlier, List.cons_append, List.cons.injEq] at kept
      have there : x ∈ before.filter (names ds f) := by
        rw [earlier]
        exact List.mem_cons_self
      rw [kept.1] at there
      exact absurd (List.mem_filter.mp there).1 new

/-- What is left of two orders without a common delivery are two orders again. -/
theorem Reordered.rest (h : Reordered ds (before ++ key :: later) (key :: second))
    (apart : ∀ k ∈ before, (ds k).update.Apart (ds key).update) :
    Reordered ds (before ++ later) second := by
  refine ⟨(List.perm_middle.symm.trans h.perm).cons_inv, fun f => ?_⟩
  have kept := h.kept f
  cases named : names ds f key with
  | false =>
    have unnamed : ¬ names ds f key = true := by rw [named]; exact Bool.false_ne_true
    rwa [List.filter_append, List.filter_cons_of_neg unnamed, List.filter_cons_of_neg unnamed,
      ← List.filter_append] at kept
  | true =>
    have none : before.filter (names ds f) = [] :=
      List.filter_eq_nil_iff.mpr fun k hk touched =>
        Bool.false_ne_true (((apart k hk f touched).symm.trans named))
    rw [List.filter_append, none, List.filter_cons_of_pos named, List.filter_cons_of_pos named] at kept
    rw [List.filter_append, none]
    exact (List.cons.inj kept).2

/-- What becomes of several deliveries does not depend on their order, as long as those of one
artefact keep theirs. -/
theorem Reordered.agrees (h : Reordered ds first second) (url : String) (o : Output) :
    final ds url first o = final ds url second o ∧
      (outcomes ds url first o).Perm (outcomes ds url second o) := by
  induction second generalizing first o with
  | nil =>
    obtain rfl := h.perm.eq_nil
    exact ⟨rfl, .refl _⟩
  | cons key second ih =>
    have there : key ∈ first := h.perm.mem_iff.mpr List.mem_cons_self
    -- the delivery to come first is moved there, past others of other artefacts
    obtain ⟨before, later, rfl, new⟩ := List.eq_append_cons_of_mem there
    have apart := h.apart new
    obtain ⟨same, perm⟩ := ih (h.rest apart) ((ds key).after url o)
    exact ⟨(final_move apart).trans same, (outcomes_move apart).trans (perm.cons _)⟩

theorem map_fst_outcomes (url : String) (keys : List κ) (o : Output) :
    (outcomes ds url keys o).map Prod.fst = keys := by
  induction keys generalizing o with
  | nil => rfl
  | cons k keys ih => exact congrArg (k :: ·) (ih _)

/-- Under keys that tell them apart the outcomes are a function of the keys, in either order. -/
theorem exists_verdicts {l l' : List (κ × Except ServiceError Unit)}
    (distinct : (l.map Prod.fst).Nodup) (perm : l.Perm l') :
    ∃ verdicts : κ → Except ServiceError Unit,
      l.map Prod.snd = (l.map Prod.fst).map verdicts ∧
      l'.map Prod.snd = (l'.map Prod.fst).map verdicts := by
  have single (k : κ) : ∃ r, ∀ p ∈ l, p.1 = k → p.2 = r := by
    by_cases h : ∃ p ∈ l, p.1 = k
    · obtain ⟨p, hp, rfl⟩ := h
      exact ⟨p.2, fun q hq same =>
        congrArg Prod.snd (List.inj_on_of_nodup_map distinct hq hp same)⟩
    · exact ⟨.ok (), fun p hp same => absurd ⟨p, hp, same⟩ h⟩
  choose verdicts single using single
  refine ⟨verdicts, ?_, ?_⟩
  all_goals rw [List.map_map]
  · exact List.map_congr_left fun p hp => single p.1 p hp rfl
  · exact List.map_congr_left fun p hp => single p.1 p (perm.mem_iff.mpr hp) rfl

theorem completions_final (ds : κ → Delivery) (url : String) (keys : List κ) (o : Output) :
    (final ds url keys o).completions + o.isCompleted.toNat =
      o.completions + (final ds url keys o).isCompleted.toNat := by
  induction keys generalizing o with
  | nil => rfl
  | cons k keys ih =>
    have here : ((ds k).after url o).completions + o.isCompleted.toNat = _ := completions_after
    have after := ih ((ds k).after url o)
    rw [final, List.foldl_cons, ← final]
    omega

end

end Delivery

namespace Outputs

variable {answer : (q : Query) → World → σ → q.Reply × World × σ} {t : σ} {settings : Settings}
  {id : String} {κ : Type} {ds : κ → Delivery} {w : World} {o : Output}

/-- The request by which a delivery is handed in. -/
def handIn (settings : Settings) (id : String) (d : Delivery) : Request ServiceError Output :=
  update settings id d.update d.caller

/-- Whether a request succeeded, or what it was refused for. -/
def verdict (r : Except ServiceError Output) : Except ServiceError Unit := r.map fun _ => ()

/-- Handing in comes to what is said of the delivery, times aside. -/
theorem run_handIn (works : w.store.Works) (stored : w.store.output? id = some o) (d : Delivery) :
    ∃ r w' p, ((handIn settings id d) w).run answer t = (r, w', t) ∧
      verdict r = d.outcome o.timeless ∧ w'.store.Works ∧ w'.store.output? id = some p ∧
      p.timeless = d.after settings.downloadUrl o.timeless := by
  have forbidden : d.update.forbidden o.timeless = d.update.forbidden o := rfl
  cases authenticated : d.caller.authenticated with
  | false =>
    have refused : d.outcome o.timeless = .error .unauthorised := by
      rw [Delivery.outcome, authenticated, if_neg Bool.false_ne_true]
    refine ⟨_, w, o, run_update_of_unauthenticated authenticated, refused.symm, works, stored, ?_⟩
    rw [Delivery.after_of_refused refused]
  | true =>
    have accessed := Store.modifyOutput_eq stored (w.clock w.readings) ServiceError.ofStore
      (d.update.apply settings.downloadUrl (w.clock w.readings))
    rw [works.failure?, OutputUpdate.apply_eq] at accessed
    by_cases permitted : d.update.forbidden o = []
    · rw [if_pos permitted] at accessed
      have taken : d.outcome o.timeless = .ok () := by
        rw [Delivery.outcome, if_pos authenticated, forbidden, if_pos permitted]
      refine ⟨_, _, _, run_update authenticated accessed, taken.symm, works,
        Store.output?_puttingOutput_self .., ?_⟩
      rw [Delivery.after_of_taken taken, ← OutputUpdate.timeless_merge, ← Output.timeless_completeIfReady]
      rfl
    · rw [if_neg permitted] at accessed
      have refused : d.outcome o.timeless = .error (.forbidden (d.update.forbidden o)) := by
        rw [Delivery.outcome, if_pos authenticated, forbidden, if_neg permitted]
      refine ⟨_, _, o, run_update_of_error authenticated accessed, refused.symm, works, stored, ?_⟩
      rw [Delivery.after_of_refused refused]

variable (answer t settings ds) in
theorem inTurn_handIn (works : w.store.Works) (stored : w.store.output? id = some o) (keys : List κ) :
    ∃ results w' p,
      Request.inTurn answer (keys.map fun k => handIn settings id (ds k)) w t = (results, w', t) ∧
      results.map verdict = (Delivery.outcomes ds settings.downloadUrl keys o.timeless).map Prod.snd ∧
      w'.store.output? id = some p ∧
      p.timeless = Delivery.final ds settings.downloadUrl keys o.timeless := by
  induction keys generalizing w o with
  | nil => exact ⟨[], w, o, rfl, rfl, stored, rfl⟩
  | cons k keys ih =>
    obtain ⟨r, w₁, p₁, ran, outcome, works₁, stored₁, after⟩ := run_handIn works stored (ds k)
    obtain ⟨results, w', p, ran', outcomes, stored', final⟩ := ih works₁ stored₁
    refine ⟨r :: results, w', p, ?_, ?_, stored', by rw [final, after]; rfl⟩
    · rw [List.map_cons, Request.inTurn, ran]
      simp only [ran']
    · rw [List.map_cons, outcome, outcomes, after]
      rfl

variable (answer t) in
/-- The order in which deliveries are handed in does not matter, as long as those of one artefact keep
theirs: each is taken in or refused alike, and the output comes out alike. -/
theorem handIn_order (settings : Settings) {first second : List κ} (distinct : first.Nodup)
    (order : Delivery.Reordered ds first second) {v : World}
    (works : w.store.Works) (works' : v.store.Works)
    (stored : w.store.output? id = some o) (stored' : v.store.output? id = some o) :
    ∃ results results' w' v' p p',
      Request.inTurn answer (first.map fun k => handIn settings id (ds k)) w t = (results, w', t) ∧
      Request.inTurn answer (second.map fun k => handIn settings id (ds k)) v t = (results', v', t) ∧
      (∃ verdicts : κ → Except ServiceError Unit,
        results.map verdict = first.map verdicts ∧ results'.map verdict = second.map verdicts) ∧
      w'.store.output? id = some p ∧ v'.store.output? id = some p' ∧
      p.downloads = p'.downloads ∧ p.state = p'.state ∧ p.completions = p'.completions ∧
      p.completions ≤ o.completions + 1 := by
  obtain ⟨results, w', p, ran, outcomes, there, final⟩ :=
    inTurn_handIn answer t settings ds works stored first
  obtain ⟨results', v', p', ran', outcomes', there', final'⟩ :=
    inTurn_handIn answer t settings ds works' stored' second
  obtain ⟨same, perm⟩ := order.agrees settings.downloadUrl o.timeless
  have alike : p.timeless = p'.timeless := final.trans (same.trans final'.symm)
  have completions := Delivery.completions_final ds settings.downloadUrl first o.timeless
  rw [← final, Output.completions_timeless, Output.completions_timeless] at completions
  have verdicts := Delivery.exists_verdicts (by rwa [Delivery.map_fst_outcomes]) perm
  rw [Delivery.map_fst_outcomes, Delivery.map_fst_outcomes, ← outcomes, ← outcomes'] at verdicts
  refine ⟨results, results', w', v', p, p', ran, ran', verdicts, there, there',
    (congrArg Output.downloads alike :), (congrArg Output.state alike :), ?_, ?_⟩
  · rw [← Output.completions_timeless, alike, Output.completions_timeless]
  · have := p.timeless.isCompleted.toNat_le
    omega

end Outputs

namespace Small

/-- Two workers, one for each artefact. -/
def handed : Bool → Delivery
  | true => ⟨known, spreadsheet⟩
  | false => ⟨known, { downloads := some { csv := some { privateLink := some "s3://c" } } }⟩

/-- The deliveries handed in one after the other. -/
def handing (keys : List Bool) : List (Except ServiceError Output) × World × Unit :=
  Request.inTurn alone (keys.map fun k => Outputs.handIn settings "o" (handed k)) (offering issued) ()

theorem handed_in_either_order : ∃ (verdicts : Bool → Except ServiceError Unit) (p p' : Output),
    (handing [true, false]).1.map Outputs.verdict = [verdicts true, verdicts false] ∧
    (handing [false, true]).1.map Outputs.verdict = [verdicts false, verdicts true] ∧
    (handing [true, false]).2.1.store.output? "o" = some p ∧
    (handing [false, true]).2.1.store.output? "o" = some p' ∧
    p.downloads = p'.downloads ∧ p.state = p'.state ∧ p.completions = p'.completions ∧
    p.completions ≤ issued.completions + 1 := by
  have works : (offering issued).store.Works := fun _ _ _ => rfl
  have order : Delivery.Reordered handed [true, false] [false, true] :=
    ⟨.swap .., fun f => by cases f <;> rfl⟩
  obtain ⟨results, results', w, w', p, p', ran, ran', ⟨verdicts, each, each'⟩, stored, stored', alike⟩ :=
    Outputs.handIn_order alone () settings (by decide) order works works
      (offering_stores issued) (offering_stores issued)
  have first : handing [true, false] = (results, w, ()) := ran
  have second : handing [false, true] = (results', w', ()) := ran'
  rw [first, second]
  exact ⟨verdicts, p, p', each, each', stored, stored', alike⟩

end Small

end DatasetFilters
