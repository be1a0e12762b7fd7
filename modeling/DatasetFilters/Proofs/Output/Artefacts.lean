import DatasetFilters.Proofs.Output.Completion
import DatasetFilters.Proofs.Output.Refusal

namespace DatasetFilters

@[simp] theorem Downloads.set_get? (d : Downloads) (f : DownloadFormat) : d.set f (d.get? f) = d := by
  cases f <;> rfl

theorem ArtefactUpdate.merge_merge (u : ArtefactUpdate) (href : String) (a : Artefact) :
    { u.merge { u.merge a with href } with href } = { u.merge a with href } := by
  have twice {α : Type} (x : Option α) (y : α) : x.getD (x.getD y) = x.getD y := by
    cases x <;> rfl
  simp only [merge, twice]

namespace Output

variable (o : Output) (now : Instant)

/-- Completing an output writes its state and its events. -/
theorem completeIfReady_eq : o.completeIfReady now =
    { o with
      state := (o.completeIfReady now).state
      events := (o.completeIfReady now).events } := by
  rw [completeIfReady]
  split <;> rfl

variable {o} in
theorem completeIfReady_of_done (h : o.completes = false) : o.completeIfReady now = o := by
  rw [completeIfReady, h, if_neg Bool.false_ne_true]

/-- An output is completed once. -/
theorem completes_completeIfReady : (o.completeIfReady now).completes = false := by
  rw [completeIfReady]
  split
  next => rfl
  next h => exact Bool.eq_false_iff.mpr h

/-- An output that becomes completed is reported as completed once more. -/
theorem completions_completeIfReady : (o.completeIfReady now).completions + o.isCompleted.toNat =
    o.completions + (o.completeIfReady now).isCompleted.toNat := by
  cases due : o.completes with
  | false => rw [completeIfReady_of_done now due]
  | true =>
    have open_ : o.isCompleted = false := by
      cases h : o.isCompleted with
      | false => rfl
      | true => exact absurd due (Bool.eq_false_iff.mp (completes_eq_false h))
    rw [completions, events_completeIfReady, isCompleted_completeIfReady, due, open_,
      List.countP_append]
    rfl

/-- An output without the times at which anything happened to it. -/
def timeless : Output :=
  { o with
    events := o.events.map fun e => { e with time := default }
    stamp := 0
    lastUpdated := default }

theorem completions_timeless : o.timeless.completions = o.completions := by
  rw [completions, timeless, List.countP_map]
  rfl

theorem timeless_completeIfReady :
    (o.completeIfReady now).timeless = o.timeless.completeIfReady default := by
  have same : o.timeless.completes = o.completes := rfl
  rw [completeIfReady, completeIfReady, same]
  split
  · simp only [timeless, List.map_append, List.map_cons, List.map_nil]
  · rfl

end Output

namespace OutputUpdate

variable {u v : OutputUpdate} {url : String} {o p : Output}

/-- What is there of a format once the update is taken in. -/
def delivered (u : OutputUpdate) (url : String) (o : Output) (f : DownloadFormat) :
    Option Artefact :=
  match u.artefact? f with
  | none => o.downloads.get? f
  | some change =>
    some { change.merge ((o.downloads.get? f).getD {}) with href := href url o f }

theorem delivered_of_untouched {f : DownloadFormat} (h : u.touches f = false) :
    u.delivered url o f = o.downloads.get? f := by
  rw [delivered, artefact?_of_untouched h]

theorem delivered_congr {f : DownloadFormat} (id : o.id = p.id)
    (same : o.downloads.get? f = p.downloads.get? f) :
    u.delivered url o f = u.delivered url p f := by
  rw [delivered, delivered, href, href, id, same]

theorem mergeFormat_eq (u : OutputUpdate) (url : String) (o : Output) (f : DownloadFormat) :
    u.mergeFormat url o f = { o with downloads := o.downloads.set f (u.delivered url o f) } := by
  rw [mergeFormat, delivered]
  cases u.artefact? f with
  | none => simp
  | some change => rfl

/-- An update replaces the artefacts that it names and nothing else. -/
theorem merge_eq (u : OutputUpdate) (url : String) (o : Output) : u.merge url o =
    { o with downloads := ⟨u.delivered url o .csv, u.delivered url o .xls⟩ } := by
  change u.mergeFormat url (u.mergeFormat url o .csv) .xls = _
  -- taking in one format leaves what the other is made from
  have left : u.delivered url { o with downloads := o.downloads.set .csv (u.delivered url o .csv) } .xls =
      u.delivered url o .xls := delivered_congr rfl rfl
  rw [mergeFormat_eq, mergeFormat_eq, left]
  rfl

@[simp] theorem get?_merge (f : DownloadFormat) : (u.merge url o).downloads.get? f = u.delivered url o f := by
  rw [merge_eq]
  cases f <;> rfl

@[simp] theorem id_merge : (u.merge url o).id = o.id := by rw [merge_eq]

@[simp] theorem published_merge : (u.merge url o).published = o.published := by rw [merge_eq]

theorem merge_eq_of_downloads (h : ∀ f, u.delivered url o f = o.downloads.get? f) :
    u.merge url o = o := by
  rw [merge_eq, h, h]
  rfl

theorem delivered_merge (f : DownloadFormat) :
    u.delivered url (u.merge url o) f = u.delivered url o f := by
  have id : (u.merge url o).id = o.id := id_merge
  cases named : u.touches f with
  | false => rw [delivered_of_untouched named, get?_merge]
  | true =>
    obtain ⟨change, artefact⟩ := Option.isSome_iff_exists.mp named
    rw [delivered, get?_merge, delivered, artefact]
    simp only [Option.getD_some, href, id, ArtefactUpdate.merge_merge]

/-- A private link that is there stays, unless the update names another. -/
theorem privateLink_delivered {f : DownloadFormat} (h : u.replacesPrivate o f = false) {a : Artefact}
    (stored : o.downloads.get? f = some a) (final : a.privateLink ≠ "") :
    ∃ a', u.delivered url o f = some a' ∧ a'.privateLink = a.privateLink := by
  cases artefact : u.artefact? f with
  | none => exact ⟨a, by rw [delivered, artefact, stored], rfl⟩
  | some change =>
    cases named : change.privateLink with
    | none =>
      refine ⟨_, by rw [delivered, artefact], ?_⟩
      rw [stored, Option.getD_some, ArtefactUpdate.merge, named, Option.getD_none]
    | some value =>
      have replaces := replacesPrivate_iff.mpr ⟨change, value, a, artefact, named, stored, final⟩
      exact absurd replaces (Bool.eq_false_iff.mp h)

/-- Taking an update in twice is taking it in once. -/
theorem merge_merge : u.merge url (u.merge url o) = u.merge url o :=
  merge_eq_of_downloads fun f => by rw [delivered_merge, get?_merge]

/-- The updates name no artefact in common. -/
def Apart (u v : OutputUpdate) : Prop := ∀ f, u.touches f = true → v.touches f = false

theorem Apart.symm (h : u.Apart v) : v.Apart u := by
  intro f touched
  cases named : u.touches f with
  | false => rfl
  | true => exact absurd touched (Bool.eq_false_iff.mp (h f named))

theorem delivered_merge_of_apart (h : u.Apart v) {f : DownloadFormat} (named : u.touches f = true) :
    u.delivered url (v.merge url o) f = u.delivered url o f :=
  delivered_congr id_merge (by rw [get?_merge, delivered_of_untouched (h f named)])

/-- Updates that name different artefacts may be taken in in either order. -/
theorem merge_comm (h : u.Apart v) : u.merge url (v.merge url o) = v.merge url (u.merge url o) := by
  have same (f : DownloadFormat) :
      u.delivered url (v.merge url o) f = v.delivered url (u.merge url o) f := by
    cases named : u.touches f with
    | true =>
      rw [delivered_merge_of_apart h named, delivered_of_untouched (h f named), get?_merge]
    | false =>
      rw [delivered_of_untouched named, get?_merge]
      cases named' : v.touches f with
      | true => rw [delivered_merge_of_apart h.symm named']
      | false =>
        rw [delivered_of_untouched named', delivered_of_untouched named', get?_merge,
          delivered_of_untouched named]
  rw [merge_eq u url (v.merge url o), merge_eq v url (u.merge url o), same, same, merge_eq, merge_eq]

theorem forbidden_merge_of_apart (url : String) (o : Output) (h : u.Apart v) :
    u.forbidden (v.merge url o) = u.forbidden o :=
  forbidden_congr published_merge fun f named => by
    rw [get?_merge, delivered_of_untouched (h f named)]

theorem delivered_merge_of_delivered (h : o.Delivered) : (u.merge url o).Delivered := by
  intro f
  obtain ⟨a, stored, ready⟩ := h f
  cases named : u.touches f with
  | false => exact ⟨a, by rw [get?_merge, delivered_of_untouched named, stored], ready⟩
  | true =>
    obtain ⟨change, artefact⟩ := Option.isSome_iff_exists.mp named
    refine ⟨_, by rw [get?_merge, delivered, artefact], .inl ?_⟩
    exact href_ne_empty url o f

/-- An output that is completed before an update is taken in is as one that is completed after it. -/
theorem complete_merge_complete (o : Output) (now : Instant) :
    (u.merge url (o.completeIfReady now)).completeIfReady now =
      (u.merge url o).completeIfReady now := by
  cases due : o.completes with
  | false => rw [Output.completeIfReady_of_done now due]
  | true =>
    obtain ⟨undone, complete⟩ := Bool.and_eq_true_iff.mp due
    have ready : (u.merge url o).completes = true :=
      Bool.and_eq_true_iff.mpr ⟨by rwa [state_events_merge.1],
        Output.isComplete_iff.mpr (delivered_merge_of_delivered (Output.isComplete_iff.mp complete))⟩
    have early : u.merge url (o.completeIfReady now) = (u.merge url o).completeIfReady now := by
      rw [Output.completeIfReady, if_pos due, Output.completeIfReady, if_pos ready, merge_eq, merge_eq]
      rfl
    rw [early, Output.completeIfReady_of_done now (Output.completes_completeIfReady _ now)]

/-- The update supplies a private link of a format. -/
def givesPrivate (u : OutputUpdate) (f : DownloadFormat) : Bool :=
  ((u.artefact? f).bind (·.privateLink)).any fun link => !link.isEmpty

/-- The names of the private links that the update supplies. -/
def finals (u : OutputUpdate) : List String :=
  (DownloadFormat.all.filter u.givesPrivate).map DownloadFormat.privateField

theorem replacesPrivate_merge (f : DownloadFormat) :
    u.replacesPrivate (u.merge url o) f = u.givesPrivate f := by
  rw [replacesPrivate, givesPrivate, get?_merge, delivered]
  cases u.artefact? f with
  | none => rfl
  | some change =>
    cases named : change.privateLink with
    | none => simp [named]
    | some link => simp [named, ArtefactUpdate.merge]

/-- An update that was taken in is refused just for the private links that are final by now. -/
theorem forbidden_merge (url : String) (h : u.forbidden o = []) :
    u.forbidden (u.merge url o) = if o.isPublished then u.finals else [] := by
  rw [forbidden_eq, List.append_eq_nil_iff] at h
  rw [forbidden_eq, h.1, List.nil_append, locked, Output.isPublished, published_merge,
    funext replacesPrivate_merge]
  rfl

/-- An update is either refused for what it names or taken in as a whole. -/
theorem apply_eq (u : OutputUpdate) (url : String) (now : Instant) (o : Output) :
    u.apply url now o = if u.forbidden o = [] then
      .ok ((u.merge url o).completeIfReady now, (u.merge url o).completes)
    else .error (.forbidden (u.forbidden o)) := by
  rw [apply]
  cases u.forbidden o <;> rfl

/-- An update on an output that has taken it in: nothing is left for it to do, unless it is refused for
the private links that it has made final. -/
theorem apply_of_merged {q : Output} (permitted : u.forbidden o = []) (id : q.id = o.id)
    (published : q.published = o.published) (downloads : q.downloads = (u.merge url o).downloads)
    (done : q.completes = false) (now : Instant) :
    u.apply url now q = if q.published = some true ∧ u.finals ≠ [] then .error (.forbidden u.finals)
      else .ok (q, false) := by
  have forbidden : u.forbidden q = if q.isPublished then u.finals else [] := by
    rw [Output.isPublished, published, ← Output.isPublished, ← forbidden_merge url permitted]
    exact forbidden_congr (published.trans published_merge.symm) fun f _ => by rw [downloads]
  have merged : u.merge url q = q := by
    refine merge_eq_of_downloads fun f => ?_
    have same : u.delivered url q f = u.delivered url (u.merge url o) f :=
      delivered_congr (id.trans id_merge.symm) (by rw [downloads])
    rw [same, delivered_merge, downloads, get?_merge]
  have published_iff : q.published = some true ↔ q.isPublished = true := beq_iff_eq.symm
  simp only [apply_eq, forbidden, merged, done, Output.completeIfReady_of_done now done, published_iff]
  cases q.isPublished <;> cases u.finals <;> rfl

/-- An update that comes again is refused for the private links that it supplies, if the output is
published, and changes nothing otherwise. -/
theorem apply_again {now : Instant} {completed : Bool} (first : u.apply url now o = .ok (p, completed))
    (stamp : UInt64) (written later : Instant) :
    u.apply url later { p with stamp, lastUpdated := written } =
      if p.published = some true ∧ u.finals ≠ [] then .error (.forbidden u.finals)
      else .ok ({ p with stamp, lastUpdated := written }, false) := by
  obtain ⟨permitted, hp, -⟩ := apply_ok first
  have done : p.completes = false := by
    rw [hp]
    exact (u.merge url o).completes_completeIfReady now
  rw [Output.completeIfReady_eq] at hp
  have id : p.id = o.id := by
    rw [hp]
    exact id_merge
  have published : p.published = o.published := by
    rw [hp]
    exact published_merge
  have downloads : p.downloads = (u.merge url o).downloads := by rw [hp]
  exact apply_of_merged (q := { p with stamp, lastUpdated := written }) permitted id published downloads
    done later

theorem timeless_merge : (u.merge url o).timeless = u.merge url o.timeless := by
  rw [merge_eq, merge_eq]
  rfl

end OutputUpdate

end DatasetFilters
