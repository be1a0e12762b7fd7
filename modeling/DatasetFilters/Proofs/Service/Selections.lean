import DatasetFilters.Proofs.Catalog.Holdings
import DatasetFilters.Proofs.Service.Course

namespace DatasetFilters

variable {h : Holdings} {settings : Settings} {me : Client} {past : List Moment}
  {documents : Blueprint → Prop} {now next : World}

/-- One moment keeps the blueprints within what the catalog holds. A check may be old when its
blueprint is written, but then the tag that was read still stands, and with it the dataset version
and the dimensions that were checked. -/
theorem Deed.grounds (hash : Sha256.Separates fun m => ∃ b, documents b ∧ m = b.content)
    (hvalid : (Rules.ofServices settings (fun _ => h.Answers) documents).valid past now)
    (hd : Deed settings (fun _ => h.Answers) me past now next)
    (hnow : ∀ b, now.Stores b → h.Grounds b) : ∀ b, next.Stores b → h.Grounds b := by
  intro c hc
  cases hd with
  | rests filters _ _ =>
    exact hnow c ((World.stores_of_filters_eq filters).mp hc)
  | works _ _ filters _ =>
    exact hnow c ((World.stores_of_filters_eq filters).mp hc)
  | creates b t version new free told instanceId confirmed _ _ fresh kept =>
    rw [kept] at hc
    rcases World.stores_keeping hc with rfl | hc
    · refine ⟨fun d hd => (confirmed d hd).selects, ?_⟩
      rw [instanceId]
      exact told.holds version rfl
    · exact hnow c hc
  | edits a x y t e saw follows sees cleared stored same justified applied changed kept =>
    rw [kept] at hc
    rcases World.stores_keeping hc with rfl | hc
    · have looks := saw.observed_eq hash hvalid stored same.2
      have grounds := justified.grounds looks applied (hnow x stored)
      exact ⟨grounds.dimensions, grounds.instanceId⟩
    · exact hnow c hc

/-- Over a catalog whose versions, dimensions and options stay as they are, every blueprint that is
stored at any time of a run selects only what the catalog holds for its dataset version. -/
theorem Run.grounds_stored {start : World} {s : Server} (fresh : start.Fresh)
    (run : Run settings (fun _ => h.Answers) start past s)
    (hash : Collisionless past) {id : String}
    {b : Blueprint} (stored : s.world.store.filter? id = some b) : h.Grounds b := by
  obtain ⟨hvalid, -, hmoments⟩ := run.sound_services fresh hash
  have nothing : ∀ b, start.Stores b → h.Grounds b := by
    intro b hb
    simp [World.Stores, Store.filter?_of_empty fresh] at hb
  have step : ∀ m earlier, (m :: earlier) <:+ past → (∀ b, m.before.Stores b → h.Grounds b) →
      ∀ b, m.after.Stores b → h.Grounds b := by
    intro m earlier hs hbefore
    cases hmoments m earlier hs with
    | idle => exact hbefore
    | own me past now next hvalid hdeed => exact Deed.grounds hash hvalid hdeed hbefore
    | received past now channel hvalid => exact hbefore
  have all := run.invariant (I := fun w => ∀ b, w.Stores b → h.Grounds b) nothing step
  exact all b (World.stores_of_filter? hvalid.1.sound stored)

namespace Small

def holdings : Holdings where
  instance? _ := some "i"
  options? _ _ := some ["27"]

theorem holdings_answers (q : Query) : holdings.Answers q (reply q) := by
  cases q with
  | version d authenticated =>
    intro v hv
    cases authenticated with
    | true => rw [← Except.ok.inj hv]; rfl
    | false => simp [reply] at hv
  | dimensions d => exact fun ds _ name _ => rfl
  | options d name lookup =>
    intro confirmed hconfirmed
    change looked lookup = .ok confirmed at hconfirmed
    unfold looked at hconfirmed
    split at hconfirmed
    · -- the batch is sent, then its answer taken
      rw [← Except.ok.inj hconfirmed]
      let waiting : Lookup := ⟨1, [["27"]], [], [], none⟩
      let running : Lookup := ⟨1, [], [["27"]], [], none⟩
      let answered : Lookup := ⟨1, [], [], [⟨["27"], ["27"]⟩], none⟩
      have confirms : holdings.Confirms d name ["27"] (.ok ["27"]) :=
        fun found hfound id hid => ⟨["27"], rfl, Except.ok.inj hfound ▸ hid⟩
      have sent : waiting.Runs (holdings.Confirms d name) running := .start (.rest waiting) rfl
      have taken : waiting.Runs (holdings.Confirms d name) answered :=
        .finish sent 0 ["27"] rfl (.ok ["27"]) confirms rfl
      exact ⟨answered, taken, rfl, rfl⟩
    · simp at hconfirmed
  | dataset id => trivial
  | forward url request => trivial

theorem grounds_submitted : holdings.Grounds submitted := by
  obtain ⟨s, run, -⟩ := run fun _ => holdings_answers
  have stored : s.world.store.filter? "f" = some submitted := by
    rw [run.world_eq]
    exact computed.2.1
  exact run.grounds_stored world_fresh collisionless stored

end Small

end DatasetFilters
