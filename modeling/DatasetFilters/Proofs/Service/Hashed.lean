import DatasetFilters.Proofs.Service.Course

namespace DatasetFilters

section

variable {settings : Settings} {answers : Nat → (q : Query) → q.Reply → Prop} {me : Client}
  {past past' : List Moment} {now start : World} {s : Server} {documents : Blueprint → Prop}

variable (settings answers) in
/-- A blueprint that was stored, or that a client made of a stored one without a difference to the
tag. Such a change is not written, yet its client goes on with it. -/
def Hashed (past : List Moment) (b : Blueprint) : Prop :=
  Kept past b ∨ ∃ me : Client, me.Took past (me.Changes settings answers) b

variable (settings answers) in
/-- The hash keeps apart the contents that are hashed in a run. -/
def NoCollision (past : List Moment) : Prop :=
  Sha256.Separates fun m => ∃ b, Hashed settings answers past b ∧ m = b.content

theorem Hashed.mono {b : Blueprint} (h : Hashed settings answers past b) (hp : past <:+ past') :
    Hashed settings answers past' b := by
  rcases h with kept | ⟨me, took⟩
  · exact Or.inl (kept.mono hp)
  · exact Or.inr ⟨me, took.mono hp⟩

namespace NoCollision

theorem earlier (h : NoCollision settings answers past') (hp : past <:+ past') :
    NoCollision settings answers past := by
  refine h.mono ?_
  rintro _ ⟨b, hashed, rfl⟩
  exact ⟨b, hashed.mono hp, rfl⟩

theorem collisionless (h : NoCollision settings answers past) : Collisionless past := by
  refine h.mono ?_
  rintro _ ⟨b, kept, rfl⟩
  exact ⟨b, Or.inl kept, rfl⟩

end NoCollision

theorem Client.Saw.kept {b : Blueprint} (h : me.Saw past b) : Kept past b := by
  obtain ⟨m, hm, -, hb⟩ := h
  exact ⟨m, hm, hb⟩

/-- What a client goes on with looks like a blueprint of the same tag that it saw. -/
theorem Client.Took.alike (hash : NoCollision settings answers past)
    (hvalid : (Rules.ofServices settings answers documents).valid past now) {b : Blueprint}
    (took : me.Took past (me.Changes settings answers) b) :
    ∃ a, me.Saw past a ∧ a.observed = b.observed ∧ a.etag = b.etag := by
  rcases id took with saw | ⟨m, earlier, hs, -, a, x, c, saw, -, -, htag, -, rfl, unchanged⟩
  · exact ⟨b, saw, rfl, rfl⟩
  · have saw := (saw.mono (List.suffix_cons m earlier)).mono hs
    obtain ⟨n, hn, -, stored⟩ := id saw
    have tag : a.tag = (c.apply x).tag :=
      ((hvalid.2 n hn).2.sound.etag_eq stored).symm.trans (htag.symm.trans unchanged.symm)
    exact ⟨a, saw, hash.observed_eq (Or.inl saw.kept) (Or.inr ⟨me, took⟩) tag, htag.symm⟩

/-- What a client goes on with looks like the stored blueprint of its tag. -/
theorem Client.Took.observed_eq (hash : NoCollision settings answers past)
    (hvalid : (Rules.ofServices settings answers documents).valid past now)
    (hdocuments : Sha256.Separates fun m => ∃ b, documents b ∧ m = b.content) {b x : Blueprint}
    (took : me.Took past (me.Changes settings answers) b) (stored : now.Stores x)
    (htag : x.etag = b.etag) : x.observed = b.observed := by
  obtain ⟨a, saw, looks, tag⟩ := took.alike hash hvalid
  exact (saw.observed_eq hdocuments hvalid stored (htag.trans tag.symm)).trans looks

end

namespace Small.Move

/-- A catalog that has published the first version of every edition, and has nothing else. -/
def reply : (q : Query) → q.Reply
  | .version d authenticated =>
    let v : Version := ⟨"i", if d.version = 1 then publishedState else "created"⟩
    v.visibleTo d authenticated
  | .dimensions _ => .ok []
  | .options _ _ _ => .ok []
  | .dataset id => .error (.datasetNotFound id)
  | .forward .. => .error "unavailable"

def answers (_ : Nat) (q : Query) (r : q.Reply) : Prop := r = reply q

theorem answers_reply (n : Nat) (q : Query) : answers n q (reply q) := rfl

def toSecond : BlueprintUpdate := { dataset := some { version := some 2 } }

/-- A blueprint over the first version is moved to the second one and submitted, and then read by
somebody unknown. -/
def calls : List (Caller × ServiceCall) :=
  [(.anonymous, .get "f" .any), (known, .update "f" toSecond true .any),
   (known, .create ⟨dataset, [], ""⟩ false)]

def moments : List Moment := course settings reply world calls

def opened : Blueprint := { blank with
  dimensions := []
  published := some true
  etag := "d2d1d4750046478f5812946ddcb2ce39ad796e28c9a521be25e5d866ca11d59d" }

def moved : Blueprint := { opened with
  dataset := dataset.withVersion 2
  etag := "721f36ecc0f4fca4989d3ad8d8717fff4eec0151e5fbf17ac0f93a42a0be9509"
  stamp := 2 }

def submitted : Blueprint := { moved with
  events := [⟨.created, default⟩]
  state := .submitted
  outputId := some "o"
  etag := "26cae34cdfeb62bb500587d77309a0e1fb400a768edc5cfba9653b53e7fc4041"
  stamp := 4 }

def documents : List Blueprint := [opened, moved, submitted]

/-- The contents of the documents, and of the first one submitted without having been moved. -/
def contents : List Octets :=
  ((BlueprintChange.submission "o" default).apply opened :: documents).map Blueprint.content

theorem computed :
    (∀ m ∈ moments, ∀ w ∈ [m.before, m.after],
      (∀ p ∈ w.store.backend.filters, p.1 = "f") ∧ (∀ b ∈ w.store.filter? "f", b ∈ documents) ∧
      (∀ p ∈ w.store.backend.outputs, p.1 = "o") ∧
      ∀ o ∈ w.store.output? "o", o.events = [⟨.created, default⟩]) ∧
    (lastWorld world moments).store.filter? "f" = some submitted ∧
    ∀ m ∈ contents, m.length < 1000 ∧ ∀ m' ∈ contents, Sha256.hash m = Sha256.hash m' → m = m' := by
  decide +kernel

theorem documents_computed :
    (∀ x ∈ documents, (BlueprintChange.promotion.apply x).content ∈ contents ∧
      (({} : BlueprintChange).apply x).content ∈ contents ∧
      (({ dataset := some (dataset.withVersion 2), instanceId := some "i",
          published := some false } : BlueprintChange).apply x).content ∈ contents ∧
      (x.isSubmitted = false →
        ((BlueprintChange.submission "o" default).apply x).content ∈ contents) ∧
      x.dataset.withVersion 2 = dataset.withVersion 2) ∧
    ∀ x ∈ documents, ∀ a ∈ documents, x.etag = a.etag → x = a := by
  decide +kernel

theorem stored_mem {m : Moment} (hm : m ∈ moments) {b : Blueprint}
    (h : m.before.Stores b ∨ m.after.Stores b) : b ∈ documents := by
  have among := computed.1 m hm
  have stored {w : World} (hw : w ∈ [m.before, m.after]) (hb : w.Stores b) : b ∈ documents := by
    obtain ⟨keys, filters, -⟩ := among w hw
    obtain ⟨text, hmem⟩ := Store.mem_of_filter? hb
    have hid : b.id = "f" := keys _ hmem
    rw [World.Stores, hid] at hb
    exact filters b hb
  rcases h with h | h
  · exact stored (by simp) h
  · exact stored (by simp) h

theorem made_mem {me : Client} {past : List Moment} (hs : past <:+ moments) {b : Blueprint}
    {outputId : String} {time : Instant} (made : me.Made settings answers past b outputId time) :
    outputId = "o" ∧ time = default := by
  obtain ⟨m, earlier, hm, -, -, -, stamp, stored⟩ := made
  obtain ⟨-, -, keys, outputs⟩ := computed.1 m ((hm.trans hs).mem List.mem_cons_self) m.after (by simp)
  have hid : outputId = "o" := by
    rw [Store.output?, Option.bind_eq_some_iff] at stored
    obtain ⟨text, hfind, -⟩ := stored
    obtain ⟨l₁, l₂, heq, -⟩ := List.lookup_eq_some_iff.mp hfind
    exact keys (outputId, text) (by rw [Backend.documents] at heq; simp [heq])
  subst hid
  have events := outputs _ stored
  have times := congrArg (List.map Event.time) events
  exact ⟨rfl, by simpa [Output.stamped, Output.ofBlueprint] using times⟩

theorem content_mem {b : Blueprint} (h : Hashed settings answers moments b) :
    b.content ∈ contents := by
  have among {x : Blueprint} (hx : x ∈ documents) : x.content ∈ contents :=
    List.mem_cons_of_mem _ (List.mem_map_of_mem hx)
  rcases h with ⟨m, hm, hb⟩ |
    ⟨me, saw | ⟨m, earlier, hs, mover, a, x, c, saw, hx, -, htag, ground, rfl, -⟩⟩
  · exact among (stored_mem hm (Or.inr hb))
  · obtain ⟨m, hm, -, hb⟩ := saw
    exact among (stored_mem hm (Or.inr hb))
  · have grown := (List.suffix_cons m earlier).trans hs
    have hx := stored_mem (hs.mem List.mem_cons_self) (Or.inl hx)
    obtain ⟨n, hn, -, ha⟩ := saw
    have ha := stored_mem (grown.mem hn) (Or.inr ha)
    obtain rfl := documents_computed.2 x hx a ha htag
    obtain ⟨promotion, report, move, submission, second⟩ := documents_computed.1 x hx
    obtain ⟨me', mover', sent⟩ := sent_of_mem_course (hs.mem (List.mem_cons_self (a := m)))
    obtain rfl := Option.some.inj (mover.symm.trans mover')
    cases ground with
    | promotion => exact promotion
    | submission editable same made =>
      obtain ⟨rfl, rfl⟩ := made_mem grown made
      exact submission editable
    | update updates =>
      -- the only update is the one to the second version
      have only {id : String} {u : BlueprintUpdate} {andSubmit : Bool} {selector : Selector}
          (asked : me.call = .update id u andSubmit selector) :
          u = toSecond ∧ me.caller = known := by
        simp only [calls, asked, List.mem_cons, Prod.mk.injEq, reduceCtorEq, and_false,
          ServiceCall.update.injEq, List.not_mem_nil, or_false, false_or] at sent
        exact ⟨sent.2.2.1, sent.1⟩
      cases updates with
      | report asked valid =>
        obtain ⟨rfl, -⟩ := only asked
        obtain rfl := Except.ok.inj valid
        exact report
      | @move _ _ _ _ events version found asked valid other editable told confirmed =>
        obtain ⟨rfl, caller⟩ := only asked
        obtain rfl := Except.ok.inj valid
        have two : version = 2 := by
          have := (Option.filter_eq_some_iff.mp other).1
          exact (Option.some.inj this).symm
        subst two
        obtain ⟨_, _, n, -, -, -, -, answered⟩ := told
        rw [caller, second] at answered
        obtain rfl := Except.ok.inj answered
        rw [second]
        exact move

theorem noCollision : NoCollision settings answers moments := by
  obtain ⟨-, -, distinct⟩ := computed
  exact .of_contents (fun _ => content_mem) distinct

theorem run {answers : Nat → (q : Query) → q.Reply → Prop}
    (honest : ∀ n q, answers n q (reply q)) :
    ∃ s, Run settings answers world moments s ∧ s.world = lastWorld world moments ∧
      s.world.Stores submitted := by
  obtain ⟨s, run, -⟩ := Run.of_course honest calls
  refine ⟨s, run, run.world_eq, ?_⟩
  rw [run.world_eq]
  exact computed.2.1

end Small.Move

end DatasetFilters
