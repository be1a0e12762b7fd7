import DatasetFilters.Proofs.Etag.Observation
import DatasetFilters.Proofs.Service.Logic
import DatasetFilters.Proofs.Store.Edit
import DatasetFilters.Proofs.Store.Outputs

namespace DatasetFilters

def Blueprint.promoted (b : Blueprint) : Blueprint := { b with published := some true }

def BlueprintChange.promotion : BlueprintChange := { published := some true }

theorem BlueprintChange.apply_promotion (b : Blueprint) : promotion.apply b = b.promoted := by
  by_cases hb : b.isPublished = true
  · have : b.published = some true := by simpa [Blueprint.isPublished] using hb
    simp [promotion, apply, Blueprint.promoted, Blueprint.isPublished, this]
  · simp [promotion, apply, Blueprint.promoted, hb]

def BlueprintChange.submission (outputId : String) (time : Instant) : BlueprintChange :=
  { state := some .submitted, outputId := some outputId, events := [⟨.created, time⟩] }

def Output.stamped (o : Output) (stamp : UInt64) : Output := { o with stamp }

/-- Whether a blueprint is stored, under its own key. -/
def World.Stores (w : World) (b : Blueprint) : Prop := w.store.filter? b.id = some b

/-- The moment changed a blueprint by more than making it public. -/
def Moment.Edits (m : Moment) (x y : Blueprint) : Prop :=
  m.before.Stores x ∧ m.after.Stores y ∧ x.id = y.id ∧ y.observed ≠ x.observed ∧
    y.observed ≠ x.promoted.observed

/-- The blueprint looks like another one, or like that one made public. -/
def Blueprint.LooksLike (b d : Blueprint) : Prop :=
  b.observed = d.observed ∨ b.observed = d.promoted.observed

namespace Client

variable (me : Client) (past : List Moment)

/-- The blueprint was stored when the client had moved. -/
def Saw (b : Blueprint) : Prop := ∃ m ∈ past, m.mover = some me ∧ m.after.Stores b

def Edited (id : String) : Prop := ∃ m ∈ past, m.mover = some me ∧ ∃ x y, m.Edits x y ∧ x.id = id

def Accepts (tag : String) : Prop :=
  ∀ id selector, me.call.target? = some (id, selector) → selector.accepts tag = true

/-- The client meant to make public what it had read and found that others had changed it
meanwhile; the blueprint is what they left. -/
def Overtaken (b : Blueprint) : Prop :=
  me.caller.authenticated = false ∧ me.call.looks = true ∧ b.isPublished = true ∧
    ∃ d, me.Saw past d ∧ d.id = b.id ∧ me.Accepts d.etag ∧ d.isPublished = false ∧
      ∃ m ∈ past, m.mover = some me ∧ ∃ z, m.before.Stores z ∧ z.id = d.id ∧ z.etag ≠ d.etag

structure Follows (b : Blueprint) : Prop where
  addressed : ∀ id selector, me.call.target? = some (id, selector) → b.id = id
  /-- The client has edited it before, or it looks like what the client read under its condition, or
  the client was overtaken. -/
  grounds : me.Edited past b.id ∨
    (∃ d, me.Saw past d ∧ d.id = b.id ∧ me.Accepts d.etag ∧ b.LooksLike d) ∨ me.Overtaken past b

end Client

section Answers

variable (settings : Settings) (answers : Nat → (q : Query) → q.Reply → Prop) (me : Client)
  (past : List Moment)

def Chosen (dataset : DatasetRef) (name : String) (ids : List String) : Prop :=
  Dimension.distinct ids = [] ∨ ∃ confirmed, me.Heard answers past
    (.options dataset name (Lookup.plan settings.limits (Dimension.distinct ids))) (.ok confirmed) ∧
      Validation.verdict name (Dimension.distinct ids) confirmed = .ok ()

/-- The catalog confirmed a dimension of a dataset version to the client, and options of it. -/
structure Confirmed (dataset : DatasetRef) (name : String) (ids : List String) : Prop where
  declared : ∃ dimensions, me.Heard answers past (.dimensions dataset) (.ok dimensions) ∧
    name ∈ dimensions.map (·.name)
  options : Chosen settings answers me past dataset name ids

/-- The catalog told the client, as it would tell everybody, about the dataset version of a
blueprint. -/
def Told (b : Blueprint) : Prop :=
  ∃ version, me.Heard answers past (.version b.dataset false) (.ok version)

/-- The change of a blueprint `a` that an update of the client asks for. -/
inductive Client.Updates (a : Blueprint) : BlueprintChange → Prop
  | report {id : String} {u : BlueprintUpdate} {andSubmit : Bool} {selector : Selector}
      {events : List Event} (asked : me.call = .update id u andSubmit selector)
      (valid : u.validEvents = .ok events) : Updates a { events }
  | move {id : String} {u : BlueprintUpdate} {andSubmit : Bool} {selector : Selector}
      {events : List Event} {version : UInt32} (found : Version)
      (asked : me.call = .update id u andSubmit selector) (valid : u.validEvents = .ok events)
      (other : u.newVersion? a = some version) (editable : a.isSubmitted = false)
      (told : me.Heard answers past
        (.version (a.dataset.withVersion version) me.caller.authenticated) (.ok found))
      (confirmed : ∀ d ∈ a.dimensions,
        Confirmed settings answers me past (a.dataset.withVersion version) d.name d.options) :
      Updates a { dataset := some (a.dataset.withVersion version)
                  instanceId := some found.instanceId
                  published := some found.isPublished, events }

/-- The client saw the blueprint, or took it for a stored one since a change that it had grounds for
left the tag as it was. -/
def Client.Took (grounds : List Moment → Blueprint → BlueprintChange → Prop) (b : Blueprint) : Prop :=
  me.Saw past b ∨ ∃ m earlier, (m :: earlier) <:+ past ∧ m.mover = some me ∧ ∃ a x c,
    me.Saw earlier a ∧ m.before.Stores x ∧ x.id = a.id ∧ x.etag = a.etag ∧ grounds earlier a c ∧
      b = c.apply x ∧ b.tag = x.etag

/-- The client stored an output of a blueprint that it took, where there was none. -/
def Client.Made (b : Blueprint) (outputId : String) (time : Instant) : Prop :=
  ∃ m earlier, (m :: earlier) <:+ past ∧ m.mover = some me ∧
    me.Took earlier (me.Updates settings answers) b ∧ m.before.store.output? outputId = none ∧
      ∃ stamp, m.after.store.output? outputId =
        some ((Output.ofBlueprint outputId b time).stamped stamp)

/-- A client whose call looks at blueprints may see this one. -/
def Client.Sees (b : Blueprint) : Prop :=
  me.call.looks = true →
    b.isPublished = true ∨ me.caller.authenticated = true ∨ Told answers me past b

/-- The grounds for a change of a blueprint that looks like `a`. -/
inductive Justified (a : Blueprint) : FilterEdit → Prop
  | promotion (told : Told answers me past a) : Justified a (.change .promotion)
  | update {c : BlueprintChange} (updates : me.Updates settings answers past a c) :
      Justified a (.change c)
  | submission {b : Blueprint} {outputId : String} {time : Instant} (editable : a.isSubmitted = false)
      (same : b.id = a.id ∧ b.etag = a.etag) (made : me.Made settings answers past b outputId time) :
      Justified a (.change (.submission outputId time))
  | addDimension (d : Dimension)
      (confirmed : Confirmed settings answers me past a.dataset d.name d.options) :
      Justified a (.addDimension d)
  | removeDimension (name : String) : Justified a (.removeDimension name)
  | addOptions (name : String) (options : List String)
      (confirmed : Confirmed settings answers me past a.dataset name options) :
      Justified a (.addOptions name options)
  | removeOptions (name : String) (options : List String) :
      Justified a (.removeOptions name options)

/-- What is checked of an update before anything is changed. -/
structure BlueprintUpdate.Passes (u : BlueprintUpdate) (andSubmit : Bool) (b : Blueprint) : Prop where
  permitted : u.forbidden b = []
  events : ∃ events, u.validEvents = .ok events
  move : ∀ version, u.newVersion? b = some version → b.isSubmitted = false ∧
    (∃ found, me.Heard answers past
      (.version (b.dataset.withVersion version) me.caller.authenticated) (.ok found)) ∧
    ∀ d ∈ b.dimensions,
      Confirmed settings answers me past (b.dataset.withVersion version) d.name d.options
  editable : (andSubmit && b.isSubmitted) = false

/-- If the call of the client is an update, it passed for a blueprint that the client read. -/
def Client.Cleared : Prop := ∀ id u andSubmit selector, me.call = .update id u andSubmit selector →
  ∃ b, me.Saw past b ∧ b.id = id ∧ selector.accepts b.etag = true ∧
    u.Passes settings answers me past andSubmit b

/-- The changes that a client takes a stored blueprint through for itself. -/
def Client.Changes (past : List Moment) (a : Blueprint) (c : BlueprintChange) : Prop :=
  Justified settings answers me past a (.change c)

/-- What a client may do to outputs and messages. -/
inductive Work (now next : World) : Prop
  | makes (b : Blueprint) (outputId : String) (t time : Instant) (stamp : UInt64)
      (submits : me.call.submits = true) (took : me.Took past (me.Updates settings answers) b)
      (free : now.store.backend.find? .outputs outputId = none)
      (kept : next = { now with
        store := now.store.puttingOutput t outputId ((Output.ofBlueprint outputId b time).stamped stamp) })
  | tends (id : String) (o o' : Output) (t : Instant) (stored : now.store.output? id = some o)
      (same : o'.plan = o.plan) (kept : next = { now with store := now.store.puttingOutput t id o' })
  /-- A message about an output by which the client marked a blueprint. -/
  | sends (b : Blueprint) (outputId : String) (submits : me.call.submits = true)
      (made : ∃ b' time, me.Made settings answers past b' outputId time)
      (took : me.Took past (me.Changes settings answers) b) (submitted : b.isSubmitted = true)
      (named : b.outputId = some outputId)
      (kept : next = { now with channel := (now.channel.enqueue outputId).2 })

/-- What a client may do to the world at one moment. It changes a blueprint only on the tag of one
that it saw itself and may follow up, and on grounds; it makes outputs of blueprints that it took,
and sends word only of one by which it marked a blueprint submitted. -/
inductive Deed (now next : World) : Prop
  /-- Nothing that documents or messages show. -/
  | rests (filters : next.store.backend.filters = now.store.backend.filters)
      (outputs : next.store.backend.outputs = now.store.backend.outputs)
      (channel : next.channel = now.channel)
  /-- Something to outputs and messages. -/
  | works (busy : me.call.looks = false) (cleared : me.Cleared settings answers past)
      (filters : next.store.backend.filters = now.store.backend.filters)
      (work : Work settings answers me past now next)
  /-- A new blueprint, its selections confirmed. -/
  | creates (b : Blueprint) (t : Instant) (version : Version) (new : me.call.target? = none)
      (free : now.store.filter? b.id = none)
      (told : me.Heard answers past (.version b.dataset me.caller.authenticated) (.ok version))
      (instanceId : b.instanceId = version.instanceId)
      (confirmed : ∀ d ∈ b.dimensions, Confirmed settings answers me past b.dataset d.name d.options)
      (published : b.published = some version.isPublished)
      (blank : b.state = .created ∧ b.outputId = none) (fresh : b.etag = b.tag)
      (kept : next = { now with store := now.store.keeping t b })
  /-- A change of the stored blueprint `x` that has the tag of a blueprint `a` which the client may
  follow up. -/
  | edits (a x c : Blueprint) (t : Instant) (e : FilterEdit)
      (saw : me.Saw past a) (follows : me.Follows past a) (sees : me.Sees answers past a)
      (cleared : me.Cleared settings answers past)
      (stored : now.Stores x) (same : x.id = a.id ∧ x.etag = a.etag)
      (justified : Justified settings answers me past a e) (applied : e.apply x = .ok c)
      (changed : c.tag ≠ x.etag)
      (kept : next = { now with store := now.store.keeping t (now.store.restamped t c) })

end Answers

structure World.Covered (documents : Blueprint → Prop) (w : World) : Prop where
  sound : w.store.Sound
  known : ∀ b, w.Stores b → documents b

def Rules.ofServices (settings : Settings) (answers : Nat → (q : Query) → q.Reply → Prop)
    (documents : Blueprint → Prop) : Rules where
  valid past now := now.Covered documents ∧
    ∀ m ∈ past, m.before.Covered documents ∧ m.after.Covered documents
  answers := answers
  guarantee := Deed settings answers

end DatasetFilters
