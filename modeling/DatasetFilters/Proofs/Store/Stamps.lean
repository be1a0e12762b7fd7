import DatasetFilters.Proofs.Store.CompareAndSet
import DatasetFilters.Proofs.Store.Outputs
import Mathlib

namespace DatasetFilters

/-- A change to outputs that leaves the stamp to the store. -/
structure OutputEdit (ε α : Type) where
  change : Output → Except ε (Output × α)
  keepsStamp : ∀ o p, change o = .ok p → p.1.stamp = o.stamp

namespace OutputUpdate

theorem stamp_merge (u : OutputUpdate) (downloadUrl : String) (o : Output) :
    (u.merge downloadUrl o).stamp = o.stamp := by
  have one (f : DownloadFormat) (o : Output) : (u.mergeFormat downloadUrl o f).stamp = o.stamp := by
    unfold mergeFormat
    cases u.artefact? f <;> rfl
  exact (one .xls _).trans (one .csv o)

theorem stamp_apply {u : OutputUpdate} {downloadUrl : String} {now : Instant} {o : Output}
    {p : Output × Bool} (h : u.apply downloadUrl now o = .ok p) : p.1.stamp = o.stamp := by
  have completed (o : Output) : (o.completeIfReady now).stamp = o.stamp := by
    unfold Output.completeIfReady
    split <;> rfl
  simp only [apply] at h
  split at h
  · cases h
  · obtain rfl := Except.ok.inj h
    exact (completed _).trans (u.stamp_merge downloadUrl o)

def edit (u : OutputUpdate) (downloadUrl : String) (now : Instant) : OutputEdit ServiceError Bool :=
  ⟨u.apply downloadUrl now, fun _ _ => stamp_apply⟩

end OutputUpdate

theorem FilterEdit.stamp_apply {e : FilterEdit} {b c : Blueprint} (h : e.apply b = .ok c) :
    c.stamp = b.stamp := by
  by_cases he : ∃ x, e = change x
  · obtain ⟨x, rfl⟩ := he
    rw [apply_change h]
    rfl
  · obtain ⟨ds, rfl⟩ := apply_eq_dimensions h fun x hx => he ⟨x, hx⟩
    rfl

inductive StoreOperation where
  | filter (op : FilterOperation)
  | addOutput (o : Output)
  | getOutput (id : String)
  | changeOutput {ε α : Type} (id : String) (failed : StoreError → ε) (e : OutputEdit ε α)
  | addEvent (id : String) (e : Event)

inductive StoreEvent where
  | operation (now : Instant) (op : StoreOperation)
  | reopen

/-- A document that was written, with its stamp and the one that it had before. -/
structure StoreWrite where
  collection : Collection
  key : String
  before : Option UInt64
  stamp : UInt64
  deriving DecidableEq, Repr

def Store.stampAt? (s : Store) (c : Collection) (key : String) : Option UInt64 :=
  match c with
  | .filters => (s.filter? key).map (·.stamp)
  | .outputs => (s.output? key).map (·.stamp)

namespace StoreOperation

def perform (now : Instant) (s : Store) : StoreOperation → Store
  | filter op => (op.perform now s).2
  | addOutput o => (s.addOutput now o).2
  | getOutput id => (s.getOutput id).2
  | changeOutput id failed e => (s.modifyOutput now id failed e.change).2
  | addEvent id e => (s.addOutputEvent now id e).2

def collection : StoreOperation → Collection
  | filter _ => .filters
  | addOutput _ | getOutput _ | changeOutput _ _ _ | addEvent _ _ => .outputs

def key : StoreOperation → String
  | filter op => op.id
  | addOutput o => o.id
  | getOutput id | changeOutput id _ _ | addEvent id _ => id

end StoreOperation

namespace StoreEvent

def leads (s : Store) : StoreEvent → Store
  | operation now op => op.perform now s
  | reopen => s.reopened

/-- What an event writes: the document under the key of its operation, if it is another one after it. -/
def write? (s : Store) : StoreEvent → Option StoreWrite
  | operation now op =>
    let s' := op.perform now s
    if s'.backend.find? op.collection op.key = s.backend.find? op.collection op.key then none
    else some
      { collection := op.collection
        key := op.key
        before := s.stampAt? op.collection op.key
        stamp := (s'.stampAt? op.collection op.key).getD 0 }
  | reopen => none

end StoreEvent

namespace Store

def after (s : Store) (events : List StoreEvent) : Store := events.foldl StoreEvent.leads s

/-- All that is written in the course of some events. -/
def log (s : Store) : List StoreEvent → List StoreWrite
  | [] => []
  | e :: events => (e.write? s).toList ++ log (e.leads s) events

/-- Neither the clock nor a document has come to the last stamp there is. -/
structure Unexhausted (s : Store) : Prop where
  clock : s.clock.last.toNat + 1 < UInt64.size
  stored : ∀ c key stamp, s.stampAt? c key = some stamp → stamp.toNat + 1 < UInt64.size

/-- No document has a stamp that the clock has not come to. -/
def Behind (s : Store) : Prop := ∀ c key stamp, s.stampAt? c key = some stamp → stamp ≤ s.clock.last

/-- No document is another one, and the clock may have gone on. -/
structure Unwritten (s s' : Store) (now : Instant) : Prop where
  clock : s'.clock = s.clock ∨ s'.clock = s.clock.advanced now
  documents : ∀ c key, s'.backend.find? c key = s.backend.find? c key

/-- One document is written, with a stamp that is drawn from the clock. -/
structure Stamps (s s' : Store) (now : Instant) (c : Collection) (key : String) (stamp : UInt64) :
    Prop where
  clock : s'.clock = s.clock.advanced now
  stored : s'.stampAt? c key = some stamp
  drawn : s.stampAt? c key = none ∧ stamp = s.clock.next now ∨
    ∃ old, s.stampAt? c key = some old ∧ stamp = max (s.clock.next now) (old + 1)
  beside : ∀ c' key', (c', key') ≠ (c, key) →
    s'.backend.find? c' key' = s.backend.find? c' key'

theorem stampAt?_of_find? {s s' : Store} {c : Collection} {key : String}
    (h : s'.backend.find? c key = s.backend.find? c key) : s'.stampAt? c key = s.stampAt? c key := by
  cases c <;> simp only [stampAt?, filter?, output?, h]

variable {s s' : Store} {now : Instant} {c : Collection} {key : String} {stamp : UInt64}

theorem Unwritten.touched (s : Store) (now : Instant) : s.Unwritten s.touched now :=
  ⟨.inl rfl, fun c key => s.backend.find?_touched c key⟩

theorem Unwritten.ticked (s : Store) (now : Instant) :
    s.Unwritten { s.touched with clock := s.clock.advanced now } now :=
  ⟨.inr rfl, fun c key => s.backend.find?_touched c key⟩

theorem Stamps.keeping {b : Blueprint}
    (drawn : s.filter? b.id = none ∧ b.stamp = s.clock.next now ∨
      ∃ old, s.filter? b.id = some old ∧ b.stamp = max (s.clock.next now) (old.stamp + 1)) :
    s.Stamps (s.keeping now b) now .filters b.id b.stamp where
  clock := rfl
  stored := by rw [stampAt?, filter?_keeping_self, Option.map_some]
  drawn := by
    rcases drawn with ⟨free, fresh⟩ | ⟨old, held, pushed⟩
    · exact .inl ⟨by rw [stampAt?, free]; rfl, fresh⟩
    · exact .inr ⟨old.stamp, by rw [stampAt?, held]; rfl, pushed⟩
  beside := by
    intro c' key' other
    rw [Store.keeping, Backend.find?_put, Backend.find?_touched, if_neg]
    rintro ⟨rfl, rfl⟩
    exact other rfl

theorem Stamps.puttingOutput {o : Output}
    (drawn : s.output? key = none ∧ o.stamp = s.clock.next now ∨
      ∃ old, s.output? key = some old ∧ o.stamp = max (s.clock.next now) (old.stamp + 1)) :
    s.Stamps (s.puttingOutput now key o) now .outputs key o.stamp where
  clock := rfl
  stored := by rw [stampAt?, output?_puttingOutput_self, Option.map_some]
  drawn := by
    rcases drawn with ⟨free, fresh⟩ | ⟨old, held, pushed⟩
    · exact .inl ⟨by rw [stampAt?, free]; rfl, fresh⟩
    · exact .inr ⟨old.stamp, by rw [stampAt?, held]; rfl, pushed⟩
  beside := by
    intro c' key' other
    rw [Store.puttingOutput, Backend.find?_put, Backend.find?_touched, if_neg]
    rintro ⟨rfl, rfl⟩
    exact other rfl

end Store

/-- An operation on blueprints writes none of them or one, with a stamp from the clock that is
pushed on beyond the old one. -/
theorem FilterOperation.stamps_perform {s : Store} (h : s.Sound) (now : Instant)
    (op : FilterOperation) :
    s.Unwritten (op.perform now s).2 now ∨
      ∃ stamp, s.Stamps (op.perform now s).2 now .filters op.id stamp := by
  cases op with
  | add b =>
    rcases Store.addFilter_cases h now b with ⟨error, he⟩ | ⟨free, he⟩ <;>
      simp only [perform, Store.tagOnly, he]
    · exact .inl (.ticked s now)
    · exact .inr ⟨_, .keeping (.inl ⟨free, rfl⟩)⟩
  | edit id selector e =>
    rw [perform_edit]
    rcases Store.modifyFilter_cases h now id selector e with
      ⟨error, he⟩ | ⟨b, c, hb, -, hc, ⟨-, he⟩ | ⟨-, he⟩⟩ <;> simp only [Store.tagOnly, he]
    · exact .inl (.touched s now)
    · exact .inl (.touched s now)
    · have key : c.id = id := (FilterEdit.apply_id_etag hc).1.trans (h.id_eq hb)
      subst key
      have pushed : (s.restamped now c).stamp = max (s.clock.next now) (b.stamp + 1) := by
        rw [← FilterEdit.stamp_apply hc]
        rfl
      exact .inr ⟨_, .keeping (.inr ⟨b, hb, pushed⟩)⟩
  | get id selector =>
    rcases Store.getFilter_cases h id selector with ⟨error, he⟩ | ⟨b, -, -, he⟩ <;>
      simp only [perform, Store.tagOnly, he]
    all_goals exact .inl (.touched s now)

/-- What an operation can do to the stamps: nothing, or it gives one to the document under its key. -/
theorem StoreOperation.perform_cases {s : Store} (h : s.Sound) (now : Instant) (op : StoreOperation) :
    s.Unwritten (op.perform now s) now ∨
      ∃ stamp, s.Stamps (op.perform now s) now op.collection op.key stamp := by
  cases op with
  | filter op => exact op.stamps_perform h now
  | addOutput o =>
    rcases s.addOutput_cases now o with ⟨error, he⟩ | ⟨free, he⟩ <;> simp only [perform, he]
    · exact .inl (.ticked s now)
    · exact .inr ⟨_, .puttingOutput (.inl ⟨Store.output?_of_free free, rfl⟩)⟩
  | getOutput id =>
    rcases s.getOutput_cases id with ⟨error, he⟩ | ⟨o, -, he⟩ <;> simp only [perform, he]
    all_goals exact .inl (.touched s now)
  | changeOutput id failed e =>
    rcases s.modifyOutput_cases now id failed e.change with ⟨error, he⟩ | ⟨o, p, ho, hp, he⟩ <;>
      simp only [perform, he]
    · exact .inl (.touched s now)
    · have pushed : (s.restampedOutput now p.1).stamp = max (s.clock.next now) (o.stamp + 1) := by
        rw [← e.keepsStamp o p hp]
        rfl
      exact .inr ⟨_, .puttingOutput (.inr ⟨o, ho, pushed⟩)⟩
  | addEvent id e =>
    rcases s.addOutputEvent_cases now id e with ⟨error, he⟩ | ⟨o, p, ho, hp, he⟩ <;>
      simp only [perform, he]
    · exact .inl (.touched s now)
    · exact .inr ⟨_, .puttingOutput (.inr ⟨o, ho, by rw [hp]; rfl⟩)⟩

theorem StoreOperation.sound_perform {s : Store} (h : s.Sound) (now : Instant) (op : StoreOperation) :
    (op.perform now s).Sound := by
  have of_find? (same : ∀ key, (op.perform now s).backend.find? .filters key =
      s.backend.find? .filters key) : (op.perform now s).Sound :=
    fun key text found => h key text ((same key).symm.trans found)
  by_cases onFilters : op.collection = .filters
  · cases op with
    | filter op => exact op.sound_perform h now
    | _ => cases onFilters
  · rcases op.perform_cases h now with unwritten | ⟨stamp, written⟩
    · exact of_find? fun key => unwritten.documents .filters key
    · exact of_find? fun key => written.beside .filters key fun same =>
        onFilters (congrArg Prod.fst same).symm

theorem StoreEvent.sound_leads {s : Store} (h : s.Sound) (e : StoreEvent) : (e.leads s).Sound := by
  cases e with
  | operation now op => exact op.sound_perform h now
  | reopen => exact h.of_filters_eq rfl

namespace WriteClock

theorem toNat_succ {x : UInt64} (h : x.toNat + 1 < UInt64.size) : (x + 1).toNat = x.toNat + 1 := by
  rw [UInt64.toNat_add]
  exact Nat.mod_eq_of_lt h

theorem toNat_next {c : WriteClock} (h : c.last.toNat + 1 < UInt64.size) (now : Instant) :
    (c.next now).toNat = max now.nanosSinceEpoch.toNat (c.last.toNat + 1) := by
  rw [next, UInt64.toNat_max, toNat_succ h]

theorem nanosSinceEpoch_lt (now : Instant) : now.nanosSinceEpoch.toNat < 2 ^ 63 := by
  unfold Instant.nanosSinceEpoch
  dsimp only
  split
  · next fits =>
    have small : (now.seconds * 1000000000 + now.nanos).toNat < 2 ^ 63 := by omega
    rwa [UInt64.toNat_ofNat_of_lt' (Nat.lt_trans small (by decide))]
  · decide

theorem last_lt_next {c : WriteClock} (h : c.last.toNat + 1 < UInt64.size) (now : Instant) :
    c.last < c.next now := by
  rw [UInt64.lt_iff_toNat_lt, toNat_next h]
  omega

end WriteClock

namespace Store

variable {s s' : Store} {now : Instant} {c : Collection} {key : String} {stamp : UInt64}

namespace Stamps

/-- The stamp of a write is greater than the one that it replaces, whatever the clock remembers. -/
theorem above (w : s.Stamps s' now c key stamp) (room : s.Unexhausted) {old : UInt64}
    (h : s.stampAt? c key = some old) : old < stamp := by
  rcases w.drawn with ⟨free, -⟩ | ⟨old', held, rfl⟩
  · cases free.symm.trans h
  · obtain rfl := Option.some.inj (held.symm.trans h)
    rw [UInt64.lt_iff_toNat_lt, UInt64.toNat_max, WriteClock.toNat_succ (room.stored _ _ _ h)]
    omega

/-- Where the clock is ahead of all stamps, the next one of the clock is the one that is given. -/
theorem stamp_eq (w : s.Stamps s' now c key stamp) (room : s.Unexhausted) (behind : s.Behind) :
    stamp = s'.clock.last := by
  rw [w.clock]
  change stamp = s.clock.next now
  rcases w.drawn with ⟨-, fresh⟩ | ⟨old, held, rfl⟩
  · exact fresh
  · have reached := UInt64.le_iff_toNat_le.mp (behind _ _ _ held)
    have pushed := WriteClock.toNat_next room.clock now
    rw [← UInt64.toNat_inj, UInt64.toNat_max, WriteClock.toNat_succ (room.stored _ _ _ held)]
    omega

/-- As long as the clock keeps its memory, no stored stamp is ahead of it. -/
theorem behind (w : s.Stamps s' now c key stamp) (room : s.Unexhausted) (behind : s.Behind) :
    s'.Behind := by
  intro c' key' stamp' h
  by_cases same : (c', key') = (c, key)
  · obtain ⟨rfl, rfl⟩ := Prod.mk.inj same
    obtain rfl := Option.some.inj (w.stored.symm.trans h)
    exact UInt64.le_of_eq (w.stamp_eq room behind)
  · rw [stampAt?_of_find? (w.beside c' key' same)] at h
    rw [w.clock]
    exact UInt64.le_trans (behind _ _ _ h) (UInt64.le_of_lt (WriteClock.last_lt_next room.clock now))

theorem find?_ne (w : s.Stamps s' now c key stamp) (room : s.Unexhausted) :
    s'.backend.find? c key ≠ s.backend.find? c key := fun same =>
  UInt64.lt_irrefl _ (w.above room ((stampAt?_of_find? same).symm.trans w.stored))

end Stamps

theorem Unwritten.behind (w : s.Unwritten s' now) (room : s.Unexhausted) (behind : s.Behind) :
    s'.Behind := by
  intro c key stamp h
  rw [stampAt?_of_find? (w.documents c key)] at h
  have reached := behind c key stamp h
  rcases w.clock with same | gone <;> rw [‹s'.clock = _›]
  · exact reached
  · exact UInt64.le_trans reached (UInt64.le_of_lt (WriteClock.last_lt_next room.clock now))

theorem Unwritten.last_le (w : s.Unwritten s' now) (room : s.Unexhausted) :
    s.clock.last ≤ s'.clock.last := by
  rcases w.clock with same | gone <;> rw [‹s'.clock = _›]
  · exact UInt64.le_refl _
  · exact UInt64.le_of_lt (WriteClock.last_lt_next room.clock now)

end Store

theorem StoreOperation.write?_of_unwritten {s : Store} {now : Instant} {op : StoreOperation}
    (w : s.Unwritten (op.perform now s) now) : (StoreEvent.operation now op).write? s = none :=
  if_pos (w.documents _ _)

/-- A write is in the log with the stamp that it drew. -/
theorem StoreOperation.write?_of_stamps {s : Store} {now : Instant} {op : StoreOperation}
    {stamp : UInt64} (w : s.Stamps (op.perform now s) now op.collection op.key stamp)
    (room : s.Unexhausted) :
    (StoreEvent.operation now op).write? s =
      some ⟨op.collection, op.key, s.stampAt? op.collection op.key, stamp⟩ := by
  rw [StoreEvent.write?, if_neg (w.find?_ne room), w.stored, Option.getD_some]

namespace Store

variable {s s' : Store} {events : List StoreEvent} {now : Instant} {c : Collection} {key : String}
  {stamp : UInt64}

theorem sound_after (h : s.Sound) (events : List StoreEvent) : (s.after events).Sound := by
  induction events generalizing s with
  | nil => exact h
  | cons e events ih => exact ih (StoreEvent.sound_leads h e)

/-- There is room for a history if no value in it comes to the last stamp. -/
def HasRoom (s : Store) (events : List StoreEvent) : Prop :=
  ∀ before, before <+: events → (s.after before).Unexhausted

theorem HasRoom.head (room : s.HasRoom events) : s.Unexhausted := room [] events.nil_prefix

theorem HasRoom.tail {e : StoreEvent} (room : s.HasRoom (e :: events)) : (e.leads s).HasRoom events :=
  fun before h => room (e :: before) (List.cons_prefix_cons.mpr ⟨rfl, h⟩)

/-- While the clock keeps its memory, stamps increase and are ahead of all that it gave out. -/
theorem log_increases (sound : s.Sound) (behind : s.Behind) (room : s.HasRoom events)
    (unbroken : ∀ e ∈ events, e ≠ .reopen) :
    (∀ w ∈ s.log events, s.clock.last < w.stamp) ∧
      ((s.log events).map (·.stamp)).Pairwise (· < ·) := by
  induction events generalizing s with
  | nil => exact ⟨nofun, .nil⟩
  | cons e events ih =>
    cases e with
    | reopen => exact absurd rfl (unbroken _ List.mem_cons_self)
    | operation now op =>
      have later := fun e he => unbroken e (List.mem_cons_of_mem _ he)
      have sound' : (op.perform now s).Sound := op.sound_perform sound now
      rcases op.perform_cases sound now with unwritten | ⟨stamp, written⟩
      · obtain ⟨ahead, increasing⟩ := ih sound' (unwritten.behind room.head behind) room.tail later
        rw [log, StoreOperation.write?_of_unwritten unwritten]
        exact ⟨fun w hw => UInt64.lt_of_le_of_lt (unwritten.last_le room.head) (ahead w hw), increasing⟩
      · obtain ⟨ahead, increasing⟩ := ih sound' (written.behind room.head behind) room.tail later
        have given := written.stamp_eq room.head behind
        have ticked : s.clock.last < stamp := by
          rw [given, written.clock]
          exact WriteClock.last_lt_next room.head.clock now
        rw [log, StoreOperation.write?_of_stamps written room.head]
        refine ⟨?_, List.pairwise_cons.mpr ⟨?_, increasing⟩⟩
        · intro w hw
          rcases List.mem_cons.mp hw with rfl | hw
          · exact ticked
          · exact UInt64.lt_trans ticked (given ▸ ahead w hw)
        · intro stamp' hs
          obtain ⟨w, hw, rfl⟩ := List.mem_map.mp hs
          exact given ▸ ahead w hw

/-- In a whole history, each write has a greater stamp than what it replaces. -/
theorem log_pushes (sound : s.Sound) (room : s.HasRoom events) {w : StoreWrite}
    (hw : w ∈ s.log events) {old : UInt64} (held : w.before = some old) : old < w.stamp := by
  induction events generalizing s with
  | nil => cases hw
  | cons e events ih =>
    rcases List.mem_append.mp hw with now | later
    · cases e with
      | reopen => cases now
      | operation t op =>
        rcases op.perform_cases sound t with unwritten | ⟨stamp, written⟩
        · rw [StoreOperation.write?_of_unwritten unwritten] at now
          cases now
        · rw [StoreOperation.write?_of_stamps written room.head] at now
          obtain rfl := List.mem_singleton.mp now
          exact written.above room.head held
    · exact ih (StoreEvent.sound_leads sound e) room.tail later

theorem log_append (s : Store) (before more : List StoreEvent) :
    s.log (before ++ more) = s.log before ++ (s.after before).log more := by
  induction before generalizing s with
  | nil => rfl
  | cons e before ih => rw [List.cons_append, log, ih, log, List.append_assoc]; rfl

/-- Nothing changes without being in the log. -/
theorem write?_of_find?_ne (sound : s.Sound) (room : s.Unexhausted) {e : StoreEvent}
    (changed : (e.leads s).backend.find? c key ≠ s.backend.find? c key) :
    ∃ stamp, e.write? s = some ⟨c, key, s.stampAt? c key, stamp⟩ ∧
      (e.leads s).stampAt? c key = some stamp := by
  cases e with
  | reopen => exact absurd rfl changed
  | operation now op =>
    rcases op.perform_cases sound now with unwritten | ⟨stamp, written⟩
    · exact absurd (unwritten.documents c key) changed
    · by_cases same : (c, key) = (op.collection, op.key)
      case neg => exact absurd (written.beside c key same) changed
      obtain ⟨rfl, rfl⟩ := Prod.mk.inj same
      exact ⟨stamp, StoreOperation.write?_of_stamps written room, written.stored⟩

theorem stampAt?_of_empty (noFilters : s.backend.filters = []) (noOutputs : s.backend.outputs = [])
    (c : Collection) (key : String) : s.stampAt? c key = none := by
  cases c with
  | filters => rw [stampAt?, filter?_of_empty noFilters]; rfl
  | outputs => rw [stampAt?, output?_of_empty noOutputs]; rfl

/-- The values in a store are bounded. -/
structure Within (s : Store) (bound : Nat) : Prop where
  clock : s.clock.last.toNat ≤ bound
  stored : ∀ c key stamp, s.stampAt? c key = some stamp → stamp.toNat ≤ bound

theorem Within.unexhausted {bound : Nat} (h : s.Within bound) (small : bound + 1 < UInt64.size) :
    s.Unexhausted where
  clock := Nat.lt_of_le_of_lt (Nat.succ_le_succ h.clock) small
  stored c key stamp held := Nat.lt_of_le_of_lt (Nat.succ_le_succ (h.stored c key stamp held)) small

theorem Within.of_unwritten {bound : Nat} (h : s.Within bound)
    (next : (s.clock.next now).toNat ≤ bound + 1) (w : s.Unwritten s' now) :
    s'.Within (bound + 1) := by
  refine ⟨?_, fun c key stamp held => ?_⟩
  · rcases w.clock with same | gone
    · rw [same]
      exact Nat.le_succ_of_le h.clock
    · rw [gone]
      exact next
  · rw [stampAt?_of_find? (w.documents c key)] at held
    exact Nat.le_succ_of_le (h.stored c key stamp held)

theorem Within.of_stamps {bound : Nat} (h : s.Within bound) (room : s.Unexhausted)
    (next : (s.clock.next now).toNat ≤ bound + 1) (w : s.Stamps s' now c key stamp) :
    s'.Within (bound + 1) := by
  refine ⟨by rw [w.clock]; exact next, fun c' key' stamp' held => ?_⟩
  by_cases same : (c', key') = (c, key)
  · obtain ⟨rfl, rfl⟩ := Prod.mk.inj same
    obtain rfl := Option.some.inj (w.stored.symm.trans held)
    rcases w.drawn with ⟨-, rfl⟩ | ⟨old, had, rfl⟩
    · exact next
    · have reached := h.stored _ _ _ had
      rw [UInt64.toNat_max, WriteClock.toNat_succ (room.stored _ _ _ had)]
      omega
  · rw [stampAt?_of_find? (w.beside c' key' same)] at held
    exact Nat.le_succ_of_le (h.stored c' key' stamp' held)

/-- The time of day fits 63 bits, and beyond that a value grows by one at most. -/
theorem Within.leads {bound : Nat} (h : s.Within bound) (sound : s.Sound) (large : 2 ^ 63 ≤ bound + 1)
    (small : bound + 1 < UInt64.size) (e : StoreEvent) : (e.leads s).Within (bound + 1) := by
  have room := h.unexhausted small
  cases e with
  | reopen =>
    exact ⟨Nat.zero_le _, fun c key stamp held => Nat.le_succ_of_le (h.stored c key stamp held)⟩
  | operation now op =>
    have next : (s.clock.next now).toNat ≤ bound + 1 := by
      have early := WriteClock.nanosSinceEpoch_lt now
      have reached := h.clock
      rw [WriteClock.toNat_next room.clock]
      omega
    rcases op.perform_cases sound now with unwritten | ⟨stamp, written⟩
    · exact h.of_unwritten next unwritten
    · exact h.of_stamps room next written

/-- Every event draws one stamp at most, so the values in a store stay bounded. -/
theorem Within.after {bound : Nat} (h : s.Within bound) (sound : s.Sound) (large : 2 ^ 63 ≤ bound + 1)
    (small : bound + events.length < UInt64.size) :
    (s.after events).Within (bound + events.length) := by
  induction events generalizing s bound with
  | nil => exact h
  | cons e events ih =>
    rw [List.length_cons] at small ⊢
    have led := h.leads sound large (by omega) e
    have rest := ih led (StoreEvent.sound_leads sound e) (by omega) (by omega)
    rwa [show bound + (events.length + 1) = bound + 1 + events.length by omega]

/-- There is room for any history that is not of astronomical length. -/
theorem hasRoom_of_length_lt (noFilters : s.backend.filters = []) (noOutputs : s.backend.outputs = [])
    (unused : s.clock = {}) (short : events.length < 2 ^ 63) : s.HasRoom events := by
  intro before starts
  have length := starts.length_le
  have size : UInt64.size = 2 ^ 64 := rfl
  have empty : s.Within (2 ^ 63 - 1) := by
    refine ⟨by rw [unused]; decide, fun c key stamp held => ?_⟩
    cases (stampAt?_of_empty noFilters noOutputs c key).symm.trans held
  have reached : (s.after before).Within (2 ^ 63 - 1 + before.length) :=
    empty.after (.of_empty noFilters) (by decide) (by omega)
  exact reached.unexhausted (by omega)

/-- Stamps move forward only. In any history of a store that starts out empty, whatever the times of
day, and as long as no value comes to the last one there is: if the store is never opened anew, the
stamps of all writes increase, in both collections together; and opened anew or not, each write to a
document gives it a greater stamp than it had. The log has every document that an event changes. What
changes an output, whatever it is, has no say about the stamp (`OutputEdit.keepsStamp`): it is the store
that gives a new one with the write. -/
theorem stamps_move_forward {s : Store} (noFilters : s.backend.filters = [])
    (noOutputs : s.backend.outputs = []) {events : List StoreEvent} (room : s.HasRoom events) :
    ((∀ e ∈ events, e ≠ .reopen) → ((s.log events).map (·.stamp)).Pairwise (· < ·)) ∧
    (∀ w ∈ s.log events, ∀ old, w.before = some old → old < w.stamp) ∧
    ∀ before e more, events = before ++ e :: more → ∀ c key,
      (e.leads (s.after before)).backend.find? c key ≠ (s.after before).backend.find? c key →
        ∃ w ∈ s.log events, w.collection = c ∧ w.key = key ∧
          w.before = (s.after before).stampAt? c key ∧
          (e.leads (s.after before)).stampAt? c key = some w.stamp := by
  have sound : s.Sound := .of_empty noFilters
  have behind : s.Behind := fun c key stamp held =>
    nomatch (stampAt?_of_empty noFilters noOutputs c key).symm.trans held
  refine ⟨fun unbroken => (log_increases sound behind room unbroken).2,
    fun w hw old held => log_pushes sound room hw held, ?_⟩
  rintro before e more rfl c key changed
  have reached : (s.after before).Unexhausted := room before (List.prefix_append _ _)
  obtain ⟨stamp, written, stored⟩ := write?_of_find?_ne (sound_after sound before) reached changed
  refine ⟨⟨c, key, (s.after before).stampAt? c key, stamp⟩, ?_, rfl, rfl, rfl, stored⟩
  rw [log_append, log, written]
  exact List.mem_append_right _ List.mem_cons_self

end Store

namespace Small

/-- Five seconds after the epoch. -/
def later : Instant := ⟨5, 0, by decide, by decide⟩

/-- Five seconds before it. -/
def earlier : Instant := ⟨-5, 0, by decide, by decide⟩

def emptyOutput (id : String) : Output where
  id
  filterId := ""
  instanceId := ""
  dataset := ⟨"", "", 0⟩
  dimensions := []
  events := []
  state := .created
  published := none
  kind := ""
  downloads := {}
  stamp := 7
  lastUpdated := later

/-- The time of day goes back after the first write. -/
def goingBack : List StoreEvent :=
  [.operation later (.addOutput (emptyOutput "o")), .operation earlier (.addOutput (emptyOutput "p")),
   .operation earlier (.changeOutput "o" ServiceError.ofStore (OutputUpdate.edit {} "" earlier))]

/-- The store is opened anew besides, so that its clock knows nothing of the first write. -/
def openedAnew : List StoreEvent :=
  [.operation later (.addOutput (emptyOutput "o")), .reopen,
   .operation earlier (.addEvent "o" ⟨.created, earlier⟩)]

/-- Both histories start from an empty store. -/
theorem going_back_moves_forward :
    (({} : Store).log goingBack).map (·.stamp) = [5000000000, 5000000001, 5000000002] ∧
    ((({} : Store).log goingBack).map (·.stamp)).Pairwise (· < ·) ∧
    ({} : Store).log openedAnew =
      [⟨.outputs, "o", none, 5000000000⟩, ⟨.outputs, "o", some 5000000000, 5000000001⟩] ∧
    ∀ w ∈ ({} : Store).log openedAnew, ∀ old, w.before = some old → old < w.stamp := by
  have short (events : List StoreEvent) (h : events.length < 2 ^ 63) : ({} : Store).HasRoom events :=
    Store.hasRoom_of_length_lt rfl rfl rfl h
  have unbroken : ∀ e ∈ goingBack, e ≠ .reopen := by simp [goingBack]
  refine ⟨by decide +kernel, ?_, by decide +kernel, ?_⟩
  · exact (Store.stamps_move_forward rfl rfl (short goingBack (by decide))).1 unbroken
  · exact (Store.stamps_move_forward rfl rfl (short openedAnew (by decide))).2.1

end Small
end DatasetFilters
