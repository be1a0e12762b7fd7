import DatasetFilters.Catalog.Lookup
import DatasetFilters.Http.Message
import DatasetFilters.Queue.Channel
import DatasetFilters.Service.Counters
import DatasetFilters.Service.Error
import DatasetFilters.Store.Basic

namespace DatasetFilters

/-- What requests work on, in single actions. An action happens at once; between two actions and
while a question is open, other requests may change the world. -/
structure World where
  store : Store := {}
  channel : Channel
  counters : Counters := []
  /-- The ids that are drawn, in order. -/
  ids : Nat → String
  idsDrawn : Nat := 0
  /-- The times that are read, in order. -/
  clock : Nat → Instant
  readings : Nat := 0

/-- A question to a service outside of the world. -/
inductive Query where
  | dataset (id : String)
  | version (dataset : DatasetRef) (authenticated : Bool)
  | dimensions (dataset : DatasetRef)
  /-- Which ids are options of a dimension, looked up in batches. -/
  | options (dataset : DatasetRef) (dimension : String) (lookup : Lookup)
  /-- A request passed on to the service for flexible tables, whose address is `url`. -/
  | forward (url : String) (request : Http.Request)

namespace Query

def Reply : Query → Type
  | dataset _ => CatalogReply Dataset
  | version _ _ => CatalogReply Version
  | dimensions _ => CatalogReply (List VersionDimension)
  | options _ _ _ => CatalogReply (List Confirmation)
  | forward _ _ => Except String Http.Response

end Query

/-- A request that is finished, or that is suspended after an action or at a question. -/
inductive Step (ε α : Type) where
  | done (result : Except ε α) (world : World)
  /-- The world as an action leaves it, and how the request goes on from the world as it finds it
  then. -/
  | acted (world : World) (resume : World → Step ε α)
  /-- The world as the request leaves it, and how it goes on from the answer and the world as it
  finds it then. -/
  | ask (world : World) (query : Query) (resume : query.Reply → World → Step ε α)

/-- A request that gives an `α` or fails with an `ε`. -/
def Request (ε α : Type) : Type := World → Step ε α

namespace Step

def andThen (f : α → Request ε β) : Step ε α → Step ε β
  | done (.ok a) w => f a w
  | done (.error e) w => done (.error e) w
  | acted w resume => acted w fun w => (resume w).andThen f
  | ask w q resume => ask w q fun r w => (resume r w).andThen f

def mapResult (f : Except ε α → Except δ β) : Step ε α → Step δ β
  | done r w => done (f r) w
  | acted w resume => acted w fun w => (resume w).mapResult f
  | ask w q resume => ask w q fun r w => (resume r w).mapResult f

/-- Runs a request to its end, one action right after the other. `answer` answers each question; it
may change the world meanwhile, and keeps a state of its own. -/
def run (answer : (q : Query) → World → σ → q.Reply × World × σ) :
    Step ε α → σ → Except ε α × World × σ
  | done r w, s => (r, w, s)
  | acted w resume, s => (resume w).run answer s
  | ask w q resume, s =>
    let (reply, w, s) := answer q w s
    (resume reply w).run answer s

end Step

namespace Request

instance : Monad (Request ε) where
  pure a := fun w => .done (.ok a) w
  bind r f := fun w => (r w).andThen f

def fail (e : ε) : Request ε α := fun w => .done (.error e) w

/-- The result of a request as a value, failures included. -/
def attempt (r : Request ε α) : Request δ (Except ε α) := fun w => (r w).mapResult .ok

def mapError (f : ε → δ) (r : Request ε α) : Request δ α := fun w => (r w).mapResult (·.mapError f)

def ofExcept (r : Except ε α) : Request ε α := fun w => .done r w

def ask (q : Query) : Request ε q.Reply := fun w => .ask w q fun r w => .done (.ok r) w

/-- An answer of the catalog, whose failures become those of the request. -/
def answered (r : CatalogReply α) : Request ServiceError α := ofExcept (r.mapError .ofCatalog)

def act (f : World → α × World) : Request ε α := fun w =>
  .acted (f w).2 fun w' => .done (.ok (f w).1) w'

def now : Request ε Instant := act fun w => (w.clock w.readings, { w with readings := w.readings + 1 })

def drawId : Request ε String := act fun w => (w.ids w.idsDrawn, { w with idsDrawn := w.idsDrawn + 1 })

def count (c : Counter) : Request ε Unit :=
  act fun w => ((), { w with counters := w.counters.increment c })

def access (f : Store → Except δ α × Store) : Request ε (Except δ α) :=
  act fun w => let (r, store) := f w.store; (r, { w with store })

def read (f : Store → Except StoreError α × Store) : Request ServiceError α := do
  ofExcept ((← access f).mapError .ofStore)

def write (f : Store → Instant → Except StoreError α × Store) : Request ServiceError α := do
  let t ← now
  read (f · t)

def enqueue (outputId : String) : Request ε (Except QueueError Unit) :=
  act fun w => let (r, channel) := w.channel.enqueue outputId; (r, { w with channel })

end Request

structure Settings where
  limits : BatchLimits
  maxPatchOptions : Nat
  downloadUrl : String
  deriving DecidableEq, Repr

end DatasetFilters
