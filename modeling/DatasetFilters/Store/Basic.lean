import DatasetFilters.Blueprint.Document
import DatasetFilters.Etag.Content
import DatasetFilters.Etag.Selector
import DatasetFilters.Output.Document
import DatasetFilters.Store.Backend
import DatasetFilters.Store.WriteClock

namespace DatasetFilters

/-- Blueprints and outputs over a backend, with the clock that stamps writes. -/
structure Store where
  backend : Backend := {}
  clock : WriteClock := {}

namespace Store

def readFilter (id : String) (text : Option Octets) : Except StoreError Blueprint :=
  match text with
  | none => .error (.filterNotFound id)
  | some text =>
    match Blueprint.decode? text with
    | none => .error (.serialization "not a blueprint")
    | some b => .ok b

def readOutput (id : String) (text : Option Octets) : Except StoreError Output :=
  match text with
  | none => .error (.outputNotFound id)
  | some text =>
    match Output.decode? text with
    | none => .error (.serialization "not an output")
    | some o => .ok o

def selectFilter (id : String) (selector : Selector) (text : Option Octets) :
    Except StoreError Blueprint := do
  let b ← readFilter id text
  if selector.accepts b.etag then return b else throw (.conflict id)

def getFilter (s : Store) (id : String) (selector : Selector) :
    Except StoreError Blueprint × Store :=
  let (text, backend) := s.backend.get .filters id
  (text.bind (selectFilter id selector), { s with backend })

/-- A new blueprint as it is stored: with its tag, a stamp and the time. -/
def stampedFilter (s : Store) (now : Instant) (b : Blueprint) : Blueprint :=
  { b with etag := b.tag, stamp := s.clock.next now, lastUpdated := now }

def addFilter (s : Store) (now : Instant) (b : Blueprint) : Except StoreError Blueprint × Store :=
  let b := s.stampedFilter now b
  let (r, backend) := s.backend.insert .filters b.id b.encode
  (r.map fun _ => b, { backend, clock := s.clock.advanced now })

/-- What a change makes of a stored blueprint: the blueprint, and whether it is to be written. -/
def projectFilter (clock : WriteClock) (now : Instant) (id : String) (selector : Selector)
    (change : Blueprint → Except StoreError Blueprint) (text : Option Octets) :
    Except StoreError (Blueprint × Bool) := do
  let b ← selectFilter id selector text
  let changed ← change b
  if changed.tag = b.etag then return (changed, false)
  else
    return ({ changed with
      etag := changed.tag
      stamp := max (clock.next now) (changed.stamp + 1)
      lastUpdated := now }, true)

/-- Every write of a blueprint compares and sets: the stored tag has to meet the selector, the
change is made to the stored document, and document, tag and stamp are written together. A change
that leaves the tag as it was writes nothing. -/
def modifyFilter (s : Store) (now : Instant) (id : String) (selector : Selector)
    (change : Blueprint → Except StoreError Blueprint) : Except StoreError Blueprint × Store :=
  let (r, backend) := s.backend.modify .filters id
    (fun text => (projectFilter s.clock now id selector change text).map fun p =>
      (p, if p.2 then some p.1.encode else none)) (fun e => e)
  match r with
  | .error e => (.error e, { s with backend })
  | .ok (b, written) =>
    (.ok b, { backend, clock := if written then s.clock.advanced now else s.clock })

def ensureEditable (b : Blueprint) : Except StoreError Unit :=
  if b.isSubmitted then .error (.submitted b.id) else .ok ()

def updateFilter (s : Store) (now : Instant) (id : String) (c : BlueprintChange)
    (selector : Selector) : Except StoreError Blueprint × Store :=
  s.modifyFilter now id selector fun b => .ok (c.apply b)

def tagOnly (r : Except StoreError Blueprint × Store) : Except StoreError String × Store :=
  (r.1.map (·.etag), r.2)

/-- Appends a dimension, or replaces the options of the one of the same name. -/
def addDimension (s : Store) (now : Instant) (id : String) (d : Dimension) (selector : Selector) :
    Except StoreError String × Store :=
  tagOnly <| s.modifyFilter now id selector fun b => do
    ensureEditable b
    return b.upsertDimension d

def removeDimension (s : Store) (now : Instant) (id name : String) (selector : Selector) :
    Except StoreError String × Store :=
  tagOnly <| s.modifyFilter now id selector fun b => do
    ensureEditable b
    if (b.dimension? name).isNone then throw (.dimensionNotFound name)
    return b.removeDimension name

def editOptions (s : Store) (now : Instant) (id name : String) (edit : Dimension → Dimension)
    (selector : Selector) : Except StoreError String × Store :=
  tagOnly <| s.modifyFilter now id selector fun b => do
    ensureEditable b
    let some b := b.modifyDimension? name edit | throw (.dimensionNotFound name)
    return b

def addOptions (s : Store) (now : Instant) (id name : String) (options : List String)
    (selector : Selector) : Except StoreError String × Store :=
  s.editOptions now id name (·.insert options) selector

def removeOptions (s : Store) (now : Instant) (id name : String) (options : List String)
    (selector : Selector) : Except StoreError String × Store :=
  s.editOptions now id name (·.erase options) selector

def getOutput (s : Store) (id : String) : Except StoreError Output × Store :=
  let (text, backend) := s.backend.get .outputs id
  (text.bind (readOutput id), { s with backend })

def addOutput (s : Store) (now : Instant) (o : Output) : Except StoreError Output × Store :=
  let o := { o with stamp := s.clock.next now }
  let (r, backend) := s.backend.insert .outputs o.id o.encode
  (r.map fun _ => o, { backend, clock := s.clock.advanced now })

/-- What a change makes of a stored output, and what else it tells. -/
def projectOutput (clock : WriteClock) (now : Instant) (id : String) (failed : StoreError → ε)
    (change : Output → Except ε (Output × α)) (text : Option Octets) : Except ε (Output × α) := do
  let o ← (readOutput id text).mapError failed
  let (o, a) ← change o
  return ({ o with stamp := max (clock.next now) (o.stamp + 1), lastUpdated := now }, a)

/-- Changes a stored output. The change may refuse for reasons of its own. -/
def modifyOutput (s : Store) (now : Instant) (id : String) (failed : StoreError → ε)
    (change : Output → Except ε (Output × α)) : Except ε (Output × α) × Store :=
  let (r, backend) := s.backend.modify .outputs id
    (fun text => (projectOutput s.clock now id failed change text).map fun p =>
      (p, some p.1.encode)) failed
  match r with
  | .error e => (.error e, { s with backend })
  | .ok p => (.ok p, { backend, clock := s.clock.advanced now })

def addOutputEvent (s : Store) (now : Instant) (id : String) (e : Event) :
    Except StoreError Output × Store :=
  let (r, s) := s.modifyOutput now id (fun e => e) fun o =>
    .ok ({ o with events := o.events ++ [e] }, ())
  (r.map (·.1), s)

/-- A store opened anew over the same documents: the clock forgets what it gave out. -/
def reopened (s : Store) : Store := { s with clock := {} }

inductive FileState where
  | absent
  | database (documents : Backend)
  /-- Not a file, not a database, or out of reach. -/
  | unusable (reason : String)

inductive Location where
  | memory
  | file (path : String)
  deriving DecidableEq, Repr

/-- The location that a configured path names. A path of blanks names none. -/
def Location.ofPath : Option String → Location
  | some path => if Text.isBlankText path then .memory else .file path
  | none => .memory

/-- Opens a store; `disk` says what stands at the path. -/
def openAt (disk : String → FileState) : Location → Except StoreError Store
  | .memory => .ok {}
  | .file path =>
    match disk path with
    | .absent => .ok {}
    | .database documents => .ok { backend := documents }
    | .unusable reason => .error (.backend reason)

end Store
end DatasetFilters
