import DatasetFilters.Service.Outputs
import DatasetFilters.Service.Selections

namespace DatasetFilters

inductive ServiceCall where
  | create (r : NewBlueprint) (andSubmit : Bool)
  | get (id : String) (selector : Selector)
  | update (id : String) (u : BlueprintUpdate) (andSubmit : Bool) (selector : Selector)
  | dimensions (id : String) (selector : Selector)
  | dimension (id name : String) (selector : Selector)
  | addDimension (id : String) (d : Dimension) (selector : Selector)
  | removeDimension (id name : String) (selector : Selector)
  | options (id name : String) (selector : Selector)
  | option (id name option : String) (selector : Selector)
  | addOption (id name option : String) (selector : Selector)
  | removeOption (id name option : String) (selector : Selector)
  | patch (id name : String) (operations : List PatchOperation) (selector : Selector)
  | output (id : String)
  | updateOutput (id : String) (u : OutputUpdate)
  | addEvent (id : String) (r : EventRequest)
  deriving DecidableEq

inductive Answer where
  | blueprint (b : Blueprint)
  | dimensions (ds : List Dimension) (tag : String)
  | dimension (d : Dimension) (tag : String)
  | options (options : List String) (tag : String)
  | tag (tag : String)
  | patched (operations : List PatchOperation) (tag : String)
  | output (o : Output)
  | recorded

namespace ServiceCall

def request (settings : Settings) (caller : Caller) : ServiceCall → Request ServiceError Answer
  | create r andSubmit => return .blueprint (← Blueprints.create settings r andSubmit caller)
  | get id selector => return .blueprint (← Blueprints.get id selector caller)
  | update id u andSubmit selector =>
    return .blueprint (← Blueprints.update settings id u andSubmit selector caller)
  | dimensions id selector => do
    let (ds, tag) ← Selections.list id selector caller
    return .dimensions ds tag
  | dimension id name selector => do
    let (d, tag) ← Selections.get id name selector caller
    return .dimension d tag
  | addDimension id d selector => do
    let (d, tag) ← Selections.add settings id d selector caller
    return .dimension d tag
  | removeDimension id name selector => return .tag (← Selections.remove id name selector caller)
  | options id name selector => do
    let (selected, tag) ← Selections.options id name selector caller
    return .options selected tag
  | option id name o selector => return .tag (← Selections.option id name o selector caller)
  | addOption id name o selector =>
    return .tag (← Selections.addOption settings id name o selector caller)
  | removeOption id name o selector =>
    return .tag (← Selections.removeOption id name o selector caller)
  | patch id name operations selector => do
    let (operations, tag) ← Selections.patch settings id name operations selector caller
    return .patched operations tag
  | output id => return .output (← Outputs.get id caller)
  | updateOutput id u => return .output (← Outputs.update settings id u caller)
  | addEvent id r => do
    Outputs.addEvent id r caller
    return .recorded

/-- The stored blueprint that a call is about, and the condition on its tag. -/
def target? : ServiceCall → Option (String × Selector)
  | create .. | output .. | updateOutput .. | addEvent .. => none
  | get id selector | update id _ _ selector | dimensions id selector | dimension id _ selector
  | addDimension id _ selector | removeDimension id _ selector | options id _ selector
  | option id _ _ selector | addOption id _ _ selector | removeOption id _ _ selector
  | patch id _ _ selector => some (id, selector)

/-- Whether a call is to submit the blueprint that it creates or updates. -/
def submits : ServiceCall → Bool
  | create _ andSubmit | update _ _ andSubmit _ => andSubmit
  | _ => false

/-- Whether a call reads its blueprint by the rule of visibility, which publishes it if it can. -/
def looks : ServiceCall → Bool
  | create .. | update .. | output .. | updateOutput .. | addEvent .. => false
  | _ => true

end ServiceCall

/-- The sender of a call: the how-manieth of the run, who it is, and what it calls. -/
structure Client where
  place : Nat
  caller : Caller
  call : ServiceCall
  deriving DecidableEq

structure Task where
  client : Client
  step : Step ServiceError Answer

structure Server where
  world : World
  tasks : List Task

def Step.world : Step ε α → World
  | done _ w => w
  | acted w _ => w
  | ask w _ _ => w

/-- How a suspended request goes on in a world, its question answered as `answers` allows. -/
inductive Step.Resumes (answers : (q : Query) → q.Reply → Prop) (w : World) :
    Step ε α → Step ε α → Prop
  | acted (left : World) (resume : World → Step ε α) :
      Resumes answers w (.acted left resume) (resume w)
  | answered (left : World) (q : Query) (resume : q.Reply → World → Step ε α) (r : q.Reply)
      (h : answers q r) : Resumes answers w (.ask left q resume) (resume r w)

inductive Server.Moves (settings : Settings) (answers : (q : Query) → q.Reply → Prop) (s : Server) :
    Option Client → Server → Prop
  /-- A call comes in and its request runs to its first action or question. -/
  | enter (caller : Caller) (call : ServiceCall) :
      Moves settings answers s (some ⟨s.tasks.length, caller, call⟩)
        ⟨(call.request settings caller s.world).world,
          s.tasks ++ [⟨⟨s.tasks.length, caller, call⟩, call.request settings caller s.world⟩]⟩
  /-- A request goes on to its next action or question. -/
  | goOn (i : Nat) (task : Task) (step : Step ServiceError Answer) (hi : s.tasks[i]? = some task)
      (hr : task.step.Resumes answers s.world step) :
      Moves settings answers s (some task.client)
        ⟨step.world, s.tasks.set i ⟨task.client, step⟩⟩
  | receive :
      Moves settings answers s none
        { s with world := { s.world with channel := s.world.channel.receive.2 } }
  /-- The receiver goes away. -/
  | close :
      Moves settings answers s none
        { s with world := { s.world with channel := s.world.channel.close } }

/-- Who moved, and the world before and after. -/
structure Moment where
  mover : Option Client
  before : World
  after : World

/-- The runs from a world: their moments, the last one first, and the server at their end. The
server advances one request at a time, to its next action, question or end, and in between the
workers may take messages from the channel. Questions are answered as `answers` allows after so many
moments. -/
inductive Run (settings : Settings) (answers : Nat → (q : Query) → q.Reply → Prop) (start : World) :
    List Moment → Server → Prop
  | start : Run settings answers start [] ⟨start, []⟩
  | next {past : List Moment} {s s' : Server} {mover : Option Client}
      (run : Run settings answers start past s)
      (move : s.Moves settings (answers past.length) mover s') :
      Run settings answers start (⟨mover, s.world, s'.world⟩ :: past) s'

end DatasetFilters
