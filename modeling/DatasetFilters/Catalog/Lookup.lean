import DatasetFilters.Catalog.Basic

namespace DatasetFilters

/-- The bounds of a lookup. Zero counts as one. -/
structure BatchLimits where
  size : Nat
  workers : Nat
  deriving DecidableEq, Repr

/-- Cuts a list into runs of `n + 1` members, the last one possibly shorter. -/
def chunks (n : Nat) (l : List α) : List (List α) :=
  match l with
  | [] => []
  | a :: rest => (a :: rest.take n) :: chunks n (rest.drop n)
termination_by l.length
decreasing_by simp only [List.length_drop, List.length_cons]; omega

structure Confirmation where
  requested : List String
  found : List String
  deriving DecidableEq, Repr

/-- A lookup of many option ids in batches, under way. It keeps at most a fixed number of requests
in flight, which may come back in any order. The first batch that fails stops further requests;
those in flight are waited for and their answers dropped. -/
structure Lookup where
  workers : Nat
  waiting : List (List String)
  running : List (List String)
  /-- Answers taken so far, in the order in which they came. -/
  confirmed : List Confirmation
  failure : Option CatalogError
  deriving Repr

namespace Lookup

def plan (limits : BatchLimits) (ids : List String) : Lookup where
  workers := max limits.workers 1
  waiting := chunks (max limits.size 1 - 1) ids
  running := []
  confirmed := []
  failure := none

/-- Makes the request for the next batch, if there is one, no failure was seen and there is room. -/
def start? (l : Lookup) : Option Lookup :=
  match l.waiting with
  | b :: rest =>
    if l.failure.isNone && l.running.length < l.workers then
      some { l with waiting := rest, running := l.running ++ [b] }
    else none
  | [] => none

/-- Takes the answer to the request at place `i` of those in flight. After a failure answers are
dropped. -/
def finish? (l : Lookup) (i : Nat) (answer : CatalogReply (List String)) : Option Lookup :=
  match l.running[i]? with
  | none => none
  | some b =>
    let l := { l with running := l.running.eraseIdx i }
    if l.failure.isSome then some l
    else match answer with
      | .ok found => some { l with confirmed := l.confirmed ++ [⟨b, found⟩] }
      | .error e => some { l with failure := some e }

def isDone (l : Lookup) : Bool :=
  l.running.isEmpty && (l.waiting.isEmpty || l.failure.isSome)

/-- What came of a lookup that is done: the failure, or all answers in order of arrival. -/
def outcome (l : Lookup) : CatalogReply (List Confirmation) :=
  match l.failure with
  | some e => .error e
  | none => .ok l.confirmed

end Lookup
end DatasetFilters
