import DatasetFilters.Api.Forwarding
import DatasetFilters.Proofs.Api.Address

namespace DatasetFilters

/-- The piece of a path that is in front of the ids of a collection. -/
def Collection.segment : Collection → String
  | .filters => "filters"
  | .outputs => "filter-outputs"

namespace Route

variable {α β : Type} {route : Route Octets}

/-- The document that a route is about. -/
def document? : Route α → Option (Collection × α)
  | health | metrics | filters => none
  | filter id | dimensions id | dimension id _ | options id _ | option id _ _ => some (.filters, id)
  | output id | events id => some (.outputs, id)

theorem document?_map (f : α → β) (route : Route α) :
    (route.map f).document? = route.document?.map fun d => (d.1, f d.2) := by
  cases route <;> rfl

/-- The id that a handler is given is the decoded piece of the path. -/
theorem document?_of_decode {decoded : Route String} {c : Collection} {id : String}
    (h : route.decode = .ok decoded) (about : decoded.document? = some (c, id)) :
    ∃ raw, route.document? = some (c, raw) ∧ Octets.text? (Percent.decode raw) = some id := by
  have same := congrArg document? (decode_eq_ok_iff.mp h)
  rw [document?_map, document?_map, about, Option.map_some, Option.map_eq_some_iff] at same
  obtain ⟨⟨c', raw⟩, sent, same⟩ := same
  obtain ⟨rfl, read⟩ := Prod.mk.inj same
  exact ⟨raw, sent, Octets.text?_eq_some_iff.mpr read⟩

/-- The pieces that decide about a request are those of its route. -/
theorem pieces_of_ofPath? {withMetrics : Bool} {path : Octets}
    (h : ofPath? withMetrics path = some route) (api : route.isApi = true) :
    route = .filters ∧ Forwarding.pieces path = [Octets.ofText Collection.filters.segment] ∨
      ∃ c raw rest, route.document? = some (c, raw) ∧
        Forwarding.pieces path = Octets.ofText c.segment :: raw :: rest := by
  obtain ⟨cut, filled, -⟩ := ofPath?_eq_some_iff.mp h
  have named : (route.pieces Octets.ofText).head? ≠ some [] := by
    cases route <;> exact fun first => absurd (Option.some.inj first) (by decide)
  have trimmed : Forwarding.pieces path = route.pieces Octets.ofText :=
    Text.splitAt_trimmed cut (route.pieces_ne_nil _) named filled
  rw [trimmed]
  cases route
  case health | metrics => cases api
  case filters => exact .inl ⟨rfl, rfl⟩
  all_goals exact .inr ⟨_, _, _, rfl, rfl⟩

end Route

end DatasetFilters
