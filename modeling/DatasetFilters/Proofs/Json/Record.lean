import DatasetFilters.Json.Record
import Mathlib.Data.List.Forall2
import Mathlib.Data.List.Nodup

namespace DatasetFilters

theorem mapM_eq_some_iff {f : α → Option β} {l : List α} {l' : List β} :
    l.mapM f = some l' ↔ List.Forall₂ (fun a b => f a = some b) l l' := by
  constructor
  · intro h
    induction l generalizing l' with
    | nil =>
      obtain rfl := Option.some.inj h
      exact .nil
    | cons a l ih =>
      simp only [List.mapM_cons, bind, Option.bind_eq_some_iff] at h
      obtain ⟨b, first, bs, rest, made⟩ := h
      obtain rfl := Option.some.inj made
      exact .cons first (ih rest)
  · intro h
    induction h with
    | nil => rfl
    | cons first _ ih => simp [first, ih]

namespace Json

/-- What is given for the member of a name whose place in a list of members is `place`: what stands
at this place in an array, or under the name in an object. -/
def given (place : Nat) (name : String) : Json → List Json
  | .array items => items[place]?.toList
  | .object members => members.filterMap fun m => if m.1 = some name then some m.2 else none
  | _ => []

/-- A list of at most `count` items, or an object all of whose members have names. -/
def Lists (count : Nat) : Json → Prop
  | .array items => items.length ≤ count
  | .object members => ∀ m ∈ members, m.1.isSome = true
  | _ => False

/-- The value of a member: what is read of the one value that is given for it, or the default if none is. -/
def Member (j : Json) (place : Nat) (name : String) (default : α) (read : Json → Option α) (a : α) :
    Prop :=
  j.given place name = [] ∧ a = default ∨ ∃ v, j.given place name = [v] ∧ read v = some a

/-- An object with a member that is given once, whatever else it has. -/
def Has (j : Json) (name : String) (v : Json) : Prop :=
  ∃ members, j = .ofMembers members ∧ members.filter (·.1 == name) = [(name, v)]

theorem asList?_eq_some_iff {read : Json → Option α} {j : Json} {l : List α} :
    j.asList? read = some l ↔
      ∃ items, j = .array items ∧ List.Forall₂ (fun i a => read i = some a) items l := by
  cases j with
  | array items =>
    rw [asList?, mapM_eq_some_iff]
    exact ⟨fun h => ⟨items, rfl, h⟩, by rintro ⟨_, ⟨⟩, h⟩; exact h⟩
  | _ => exact iff_of_false (by rintro ⟨⟩) (by rintro ⟨_, ⟨⟩, _⟩)

end Json

namespace JsonRecord

variable {names : List String} {name : String} {place : Nat} {j : Json} {r : JsonRecord}

/-- The members of an object, where all have names. -/
def unnamed (members : List (String × Json)) : List (Option String × Json) :=
  members.map fun m => (some m.1, m.2)

theorem exists_unnamed_iff {members : List (Option String × Json)} :
    (∃ named, members = unnamed named) ↔ ∀ m ∈ members, m.1.isSome = true := by
  constructor
  · rintro ⟨named, rfl⟩ m mem
    obtain ⟨_, -, rfl⟩ := List.mem_map.mp mem
    rfl
  · intro whole
    induction members with
    | nil => exact ⟨[], rfl⟩
    | cons m members ih =>
      obtain ⟨named, rfl⟩ := ih fun m' mem => whole m' (List.mem_cons_of_mem _ mem)
      obtain ⟨name, v⟩ := m
      obtain ⟨name, rfl⟩ := Option.isSome_iff_exists.mp (whole _ List.mem_cons_self)
      exact ⟨(name, v) :: named, rfl⟩

theorem mapM_named_eq_some_iff {members : List (Option String × Json)} {named : List (String × Json)} :
    members.mapM (fun m : Option String × Json => m.1.map (·, m.2)) = some named ↔
      members = unnamed named := by
  rw [mapM_eq_some_iff, unnamed, ← List.forall₂_eq_eq_eq, List.forall₂_map_right_iff]
  have same (m : Option String × Json) (n : String × Json) :
      m.1.map (·, m.2) = some n ↔ m = (some n.1, n.2) := by
    obtain ⟨name, v⟩ := m
    obtain ⟨name', v'⟩ := n
    cases name <;> simp
  simp only [same]

/-- What is given under a name among the members of an object that are all named. -/
theorem given_unnamed (named : List (String × Json)) (place : Nat) (name : String) :
    (Json.object (unnamed named)).given place name =
      (named.filter (·.1 == name)).map (·.2) := by
  rw [Json.given, unnamed, List.filterMap_map]
  induction named with
  | nil => rfl
  | cons m named ih =>
    by_cases h : m.1 = name <;> simp_all

theorem length_given_unnamed (named : List (String × Json)) (place : Nat) (name : String) :
    ((Json.object (unnamed named)).given place name).length = (named.map (·.1)).count name := by
  rw [given_unnamed, List.length_map, List.count, List.countP_map, List.countP_eq_length_filter]
  rfl

/-- In a list of places that all have different names, a name leads to its place. -/
theorem lookup_zip (distinct : names.Nodup) (known : names[place]? = some name) (items : List Json) :
    (names.zip items).lookup name = items[place]? := by
  induction names generalizing place items with
  | nil => cases known
  | cons first names ih =>
    rw [List.nodup_cons] at distinct
    cases items with
    | nil => simp
    | cons item items =>
      rw [List.zip_cons_cons, List.lookup_cons]
      cases place with
      | zero =>
        obtain rfl := Option.some.inj known
        simp
      | succ place =>
        have other : (name == first) = false := by
          rw [beq_eq_false_iff_ne]
          rintro rfl
          exact distinct.1 (List.mem_of_getElem? known)
        rw [other]
        exact ih distinct.2 known items

/-- Among members of different names one at most has a name. -/
theorem filter_name_eq {members : List (String × Json)} (once : (members.map (·.1)).Nodup) :
    (members.filter (·.1 == name)).map (·.2) = (members.lookup name).toList := by
  induction members with
  | nil => rfl
  | cons m members ih =>
    rw [List.map_cons, List.nodup_cons] at once
    rw [List.lookup_cons, List.filter_cons]
    by_cases same : m.1 = name
    · subst same
      have none_else : members.filter (·.1 == m.1) = [] := by
        refine List.filter_eq_nil_iff.mpr fun m' mem same => once.1 ?_
        exact List.mem_map.mpr ⟨m', mem, eq_of_beq same⟩
      simp [none_else]
    · have other : (name == m.1) = false := beq_false_of_ne fun h => same h.symm
      rw [if_neg (by simpa using same), other, ih once.2]

theorem of?_unnamed (names : List String) (named : List (String × Json)) :
    of? names (.object (unnamed named)) =
      if ((named.filter fun m => names.contains m.1).map (·.1)).Nodup then
        some ⟨false, named.filter fun m => names.contains m.1⟩ else none := by
  rw [of?, mapM_named_eq_some_iff.mpr rfl]
  rfl

/-- The members of a record are given at most once each just if the known ones have different names. -/
theorem nodup_known_iff {named : List (String × Json)} :
    ((named.filter fun m => names.contains m.1).map (·.1)).Nodup ↔
      ∀ name ∈ names, (named.map (·.1)).count name ≤ 1 := by
  have known : (named.filter fun m => names.contains m.1).map (·.1) =
      (named.map (·.1)).filter names.contains := by
    rw [List.filter_map]
    rfl
  rw [known, List.nodup_iff_count_le_one]
  constructor
  · intro h name mem
    rw [← List.count_filter (p := names.contains) (List.contains_iff_mem.mpr mem)]
    exact h name
  · intro h name
    by_cases mem : name ∈ names
    · rw [List.count_filter (List.contains_iff_mem.mpr mem)]
      exact h name mem
    · have unknown : name ∉ (named.map (·.1)).filter names.contains := fun found =>
        mem (List.contains_iff_mem.mp (List.mem_filter.mp found).2)
      rw [List.count_eq_zero_of_not_mem unknown]
      omega

/-- A value is read as a record just if it is a list with nothing behind or without a name, and no
member is given twice. -/
theorem exists_of?_iff (names : List String) (j : Json) :
    (∃ r, of? names j = some r) ↔ j.Lists names.length ∧
      ∀ place name, names[place]? = some name → (j.given place name).length ≤ 1 := by
  cases j with
  | array items =>
    have short (place : Nat) : items[place]?.toList.length ≤ 1 := by
      cases items[place]? <;> simp
    rw [of?]
    split
    next fits => exact iff_of_true ⟨_, rfl⟩ ⟨fits, fun place _ _ => short place⟩
    next crowded => exact iff_of_false (by rintro ⟨_, ⟨⟩⟩) fun h => crowded h.1
  | object members =>
    by_cases whole : ∃ named, members = unnamed named
    · obtain ⟨named, rfl⟩ := whole
      simp only [of?_unnamed, nodup_known_iff, length_given_unnamed]
      have once : (∀ name ∈ names, (named.map (·.1)).count name ≤ 1) ↔
          ∀ (place : Nat) (name : String), names[place]? = some name →
            (named.map (·.1)).count name ≤ 1 := by
        simp only [List.mem_iff_getElem?]
        constructor
        · intro h place name found
          exact h name ⟨place, found⟩
        · rintro h name ⟨place, found⟩
          exact h place name found
      have whole : (Json.object (unnamed named)).Lists names.length :=
        exists_unnamed_iff.mp ⟨named, rfl⟩
      rw [← once, and_iff_right whole]
      split
      next distinct => exact iff_of_true ⟨_, rfl⟩ distinct
      next repeated => exact iff_of_false (by rintro ⟨_, ⟨⟩⟩) repeated
    · refine iff_of_false ?_ fun h => whole (exists_unnamed_iff.mpr h.1)
      rintro ⟨r, h⟩
      simp only [of?, bind, Option.bind_eq_some_iff] at h
      obtain ⟨named, found, -⟩ := h
      exact whole ⟨named, mapM_named_eq_some_iff.mp found⟩
  | _ => exact iff_of_false (by rintro ⟨_, ⟨⟩⟩) fun h => h.1

/-- What is found of a member is what is given for it. -/
theorem given_eq (distinct : names.Nodup) (h : of? names j = some r)
    (known : names[place]? = some name) : j.given place name = (r.find? name).toList := by
  cases j with
  | array items =>
    rw [of?] at h
    split at h
    case isFalse => cases h
    obtain rfl := Option.some.inj h
    rw [Json.given, find?, lookup_zip distinct known]
  | object members =>
    simp only [of?, bind, Option.bind_eq_some_iff] at h
    obtain ⟨named, found, h⟩ := h
    obtain rfl := mapM_named_eq_some_iff.mp found
    split at h
    case isFalse => cases h
    next once =>
    obtain rfl := Option.some.inj h
    have kept : named.filter (·.1 == name) =
        (named.filter fun m => names.contains m.1).filter (·.1 == name) := by
      rw [List.filter_filter]
      refine List.filter_congr fun m _ => ?_
      by_cases same : m.1 = name
      · simp [same, List.mem_of_getElem? known]
      · simp [same]
    rw [given_unnamed, kept, filter_name_eq once, find?]
  | _ => cases h

/-- A member with a default is read as the one value that is given for it. -/
theorem defaulted_eq_some_iff (distinct : names.Nodup) (h : of? names j = some r)
    (known : names[place]? = some name) {default a : α} {read : Json → Option α} :
    r.defaulted name default read = some a ↔ j.Member place name default read a := by
  rw [Json.Member, given_eq distinct h known, defaulted]
  cases r.find? name with
  | none => simp [eq_comm]
  | some v => simp

/-- A member that is given once is found, whatever else the object has. -/
theorem of?_of_has {j v : Json} {name : String} (h : j.Has name v) :
    of? [name] j = some ⟨false, [(name, v)]⟩ := by
  obtain ⟨members, rfl, once⟩ := h
  have known : members.filter (fun m => [name].contains m.1) = [(name, v)] := by
    rw [← once]
    refine List.filter_congr fun m _ => ?_
    by_cases same : m.1 = name <;> simp [same]
  change of? [name] (.object (unnamed members)) = _
  rw [of?_unnamed, known]
  simp

/-- The members of a record are each given once at most. -/
theorem length_given_of_member {default a : α} {read : Json → Option α}
    (h : j.Member place name default read a) : (j.given place name).length ≤ 1 := by
  rcases h with ⟨none, -⟩ | ⟨v, one, -⟩
  · simp [none]
  · simp [one]

end JsonRecord
end DatasetFilters
