import DatasetFilters.Blueprint.Document
import DatasetFilters.Proofs.Instant.RoundTrip
import DatasetFilters.Proofs.Json.RoundTrip
import DatasetFilters.Table

namespace DatasetFilters

namespace Json

@[simp] theorem isPlain_text (s : String) : isPlain (.text s) = true := by simp [isPlain]

@[simp] theorem isPlain_bool (b : Bool) : isPlain (.bool b) = true := by simp [isPlain]

@[simp] theorem isPlain_nat (n : Nat) : isPlain (.nat n) = true := by
  simp [nat, isPlain, JsonNumber.ofNat]

theorem isPlain_array_map {f : α → Json} (l : List α) (hf : ∀ a, isPlain (f a) = true) :
    isPlain (.array (l.map f)) = true := by
  rw [isPlain]
  induction l with
  | nil => rw [List.map_nil, arePlainItems]
  | cons a l ih => rw [List.map_cons, arePlainItems, hf, ih, Bool.and_self]

@[simp] theorem isPlain_texts (l : List String) : isPlain (texts l) = true :=
  isPlain_array_map l isPlain_text

theorem isPlain_ofMembers {members : List (String × Json)}
    (h : ∀ m ∈ members, isPlain m.2 = true) : isPlain (ofMembers members) = true := by
  rw [ofMembers, isPlain]
  induction members with
  | nil => rw [List.map_nil, arePlainMembers]
  | cons m members ih =>
    rw [List.map_cons, arePlainMembers, h m List.mem_cons_self,
      ih fun m' hm => h m' (List.mem_cons_of_mem _ hm)]
    rfl

@[simp] theorem asNat?_nat {n bound : Nat} (h : n < bound) : (nat n).asNat? bound = some n := by
  simp [nat, asNat?, JsonNumber.nat?_ofNat, h]

/-- A list is read back if each of its items is. -/
theorem asList?_map (write : α → Json) {read : Json → Option α}
    (h : ∀ a, read (write a) = some a) (l : List α) :
    asList? read (.array (List.map write l)) = some l := by
  rw [asList?]
  induction l with
  | nil => rfl
  | cons a l ih => simp [h, ih]

@[simp] theorem asList?_texts (l : List String) : asList? asText? (texts l) = some l :=
  asList?_map .text (fun _ => rfl) l

end Json

namespace JsonRecord

/-- An object whose members are some of the expected ones, in their order, is read with just these
members. -/
theorem of?_ofMembers {names : List String} {members : List (String × Json)} (hn : names.Nodup)
    (h : (members.map (·.1)).Sublist names) :
    of? names (.ofMembers members) = some ⟨false, members⟩ := by
  have named : (members.map fun m => (some m.1, m.2)).mapM
      (fun m : Option String × Json => m.1.map (·, m.2)) = some members := by
    clear h
    induction members with
    | nil => rfl
    | cons m members ih => simp [ih]
  have known : members.filter (fun m => names.contains m.1) = members := by
    rw [List.filter_eq_self]
    intro m hm
    exact List.contains_iff_mem.mpr (h.subset (List.mem_map_of_mem hm))
  rw [Json.ofMembers, of?, named]
  simp only [Option.bind_eq_bind, Option.bind_some, known, if_pos (h.nodup hn)]

/-- A member that is found is read in the same way, whether it is required or has a default. -/
theorem read_of_find? {r : JsonRecord} {name : String} {v : Json} (read : Json → Option α) {a : α}
    (hf : r.find? name = some v) (hr : read v = some a) :
    r.required name read = some a ∧ ∀ default, r.defaulted name default read = some a := by
  constructor
  · rw [required, hf, Option.bind_some, hr]
  · intro default
    rw [defaulted, hf]
    exact hr

end JsonRecord

namespace DatasetRef

theorem ofJson?_toJson (d : DatasetRef) : ofJson? d.toJson = some d := by
  have record := JsonRecord.of?_ofMembers (by decide : ["id", "edition", "version"].Nodup)
    (List.Sublist.refl ([("id", .text d.id), ("edition", .text d.edition),
      ("version", .nat d.version.toNat)].map Prod.fst))
  have version : version? (.nat d.version.toNat) = some d.version := by
    simp [version?, Json.asNat?_nat d.version.toNat_lt]
  rw [ofJson?, toJson, record]
  simp [JsonRecord.required, JsonRecord.find?, Table.lookup_cons, Json.asText?, version]

theorem isPlain_toJson (d : DatasetRef) : d.toJson.isPlain = true := by
  rw [toJson]
  exact Json.isPlain_ofMembers (by simp)

end DatasetRef

namespace Dimension

theorem ofJson?_toJson (d : Dimension) : ofJson? d.toJson = some d := by
  have record := JsonRecord.of?_ofMembers (by decide : ["name", "options"].Nodup)
    (List.Sublist.refl ([("name", .text d.name), ("options", .texts d.options)].map Prod.fst))
  rw [ofJson?, toJson, record]
  simp [JsonRecord.required, JsonRecord.defaulted, JsonRecord.find?, Table.lookup_cons, Json.asText?]

theorem isPlain_toJson (d : Dimension) : d.toJson.isPlain = true := by
  rw [toJson]
  exact Json.isPlain_ofMembers (by simp)

end Dimension

/-- An instant is read back from the text that stands for it in a document. -/
theorem Instant.ofJson?_toJson (t : Instant) : ofJson? t.toJson = some t := by
  rw [ofJson?, toJson, Json.asText?, Option.bind_some, parse?_write documentFormat_isExact]

theorem Instant.isPlain_toJson (t : Instant) : t.toJson.isPlain = true := Json.isPlain_text _

namespace Event

theorem ofJson?_toJson (e : Event) : ofJson? e.toJson = some e := by
  have record := JsonRecord.of?_ofMembers (by decide : ["type", "time"].Nodup)
    (List.Sublist.refl ([("type", .text e.kind.name), ("time", e.time.toJson)].map Prod.fst))
  have kind : EventKind.names.lookup e.kind.name = some e.kind := EventKind.ofName?_name e.kind
  rw [ofJson?, toJson, record]
  simp [JsonRecord.required, JsonRecord.find?, Table.lookup_cons, Json.asChoice?, kind,
    Instant.ofJson?_toJson]

theorem isPlain_toJson (e : Event) : e.toJson.isPlain = true := by
  have time := Instant.isPlain_toJson e.time
  rw [toJson]
  exact Json.isPlain_ofMembers (by simp [time])

end Event

namespace Blueprint

theorem isPlain_of_mem_member? {name : String} {value : Option Json}
    (h : ∀ v ∈ value, v.isPlain = true) {m : String × Json} (hm : m ∈ Json.member? name value) :
    m.2.isPlain = true := by
  cases value with
  | none => simp [Json.member?] at hm
  | some v =>
    rw [List.mem_singleton.mp hm]
    exact h v rfl

theorem isPlain_toJson (b : Blueprint) : b.toJson.isPlain = true := by
  have dataset := b.dataset.isPlain_toJson
  have dimensions := Json.isPlain_array_map b.dimensions Dimension.isPlain_toJson
  have events := Json.isPlain_array_map b.events Event.isPlain_toJson
  have lastUpdated := b.lastUpdated.isPlain_toJson
  apply Json.isPlain_ofMembers
  intro m hm
  rw [members] at hm
  simp only [List.mem_append] at hm
  rcases hm with (((hm | hm) | hm) | hm) | hm
  · simp only [List.mem_cons, List.not_mem_nil, or_false] at hm
    rcases hm with rfl | rfl | rfl | rfl | rfl | rfl
    · exact Json.isPlain_text _
    · exact Json.isPlain_text _
    · exact dataset
    · exact dimensions
    · exact events
    · exact Json.isPlain_text _
  · refine isPlain_of_mem_member? ?_ hm
    intro v hv
    obtain ⟨published, -, rfl⟩ := Option.map_eq_some_iff.mp hv
    exact Json.isPlain_bool published
  · refine isPlain_of_mem_member? ?_ hm
    intro v hv
    unfold kindMember? at hv
    split_ifs at hv
    · simp at hv
    · obtain rfl := Option.mem_some.mp hv
      exact Json.isPlain_text _
  · refine isPlain_of_mem_member? ?_ hm
    intro v hv
    obtain ⟨outputId, -, rfl⟩ := Option.map_eq_some_iff.mp hv
    exact Json.isPlain_text outputId
  · simp only [List.mem_cons, List.not_mem_nil, or_false] at hm
    rcases hm with rfl | rfl | rfl
    · exact Json.isPlain_text _
    · exact Json.isPlain_nat _
    · exact lastUpdated

theorem names_member? (name : String) (value : Option Json) :
    ((Json.member? name value).map Prod.fst).Sublist [name] := by
  cases value with
  | none => exact List.nil_sublist _
  | some v => exact List.Sublist.refl _

theorem names_members (b : Blueprint) : (b.members.map Prod.fst).Sublist memberNames := by
  simp only [members, List.map_append]
  exact ((((List.Sublist.refl _).append (names_member? "published" _)).append
    (names_member? "type" _)).append (names_member? "filter_output_id" _)).append
    (List.Sublist.refl _)

theorem lookup_member? (name other : String) (value : Option Json) :
    (Json.member? name value).lookup other = if other = name then value else none := by
  cases value with
  | none => simp [Json.member?]
  | some v => exact Table.lookup_cons other (name, v) []

def record (b : Blueprint) : JsonRecord := ⟨false, b.members⟩

theorem find?_record (b : Blueprint) :
    b.record.find? "filter_id" = some (.text b.id) ∧
    b.record.find? "instance_id" = some (.text b.instanceId) ∧
    b.record.find? "dataset" = some b.dataset.toJson ∧
    b.record.find? "dimensions" = some (.array (b.dimensions.map Dimension.toJson)) ∧
    b.record.find? "events" = some (.array (b.events.map Event.toJson)) ∧
    b.record.find? "state" = some (.text b.state.name) ∧
    b.record.find? "published" = b.published.map .bool ∧
    b.record.find? "type" = kindMember? b.kind ∧
    b.record.find? "filter_output_id" = b.outputId.map .text ∧
    b.record.find? "etag" = some (.text b.etag) ∧
    b.record.find? "unique_timestamp" = some (.nat b.stamp.toNat) ∧
    b.record.find? "last_updated" = some b.lastUpdated.toJson := by
  refine ⟨?_, ?_, ?_, ?_, ?_, ?_, ?_, ?_, ?_, ?_, ?_, ?_⟩ <;>
    simp only [record, JsonRecord.find?, members, List.lookup_append, lookup_member?,
      Table.lookup_cons, List.lookup_nil, String.reduceEq, if_true, if_false, Option.none_or,
      Option.or_none]

/-- A kind that is empty is left out of a document, and read back as empty. -/
theorem kind_of_kindMember? (kind : String) :
    (match kindMember? kind with
      | none => some ""
      | some v => v.asText?) = some kind := by
  unfold kindMember?
  by_cases hk : kind.isEmpty = true
  · rw [if_pos hk, String.isEmpty_iff.mp hk]
  · rw [if_neg hk]
    rfl

theorem ofJson?_toJson (b : Blueprint) : ofJson? b.toJson = some b := by
  obtain ⟨id, instanceId, dataset, dimensions, events, state, published, kind, outputId, etag, stamp,
    lastUpdated⟩ := b.find?_record
  have state? : Json.asChoice? BlueprintState.names (.text b.state.name) = some b.state := by
    cases b.state <;> decide
  have stamp? : stamp? (.nat b.stamp.toNat) = some b.stamp := by
    simp [Blueprint.stamp?, Json.asNat?_nat b.stamp.toNat_lt]
  have readId := (JsonRecord.read_of_find? Json.asText? id rfl).1
  have readInstance := (JsonRecord.read_of_find? Json.asText? instanceId rfl).1
  have readDataset := (JsonRecord.read_of_find? DatasetRef.ofJson? dataset b.dataset.ofJson?_toJson).1
  have readDimensions := (JsonRecord.read_of_find? _ dimensions
    (Json.asList?_map Dimension.toJson Dimension.ofJson?_toJson b.dimensions)).2 []
  have readEvents := (JsonRecord.read_of_find? _ events
    (Json.asList?_map Event.toJson Event.ofJson?_toJson b.events)).2 []
  have readState := (JsonRecord.read_of_find? _ state state?).2 .created
  have readPublished : b.record.optional "published" Json.asBool? = some b.published := by
    rw [JsonRecord.optional, published]
    cases b.published <;> rfl
  have readKind : b.record.defaulted "type" "" Json.asText? = some b.kind := by
    rw [JsonRecord.defaulted, kind]
    exact kind_of_kindMember? b.kind
  have readOutputId : b.record.optional "filter_output_id" Json.asText? = some b.outputId := by
    rw [JsonRecord.optional, outputId]
    cases b.outputId <;> rfl
  have readEtag := (JsonRecord.read_of_find? Json.asText? etag rfl).2 ""
  have readStamp := (JsonRecord.read_of_find? _ stamp stamp?).2 0
  have readUpdated :=
    (JsonRecord.read_of_find? Instant.ofJson? lastUpdated b.lastUpdated.ofJson?_toJson).1
  have read : JsonRecord.of? memberNames b.toJson = some b.record :=
    JsonRecord.of?_ofMembers (by decide) (names_members b)
  rw [ofJson?, read]
  simp only [Option.bind_eq_bind, Option.bind_some, readId, readInstance, readDataset,
    readDimensions, readEvents, readState, readPublished, readKind, readOutputId, readEtag, readStamp,
    readUpdated]
  rfl

/-- A stored blueprint is read back. -/
theorem decode?_encode (b : Blueprint) : decode? b.encode = some b := by
  rw [decode?, encode, Json.parse?_write (isPlain_toJson b), Option.bind_some, ofJson?_toJson]

end Blueprint
end DatasetFilters
