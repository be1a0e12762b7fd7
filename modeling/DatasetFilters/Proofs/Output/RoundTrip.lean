import DatasetFilters.Output.Document
import DatasetFilters.Proofs.Blueprint.RoundTrip

namespace DatasetFilters

namespace Artefact

def members (a : Artefact) : List (String × Json) :=
  [("href", .text a.href), ("size", .text a.size), ("public", .text a.publicLink),
    ("private", .text a.privateLink), ("skipped", .bool a.skipped)]

theorem ofJson?_toJson (a : Artefact) : ofJson? a.toJson = some a := by
  have record := JsonRecord.of?_ofMembers
    (by decide : ["href", "size", "public", "private", "skipped"].Nodup)
    (List.Sublist.refl (a.members.map Prod.fst))
  rw [ofJson?, toJson]
  change (JsonRecord.of? _ (.ofMembers a.members) >>= _) = _
  rw [record]
  simp [members, JsonRecord.defaulted, JsonRecord.find?, Table.lookup_cons, Json.asText?, Json.asBool?]

theorem isPlain_toJson (a : Artefact) : a.toJson.isPlain = true := by
  rw [toJson]
  exact Json.isPlain_ofMembers (by simp)

end Artefact

namespace Downloads

def members (d : Downloads) : List (String × Json) :=
  Json.member? "csv" (d.csv.map Artefact.toJson) ++ Json.member? "xls" (d.xls.map Artefact.toJson)

/-- An artefact that is missing is left out of the document, and read back as missing. -/
theorem optional_artefact {r : JsonRecord} {name : String} {a : Option Artefact}
    (h : r.find? name = a.map Artefact.toJson) : r.optional name Artefact.ofJson? = some a := by
  rw [JsonRecord.optional, h]
  cases a with
  | none => rfl
  | some a =>
    have read := a.ofJson?_toJson
    rw [Artefact.toJson, Json.ofMembers] at read
    simp only [Option.map_some, Artefact.toJson, Json.ofMembers, read]

/-- Downloads are read back, with whatever artefacts were delivered. -/
theorem ofJson?_toJson (d : Downloads) : ofJson? d.toJson = some d := by
  have names : (d.members.map Prod.fst).Sublist ["csv", "xls"] := by
    rw [members, List.map_append]
    exact (Blueprint.names_member? "csv" _).append (Blueprint.names_member? "xls" _)
  have record : JsonRecord.of? ["csv", "xls"] d.toJson = some ⟨false, d.members⟩ :=
    JsonRecord.of?_ofMembers (by decide) names
  have csv : JsonRecord.find? ⟨false, d.members⟩ "csv" = d.csv.map Artefact.toJson := by
    simp only [JsonRecord.find?, members, List.lookup_append, Blueprint.lookup_member?,
      String.reduceEq, if_true, if_false, Option.or_none]
  have xls : JsonRecord.find? ⟨false, d.members⟩ "xls" = d.xls.map Artefact.toJson := by
    simp only [JsonRecord.find?, members, List.lookup_append, Blueprint.lookup_member?,
      String.reduceEq, if_true, if_false, Option.none_or]
  rw [ofJson?, record]
  simp only [Option.bind_eq_bind, Option.bind_some, optional_artefact csv, optional_artefact xls]
  rfl

theorem isPlain_toJson (d : Downloads) : d.toJson.isPlain = true := by
  have artefact (a : Option Artefact) : ∀ v ∈ a.map Artefact.toJson, v.isPlain = true := by
    intro v hv
    obtain ⟨a, -, rfl⟩ := Option.map_eq_some_iff.mp hv
    exact a.isPlain_toJson
  apply Json.isPlain_ofMembers
  intro m hm
  rcases List.mem_append.mp hm with hm | hm
  · exact Blueprint.isPlain_of_mem_member? (artefact d.csv) hm
  · exact Blueprint.isPlain_of_mem_member? (artefact d.xls) hm

end Downloads

namespace Output

theorem isPlain_toJson (o : Output) : o.toJson.isPlain = true := by
  have dataset := o.dataset.isPlain_toJson
  have dimensions := Json.isPlain_array_map o.dimensions Dimension.isPlain_toJson
  have events := Json.isPlain_array_map o.events Event.isPlain_toJson
  have downloads := o.downloads.isPlain_toJson
  have lastUpdated := o.lastUpdated.isPlain_toJson
  apply Json.isPlain_ofMembers
  intro m hm
  rw [members] at hm
  simp only [List.mem_append] at hm
  rcases hm with ((hm | hm) | hm) | hm
  · simp only [List.mem_cons, List.not_mem_nil, or_false] at hm
    rcases hm with rfl | rfl | rfl | rfl | rfl | rfl | rfl
    · exact Json.isPlain_text _
    · exact Json.isPlain_text _
    · exact Json.isPlain_text _
    · exact dataset
    · exact dimensions
    · exact events
    · exact Json.isPlain_text _
  · refine Blueprint.isPlain_of_mem_member? ?_ hm
    intro v hv
    obtain ⟨published, -, rfl⟩ := Option.map_eq_some_iff.mp hv
    exact Json.isPlain_bool published
  · refine Blueprint.isPlain_of_mem_member? ?_ hm
    intro v hv
    unfold kindMember? at hv
    split_ifs at hv
    · simp at hv
    · obtain rfl := Option.mem_some.mp hv
      exact Json.isPlain_text _
  · simp only [List.mem_cons, List.not_mem_nil, or_false] at hm
    rcases hm with rfl | rfl | rfl
    · exact downloads
    · exact Json.isPlain_nat _
    · exact lastUpdated

theorem names_members (o : Output) : (o.members.map Prod.fst).Sublist memberNames := by
  simp only [members, List.map_append]
  exact (((List.Sublist.refl _).append (Blueprint.names_member? "published" _)).append
    (Blueprint.names_member? "type" _)).append (List.Sublist.refl _)

def record (o : Output) : JsonRecord := ⟨false, o.members⟩

theorem find?_record (o : Output) :
    o.record.find? "id" = some (.text o.id) ∧
    o.record.find? "filter_id" = some (.text o.filterId) ∧
    o.record.find? "instance_id" = some (.text o.instanceId) ∧
    o.record.find? "dataset" = some o.dataset.toJson ∧
    o.record.find? "dimensions" = some (.array (o.dimensions.map Dimension.toJson)) ∧
    o.record.find? "events" = some (.array (o.events.map Event.toJson)) ∧
    o.record.find? "state" = some (.text o.state.name) ∧
    o.record.find? "published" = o.published.map .bool ∧
    o.record.find? "type" = kindMember? o.kind ∧
    o.record.find? "downloads" = some o.downloads.toJson ∧
    o.record.find? "unique_timestamp" = some (.nat o.stamp.toNat) ∧
    o.record.find? "last_updated" = some o.lastUpdated.toJson := by
  refine ⟨?_, ?_, ?_, ?_, ?_, ?_, ?_, ?_, ?_, ?_, ?_, ?_⟩ <;>
    simp only [record, JsonRecord.find?, members, List.lookup_append, Blueprint.lookup_member?,
      Table.lookup_cons, List.lookup_nil, String.reduceEq, if_true, if_false, Option.none_or,
      Option.or_none]

theorem ofJson?_toJson (o : Output) : ofJson? o.toJson = some o := by
  obtain ⟨id, filterId, instanceId, dataset, dimensions, events, state, published, kind, downloads,
    stamp, lastUpdated⟩ := o.find?_record
  have state? : Json.asChoice? OutputState.names (.text o.state.name) = some o.state := by
    cases o.state <;> decide
  have stamp? : Blueprint.stamp? (.nat o.stamp.toNat) = some o.stamp := by
    simp [Blueprint.stamp?, Json.asNat?_nat o.stamp.toNat_lt]
  have readId := (JsonRecord.read_of_find? Json.asText? id rfl).1
  have readFilter := (JsonRecord.read_of_find? Json.asText? filterId rfl).1
  have readInstance := (JsonRecord.read_of_find? Json.asText? instanceId rfl).1
  have readDataset := (JsonRecord.read_of_find? DatasetRef.ofJson? dataset o.dataset.ofJson?_toJson).1
  have readDimensions := (JsonRecord.read_of_find? _ dimensions
    (Json.asList?_map Dimension.toJson Dimension.ofJson?_toJson o.dimensions)).2 []
  have readEvents := (JsonRecord.read_of_find? _ events
    (Json.asList?_map Event.toJson Event.ofJson?_toJson o.events)).2 []
  have readState := (JsonRecord.read_of_find? _ state state?).2 .created
  have readPublished : o.record.optional "published" Json.asBool? = some o.published := by
    rw [JsonRecord.optional, published]
    cases o.published <;> rfl
  have readKind : o.record.defaulted "type" "" Json.asText? = some o.kind := by
    rw [JsonRecord.defaulted, kind]
    exact Blueprint.kind_of_kindMember? o.kind
  have readDownloads := (JsonRecord.read_of_find? _ downloads o.downloads.ofJson?_toJson).2 {}
  have readStamp := (JsonRecord.read_of_find? _ stamp stamp?).2 0
  have readUpdated :=
    (JsonRecord.read_of_find? Instant.ofJson? lastUpdated o.lastUpdated.ofJson?_toJson).1
  have read : JsonRecord.of? memberNames o.toJson = some o.record :=
    JsonRecord.of?_ofMembers (by decide) (names_members o)
  rw [ofJson?, read]
  simp only [Option.bind_eq_bind, Option.bind_some, readId, readFilter, readInstance, readDataset,
    readDimensions, readEvents, readState, readPublished, readKind, readDownloads, readStamp,
    readUpdated]
  rfl

/-- A stored output is read back. -/
theorem decode?_encode (o : Output) : decode? o.encode = some o := by
  rw [decode?, encode, Json.parse?_write (isPlain_toJson o), Option.bind_some, ofJson?_toJson]

end Output
end DatasetFilters
