import DatasetFilters.Api.Error
import DatasetFilters.Proofs.Blueprint.RoundTrip
import DatasetFilters.Proofs.Json.Record

namespace DatasetFilters

namespace Patch

/-- How many options operations name, repetitions counted. -/
def total (operations : List PatchOperation) : Nat :=
  (operations.flatMap fun o => o.values).length

theorem size_eq_total (operations : List PatchOperation) : size operations = total operations := by
  have added (n : Nat) :
      operations.foldl (fun n o => n + o.values.length) n = n + total operations := by
    induction operations generalizing n with
    | nil => rfl
    | cons o operations ih =>
      rw [List.foldl_cons, ih, total, total, List.flatMap_cons, List.length_append, Nat.add_assoc]
  rw [size, added, Nat.zero_add]

namespace RawOperation

/-- How a record of an operation is written: its members by name or in order, none of them twice, and
each may be missing. -/
structure Written (j : Json) (r : RawOperation) : Prop where
  lists : j.Lists 3
  op : j.Member 0 "op" "" Json.asText? r.op
  path : j.Member 1 "path" "" Json.asText? r.path
  value : j.Member 2 "value" .null (Json.freeForm? valueDepth) r.value

/-- Just what is written as a record is read as one; its members may be missing. -/
theorem ofJson?_eq_some_iff {j : Json} {r : RawOperation} : ofJson? j = some r ↔ Written j r := by
  have distinct : ["op", "path", "value"].Nodup := by decide
  have first : ["op", "path", "value"][0]? = some "op" := rfl
  have second : ["op", "path", "value"][1]? = some "path" := rfl
  have third : ["op", "path", "value"][2]? = some "value" := rfl
  constructor
  · intro h
    simp only [ofJson?, bind, Option.bind_eq_some_iff] at h
    obtain ⟨record, found, op, hop, path, hpath, value, hvalue, made⟩ := h
    obtain rfl := Option.some.inj made
    exact ⟨((JsonRecord.exists_of?_iff _ _).mp ⟨record, found⟩).1,
      (JsonRecord.defaulted_eq_some_iff distinct found first).mp hop,
      (JsonRecord.defaulted_eq_some_iff distinct found second).mp hpath,
      (JsonRecord.defaulted_eq_some_iff distinct found third).mp hvalue⟩
  · rintro ⟨lists, hop, hpath, hvalue⟩
    obtain ⟨record, found⟩ : ∃ record, JsonRecord.of? ["op", "path", "value"] j = some record := by
      refine (JsonRecord.exists_of?_iff _ _).mpr ⟨lists, fun place name known => ?_⟩
      match place with
      | 0 => exact Option.some.inj known ▸ JsonRecord.length_given_of_member hop
      | 1 => exact Option.some.inj known ▸ JsonRecord.length_given_of_member hpath
      | 2 => exact Option.some.inj known ▸ JsonRecord.length_given_of_member hvalue
      | _ + 3 => cases known
    have op := (JsonRecord.defaulted_eq_some_iff distinct found first).mpr hop
    have path := (JsonRecord.defaulted_eq_some_iff distinct found second).mpr hpath
    have value := (JsonRecord.defaulted_eq_some_iff distinct found third).mpr hvalue
    simp only [ofJson?, bind, found, Option.bind_some, op, path, value]
    rfl

/-- The operation that a record states. -/
structure States (r : RawOperation) (o : PatchOperation) : Prop where
  op : r.op = o.action.name
  path : r.path = optionsPath ∧ o.path = optionsPath
  value : r.value = .texts o.values

/-- What is wrong with the record at a place. Its kind of operation is looked at before its path, and its
path before its value. -/
inductive Faulty (r : RawOperation) (place : Nat) : PatchError → Prop
  | op (unknown : ∀ action : PatchAction, r.op ≠ action.name) :
      Faulty r place (.unsupportedOp place r.op)
  | path (action : PatchAction) (known : r.op = action.name) (elsewhere : r.path ≠ optionsPath) :
      Faulty r place (.unsupportedPath place r.path)
  | value (action : PatchAction) (known : r.op = action.name) (there : r.path = optionsPath)
      (unlisted : ∀ values : List String, r.value ≠ .texts values) :
      Faulty r place (.invalidValue place)

/-- Whatever a record holds, it states an operation, or something is wrong with it. -/
theorem states_or_faulty (r : RawOperation) (place : Nat) :
    (∃ o, r.States o) ∨ ∃ e, r.Faulty place e := by
  by_cases known : ∃ action : PatchAction, r.op = action.name
  · obtain ⟨action, op⟩ := known
    by_cases path : r.path = optionsPath
    · by_cases listed : ∃ values : List String, r.value = .texts values
      · obtain ⟨values, value⟩ := listed
        exact .inl ⟨⟨action, optionsPath, values⟩, op, ⟨path, rfl⟩, value⟩
      · exact .inr ⟨_, .value action op path fun values same => listed ⟨values, same⟩⟩
    · exact .inr ⟨_, .path action op path⟩
  · exact .inr ⟨_, .op fun action same => known ⟨action, same⟩⟩

theorem lookup_names (action : PatchAction) : PatchAction.names.lookup action.name = some action := by
  cases action <;> decide

theorem lookup_names_eq_none {op : String} (unknown : ∀ action : PatchAction, op ≠ action.name) :
    PatchAction.names.lookup op = none := by
  simp only [PatchAction.names, Table.lookup_cons, List.lookup_nil]
  rw [if_neg (show op ≠ "add" from unknown .add), if_neg (show op ≠ "remove" from unknown .remove)]

theorem asList?_asText?_eq_some_iff {j : Json} {values : List String} :
    j.asList? Json.asText? = some values ↔ j = .texts values := by
  constructor
  · intro h
    obtain ⟨items, rfl, same⟩ := Json.asList?_eq_some_iff.mp h
    refine congrArg Json.array ?_
    rw [← List.forall₂_eq_eq_eq, List.forall₂_map_right_iff]
    refine same.imp fun i s read => ?_
    cases i with
    | text s' => exact congrArg Json.text (Option.some.inj read)
    | _ => cases read
  · rintro rfl
    exact Json.asList?_texts values

theorem judge_of_states {r : RawOperation} {o : PatchOperation} (h : r.States o) (place : Nat) :
    judge place r = .ok o := by
  obtain ⟨action, path, values⟩ := o
  obtain ⟨op, ⟨there, rfl⟩, value⟩ := h
  rw [judge, op, lookup_names, value, Json.asList?_texts]
  simp [there]
  rfl

theorem judge_of_faulty {r : RawOperation} {place : Nat} {e : PatchError} (h : r.Faulty place e) :
    judge place r = .error e := by
  cases h with
  | op unknown =>
    rw [judge, lookup_names_eq_none unknown]
    rfl
  | path action known elsewhere =>
    rw [judge, known, lookup_names]
    simp [elsewhere]
    rfl
  | value action known there unlisted =>
    have none_read : r.value.asList? Json.asText? = none := by
      refine Option.eq_none_iff_forall_ne_some.mpr fun values read => ?_
      exact unlisted values (asList?_asText?_eq_some_iff.mp read)
    rw [judge, known, lookup_names, none_read]
    simp [there]
    rfl

theorem judgeAll_of_states {rs : List RawOperation} {os : List PatchOperation}
    (h : List.Forall₂ States rs os) (place : Nat) : judgeAll place rs = .ok os := by
  induction h generalizing place with
  | nil => rfl
  | cons first _ ih =>
    rw [judgeAll, judge_of_states first, ih]
    rfl

/-- What is wrong with the first faulty record is what is reported, with its place. -/
theorem judgeAll_of_faulty {before after : List RawOperation} {r : RawOperation} {place : Nat}
    {e : PatchError} (stated : ∀ b ∈ before, ∃ o, b.States o)
    (fault : r.Faulty (place + before.length) e) :
    judgeAll place (before ++ r :: after) = .error e := by
  induction before generalizing place with
  | nil =>
    have here : r.Faulty place e := fault
    rw [List.nil_append, judgeAll, judge_of_faulty here]
    rfl
  | cons b before ih =>
    obtain ⟨o, first⟩ := stated b List.mem_cons_self
    have later : r.Faulty (place + 1 + before.length) e := by
      rwa [Nat.add_right_comm]
    rw [List.cons_append, judgeAll, judge_of_states first,
      ih (fun b' mem => stated b' (List.mem_cons_of_mem _ mem)) later]
    rfl

/-- Either all records state operations, or there is a first one with which something is wrong. -/
theorem all_state_or_first_faulty (place : Nat) (rs : List RawOperation) :
    (∃ os, List.Forall₂ States rs os) ∨ ∃ before r after e, rs = before ++ r :: after ∧
      (∀ b ∈ before, ∃ o, b.States o) ∧ r.Faulty (place + before.length) e := by
  induction rs generalizing place with
  | nil => exact .inl ⟨[], .nil⟩
  | cons r rs ih =>
    rcases r.states_or_faulty place with ⟨o, first⟩ | ⟨e, fault⟩
    · rcases ih (place + 1) with ⟨os, others⟩ | ⟨before, r', after, e, rfl, stated, fault⟩
      · exact .inl ⟨o :: os, .cons first others⟩
      · refine .inr ⟨r :: before, r', after, e, rfl, ?_, ?_⟩
        · exact List.forall_mem_cons.mpr ⟨⟨o, first⟩, stated⟩
        · rwa [List.length_cons, Nat.add_comm before.length, ← Nat.add_assoc]
    · exact .inr ⟨[], r, rs, e, rfl, by simp, fault⟩

end RawOperation

/-- A body that is a list of records. -/
def Holds (body : Octets) (raw : List RawOperation) : Prop :=
  ∃ items, Json.parse? body = some (.array items) ∧ List.Forall₂ RawOperation.Written items raw

/-- What becomes of a list of records, if its operations may name `max` options: it is empty; or
something is wrong with one of them and with none before it; or all of them state operations, which name
too many options or not. -/
inductive Verdict (max : Nat) : List RawOperation → Except PatchError (List PatchOperation) → Prop
  | empty : Verdict max [] (.error .empty)
  | faulty {before after : List RawOperation} {r : RawOperation} {e : PatchError}
      (stated : ∀ b ∈ before, ∃ o, b.States o) (fault : r.Faulty before.length e) :
      Verdict max (before ++ r :: after) (.error e)
  | tooMany {raw : List RawOperation} {operations : List PatchOperation} (nonempty : raw ≠ [])
      (stated : List.Forall₂ RawOperation.States raw operations) (crowded : max < total operations) :
      Verdict max raw (.error (.tooManyOptions max (total operations)))
  | accepted {raw : List RawOperation} {operations : List PatchOperation} (nonempty : raw ≠ [])
      (stated : List.Forall₂ RawOperation.States raw operations) (within : total operations ≤ max) :
      Verdict max raw (.ok operations)

theorem exists_verdict (max : Nat) (raw : List RawOperation) : ∃ v, Verdict max raw v := by
  rcases RawOperation.all_state_or_first_faulty 0 raw with
    ⟨operations, stated⟩ | ⟨before, r, after, e, rfl, stated, fault⟩
  · by_cases nonempty : raw = []
    · subst nonempty
      exact ⟨_, Verdict.empty⟩
    · by_cases crowded : max < total operations
      · exact ⟨_, .tooMany nonempty stated crowded⟩
      · exact ⟨_, .accepted nonempty stated (Nat.not_lt.mp crowded)⟩
  · exact ⟨_, .faulty stated (by rwa [Nat.zero_add] at fault)⟩

/-- A body is a list of records just if it is read as one. -/
theorem records?_eq_some_iff {body : Octets} {raw : List RawOperation} :
    records? body = some raw ↔ Holds body raw := by
  simp only [records?, Option.bind_eq_some_iff, Json.asList?_eq_some_iff,
    RawOperation.ofJson?_eq_some_iff, Holds]
  constructor
  · rintro ⟨_, parsed, items, rfl, written⟩
    exact ⟨items, parsed, written⟩
  · rintro ⟨items, parsed, written⟩
    exact ⟨_, parsed, items, rfl, written⟩

theorem parse_of_holds {max : Nat} {body : Octets} {raw : List RawOperation} (held : Holds body raw)
    (nonempty : raw ≠ []) :
    parse max body = do
      let operations ← RawOperation.judgeAll 0 raw
      checkSize max operations
      return operations := by
  rw [parse, records?_eq_some_iff.mpr held]
  simp [nonempty]

theorem parse_of_verdict {max : Nat} {body : Octets} {raw : List RawOperation}
    {v : Except PatchError (List PatchOperation)} (held : Holds body raw) (h : Verdict max raw v) :
    parse max body = v := by
  cases h with
  | empty =>
    rw [parse, records?_eq_some_iff.mpr held]
    rfl
  | @faulty before after r e stated fault =>
    have here : r.Faulty (0 + before.length) e := by rwa [Nat.zero_add]
    rw [parse_of_holds held (by simp), RawOperation.judgeAll_of_faulty stated here]
    rfl
  | @tooMany raw operations nonempty stated crowded =>
    have refused : checkSize max operations = .error (.tooManyOptions max (total operations)) := by
      rw [checkSize, size_eq_total, if_pos crowded]
      rfl
    rw [parse_of_holds held nonempty, RawOperation.judgeAll_of_states stated]
    simp only [bind, Except.bind, refused]
  | @accepted raw operations nonempty stated within =>
    have passed : checkSize max operations = .ok () := by
      rw [checkSize, size_eq_total, if_neg (Nat.not_lt.mpr within)]
      rfl
    rw [parse_of_holds held nonempty, RawOperation.judgeAll_of_states stated]
    simp only [bind, Except.bind, passed]
    rfl

/-- What a body of records comes to is its verdict, and it has no other. -/
theorem parse_eq_iff {max : Nat} {body : Octets} {raw : List RawOperation} (held : Holds body raw)
    (v : Except PatchError (List PatchOperation)) : parse max body = v ↔ Verdict max raw v := by
  constructor
  · rintro rfl
    obtain ⟨v, h⟩ := exists_verdict max raw
    rwa [parse_of_verdict held h]
  · exact parse_of_verdict held

/-- A body is malformed just if it is no list of records. -/
theorem malformed_iff (max : Nat) (body : Octets) :
    (∃ detail, parse max body = .error (.malformed detail)) ↔ ¬∃ raw, Holds body raw := by
  constructor
  · rintro ⟨detail, refused⟩ ⟨raw, held⟩
    cases (parse_eq_iff held _).mp refused with
    | faulty stated fault => cases fault
  · intro unlisted
    have unread : records? body = none := by
      refine Option.eq_none_iff_forall_ne_some.mpr fun raw read => ?_
      exact unlisted ⟨raw, records?_eq_some_iff.mp read⟩
    rw [parse, unread]
    exact ⟨_, rfl⟩

theorem areSoundItems_map_text (l : List String) : Json.areSoundItems (l.map .text) = true := by
  induction l with
  | nil => rfl
  | cons s l ih => simp [Json.areSoundItems, Json.isSound, ih]

theorem depthItems_map_text (l : List String) : Json.depthItems (l.map .text) = 0 := by
  induction l with
  | nil => rfl
  | cons s l ih => simp [Json.depthItems, Json.depth, ih]

/-- A list of texts may stand wherever a value of any form may, however long it and they are. -/
theorem freeForm?_texts {limit : Nat} (deep : 1 ≤ limit) (l : List String) :
    Json.freeForm? limit (.texts l) = some (.texts l) := by
  have sound : (Json.texts l).isSound = true := by
    rw [Json.texts, Json.isSound, areSoundItems_map_text]
  have shallow : (Json.texts l).depth ≤ limit := by
    rwa [Json.texts, Json.depth, depthItems_map_text]
  rw [Json.freeForm?, Json.judged?, sound, decide_eq_true shallow]
  exact Json.resolve?_texts _ l

/-- The record that an operation is written as. -/
def RawOperation.of (o : PatchOperation) : RawOperation := ⟨o.action.name, o.path, .texts o.values⟩

theorem RawOperation.written_of (o : PatchOperation) : Written o.toJson (of o) where
  lists := by simp [PatchOperation.toJson, Json.ofMembers, Json.Lists]
  op := .inr ⟨_, rfl, rfl⟩
  path := .inr ⟨_, rfl, rfl⟩
  value := .inr ⟨_, rfl, freeForm?_texts (by decide) o.values⟩

theorem RawOperation.states_of {o : PatchOperation} (there : o.path = optionsPath) :
    (of o).States o :=
  ⟨rfl, ⟨there, there⟩, rfl⟩

theorem holds_write (operations : List PatchOperation) :
    Holds (write operations) (operations.map RawOperation.of) := by
  have plain (o : PatchOperation) : o.toJson.isPlain = true := by
    refine Json.isPlain_ofMembers ?_
    simp
  refine ⟨_, Json.parse?_write (Json.isPlain_array_map operations plain), ?_⟩
  rw [List.forall₂_map_left_iff, List.forall₂_map_right_iff]
  exact List.forall₂_same.mpr fun o _ => RawOperation.written_of o

theorem verdict_map_of (max : Nat) {operations : List PatchOperation} (nonempty : operations ≠ [])
    (there : ∀ o ∈ operations, o.path = optionsPath) :
    Verdict max (operations.map RawOperation.of)
      (if total operations ≤ max then .ok operations
        else .error (.tooManyOptions max (total operations))) := by
  have stated : List.Forall₂ RawOperation.States (operations.map RawOperation.of) operations := by
    rw [List.forall₂_map_left_iff]
    exact List.forall₂_same.mpr fun o mem => RawOperation.states_of (there o mem)
  have listed : operations.map RawOperation.of ≠ [] := by simpa using nonempty
  split
  next within => exact .accepted listed stated within
  next crowded => exact .tooMany listed stated (Nat.not_le.mp crowded)

/-- The reader of patches accepts just its language: what the answer to a patch prints for operations on
the option list is read as these operations, unless they name too many options; what a list of records
comes to is its verdict; and a body is malformed just if it is no list of records. -/
theorem parse_accepts_its_language (max : Nat) :
    (∀ operations : List PatchOperation, operations ≠ [] → (∀ o ∈ operations, o.path = optionsPath) →
      parse max (Api.document 200 (.array (operations.map PatchOperation.toJson))).body =
        if total operations ≤ max then .ok operations
        else .error (.tooManyOptions max (total operations))) ∧
    (∀ body raw, Holds body raw → ∀ v, parse max body = v ↔ Verdict max raw v) ∧
    ∀ body, (∃ detail, parse max body = .error (.malformed detail)) ↔ ¬∃ raw, Holds body raw := by
  refine ⟨fun operations nonempty there => ?_, fun body raw held => parse_eq_iff held, malformed_iff max⟩
  exact (parse_eq_iff (holds_write operations) _).mpr (verdict_map_of max nonempty there)

end Patch

namespace Small

open Patch

/-- A body whose first record gives its members in their order, and whose second gives its kind alone. -/
def halfSaid : Octets := Octets.ofText "[[\"add\",\"/options/-\",[\"a,b\"]],\x7b\"op\":\"remove\"\x7d]"

def said : RawOperation := ⟨"add", optionsPath, .texts ["a,b"]⟩

def half : RawOperation := ⟨"remove", "", .null⟩

theorem holds_halfSaid : Holds halfSaid [said, half] := records?_eq_some_iff.mp rfl

def quoted : PatchOperation := ⟨.add, "/options/-", ["a\"", ""]⟩

theorem reads_quoted_and_refuses_half_said :
    parse 2 (Api.document 200 (.array ([quoted].map PatchOperation.toJson))).body = .ok [quoted] ∧
    parse 0 halfSaid = .error (.unsupportedPath 1 "") := by
  refine ⟨(parse_accepts_its_language 2).1 _ (by decide) (by decide), ?_⟩
  refine ((parse_accepts_its_language 0).2.1 halfSaid [said, half] holds_halfSaid _).mpr ?_
  have stated : ∀ b ∈ [said], ∃ o, b.States o :=
    List.forall_mem_singleton.mpr ⟨⟨.add, optionsPath, ["a,b"]⟩, rfl, ⟨rfl, rfl⟩, rfl⟩
  exact @Verdict.faulty 0 [said] [] half _ stated (.path .remove rfl (by decide))

end Small
end DatasetFilters
