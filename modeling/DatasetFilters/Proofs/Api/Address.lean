import DatasetFilters.Api.Route
import DatasetFilters.Proofs.Text.Cut
import DatasetFilters.Proofs.Text.Percent

namespace DatasetFilters

namespace Route

variable {α β : Type}

def map (f : α → β) : Route α → Route β
  | health => health
  | metrics => metrics
  | filters => filters
  | filter id => filter (f id)
  | dimensions id => dimensions (f id)
  | dimension id name => dimension (f id) (f name)
  | options id name => options (f id) (f name)
  | option id name o => option (f id) (f name) (f o)
  | output id => output (f id)
  | events id => events (f id)

/-- The pieces of the path of a route, where `word` writes those that are the same for all parameters. -/
def pieces (word : String → α) : Route α → List α
  | health => [word "health"]
  | metrics => [word "metrics"]
  | filters => [word "filters"]
  | filter id => [word "filters", id]
  | dimensions id => [word "filters", id, word "dimensions"]
  | dimension id name => [word "filters", id, word "dimensions", name]
  | options id name => [word "filters", id, word "dimensions", name, word "options"]
  | option id name o => [word "filters", id, word "dimensions", name, word "options", o]
  | output id => [word "filter-outputs", id]
  | events id => [word "filter-outputs", id, word "events"]

/-- The words in the paths of routes. -/
def words : List String :=
  ["health", "metrics", "filters", "dimensions", "options", "filter-outputs", "events"]

theorem pieces_map {f : α → β} {word : String → α} {word' : String → β}
    (h : ∀ w ∈ words, f (word w) = word' w) (route : Route α) :
    (route.map f).pieces word' = (route.pieces word).map f := by
  simp only [words, List.forall_mem_cons] at h
  obtain ⟨health, metrics, filters, dimensions, options, outputs, events, -⟩ := h
  cases route <;> simp only [map, pieces, List.map_cons, List.map_nil, health, metrics, filters,
    dimensions, options, outputs, events]

theorem pieces_ne_nil (word : String → α) (route : Route α) : route.pieces word ≠ [] := by
  cases route <;> exact List.cons_ne_nil _ _

theorem isWord_iff {word : String} {piece : Octets} : isWord word piece = true ↔ piece = Octets.ofText word :=
  beq_iff_eq

/-- Below `filters`, the pieces of a path say which route it is. -/
theorem ofFilterPieces?_eq_some_iff {tail : List Octets} {route : Route Octets} :
    ofFilterPieces? tail = some route ↔ route.pieces Octets.ofText = Octets.ofText "filters" :: tail := by
  constructor
  · intro h
    unfold ofFilterPieces? at h
    split at h
    case h_1 | h_2 =>
      obtain rfl := Option.some.inj h
      rfl
    case h_7 => cases h
    all_goals
      split at h
      next named =>
        simp only [Bool.and_eq_true, isWord_iff] at named
        obtain rfl := Option.some.inj h
        simp only [pieces, named]
      next => cases h
  · intro h
    cases route
    case health | metrics | output | events => exact absurd (List.cons.inj h).1 (by decide)
    all_goals
      obtain rfl := (List.cons.inj h).2
      simp [ofFilterPieces?, isWord]

/-- Below `filter-outputs`, the pieces of a path say which route it is. -/
theorem ofOutputPieces?_eq_some_iff {tail : List Octets} {route : Route Octets} :
    ofOutputPieces? tail = some route ↔
      route.pieces Octets.ofText = Octets.ofText "filter-outputs" :: tail := by
  constructor
  · intro h
    unfold ofOutputPieces? at h
    split at h
    case h_1 =>
      obtain rfl := Option.some.inj h
      rfl
    case h_3 => cases h
    split at h
    next named =>
      obtain rfl := Option.some.inj h
      simp only [pieces, isWord_iff.mp named]
    next => cases h
  · intro h
    cases route
    case output | events =>
      obtain rfl := (List.cons.inj h).2
      simp [ofOutputPieces?, isWord]
    all_goals exact absurd (List.cons.inj h).1 (by decide)

/-- A route is served. That of the metrics is so only where they are. -/
def Served (withMetrics : Bool) (route : Route α) : Prop :=
  match route with
  | metrics => withMetrics = true
  | _ => True

theorem getLast?_cons_ne {top : Octets} {tail : List Octets} (named : top ≠ []) :
    (top :: tail).getLast? ≠ some [] ↔ tail.getLast? ≠ some [] := by
  cases tail with
  | nil => simp [named]
  | cons _ _ => rw [List.getLast?_cons_cons]

/-- The pieces of a route are recognised, unless the last of them is empty. -/
theorem ofPieces?_of_pieces {withMetrics : Bool} {route : Route Octets}
    (filled : (route.pieces Octets.ofText).getLast? ≠ some []) (served : route.Served withMetrics) :
    ofPieces? withMetrics (route.pieces Octets.ofText) = some route := by
  cases pieces : route.pieces Octets.ofText with
  | nil => exact absurd pieces (pieces_ne_nil _ _)
  | cons top tail =>
    rw [pieces] at filled
    have unended (named : top ≠ []) : ¬(tail.getLast? == some []) = true := by
      simpa using (getLast?_cons_ne named).mp filled
    cases route
    case health =>
      obtain ⟨rfl, rfl⟩ := List.cons.inj pieces
      cases withMetrics <;> decide
    case metrics =>
      obtain ⟨rfl, rfl⟩ := List.cons.inj pieces
      obtain rfl : withMetrics = true := served
      decide
    case output | events =>
      have outputs := ofOutputPieces?_eq_some_iff.mpr (pieces.trans (by rw [← (List.cons.inj pieces).1]))
      obtain rfl := (List.cons.inj pieces).1
      rw [ofPieces?, if_neg (unended (by decide)), if_neg (by decide), if_pos (by decide), outputs]
    all_goals
      have filters := ofFilterPieces?_eq_some_iff.mpr (pieces.trans (by rw [← (List.cons.inj pieces).1]))
      obtain rfl := (List.cons.inj pieces).1
      rw [ofPieces?, if_neg (unended (by decide)), if_pos (by decide), filters]

theorem pieces_of_ofPieces? {withMetrics : Bool} {parts : List Octets} {route : Route Octets}
    (h : ofPieces? withMetrics parts = some route) :
    route.pieces Octets.ofText = parts ∧ parts.getLast? ≠ some [] ∧ route.Served withMetrics := by
  cases parts with
  | nil => cases h
  | cons top tail =>
    rw [ofPieces?] at h
    split at h
    case isTrue => cases h
    next unended =>
    have unended : tail.getLast? ≠ some [] := by simpa using unended
    split at h
    next word =>
      have pieces := ofFilterPieces?_eq_some_iff.mp h
      obtain rfl := isWord_iff.mp word
      refine ⟨pieces, (getLast?_cons_ne (by decide)).mpr unended, ?_⟩
      cases route
      case metrics => exact absurd (List.cons.inj pieces).1 (by decide)
      all_goals trivial
    next =>
    split at h
    next word =>
      have pieces := ofOutputPieces?_eq_some_iff.mp h
      obtain rfl := isWord_iff.mp word
      refine ⟨pieces, (getLast?_cons_ne (by decide)).mpr unended, ?_⟩
      cases route
      case metrics => exact absurd (List.cons.inj pieces).1 (by decide)
      all_goals trivial
    next =>
    split at h
    case isTrue => cases h
    next alone =>
    obtain rfl : tail = [] := by simpa using alone
    split at h
    next word =>
      obtain rfl := isWord_iff.mp word
      obtain rfl := Option.some.inj h
      exact ⟨rfl, by decide, trivial⟩
    next =>
    split at h
    next word =>
      rw [Bool.and_eq_true, isWord_iff] at word
      obtain ⟨served, rfl⟩ := word
      obtain rfl := Option.some.inj h
      exact ⟨rfl, by decide, served⟩
    next => cases h

/-- A path leads to a route just if it is cut into the pieces of that route, the last of which is
not empty. -/
theorem ofPath?_eq_some_iff {withMetrics : Bool} {path : Octets} {route : Route Octets} :
    ofPath? withMetrics path = some route ↔
      Text.splitAt 47 path = [] :: route.pieces Octets.ofText ∧
        (route.pieces Octets.ofText).getLast? ≠ some [] ∧ route.Served withMetrics := by
  rw [ofPath?]
  constructor
  · intro h
    split at h
    case h_2 => cases h
    next parts leads =>
    obtain ⟨rfl, filled, served⟩ := pieces_of_ofPieces? h
    exact ⟨leads, filled, served⟩
  · rintro ⟨leads, filled, served⟩
    rw [leads]
    exact ofPieces?_of_pieces filled served

theorem of_bind_ok {ε : Type} {x : Except ε α} {f : α → Except ε β} {b : β}
    (h : (x >>= f) = .ok b) : ∃ a, x = .ok a ∧ f a = .ok b := by
  cases x with
  | error e => cases h
  | ok a => exact ⟨a, rfl, h⟩

/-- What a handler is given for a parameter is the text that the piece stands for. -/
theorem parameter_eq_ok_iff {name s : String} {raw : Octets} :
    parameter name raw = .ok s ↔ Percent.decode raw = Octets.ofText s := by
  rw [← Octets.text?_eq_some_iff, parameter]
  cases Octets.text? (Percent.decode raw) <;> simp

/-- The parameters that a handler is given are the texts that stand, encoded or not, in the path. -/
theorem decode_eq_ok_iff {raw : Route Octets} {route : Route String} :
    raw.decode = .ok route ↔ raw.map Percent.decode = route.map Octets.ofText := by
  constructor
  · intro h
    cases raw with
    | health | metrics | filters =>
      obtain rfl := Except.ok.inj h
      rfl
    | filter raw | dimensions raw | output raw | events raw =>
      obtain ⟨id, hid, h⟩ := of_bind_ok h
      obtain rfl := Except.ok.inj h
      simp only [map, parameter_eq_ok_iff.mp hid]
    | dimension raw rawName | options raw rawName =>
      obtain ⟨id, hid, h⟩ := of_bind_ok h
      obtain ⟨name, hname, h⟩ := of_bind_ok h
      obtain rfl := Except.ok.inj h
      simp only [map, parameter_eq_ok_iff.mp hid, parameter_eq_ok_iff.mp hname]
    | option raw rawName rawOption =>
      obtain ⟨id, hid, h⟩ := of_bind_ok h
      obtain ⟨name, hname, h⟩ := of_bind_ok h
      obtain ⟨o, ho, h⟩ := of_bind_ok h
      obtain rfl := Except.ok.inj h
      simp only [map, parameter_eq_ok_iff.mp hid, parameter_eq_ok_iff.mp hname,
        parameter_eq_ok_iff.mp ho]
  · intro h
    have read {name s : String} {raw : Octets} (same : Percent.decode raw = Octets.ofText s) :
        parameter name raw = .ok s := parameter_eq_ok_iff.mpr same
    cases raw <;> cases route <;> simp only [map, reduceCtorEq, filter.injEq, dimensions.injEq,
      dimension.injEq, options.injEq, option.injEq, output.injEq, events.injEq] at h
    case health | metrics | filters => rfl
    case filter | dimensions | output | events =>
      rw [decode, read h]
      rfl
    case dimension | options =>
      rw [decode, read h.1, read h.2]
      rfl
    case option =>
      rw [decode, read h.1, read h.2.1, read h.2.2]
      rfl

/-- The address of a route below that of the server: its parameters stand in it as they are. -/
def address (route : Route String) : Octets := (route.pieces id).flatMap fun p => 47 :: Octets.ofText p

/-- Pieces that are decoded to as many octets are decoded to themselves. -/
theorem map_decode_eq_self {ps : List Octets} (h : (ps.flatMap (47 :: ·)).length ≤
    ((ps.map Percent.decode).flatMap (47 :: ·)).length) : ps.map Percent.decode = ps := by
  have shorter (ps : List Octets) : ((ps.map Percent.decode).flatMap (47 :: ·)).length ≤
      (ps.flatMap (47 :: ·)).length := by
    induction ps with
    | nil => exact Nat.le_refl _
    | cons p ps ih =>
      have := Percent.length_decode_le p
      simp only [List.map_cons, List.flatMap_cons, List.length_append, List.length_cons]
      omega
  induction ps with
  | nil => rfl
  | cons p ps ih =>
    have first := Percent.length_decode_le p
    have rest := shorter ps
    simp only [List.map_cons, List.flatMap_cons, List.length_append, List.length_cons] at h
    rw [List.map_cons, Percent.decode_eq_self_of_length (by omega), ih (by omega)]

/-- A path leads to a route with its parameters. -/
def Leads (withMetrics : Bool) (path : Octets) (route : Route String) : Prop :=
  ∃ raw, ofPath? withMetrics path = some raw ∧ raw.decode = .ok route

theorem served_map (withMetrics : Bool) (f : α → β) (route : Route α) :
    (route.map f).Served withMetrics ↔ route.Served withMetrics := by
  cases route <;> exact Iff.rfl

theorem pieces_ofText (route : Route String) :
    (route.map Octets.ofText).pieces Octets.ofText = (route.pieces id).map Octets.ofText :=
  pieces_map (fun _ _ => rfl) route

theorem plain_words : ∀ w ∈ words, 37 ∉ Octets.ofText w := by
  decide

/-- The words of a route stand for themselves, so a route is decoded piece by piece. -/
theorem pieces_decode (raw : Route Octets) :
    (raw.map Percent.decode).pieces Octets.ofText = (raw.pieces Octets.ofText).map Percent.decode :=
  pieces_map (fun w mem => Percent.decode_of_notMem (plain_words w mem)) raw

/-- No more of an address than the whole leads to its route, and the whole does just if its pieces can
be cut apart and are decoded to themselves. -/
theorem leads_iff_of_cut {withMetrics : Bool} {path : Octets} {route : Route String}
    (cut : path <+: route.address) (served : route.Served withMetrics) :
    Leads withMetrics path route ↔ path = route.address ∧
      (∀ p ∈ route.pieces id, 47 ∉ Octets.ofText p ∧
        Percent.decode (Octets.ofText p) = Octets.ofText p) ∧
      (route.pieces id).getLast? ≠ some "" := by
  have address : route.address = ((route.pieces id).map Octets.ofText).flatMap (47 :: ·) := by
    rw [address, List.flatMap_map]
  have filled : ((route.pieces id).map Octets.ofText).getLast? ≠ some [] ↔
      (route.pieces id).getLast? ≠ some "" := by
    rw [List.getLast?_map]
    cases (route.pieces id).getLast? <;> simp [Octets.ofText_eq_nil_iff]
  constructor
  · rintro ⟨raw, leads, decoded⟩
    obtain ⟨parts, full, -⟩ := ofPath?_eq_some_iff.mp leads
    obtain ⟨whole, free⟩ := Text.splitAt_eq_cons_iff.mp parts
    rw [List.nil_append] at whole
    -- the pieces of the path are at least as long as what they are decoded to, and the path is no longer
    have texts : (raw.pieces Octets.ofText).map Percent.decode = (route.pieces id).map Octets.ofText := by
      rw [← pieces_decode, decode_eq_ok_iff.mp decoded, pieces_ofText]
    have short := cut.length_le
    rw [whole, address, ← texts] at short
    have kept := map_decode_eq_self short
    have same : raw.pieces Octets.ofText = (route.pieces id).map Octets.ofText := kept.symm.trans texts
    rw [same] at whole free full kept
    refine ⟨whole.trans address.symm, fun p mem => ?_, filled.mp full⟩
    have mem := List.mem_map_of_mem (f := Octets.ofText) mem
    exact ⟨free _ (List.mem_cons_of_mem _ mem), List.map_eq_map_iff.mp (kept.trans (List.map_id _).symm) _ mem⟩
  · rintro ⟨rfl, alone, full⟩
    refine ⟨route.map Octets.ofText, ofPath?_eq_some_iff.mpr ?_, decode_eq_ok_iff.mpr ?_⟩
    · rw [pieces_ofText, served_map, Text.splitAt_eq_cons_iff, List.forall_mem_cons, List.forall_mem_map]
      exact ⟨⟨address, List.not_mem_nil, fun p mem => (alone p mem).1⟩, filled.mpr full, served⟩
    · have kept : ∀ p ∈ route.pieces id, Percent.decode (Octets.ofText p) = Octets.ofText p :=
        fun p mem => (alone p mem).2
      cases route <;> simp only [pieces, List.forall_mem_cons] at kept <;> simp only [map, kept]

/-- The address of a route, up to where it ends for a server, leads to the route just if all its pieces
stand for themselves and the last is not empty. -/
theorem leads_iff {withMetrics : Bool} {route : Route String} (served : route.Served withMetrics) :
    Leads withMetrics ((route.address.takeWhile (· != 35)).takeWhile (· != 63)) route ↔
      (∀ p ∈ route.pieces id, Percent.Verbatim p) ∧ (route.pieces id).getLast? ≠ some "" := by
  have cut : (route.address.takeWhile (· != 35)).takeWhile (· != 63) <+: route.address := by
    have front (p : UInt8 → Bool) (bs : Octets) : bs.takeWhile p <+: bs := List.takeWhile_prefix p
    exact (front _ _).trans (front _ _)
  have whole : (route.address.takeWhile (· != 35)).takeWhile (· != 63) = route.address ↔
      ∀ p ∈ route.pieces id, 35 ∉ Octets.ofText p ∧ 63 ∉ Octets.ofText p := by
    rw [List.takeWhile_takeWhile, List.takeWhile_eq_self_iff]
    constructor
    · intro h p mem
      have ends {b : UInt8} (stops : ¬((b != 63) = true ∧ (b != 35) = true)) : b ∉ Octets.ofText p :=
        fun within => stops <| of_decide_eq_true <|
          h b (List.mem_flatMap.mpr ⟨p, mem, List.mem_cons_of_mem _ within⟩)
      exact ⟨ends (by decide), ends (by decide)⟩
    · intro h b within
      obtain ⟨p, mem, within⟩ := List.mem_flatMap.mp within
      rcases List.mem_cons.mp within with rfl | within
      · decide
      · have fragment : b ≠ 35 := fun same => (h p mem).1 (same ▸ within)
        have query : b ≠ 63 := fun same => (h p mem).2 (same ▸ within)
        simp [fragment, query]
  rw [leads_iff_of_cut cut served, whole, ← and_assoc, ← forall₂_and]
  simp only [Percent.verbatim_iff]

end Route

end DatasetFilters
