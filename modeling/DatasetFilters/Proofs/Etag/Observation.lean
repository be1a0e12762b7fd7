import DatasetFilters.Proofs.Etag.Layout
import DatasetFilters.Proofs.Instant.RoundTrip

namespace DatasetFilters

namespace Dimension

def observed (d : Dimension) : String × List String := (d.name, Content.sorted d.options)

/-- A dimension whose lengths have 64 bits. Its options are counted as they are laid out, sorted
and each once. -/
def Fits (d : Dimension) : Prop :=
  Content.Fits d.name ∧ Content.AllFit Content.Fits (Content.sorted d.options)

end Dimension

/-- A dataset reference whose texts have lengths of 64 bits. -/
def DatasetRef.Fits (d : DatasetRef) : Prop := Content.Fits d.id ∧ Content.Fits d.edition

/-- What can be observed of a blueprint: all but its tag and the marks of its last write. -/
structure Observation where
  id : String
  dataset : DatasetRef
  instanceId : String
  state : BlueprintState
  published : Option Bool
  dimensions : List (String × List String)
  events : List Event
  kind : String
  outputId : String
  deriving DecidableEq, Repr

namespace Blueprint

def observed (b : Blueprint) : Observation where
  id := b.id
  dataset := b.dataset
  instanceId := b.instanceId
  state := b.state
  published := b.published
  dimensions := b.dimensions.map Dimension.observed
  events := b.events
  kind := b.kind
  outputId := b.outputId.getD ""

/-- A blueprint whose texts and lists have lengths of 64 bits. -/
structure Fits (b : Blueprint) : Prop where
  id : Content.Fits b.id
  dataset : b.dataset.Fits
  instanceId : Content.Fits b.instanceId
  dimensions : Content.AllFit Dimension.Fits b.dimensions
  events : b.events.length < 2 ^ 64
  kind : Content.Fits b.kind
  outputId : Content.Fits (b.outputId.getD "")

end Blueprint

namespace Content

theorem mem_sorted {a : String} {l : List String} : a ∈ sorted l ↔ a ∈ l := by
  have kept (m : List String) : a ∈ sorted.dedupSorted m ↔ a ∈ m := by
    fun_induction sorted.dedupSorted m with
    | case1 => rfl
    | case2 b => rfl
    | case3 b rest ih => rw [ih]; simp
    | case4 b c rest hne ih => rw [List.mem_cons, ih]; simp
  rw [sorted, kept, List.mem_mergeSort]

theorem length_text_pos (s : String) : 0 < (text s).length := by
  simp only [text, List.length_append, List.length_cons]
  omega

theorem fits_of_length_lt {s : String} (h : s.length < 2 ^ 61) : Fits s := by
  have := Octets.length_ofText_le s
  rw [Fits]
  omega

theorem determines_dataset : Determines DatasetRef.Fits dataset fun d => d := by
  have parts := (determines_text.of DatasetRef.id).append (determines_text.of DatasetRef.edition)
    |>.append (determines_number (fun d : DatasetRef => d.version.toNat) fun d => by
      have := d.version.toNat_lt
      omega)
  refine (parts.map fun d e h => ?_).domain fun d => ⟨fun h => ⟨h, trivial⟩, And.left⟩
  obtain ⟨⟨hid, hedition⟩, hversion⟩ := (Prod.ext_iff.mp h).imp_left Prod.ext_iff.mp
  rcases d with ⟨_, _, version⟩
  rcases e with ⟨_, _, version'⟩
  simp only at hid hedition hversion
  rw [hid, hedition, UInt32.toNat_inj.mp hversion]

/-- A dimension is told by its name and its set of options. -/
theorem determines_dimension : Determines Dimension.Fits dimension Dimension.observed := by
  have parts := (determines_text.of Dimension.name).append
    ((determines_text.counted length_text_pos).of fun d : Dimension => sorted d.options)
  simp only [← List.append_assoc, List.map_id'] at parts
  exact parts

theorem dimensions_congr {ds ds' : List Dimension}
    (h : ds.map Dimension.observed = ds'.map Dimension.observed) :
    dimensions ds = dimensions ds' := by
  have layout (l : List Dimension) : l.flatMap dimension = (l.map Dimension.observed).flatMap
      fun p => text p.1 ++ number p.2.length ++ p.2.flatMap text := by
    rw [List.flatMap_map]
    rfl
  have length : ds.length = ds'.length := by simpa using congrArg List.length h
  rw [dimensions, dimensions, length, layout, layout, h]

theorem determines_dimensions :
    Determines (AllFit Dimension.Fits) dimensions (List.map Dimension.observed) :=
  determines_dimension.counted fun d => by
    have := length_text_pos d.name
    simp only [dimension, List.length_append]
    omega

theorem fits_kind (e : Event) : Fits e.kind.name := by
  cases e.kind <;> exact fits_of_length_lt (by decide)

theorem fits_time (t : Instant) : Fits (t.write Instant.tagFormat) := by
  have := t.length_write_tagFormat_le
  exact fits_of_length_lt (by omega)

theorem determines_event : Determines (fun _ => True) event fun e => e := by
  have parts := (determines_text.of fun e : Event => e.kind.name).append
    (determines_text.of fun e : Event => e.time.write Instant.tagFormat)
  refine (parts.map fun d e h => ?_).domain fun e =>
    ⟨fun _ => ⟨fits_kind e, fits_time e.time⟩, fun _ => trivial⟩
  obtain ⟨hkind, htime⟩ := Prod.ext_iff.mp h
  rcases d with ⟨kind, time⟩
  rcases e with ⟨kind', time'⟩
  have kinds := congrArg EventKind.ofName? hkind
  have times := congrArg Instant.parse? htime
  simp only [EventKind.ofName?_name, Option.some.injEq] at kinds
  simp only [Instant.parse?_write Instant.tagFormat_isExact, Option.some.injEq] at times
  rw [kinds, times]

theorem determines_events : Determines (fun es => es.length < 2 ^ 64) events fun es => es := by
  have counted := determines_event.counted fun e => by
    have := length_text_pos e.kind.name
    simp only [event, List.length_append]
    omega
  simp only [List.map_id'] at counted
  exact counted.domain fun es => ⟨fun h => ⟨h, fun _ _ => trivial⟩, And.left⟩

end Content

theorem BlueprintState.name_injective {s t : BlueprintState} (h : s.name = t.name) : s = t := by
  cases s <;> cases t <;> simp_all [BlueprintState.name]

theorem BlueprintState.fits_name (s : BlueprintState) : Content.Fits s.name := by
  cases s <;> exact Content.fits_of_length_lt (by decide)

namespace Blueprint

/-- The content of a blueprint tells all that can be observed of it. -/
theorem determines_content : Content.Determines Fits content observed := by
  have parts := (Content.determines_text.of Blueprint.id)
    |>.append (Content.determines_dataset.of Blueprint.dataset)
    |>.append (Content.determines_text.of Blueprint.instanceId)
    |>.append (Content.determines_text.of fun b : Blueprint => b.state.name)
    |>.append (Content.determines_flag.of Blueprint.published)
    |>.append (Content.determines_dimensions.of Blueprint.dimensions)
    |>.append (Content.determines_events.of Blueprint.events)
    |>.append (Content.determines_text.of Blueprint.kind)
    |>.append (Content.determines_text.of fun b : Blueprint => b.outputId.getD "")
  refine ((parts.cons 0).map fun b b' hview => ?_).domain fun b => ⟨fun h => ?_, fun h => ?_⟩
  · simp only [Prod.mk.injEq] at hview
    obtain ⟨⟨⟨⟨⟨⟨⟨⟨hid, hdataset⟩, hinstance⟩, hstate⟩, hpublished⟩, hdimensions⟩, hevents⟩, hkind⟩,
      houtput⟩ := hview
    simp [observed, hid, hdataset, hinstance, BlueprintState.name_injective hstate, hpublished,
      hdimensions, hevents, hkind, houtput]
  · exact ⟨⟨⟨⟨⟨⟨⟨⟨h.id, h.dataset⟩, h.instanceId⟩, BlueprintState.fits_name b.state⟩, trivial⟩,
      h.dimensions⟩, h.events⟩, h.kind⟩, h.outputId⟩
  · obtain ⟨⟨⟨⟨⟨⟨⟨⟨id, dataset⟩, instanceId⟩, -⟩, -⟩, dimensions⟩, events⟩, kind⟩, outputId⟩ := h
    exact ⟨id, dataset, instanceId, dimensions, events, kind, outputId⟩

theorem content_eq_of_observed_eq {b b' : Blueprint} (h : b.observed = b'.observed) :
    b.content = b'.content := by
  simp only [observed, Observation.mk.injEq] at h
  obtain ⟨hid, hdataset, hinstance, hstate, hpublished, hdimensions, hevents, hkind, houtput⟩ := h
  rw [content, content, hid, hdataset, hinstance, hstate, hpublished,
    Content.dimensions_congr hdimensions, hevents, hkind, houtput]

/-- Two blueprints have the same content just if the same can be observed of them. -/
theorem content_eq_iff_of_fits {b b' : Blueprint} (hb : b.Fits) (hb' : b'.Fits) :
    b.content = b'.content ↔ b.observed = b'.observed :=
  ⟨determines_content.view_eq hb hb', content_eq_of_observed_eq⟩

/-- No length has more bits in a content that is short. -/
theorem content_eq_iff {b b' : Blueprint} (hb : b.content.length < 2 ^ 64) :
    b.content = b'.content ↔ b.observed = b'.observed := by
  constructor
  · intro h
    exact determines_content.view_eq (determines_content.fits_of_short b hb)
      (determines_content.fits_of_short b' (h ▸ hb)) h
  · exact content_eq_of_observed_eq

end Blueprint

/-- The hash keeps apart the messages of a set, all of them short enough to be hashed. -/
structure Sha256.Separates (messages : Octets → Prop) : Prop where
  bounded : ∀ m, messages m → m.length < 2 ^ 61
  injective : ∀ m m', messages m → messages m' → Sha256.hash m = Sha256.hash m' → m = m'

theorem Sha256.Separates.mono {messages messages' : Octets → Prop} (h : Sha256.Separates messages)
    (within : ∀ m, messages' m → messages m) : Sha256.Separates messages' :=
  ⟨fun m hm => h.bounded m (within m hm),
    fun m m' hm hm' => h.injective m m' (within m hm) (within m' hm')⟩

/-- For documents whose contents are known one can look. -/
theorem Sha256.Separates.of_contents {documents : Blueprint → Prop} {contents : List Octets}
    (among : ∀ b, documents b → b.content ∈ contents)
    (distinct : ∀ m ∈ contents, m.length < 1000 ∧
      ∀ m' ∈ contents, Sha256.hash m = Sha256.hash m' → m = m') :
    Sha256.Separates fun m => ∃ b, documents b ∧ m = b.content where
  bounded := by
    rintro _ ⟨b, hb, rfl⟩
    have short := (distinct _ (among b hb)).1
    omega
  injective := by
    rintro _ _ ⟨b, hb, rfl⟩ ⟨c, hc, rfl⟩ h
    exact (distinct _ (among b hb)).2 _ (among c hc) h

namespace Octets

theorem hexDigit_injective {m n : Nat} (hm : m < 16) (hn : n < 16) (h : hexDigit m = hexDigit n) :
    m = n := by
  have all : ∀ m n : Fin 16, hexDigit m = hexDigit n → m = n := by decide
  exact congrArg Fin.val (all ⟨m, hm⟩ ⟨n, hn⟩ h)

/-- Messages that differ are written differently in hexadecimal. -/
theorem hex_injective {bs cs : Octets} (h : hex bs = hex cs) : bs = cs := by
  have digits := String.ofList_injective h
  induction bs generalizing cs with
  | nil =>
    cases cs with
    | nil => rfl
    | cons c cs => simp at digits
  | cons b bs ih =>
    cases cs with
    | nil => simp at digits
    | cons c cs =>
      simp only [List.flatMap_cons, List.cons_append, List.nil_append, List.cons.injEq] at digits
      obtain ⟨hhigh, hlow, hrest⟩ := digits
      have hb := b.toNat_lt
      have hc := c.toNat_lt
      have high := hexDigit_injective (by omega) (by omega) hhigh
      have low := hexDigit_injective (by omega) (by omega) hlow
      have octet : b = c := UInt8.toNat_inj.mp (by omega)
      rw [octet, ih (by rw [hex, hex, hrest]) hrest]

end Octets

/-- Where the hash keeps the contents of documents apart, the same tag means that the same can be
observed. -/
theorem Sha256.Separates.observed_eq {documents : Blueprint → Prop}
    (h : Sha256.Separates fun m => ∃ b, documents b ∧ m = b.content) {b b' : Blueprint}
    (hb : documents b) (hb' : documents b') (ht : b.tag = b'.tag) : b.observed = b'.observed := by
  have hash : Sha256.hash b.content = Sha256.hash b'.content := Octets.hex_injective ht
  have bound := h.bounded b.content ⟨b, hb, rfl⟩
  rw [← Blueprint.content_eq_iff (by omega)]
  exact h.injective _ _ ⟨b, hb, rfl⟩ ⟨b', hb', rfl⟩ hash
end DatasetFilters
