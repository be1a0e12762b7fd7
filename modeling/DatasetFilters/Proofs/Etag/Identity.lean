import DatasetFilters.Proofs.Etag.Observation
import Mathlib.Data.List.Forall2
import Mathlib.Data.List.Nodup
import Mathlib.Data.String.Basic

namespace DatasetFilters
namespace Content

theorem dedupSorted_sublist (l : List String) : (sorted.dedupSorted l).Sublist l := by
  fun_induction sorted.dedupSorted l with
  | case1 => exact List.Sublist.refl _
  | case2 a => exact List.Sublist.refl _
  | case3 a rest ih => exact ih.cons a
  | case4 a b rest hne ih => exact ih.cons_cons a

theorem pairwise_dedupSorted {l : List String} (h : l.Pairwise (· ≤ ·)) :
    (sorted.dedupSorted l).Pairwise (· < ·) := by
  fun_induction sorted.dedupSorted l with
  | case1 => exact List.Pairwise.nil
  | case2 a => exact List.pairwise_singleton _ a
  | case3 a rest ih => exact ih (List.Pairwise.of_cons h)
  | case4 a b rest hne ih =>
    obtain ⟨least, h⟩ := List.pairwise_cons.mp h
    refine List.pairwise_cons.mpr ⟨fun c hc => ?_, ih h⟩
    have first : a < b := lt_of_le_of_ne (least b List.mem_cons_self) hne
    rcases List.mem_cons.mp ((dedupSorted_sublist (b :: rest)).mem hc) with rfl | hc
    · exact first
    · exact lt_of_lt_of_le first ((List.pairwise_cons.mp h).1 c hc)

/-- Options are hashed in strict order, so each once. -/
theorem pairwise_sorted (l : List String) : (sorted l).Pairwise (· < ·) := by
  have ordered : (l.mergeSort fun a b => decide (a ≤ b)).Pairwise fun a b => decide (a ≤ b) = true :=
    List.pairwise_mergeSort
      (fun a b c hab hbc => by simp only [decide_eq_true_eq] at *; exact le_trans hab hbc)
      (fun a b => by simpa using le_total a b) l
  exact pairwise_dedupSorted (ordered.imp fun h => of_decide_eq_true h)

/-- Two lists are sorted into the same one just if they have the same members. -/
theorem sorted_eq_iff {l m : List String} : sorted l = sorted m ↔ ∀ a, a ∈ l ↔ a ∈ m := by
  constructor
  · intro h a
    rw [← mem_sorted, h, mem_sorted]
  · intro h
    have nodup (l : List String) : (sorted l).Nodup := (pairwise_sorted l).imp ne_of_lt
    have perm : (sorted l).Perm (sorted m) := by
      rw [List.perm_ext_iff_of_nodup (nodup l) (nodup m)]
      intro a
      rw [mem_sorted, mem_sorted, h a]
    exact perm.eq_of_pairwise (fun a b _ _ hab hba => absurd hab hba.asymm)
      (pairwise_sorted l) (pairwise_sorted m)

theorem length_sorted_le (l : List String) : (sorted l).length ≤ l.length := by
  have := (dedupSorted_sublist (l.mergeSort fun a b => decide (a ≤ b))).length_le
  rwa [List.length_mergeSort] at this

end Content

namespace Dimension

theorem fits_of_options {d : Dimension} (hn : Content.Fits d.name)
    (ho : Content.AllFit Content.Fits d.options) : d.Fits :=
  ⟨hn, (Content.length_sorted_le d.options).trans_lt ho.1,
    fun o h => ho.2 o (Content.mem_sorted.mp h)⟩

/-- The same name and the same set of options. -/
def Resembles (d e : Dimension) : Prop := d.name = e.name ∧ ∀ o, o ∈ d.options ↔ o ∈ e.options

/-- Dimensions are hashed alike just if they have one name and one set of options. -/
theorem observed_eq_iff {d e : Dimension} : d.observed = e.observed ↔ d.Resembles e := by
  rw [observed, observed, Prod.mk.injEq, Content.sorted_eq_iff]
  rfl

theorem map_observed_eq_iff {ds es : List Dimension} :
    ds.map observed = es.map observed ↔ List.Forall₂ Resembles ds es := by
  rw [← List.forall₂_eq_eq_eq, List.forall₂_map_left_iff, List.forall₂_map_right_iff]
  simp only [observed_eq_iff]

end Dimension

/-- Equal in all that is hashed. -/
structure Blueprint.Resembles (b c : Blueprint) : Prop where
  id : b.id = c.id
  dataset : b.dataset = c.dataset
  instanceId : b.instanceId = c.instanceId
  state : b.state = c.state
  published : b.published = c.published
  dimensions : List.Forall₂ Dimension.Resembles b.dimensions c.dimensions
  events : b.events = c.events
  kind : b.kind = c.kind
  outputId : b.outputId.getD "" = c.outputId.getD ""

/-- Blueprints are hashed alike just if their members agree, but for the tag and the marks of the
last write, and the order of options. -/
theorem Blueprint.observed_eq_iff {b c : Blueprint} : b.observed = c.observed ↔ b.Resembles c := by
  simp only [observed, Observation.mk.injEq, Dimension.map_observed_eq_iff]
  constructor
  · rintro ⟨id, dataset, instanceId, state, published, dimensions, events, kind, outputId⟩
    exact ⟨id, dataset, instanceId, state, published, dimensions, events, kind, outputId⟩
  · rintro ⟨id, dataset, instanceId, state, published, dimensions, events, kind, outputId⟩
    exact ⟨id, dataset, instanceId, state, published, dimensions, events, kind, outputId⟩

theorem OutputState.name_injective {s t : OutputState} (h : s.name = t.name) : s = t := by
  cases s <;> cases t <;> simp_all [OutputState.name]

theorem OutputState.fits_name (s : OutputState) : Content.Fits s.name := by
  cases s <;> exact Content.fits_of_length_lt (by decide)

/-- An artefact whose texts have lengths of 64 bits. -/
structure Artefact.Fits (a : Artefact) : Prop where
  href : Content.Fits a.href
  size : Content.Fits a.size
  publicLink : Content.Fits a.publicLink
  privateLink : Content.Fits a.privateLink

namespace Content

theorem Determines.optional {fits : α → Prop} {f : α → Octets} {v : α → β}
    (hf : Determines fits f v) :
    Determines (fun o => ∀ a ∈ o, fits a) (fun o : Option α => o.elim (number 0) (number 1 ++ f ·))
      fun o => o.map v where
  injective := by
    intro o p r r' ho hp h
    cases o with
    | none =>
      cases p with
      | none => exact ⟨rfl, List.append_cancel_left h⟩
      | some b =>
        simp only [Option.elim, List.append_assoc] at h
        obtain ⟨hn, -⟩ := number_append_injective (by decide) (by decide) h
        contradiction
    | some a =>
      cases p with
      | none =>
        simp only [Option.elim, List.append_assoc] at h
        obtain ⟨hn, -⟩ := number_append_injective (by decide) (by decide) h
        contradiction
      | some b =>
        simp only [Option.elim, List.append_assoc] at h
        obtain ⟨-, h⟩ := number_append_injective (by decide) (by decide) h
        obtain ⟨hv, hr⟩ := hf.injective a b r r' (ho a rfl) (hp b rfl) h
        exact ⟨congrArg some hv, hr⟩
  fits_of_short := by
    rintro _ hl a rfl
    simp only [Option.elim, List.length_append] at hl
    exact hf.fits_of_short a (by omega)

theorem determines_members : Determines Artefact.Fits (fun a => text a.href ++ text a.size ++
    text a.publicLink ++ text a.privateLink ++ flag (some a.skipped)) fun a => a := by
  have parts := (determines_text.of Artefact.href).append (determines_text.of Artefact.size)
    |>.append (determines_text.of Artefact.publicLink)
    |>.append (determines_text.of Artefact.privateLink)
    |>.append (determines_flag.of fun a : Artefact => some a.skipped)
  refine (parts.map fun a b hview => ?_).domain fun a => ⟨fun h => ?_, fun h => ?_⟩
  · simp only [Prod.mk.injEq, Option.some.injEq] at hview
    obtain ⟨⟨⟨⟨hhref, hsize⟩, hpublic⟩, hprivate⟩, hskipped⟩ := hview
    exact Artefact.mk.injEq .. |>.mpr ⟨hhref, hsize, hpublic, hprivate, hskipped⟩
  · exact ⟨⟨⟨⟨h.href, h.size⟩, h.publicLink⟩, h.privateLink⟩, trivial⟩
  · obtain ⟨⟨⟨⟨href, size⟩, publicLink⟩, privateLink⟩, -⟩ := h
    exact ⟨href, size, publicLink, privateLink⟩

/-- An artefact is told with all its members, and from one that is missing. -/
theorem determines_artefact :
    Determines (fun a => ∀ x ∈ a, Artefact.Fits x) artefact fun a => a := by
  have optional := determines_members.optional
  simp only [← List.append_assoc, Option.map_id'] at optional
  have layout (o : Option Artefact) : artefact o = o.elim (number 0) fun a => number 1 ++
      text a.href ++ text a.size ++ text a.publicLink ++ text a.privateLink ++
        flag (some a.skipped) := by
    cases o <;> rfl
  rwa [← funext layout] at optional

end Content

namespace Output

/-- An output whose texts and lists have lengths of 64 bits. -/
structure Fits (o : Output) : Prop where
  id : Content.Fits o.id
  filterId : Content.Fits o.filterId
  dataset : o.dataset.Fits
  instanceId : Content.Fits o.instanceId
  dimensions : Content.AllFit Dimension.Fits o.dimensions
  events : o.events.length < 2 ^ 64
  kind : Content.Fits o.kind
  csv : ∀ a ∈ o.downloads.csv, a.Fits
  xls : ∀ a ∈ o.downloads.xls, a.Fits

/-- Equal in all that is hashed. -/
structure Resembles (o p : Output) : Prop where
  id : o.id = p.id
  filterId : o.filterId = p.filterId
  dataset : o.dataset = p.dataset
  instanceId : o.instanceId = p.instanceId
  state : o.state = p.state
  published : o.published = p.published
  dimensions : List.Forall₂ Dimension.Resembles o.dimensions p.dimensions
  events : o.events = p.events
  kind : o.kind = p.kind
  downloads : o.downloads = p.downloads

theorem resembles_of_content_eq {o p : Output} (ho : o.Fits) (hp : p.Fits)
    (h : o.content = p.content) : o.Resembles p := by
  have parts := (Content.determines_text.of Output.id)
    |>.append (Content.determines_text.of Output.filterId)
    |>.append (Content.determines_dataset.of Output.dataset)
    |>.append (Content.determines_text.of Output.instanceId)
    |>.append (Content.determines_text.of fun o : Output => o.state.name)
    |>.append (Content.determines_flag.of Output.published)
    |>.append (Content.determines_dimensions.of Output.dimensions)
    |>.append (Content.determines_events.of Output.events)
    |>.append (Content.determines_text.of Output.kind)
    |>.append (Content.determines_artefact.of fun o : Output => o.downloads.csv)
    |>.append (Content.determines_artefact.of fun o : Output => o.downloads.xls)
  have view := (parts.cons 1).view_eq
    ⟨⟨⟨⟨⟨⟨⟨⟨⟨⟨ho.id, ho.filterId⟩, ho.dataset⟩, ho.instanceId⟩, o.state.fits_name⟩, trivial⟩,
      ho.dimensions⟩, ho.events⟩, ho.kind⟩, ho.csv⟩, ho.xls⟩
    ⟨⟨⟨⟨⟨⟨⟨⟨⟨⟨hp.id, hp.filterId⟩, hp.dataset⟩, hp.instanceId⟩, p.state.fits_name⟩, trivial⟩,
      hp.dimensions⟩, hp.events⟩, hp.kind⟩, hp.csv⟩, hp.xls⟩ h
  simp only [Prod.mk.injEq] at view
  obtain ⟨⟨⟨⟨⟨⟨⟨⟨⟨⟨hid, hfilter⟩, hdataset⟩, hinstance⟩, hstate⟩, hpublished⟩, hdimensions⟩, hevents⟩,
    hkind⟩, hcsv⟩, hxls⟩ := view
  exact ⟨hid, hfilter, hdataset, hinstance, OutputState.name_injective hstate, hpublished,
    Dimension.map_observed_eq_iff.mp hdimensions, hevents, hkind,
    Downloads.mk.injEq .. |>.mpr ⟨hcsv, hxls⟩⟩

theorem content_eq_of_resembles {o p : Output} (h : o.Resembles p) : o.content = p.content := by
  rw [content, content, h.id, h.filterId, h.dataset, h.instanceId, h.state, h.published,
    Content.dimensions_congr (Dimension.map_observed_eq_iff.mpr h.dimensions), h.events, h.kind,
    h.downloads]

end Output

/-- What is hashed of a document is the same just for documents that resemble each other, blueprints
and outputs apart. -/
theorem Content.identifies_documents :
    (∀ b c : Blueprint, b.Fits → c.Fits → (b.content = c.content ↔ b.Resembles c)) ∧
    (∀ o p : Output, o.Fits → p.Fits → (o.content = p.content ↔ o.Resembles p)) ∧
    ∀ (b : Blueprint) (o : Output), b.content ≠ o.content := by
  refine ⟨fun b c hb hc => ?_, fun o p ho hp => ?_, fun b o => ?_⟩
  · rw [Blueprint.content_eq_iff_of_fits hb hc, Blueprint.observed_eq_iff]
  · exact ⟨Output.resembles_of_content_eq ho hp, Output.content_eq_of_resembles⟩
  -- The first octet is 0 for blueprints and 1 for outputs.
  · simp [Blueprint.content, Output.content]

namespace Small

/-- Some ages of a dataset, listed as given. -/
def listing (options : List String) (etag : String) : Blueprint where
  id := "f"
  instanceId := "inst-3"
  dataset := ⟨"d", "2017", 3⟩
  dimensions := [⟨"age", options⟩]
  events := [⟨.created, Instant.epoch⟩]
  state := .created
  published := none
  kind := "t"
  outputId := none
  etag := etag
  stamp := 0
  lastUpdated := Instant.epoch

/-- All ages, delivered with a private link. -/
def delivery (link : String) : Output :=
  { Output.ofBlueprint "o" (listing [] "") Instant.epoch with
    downloads := ⟨some { href := "/csv", privateLink := link }, none⟩ }

theorem fits_listing {options : List String} (h : Content.AllFit Content.Fits options)
    (etag : String) : (listing options etag).Fits where
  id := Content.fits_of_length_lt (s := "f") (by decide)
  dataset := ⟨Content.fits_of_length_lt (s := "d") (by decide),
    Content.fits_of_length_lt (s := "2017") (by decide)⟩
  instanceId := Content.fits_of_length_lt (s := "inst-3") (by decide)
  dimensions := ⟨(by decide : 1 < 2 ^ 64), List.forall_mem_singleton.mpr
    (Dimension.fits_of_options (Content.fits_of_length_lt (s := "age") (by decide)) h)⟩
  events := (by decide : 1 < 2 ^ 64)
  kind := Content.fits_of_length_lt (s := "t") (by decide)
  outputId := Content.fits_of_length_lt (s := "") (by decide)

theorem fits_delivery {link : String} (h : Content.Fits link) : (delivery link).Fits := by
  have none : Content.AllFit Content.Fits [] := ⟨by decide, fun _ h => absurd h List.not_mem_nil⟩
  have basis := fits_listing none ""
  have absent : Content.Fits "" := Content.fits_of_length_lt (by decide)
  refine ⟨Content.fits_of_length_lt (s := "o") (by decide), basis.id, basis.dataset,
    basis.instanceId, basis.dimensions, basis.events, basis.kind, ?_, fun a ha => by contradiction⟩
  rintro _ ⟨⟩
  exact ⟨Content.fits_of_length_lt (s := "/csv") (by decide), absent, absent, h⟩

/-- Options listed in another order, and twice, are the same content; another private link is
another one. -/
theorem documents_identified :
    (listing ["27", "28"] "x").content = (listing ["28", "27", "28"] "y").content ∧
    (delivery "s3://a").content ≠ (delivery "s3://b").content ∧
    (listing [] "").content ≠ (delivery "s3://a").content := by
  have short (options : List String)
      (h : options.length < 2 ^ 64 ∧ ∀ o ∈ options, o.length < 2 ^ 61) :
      Content.AllFit Content.Fits options :=
    ⟨h.1, fun o ho => Content.fits_of_length_lt (h.2 o ho)⟩
  have link (s : String) (h : s.length < 2 ^ 61) := fits_delivery (Content.fits_of_length_lt h)
  obtain ⟨blueprints, outputs, apart⟩ := Content.identifies_documents
  refine ⟨(blueprints _ _ (fits_listing (short _ (by decide)) "x")
      (fits_listing (short _ (by decide)) "y")).mpr ?_,
    fun h => ?_, apart _ _⟩
  · refine ⟨rfl, rfl, rfl, rfl, rfl, .cons ⟨rfl, fun o => ?_⟩ .nil, rfl, rfl, rfl⟩
    simp
    tauto
  · have alike := (outputs _ _ (link _ (by decide)) (link _ (by decide))).mp h
    exact absurd alike.downloads (by decide)

end Small
end DatasetFilters
