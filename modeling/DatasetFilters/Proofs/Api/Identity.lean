import DatasetFilters.Api.Identity
import DatasetFilters.Config.Sources
import DatasetFilters.Proofs.Text.Cut

namespace DatasetFilters

namespace Identity

variable {c : Config} {hs : Http.Headers} {token value : String}

/-- A request shows the secret of the download service, which is not empty. -/
def ShowsSecret (c : Config) (hs : Http.Headers) : Prop :=
  ∃ secret, c.downloadToken = some secret ∧ secret ≠ "" ∧
    hs.find? "x-download-service-token" = some secret

/-- A header value carries a token behind the word `Bearer`, or alone where that word is not in front;
with blanks around it in both cases. -/
def Carries (value token : String) : Prop :=
  (∃ rest, value = "Bearer " ++ rest ∧ Text.Pads token rest) ∨
    (∀ rest, value ≠ "Bearer " ++ rest) ∧ Text.Pads token value

def ShowsToken (hs : Http.Headers) (token : String) : Prop :=
  ∃ value, hs.find? "authorization" = some value ∧ Carries value token

theorem isDownloadService_iff : isDownloadService c hs = true ↔ ShowsSecret c hs := by
  unfold isDownloadService ShowsSecret
  cases hs.find? "x-download-service-token" with
  | none => simp
  | some shown =>
    cases c.downloadToken with
    | none => simp
    | some expected =>
      simp only [Bool.and_eq_true, Bool.not_eq_true', String.isEmpty_eq_false_iff, beq_iff_eq,
        Option.some.injEq]
      constructor
      · rintro ⟨nonempty, rfl⟩
        exact ⟨shown, rfl, nonempty, rfl⟩
      · rintro ⟨secret, rfl, nonempty, rfl⟩
        exact ⟨nonempty, rfl⟩

/-- A header value carries what is left of it without the word `Bearer` and without the blanks
around. -/
theorem carries_iff :
    Carries value token ↔ Text.trim ((Text.dropLead? "Bearer " value).getD value) = token := by
  cases h : Text.dropLead? "Bearer " value with
  | some rest =>
    obtain rfl := Text.dropLead?_eq_some_iff.mp h
    simp only [Carries, Option.getD_some, Text.trim_eq_iff]
    constructor
    · rintro (⟨rest', same, pads⟩ | ⟨other, -⟩)
      · obtain rfl : rest = rest' := by simpa using same
        exact pads
      · exact absurd rfl (other rest)
    · exact fun pads => .inl ⟨rest, rfl, pads⟩
  | none =>
    have other : ∀ rest, value ≠ "Bearer " ++ rest := fun rest same =>
      nomatch h.symm.trans (Text.dropLead?_eq_some_iff.mpr same)
    simp only [Carries, Option.getD_none, Text.trim_eq_iff]
    constructor
    · rintro (⟨rest, same, -⟩ | ⟨-, pads⟩)
      · exact absurd same (other rest)
      · exact pads
    · exact fun pads => .inr ⟨other, pads⟩

theorem credential?_eq_some_iff : credential? hs = some token ↔ ShowsToken hs token := by
  simp only [credential?, Option.map_eq_some_iff, ShowsToken, carries_iff]

/-- A caller is known by the secret of the download service or by one of the configured tokens. -/
theorem authenticated_iff :
    (caller c hs).authenticated = true ↔
      ShowsSecret c hs ∨ ∃ token ∈ c.callerTokens, ShowsToken hs token := by
  have shown : (credential? hs).any c.callerTokens.contains = true ↔
      ∃ token ∈ c.callerTokens, ShowsToken hs token := by
    simp only [← credential?_eq_some_iff, Option.any_eq_true, List.contains_iff_mem, and_comm]
  rw [← shown, ← isDownloadService_iff, caller, Bool.or_eq_true]

/-- A request shows one token at most. -/
theorem ShowsToken.unique {other : String} (h : ShowsToken hs token) (h' : ShowsToken hs other) :
    token = other :=
  Option.some.inj ((credential?_eq_some_iff.mpr h).symm.trans (credential?_eq_some_iff.mpr h'))

/-- What is shown is trimmed, so a token with blanks at its ends cannot be shown. -/
theorem showsToken_bearer (rest : String) (h : hs.find? "authorization" = some ("Bearer " ++ rest)) :
    ShowsToken hs (Text.trim rest) :=
  ⟨_, h, .inl ⟨rest, rfl, Text.pads_trim rest⟩⟩

end Identity

namespace Config

variable {α : Type} {text : String}

theorem ofMembers?_callerTokens {r : MemberReader α} {find : String → Option α} {c : Config}
    (h : ofMembers? r find = some c) :
    MemberReader.member find r.texts "service_tokens" [] = some c.callerTokens := by
  unfold ofMembers? at h
  -- The tokens are the thirteenth member of twenty-seven.
  iterate 12 obtain ⟨_, -, h⟩ := Option.bind_eq_some_iff.mp h
  obtain ⟨tokens, ht, h⟩ := Option.bind_eq_some_iff.mp h
  iterate 14 obtain ⟨_, -, h⟩ := Option.bind_eq_some_iff.mp h
  rw [ht, ← Option.some.inj h]

theorem ofKey_callerTokens : KeyPath.ofKey "service_tokens" = ⟨"service_tokens", []⟩ := by
  have name : "service_tokens".toList.takeWhile KeyPath.isNameChar = "service_tokens".toList := by
    decide
  have steps : "service_tokens".toList.dropWhile KeyPath.isNameChar = [] := by decide
  simp only [KeyPath.ofKey, KeyPath.parse?, name, steps, KeyPath.steps?]
  rfl

theorem setVariable_callerTokens (text : String) :
    setVariable [] ("FILTER_API__SERVICE_TOKENS", text) =
      [("service_tokens", .ofVariable true text)] := by
  have lead : Text.dropLead? variableLead
      (String.ofList ("FILTER_API__SERVICE_TOKENS".toList.map smallLetter)) =
        some "service_tokens" := by decide
  have key : String.ofList (dotted "service_tokens".toList) = "service_tokens" := by decide
  simp only [setVariable, lead, key, setKey, ofKey_callerTokens]
  rfl

theorem texts_list (items : List String) :
    LooseValue.reader.texts (.list (items.map .text)) = some items := by
  change (items.map LooseValue.text).mapM LooseValue.asText? = some items
  induction items with
  | nil => rfl
  | cons item items ih => simp [ih, LooseValue.asText?]

/-- What is configured is not trimmed: the parts of a variable are its tokens, the empty ones
included. -/
theorem texts_ofVariable {tokens : List String}
    (h : LooseValue.reader.texts (.ofVariable true text) = some tokens) :
    tokens = Text.split ',' text := by
  unfold LooseValue.ofVariable at h
  dsimp only at h
  split at h
  · cases h
  · split at h
    · cases h
    · split at h
      · cases h
      · split at h
        · cases h
        · rw [if_pos rfl, texts_list] at h
          exact (Option.some.inj h).symm

theorem load?_environment (environment : List (String × String)) :
    load? environment none =
      ofMembers? LooseValue.reader fun name => (environment.foldl setVariable []).lookup name := rfl

/-- The tokens that a variable gives are what stands between its commas, nothing taken off. -/
theorem load?_callerTokens {c : Config}
    (h : load? [("FILTER_API__SERVICE_TOKENS", text)] none = some c) :
    c.callerTokens = Text.split ',' text := by
  rw [load?_environment, List.foldl_cons, List.foldl_nil, setVariable_callerTokens] at h
  have tokens := ofMembers?_callerTokens h
  rw [MemberReader.member, List.lookup_cons_self] at tokens
  exact texts_ofVariable tokens

end Config

namespace Identity

/-- Callers are known by the secret of the download service or by a configured token that they show;
and by a credential of blanks where the empty token is configured, which nothing refuses. A token that
is sent is shown without the blanks at its ends, so that one configured with them is of no use. The
tokens of a variable keep their blanks, and the empty ones are among them. -/
theorem known_exactly (c : Config) (hs : Http.Headers) :
    ((caller c hs).downloadService = true ↔ ShowsSecret c hs) ∧
    ((caller c hs).authenticated = true ↔
      ShowsSecret c hs ∨ (∃ token ∈ c.callerTokens, token ≠ "" ∧ ShowsToken hs token) ∨
        ("" ∈ c.callerTokens ∧ ShowsToken hs "")) ∧
    (¬ ShowsSecret c hs → (∀ token, ShowsToken hs token → token = "") →
      ((caller c hs).authenticated = true ↔ "" ∈ c.callerTokens ∧ ShowsToken hs "")) ∧
    (∀ token, hs.find? "authorization" = some ("Bearer " ++ token) →
      ((caller c hs).authenticated = true ↔ ShowsSecret c hs ∨ Text.trim token ∈ c.callerTokens)) ∧
    ∀ text, Config.load? [("FILTER_API__SERVICE_TOKENS", text)] none = some c →
      c.callerTokens = Text.split ',' text := by
  refine ⟨isDownloadService_iff, ?_, ?_, ?_, fun text => Config.load?_callerTokens⟩
  · rw [authenticated_iff]
    refine or_congr_right ⟨?_, ?_⟩
    · rintro ⟨token, configured, shown⟩
      by_cases empty : token = ""
      · exact .inr (empty ▸ ⟨configured, shown⟩)
      · exact .inl ⟨token, configured, empty, shown⟩
    · rintro (⟨token, configured, -, shown⟩ | ⟨configured, shown⟩)
      · exact ⟨token, configured, shown⟩
      · exact ⟨"", configured, shown⟩
  · intro noSecret noToken
    rw [authenticated_iff, or_iff_right noSecret]
    constructor
    · rintro ⟨token, configured, shown⟩
      obtain rfl := noToken token shown
      exact ⟨configured, shown⟩
    · exact fun ⟨configured, shown⟩ => ⟨"", configured, shown⟩
  · intro token sent
    rw [authenticated_iff]
    refine or_congr_right ⟨?_, ?_⟩
    · rintro ⟨other, configured, shown⟩
      rwa [← shown.unique (showsToken_bearer token sent)]
    · exact fun configured => ⟨_, configured, showsToken_bearer token sent⟩

end Identity

namespace Small

open Identity

/-- A configuration from the variable `a, b,`: its second token has a blank in front, its third is
empty. -/
def listed : Config := { callerTokens := ["a", " b", ""] }

theorem listed_loaded :
    Config.load? [("FILTER_API__SERVICE_TOKENS", "a, b,")] none = some listed := by
  have whole : LooseValue.whole? "a, b," = none := by decide
  have real : Binary64.ofText? "a, b," = none := by rfl
  have parts : Text.split ',' "a, b," = ["a", " b", ""] := by decide
  have value : LooseValue.ofVariable true "a, b," = .list (["a", " b", ""].map .text) := by
    unfold LooseValue.ofVariable
    rw [whole, real, if_neg (by decide), if_neg (by decide), if_pos rfl, parts]
  rw [Config.load?_environment, List.foldl_cons, List.foldl_nil, Config.setVariable_callerTokens, value]
  rfl

/-- The headers of a request with a credential. -/
def showing (credential : String) : Http.Headers :=
  [("authorization", Octets.ofText credential)]

theorem find_showing (credential : String) (h : Http.isReadable (Octets.ofText credential) = true) :
    (showing credential).find? "authorization" = some credential := by
  simp [showing, Http.Headers.find?, h, Octets.text?_ofText]

theorem no_secret {credential : String} : ¬ ShowsSecret listed (showing credential) := by
  rintro ⟨secret, configured, -⟩
  cases configured

/-- Of the tokens of `a, b,` the first is good and the second is not; and no token at all is. -/
theorem listed_known :
    (caller listed (showing "Bearer a")).authenticated = true ∧
    (caller listed (showing "Bearer  b")).authenticated = false ∧
    (caller listed (showing "Bearer ")).authenticated = true ∧
    listed.callerTokens = Text.split ',' "a, b," := by
  have sent (token : String) (readable : Http.isReadable (Octets.ofText ("Bearer " ++ token)) = true) :
      (caller listed (showing ("Bearer " ++ token))).authenticated = true ↔
        Text.trim token ∈ listed.callerTokens :=
    ((known_exactly listed (showing ("Bearer " ++ token))).2.2.2.1 token
      (find_showing _ readable)).trans (or_iff_right no_secret)
  have blank : ShowsToken (showing "Bearer ") "" :=
    showsToken_bearer "" (find_showing "Bearer " (by decide))
  refine ⟨(sent "a" (by decide)).mpr (by decide), ?_, ?_, ?_⟩
  · exact Bool.eq_false_iff.mpr fun known =>
      absurd ((sent " b" (by decide)).mp known) (by decide)
  · exact ((known_exactly listed (showing "Bearer ")).2.2.1 no_secret
      fun token shown => shown.unique blank).mpr ⟨by decide, blank⟩
  · exact (known_exactly listed []).2.2.2.2 "a, b," listed_loaded

end Small
end DatasetFilters
