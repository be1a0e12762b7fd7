import DatasetFilters.Caller
import DatasetFilters.Config.Basic

namespace DatasetFilters.Identity

/-- The credential that a request shows, with or without the word `Bearer` in front. -/
def credential? (hs : Http.Headers) : Option String :=
  (hs.find? "authorization").map fun s => Text.trim ((Text.dropLead? "Bearer " s).getD s)

/-- Whether a request shows the secret of the download service. An empty secret is none. -/
def isDownloadService (c : Config) (hs : Http.Headers) : Bool :=
  match hs.find? "x-download-service-token", c.downloadToken with
  | some shown, some expected => !expected.isEmpty && shown == expected
  | _, _ => false

/-- Who sends a request with these headers. The download service is a known caller. -/
def caller (c : Config) (hs : Http.Headers) : Caller :=
  let downloadService := isDownloadService c hs
  { authenticated := downloadService || (credential? hs).any c.callerTokens.contains
    downloadService }

end DatasetFilters.Identity
