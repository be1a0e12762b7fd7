import DatasetFilters.Config.Basic
import DatasetFilters.Json.Record

namespace DatasetFilters

/-- The ways in which the members of a configuration are read from values of one kind. -/
structure MemberReader (α : Type) where
  text : α → Option String
  flag : α → Option Bool
  number : Nat → α → Option Nat
  texts : α → Option (List String)
  isNull : α → Bool

namespace MemberReader

def json : MemberReader Json where
  text := Json.asText?
  flag := Json.asBool?
  number := Json.asNat?
  texts := Json.asList? Json.asText?
  isNull := fun j => match j with | .null => true | _ => false

def member (find : String → Option α) (read : α → Option β) (name : String) (default : β) :
    Option β :=
  match find name with
  | none => some default
  | some v => read v

def optionalText (r : MemberReader α) (find : String → Option α) (name : String) :
    Option (Option String) :=
  match find name with
  | none => some none
  | some v => if r.isNull v then some none else (r.text v).map some

end MemberReader

namespace Config

/-- Reads a configuration from its members, found by name, any of which may be missing. The members
are listed once, for any kind of value that they can be read from. -/
def ofMembers? (r : MemberReader α) (find : String → Option α) : Option Config := do
  let d : Config := {}
  let text := MemberReader.member find r.text
  let flag := MemberReader.member find r.flag
  let port := MemberReader.member find (r.number UInt16.size)
  let word := MemberReader.member find (r.number UInt64.size)
  let texts := MemberReader.member find r.texts
  let optional := r.optionalText find
  return {
    bindAddress := ← text "bind_addr" d.bindAddress
    port := ← port "port" d.port
    timeoutSeconds := ← word "timeout_secs" d.timeoutSeconds
    maxBodyMegabytes := ← word "max_body_size_mb" d.maxBodyMegabytes
    logLevel := ← text "log_level" d.logLevel
    crossOrigin := ← flag "enable_cors" d.crossOrigin
    metrics := ← flag "metrics_enabled" d.metrics
    publicUrl := ← text "filter_api_url" d.publicUrl
    catalogUrl := ← text "dataset_api_url" d.catalogUrl
    downloadUrl := ← text "download_service_url" d.downloadUrl
    downloadToken := ← optional "download_service_token"
    catalogToken := ← optional "service_auth_token"
    callerTokens := ← texts "service_tokens" d.callerTokens
    gatewayLinks := ← flag "enable_url_rewriting" d.gatewayLinks
    forwardFlexible := ← flag "enable_flexible_forwarding" d.forwardFlexible
    flexibleUrl := ← text "flexible_api_url" d.flexibleUrl
    defaultLimit := ← word "default_limit" d.defaultLimit
    maxLimit := ← word "max_limit" d.maxLimit
    maxPatchOptions := ← word "max_patch_options" d.maxPatchOptions
    batchSize := ← word "batch_size" d.batchSize
    batchWorkers := ← word "batch_max_workers" d.batchWorkers
    storePath := ← optional "store_path"
    catalogTimeoutSeconds := ← word "catalog_timeout_secs" d.catalogTimeoutSeconds
    topic := ← text "submission_topic" d.topic
    queueCapacity := ← word "submission_queue_capacity" d.queueCapacity
    queueTimeoutMilliseconds := ← word "queue_send_timeout_ms" d.queueTimeoutMilliseconds
    webhookUrl := ← optional "submission_webhook_url" }

/-- A text, or null. -/
def orNull (s : Option String) : Json := (s.map Json.text).getD .null

def members (c : Config) : List (String × Json) :=
  [("bind_addr", .text c.bindAddress), ("port", .nat c.port),
   ("timeout_secs", .nat c.timeoutSeconds), ("max_body_size_mb", .nat c.maxBodyMegabytes),
   ("log_level", .text c.logLevel), ("enable_cors", .bool c.crossOrigin),
   ("metrics_enabled", .bool c.metrics), ("filter_api_url", .text c.publicUrl),
   ("dataset_api_url", .text c.catalogUrl), ("download_service_url", .text c.downloadUrl),
   ("download_service_token", orNull c.downloadToken),
   ("service_auth_token", orNull c.catalogToken), ("service_tokens", .texts c.callerTokens),
   ("enable_url_rewriting", .bool c.gatewayLinks),
   ("enable_flexible_forwarding", .bool c.forwardFlexible),
   ("flexible_api_url", .text c.flexibleUrl), ("default_limit", .nat c.defaultLimit),
   ("max_limit", .nat c.maxLimit), ("max_patch_options", .nat c.maxPatchOptions),
   ("batch_size", .nat c.batchSize), ("batch_max_workers", .nat c.batchWorkers),
   ("store_path", orNull c.storePath), ("catalog_timeout_secs", .nat c.catalogTimeoutSeconds),
   ("submission_topic", .text c.topic), ("submission_queue_capacity", .nat c.queueCapacity),
   ("queue_send_timeout_ms", .nat c.queueTimeoutMilliseconds),
   ("submission_webhook_url", orNull c.webhookUrl)]

def memberNames : List String := ({} : Config).members.map (·.1)

def toJson (c : Config) : Json := .ofMembers c.members

def ofJson? (j : Json) : Option Config := do
  let r ← JsonRecord.of? memberNames j
  ofMembers? .json r.find?

end Config
end DatasetFilters
