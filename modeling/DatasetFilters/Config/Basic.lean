import DatasetFilters.Http.SocketAddress
import DatasetFilters.Service.Request

namespace DatasetFilters

/-- The configuration of a server. -/
structure Config where
  bindAddress : String := "0.0.0.0"
  port : Nat := 22100
  timeoutSeconds : Nat := 30
  maxBodyMegabytes : Nat := 10
  logLevel : String := "info"
  crossOrigin : Bool := true
  metrics : Bool := true
  publicUrl : String := "http://localhost:22100"
  catalogUrl : String := "http://localhost:22000"
  downloadUrl : String := "http://localhost:23600"
  downloadToken : Option String := none
  catalogToken : Option String := none
  callerTokens : List String := []
  gatewayLinks : Bool := false
  forwardFlexible : Bool := false
  flexibleUrl : String := "http://localhost:27100"
  defaultLimit : Nat := 20
  maxLimit : Nat := 1000
  maxPatchOptions : Nat := 1000
  batchSize : Nat := 100
  batchWorkers : Nat := 10
  /-- The file of the store; without one it is held in memory. -/
  storePath : Option String := none
  catalogTimeoutSeconds : Nat := 10
  topic : String := "filter-job-submitted"
  queueCapacity : Nat := 1024
  queueTimeoutMilliseconds : Nat := 5000
  /-- Where submissions are delivered; without an address they are noted only. -/
  webhookUrl : Option String := none
  deriving DecidableEq, Repr

namespace Config

/-- The greatest size of a request body in octets, in 64-bit arithmetic. -/
def maxBodySize (c : Config) : Nat := c.maxBodyMegabytes * 0x100000 % UInt64.size

/-- The address to listen on, if the configured one can be read. -/
def socketAddress? (c : Config) : Option SocketAddress :=
  SocketAddress.parse? (c.bindAddress ++ ":" ++ Decimal.text c.port)

def location (c : Config) : Store.Location := .ofPath c.storePath

def settings (c : Config) : Settings where
  limits := ⟨max c.batchSize 1, max c.batchWorkers 1⟩
  maxPatchOptions := c.maxPatchOptions
  downloadUrl := c.downloadUrl

/-- The channel of submissions, empty. -/
def channel (c : Config) : Channel :=
  .create c.topic c.queueCapacity c.queueTimeoutMilliseconds

end Config
end DatasetFilters
