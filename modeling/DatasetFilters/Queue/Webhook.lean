import DatasetFilters.Http.Message
import DatasetFilters.Queue.Channel

namespace DatasetFilters

/-- A message as it is posted to an address: as JSON, its topic in a header of its own. -/
def webhookRequest (target : Octets) (e : Envelope) : Http.Request where
  method := "POST"
  target := target
  headers := [("x-topic", Octets.ofText e.topic), ("content-type", Octets.ofText "application/json")]
  body := e.toJson.write

def isHeaderText (s : String) : Bool :=
  (Octets.ofText s).all fun b => b == 9 || (32 ≤ b && b != 127)

/-- Delivers a message; any reply that is no success is a failure. -/
def deliverTo (net : Http.Network) (host : String) (target : Octets) (e : Envelope) :
    Except QueueError Unit :=
  if !isHeaderText e.topic then .error (.delivery "builder error")
  else match net host (webhookRequest target e) with
    | .error detail => .error (.delivery detail)
    | .ok r =>
      if Http.isSuccess r.status then .ok ()
      else .error (.delivery s!"webhook returned {r.status}")

end DatasetFilters
