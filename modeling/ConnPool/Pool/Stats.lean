/-
  What a pool reports about itself.

  The numbers are those counted so far; a time is the average over the events that it belongs to,
  rounded down to a nanosecond, zero before the first event, and at most the largest word of
  nanoseconds.  A report has three forms: a line of JSON with whole milliseconds, lines of text with
  exact times, and the fields of a log entry.
-/
import ConnPool.Json
import ConnPool.Pool.Basic

namespace ConnPool

/-- A view of a pool at one moment. -/
structure PoolStats where
  active : Nat
  idle : Nat
  requests : Nat
  hadToWait : Nat
  badConnections : Nat
  claimedOverdue : Nat
  averageRequestTime : Duration
  averageWaitTime : Duration
  averageCheckoutTime : Duration
  averageOverdueCheckoutTime : Duration
deriving DecidableEq, Repr

/-- The average of a total over a number of events. -/
def Duration.average (total : Duration) (count : Nat) : Duration :=
  if count = 0 then .zero else ⟨saturate (total.nanos / count)⟩

/-- The view of a pool at this moment. -/
def Pool.stats (p : Pool) : PoolStats where
  active := p.active.length
  idle := p.idle.length
  requests := p.counters.requests
  hadToWait := p.counters.hadToWait
  badConnections := p.counters.badConnections
  claimedOverdue := p.counters.claimedOverdue
  averageRequestTime := p.counters.requestTime.average p.counters.requests
  averageWaitTime := p.counters.waitTime.average p.counters.hadToWait
  averageCheckoutTime := p.counters.checkoutTime.average p.counters.requests
  averageOverdueCheckoutTime := p.counters.overdueCheckoutTime.average p.counters.claimedOverdue

namespace PoolStats

/-- A time in whole milliseconds, as far as they fit in a word. -/
def millis (d : Duration) : Json :=
  .num (saturate d.millis)

def toJson (s : PoolStats) : Json :=
  .obj [
    ("active", .num s.active),
    ("idle", .num s.idle),
    ("request_count", .num s.requests),
    ("had_to_wait_count", .num s.hadToWait),
    ("bad_connection_count", .num s.badConnections),
    ("claimed_overdue_count", .num s.claimedOverdue),
    ("average_request_time_ms", millis s.averageRequestTime),
    ("average_wait_time_ms", millis s.averageWaitTime),
    ("average_checkout_time_ms", millis s.averageCheckoutTime),
    ("average_overdue_checkout_time_ms", millis s.averageOverdueCheckoutTime)]

/-- The lines of the text form: a name and its value. -/
def rows (s : PoolStats) : List (String × String) :=
  [("activeConnections", toString s.active),
   ("idleConnections", toString s.idle),
   ("requestCount", toString s.requests),
   ("averageRequestTime", s.averageRequestTime.reportText),
   ("averageCheckoutTime", s.averageCheckoutTime.reportText),
   ("claimedOverdue", toString s.claimedOverdue),
   ("averageOverdueCheckout", s.averageOverdueCheckoutTime.reportText),
   ("hadToWait", toString s.hadToWait),
   ("averageWaitTime", s.averageWaitTime.reportText),
   ("badConnectionCount", toString s.badConnections)]

/-- A name and its value, the values of all lines in one column. -/
def row (name value : String) : String :=
  name ++ String.ofList (List.replicate (24 - name.length) ' ') ++ value

/-- The text form; the last line has no end. -/
def text (s : PoolStats) : String :=
  String.intercalate "\n" (s.rows.map fun r => row r.1 r.2)

/-- The fields of a log entry about the pool of a url. -/
def logFields (s : PoolStats) (url : String) : List (String × String) :=
  [("message", "pool statistics"),
   ("url", url),
   ("active", toString s.active),
   ("idle", toString s.idle),
   ("requests", toString s.requests),
   ("had_to_wait", toString s.hadToWait),
   ("bad_connections", toString s.badConnections),
   ("claimed_overdue", toString s.claimedOverdue),
   ("average_request_time", s.averageRequestTime.reportText),
   ("average_checkout_time", s.averageCheckoutTime.reportText)]

end PoolStats

namespace Pool

/-- A pool on one line. -/
def describe (p : Pool) : String :=
  "ConnectionPool \x7b source: " ++ p.source.config.describe ++
    ", config: " ++ p.config.describe ++
    ", active: " ++ toString p.active.length ++
    ", idle: " ++ toString p.idle.length ++
    ", closed: " ++ toString p.closed ++ ", .. \x7d"

end Pool

/-- A handle on one line; whether it is valid is up to its pool. -/
def Handle.describe (h : Handle) (valid : Bool) : String :=
  "PooledHandle \x7b id: " ++ toString h.id ++ ", raw_id: " ++ toString h.rawId ++
    ", valid: " ++ toString valid ++ ", .. \x7d"

end ConnPool
