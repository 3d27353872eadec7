import MeshControl.Duration

/-!
Counters of the request engine, for one connection and for a whole process.
-/

namespace MeshControl

/-- The round-trip times of the latest answers, oldest first, in whole microseconds. -/
structure RoundTrips where
  samples : List UInt64 := []
deriving DecidableEq, Repr, Inhabited

namespace RoundTrips

/-- The most samples that are kept. -/
def capacity : Nat := 32

/-- Takes in one sample; the oldest makes room. -/
def record (trips : RoundTrips) (time : Duration) : RoundTrips :=
  let kept := if trips.samples.length ≥ capacity then trips.samples.tail else trips.samples
  ⟨kept ++ [UInt64.ofNat time.microseconds]⟩

/-- The whole microseconds of the mean, if there is a sample. -/
def average (trips : RoundTrips) : Option UInt64 :=
  if trips.samples.isEmpty then none
  else some (trips.samples.foldl (· + ·) 0 / UInt64.ofNat trips.samples.length)

end RoundTrips

/-- What one window has sent and seen. -/
structure Counters where
  requests : Nat := 0
  responses : Nat := 0
  timeouts : Nat := 0
  resent : Nat := 0
  retryResent : Nat := 0
  stale : Nat := 0
  roundTrips : RoundTrips := {}
deriving DecidableEq, Repr, Inhabited

namespace Counters

/-- Counts an answer that ended a request well. -/
def recordResponse (counters : Counters) (time : Duration) : Counters :=
  { counters with roundTrips := counters.roundTrips.record time }

/-- Everything that went out: new requests and repetitions. -/
def datagramsSent (counters : Counters) : Nat :=
  counters.requests + counters.resent + counters.retryResent

end Counters

/-- The counters of a process, window by window, with the number of failed requests. -/
structure Statistics where
  windows : List Counters := []
  errors : Nat := 0
deriving DecidableEq, Repr, Inhabited

namespace Statistics

/-- The sum of one counter over the windows. -/
def total (statistics : Statistics) (counter : Counters → Nat) : Nat :=
  statistics.windows.foldr (fun window total => counter window + total) 0

/-- How many of the datagrams sent were repetitions. -/
def resendRatio (statistics : Statistics) : Float :=
  let sent := statistics.total Counters.datagramsSent
  if sent = 0 then 0
  else
    (statistics.total Counters.resent + statistics.total Counters.retryResent).toFloat
      / sent.toFloat

/-- The counters in one line. -/
def summary (statistics : Statistics) : String :=
  " | ".intercalate
    [s!"Connections: {statistics.windows.length}",
      s!"Requests: {statistics.total Counters.requests}",
      s!"Sent: {statistics.total Counters.datagramsSent}",
      s!"Timeouts: {statistics.total Counters.timeouts}",
      s!"Resent: {statistics.total Counters.resent}",
      s!"Retry codes: {statistics.total Counters.retryResent}",
      s!"Errors: {statistics.errors}"]

end Statistics

end MeshControl
