import MeshControl.Duration
import MeshControl.Sdp.Header

/-!
Settings of the request engine: how long to wait, how often to send, how many requests may wait
for answers at a time.
-/

namespace MeshControl

/-- The port that a board's monitor listens on. -/
def monitorPort : UInt16 := 17893

/-- Settings of the request engine. -/
structure Config where
  /-- How long one wait for an answer lasts. -/
  timeout : Duration := .ofSeconds 1
  /-- How often a request is sent at most, the first time included. -/
  sends : Nat := 3
  /-- How many requests may wait for answers on one connection. -/
  channels : Nat := 8
  /-- A full window is emptied down to this many before the next request goes out. -/
  waits : Nat := 7
  /-- The pause before a request is sent again because of its result code. -/
  retryDelay : Duration := .ofMilliseconds 100
  /-- The room for one received datagram. -/
  receiveBuffer : Nat := 65536
  /-- The tag of requests that name none. -/
  tag : UInt8 := Sdp.defaultTag
  /-- The port that a board's monitor listens on. -/
  port : UInt16 := monitorPort
deriving DecidableEq, Repr, Inhabited

namespace Config

/-- For the board's management processor, which takes one request at a time. -/
def management : Config :=
  { timeout := .ofMilliseconds 500, channels := 1, waits := 0 }

/-- For one request at a time. -/
def singleCommand : Config :=
  { channels := 1, waits := 0 }

/-- For counting, whose answers are slow. -/
def countState : Config :=
  { timeout := .ofSeconds 2 }

/-- For links that lose much. -/
def patient : Config :=
  { timeout := .ofSeconds 2
    sends := 10
    channels := 4
    waits := 2
    retryDelay := .ofMilliseconds 250 }

/-- Sets the window; it holds at least one request, and emptying it makes room. -/
def withChannels (config : Config) (channels waits : Nat) : Config :=
  { config with channels := max channels 1, waits := min waits (max channels 1 - 1) }

/-- The number of requests that may wait, at least one. -/
def window (config : Config) : Nat :=
  max config.channels 1

/-- How many may still wait when a full window has been emptied. -/
def lowWater (config : Config) : Nat :=
  min config.waits (config.window - 1)

/-- The room for one received datagram, at least a byte. -/
def room (config : Config) : Nat :=
  max config.receiveBuffer 1

/-- How often a request may go out, at least once. -/
def budget (config : Config) : Nat :=
  max config.sends 1

theorem lowWater_lt_window (config : Config) : config.lowWater < config.window := by
  unfold lowWater window
  omega

end Config

end MeshControl
