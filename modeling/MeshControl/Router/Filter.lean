/-!
Filters of the router's counters. A counter counts the packets that its filter matches; a filter
is one word in the router. In each field a packet must show one of the chosen values, and a
field without a choice matches every value.
-/

namespace MeshControl.Router

/-- Which packets a counter counts: one bit for each value of a field. -/
structure Filter where
  interrupt : Bool
  matchIncoming : Bool
  destinations : BitVec 9
  sources : BitVec 2
  payload : BitVec 2
  defaultRouting : BitVec 2
  emergencyRouting : BitVec 4
  packetTypes : BitVec 4
deriving DecidableEq, Repr

namespace Filter

/-- A field without a choice stands for all its values. -/
def allIfEmpty {width : Nat} (field : BitVec width) : BitVec width :=
  if field = 0 then BitVec.allOnes width else field

/-- The filter with every open field filled. -/
def normalize (filter : Filter) : Filter :=
  { filter with
    destinations := allIfEmpty filter.destinations
    sources := allIfEmpty filter.sources
    payload := allIfEmpty filter.payload
    defaultRouting := allIfEmpty filter.defaultRouting
    emergencyRouting := allIfEmpty filter.emergencyRouting
    packetTypes := allIfEmpty filter.packetTypes }

/-- The filter that matches every packet. -/
def matchAll : Filter :=
  normalize
    { interrupt := false
      matchIncoming := true
      destinations := 0
      sources := 0
      payload := 0
      defaultRouting := 0
      emergencyRouting := 0
      packetTypes := 0 }

/-! ### Places in the word -/

def packetTypesOffset : Nat := 0
def emergencyRoutingOffset : Nat := 4
def modeOffset : Nat := 8
def defaultRoutingOffset : Nat := 10
def payloadOffset : Nat := 12
def sourcesOffset : Nat := 14
def destinationsOffset : Nat := 16
def interruptOffset : Nat := 30

/-- A word with a field in its place and nothing else. -/
def place {width : Nat} (offset : Nat) (field : BitVec width) : BitVec 32 :=
  field.setWidth 32 <<< offset

/-- The field of so many bits at a place of a word. -/
def fieldAt (width offset : Nat) (word : BitVec 32) : BitVec width :=
  (word >>> offset).setWidth width

/-- The fields in their places. The mode is a bit that stands for what does not come in. -/
def assemble (filter : Filter) : BitVec 32 :=
  place interruptOffset (BitVec.ofBool filter.interrupt)
    ||| place modeOffset (BitVec.ofBool !filter.matchIncoming)
    ||| place destinationsOffset filter.destinations
    ||| place sourcesOffset filter.sources
    ||| place payloadOffset filter.payload
    ||| place defaultRoutingOffset filter.defaultRouting
    ||| place emergencyRoutingOffset filter.emergencyRouting
    ||| place packetTypesOffset filter.packetTypes

/-- The word in the router. -/
def word (filter : Filter) : BitVec 32 :=
  filter.normalize.assemble

/-- The fields of a word as they stand. -/
def disassemble (word : BitVec 32) : Filter :=
  { interrupt := fieldAt 1 interruptOffset word == 1
    matchIncoming := fieldAt 1 modeOffset word == 0
    destinations := fieldAt 9 destinationsOffset word
    sources := fieldAt 2 sourcesOffset word
    payload := fieldAt 2 payloadOffset word
    defaultRouting := fieldAt 2 defaultRoutingOffset word
    emergencyRouting := fieldAt 4 emergencyRoutingOffset word
    packetTypes := fieldAt 4 packetTypesOffset word }

/-- The filter that a word in the router stands for. -/
def ofWord (word : BitVec 32) : Filter :=
  (disassemble word).normalize

end Filter

end MeshControl.Router
