import MeshControl.Link.Connection

/-!
Peers of which only the past is known: how they reacted to the datagrams so far. A run over a
transcript is a run over the peer itself up to the first datagram that is not in it, and that
datagram is what the peer has to be asked next.
-/

namespace MeshControl.Link

/-- The reactions of a peer so far. -/
structure Transcript where
  /-- The reactions to come, for the datagrams in their order. -/
  known : List Reaction
  /-- The first datagram whose reaction is not known. -/
  asked : Option Datagram := none
deriving DecidableEq, Repr, Inhabited

namespace Transcript

instance : Responder Transcript where
  react transcript datagram :=
    match transcript.known with
    | reaction :: known => (reaction, { transcript with known })
    | [] => ({}, { transcript with asked := transcript.asked.or (some datagram) })

end Transcript

end MeshControl.Link
