import MeshControl.Flood.Block
import MeshControl.Link.Process

/-!
Floods over the mesh: a start that announces the blocks, the blocks in order, and an end. Each
stage is a batch of its own, and the next begins only after all of its requests have succeeded.
-/

namespace MeshControl.Flood

open Scp Operation Link

variable {ρ : Type} [Responder ρ]

/-- Announces a flood. -/
def start (hub : Hub ρ) (config : Config) (id blocks : UInt8) : Except Halt Unit × Hub ρ :=
  hub.batch config 1 fun _ => { request := .ok (floodFillStart id blocks none) }

/-- Ends a flood. -/
def finish (hub : Hub ρ) (config : Config) (id : UInt8) : Except Halt Unit × Hub ρ :=
  hub.batch config 1 fun _ => { request := .ok (floodFillEnd id 0 0 false) }

/-- The request that delivers a block. -/
def deliver (id : UInt8) (block : Block) : Order where
  request := (floodFillData id block.number block.address block.data).mapError .failed

/-- Writes data into the memory of every chip. -/
def write (hub : Hub ρ) (ids : Ids) (config : Config) (base : UInt32) (data : List UInt8)
    : Except Halt Unit × Hub ρ × Ids :=
  match checkSize base (UInt64.ofNat data.length) with
  | .error halt => (.error halt, hub, ids)
  | .ok _ =>
      let blocks := pieces data
      let (id, ids) := ids.draw
      match start hub config id (UInt8.ofNat blocks) with
      | (.error halt, hub) => (.error halt, hub, ids)
      | (.ok (), hub) =>
          match hub.batch config blocks fun index => deliver id (blockAt base data index) with
          | (.error halt, hub) => (.error halt, hub, ids)
          | (.ok (), hub) =>
              let (result, hub) := finish hub config id
              (result, hub, ids)

/-- How a delivery from a source ended. -/
structure Delivered (ρ : Type) where
  result : Except Halt Unit
  /-- What is left in the source. -/
  unread : List UInt8
  hub : Hub ρ

/--
Sends block after block while the source gives data. A source that fails early is used up; the
blocks on their way are waited for, and the flood is given up.
-/
def deliverFrom (hub : Hub ρ) (process : Process) (id : UInt8) (number : UInt8)
    (address : UInt32) (remaining : Nat) (source : List UInt8) (failure : IoFailure)
    : Delivered ρ :=
  if remaining = 0 then
    let (result, hub, process) := Process.finishAndCheck hub process
    ⟨result.mapError .failed, source, process.drop hub⟩
  else
    let size := min remaining maxData
    if source.length < size then
      let (_, hub, process) := Process.finish hub process
      ⟨.error (.failed (.io failure)), [], process.drop hub⟩
    else
      let block : Block := ⟨number, address, padToWord (source.take size)⟩
      let rest := source.drop size
      match Process.sendAll (fun _ => deliver id block) hub process 0 1 with
      | (.error halt, hub, process) => ⟨.error halt, rest, process.drop hub⟩
      | (.ok (), hub, process) =>
          deliverFrom hub process id (number + 1) (address + UInt32.ofNat size)
            (remaining - size) rest failure
termination_by remaining
decreasing_by
  have : 0 < maxData := by decide
  omega

/--
Writes so many bytes from a source into the memory of every chip. The source gives some bytes and
then fails; one that just ends fails in the way that is told of an end.
-/
def writeFrom (hub : Hub ρ) (ids : Ids) (config : Config) (base : UInt32)
    (source : List UInt8) (bytes : UInt64) (failure : IoFailure := .endOfData)
    : Delivered ρ × Ids :=
  match checkSize base bytes with
  | .error halt => (⟨.error halt, source, hub⟩, ids)
  | .ok blocks =>
      let (id, ids) := ids.draw
      match start hub config id blocks with
      | (.error halt, hub) => (⟨.error halt, source, hub⟩, ids)
      | (.ok (), hub) =>
          let delivered := deliverFrom hub { config } id 0 base bytes.toNat source failure
          match delivered.result with
          | .error _ => (delivered, ids)
          | .ok () =>
              let (result, hub) := finish delivered.hub config id
              ({ delivered with result, hub }, ids)

end MeshControl.Flood
