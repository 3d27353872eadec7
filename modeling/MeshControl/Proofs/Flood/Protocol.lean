import MeshControl.Link.Transcript
import MeshControl.Proofs.Flood.Transaction

/-! The order of a flood on the wire. Whatever its connections do, a flood goes through its stages
in order or not at all, and all that it sends carries one number, which none of the 125 floods
before it had.
-/

namespace MeshControl

open Scp Operation Link

-----------------------------------------------------------------------------------------
-- Numbers on the wire
-----------------------------------------------------------------------------------------

/-- Every one of these datagrams is a request of this flood. -/
def Flood.Carries (id : UInt8) (datagrams : List Datagram) : Prop :=
  ∀ datagram ∈ datagrams,
    ∃ request, Request.decode datagram = .ok request ∧ floodId request = id

/-- A row whose requests have the number sends nothing without it. -/
theorem Link.Passage.Ordered.carries {passage : Passage} {tag id : UInt8} {plain : Nat → Request}
    {count : Nat} (ordered : passage.Ordered tag plain count)
    (numbered : ∀ index, floodId (plain index) = id)
    : Flood.Carries id (transmissions passage.events) := by
  obtain ⟨⟨_, _, labels, sent, _⟩, _⟩ := ordered
  intro datagram member
  rw [sent] at member
  obtain ⟨index, _, rfl⟩ := List.mem_map.mp member
  exact ⟨_, Request.decode_datagram _ _, (floodId_onWire _ tag).trans (numbered index)⟩

namespace Flood

theorem Transaction.Orderly.carries {transaction : Transaction} {task : Task}
    {id tag : UInt8} {result : Except Halt Unit}
    (orderly : transaction.Orderly task id tag result)
    : Carries id (transmissions transaction.events) := by
  intro datagram member
  rw [Transaction.events, transmissions_append, transmissions_append] at member
  rcases List.mem_append.mp member with early | ending
  · rcases List.mem_append.mp early with starting | delivering
    · exact orderly.start.carries (fun _ => floodId_start _ _ _) datagram starting
    · exact orderly.blocks.carries (fun _ => floodId_data _ _) datagram delivering
  · exact orderly.finish.carries (fun _ => floodId_end _ _ _ _) datagram ending

-----------------------------------------------------------------------------------------
-- Numbers in turn
-----------------------------------------------------------------------------------------

/-- The number that is drawn after so many others. -/
def Ids.number (ids : Ids) (count : Nat) : UInt8 :=
  UInt8.ofNat ((ids.position.val + count) % 126 + 1)

theorem Ids.toNat_number (ids : Ids) (count : Nat)
    : (ids.number count).toNat = (ids.position.val + count) % 126 + 1 := by
  rw [number, UInt8.toNat_ofNat']
  omega

/-- Only after all 126 numbers one of them comes again. -/
theorem Ids.number_ne {ids : Ids} {earlier count : Nat} (before : earlier < count)
    (recent : count ≤ earlier + 125)
    : ids.number earlier ≠ ids.number count := by
  intro same
  have numbers := congrArg UInt8.toNat same
  rw [toNat_number, toNat_number] at numbers
  omega

theorem Ids.draw_eq {ids last : Ids} {count : Nat}
    (position : last.position.val = (ids.position.val + count) % 126)
    : last.draw.1 = ids.number count := by
  rw [draw, number, position]

/-- One flood among others: the connections as it finds them, and what it is to write. -/
structure Call (ρ : Type) where
  hub : Hub ρ
  config : Config
  task : Task

variable {ρ : Type} [Responder ρ]

/-- The numbers that some floods drew, one after the other, and the numbers after them. -/
def history (ids : Ids) : List (Call ρ) → List UInt8 × Ids
  | [] => ([], ids)
  | call :: calls =>
      let (_, _, after) := call.task.perform call.hub ids call.config
      let (drawn, last) := history after calls
      match call.task.check with
      | .error _ => (drawn, last)
      | .ok _ => (ids.draw.1 :: drawn, last)

/-- Floods draw the numbers in turn, by induction on the floods. -/
theorem history_drawn (ids : Ids) (calls : List (Call ρ))
    : ∃ count,
        (history ids calls).1 = (List.range count).map ids.number
        ∧ (history ids calls).2.position.val = (ids.position.val + count) % 126 := by
  induction calls generalizing ids with
  | nil => exact ⟨0, rfl, (Nat.mod_eq_of_lt ids.position.isLt).symm⟩
  | cons call calls ih =>
      cases checked : call.task.check with
      | error halt =>
          obtain ⟨count, drawn, position⟩ := ih ids
          refine ⟨count, ?_, ?_⟩
          · simp only [history, checked, perform_refused checked, drawn]
          · simp only [history, checked, perform_refused checked, position]
      | ok blocks =>
          generalize done : call.task.perform call.hub ids call.config = outcome
          obtain ⟨result, after, left⟩ := outcome
          obtain ⟨rfl, _⟩ := perform_course checked done
          obtain ⟨count, drawn, position⟩ := ih ids.draw.2
          have moved : ids.draw.2.position.val = (ids.position.val + 1) % 126 := rfl
          have first : ids.draw.1 = ids.number 0 :=
            Ids.draw_eq (Nat.mod_eq_of_lt ids.position.isLt).symm
          have rest : ids.draw.2.number = ids.number ∘ Nat.succ := by
            funext index
            simp only [Ids.number, Function.comp, moved]
            congr 2
            omega
          refine ⟨count + 1, ?_, ?_⟩
          · simp only [history, checked, done, drawn, List.range_succ_eq_map, List.map_cons,
              List.map_map, first, rest]
          · simp only [history, checked, done, position, moved]
            omega

/-- The next number was not drawn by any of the last 125 floods. -/
theorem draw_fresh {ids : Ids} {calls : List (Call ρ)} {drawn : List UInt8} {last : Ids}
    (before : history ids calls = (drawn, last))
    : 1 ≤ last.draw.1.toNat ∧ last.draw.1.toNat ≤ 126
      ∧ last.draw.1 ∉ drawn.drop (drawn.length - 125) := by
  obtain ⟨count, numbers, position⟩ := history_drawn ids calls
  rw [before] at numbers position
  dsimp only at numbers position
  rw [Ids.draw_eq position, Ids.toNat_number]
  refine ⟨by omega, by omega, ?_⟩
  intro member
  obtain ⟨index, within, same⟩ := List.mem_iff_getElem.mp member
  simp only [numbers, List.length_drop, List.length_map, List.length_range] at within
  simp only [numbers, List.getElem_drop, List.getElem_map, List.getElem_range,
    List.length_map, List.length_range] at same
  exact Ids.number_ne (by omega) (by omega) same

-----------------------------------------------------------------------------------------
-- The protocol
-----------------------------------------------------------------------------------------

/-- The blocks of a flood have their own numbers and addresses, without a carry. -/
theorem blocks_exact {task : Task} {blocks : UInt8} (bounded : task.wanted < 2 ^ 64)
    (checked : task.check = .ok blocks) {index : Nat}
    (within : index < blocksFor task.wanted)
    : (blockAt task.base task.data index).number.toNat = index
      ∧ (blockAt task.base task.data index).address.toNat
        = task.base.toNat + index * maxData := by
  have size : (UInt64.ofNat task.wanted).toNat = task.wanted :=
    UInt64.toNat_ofNat_of_lt' bounded
  obtain ⟨⟨_, few, inside⟩, _⟩ := fits_of_checkSize checked
  rw [size] at few inside
  simp only [maxData, blocksFor, roundedUp] at few inside within
  refine ⟨?_, ?_⟩
  · simp only [blockAt, UInt8.toNat_ofNat']
    omega
  · simp only [blockAt, UInt32.toNat_add, UInt32.toNat_ofNat', maxData]
    omega

/-- A flood whose size or range is refused does nothing and draws no number. Any other, whatever
floods came before it and whatever the connections do, keeps the order of its stages under one
number that is new among the last 126. It returns if each connection has as many free numbers as
the flood has blocks. Every block has its own number and address, if 64 bits can hold the size.
-/
theorem perform_orderly (ids : Ids) (calls : List (Call ρ)) (hub : Hub ρ) (config : Config)
    (task : Task)
    : let (drawn, ids) := history ids calls
      let (result, after, left) := task.perform hub ids config
      match task.check with
      | .error halt => result = .error halt ∧ after = hub ∧ left = ids
      | .ok _ =>
          let id := ids.draw.1
          left = ids.draw.2
          ∧ (1 ≤ id.toNat ∧ id.toNat ≤ 126 ∧ id ∉ drawn.drop (drawn.length - 125))
          ∧ (hub.HasRoom (blocksFor task.wanted) → Returns result)
          ∧ ∃ transaction : Transaction,
              after.journal.toList = hub.journal.toList ++ transaction.events
              ∧ transaction.Orderly task id config.tag result
              ∧ Carries id (transmissions transaction.events)
              ∧ (task.wanted < 2 ^ 64
                → ∀ index < blocksFor task.wanted,
                    (blockAt task.base task.data index).number.toNat = index
                    ∧ (blockAt task.base task.data index).address.toNat
                      = task.base.toNat + index * maxData) := by
  generalize before : history ids calls = past
  obtain ⟨drawn, last⟩ := past
  dsimp only
  generalize done : task.perform hub last config = outcome
  obtain ⟨result, after, left⟩ := outcome
  dsimp only
  cases checked : task.check with
  | error halt =>
      rw [perform_refused checked] at done
      obtain ⟨rfl, rfl, rfl⟩ := by simpa using done
      exact ⟨rfl, rfl, rfl⟩
  | ok blocks =>
      obtain ⟨next, returns, transaction, course⟩ := perform_course checked done
      have orderly := course.orderly
      exact ⟨next, draw_fresh before, returns, transaction, course.journal_eq, orderly,
        orderly.carries, fun bounded _ within => blocks_exact bounded checked within⟩

/-- A board that accepts the first requests, in their order, and is silent from then on. -/
def acceptingHub (requests : Nat) : Hub Transcript :=
  let accept (index : Nat) : Reaction :=
    { arrivals :=
        [.datagram (Response.datagramWithCode (.toMonitor .origin .replyNotExpected)
          ResultCode.ok.code (UInt16.ofNat index) [])] }
  let peer : Transcript := { known := (List.range requests).map accept }
  { lines := [{ connection := { number := 0, name := "board", chip := .origin, peer } }]
    selector := .fixed ⟨0, .origin⟩ }

/-- A board that accepts everything gets a start, one block and an end. -/
example
    : let (result, after, left) :=
        (Task.whole 0x60000000 [1, 2, 3, 4, 5]).perform (acceptingHub 3) {} {}
      result.isOk = true ∧ (transmissions after.journal.toList).length = 3
      ∧ left.draw.1 = 2 := by
  cbv

/-- One that falls silent after the start gets the block as often as the budget allows, and no
end; the number is used up all the same.
-/
example
    : let (result, after, left) :=
        (Task.whole 0x60000000 [1, 2, 3, 4, 5]).perform (acceptingHub 1) {} {}
      result.isOk = false
      ∧ (transmissions after.journal.toList).length = 1 + Config.sends {}
      ∧ left.draw.1 = 2 := by
  cbv

end Flood

end MeshControl
