import Mathlib.Data.List.Permutation
import MeshControl.Link.Transcript
import MeshControl.Proofs.Board.Storage
import MeshControl.Proofs.Link.Row
import MeshControl.Proofs.Link.Shortage

/-! Reading memory, whatever the connections do. The pieces of a range are asked for one after
another; the answers may come in any order, more than once and with more bytes than were asked
for. The bytes that come back are those of the answers that were taken, each in its place.
-/

namespace MeshControl

open Scp Link Operation

-----------------------------------------------------------------------------------------
-- Pieces of a range
-----------------------------------------------------------------------------------------

namespace Session

section Pieces

variable {right : Nat → List UInt8} {length count : Nat}

/-- Pieces of the sizes that were asked for fill the range; by induction on them. -/
theorem length_flatten_pieces
    (sizes : ∀ index < count, (right index).length = (piece length index).2)
    : ((List.range count).map right).flatten.length = min length (count * maxData) := by
  induction count with
  | zero => simp
  | succ count ih =>
      have last := sizes count (Nat.lt_succ_self count)
      have front := ih fun index within => sizes index (Nat.lt_succ_of_lt within)
      simp only [piece] at last
      rw [List.range_succ, List.map_append, List.flatten_append, List.length_append, front,
        List.map_singleton, List.flatten_singleton, last]
      simp only [maxData]
      omega

/-- Each piece stands where it begins in the range. -/
theorem drop_flatten_pieces
    (sizes : ∀ index < count, (right index).length = (piece length index).2) {index : Nat}
    (within : index < count) (begins : index * maxData < length)
    : ∃ rest,
        ((List.range count).map right).flatten.drop (index * maxData) = right index ++ rest := by
  obtain ⟨behind, rfl⟩ : ∃ behind, count = index + (1 + behind) :=
    ⟨count - index - 1, by omega⟩
  have front : ((List.range index).map right).flatten.length = index * maxData := by
    rw [length_flatten_pieces fun place early => sizes place (by omega)]
    omega
  refine ⟨((List.range behind).map fun place => right (index + (1 + place))).flatten, ?_⟩
  rw [List.range_add, List.map_append, List.flatten_append, List.drop_left' front]
  simp [List.range_add, Function.comp_def]

/-- A range that is cut every so many bytes falls into its pieces. -/
theorem slice_flatten_pieces (whole : length ≤ count * maxData)
    (sizes : ∀ index < count, (right index).length = (piece length index).2) {index : Nat}
    (within : index < count) (begins : index * maxData < length)
    : (((List.range count).map right).flatten.drop (index * maxData)).take maxData
      = right index := by
  obtain ⟨rest, behind⟩ := drop_flatten_pieces sizes within begins
  have size := sizes index within
  have total := congrArg List.length behind
  rw [List.length_drop, length_flatten_pieces sizes, List.length_append, size] at total
  rw [behind]
  simp only [piece] at size total
  by_cases full : (right index).length = maxData
  · rw [List.take_left' full]
  · -- Only the last piece is short, so that nothing comes after it.
    have nothing : rest = [] := List.eq_nil_of_length_eq_zero (by omega)
    rw [nothing, List.append_nil, List.take_of_length_le (by omega)]

/-- Every byte of a range is in exactly one piece. -/
theorem existsUnique_piece {offset : Nat} (within : offset < length)
    : ∃! index,
        index < (length + (maxData - 1)) / maxData
        ∧ index * maxData ≤ offset
        ∧ offset < index * maxData + (piece length index).2 := by
  refine ⟨offset / maxData, ?_, ?_⟩
  · simp only [piece, maxData]
    omega
  · rintro other ⟨_, begins, ends⟩
    simp only [piece, maxData] at *
    omega

end Pieces

-----------------------------------------------------------------------------------------
-- Requests and answers
-----------------------------------------------------------------------------------------

/-- The request for one piece of a range. -/
def pieceRequest (chip : Chip) (base : UInt32) (length index : Nat) : Request :=
  readRequest chip (base + UInt32.ofNat (index * maxData)) (piece length index).2

/-- What a reader wants of the answer for one piece. -/
def pieceHandler (length index : Nat) : Handler where
  audience := .slot index
  check := checkPiece (piece length index).2

/-- An answer is good enough exactly if it has the bytes of its piece. -/
theorem checkPiece_eq_ok_iff (size : Nat) (response : Response)
    : checkPiece size response = .ok () ↔ size ≤ response.payload.length := by
  unfold checkPiece
  split
  · next short => exact ⟨nofun, fun enough => absurd short (Nat.not_lt.mpr enough)⟩
  · next enough => exact ⟨fun _ => Nat.not_lt.mp enough, fun _ => rfl⟩

section Requests

variable {base : UInt32} {length index : Nat}

/-- A piece of a range within the address space has its place in that space. -/
theorem toNat_piece (inside : base.toNat + length ≤ 2 ^ 32) (begins : index * maxData < length)
    : (base + UInt32.ofNat (index * maxData)).toNat = base.toNat + index * maxData := by
  rw [UInt32.toNat_add, UInt32.toNat_ofNat']
  omega

/-- The request for a piece within the address space can be made. -/
theorem readMemory_piece (chip : Chip) (inside : base.toNat + length ≤ 2 ^ 32)
    (begins : index * maxData < length)
    : readMemory chip 0 (base + UInt32.ofNat (index * maxData)) (piece length index).2
      = .ok (pieceRequest chip base length index) := by
  obtain ⟨some_data, fits, ends⟩ := Board.piece_bounds begins
  exact readMemory_of_fits chip some_data fits (Board.pieceOf_inside inside some_data ends)

theorem readOrder_piece (chip : Chip) (inside : base.toNat + length ≤ 2 ^ 32)
    (begins : index * maxData < length)
    : readOrder chip base length index
      = { request := .ok (pieceRequest chip base length index)
          handler := pieceHandler length index } := by
  have made := readMemory_piece chip inside begins
  simp only [readOrder, piece] at made ⊢
  rw [made]
  rfl

end Requests

-----------------------------------------------------------------------------------------
-- Reading a range
-----------------------------------------------------------------------------------------

variable {ρ : Type} [Responder ρ]

/-- How many pieces a range has. -/
def pieces (length : Nat) : Nat :=
  (length + (maxData - 1)) / maxData

/-- A read over some events: its pieces were asked for in their order, and what comes back was put
together from the answers that were taken for them. A steady selector chooses one connection for all
of them.
-/
structure Reassembles (selector : Selector) (passage : Passage) (tag : UInt8) (chip : Chip)
    (base : UInt32) (length offered : Nat) (result : Except Halt (List UInt8)) : Prop where
  asked
    : passage.InOrder tag (pieceRequest chip base length) (transmissions passage.events) offered
  within : offered ≤ pieces length
  /-- Each answer that was taken is for a piece that was asked for. -/
  taken
    : ∀ request response audience,
        .accepted request response audience ∈ passage.events
        → ∃ index < offered,
            audience = .slot index
            ∧ request = passage.request (pieceRequest chip base length) index
            ∧ request.sequence = some response.sequence
            ∧ request.accepts response.result = true
  /-- An answer without all bytes of its piece spoils the read, which no sum stops, and which
  returns with an error if all pieces take one connection. -/
  short
    : ∀ index request response,
        .accepted request response (.slot index) ∈ passage.events
        → response.payload.length < (piece length index).2
        → (∃ halt, result = .error halt ∧ halt ≠ .overflow)
          ∧ (selector.Steady → ∃ error, result = .error (.failed error))
  /-- Otherwise each piece has one answer, and its bytes stand where the piece begins. -/
  whole
    : ∀ bytes,
        result = .ok bytes
        → offered = pieces length
          ∧ bytes.length = length
          ∧ ∀ index < pieces length,
              ∃ response,
                .accepted (passage.request (pieceRequest chip base length) index) response
                    (.slot index)
                  ∈ passage.events
                ∧ (∀ request other,
                  .accepted request other (.slot index) ∈ passage.events → other = response)
                ∧ (piece length index).2 ≤ response.payload.length
                ∧ (bytes.drop (index * maxData)).take maxData
                  = response.payload.take (piece length index).2
  /-- A good answer for every piece is all that a read needs. -/
  succeeds
    : (∀ index < pieces length,
        ∃ request response,
          .accepted request response (.slot index) ∈ passage.events
          ∧ (piece length index).2 ≤ response.payload.length)
      → ∃ bytes, result = .ok bytes

/-- A slot belongs to one piece. -/
theorem pieceHandler_apart (length : Nat)
    : Function.Injective fun index => (pieceHandler length index).audience := by
  intro index other same
  cases same
  rfl

/-- Where no request has failed, what is put together holds each answer's bytes in its place. -/
theorem reassembled {passage : Passage} {origin journal : List Event} {tag : UInt8} {chip : Chip}
    {base : UInt32} {settled : List Settlement} {offered length : Nat}
    (traced
      : passage.Traced origin journal tag (pieceRequest chip base length) (pieceHandler length)
          settled [] offered (pieces length))
    (clean : settled.flatMap Settlement.failures = []) {events : Array Event}
    (given : events.toList = passage.events)
    : (assemble length (pieces length) events).length = length
      ∧ ∀ index < pieces length,
          ∃ response,
            .accepted (passage.request (pieceRequest chip base length) index) response
                (.slot index)
              ∈ passage.events
            ∧ (∀ request other,
              .accepted request other (.slot index) ∈ passage.events → other = response)
            ∧ (piece length index).2 ≤ response.payload.length
            ∧ ((assemble length (pieces length) events).drop (index * maxData)).take maxData
              = response.payload.take (piece length index).2 := by
  choose! answer heard fine using
    fun index (within : index < pieces length) => traced.answered clean within
  have only {index : Nat} (within : index < pieces length) {request : Request}
      {response : Response} (member : .accepted request response (.slot index) ∈ passage.events)
      : response = answer index :=
    (traced.same_answer (pieceHandler_apart length) member (heard index within)).2
  have enough {index : Nat} (within : index < pieces length)
      : (piece length index).2 ≤ (answer index).payload.length :=
    (checkPiece_eq_ok_iff _ _).mp (fine index within)
  let right (index : Nat) : List UInt8 := (answer index).payload.take (piece length index).2
  have gives : ∀ event ∈ events.toList, Board.Gives length right event := by
    rintro event member request response index rfl
    rw [given] at member
    obtain ⟨place, within, _, about, _⟩ := traced.heard member
    obtain rfl : index = place := by
      cases about
      rfl
    rw [only within member]
  have answered : ∀ index < pieces length,
      ∃ request response, Event.accepted request response (.slot index) ∈ events.toList := by
    intro index within
    rw [given]
    exact ⟨_, _, heard index within⟩
  have sizes : ∀ index < pieces length, (right index).length = (piece length index).2 :=
    fun index within => List.length_take_of_le (enough within)
  have whole : length ≤ pieces length * maxData := by
    simp only [pieces, maxData]
    omega
  rw [Board.assemble_pieces gives answered]
  refine ⟨(length_flatten_pieces sizes).trans (Nat.min_eq_left whole), fun index within => ?_⟩
  refine ⟨answer index, heard index within, fun request other => only within, enough within, ?_⟩
  exact slice_flatten_pieces whole sizes within (Board.lt_count_iff.mp within)

/-- An exchange about the pieces of a range reassembles it. -/
theorem reassembles_of_exchange {hub after : Hub ρ} {config : Config} {chip : Chip}
    {base : UInt32} {length : Nat} {result : Except Halt (Array Event)}
    (inside : base.toNat + length ≤ 2 ^ 32)
    (done
      : hub.exchange config (pieces length) (readOrder chip base length) = (result, after))
    : ∃ passage offered,
        after.journal.toList = hub.journal.toList ++ passage.events
        ∧ Reassembles hub.selector passage config.tag chip base length offered
            (result.map (assemble length (pieces length))) := by
  have begins {index : Nat} (within : index < pieces length) : index * maxData < length :=
    Board.lt_count_iff.mp within
  obtain ⟨passage, settled, left, offered, taken, traced, some_offered, within, paid, ended,
    given⟩ := Hub.exchange_traced
      (fun index within => readOrder_piece chip inside (begins within)) done
  refine ⟨passage, offered, traced.journal, traced.tried, within, ?taken, ?short, ?whole,
    ?succeeds⟩
  case taken =>
    intro request response audience member
    obtain ⟨index, early, about, told, _⟩ := traced.heard member
    exact ⟨index, Nat.lt_of_lt_of_le early some_offered, told, about, traced.suited member⟩
  case short =>
    intro index request response member few
    have faulty := traced.failed member fun place about => by
      obtain rfl := pieceHandler_apart length about
      exact ⟨_, if_pos few⟩
    have makes : ∀ index < pieces length,
        (readOrder chip base length index).request ≠ .error .overflow := by
      intro index within
      rw [readOrder_piece chip inside (begins within)]
      nofun
    have unstopped := Hub.exchange_ne_overflow hub config makes
    rw [done] at unstopped
    cases result with
    | error halt =>
        refine ⟨⟨halt, rfl, fun same => unstopped (congrArg Except.error same)⟩, fun steady => ?_⟩
        have heard : told passage.events ≠ [] :=
          List.ne_nil_of_mem (List.mem_filter.mpr ⟨member, rfl⟩)
        have together : ∀ index < pieces length,
            ∃ request,
              (readOrder chip base length index).request = .ok request
              ∧ request.header.destination = chip := fun index within =>
          ⟨_, congrArg Order.request (readOrder_piece chip inside (begins within)), rfl⟩
        obtain ⟨error, rfl⟩ :=
          Hub.exchange_fails_of_told steady together done traced.journal heard
        exact ⟨error, rfl⟩
    | ok events => exact absurd (ended.mp ⟨events, rfl⟩).2 faulty
  case whole =>
    intro bytes good
    cases result with
    | error => cases good
    | ok events =>
        obtain ⟨rfl, clean⟩ := ended.mp ⟨events, rfl⟩
        obtain rfl := Except.ok.inj good
        rw [paid rfl] at traced
        exact ⟨Nat.le_antisymm within some_offered,
          reassembled traced clean (given events rfl)⟩
  case succeeds =>
    intro good
    obtain ⟨all, clean⟩ := traced.faultless (pieceHandler_apart length)
      (Nat.le_trans some_offered within) fun index early => by
        obtain ⟨request, response, member, enough⟩ := good index early
        exact ⟨request, response, member, (checkPiece_eq_ok_iff _ _).mpr enough⟩
    obtain ⟨events, rfl⟩ := ended.mpr ⟨all, clean⟩
    exact ⟨_, rfl⟩

/-- A read that nobody answered, since nothing was sent. -/
theorem reassembles_nothing (selector : Selector) (tag : UInt8) (chip : Chip) (base : UInt32)
    {length : Nat} (some_bytes : 0 < length) (halt : Halt)
    : Reassembles selector {} tag chip base length 0 (.error halt) where
  asked := .nil _ _ _
  within := Nat.zero_le _
  taken _ _ _ := nofun
  short _ _ _ := nofun
  whole _ := nofun
  succeeds good := by
    have one : 0 < pieces length := by
      simp only [pieces, maxData]
      omega
    obtain ⟨_, _, heard, _⟩ := good 0 one
    cases heard

/-- A read of some bytes within the address space is an exchange, unless the session is closed. -/
theorem read_eq_exchange {session : Session ρ} (open_still : session.closed = false) (chip : Chip)
    {base : UInt32} {length : UInt64} (some_bytes : 0 < length.toNat)
    (inside : base.toNat + length.toNat ≤ 2 ^ 32)
    : session.read chip base length
      = session.whenOpen fun hub =>
          let (result, hub) :=
            hub.exchange session.config (pieces length.toNat) (readOrder chip base length.toNat)
          (result.map (assemble length.toNat (pieces length.toNat)), hub) := by
  have checked : checkAddressRange base length = .ok () := by
    have fits := checkAddressRange_of_inside inside
    rwa [UInt64.ofNat_toNat] at fits
  have nonzero : length ≠ 0 := by
    rintro rfl
    exact absurd some_bytes (by decide)
  unfold read
  simp only [whenOpen, open_still, if_neg nonzero, checked]
  rfl

/-- Reading some bytes within the address space, over connections that do whatever they like. The
range falls into pieces that cover each of its bytes once, and the request for each piece can be
made, at an address that does not overflow. These requests are what the read sends, in their order,
and what it gives was put together from the answers that were taken for them. One that is too short
makes the read return with an error, since the selector of a session is steady.
-/
theorem read_reassembles {session after : Session ρ} {chip : Chip} {base : UInt32}
    {length : UInt64} {result : Except Halt (List UInt8)} (some_bytes : 0 < length.toNat)
    (inside : base.toNat + length.toNat ≤ 2 ^ 32)
    (done : session.read chip base length = (result, after))
    : (∀ offset < length.toNat,
        ∃! index,
          index < pieces length.toNat
          ∧ index * maxData ≤ offset
          ∧ offset < index * maxData + min maxData (length.toNat - index * maxData))
      ∧ (∀ index < pieces length.toNat,
        let address := base + UInt32.ofNat (index * maxData)
        address.toNat = base.toNat + index * maxData
        ∧ readMemory chip 0 address (min maxData (length.toNat - index * maxData))
          = .ok (pieceRequest chip base length.toNat index))
      ∧ ∃ passage offered,
          after.hub.journal.toList = session.hub.journal.toList ++ passage.events
          ∧ Reassembles session.hub.selector passage session.config.tag chip base length.toNat
              offered result := by
  refine ⟨fun offset within => existsUnique_piece within, fun index within => ?_, ?_⟩
  · have begins := Board.lt_count_iff.mp within
    exact ⟨toNat_piece inside begins, readMemory_piece chip inside begins⟩
  · cases closed : session.closed with
    | true =>
        have refused : session.read chip base length = (.error (.failed .closed), session) :=
          if_pos closed
        obtain ⟨rfl, rfl⟩ := Prod.mk.inj (done.symm.trans refused)
        exact ⟨{}, 0, (List.append_nil _).symm,
          reassembles_nothing _ _ chip base some_bytes (.failed .closed)⟩
    | false =>
        rw [read_eq_exchange closed chip some_bytes inside, whenOpen, closed] at done
        generalize ran
          : session.hub.exchange session.config (pieces length.toNat)
              (readOrder chip base length.toNat)
            = outcome at done
        obtain ⟨verdict, hub⟩ := outcome
        obtain ⟨rfl, rfl⟩ := by simpa using done
        exact reassembles_of_exchange inside ran

/-- An answer with so many copies of a byte. -/
def filledAnswer (sequence : UInt16) (count : Nat) (byte : UInt8) : Arrival :=
  .datagram
    (Response.encode (.toMonitor .origin .replyNotExpected) .ok sequence
      (List.replicate count byte))

/-- A session with one board, which answers two requests the wrong way round, the second one twice
and both with more bytes than were asked for.
-/
def overgenerous : Session Transcript where
  hub :=
    { lines :=
        [{ connection :=
            { number := 0
              name := "board"
              chip := .origin
              peer :=
                { known :=
                    [{},
                      { arrivals :=
                          [filledAnswer 1 4 9, filledAnswer 1 4 8, filledAnswer 0 257 7] }] } } }]
      selector := .fixed ⟨0, .origin⟩ }
  chipLines := 1
  boots := []
  config := {}

/-- The payload of an answer that was taken for the second piece. -/
def secondPayload? : Event → Option (List UInt8)
  | .accepted _ response (.slot 1) => some response.payload
  | _ => none

set_option maxRecDepth 4000 in
/-- The second piece has two bytes, and they come from the first answer for it. -/
theorem read_reassembles_overgenerous
    : ∃ bytes,
        (overgenerous.read .origin 0 258).1 = .ok bytes
        ∧ bytes.length = 258
        ∧ ∃ response : Response,
            response.payload = [9, 9, 9, 9]
            ∧ (bytes.drop 256).take 256 = response.payload.take 2 := by
  have good : (overgenerous.read .origin 0 258).1.toOption.isSome = true := by cbv
  have heard : (overgenerous.read .origin 0 258).2.hub.journal.toList.filterMap secondPayload?
      = [[9, 9, 9, 9]] := by
    cbv
  generalize done : overgenerous.read .origin 0 258 = outcome at good heard
  obtain ⟨result, after⟩ := outcome
  cases result with
  | error => cases good
  | ok bytes =>
      obtain ⟨_, _, passage, offered, journal, reassembles⟩ :=
        read_reassembles (by decide) (by decide) done
      obtain ⟨_, size, answers⟩ := reassembles.whole bytes rfl
      obtain ⟨response, member, _, _, slice⟩ := answers 1 (by decide)
      have own : after.hub.journal.toList = passage.events := journal
      have payload : response.payload ∈ [[9, 9, 9, 9]] := by
        rw [← heard]
        exact List.mem_filterMap.mpr ⟨_, own ▸ member, rfl⟩
      exact ⟨bytes, rfl, size, response, List.mem_singleton.mp payload, slice⟩

end Session

end MeshControl
