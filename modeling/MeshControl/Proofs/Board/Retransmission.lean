import MeshControl.Proofs.Board.Cores
import MeshControl.Proofs.Board.Memory
import MeshControl.Proofs.Board.Service

/-! A board that gets a request a second time, because its first answer was lost. It keeps what it
kept after the first time, and it answers the same, but for one request: the end of a flood that
lacks blocks is refused once, and then the flood is gone.
-/

namespace MeshControl.Board

open Scp Operation

/-- A block that has come changes nothing when it comes again. -/
theorem Flood.deliver?_again {flood taken : Flood} {number : Nat} {address : UInt32}
    {data : List UInt8} (took : flood.deliver? number address data = some taken)
    : taken.deliver? number address data = some taken := by
  unfold Flood.deliver? at took
  split at took
  · cases took
  · next block here =>
      obtain rfl := Option.some.inj took
      simp only [Flood.deliver?, here]
  · next here =>
      obtain rfl := Option.some.inj took
      have within : number < flood.blocks.length := (List.getElem?_eq_some_iff.mp here).1
      simp only [Flood.deliver?, List.getElem?_set_self within]

namespace State

-----------------------------------------------------------------------------------------
-- What a second time leaves
-----------------------------------------------------------------------------------------

/-- Two states of a board that keep the same: the same byte at every address of every chip, the
same programs on the same processors, and the same blocks of the same floods.
-/
structure SameHoldings (before after : State) : Prop where
  bytes : ∀ chip address, after.byteAt chip address = before.byteAt chip address
  cores : after.cores = before.cores
  floods : after.floods = before.floods

theorem SameHoldings.refl (state : State) : SameHoldings state state :=
  ⟨fun _ _ => rfl, rfl, rfl⟩

/-- Two states that keep the same keep it whatever the second is told to refuse. -/
theorem SameHoldings.adjusted {before after : State} (same : SameHoldings before after)
    (dropNext retryNext : Nat) (tally : Tally)
    : SameHoldings before (after.adjusted dropNext retryNext tally) :=
  ⟨same.bytes, same.cores, same.floods⟩

/-- The request ends a flood that was announced and lacks blocks. -/
def CutsShort (state : State) (request : Request) : Prop :=
  request.command = .nearestNeighbour
  ∧ request.arg1 >>> 24 = 15
  ∧ ∃ flood, state.floods.get? request.arg1.toUInt8 = some flood ∧ flood.isComplete = false

/-- What a request brings about at its first time in a state, and right after it at its second. -/
structure Repeats (state : State) (request : Request) (first second : Reply × State) : Prop where
  holdings : SameHoldings first.2 second.2
  same : ¬ state.CutsShort request → second.1 = first.1
  short : state.CutsShort request → first.1 = (.badArgument, []) ∧ second.1 = (.ok, [])

variable {state : State} {request : Request}

/-- A request that cuts no flood short is repeated when its holdings and its reply are. -/
theorem Repeats.of_whole {first second : Reply × State} (whole : ¬ state.CutsShort request)
    (holdings : SameHoldings first.2 second.2) (same : second.1 = first.1)
    : Repeats state request first second :=
  ⟨holdings, fun _ => same, fun cut => absurd cut whole⟩

theorem not_cutsShort_of_command (other : request.command ≠ .nearestNeighbour)
    : ¬ state.CutsShort request :=
  fun cut => other cut.1

-----------------------------------------------------------------------------------------
-- One kind of request at a time
-----------------------------------------------------------------------------------------

/-- Writing again puts the same bytes where they are already. -/
theorem writeMemory_again (state : State) (chip : Chip) (base : UInt32) (data : List UInt8)
    : SameHoldings (state.writeMemory chip base data)
        ((state.writeMemory chip base data).writeMemory chip base data) := by
  refine ⟨fun other address => ?_, rfl, rfl⟩
  unfold byteAt writeMemory
  simp only [Table.get?_insert, if_true]
  split
  · exact Memory.get_write_again _ base data address
  · rfl

/-- A flood that is announced again begins again, as it did before. -/
theorem floodStart_again (state : State) (request : Request)
    : SameHoldings (state.floodStart request).2
        ((state.floodStart request).2.floodStart request).2 :=
  ⟨fun _ _ => rfl, rfl, Table.insert_of_get? (Table.get?_insert_self _ _ _)⟩

/-- A block of a flood is taken in once, and answered the same each time. -/
theorem floodData_again (state : State) (request : Request) (dropNext retryNext : Nat)
    (tally : Tally)
    : let first := state.floodData request
      let second := (first.2.adjusted dropNext retryNext tally).floodData request
      second.1 = first.1 ∧ SameHoldings first.2 second.2 := by
  unfold floodData State.adjusted
  dsimp only
  cases known : state.floods.get? request.arg1.toUInt8 with
  | none =>
      simp only [Option.bind_none, known]
      exact ⟨trivial, fun _ _ => rfl, rfl, rfl⟩
  | some flood =>
      cases took : flood.deliver? ((request.arg2 >>> 16) &&& 0xff).toNat request.arg3
          (request.data.take ((((request.arg2 >>> 8) &&& 0xff).toNat + 1) * 4)) with
      | none =>
          simp only [Option.bind_some, took, known]
          exact ⟨trivial, fun _ _ => rfl, rfl, rfl⟩
      | some taken =>
          simp only [Option.bind_some, took, Table.get?_insert_self, Flood.deliver?_again took]
          exact ⟨trivial, fun _ _ => rfl, rfl,
            Table.insert_of_get? (Table.get?_insert_self _ _ _)⟩

/-- A flood that has ended is unknown, whether it was whole or not; every other one goes on. -/
theorem floods_floodEnd (state : State) (request : Request)
    : (state.floodEnd request).2.floods = state.floods.erase request.arg1.toUInt8 := by
  have filled (blocks : List (UInt32 × List UInt8)) :=
    foldl_kept State.floods fun state chip => (rfl : (state.fill blocks chip).floods = _)
  have begun :=
    foldl_kept State.floods fun state chip =>
      (rfl : (state.startCores chip request.arg2).floods = _)
  unfold floodEnd
  dsimp only
  split
  · next unknown => exact (Table.erase_of_get?_eq_none unknown).symm
  · split
    · rfl
    · split
      · rw [begun, filled]
      · rw [filled]

/-- The end of an unknown flood is granted, and changes nothing. -/
theorem floodEnd_of_unknown (unknown : state.floods.get? request.arg1.toUInt8 = none)
    : state.floodEnd request = ((.ok, []), state) := by
  simp only [floodEnd, unknown]

/-- The end of a flood is granted unless the flood lacks blocks. -/
theorem reply_floodEnd (state : State) (request : Request)
    : (state.floodEnd request).1
      = match state.floods.get? request.arg1.toUInt8 with
        | some flood => if flood.isComplete then (.ok, []) else (.badArgument, [])
        | none => (.ok, []) := by
  cases known : state.floods.get? request.arg1.toUInt8 with
  | none => simp only [floodEnd_of_unknown known]
  | some flood => cases whole : flood.isComplete <;> simp [floodEnd, known, whole]

/-- The end of a flood comes to nothing at its second time, since the flood is gone. Only where it
was refused the first time does its answer change.
-/
theorem floodEnd_repeats (command : request.command = .nearestNeighbour)
    (kind : request.arg1 >>> 24 = 15) (dropNext retryNext : Nat) (tally : Tally)
    : Repeats state request (state.floodEnd request)
        (((state.floodEnd request).2.adjusted dropNext retryNext tally).floodEnd request) := by
  let later := (state.floodEnd request).2.adjusted dropNext retryNext tally
  have second : later.floodEnd request = ((.ok, []), later) :=
    floodEnd_of_unknown (by simp [later, adjusted, floods_floodEnd])
  have first := reply_floodEnd state request
  rw [second]
  refine ⟨(SameHoldings.refl _).adjusted dropNext retryNext tally, fun whole => ?_, fun cut => ?_⟩
  · rw [first]
    cases known : state.floods.get? request.arg1.toUInt8 with
    | none => rfl
    | some flood =>
        cases complete : flood.isComplete with
        | true => simp [complete]
        | false => exact absurd ⟨command, kind, flood, known, complete⟩ whole
  · obtain ⟨_, _, flood, known, lacking⟩ := cut
    exact ⟨by simp [first, known, lacking], rfl⟩

-----------------------------------------------------------------------------------------
-- Any request
-----------------------------------------------------------------------------------------

/-- What a request does on a board that has the chip it is for. -/
def carryOut (state : State) (request : Request) : Reply × State :=
  let chip := request.header.destination
  match request.command with
  | .ver => (state.version chip request.header.destinationCpu, state)
  | .read => ((.ok, state.readMemory chip request.arg1 request.arg2.toNat), state)
  | .write =>
      ((.ok, []), state.writeMemory chip request.arg1 (request.data.take request.arg2.toNat))
  | .applicationRun => ((.ok, []), state.startCores chip request.arg1)
  | .signal => (state.count chip request, state)
  | .nearestNeighbour =>
      if request.arg1 >>> 24 = 6 then state.floodStart request
      else if request.arg1 >>> 24 = 15 then state.floodEnd request
      else ((.badCommand, []), state)
  | .floodFillData => state.floodData request
  | _ => ((.badCommand, []), state)

theorem perform_eq (state : State) (request : Request)
    : state.perform request
      = if concernsChip request.command
            && !state.settings.machine.contains request.header.destination
        then ((.noRoute, []), state) else state.carryOut request :=
  rfl

/-- A request that is carried out a second time leaves what it left the first time, and is answered
the same unless it cut a flood short; by the kinds of requests.
-/
theorem carryOut_repeats (state : State) (request : Request) (dropNext retryNext : Nat)
    (tally : Tally)
    : Repeats state request (state.carryOut request)
        (((state.carryOut request).2.adjusted dropNext retryNext tally).carryOut request) := by
  cases command : request.command with
  | write =>
      simp only [carryOut, command]
      have written := writeMemory_again state request.header.destination request.arg1
        (request.data.take request.arg2.toNat)
      exact .of_whole (not_cutsShort_of_command (by simp [command]))
        (written.adjusted dropNext retryNext tally) rfl
  | applicationRun =>
      simp only [carryOut, command]
      exact .of_whole (not_cutsShort_of_command (by simp [command]))
        ⟨fun _ _ => rfl, startCores_again state _ _, rfl⟩ rfl
  | floodFillData =>
      simp only [carryOut, command]
      obtain ⟨same, holdings⟩ := floodData_again state request dropNext retryNext tally
      exact .of_whole (not_cutsShort_of_command (by simp [command])) holdings same
  | nearestNeighbour =>
      simp only [carryOut, command]
      by_cases start : request.arg1 >>> 24 = 6
      · have whole : ¬ state.CutsShort request := by simp [CutsShort, start]
        simp only [start, if_true]
        exact .of_whole whole
          ((floodStart_again state request).adjusted dropNext retryNext tally) rfl
      · by_cases stop : request.arg1 >>> 24 = 15
        · simp only [stop, if_true, if_neg (by decide : ¬ (15 : UInt32) = 6)]
          exact floodEnd_repeats command stop dropNext retryNext tally
        · have whole : ¬ state.CutsShort request := by simp [CutsShort, stop]
          simp only [start, stop, if_false]
          exact .of_whole whole ((SameHoldings.refl state).adjusted dropNext retryNext tally) rfl
  | _ =>
      simp only [carryOut, command]
      exact .of_whole (not_cutsShort_of_command (by simp [command]))
        ((SameHoldings.refl state).adjusted dropNext retryNext tally) rfl

/-- The same holds of requests that the board has no chip for: these are refused each time. -/
theorem perform_repeats (state : State) (request : Request) (dropNext retryNext : Nat)
    (tally : Tally)
    : Repeats state request (state.perform request)
        (((state.perform request).2.adjusted dropNext retryNext tally).perform request) := by
  have machine : ((state.perform request).2.adjusted dropNext retryNext tally).settings.machine
      = state.settings.machine :=
    congrArg Settings.machine (perform_sameBoard state request).settings
  rw [perform_eq ((state.perform request).2.adjusted dropNext retryNext tally) request, machine,
    perform_eq state request]
  split
  · next barred =>
      have whole : ¬ state.CutsShort request := by
        rintro ⟨command, _⟩
        simp [command, concernsChip] at barred
      exact .of_whole whole ((SameHoldings.refl state).adjusted dropNext retryNext tally) rfl
  · exact carryOut_repeats state request dropNext retryNext tally

/-- On a board that refuses nothing and loses nothing, whatever it was told before, a request that
comes twice in a row leaves after its second time what it left after its first: the same bytes,
programs and floods. It is answered both times, and the answers are the same for every request
but one. The end of a flood that lacks blocks is refused at first; it makes an end of the flood all
the same, so that its second time is granted.
-/
theorem handle_repeated (willing : state.refusals = 0)
    (lossless : state.settings.losesAll = false) (request : Request)
    : let first := state.handle request
      let second := first.2.handle request
      SameHoldings first.2 second.2
      ∧ first.1.isSome = true
      ∧ (second.1 = first.1 ↔ ¬ state.CutsShort request)
      ∧ (state.CutsShort request
        → first.1 = some (.badArgument, []) ∧ second.1 = some (.ok, [])) := by
  obtain ⟨tally, first⟩ := handle_of_willing willing lossless request
  let told := state.adjusted 0 0 tally
  have same := perform_sameBoard told request
  have willing_still : (told.perform request).2.refusals = 0 := same.refusals
  have lossless_still : (told.perform request).2.settings.losesAll = false := by
    rw [same.settings]
    exact lossless
  obtain ⟨later, second⟩ := handle_of_willing willing_still lossless_still request
  obtain ⟨holdings, answered, short⟩ := perform_repeats told request 0 0 later
  have cut : told.CutsShort request ↔ state.CutsShort request := Iff.rfl
  rw [cut] at answered short
  dsimp only at first second ⊢
  rw [first, second]
  refine ⟨holdings, rfl, ⟨fun equal cut => ?_, fun whole => ?_⟩, fun cut => ?_⟩
  · obtain ⟨refused, granted⟩ := short cut
    rw [refused, granted] at equal
    cases equal
  · rw [answered whole]
  · obtain ⟨refused, granted⟩ := short cut
    exact ⟨by rw [refused], by rw [granted]⟩

/-- It applies where a flood of one block was announced and its end comes twice without the
block.
-/
theorem handle_repeated_lackingFlood
    : let stop := floodFillEnd 5 0 0 false
      let state := (State.handle {} (floodFillStart 5 1 none)).2
      let first := state.handle stop
      let second := first.2.handle stop
      state.refusals = 0
      ∧ state.settings.losesAll = false
      ∧ SameHoldings first.2 second.2
      ∧ first.1.isSome = true
      ∧ second.1 ≠ first.1 :=
  have lacks : (State.handle {} (floodFillStart 5 1 none)).2.CutsShort
      (floodFillEnd 5 0 0 false) :=
    ⟨rfl, rfl, _, rfl, rfl⟩
  have ⟨holdings, answered, alike, _⟩ := handle_repeated rfl rfl (floodFillEnd 5 0 0 false)
  ⟨rfl, rfl, holdings, answered, fun equal => alike.mp equal lacks⟩

/-- The end of a flood that lacks its block is answered differently each time: it is refused, and
then it is granted.
-/
theorem answers_differ_lackingFlood
    : let state := (State.handle {} (floodFillStart 5 1 none)).2
      let first := state.handle (floodFillEnd 5 0 0 false)
      first.1 = some (.badArgument, [])
      ∧ (first.2.handle (floodFillEnd 5 0 0 false)).1 = some (.ok, []) :=
  ⟨rfl, rfl⟩

end State

end MeshControl.Board
