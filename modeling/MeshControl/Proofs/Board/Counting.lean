import MeshControl.Proofs.Board.Attached
import MeshControl.Proofs.Board.Words
import MeshControl.Proofs.Machine.Sockets
import Mathlib.Data.List.Induction
import Mathlib.Data.Set.Card

/-! Counting end to end: whatever applications were started on a board, in whatever order and one
over the other, a count over all chips with a socket gives the number of processors that the last
start has left with the application and in the state that are asked for.
-/

namespace MeshControl

open Scp Link Operation Board

namespace Board

-----------------------------------------------------------------------------------------
-- Starts
-----------------------------------------------------------------------------------------

/-- A request that starts an application on processors of a chip, with what is put into its
datagram.
-/
structure Start where
  application : UInt8
  subset : Core.Subset
  wait : Bool
  sequence : UInt16 := 0
  tag : UInt8 := Sdp.defaultTag

namespace Start

/-- What it leaves its processors with. -/
def running (start : Start) : Running where
  application := start.application
  state := if start.wait then .sync0 else .running

/-- An application that does not belong to the system, on processors of a chip of the machine. -/
structure Allowed (machine : Topology) (start : Start) : Prop where
  application : start.application ≠ 0
  runs : Runnable start.subset.processors
  known : machine.contains start.subset.chip = true

/-- The request of an allowed start. -/
def request (start : Start) : Request where
  header := .toMonitor start.subset.chip .replyExpected
  command := .applicationRun
  arg1 := launchWord start.application start.subset.processors.mask start.wait
  operation := "application run"

theorem applicationRun_of_allowed {machine : Topology} {start : Start}
    (allowed : start.Allowed machine)
    : applicationRun start.application start.subset start.wait = .ok start.request := by
  have none_other : (start.subset.processors.list.any fun number => number = 0 ∨ number > 17)
      = false := by
    rw [List.any_eq_false]
    intro number member
    obtain ⟨positive, small⟩ := allowed.runs number member
    simp only [gt_iff_lt, UInt8.lt_iff_toNat_lt, ← UInt8.toNat_inj, UInt8.reduceToNat,
      decide_eq_true_eq]
    omega
  have own : checkApplication start.application = .ok () := if_neg allowed.application
  simp only [applicationRun, own, none_other, bind, Except.bind, Bool.false_eq_true, if_false]
  rfl

end Start

/-- A board gets the datagram of a start, if it may go out. -/
def Peer.start (peer : Peer) (start : Start) : Peer :=
  match applicationRun start.application start.subset start.wait with
  | .error _ => peer
  | .ok request =>
      (peer.deliver ((request.numbered start.sequence).datagram start.tag)).2

/-- A board gets some starts, one after the other. -/
def Peer.startAll (peer : Peer) (starts : List Start) : Peer :=
  starts.foldl Peer.start peer

/-- What a processor was left with by the last of some starts that named it, if one did. -/
def latestStart? (starts : List Start) (core : Chip × UInt8) : Option Running :=
  starts.foldl
    (fun last start =>
      if core.1 = start.subset.chip ∧ core.2 ∈ start.subset.processors.list then some start.running
      else last)
    none

/-- Only a start on its own chip can have named a processor, by induction on the starts. -/
theorem start_of_latestStart? {starts : List Start} {core : Chip × UInt8} {running : Running}
    (left : latestStart? starts core = some running)
    : ∃ start ∈ starts, core.1 = start.subset.chip := by
  induction starts using List.reverseRecOn with
  | nil => cases left
  | append_singleton earlier last ih =>
      simp only [latestStart?, List.foldl_append, List.foldl_cons, List.foldl_nil] at left
      split at left
      · next named => exact ⟨last, by simp, named.1⟩
      · obtain ⟨start, member, here⟩ := ih left
        exact ⟨start, List.mem_append_left _ member, here⟩

/-- A board that can be talked to and refuses nothing, whose processors are as some starts left
them.
-/
structure Peer.Hosts (peer fresh : Peer) (starts : List Start) : Prop where
  ready : peer.Ready
  willing : peer.board.refusals = 0
  room : peer.room = fresh.room
  settings : peer.board.settings = fresh.board.settings
  cores : ∀ core, peer.board.cores.get? core = latestStart? starts core

section Starts

variable {peer fresh : Peer} {starts : List Start}

/-- A board does what an allowed start asks for. -/
theorem Peer.Hosts.start (hosts : peer.Hosts fresh starts) {start : Start}
    (allowed : start.Allowed fresh.board.settings.machine)
    : (peer.start start).Hosts fresh (starts ++ [start]) := by
  obtain ⟨tally, handled⟩ := State.handle_of_willing hosts.willing hosts.ready.lossless
    ((start.request.numbered start.sequence).onWire start.tag)
  have known : (peer.board.adjusted 0 0 tally).settings.machine.contains start.subset.chip
      = true := by
    change peer.board.settings.machine.contains start.subset.chip = true
    rw [hosts.settings]
    exact allowed.known
  let begun := (peer.board.adjusted 0 0 tally).startCores start.subset.chip
    (launchWord start.application start.subset.processors.mask start.wait)
  have performed : (peer.board.adjusted 0 0 tally).perform
        ((start.request.numbered start.sequence).onWire start.tag)
      = ((.ok, []), begun) := by
    change (if State.concernsChip .applicationRun
        && !(peer.board.adjusted 0 0 tally).settings.machine.contains start.subset.chip
      then ((ResultCode.noRoute, []), peer.board.adjusted 0 0 tally) else _) = _
    rw [known]
    rfl
  dsimp only at handled
  rw [performed] at handled
  have started : peer.start start = { peer with board := begun } := by
    have delivered := Request.decode_datagram (start.request.numbered start.sequence) start.tag
    simp only [Peer.start, Start.applicationRun_of_allowed allowed, Peer.deliver,
      hosts.ready.reachable, hosts.ready.running, delivered, handled, Bool.not_true,
      Bool.false_eq_true, if_false]
    split <;> rfl
  rw [started]
  refine ⟨⟨hosts.ready.reachable, hosts.ready.running, hosts.ready.lossless⟩, rfl, hosts.room,
    hosts.settings, fun core => ?_⟩
  have placed := State.get?_startCores (peer.board.adjusted 0 0 tally) start.subset.chip
    (launchWord start.application start.subset.processors.mask start.wait) core
  simp only [mem_named_launchWord allowed.runs, started_of_runs allowed.runs.mask] at placed
  rw [placed]
  simp only [latestStart?, List.foldl_append, List.foldl_cons, List.foldl_nil]
  exact if_congr Iff.rfl rfl (hosts.cores core)

/-- After some allowed starts each processor is as the last one that named it has left it; by
induction on the starts, the last one first.
-/
theorem Peer.Hosts.startAll (hosts : peer.Hosts fresh [])
    (allowed : ∀ start ∈ starts, start.Allowed fresh.board.settings.machine)
    : (peer.startAll starts).Hosts fresh starts := by
  induction starts using List.reverseRecOn with
  | nil => exact hosts
  | append_singleton earlier last ih =>
      have before := ih fun start member => allowed start (List.mem_append_left _ member)
      have after := before.start (allowed last (by simp))
      rw [Peer.startAll, List.foldl_append]
      exact after

end Starts

-----------------------------------------------------------------------------------------
-- Every processor once
-----------------------------------------------------------------------------------------

/-- Entries that are counted group by group are counted once each, if every group is among those
that are asked for; by induction on the entries.
-/
theorem sum_countP_groups {ε γ : Type} [DecidableEq γ] {groups : List γ} (nodup : groups.Nodup)
    {group? : ε → Option γ} (listed : ∀ {entry group}, group? entry = some group → group ∈ groups)
    (counted : ε → Bool) (entries : List ε)
    : (groups.map fun group =>
          entries.countP fun entry => counted entry && group? entry == some group).sum
      = entries.countP fun entry => counted entry && (group? entry).isSome := by
  induction entries with
  | nil => simp
  | cons entry rest ih =>
      have once : (groups.map fun group =>
            if (counted entry && group? entry == some group) = true then 1 else 0).sum
          = if (counted entry && (group? entry).isSome) = true then 1 else 0 := by
        cases counted entry with
        | false => simp
        | true =>
            cases own : group? entry with
            | none => simp
            | some group =>
                simp only [Bool.true_and, beq_iff_eq, Option.some.injEq, Option.isSome_some,
                  if_true]
                rw [← List.sum_toFinset _ nodup, Finset.sum_ite_eq,
                  if_pos (List.mem_toFinset.mpr (listed own))]
      simp only [List.countP_cons, List.sum_map_add, ih, once]

/-- The keys of a table whose entries are counted are as many as the entries. -/
theorem ncard_counted {κ ν : Type} [DecidableEq κ] (table : Table κ ν) (counted : κ × ν → Bool)
    : {key | ∃ value, table.get? key = some value ∧ counted (key, value) = true}.ncard
      = table.entries.countP counted := by
  let keys := (table.entries.filter counted).map Prod.fst
  have distinct : keys.Nodup := table.nodup.sublist (List.filter_sublist.map Prod.fst)
  have same : {key | ∃ value, table.get? key = some value ∧ counted (key, value) = true}
      = (keys.toFinset : Set κ) := by
    ext key
    simp [keys, ← Table.mem_entries_iff]
  rw [same, Set.ncard_coe_finset, List.toFinset_card_of_nodup distinct, List.length_map,
    List.countP_eq_length_filter]

/-- The number of a processor, in some order of all processors. -/
def coreNumber (core : Chip × UInt8) : Nat :=
  (core.1.x.toNat * 256 + core.1.y.toNat) * 256 + core.2.toNat

theorem coreNumber_lt (core : Chip × UInt8) : coreNumber core < 2 ^ 24 := by
  have x := core.1.x.toNat_lt
  have y := core.1.y.toNat_lt
  have number := core.2.toNat_lt
  simp only [coreNumber]
  omega

theorem coreNumber_injective : Function.Injective coreNumber := by
  rintro ⟨⟨x, y⟩, number⟩ ⟨⟨other_x, other_y⟩, other⟩ same
  have bounds := And.intro y.toNat_lt other_y.toNat_lt
  have numbers := And.intro number.toNat_lt other.toNat_lt
  simp only [coreNumber] at same
  have parts : x.toNat = other_x.toNat ∧ y.toNat = other_y.toNat
      ∧ number.toNat = other.toNat := by
    omega
  obtain ⟨x_same, y_same, number_same⟩ := parts
  rw [UInt8.toNat_inj.mp x_same, UInt8.toNat_inj.mp y_same, UInt8.toNat_inj.mp number_same]

/-- A count of processors fits into a word: there are too few chips for more. -/
theorem countP_cores_lt (cores : Table (Chip × UInt8) Running)
    (counted : (Chip × UInt8) × Running → Bool)
    : cores.entries.countP counted < 2 ^ 32 := by
  have distinct : (cores.keys.map coreNumber).Nodup := cores.nodup.map coreNumber_injective
  have within : cores.keys.map coreNumber ⊆ List.range (2 ^ 24) := by
    intro number member
    obtain ⟨core, _, rfl⟩ := List.mem_map.mp member
    exact List.mem_range.mpr (coreNumber_lt core)
  have few := (List.subperm_of_subset distinct within).length_le
  rw [List.length_map, List.length_range, Table.keys, List.length_map] at few
  exact Nat.lt_of_le_of_lt (Nat.le_trans List.countP_le_length few)
    (Nat.pow_lt_pow_right (by decide) (by decide))

/-- The counts of all sockets together are the count of the processors that have one. -/
theorem sum_countCoresOf (state : State) (application : UInt8) (core : Core.State)
    : (state.settings.machine.ethernetChips.map fun socket =>
          state.countCoresOf socket application core).sum
      = state.cores.entries.countP fun entry =>
          entry.2 == ⟨application, core⟩
            && (state.settings.machine.nearestEthernet entry.1.1).isSome :=
  sum_countP_groups (Topology.nodup_ethernetChips _) Topology.mem_ethernetChips_of_nearest _ _

-----------------------------------------------------------------------------------------
-- The requests of a count
-----------------------------------------------------------------------------------------

/-- The request for the count of one socket. -/
def countRequest (application : UInt8) (core : Core.State) (socket : Chip) : Request where
  header := .toMonitor socket .replyExpected
  command := .signal
  arg1 := 1
  arg2 := countWord application core
  arg3 := 0xffff
  operation := "count state"
  accepted := [.ok, .p2pNoReply]

/-- An application that does not belong to the system can be counted. -/
theorem countState_of_own {application : UInt8} (own : application ≠ 0) (core : Core.State)
    : countState application core = .ok (countRequest application core .origin) := by
  have checked : checkApplication application = .ok () := if_neg own
  rw [countState, checked]
  rfl

/-- The orders of a count. An answer that brings no word will not do. -/
def countOrder (application : UInt8) (core : Core.State) (chips : List Chip) (index : Nat)
    : Order where
  request := .ok (countRequest application core (chips.getD index .origin))
  handler := { check := fun response => (parseCount response).map fun _ => () }

/-- The processors of some sockets are counted. -/
def counting (room : Nat) (sockets : List Chip) (application : UInt8) (core : Core.State)
    (before : State) : Errand where
  config := .countState
  room
  count := sockets.length
  request := fun index => countRequest application core (sockets.getD index .origin)
  handler := fun _ => { check := fun response => (parseCount response).map fun _ => () }
  payload := fun index =>
    Wire.word (UInt32.ofNat
      (before.countCoresOf (sockets.getD index .origin) application core))
  Holds := fun _ state => state.settings = before.settings ∧ state.cores = before.cores

/-- A board counts what the word of a request asks for. -/
theorem count_of_word {state : State} {chip : Chip} {request : Request} {application : UInt8}
    {core : Core.State} (word : request.arg2 = countWord application core)
    : state.count chip request
      = (.ok, Wire.word (UInt32.ofNat (state.countCoresOf chip application core))) := by
  obtain ⟨application_read, core_read⟩ := read_countWord application core
  simp only [State.count, word, core_read, Core.State.ofCode?_code, application_read]

theorem perform_signal {state : State} {request : Request} (command : request.command = .signal)
    : state.perform request = (state.count request.header.destination request, state) := by
  simp only [State.perform, command, State.concernsChip, Bool.false_and, Bool.false_eq_true,
    if_false]

/-- A board carries the request for a count out. -/
theorem perform_count (state : State) (application : UInt8) (core : Core.State) (socket : Chip)
    (sequence : UInt16) (tag : UInt8)
    : state.perform (((countRequest application core socket).numbered sequence).onWire tag)
      = ((.ok, Wire.word (UInt32.ofNat (state.countCoresOf socket application core))), state) := by
  have word : (((countRequest application core socket).numbered sequence).onWire tag).arg2
      = countWord application core := by
    simp only [Request.onWire, Request.numbered, countRequest]
  rw [perform_signal rfl, count_of_word word]
  rfl

/-- The word that some data begin with; 0 if they are too short. -/
def leadingWord (payload : List UInt8) : UInt32 :=
  if payload.length < 4 then 0 else Wire.wordAt payload 0

theorem leadingWord_word (value : UInt32) : leadingWord (Wire.word value) = value := by
  have whole : (Wire.word value).drop 0 = Wire.word value ++ [] := by simp
  have read : Wire.wordAt (Wire.word value) 0 = value := Wire.wordAt_of_drop whole
  simp [leadingWord, read]

/-- A count is read from any data that are long enough. -/
theorem parseCount_of_long {response : Response} (long : 4 ≤ response.payload.length)
    : parseCount response = .ok (leadingWord response.payload) := by
  simp [parseCount, Response.firstWord, leadingWord, Nat.not_lt.mpr long]

/-- What is added for an answer. -/
theorem getD_parseCount (response : Response)
    : (parseCount response).toOption.getD 0 = leadingWord response.payload := by
  simp only [parseCount, Response.firstWord, leadingWord]
  split <;> rfl

theorem counting_proper {room : Nat} {sockets : List Chip} {application : UInt8}
    {core : Core.State} {before : State} (enough : payloadOffset + 4 ≤ room)
    : (counting room sockets application core before).Proper where
  patient := (by decide : Config.countState.timeout.nanoseconds ≠ 0)
  unnumbered _ _ := rfl
  valid _ _ := rfl
  accepts _ _ := rfl
  refuses _ _ := rfl
  content index _ response payload := by
    have long : 4 ≤ response.payload.length := by
      rw [payload]
      exact Nat.le_of_eq (Wire.length_word _).symm
    change (parseCount response).map _ = _
    rw [parseCount_of_long long]
    rfl
  fits _ _ := ⟨(by decide : payloadOffset + 4 ≤ maxDatagram), enough⟩
  adjusted _ _ _ holds := holds
  carriedOut := by
    intro served state index sequence _ holds
    obtain ⟨settings, cores⟩ := holds
    have performed := perform_count state application core (sockets.getD index .origin) sequence
      Config.countState.tag
    have same : state.countCoresOf (sockets.getD index .origin) application core
        = before.countCoresOf (sockets.getD index .origin) application core := by
      simp only [State.countCoresOf, settings, cores]
    rw [same] at performed
    exact ⟨state, performed, settings, cores⟩

-----------------------------------------------------------------------------------------
-- The sum of the answers
-----------------------------------------------------------------------------------------

/-- What the answers among some events bring, all words together. -/
def brought (events : List Event) : Nat :=
  ((events.filterMap Errand.answer?).map fun answer => (leadingWord answer.2).toNat).sum

/-- What is added for an answer is what it brings. -/
theorem addCount_accepted (sum : UInt32) (request : Request) (response : Response)
    (audience : Audience)
    : Session.addCount sum (.accepted request response audience)
      = wordSum sum (leadingWord response.payload) := by
  rw [Session.addCount, getD_parseCount]

/-- From any sum on, words are added as numbers are, until the sum does not fit into a word; by
induction on the events.
-/
theorem foldlM_addCount (events : List Event) (sum : UInt32)
    : events.foldlM Session.addCount sum
      = if sum.toNat + brought events < 2 ^ 32 then
          .ok (UInt32.ofNat (sum.toNat + brought events))
        else .error .overflow := by
  have skips (sum : UInt32) {event : Event} (rest : List Event)
      (silent : Session.addCount sum event = .ok sum)
      : (event :: rest).foldlM Session.addCount sum = rest.foldlM Session.addCount sum := by
    rw [List.foldlM_cons, silent]
    rfl
  induction events generalizing sum with
  | nil =>
      rw [brought, List.filterMap_nil, List.map_nil, List.sum_nil, Nat.add_zero,
        if_pos sum.toNat_lt, UInt32.ofNat_toNat]
      rfl
  | cons event rest ih =>
      cases event with
      | transmitted => exact (skips sum rest rfl).trans (ih sum)
      | failed => exact (skips sum rest rfl).trans (ih sum)
      | accepted request response audience =>
          have more : brought (.accepted request response audience :: rest)
              = (leadingWord response.payload).toNat + brought rest :=
            List.sum_cons
          rw [List.foldlM_cons, addCount_accepted, more, ← Nat.add_assoc]
          by_cases fits : sum.toNat + (leadingWord response.payload).toNat < 2 ^ 32
          · obtain ⟨next, added, exact_sum⟩ := wordSum_of_fits fits
            rw [added, ← exact_sum]
            exact ih next
          · rw [wordSum_of_beyond (Nat.le_of_not_lt fits), if_neg (by omega)]
            rfl

/-- A total is the exact sum of what the answers bring, or there is none. -/
theorem total_eq (events : Array Event)
    : Session.total events
      = if brought events.toList < 2 ^ 32 then .ok (UInt32.ofNat (brought events.toList))
        else .error .overflow := by
  rw [Session.total, foldlM_addCount]
  simp only [UInt32.toNat_zero, Nat.zero_add]

/-- To go through the places of some chips is to go through the chips. -/
theorem map_range_getD {β : Type} (chips : List Chip) (value : Chip → β)
    : ((List.range chips.length).map fun index => value (chips.getD index .origin))
      = chips.map value := by
  refine List.ext_getElem (by simp) fun index _ within => ?_
  have inside : index < chips.length := by simpa using within
  simp [inside]

/-- The count of one socket fits into a word. -/
theorem toNat_countCoresOf (state : State) (socket : Chip) (application : UInt8)
    (core : Core.State)
    : (UInt32.ofNat (state.countCoresOf socket application core)).toNat
      = state.countCoresOf socket application core := by
  rw [UInt32.toNat_ofNat', State.countCoresOf]
  exact Nat.mod_eq_of_lt (countP_cores_lt state.cores _)

/-- The answers to a count, in whatever order they come, bring what the sockets count. -/
theorem brought_of_fulfilled {room : Nat} {sockets : List Chip} {application : UInt8}
    {core : Core.State} {before : State} {connection : Connection Peer} {events : List Event}
    (fulfilled : (counting room sockets application core before).Fulfilled connection events)
    : brought events
      = (sockets.map fun socket => before.countCoresOf socket application core).sum := by
  let number (index : Nat) := before.countCoresOf (sockets.getD index .origin) application core
  obtain ⟨order, whole, answers⟩ := fulfilled.answers
  have words : (order.map (counting room sockets application core before).answer).map
        (fun answer => (leadingWord answer.2).toNat)
      = order.map number := by
    rw [List.map_map]
    refine List.map_congr_left fun index _ => ?_
    change (leadingWord (Wire.word _)).toNat = _
    rw [leadingWord_word, toNat_countCoresOf]
  rw [brought, answers, words, (whole.map number).sum_nat]
  exact congrArg List.sum
    (map_range_getD sockets fun socket => before.countCoresOf socket application core)

end Board

namespace Session

-----------------------------------------------------------------------------------------
-- Counting
-----------------------------------------------------------------------------------------

variable {session : Session Peer}

/-- A session that knows the size of its machine asks all chips with a socket. -/
theorem countChips_eq {machine : Topology} (told : session.topology? = some machine)
    : session.countChips = machine.ethernetChips := by
  simp only [countChips, told, Topology.ethernetChips]
  split <;> rfl

/-- A count is the total of what a batch of its own was told, if the batch goes well. -/
theorem count_of_own {ρ : Type} [Responder ρ] {session : Session ρ}
    (open_still : session.closed = false) {application : UInt8} (own : application ≠ 0)
    (core : Core.State)
    : session.count application core
      = let (result, after) :=
          Hub.batch { session.hub with journal := #[] } .countState session.countChips.length
            (countOrder application core session.countChips)
        let journal := session.hub.journal ++ after.journal
        ((total after.journal).bind fun sum => result.map fun () => sum,
          { session with hub := { after with journal } }) := by
  rw [count, countState_of_own own core, whenOpen, open_still]
  rfl

/-- A count over a board that refuses too little goes well, and sums up what the sockets count, if
that fits into a word.
-/
theorem Attached.count (attached : session.Attached)
    (spare : session.board.refusals < Config.countState.budget)
    (enough : payloadOffset + 4 ≤ session.peer.room) {application : UInt8}
    (own : application ≠ 0) (core : Core.State) {sum : Nat} (fits : sum < 2 ^ 32)
    (summed
      : (session.countChips.map fun socket =>
            session.board.countCoresOf socket application core).sum
        = sum)
    : ∃ after,
        session.count application core = (.ok (UInt32.ofNat sum), after) ∧ after.Attached := by
  obtain ⟨open_still, line, rests⟩ := attached
  have reached := peer_of_rests rests
  rw [board, reached] at spare summed
  rw [reached] at enough
  let errand := counting line.connection.peer.room session.countChips application core
    line.connection.peer.board
  have awaits : errand.Awaits session.hub line := ⟨rests, rfl, ⟨rfl, rfl⟩, spare⟩
  have ordered : ∀ index < errand.count, errand.order index = errand.order index := fun _ _ => rfl
  obtain ⟨after, later, events, done, rests_later, journal, fulfilled⟩ :=
    (awaits.withJournal #[]).batch (counting_proper enough)
      (.inl (by decide : Config.countState.channels < sequenceCount)) ordered
  have given : after.journal.toList = events := journal.trans (List.nil_append _)
  have counted : total after.journal = .ok (UInt32.ofNat sum) := by
    rw [total_eq, given, brought_of_fulfilled fulfilled, summed, if_pos fits]
  have ran : Hub.batch { session.hub with journal := #[] } .countState session.countChips.length
      (countOrder application core session.countChips) = (.ok (), after) := done
  let all := session.hub.journal ++ after.journal
  refine ⟨{ session with hub := { after with journal := all } }, ?_, open_still, later,
    rests_later.withJournal all⟩
  rw [count_of_own open_still own, ran]
  dsimp only
  rw [counted]
  rfl

/-- A session that knows the size of the machine counts, of the processors of an application in a
state, all those whose chip has a socket.
-/
theorem Attached.count_sockets (attached : session.Attached)
    (told : session.topology? = some session.board.settings.machine)
    (spare : session.board.refusals < Config.countState.budget)
    (enough : payloadOffset + 4 ≤ session.peer.room) {application : UInt8}
    (own : application ≠ 0) (core : Core.State)
    : ∃ total after,
        session.count application core = (.ok total, after)
        ∧ after.Attached
        ∧ total.toNat
          = session.board.cores.entries.countP fun entry =>
              entry.2 == ⟨application, core⟩
                && (session.board.settings.machine.nearestEthernet entry.1.1).isSome := by
  have fits := countP_cores_lt session.board.cores fun entry =>
    entry.2 == ⟨application, core⟩
      && (session.board.settings.machine.nearestEthernet entry.1.1).isSome
  obtain ⟨after, counted, still⟩ := attached.count spare enough own core fits
    (by rw [countChips_eq told, sum_countCoresOf])
  exact ⟨_, after, counted, still, by rw [UInt32.toNat_ofNat', Nat.mod_eq_of_lt fits]⟩

/-- Whatever applications were started on a fresh board, on whatever processors of its chips, one
over the other, a session that knows the size of its machine counts each processor once that the
last start which named it has left with the application and in the state that are asked for, if
its chip has a socket. On a single board, and on a machine that is closed at its edges, these are
all such processors of the board. Witness: the starts leave the table of the board as the last of
them did for each processor, by induction on them; and each entry is counted at the one socket of
its chip.
-/
theorem count_eq_latest {settings : Settings} (lossless : settings.losesAll = false) {room : Nat}
    (enough : payloadOffset + 4 ≤ room) {starts : List Start}
    (allowed : ∀ start ∈ starts, start.Allowed settings.machine) (attached : session.Attached)
    (told : session.topology? = some settings.machine)
    (reached : session.peer = ({ board := { settings }, room } : Peer).startAll starts)
    {application : UInt8} (own : application ≠ 0) (core : Core.State)
    : ∃ total after,
        session.count application core = (.ok total, after)
        ∧ after.Attached
        ∧ total.toNat
          = {place : Chip × UInt8
              | latestStart? starts place = some ⟨application, core⟩
                ∧ (settings.machine.nearestEthernet place.1).isSome = true}.ncard
        ∧ (settings.machine.isSingleBoard = true ∨ settings.machine.wraps = true
          → total.toNat = session.board.countCores application core) := by
  let fresh : Peer := { board := { settings }, room }
  have unused : fresh.Hosts fresh [] := ⟨⟨rfl, rfl, lossless⟩, rfl, rfl, rfl, fun _ => rfl⟩
  have hosts := unused.startAll allowed
  rw [← reached] at hosts
  have machine : session.board.settings.machine = settings.machine :=
    congrArg Settings.machine hosts.settings
  have spare : session.board.refusals < Config.countState.budget := by
    rw [board, hosts.willing]
    decide
  obtain ⟨total, after, counted, still, sum⟩ :=
    attached.count_sockets (by rw [machine, told]) spare (by rw [hosts.room]; exact enough) own
      core
  refine ⟨total, after, counted, still, ?_, fun whole => ?_⟩
  · rw [sum, ← ncard_counted, machine]
    congr
    ext place
    have held := hosts.cores place
    rw [← board] at held
    simp [held, and_comm]
  · rw [sum, State.countCores, Table.values, List.countP_map]
    refine List.countP_congr fun entry member => ?_
    have found := Table.mem_entries_iff.mp member
    obtain ⟨start, listed, here⟩ := start_of_latestStart? ((hosts.cores entry.1).symm.trans found)
    have known : settings.machine.contains entry.1.1 = true := by
      rw [here]
      exact (allowed start listed).known
    simp [machine, Topology.nearestEthernet_isSome known whole]

/-- An application is started over another one on a processor of a board of four chips, and only
the processor that it has left is counted for the first.
-/
theorem count_eq_latest_overlapping
    : ∃ session after,
        Session.open?
            [Board.connection
              (({ board := { settings := { machine := ⟨2, 2⟩ } } } : Peer).startAll
                [ { application := 1, subset := .ofList ⟨1, 0⟩ [1, 2], wait := false },
                  { application := 2, subset := .ofList ⟨1, 0⟩ [2, 3], wait := true } ])]
            [] 0 (some ⟨2, 2⟩) {}
          = .ok session
        ∧ session.count 1 .running = (.ok 1, after) := by
  let settings : Settings := { machine := ⟨2, 2⟩ }
  let starts : List Start :=
    [ { application := 1, subset := .ofList ⟨1, 0⟩ [1, 2], wait := false },
      { application := 2, subset := .ofList ⟨1, 0⟩ [2, 3], wait := true } ]
  have first : (Core.Subset.ofList ⟨1, 0⟩ [1, 2]).processors.list = [1, 2] := by decide
  have second : (Core.Subset.ofList ⟨1, 0⟩ [2, 3]).processors.list = [2, 3] := by decide
  have allowed : ∀ start ∈ starts, start.Allowed settings.machine := by
    intro start member
    have listed : start = starts[0] ∨ start = starts[1] := by simpa [starts] using member
    rcases listed with rfl | rfl
    · exact ⟨by decide, by simp [starts, Runnable, first], by decide⟩
    · exact ⟨by decide, by simp [starts, Runnable, second], by decide⟩
  have unused : Peer.Hosts { board := { settings } } { board := { settings } } [] :=
    ⟨⟨rfl, rfl, rfl⟩, rfl, rfl, rfl, fun _ => rfl⟩
  obtain ⟨session, opened, attached, reached, _⟩ :=
    attached_of_open (unused.startAll allowed).ready 0 (some ⟨2, 2⟩) {}
  have told : session.topology? = some settings.machine := by
    cases opened
    rfl
  obtain ⟨total, after, counted, _, number, _⟩ :=
    count_eq_latest rfl (by decide) allowed attached told reached (by decide : (1 : UInt8) ≠ 0)
      .running
  have single : {place : Chip × UInt8
        | latestStart? starts place = some ⟨1, .running⟩
          ∧ (settings.machine.nearestEthernet place.1).isSome = true}
      = {(⟨1, 0⟩, 1)} := by
    have latest (place : Chip × UInt8)
        : latestStart? starts place
          = if place.1 = ⟨1, 0⟩ ∧ place.2 ∈ [2, 3] then some ⟨2, .sync0⟩
            else if place.1 = ⟨1, 0⟩ ∧ place.2 ∈ [1, 2] then some ⟨1, .running⟩ else none := by
      rw [← first, ← second]
      rfl
    ext place
    rw [Set.mem_ofPred_eq, latest, Set.mem_singleton_iff]
    constructor
    · rintro ⟨left, _⟩
      split at left
      · cases left
      · next kept =>
          split at left
          · next named =>
              obtain ⟨here, number⟩ := named
              simp only [here, true_and, List.mem_cons, List.not_mem_nil] at kept number
              exact Prod.ext here (by tauto)
          · cases left
    · rintro rfl
      decide
  rw [single, Set.ncard_singleton] at number
  have one : total = 1 := UInt32.toNat_inj.mp number
  rw [one] at counted
  exact ⟨session, after, opened, counted⟩

end Session

end MeshControl
