import MeshControl.Proofs.Link.Readers
import MeshControl.Proofs.Link.Release
import MeshControl.Proofs.Table.Shift

/-! Callers that share a connection get their own answers and nobody else's. Whatever they do in
whatever order, each datagram that one of them reads goes where it belongs, each inbox gives out
what was put into it, and nothing is lost or doubled on the way.
-/

namespace MeshControl.Link

-----------------------------------------------------------------------------------------
-- What the dispatcher's functions do to the inboxes
-----------------------------------------------------------------------------------------

namespace Dispatcher

/-- How many datagrams lie in inboxes. -/
def lying (dispatcher : Dispatcher) : Nat :=
  dispatcher.inboxes.weight List.length

theorem fate_short {dispatcher : Dispatcher} {datagram : Datagram}
    (short : datagram.length < 14)
    : dispatcher.fate datagram = .short := by
  simp [fate, short]

/-- A datagram of at least fourteen bytes belongs to the inbox of its number, if there is one. -/
theorem fate_long {dispatcher : Dispatcher} {datagram : Datagram}
    (long : 14 ≤ datagram.length)
    : dispatcher.fate datagram
      = .ofRoute (dispatcher.routes.get? (Wire.halfAt datagram 12)) := by
  simp [fate, Nat.not_lt.mpr long]

/-- Putting a datagram away is putting it where it belongs. -/
theorem route_eq (dispatcher : Dispatcher) (datagram : Datagram)
    : dispatcher.route datagram
      = match dispatcher.fate datagram with
        | .owner inbox =>
            { dispatcher with
              inboxes := dispatcher.inboxes.insert inbox (dispatcher.inbox inbox ++ [datagram]) }
        | .stale => { dispatcher with stale := dispatcher.stale + 1 }
        | .short => dispatcher := by
  by_cases short : datagram.length < 14
  · have unread : Scp.Response.peek datagram = .error _ := if_pos short
    simp only [route, unread, fate_short short]
  · have read : Scp.Response.peek datagram
        = .ok (Wire.halfAt datagram 10, Wire.halfAt datagram 12) :=
      if_neg short
    simp only [route, read, fate_long (Nat.not_lt.mp short)]
    cases dispatcher.routes.get? (Wire.halfAt datagram 12) <;> rfl

/-- Exactly the inbox that a datagram belongs to gets it, behind all that lies there. -/
theorem inbox_route (dispatcher : Dispatcher) (datagram : Datagram) (number : Nat)
    : (dispatcher.route datagram).inbox number
      = if dispatcher.fate datagram = .owner number then dispatcher.inbox number ++ [datagram]
        else dispatcher.inbox number := by
  rw [route_eq]
  cases dispatcher.fate datagram with
  | owner other =>
      by_cases same : other = number
      · simp [inbox, same]
      · simp [inbox, same, Ne.symm same]
  | stale => simp [inbox]
  | short => simp

/-- Exactly a datagram that belongs to nobody's request is counted. -/
theorem stale_route (dispatcher : Dispatcher) (datagram : Datagram)
    : (dispatcher.route datagram).stale
      = dispatcher.stale + if dispatcher.fate datagram = .stale then 1 else 0 := by
  rw [route_eq]
  cases dispatcher.fate datagram <;> simp

/-- Another value of an inbox adds to what lies there what the inbox gets, and takes away what it
had.
-/
theorem lying_insert (dispatcher : Dispatcher) (number : Nat) (datagrams : List Datagram)
    : (dispatcher.inboxes.insert number datagrams).weight List.length
        + (dispatcher.inbox number).length
      = dispatcher.lying + datagrams.length := by
  unfold inbox lying
  cases found : dispatcher.inboxes.get? number with
  | none => exact Table.weight_insert_of_new List.length dispatcher.inboxes datagrams found
  | some old => exact Table.weight_insert_of_get? List.length dispatcher.inboxes datagrams found

theorem lying_route (dispatcher : Dispatcher) (datagram : Datagram)
    : (dispatcher.route datagram).lying
      = match dispatcher.fate datagram with
        | .owner _ => dispatcher.lying + 1
        | _ => dispatcher.lying := by
  rw [route_eq]
  cases dispatcher.fate datagram with
  | owner number =>
      have inserted := lying_insert dispatcher number (dispatcher.inbox number ++ [datagram])
      rw [List.length_append, List.length_singleton] at inserted
      simp only [lying] at inserted ⊢
      omega
  | stale => rfl
  | short => rfl

/-- An inbox gives out its oldest datagram, and all else stays. -/
structure Pops (before after : Dispatcher) (number : Nat) (datagram : Datagram) : Prop where
  routes : after.routes = before.routes
  fresh : after.fresh = before.fresh
  stale : after.stale = before.stale
  oldest : before.inbox number = datagram :: after.inbox number
  others : ∀ other, other ≠ number → after.inbox other = before.inbox other
  lying : before.lying = after.lying + 1

theorem pops_of_pop? {before after : Dispatcher} {number : Nat} {datagram : Datagram}
    (taken : before.pop? number = some (datagram, after))
    : Pops before after number datagram := by
  unfold pop? at taken
  split at taken
  · cases taken
  · next first rest lies =>
      cases taken
      refine ⟨rfl, rfl, rfl, ?_, ?_, ?_⟩
      · rw [lies]
        simp [inbox]
      · intro other apart
        simp [inbox, apart]
      · have inserted := lying_insert before number rest
        rw [lies, List.length_cons] at inserted
        simp only [lying] at inserted ⊢
        omega

/-- No inbox is in use that has not been opened. -/
structure Tidy (dispatcher : Dispatcher) : Prop where
  routes
    : ∀ sequence number,
        dispatcher.routes.get? sequence = some number → number < dispatcher.fresh
  inboxes
    : ∀ number datagrams,
        dispatcher.inboxes.get? number = some datagrams → number < dispatcher.fresh

/-- An inbox that was in use may hold anything. -/
theorem Tidy.insert {dispatcher : Dispatcher} (tidy : dispatcher.Tidy) {number : Nat}
    (known : number < dispatcher.fresh) (datagrams : List Datagram)
    : Tidy { dispatcher with inboxes := dispatcher.inboxes.insert number datagrams } := by
  refine ⟨tidy.routes, ?_⟩
  intro other lies found
  rw [Table.get?_insert] at found
  split at found
  · next same => exact same ▸ known
  · exact tidy.inboxes other lies found

theorem Tidy.route {dispatcher : Dispatcher} (tidy : dispatcher.Tidy) (datagram : Datagram)
    : (dispatcher.route datagram).Tidy := by
  rw [route_eq]
  cases belongs : dispatcher.fate datagram with
  | owner number =>
      refine tidy.insert (tidy.routes (Wire.halfAt datagram 12) number ?_) _
      unfold fate at belongs
      split at belongs
      · cases belongs
      · cases found : dispatcher.routes.get? (Wire.halfAt datagram 12) with
        | none => simp [found, Fate.ofRoute] at belongs
        | some other => simpa [found, Fate.ofRoute] using belongs
  | stale => exact ⟨tidy.routes, tidy.inboxes⟩
  | short => exact tidy

theorem Tidy.pop {dispatcher after : Dispatcher} (tidy : dispatcher.Tidy) {number : Nat}
    {datagram : Datagram} (taken : dispatcher.pop? number = some (datagram, after))
    : after.Tidy := by
  unfold pop? at taken
  split at taken
  · cases taken
  · next first rest lies =>
      cases taken
      cases found : dispatcher.inboxes.get? number with
      | none => simp [inbox, found] at lies
      | some datagrams => exact tidy.insert (tidy.inboxes number datagrams found) rest

end Dispatcher

-----------------------------------------------------------------------------------------
-- What a step does to the dispatcher
-----------------------------------------------------------------------------------------

variable {τ : Type} [DecidableEq τ] {desk after : Desk τ} {act : Act τ}

namespace Desk

/-- What a step does to what lies in the inboxes. -/
inductive Touch (desk after : Desk τ) : Act τ → Prop
  /-- Nothing is put away or given out. -/
  | spares {act : Act τ} (inbox : after.dispatcher.inbox = desk.dispatcher.inbox)
    (stale : after.dispatcher.stale = desk.dispatcher.stale)
    (lying : after.dispatcher.lying = desk.dispatcher.lying)
    (routing : act.routing? = none) (given : act.return? = none)
    : Touch desk after act
  | routes {caller : τ} {datagram : Datagram}
    (routed : after.dispatcher = desk.dispatcher.route datagram)
    : Touch desk after (.routes caller datagram (desk.dispatcher.fate datagram))
  | gives {caller : τ} {number : Nat} {datagram : Datagram}
    (popped : desk.dispatcher.Pops after.dispatcher number datagram)
    : Touch desk after (.returns caller number datagram)

theorem Step.touch (step : Step desk act after) (tidy : desk.dispatcher.Tidy)
    : Touch desk after act := by
  cases step with
  | opens =>
      have absent : desk.dispatcher.inboxes.get? desk.dispatcher.fresh = none := by
        cases found : desk.dispatcher.inboxes.get? desk.dispatcher.fresh with
        | none => rfl
        | some datagrams => exact absurd (tidy.inboxes _ _ found) (Nat.lt_irrefl _)
      refine .spares ?_ rfl ?_ rfl rfl
      · funext number
        by_cases same : number = desk.dispatcher.fresh
        · simp [Dispatcher.openInbox, Dispatcher.inbox, same, absent]
        · simp [Dispatcher.openInbox, Dispatcher.inbox, same]
      · exact Table.weight_insert_of_new List.length desk.dispatcher.inboxes [] absent
  | registers known accepted =>
      unfold Dispatcher.register at accepted
      split at accepted
      · cases accepted
      · cases accepted
        exact .spares rfl rfl rfl rfl rfl
  | returns there takes taken => exact .gives (Dispatcher.pops_of_pop? taken)
  | routes there => exact .routes rfl
  | _ => exact .spares rfl rfl rfl rfl rfl

theorem Step.tidy (step : Step desk act after) (tidy : desk.dispatcher.Tidy)
    : after.dispatcher.Tidy := by
  cases step with
  | opens =>
      refine ⟨?_, ?_⟩
      · exact fun sequence number found => Nat.lt_succ_of_lt (tidy.routes sequence number found)
      · intro number datagrams found
        simp only [Dispatcher.openInbox, Table.get?_insert] at found ⊢
        split at found
        · omega
        · exact Nat.lt_succ_of_lt (tidy.inboxes number datagrams found)
  | registers known accepted =>
      unfold Dispatcher.register at accepted
      split at accepted
      · cases accepted
      · cases accepted
        refine ⟨?_, tidy.inboxes⟩
        intro sequence number found
        rw [Table.get?_insert] at found
        split at found
        · cases found
          exact known
        · exact tidy.routes sequence number found
  | unregisters freed =>
      refine ⟨?_, tidy.inboxes⟩
      intro sequence number found
      exact tidy.routes sequence number (Table.of_get?_erase found).2
  | returns there takes taken => exact tidy.pop taken
  | @routes caller inbox datagram there => exact tidy.route datagram
  | _ => exact ⟨tidy.routes, tidy.inboxes⟩

-----------------------------------------------------------------------------------------
-- Who has the turn, and what it has in hand
-----------------------------------------------------------------------------------------

/-- The record of whose turn it is agrees with what the callers do. -/
def Turned (desk : Desk τ) : Prop :=
  desk.calls.Owned (fun call => call.phase.hasTurn) desk.turn

/-- What the caller whose turn it is has read and not yet put away. -/
def inHand (desk : Desk τ) : List Datagram :=
  ((desk.turn.bind desk.calls.get?).map fun call => call.phase.carried).getD []

theorem Phase.Takes.no_turn {phase : Phase} (takes : phase.Takes) : phase.hasTurn = false := by
  cases takes <;> rfl

theorem Step.turned (step : Step desk act after) (turned : desk.Turned) : after.Turned := by
  unfold Turned at turned ⊢
  cases step with
  | opens => exact turned
  | registers known accepted => exact turned
  | unregisters freed => exact turned
  | arrives arrival => exact turned
  | enters absent => exact turned.kept (.of_insert absent rfl) rfl
  | returns there takes taken =>
      exact turned.kept (.of_erase there rfl) (Phase.Takes.no_turn takes).symm
  | findsNothing there nothing => exact turned.kept (.of_insert there rfl) rfl
  | givesUp there => exact turned.kept (.of_erase there rfl) rfl
  | looksOn there => exact turned.kept (.of_insert there rfl) rfl
  | takesTurn there free =>
      rw [free] at turned
      exact turned.taken (.of_insert there rfl) rfl
  | missesTurn there taken => exact turned.kept (.of_insert there rfl) rfl
  | reads there arrived => exact turned.kept (.of_insert there rfl) rfl
  | lapses there => exact turned.kept (.of_insert there rfl) rfl
  | shrugs there arrived nothing => exact turned.kept (.of_insert there rfl) rfl
  | fails there arrived grave => exact turned.left (.of_erase there rfl) rfl rfl
  | breaks there => exact turned.left (.of_erase there rfl) rfl rfl
  | routes there => exact turned.kept (.of_insert there rfl) rfl
  | leavesTurn there => exact turned.left (.of_insert there rfl) rfl rfl
  | waitsOut there => exact turned.kept (.of_insert there rfl) rfl
  | closes there nothing unrouted => exact turned.kept (.of_erase there rfl) rfl

theorem inHand_of_turn {caller : τ} {call : Call} (turn : desk.turn = some caller)
    (there : desk.calls.get? caller = some call)
    : desk.inHand = call.phase.carried := by
  simp [inHand, turn, there]

theorem inHand_of_free (free : desk.turn = none) : desk.inHand = [] := by
  simp [inHand, free]

/-- A caller in the phase of one that has the turn has in hand what is in hand. -/
theorem Turned.inHand_of_phase {caller : τ} {inbox : Nat} {phase : Phase} (turned : desk.Turned)
    (there : desk.calls.get? caller = some ⟨inbox, phase⟩) (has : phase.hasTurn = true)
    : desk.inHand = phase.carried :=
  inHand_of_turn (turned.eq_some there has) there

/-- What is in hand stays there while another one than its owner goes on. -/
theorem Turned.inHand_eq {caller : τ} {old new : Option Call} (turned : desk.Turned)
    (shift : Table.Shift desk.calls after.calls caller old new)
    (bystander : old.any (fun call => call.phase.hasTurn) = false)
    (same : after.turn = desk.turn)
    : after.inHand = desk.inHand := by
  unfold inHand
  rw [same]
  cases turn : desk.turn with
  | none => rfl
  | some owner =>
      have apart : owner ≠ caller := by
        rintro rfl
        have has := (turned owner).mp turn
        rw [shift.here, bystander] at has
        cases has
      rw [Option.bind_some, Option.bind_some, shift.others owner apart]

/-- What was in hand and what is read now is what is put away now and what is in hand then. -/
theorem Step.hand (step : Step desk act after) (turned : desk.Turned)
    : desk.inHand ++ act.reading?.toList
      = (act.routing?.map Prod.fst).toList ++ after.inHand := by
  have later := step.turned turned
  have idle {other : Desk τ} (same : other.inHand = desk.inHand)
      : desk.inHand ++ [] = [] ++ other.inHand := by
    rw [same, List.append_nil, List.nil_append]
  have empty {caller : τ} {inbox : Nat} {phase : Phase}
      (there : desk.calls.get? caller = some ⟨inbox, phase⟩) (has : phase.hasTurn = true)
      (nothing : phase.carried = [])
      : desk.inHand = [] :=
    (turned.inHand_of_phase there has).trans nothing
  cases step with
  | opens => exact idle rfl
  | registers known accepted => exact idle rfl
  | unregisters freed => exact idle rfl
  | arrives arrival => exact idle rfl
  | enters absent => exact idle (turned.inHand_eq (.of_insert absent rfl) rfl rfl)
  | returns there takes taken =>
      exact idle (turned.inHand_eq (.of_erase there rfl) (Phase.Takes.no_turn takes) rfl)
  | findsNothing there nothing => exact idle (turned.inHand_eq (.of_insert there rfl) rfl rfl)
  | givesUp there => exact idle (turned.inHand_eq (.of_erase there rfl) rfl rfl)
  | looksOn there => exact idle (turned.inHand_eq (.of_insert there rfl) rfl rfl)
  | takesTurn there free =>
      refine idle (.trans ?_ (inHand_of_free free).symm)
      exact later.inHand_of_phase (Table.get?_insert_self _ _ _) rfl
  | missesTurn there taken => exact idle (turned.inHand_eq (.of_insert there rfl) rfl rfl)
  | @reads caller inbox datagram rest there arrived =>
      have holds := later.inHand_of_phase (Table.get?_insert_self _ _ _) rfl
      rw [holds, empty there rfl rfl]
      rfl
  | lapses there =>
      have holds := later.inHand_of_phase (Table.get?_insert_self _ _ _) rfl
      exact idle (holds.trans (empty there rfl rfl).symm)
  | shrugs there arrived nothing =>
      have holds := later.inHand_of_phase (Table.get?_insert_self _ _ _) rfl
      exact idle (holds.trans (empty there rfl rfl).symm)
  | fails there arrived grave =>
      exact idle ((inHand_of_free rfl).trans (empty there rfl rfl).symm)
  | breaks there => exact idle ((inHand_of_free rfl).trans (empty there rfl rfl).symm)
  | routes there =>
      have holds := later.inHand_of_phase (Table.get?_insert_self _ _ _) rfl
      rw [holds, turned.inHand_of_phase there rfl]
      rfl
  | leavesTurn there => exact idle ((inHand_of_free rfl).trans (empty there rfl rfl).symm)
  | waitsOut there => exact idle (turned.inHand_eq (.of_insert there rfl) rfl rfl)
  | closes there nothing unrouted => exact idle (turned.inHand_eq (.of_erase there rfl) rfl rfl)

-----------------------------------------------------------------------------------------
-- The accounts of a run
-----------------------------------------------------------------------------------------

/-- What was read is accounted for: put away in the order in which it was read, given out in the
order in which it was put away, or counted.
-/
structure Accounts (acts : List (Act τ)) (desk : Desk τ) : Prop where
  /-- What was read has been put away in this order, but for what is in hand. -/
  order : readings acts = (routings acts).map Prod.fst ++ desk.inHand
  /-- At most one datagram is in hand. -/
  hand : desk.inHand.length ≤ 1
  /-- What was put away for an inbox has been given out from it in this order, or lies there. -/
  own
    : ∀ inbox,
        deliveredTo inbox acts = returnedFrom inbox acts ++ desk.dispatcher.inbox inbox
  stale : desk.dispatcher.stale = (routings acts).countP fun routing => routing.2 = .stale
  total
    : (readings acts).length
      = (returned acts).length + desk.dispatcher.lying + desk.dispatcher.stale
        + (routings acts).countP (fun routing => routing.2 = .short) + desk.inHand.length

theorem length_inHand_le (desk : Desk τ) : desk.inHand.length ≤ 1 := by
  unfold inHand
  cases desk.turn.bind desk.calls.get? with
  | none => exact Nat.zero_le 1
  | some call =>
      obtain ⟨inbox, phase⟩ := call
      cases phase <;> simp [Phase.carried]

/-- The part of the accounts that a run's invariant carries. -/
structure Ledgered (acts : List (Act τ)) (desk : Desk τ) : Prop where
  tidy : desk.dispatcher.Tidy
  turned : desk.Turned
  order : readings acts = (routings acts).map Prod.fst ++ desk.inHand
  stale : desk.dispatcher.stale = (routings acts).countP fun routing => routing.2 = .stale
  routed
    : (routings acts).length
      = (returned acts).length + desk.dispatcher.lying + desk.dispatcher.stale
        + (routings acts).countP fun routing => routing.2 = .short

omit [DecidableEq τ] in
theorem Touch.own {acts : List (Act τ)} (touch : Touch desk after act) {inbox : Nat}
    {lying : List Datagram}
    (own
      : lying ++ deliveredTo inbox acts
        = returnedFrom inbox acts ++ desk.dispatcher.inbox inbox)
    : lying ++ deliveredTo inbox (acts ++ [act])
      = returnedFrom inbox (acts ++ [act]) ++ after.dispatcher.inbox inbox := by
  rw [deliveredTo_snoc, returnedFrom_snoc, ← List.append_assoc, own]
  cases touch with
  | spares same _ _ routing given => simp [routing, given, same]
  | @routes caller datagram routed =>
      rw [routed, Dispatcher.inbox_route]
      by_cases mine : desk.dispatcher.fate datagram = .owner inbox
      · simp [Act.routing?, Act.return?, mine]
      · simp [Act.routing?, Act.return?, mine]
  | @gives caller number datagram popped =>
      by_cases mine : number = inbox
      · subst mine
        simp [Act.routing?, Act.return?, popped.oldest]
      · simp [Act.routing?, Act.return?, mine, popped.others inbox (Ne.symm mine)]

omit [DecidableEq τ] in
theorem Touch.stale {acts : List (Act τ)} (touch : Touch desk after act)
    (stale : desk.dispatcher.stale = (routings acts).countP fun routing => routing.2 = .stale)
    : after.dispatcher.stale
      = (routings (acts ++ [act])).countP fun routing => routing.2 = .stale := by
  rw [routings_snoc, List.countP_append, ← stale]
  cases touch with
  | spares _ same _ routing _ => simp [routing, same]
  | @routes caller datagram routed =>
      rw [routed, Dispatcher.stale_route]
      simp [Act.routing?, List.countP_singleton]
  | gives popped => simp [Act.routing?, popped.stale]

omit [DecidableEq τ] in
theorem Touch.routed {acts : List (Act τ)} (touch : Touch desk after act)
    (routed
      : (routings acts).length
        = (returned acts).length + desk.dispatcher.lying + desk.dispatcher.stale
          + (routings acts).countP fun routing => routing.2 = .short)
    : (routings (acts ++ [act])).length
      = (returned (acts ++ [act])).length + after.dispatcher.lying + after.dispatcher.stale
        + (routings (acts ++ [act])).countP fun routing => routing.2 = .short := by
  rw [routings_snoc, returned_snoc, List.length_append, List.length_append, List.countP_append,
    routed]
  cases touch with
  | spares _ stale lying routing given =>
      simp [routing, given, stale, lying]
  | @routes caller datagram moved =>
      rw [moved, Dispatcher.stale_route, Dispatcher.lying_route]
      cases desk.dispatcher.fate datagram <;> simp [Act.routing?, Act.return?] <;> omega
  | gives popped =>
      rw [popped.lying, popped.stale]
      simp [Act.routing?, Act.return?]
      omega

theorem Ledgered.step {acts : List (Act τ)} (ledgered : Ledgered acts desk)
    (step : Step desk act after)
    : Ledgered (acts ++ [act]) after := by
  have hand := step.hand ledgered.turned
  refine ⟨step.tidy ledgered.tidy, step.turned ledgered.turned, ?_, ?_, ?_⟩
  · rw [readings_snoc, routings_snoc, ledgered.order, List.append_assoc, hand, List.map_append,
      List.append_assoc]
    cases act.routing? <;> rfl
  · exact (step.touch ledgered.tidy).stale ledgered.stale
  · exact (step.touch ledgered.tidy).routed ledgered.routed

/-- The accounts of every run balance, by induction on its steps. -/
theorem Runs.ledgered {acts : List (Act τ)} (run : Runs {} acts desk) : Ledgered acts desk := by
  induction run with
  | start => exact ⟨⟨nofun, nofun⟩, fun _ => ⟨nofun, nofun⟩, rfl, rfl, rfl⟩
  | step _ next ih => exact ih.step next

theorem Runs.tidy {acts : List (Act τ)} (run : Runs desk acts after)
    (tidy : desk.dispatcher.Tidy)
    : after.dispatcher.Tidy := by
  induction run with
  | start => exact tidy
  | step _ next ih => exact next.tidy ih

/-- What lay in an inbox before a run and what the run put there is what was given out and what
lies there afterwards, in this order.
-/
theorem Runs.own {acts : List (Act τ)} (run : Runs desk acts after)
    (tidy : desk.dispatcher.Tidy) (inbox : Nat)
    : desk.dispatcher.inbox inbox ++ deliveredTo inbox acts
      = returnedFrom inbox acts ++ after.dispatcher.inbox inbox := by
  induction run with
  | start => exact List.append_nil _
  | step run next ih => exact (next.touch (run.tidy tidy)).own ih

theorem Runs.accounts {acts : List (Act τ)} (run : Runs {} acts desk) : Accounts acts desk where
  order := run.ledgered.order
  hand := length_inHand_le desk
  own := run.own ⟨nofun, nofun⟩
  stale := run.ledgered.stale
  total := by
    rw [run.ledgered.order, List.length_append, List.length_map, run.ledgered.routed]

-----------------------------------------------------------------------------------------
-- The last look of a caller
-----------------------------------------------------------------------------------------

theorem Step.route_eq {caller : τ} {datagram : Datagram} {fate : Fate}
    (step : Step desk (.routes caller datagram fate) after)
    : after.dispatcher = desk.dispatcher.route datagram := by
  cases step with
  | routes there => rfl

variable {ρ : Type} {caller : τ} {inbox : Nat} (limit : Duration)

/-- How a wait ends, as the caller learns it and as others see it. -/
inductive Ends (caller : τ) (inbox : Nat) (limit : Duration)
    : Except Error Datagram → Act τ → Prop
  | returns (datagram : Datagram)
    : Ends caller inbox limit (.ok datagram) (.returns caller inbox datagram)
  | givesUp : Ends caller inbox limit (.error (noAnswer limit)) (.givesUp caller inbox)
  | fails (error : Error) : Ends caller inbox limit (.error error) (.fails caller error)

theorem Runs.trans {first second : List (Act τ)} {before middle : Desk τ}
    (run : Runs before first middle) (more : Runs middle second after)
    : Runs before (first ++ second) after := by
  induction more with
  | start => rwa [List.append_nil]
  | step _ next ih => rw [← List.append_assoc]; exact ih.step next

theorem Runs.single (step : Step desk act after) : Runs desk [act] after :=
  .step .start step

/-- What a caller that waits alone leaves behind. -/
def served (desk : Desk τ) (caller : τ) (pending : List Arrival) (dispatcher : Dispatcher)
    : Desk τ :=
  { desk with pending, dispatcher, calls := desk.calls.erase caller }

end Desk

end MeshControl.Link
