import MeshControl.Link.Script
import MeshControl.Proofs.Link.Attempts
import MeshControl.Proofs.Link.Company
import MeshControl.Proofs.Link.FirstFailure

/-! What the counters of a process say about its requests. A request is counted when it was sent;
when it ends, its answer is counted, its failure is collected, or both: an answer that a request
accepts is counted before the sender looks at it, so that a request whose answer the sender rejects
counts as answered and as failed.
-/

namespace MeshControl.Link

open Scp

-----------------------------------------------------------------------------------------
-- Settlements by kind
-----------------------------------------------------------------------------------------

namespace Settlement

/-- The sender found fault with the answer. -/
def isRejected (settlement : Settlement) : Bool :=
  match settlement.outcome with
  | .rejected _ _ => true
  | _ => false

/-- No answer ended the request. -/
def isFailed (settlement : Settlement) : Bool :=
  match settlement.outcome with
  | .failed _ => true
  | _ => false

/-- A request ends in one of three ways. -/
theorem length_eq_countP (settled : List Settlement)
    : settled.length
      = settled.countP isAnswered + settled.countP isRejected + settled.countP isFailed := by
  induction settled with
  | nil => rfl
  | cons settlement rest ih =>
      have kinds : 1 = (if settlement.isAnswered then 1 else 0)
          + (if settlement.isRejected then 1 else 0) + if settlement.isFailed then 1 else 0 := by
        obtain ⟨promise, outcome⟩ := settlement
        cases outcome <;> rfl
      simp only [List.length_cons, List.countP_cons]
      omega

/-- An answer is told of whether or not the sender finds fault with it. -/
theorem length_acceptances (settled : List Settlement)
    : (acceptances (settled.flatMap events)).length
      = settled.countP isAnswered + settled.countP isRejected := by
  induction settled with
  | nil => rfl
  | cons settlement rest ih =>
      have own : (acceptances settlement.events).length
          = (if settlement.isAnswered then 1 else 0)
            + if settlement.isRejected then 1 else 0 := by
        obtain ⟨promise, outcome⟩ := settlement
        cases outcome <;> rfl
      simp only [List.flatMap_cons, acceptances_append, List.length_append, List.countP_cons]
      omega

/-- What is kept for collection are the rejections and the failures. -/
theorem length_failures (settled : List Settlement)
    : (settled.flatMap failures).length
      = settled.countP isRejected + settled.countP isFailed := by
  induction settled with
  | nil => rfl
  | cons settlement rest ih =>
      have own : settlement.failures.length
          = (if settlement.isRejected then 1 else 0) + if settlement.isFailed then 1 else 0 := by
        obtain ⟨promise, outcome⟩ := settlement
        cases outcome <;> rfl
      simp only [List.flatMap_cons, List.length_append, List.countP_cons]
      omega

end Settlement

-----------------------------------------------------------------------------------------
-- Scores
-----------------------------------------------------------------------------------------

/-- How many requests and how many answers were counted, and how many answers were told of. -/
structure Score where
  requests : Nat
  responses : Nat
  told : Nat

namespace Score

/-- So many requests were counted from one score to a later one, and an answer for each that was
told of.
-/
structure Counts (before after : Score) (sent : Nat) : Prop where
  requests : after.requests = before.requests + sent
  responses : after.responses + before.told = before.responses + after.told

theorem Counts.refl (score : Score) : Counts score score 0 :=
  ⟨rfl, rfl⟩

theorem Counts.trans {before middle after : Score} {sent more : Nat}
    (first : Counts before middle sent) (second : Counts middle after more)
    : Counts before after (sent + more) where
  requests := by rw [second.requests, first.requests, Nat.add_assoc]
  responses := by
    have one := first.responses
    have other := second.responses
    omega

end Score

/-- A send that went well is one more request. -/
def countSent {ε : Type} : Except ε Unit → Nat
  | .ok () => 1
  | .error _ => 0

@[simp]
theorem countSent_mapError {ε ε' : Type} (tell : ε → ε') (result : Except ε Unit)
    : countSent (result.mapError tell) = countSent result := by
  cases result <;> rfl

namespace Station

variable {ρ : Type}

/-- The score of a window at work. -/
def score (station : Station ρ) : Score where
  requests := station.window.counters.requests
  responses := station.window.counters.responses
  told := (acceptances station.journal.toList).length

theorem fail_score (station : Station ρ) (sequence : UInt16) (error : Error)
    : (station.fail sequence error).score = station.score := by
  have same : acceptances (station.fail sequence error).journal.toList
      = acceptances station.journal.toList := by
    unfold fail
    split
    · rfl
    · simp [acceptances, report, release, log, Event.accepted?]
  simp only [score, counters_fail, same]

/-- An answer is counted and told of. -/
theorem accept_score (station : Station ρ) (entry : Outstanding) (response : Response)
    : Score.Counts station.score (station.accept entry response).score 0 := by
  have one_more : (acceptances (station.accept entry response).journal.toList).length
      = (acceptances station.journal.toList).length + 1 := by
    unfold accept
    dsimp only
    split <;> simp [acceptances, report, release, log, count, Event.accepted?]
  constructor
  · simp only [score, counters_accept]
    rfl
  · simp only [score, counters_accept, one_more, Counters.recordResponse]
    omega

variable [Responder ρ]

/-- What goes to the connection is no answer. -/
theorem score_of_transmit {station after : Station ρ} {datagram : Datagram}
    {refusal : Option Error} (sent : station.transmit datagram = (refusal, after))
    : after.score = station.score := by
  have same : acceptances after.journal.toList = acceptances station.journal.toList := by
    rcases journal_of_transmit sent with ⟨_, unwritten⟩ | written
    · rw [unwritten]
    · simp [written, acceptances, Event.accepted?]
  simp only [score, counters_of_transmit sent, same]

omit [Responder ρ] in
/-- A repetition is counted elsewhere. -/
theorem score_renew (station : Station ρ) (sequence : UInt16) (entry : Outstanding)
    (remaining : Nat) (reason : Reason)
    : (station.renew sequence entry remaining reason).score = station.score := by
  cases reason <;> rfl

/-- A move counts no request, and each answer that it tells of, by the kinds of moves. -/
theorem Move.score {before after : Station ρ} (move : Move before after)
    : Score.Counts before.score after.score 0 := by
  cases move with
  | hear | overlook | lapse => exact ⟨rfl, rfl⟩
  | accept => exact accept_score _ _ _
  | fail =>
      rw [fail_score]
      exact .refl _
  | renew _ _ sent =>
      rw [score_of_transmit sent, score_renew]
      exact .refl _
  | refuse _ _ refused =>
      rw [fail_score, score_of_transmit refused, score_renew]
      exact .refl _

theorem Path.score {before after : Station ρ} (path : Path before after)
    : Score.Counts before.score after.score 0 := by
  induction path with
  | refl => exact .refl _
  | tail _ move ih => exact ih.trans move.score

/-- A send counts its request if it goes well, and each answer that it hears meanwhile. -/
theorem send_score {station after : Station ρ} {request : Request} {sequence : UInt16}
    {handler : Handler} {result : Except Error Unit}
    (done : station.send request sequence handler = (result, after))
    : Score.Counts station.score after.score (countSent result) := by
  have ending := send_sending station request sequence handler
  rw [done] at ending
  have room := (makeRoom_path station).score
  cases ending with
  | malformed => exact .refl _
  | taken => exact room
  | @refused _ after _ _ tried =>
      have same : after.score = station.makeRoom.score := (score_of_transmit tried).trans rfl
      have withdrawn : (after.withdraw sequence).score = after.score := rfl
      rw [withdrawn, same]
      exact room
  | @sent after _ _ tried =>
      have same : after.score = station.makeRoom.score := (score_of_transmit tried).trans rfl
      rw [← same] at room
      have enlisted (request : Request) (datagram : Datagram)
          : Score.Counts after.score (after.enlist request sequence datagram handler).score 1 :=
        ⟨rfl, rfl⟩
      exact room.trans (enlisted _ _)

end Station

-----------------------------------------------------------------------------------------
-- A process at work
-----------------------------------------------------------------------------------------

namespace Process

variable {ρ : Type}

/-- A total over the windows of a process. -/
theorem total_statistics (process : Process) (counter : Counters → Nat)
    : process.statistics.total counter
      = process.windows.weight fun window => counter window.counters := by
  simp [statistics, Statistics.total, Table.weight, List.foldr_map]

/-- How many requests of a process wait for answers, on all its connections together. -/
def inProgress (process : Process) : Nat :=
  process.windows.weight Window.inProgress

/-- What waits is what a process owes. -/
theorem inProgress_eq (process : Process) : process.inProgress = process.promises.length := by
  unfold inProgress promises Table.weight
  induction process.windows.values with
  | nil => rfl
  | cons window rest ih =>
      rw [List.foldr_cons, ih, List.flatMap_cons, List.length_append]
      simp [Window.promises, Window.inProgress, Table.values, Table.size]

/-- The score of a process on its connections. -/
def score (hub : Hub ρ) (process : Process) : Score where
  requests := process.statistics.total Counters.requests
  responses := process.statistics.total Counters.responses
  told := (acceptances hub.journal.toList).length

/-- A new window counts nothing yet. -/
theorem engage_score {process later : Process} {number : Nat} {line engaged : Line ρ}
    {window : Window} (ready : process.engage number line = (window, engaged, later))
    (hub : Hub ρ)
    : later.windows.get? number = some window ∧ score hub later = score hub process := by
  rcases engage_cases ready with ⟨held, rfl⟩ | ⟨absent, rfl, rfl⟩
  · exact ⟨held, rfl⟩
  · refine ⟨Table.get?_insert_self _ _ _, ?_⟩
    simp only [score, total_statistics, Table.weight_insert_of_new _ process.windows _ absent]
    rfl

/-- What a window counts at its work, its process counts. -/
theorem collect_score {hub after : Hub ρ} {station later : Station ρ} {sent : Nat}
    {process : Process} {number : Nat}
    (held : process.windows.get? number = some station.window)
    (journal : station.journal = hub.journal) (written : after.journal = later.journal)
    (counts : Score.Counts station.score later.score sent)
    : Score.Counts (score hub process) (score after (process.collect number later.window))
        sent := by
  have exchanged (counter : Counters → Nat)
      : (process.collect number later.window).statistics.total counter
          + counter station.window.counters
        = process.statistics.total counter + counter later.window.counters := by
    rw [total_statistics, total_statistics]
    exact Table.weight_insert_of_get? (fun window => counter window.counters) _ _ held
  have requests := exchanged Counters.requests
  have responses := exchanged Counters.responses
  obtain ⟨sends, answers⟩ := counts
  simp only [Station.score, journal, ← written] at sends answers
  constructor
  · simp only [score]
    omega
  · simp only [score]
    omega

variable [Responder ρ] {hub after : Hub ρ} {process later : Process}

/-- However a send ends, it counts its request if it goes well. -/
theorem send_score {request : Request} {handler : Handler} {result : Except Halt Unit}
    (done : Process.send hub process request handler = (result, after, later))
    : Score.Counts (score hub process) (score after later) (countSent result) := by
  have ending := send_sending hub process request handler
  rw [done] at ending
  have unheard {process : Process} (journal : after.journal = hub.journal)
      : score after process = score hub process := by
    simp only [score, journal]
  cases ending with
  | idle _ journal =>
      rw [unheard journal]
      exact .refl _
  | opened _ ready _ journal =>
      rw [unheard journal, (engage_score ready hub).2]
      exact .refl _
  | tried _ ready sent _ journal =>
      obtain ⟨held, same⟩ := engage_score ready hub
      rw [← same, countSent_mapError]
      exact collect_score held rfl journal (Station.send_score sent)

/-- Waiting counts no request. -/
theorem finishWindow_score (hub : Hub ρ) (process : Process) (number : Nat)
    : Score.Counts (score hub process)
        (score (finishWindow hub process number).1 (finishWindow hub process number).2) 0 := by
  unfold finishWindow
  split
  · next line window _ held =>
      let start : Station ρ := { line, window, journal := hub.journal }
      have held_start : process.windows.get? number = some start.window := held
      exact collect_score held_start rfl rfl (Station.drain_path 0 start).score
  · exact .refl _

/-- Nor does waiting for all windows, by induction on them. -/
theorem finish_score {result : Except Error Unit}
    (done : Process.finish hub process = (result, after, later))
    : Score.Counts (score hub process) (score after later) 0 := by
  unfold Process.finish at done
  split at done
  · simp only [Prod.mk.injEq] at done
    obtain ⟨-, rfl, rfl⟩ := done
    exact .refl _
  · simp only [Prod.mk.injEq] at done
    obtain ⟨-, rfl, rfl⟩ := done
    refine List.foldlRecOn (motive := fun state : Hub ρ × Process =>
      Score.Counts (score hub process) (score state.1 state.2) 0) _ _ (.refl _) ?_
    intro state counts number _
    exact counts.trans (finishWindow_score state.1 state.2 number)

end Process

-----------------------------------------------------------------------------------------
-- The books of a process
-----------------------------------------------------------------------------------------

/-- How the requests of a process have ended so far, what was told of them, and how many it sent:
every one that was sent has ended or waits, and the counters say how many were sent and of how many
an answer was told.
-/
structure Census (process : Process) (settled : List Settlement) (heard : List Event) (sent : Nat)
    : Prop where
  lawful : ∀ settlement ∈ settled, settlement.Lawful
  events : heard = settled.flatMap Settlement.events
  failures : process.failures = settled.flatMap Settlement.failures
  waiting : sent = settled.length + process.inProgress
  requests : process.statistics.total Counters.requests = sent
  responses : process.statistics.total Counters.responses = (acceptances heard).length

/-- A new process has sent nothing. -/
theorem Census.start (config : Config) : Census { config } [] [] 0 where
  lawful := by simp
  events := rfl
  failures := rfl
  waiting := rfl
  requests := rfl
  responses := rfl

/-- What was told from one journal to a later one. -/
def newlyTold (before after : Array Event) : List Event :=
  (told after.toList).drop (told before.toList).length

/-- A turn that balances the ledger and counts what it takes on keeps the books. -/
theorem Census.turn {ρ : Type} {hub after : Hub ρ} {process later : Process}
    {settled more : List Settlement} {heard : List Event} {sent : Nat} {taken : List Promise}
    (census : Census process settled heard sent)
    (balances : Ledger.Balances (process.ledger hub) (later.ledger after) more taken)
    (counts : Score.Counts (process.score hub) (later.score after) taken.length)
    : Census later (settled ++ more) (heard ++ newlyTold hub.journal after.journal)
        (sent + taken.length) := by
  have journal : told after.journal.toList
      = told hub.journal.toList ++ more.flatMap Settlement.events :=
    balances.told
  have newly : newlyTold hub.journal after.journal = more.flatMap Settlement.events := by
    rw [newlyTold, journal, List.drop_left]
  have answers : (acceptances after.journal.toList).length
      = (acceptances hub.journal.toList).length
        + (acceptances (more.flatMap Settlement.events)).length := by
    rw [← acceptances_told, journal, acceptances_append, List.length_append, acceptances_told]
  have owed := balances.promises.length_eq
  simp only [Process.ledger, List.length_append, List.length_map, ← Process.inProgress_eq]
    at owed
  obtain ⟨requests, responses⟩ := counts
  simp only [Process.score, answers] at requests responses
  rw [newly]
  refine ⟨?_, ?_, ?_, ?_, ?_, ?_⟩
  · intro settlement member
    rcases List.mem_append.mp member with early | late
    · exact census.lawful settlement early
    · exact balances.lawful settlement late
  · rw [census.events, List.flatMap_append]
  · have kept : later.failures = process.failures ++ more.flatMap Settlement.failures :=
      balances.failures
    rw [kept, census.failures, List.flatMap_append]
  · have waiting := census.waiting
    rw [List.length_append]
    omega
  · rw [requests, census.requests]
  · rw [acceptances_append, List.length_append, ← census.responses]
    omega

/-- Only a request that went out is taken on. -/
theorem length_of_offered {tag : UInt8} {promise : Promise} {result : Except Halt Unit}
    {tried : List Event} {taken : List Promise}
    (offered : Offered tag promise result tried taken)
    : taken.length = countSent result := by
  cases offered <;> rfl

-----------------------------------------------------------------------------------------
-- Histories
-----------------------------------------------------------------------------------------

namespace Company

variable {ρ : Type}

/-- The partner that works in an operation. -/
def Operation.worker? : Operation → Option Nat
  | .send name _ _ => some name
  | .finish name => some name
  | _ => none

section

variable [Responder ρ]

/-- What is told while a partner works. -/
def hears (name : Nat) (company : Company ρ) (operation : Operation) : List Event :=
  if operation.worker? = some name then
    newlyTold company.journal (company.perform operation).journal
  else []

/-- How many requests of a partner go out. -/
def sends (name : Nat) (company : Company ρ) : Operation → Nat
  | .send worker request handler =>
      if worker = name then countSent (company.send worker request handler).1 else 0
  | _ => 0

/-- What a history tells while a partner works, in order. -/
def heard (name : Nat) : Company ρ → List Operation → List Event
  | _, [] => []
  | company, operation :: rest =>
      company.hears name operation ++ heard name (company.perform operation) rest

/-- How many requests of a partner go out in a history. -/
def sent (name : Nat) : Company ρ → List Operation → Nat
  | _, [] => 0
  | company, operation :: rest =>
      company.sends name operation + sent name (company.perform operation) rest

end

/-- The books of the partner of one name, which are empty before it joins. -/
structure Tracks (company : Company ρ) (name : Nat) (settled : List Settlement)
    (heard : List Event) (sent : Nat) : Prop where
  present
    : ∀ {partner},
        company.partners.get? name = some partner → Census partner.process settled heard sent
  unborn : company.fresh ≤ name → settled = [] ∧ heard = [] ∧ sent = 0

variable {company : Company ρ} {name : Nat} {settled : List Settlement} {heard : List Event}
  {sent : Nat}

/-- Books stay as they are where the partner of the name and the next name do. -/
theorem Tracks.of_same {after : Company ρ} (tracks : Tracks company name settled heard sent)
    (same
      : ∀ {partner},
          after.partners.get? name = some partner
          → ∃ old, company.partners.get? name = some old ∧ old.process = partner.process)
    (fresh : company.fresh ≤ after.fresh)
    : Tracks after name settled heard sent where
  present known := by
    obtain ⟨old, listed, process⟩ := same known
    exact process ▸ tracks.present listed
  unborn later := tracks.unborn (Nat.le_trans fresh later)

/-- Who joins has empty books. -/
theorem Tracks.join (tracks : Tracks company name settled heard sent) (config : Config)
    (selector : Selector) (generator : Nat)
    : Tracks (company.join config selector generator) name settled heard sent := by
  have fresh : company.fresh ≤ (company.join config selector generator).fresh := Nat.le_succ _
  refine ⟨fun known => ?_, fun later => tracks.unborn (Nat.le_trans fresh later)⟩
  simp only [Company.join, Table.get?_insert] at known
  split at known
  · next newcomer =>
      cases known
      obtain ⟨rfl, rfl, rfl⟩ := tracks.unborn (Nat.le_of_eq newcomer.symm)
      exact .start config
  · exact tracks.present known

theorem Tracks.choose (tracks : Tracks company name settled heard sent) (chooser : Nat)
    (selector : Selector)
    : Tracks (company.choose chooser selector) name settled heard sent := by
  unfold Company.choose
  split
  · exact tracks
  · next partner member =>
      refine tracks.of_same (fun known => ?_) (Nat.le_refl _)
      rw [Table.get?_insert] at known
      split at known
      · next here =>
          cases known
          exact ⟨partner, here ▸ member, rfl⟩
      · exact ⟨_, known, rfl⟩

theorem Tracks.drop (tracks : Tracks company name settled heard sent) (leaver : Nat)
    : Tracks (company.drop leaver) name settled heard sent := by
  unfold Company.drop
  split
  · exact tracks
  · exact tracks.of_same (fun known => ⟨_, (Table.of_get?_erase known).2, rfl⟩) (Nat.le_refl _)

/-- A turn of one partner keeps the books of each: its own grow by what it hears and sends. -/
theorem Tracks.turn (tracks : Tracks company name settled heard sent)
    (coherent : company.Coherent) {worker : Nat} {partner : Partner}
    (member : company.partners.get? worker = some partner) {hub : Hub ρ} {process : Process}
    {more : List Settlement} {taken : List Promise}
    (balances
      : Ledger.Balances (partner.process.ledger (company.hubOf partner)) (process.ledger hub) more
          taken)
    (counts
      : Score.Counts (partner.process.score (company.hubOf partner)) (process.score hub)
          taken.length)
    : ∃ later,
        Tracks (company.update worker partner hub process) name (settled ++ later)
          (heard ++ if worker = name then newlyTold company.journal hub.journal else [])
          (sent + if worker = name then taken.length else 0) := by
  by_cases own : worker = name
  · subst own
    refine ⟨more, fun known => ?_, fun unborn => ?_⟩
    · simp only [Company.update, Table.get?_insert_self, Option.some.injEq] at known
      subst known
      rw [if_pos rfl, if_pos rfl]
      exact (tracks.present member).turn balances counts
    · exact absurd (coherent.numbered member) (Nat.not_lt.mpr unborn)
  · refine ⟨[], ?_⟩
    rw [if_neg own, if_neg own, List.append_nil, List.append_nil, Nat.add_zero]
    refine tracks.of_same (fun known => ?_) (Nat.le_refl _)
    rw [Company.update, Table.get?_insert, if_neg (Ne.symm own)] at known
    exact ⟨_, known, rfl⟩

variable [Responder ρ]

theorem Tracks.send (tracks : Tracks company name settled heard sent)
    (coherent : company.Coherent) (worker : Nat) (request : Request) (handler : Handler)
    : ∃ later,
        Tracks (company.send worker request handler).2 name (settled ++ later)
          (heard ++ company.hears name (.send worker request handler))
          (sent + company.sends name (.send worker request handler)) := by
  simp only [hears, sends, perform, Operation.worker?, Option.some.injEq]
  unfold Company.send
  cases member : company.partners.get? worker with
  | none =>
      refine ⟨[], ?_⟩
      simpa [newlyTold, countSent] using tracks
  | some partner =>
      dsimp only
      generalize done : Process.send (company.hubOf partner) partner.process request handler
        = outcome
      obtain ⟨result, hub, process⟩ := outcome
      obtain ⟨_, _, _, _, _, _, taken, sends⟩ :=
        Process.send_turn (coherent.seated member) done
      have counts := Process.send_score done
      rw [← length_of_offered sends.offered] at counts ⊢
      exact tracks.turn coherent member sends.balances counts

theorem Tracks.finish (tracks : Tracks company name settled heard sent)
    (coherent : company.Coherent) (worker : Nat)
    : ∃ later,
        Tracks (company.finish worker).2 name (settled ++ later)
          (heard ++ company.hears name (.finish worker)) sent := by
  simp only [hears, perform, Operation.worker?, Option.some.injEq]
  unfold Company.finish
  cases member : company.partners.get? worker with
  | none =>
      refine ⟨[], ?_⟩
      simpa [newlyTold] using tracks
  | some partner =>
      dsimp only
      generalize done : Process.finish (company.hubOf partner) partner.process = outcome
      obtain ⟨result, hub, process⟩ := outcome
      obtain ⟨_, _, ⟨_, _, settles⟩, _⟩ := Process.finish_turn (coherent.seated member) done
      have kept := tracks.turn coherent member settles.balances (Process.finish_score done)
      simp only [List.length_nil, ite_self, Nat.add_zero] at kept
      exact kept

/-- Where no partner works, nothing is told. -/
theorem hears_of_idle {operation : Operation} (idle : operation.worker? = none)
    : company.hears name operation = [] := by
  rw [hears, idle, if_neg (by simp)]

/-- Every operation keeps the books, by cases on it. -/
theorem Tracks.perform (tracks : Tracks company name settled heard sent)
    (coherent : company.Coherent) (operation : Operation)
    : ∃ later,
        Tracks (company.perform operation) name (settled ++ later)
          (heard ++ company.hears name operation) (sent + company.sends name operation) := by
  cases operation with
  | send worker request handler => exact tracks.send coherent worker request handler
  | finish worker => exact tracks.finish coherent worker
  | join config selector generator =>
      refine ⟨[], ?_⟩
      rw [hears_of_idle rfl, List.append_nil, List.append_nil]
      exact tracks.join config selector generator
  | choose chooser selector =>
      refine ⟨[], ?_⟩
      rw [hears_of_idle rfl, List.append_nil, List.append_nil]
      exact tracks.choose chooser selector
  | drop leaver =>
      refine ⟨[], ?_⟩
      rw [hears_of_idle rfl, List.append_nil, List.append_nil]
      exact tracks.drop leaver
  | arrive number reaction =>
      refine ⟨[], ?_⟩
      have same : Tracks (company.arrive number reaction) name settled heard sent :=
        tracks.of_same (fun known => ⟨_, known, rfl⟩) (Nat.le_refl _)
      rw [hears_of_idle rfl, List.append_nil, List.append_nil]
      exact same

/-- Any history keeps the books, by induction on its operations. -/
theorem Tracks.run (tracks : Tracks company name settled heard sent)
    (coherent : company.Coherent) (operations : List Operation)
    : ∃ later,
        Tracks (company.run operations) name (settled ++ later)
          (heard ++ company.heard name operations) (sent + company.sent name operations) := by
  induction operations generalizing company settled heard sent with
  | nil =>
      refine ⟨[], ?_⟩
      simp only [Company.heard, Company.sent, List.append_nil, Nat.add_zero]
      exact tracks
  | cons operation rest ih =>
      obtain ⟨first, one⟩ := tracks.perform coherent operation
      obtain ⟨later, all⟩ := ih one (coherent.perform operation)
      refine ⟨first ++ later, ?_⟩
      simp only [Company.heard, Company.sent]
      rw [← List.append_assoc, ← List.append_assoc, ← Nat.add_assoc]
      exact all

/-- Whatever processes do that share connections, whatever these and their peers do, and whatever
senders make of the answers: after each operation, every request that a process has sent has ended
in one of three ways, of which its sender was told while the process was at work, or it waits. The
counter of requests says how many were sent. The counter of answers says how many were answered or
rejected, and the number of errors how many were rejected or failed. So a rejected request counts
twice: the requests and those that were rejected are the answers, the errors and what waits, and
the requests alone are so exactly if none was rejected.
Witness: the books of a process, kept by each operation.
-/
theorem requests_balance (connections : List (Connection ρ)) (generators : Nat → SequenceGenerator)
    (operations : List Operation) {name : Nat} {partner : Partner}
    (known
      : ((founded connections generators).run operations).partners.get? name = some partner)
    : let start := founded connections generators
      let process := partner.process
      let requests := process.statistics.total Counters.requests
      let responses := process.statistics.total Counters.responses
      let errors := process.statistics.errors
      ∃ settled : List Settlement,
        (∀ settlement ∈ settled, settlement.Lawful)
        ∧ start.heard name operations = settled.flatMap Settlement.events
        ∧ requests = start.sent name operations
        ∧ requests = settled.length + process.inProgress
        ∧ responses
          = settled.countP Settlement.isAnswered + settled.countP Settlement.isRejected
        ∧ errors = settled.countP Settlement.isRejected + settled.countP Settlement.isFailed
        ∧ requests + settled.countP Settlement.isRejected
          = responses + errors + process.inProgress
        ∧ (requests = responses + errors + process.inProgress
          ↔ ∀ settlement ∈ settled, settlement.isRejected = false) := by
  have opening : Tracks (founded connections generators) name [] [] 0 := by
    refine ⟨fun absent => ?_, fun _ => ⟨rfl, rfl, rfl⟩⟩
    cases absent
  obtain ⟨settled, tracks⟩ :=
    opening.run (founded_coherent connections generators) operations
  simp only [List.nil_append, Nat.zero_add] at tracks
  obtain ⟨lawful, told, failures, waiting, counted, answered⟩ := tracks.present known
  generalize partner.process = process at failures waiting counted answered ⊢
  have kinds := Settlement.length_eq_countP settled
  have failed : process.statistics.errors
      = settled.countP Settlement.isRejected + settled.countP Settlement.isFailed := by
    rw [← Settlement.length_failures, ← failures]
    rfl
  rw [told, Settlement.length_acceptances] at answered
  have balance : process.statistics.total Counters.requests
        + settled.countP Settlement.isRejected
      = process.statistics.total Counters.responses + process.statistics.errors
        + process.inProgress := by
    omega
  have none_rejected : settled.countP Settlement.isRejected = 0
      ↔ ∀ settlement ∈ settled, settlement.isRejected = false := by
    simp [List.countP_eq_zero]
  refine ⟨settled, lawful, told, counted, counted.trans waiting, answered, failed, balance, ?_⟩
  rw [← none_rejected]
  omega

/-- A connection whose peer answers every request with success. -/
def answeringConnection : Connection Script :=
  { number := 0, name := "c0", chip := .origin, peer := {} }

/-- A process whose sender rejects the answer to its one request. -/
def rejecting : Company Script :=
  (founded [answeringConnection] fun _ => {}).run
    [.join {} (.fixed ⟨0, .origin⟩) 0,
      .send 0 (Operation.getVersion .origin 0) { check := fun _ => .error .noConnections },
      .finish 0]

/-- The one request was rejected, and makes up the difference. -/
theorem requests_balance_rejecting
    : ∃ partner,
        rejecting.partners.get? 0 = some partner
        ∧ ∃ settled : List Settlement,
            settled.length = 1
            ∧ settled.countP Settlement.isRejected = 1
            ∧ partner.process.statistics.total Counters.requests
                + settled.countP Settlement.isRejected
              = partner.process.statistics.total Counters.responses
                + partner.process.statistics.errors + partner.process.inProgress := by
  have member : (rejecting.partners.get? 0).isSome = true := by cbv
  obtain ⟨partner, known⟩ := Option.isSome_iff_exists.mp member
  have numbers : (rejecting.partners.get? 0).map (fun partner =>
      (partner.process.statistics.total Counters.requests,
        partner.process.statistics.total Counters.responses, partner.process.statistics.errors,
        partner.process.inProgress)) = some (1, 1, 1, 0) := by
    cbv
  obtain ⟨settled, _, _, _, ended, _, _, balance, _⟩ :=
    requests_balance [answeringConnection] (fun _ => {})
      [.join {} (.fixed ⟨0, .origin⟩) 0,
        .send 0 (Operation.getVersion .origin 0) { check := fun _ => .error .noConnections },
        .finish 0] known
  simp only [known, Option.map_some, Option.some.injEq, Prod.mk.injEq] at numbers
  obtain ⟨requests, responses, errors, waiting⟩ := numbers
  refine ⟨partner, known, settled, ?_, ?_, balance⟩
  · omega
  · omega

/-- One request is counted as answered and as failed. -/
theorem rejected_counts_twice
    : (rejecting.partners.get? 0).map (fun partner =>
        (partner.process.statistics.total Counters.requests,
          partner.process.statistics.total Counters.responses, partner.process.statistics.errors,
          partner.process.inProgress))
      = some (1, 1, 1, 0) := by
  cbv

end Company

end MeshControl.Link
