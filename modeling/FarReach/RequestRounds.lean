import FarReach.Runs

namespace Rounds

/-- Messages between a requester and its peers. -/
inductive Message (P Q : Type) where
  | request (peer : P) (query : Q)
  | ack (peer : P) (query : Q)
  deriving DecidableEq

/-- A requester sends one query after the other, each to some peers, and goes on when all of them have
acknowledged it. A peer that is `ready` handles a query and may acknowledge it; `handle` and `advance`, the
other steps of a peer, are `none` if its process ends. The requester ends if it does not accept an
acknowledgement. -/
structure Protocol (P Q R E : Type) where
  peers : Q → Finset P
  next : Q → Q
  accepts : Q → Q → Bool
  ready : P → R → Q → Bool
  handle : P → R → Q → Option (R × Bool)
  advance : P → R → E → Option R

/-- The requester with its current query and the peers it waits for, the peers, and the messages in flight. -/
structure System (P Q R : Type) where
  query : Option Q
  waiting : Finset P
  responders : P → Option R
  network : List (Message P Q)

/-- A query is sent, for the first time or again, a message is lost, duplicated or delivered, the requester
goes on, or a peer takes a step of its own. -/
inductive Event (P Q E : Type) where
  | send (peer : P)
  | lose (message : Message P Q)
  | duplicate (message : Message P Q)
  | deliver (message : Message P Q)
  | join
  | progress (peer : P) (event : E)

variable {P Q R E : Type}

namespace Protocol

section Step

variable [DecidableEq P] [DecidableEq Q]

def serve (protocol : Protocol P Q R E) (system : System P Q R) (peer : P) (query : Q) (responder : R) :
    System P Q R :=
  match protocol.handle peer responder query with
  | none => { system with
    responders := Function.update system.responders peer none
    network := system.network.erase (.request peer query) }
  | some (after, acked) => { system with
    responders := Function.update system.responders peer (some after)
    network := (if acked then [.ack peer query] else []) ++ system.network.erase (.request peer query) }

/-- A message is received. It stays where it is if its receiver does not listen. -/
def receive (protocol : Protocol P Q R E) (system : System P Q R) : Message P Q → System P Q R
  | .request peer query =>
    match system.responders peer with
    | none => system
    | some responder =>
      if protocol.ready peer responder query then protocol.serve system peer query responder else system
  | .ack peer query =>
    match system.query with
    | none => system
    | some awaited =>
      if peer ∉ system.waiting then system
      else if protocol.accepts awaited query then
        { system with waiting := system.waiting.erase peer, network := system.network.erase (.ack peer query) }
      else { system with query := none, network := system.network.erase (.ack peer query) }

def step (protocol : Protocol P Q R E) (system : System P Q R) : Event P Q E → System P Q R
  | .send peer =>
    match system.query with
    | none => system
    | some query =>
      if peer ∈ system.waiting then { system with network := .request peer query :: system.network } else system
  | .lose message => { system with network := system.network.erase message }
  | .duplicate message =>
    if message ∈ system.network then { system with network := message :: system.network } else system
  | .deliver message => if message ∈ system.network then protocol.receive system message else system
  | .join =>
    match system.query with
    | none => system
    | some query =>
      if system.waiting = ∅ then
        { system with query := some (protocol.next query), waiting := protocol.peers (protocol.next query) }
      else system
  | .progress peer event =>
    match system.responders peer with
    | none => system
    | some responder =>
      { system with responders := Function.update system.responders peer (protocol.advance peer responder event) }

variable {protocol : Protocol P Q R E} {system : System P Q R} {query : Q} {peer : P}

theorem step_send (asks : system.query = some query) :
    protocol.step system (.send peer) =
      if peer ∈ system.waiting then { system with network := .request peer query :: system.network } else system := by
  obtain ⟨asked, waiting, responders, network⟩ := system
  obtain rfl : asked = some query := asks
  rfl

theorem step_join (asks : system.query = some query) :
    protocol.step system .join = if system.waiting = ∅ then
      { system with query := some (protocol.next query), waiting := protocol.peers (protocol.next query) }
      else system := by
  obtain ⟨asked, waiting, responders, network⟩ := system
  obtain rfl : asked = some query := asks
  rfl

theorem step_progress {responder : R} {event : E} (found : system.responders peer = some responder) :
    protocol.step system (.progress peer event) =
      { system with
        responders := Function.update system.responders peer (protocol.advance peer responder event) } := by
  unfold step
  dsimp only
  rw [found]

theorem receive_request {responder : R} (found : system.responders peer = some responder) :
    protocol.receive system (.request peer query) =
      if protocol.ready peer responder query then protocol.serve system peer query responder else system := by
  unfold receive
  dsimp only
  rw [found]

theorem receive_ack {received : Q} (asks : system.query = some query) :
    protocol.receive system (.ack peer received) =
      if peer ∉ system.waiting then system
      else if protocol.accepts query received then
        { system with waiting := system.waiting.erase peer, network := system.network.erase (.ack peer received) }
      else { system with query := none, network := system.network.erase (.ack peer received) } := by
  obtain ⟨asked, waiting, responders, network⟩ := system
  obtain rfl : asked = some query := asks
  rfl

end Step

def CanAck (protocol : Protocol P Q R E) (peer : P) (responder : R) (query : Q) : Prop :=
  ∃ (events : List E) (later after : R), events.foldlM (protocol.advance peer) responder = some later ∧
    protocol.ready peer later query = true ∧ protocol.handle peer later query = some (after, true)

def Answerable (protocol : Protocol P Q R E) (system : System P Q R) (peer : P) (query : Q) : Prop :=
  (∃ received, protocol.accepts query received = true ∧ .ack peer received ∈ system.network) ∨
    ∃ responder, system.responders peer = some responder ∧ protocol.CanAck peer responder query

/-- No process has ended, and no peer is waited for in vain. -/
structure Safe (protocol : Protocol P Q R E) (system : System P Q R) : Prop where
  requester : system.query ≠ none
  responders : ∀ peer, system.responders peer ≠ none
  answerable : ∀ query, system.query = some query → ∀ peer ∈ system.waiting, protocol.Answerable system peer query

end Protocol

/-- How far a peer is with a query: it has still to handle it, or it has nothing more to do for it. `repeats`
marks the queries that are acknowledged however often they are delivered, `timely` and `fits` say when a
delivery and a step of a peer do no harm, and `stamp` grows with every query. -/
structure Rules (P Q R E : Type) where
  Await : Q → P → R → Prop
  Done : Q → P → R → Prop
  repeats : Q → Prop
  timely : Q → P → R → Prop
  fits : Q → P → R → E → Prop
  stamp : Q → Int

variable {protocol : Protocol P Q R E} {rules : Rules P Q R E}

structure Rules.Lawful [DecidableEq P] (rules : Rules P Q R E) (protocol : Protocol P Q R E) : Prop where
  accepts : ∀ query, protocol.accepts query query = true
  stamp : ∀ query, rules.stamp query < rules.stamp (protocol.next query)
  handle : ∀ query peer responder, peer ∈ protocol.peers query → rules.Await query peer responder →
    rules.timely query peer responder → protocol.ready peer responder query = true →
    ∃ after, protocol.handle peer responder query = some (after, true) ∧ rules.Done query peer after
  again : ∀ query peer responder, peer ∈ protocol.peers query → rules.Done query peer responder →
    protocol.ready peer responder query = true →
    ∃ after acked, protocol.handle peer responder query = some (after, acked) ∧ rules.Done query peer after
  next : ∀ query peer responder, rules.Done query peer responder →
    if peer ∈ protocol.peers (protocol.next query) then rules.Await (protocol.next query) peer responder
    else rules.Done (protocol.next query) peer responder
  await_advance : ∀ query peer responder event, rules.Await query peer responder →
    rules.fits query peer responder event →
    ∃ after, protocol.advance peer responder event = some after ∧ rules.Await query peer after
  done_advance : ∀ query peer responder event, rules.Done query peer responder →
    rules.fits query peer responder event →
    ∃ after, protocol.advance peer responder event = some after ∧ rules.Done query peer after
  await_acks : ∀ query peer responder, peer ∈ protocol.peers query → rules.Await query peer responder →
    protocol.CanAck peer responder query
  repeat_acks : ∀ query peer responder, peer ∈ protocol.peers query → rules.repeats query →
    rules.Done query peer responder → protocol.CanAck peer responder query

/-- A query is delivered only while it is the current one, and in time; the requester receives no
acknowledgement of an earlier query; and an acknowledgement that is waited for is lost only if there is
another copy of it, or the query is acknowledged again. -/
def Rules.Allowed [DecidableEq P] [DecidableEq Q] (rules : Rules P Q R E) (system : System P Q R) : Event P Q E → Prop
  | .deliver (.request peer query) => .request peer query ∈ system.network →
    system.query = some query ∧ ∀ responder, system.responders peer = some responder →
      rules.timely query peer responder
  | .deliver (.ack peer query) => .ack peer query ∈ system.network → peer ∈ system.waiting → system.query = some query
  | .lose (.ack peer query) => .ack peer query ∈ system.network → peer ∈ system.waiting → system.query = some query →
    rules.repeats query ∨ 2 ≤ system.network.count (.ack peer query)
  | .progress peer event => ∀ query responder, system.query = some query → system.responders peer = some responder →
    rules.fits query peer responder event
  | _ => True

/-- A peer has nothing more to do for the query, and its acknowledgement has been received or still can be;
or it is waited for and has still to handle the query. -/
def Rules.Served (rules : Rules P Q R E) (system : System P Q R) (query : Q) (peer : P) (responder : R) : Prop :=
  rules.Done query peer responder ∧ (peer ∈ system.waiting → rules.repeats query ∨ .ack peer query ∈ system.network) ∨
    peer ∈ system.waiting ∧ rules.Await query peer responder

structure Rules.Inv (rules : Rules P Q R E) (protocol : Protocol P Q R E) (system : System P Q R)
    (query : Q) : Prop where
  asks : system.query = some query
  waiting : system.waiting ⊆ protocol.peers query
  served : ∀ peer, ∃ responder, system.responders peer = some responder ∧ rules.Served system query peer responder
  acks : ∀ peer received, .ack peer received ∈ system.network → rules.stamp received ≤ rules.stamp query ∧
    (received = query → ∀ responder, system.responders peer = some responder → rules.Done query peer responder)
  requests : ∀ peer sent, .request peer sent ∈ system.network → peer ∈ protocol.peers sent

variable {system : System P Q R} {query : Q}

theorem Rules.Inv.safe [DecidableEq P] (lawful : rules.Lawful protocol) (inv : rules.Inv protocol system query) :
    protocol.Safe system := by
  refine ⟨by rw [inv.asks]; simp, ?_, ?_⟩
  · intro peer
    obtain ⟨responder, found, _⟩ := inv.served peer
    simp [found]
  · intro current isQuery peer waits
    cases inv.asks.symm.trans isQuery
    obtain ⟨responder, found, ⟨done, answered⟩ | ⟨_, await⟩⟩ := inv.served peer
    · rcases answered waits with again | inFlight
      · exact Or.inr ⟨responder, found, lawful.repeat_acks query peer responder (inv.waiting waits) again done⟩
      · exact Or.inl ⟨query, lawful.accepts query, inFlight⟩
    · exact Or.inr ⟨responder, found, lawful.await_acks query peer responder (inv.waiting waits) await⟩

/-- A step that changes only the network keeps the invariant if every message was there before or is a
query for a peer, and no acknowledgement that is waited for has gone. -/
theorem Rules.Inv.network (inv : rules.Inv protocol system query) {network : List (Message P Q)}
    (acks : ∀ peer received, .ack peer received ∈ network → .ack peer received ∈ system.network)
    (requests : ∀ peer sent, .request peer sent ∈ network → peer ∈ protocol.peers sent)
    (kept : ∀ peer ∈ system.waiting, .ack peer query ∈ system.network → rules.repeats query ∨
      .ack peer query ∈ network) :
    rules.Inv protocol { system with network } query := by
  refine ⟨inv.asks, inv.waiting, ?_, ?_, requests⟩
  · intro peer
    obtain ⟨responder, found, served⟩ := inv.served peer
    refine ⟨responder, found, served.imp_left fun ⟨done, answered⟩ => ⟨done, fun waits => ?_⟩⟩
    rcases answered waits with again | inFlight
    · exact Or.inl again
    · exact kept peer waits inFlight
  · exact fun peer received inFlight => inv.acks peer received (acks peer received inFlight)

/-- One peer takes a step; the only acknowledgement it can add is its own, of the current query. -/
theorem Rules.Inv.respond [DecidableEq P] (inv : rules.Inv protocol system query) {peer : P} {responder after : R}
    {network : List (Message P Q)} (found : system.responders peer = some responder)
    (kept : ∀ other received, .ack other received ∈ system.network → .ack other received ∈ network)
    (added : ∀ other received, .ack other received ∈ network →
      .ack other received ∈ system.network ∨ other = peer ∧ received = query ∧ rules.Done query peer after)
    (requests : ∀ other sent, .request other sent ∈ network → .request other sent ∈ system.network)
    (served : rules.Served { system with network } query peer after)
    (done : rules.Done query peer responder → rules.Done query peer after) :
    rules.Inv protocol
      { system with responders := Function.update system.responders peer (some after), network } query := by
  refine ⟨inv.asks, inv.waiting, ?_, ?_, fun other sent inFlight => inv.requests other sent
    (requests other sent inFlight)⟩
  · intro other
    by_cases same : other = peer
    · subst same
      exact ⟨after, Function.update_self .., served⟩
    · obtain ⟨known, isKnown, served⟩ := inv.served other
      refine ⟨known, (Function.update_of_ne same _ _).trans isKnown, served.imp_left ?_⟩
      exact fun ⟨isDone, answered⟩ => ⟨isDone, fun waits => (answered waits).imp_right (kept other query)⟩
  · intro other received inFlight
    by_cases same : other = peer
    · subst same
      rcases added other received inFlight with old | ⟨_, rfl, isDone⟩
      · obtain ⟨bound, current⟩ := inv.acks other received old
        refine ⟨bound, fun isQuery known isKnown => ?_⟩
        cases (Function.update_self ..).symm.trans isKnown
        exact done (current isQuery responder found)
      · refine ⟨le_refl _, fun _ known isKnown => ?_⟩
        cases (Function.update_self ..).symm.trans isKnown
        exact isDone
    · rcases added other received inFlight with old | ⟨isPeer, _⟩
      · obtain ⟨bound, current⟩ := inv.acks other received old
        exact ⟨bound, fun isQuery known isKnown =>
          current isQuery known ((Function.update_of_ne same _ _).symm.trans isKnown)⟩
      · exact absurd isPeer same

section Steps

variable [DecidableEq P] [DecidableEq Q]

section

variable (inv : rules.Inv protocol system query)
include inv

theorem Rules.Inv.send (peer : P) :
    rules.Inv protocol (protocol.step system (.send peer)) query := by
  rw [Protocol.step_send inv.asks]
  split
  · rename_i waits
    refine inv.network ?_ ?_ ?_
    · intro other received inFlight
      simpa using inFlight
    · intro other sent inFlight
      rcases List.mem_cons.mp inFlight with new | old
      · cases new
        exact inv.waiting waits
      · exact inv.requests other sent old
    · exact fun other _ inFlight => Or.inr (List.mem_cons_of_mem _ inFlight)
  · exact inv

theorem Rules.Inv.lose {message : Message P Q}
    (allowed : rules.Allowed system (.lose message : Event P Q E)) :
    rules.Inv protocol (protocol.step system (.lose message)) query := by
  refine inv.network (fun _ _ => List.mem_of_mem_erase)
    (fun peer sent inFlight => inv.requests peer sent (List.mem_of_mem_erase inFlight)) ?_
  intro peer waits inFlight
  by_cases same : Message.ack peer query = message
  · subst same
    rcases allowed inFlight waits inv.asks with again | copies
    · exact Or.inl again
    · right
      rw [← List.count_pos_iff, List.count_erase_self]
      omega
  · exact Or.inr ((List.mem_erase_of_ne same).mpr inFlight)

theorem Rules.Inv.duplicate (message : Message P Q) :
    rules.Inv protocol (protocol.step system (.duplicate message)) query := by
  unfold Protocol.step
  dsimp only
  split
  · rename_i inFlight
    have old : ∀ other ∈ message :: system.network, other ∈ system.network := by
      simp [inFlight]
    exact inv.network (fun _ _ => old _) (fun peer sent there => inv.requests peer sent (old _ there))
      fun _ _ there => Or.inr (List.mem_cons_of_mem _ there)
  · exact inv

theorem Rules.Inv.serve {peer : P} {responder after : R} {acked : Bool}
    (found : system.responders peer = some responder)
    (handled : protocol.handle peer responder query = some (after, acked)) (done : rules.Done query peer after)
    (answered : acked = true ∨ (peer ∈ system.waiting → rules.repeats query ∨ .ack peer query ∈ system.network)) :
    rules.Inv protocol (protocol.serve system peer query responder) query := by
  have kept : ∀ other received, Message.ack other received ∈ system.network →
      Message.ack other received ∈ (if acked then [.ack peer query] else []) ++
        system.network.erase (.request peer query) := by
    intro other received inFlight
    exact List.mem_append_right _ ((List.mem_erase_of_ne (by simp)).mpr inFlight)
  unfold Protocol.serve
  rw [handled]
  refine inv.respond found kept ?_ ?_ (Or.inl ⟨done, fun waits => ?_⟩) fun _ => done
  · intro other received inFlight
    rcases List.mem_append.mp inFlight with new | old
    · right
      cases acked <;> simp_all
    · exact Or.inl (List.mem_of_mem_erase old)
  · intro other sent inFlight
    rcases List.mem_append.mp inFlight with new | old
    · cases acked <;> simp at new
    · exact List.mem_of_mem_erase old
  · rcases answered with acks | answered
    · simp [acks]
    · exact (answered waits).imp_right (kept peer query)

end

section

variable (lawful : rules.Lawful protocol)
include lawful

theorem Rules.Inv.deliver_request (inv : rules.Inv protocol system query) {peer : P}
    {sent : Q} (inFlight : .request peer sent ∈ system.network)
    (allowed : rules.Allowed system (.deliver (.request peer sent) : Event P Q E)) :
    rules.Inv protocol (protocol.receive system (.request peer sent)) query := by
  obtain ⟨current, timely⟩ := allowed inFlight
  cases inv.asks.symm.trans current
  have member := inv.requests peer query inFlight
  obtain ⟨responder, found, served⟩ := inv.served peer
  rw [Protocol.receive_request found]
  split
  · rename_i ready
    rcases served with ⟨done, answered⟩ | ⟨_, await⟩
    · obtain ⟨after, acked, handled, still⟩ := lawful.again query peer responder member done ready
      exact inv.serve found handled still (Or.inr answered)
    · obtain ⟨after, handled, done⟩ := lawful.handle query peer responder member await (timely responder found) ready
      exact inv.serve found handled done (Or.inl rfl)
  · exact inv

theorem Rules.Inv.deliver_ack (inv : rules.Inv protocol system query) {peer : P}
    {received : Q} (inFlight : .ack peer received ∈ system.network)
    (allowed : rules.Allowed system (.deliver (.ack peer received) : Event P Q E)) :
    rules.Inv protocol (protocol.receive system (.ack peer received)) query := by
  rw [Protocol.receive_ack inv.asks]
  by_cases waits : peer ∈ system.waiting
  · cases inv.asks.symm.trans (allowed inFlight waits)
    rw [if_neg (not_not.mpr waits), if_pos (lawful.accepts query)]
    refine ⟨inv.asks, (Finset.erase_subset _ _).trans inv.waiting, ?_, ?_, ?_⟩
    · intro other
      obtain ⟨responder, found, served⟩ := inv.served other
      refine ⟨responder, found, ?_⟩
      by_cases same : other = peer
      · subst same
        refine Or.inl ⟨(inv.acks other query inFlight).2 rfl responder found, fun still => ?_⟩
        exact absurd still (Finset.notMem_erase other _)
      · have stays : other ∈ system.waiting.erase peer ↔ other ∈ system.waiting := by simp [same]
        unfold Rules.Served
        dsimp only
        rw [stays]
        refine served.imp_left fun ⟨done, answered⟩ => ⟨done, fun waits => (answered waits).imp_right fun there => ?_⟩
        exact (List.mem_erase_of_ne (by simp [same])).mpr there
    · exact fun other received there => inv.acks other received (List.mem_of_mem_erase there)
    · exact fun other sent there => inv.requests other sent (List.mem_of_mem_erase there)
  · rw [if_pos waits]
    exact inv

theorem Rules.Inv.join (inv : rules.Inv protocol system query) :
    ∃ query, rules.Inv protocol (protocol.step system .join) query := by
  rw [Protocol.step_join inv.asks]
  split
  · rename_i finished
    refine ⟨protocol.next query, rfl, Finset.Subset.refl _, ?_, ?_, inv.requests⟩
    · intro peer
      obtain ⟨responder, found, served⟩ := inv.served peer
      refine ⟨responder, found, ?_⟩
      have done : rules.Done query peer responder := by
        rcases served with ⟨done, _⟩ | ⟨waits, _⟩
        · exact done
        · rw [finished] at waits
          exact absurd waits (Finset.notMem_empty peer)
      have next := lawful.next query peer responder done
      split at next
      · rename_i member
        exact Or.inr ⟨member, next⟩
      · rename_i absent
        exact Or.inl ⟨next, fun waits => absurd waits absent⟩
    · intro peer received inFlight
      have bound := (inv.acks peer received inFlight).1
      have later := lawful.stamp query
      refine ⟨by omega, fun same => ?_⟩
      subst same
      omega
  · exact ⟨query, inv⟩

theorem Rules.Inv.progress (inv : rules.Inv protocol system query)
    {peer : P} {event : E} (allowed : rules.Allowed system (.progress peer event)) :
    rules.Inv protocol (protocol.step system (.progress peer event)) query := by
  obtain ⟨responder, found, served⟩ := inv.served peer
  have fits := allowed query responder inv.asks found
  have stays : ∃ after, protocol.advance peer responder event = some after ∧ rules.Served system query peer after ∧
      (rules.Done query peer responder → rules.Done query peer after) := by
    by_cases done : rules.Done query peer responder
    · obtain ⟨after, ran, still⟩ := lawful.done_advance query peer responder event done fits
      refine ⟨after, ran, ?_, fun _ => still⟩
      rcases served with ⟨_, answered⟩ | ⟨waits, await⟩
      · exact Or.inl ⟨still, answered⟩
      · obtain ⟨other, again, still⟩ := lawful.await_advance query peer responder event await fits
        cases again.symm.trans ran
        exact Or.inr ⟨waits, still⟩
    · rcases served with ⟨isDone, _⟩ | ⟨waits, await⟩
      · exact absurd isDone done
      · obtain ⟨after, ran, still⟩ := lawful.await_advance query peer responder event await fits
        exact ⟨after, ran, Or.inr ⟨waits, still⟩, fun isDone => absurd isDone done⟩
  obtain ⟨after, ran, still, keepsDone⟩ := stays
  rw [Protocol.step_progress found, ran]
  exact inv.respond found (fun _ _ there => there) (fun _ _ there => Or.inl there)
    (fun _ _ there => there) still keepsDone

theorem Rules.Inv.step (inv : rules.Inv protocol system query) {event : Event P Q E}
    (allowed : rules.Allowed system event) : ∃ query, rules.Inv protocol (protocol.step system event) query := by
  cases event with
  | send peer => exact ⟨query, inv.send peer⟩
  | lose message => exact ⟨query, inv.lose allowed⟩
  | duplicate message => exact ⟨query, inv.duplicate message⟩
  | deliver message =>
    unfold Protocol.step
    dsimp only
    split
    · rename_i inFlight
      cases message with
      | request peer sent => exact ⟨query, inv.deliver_request lawful inFlight allowed⟩
      | ack peer received => exact ⟨query, inv.deliver_ack lawful inFlight allowed⟩
    · exact ⟨query, inv⟩
  | join => exact inv.join lawful
  | progress peer event => exact ⟨query, inv.progress lawful allowed⟩

end

end Steps

end Rounds
