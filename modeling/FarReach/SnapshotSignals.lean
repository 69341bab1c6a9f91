import FarReach.RequestRounds
import FarReach.ServerStages
import FarReach.SwitchosSnapshot

namespace FarReach

open Rounds Exchange

/-- Those the controller sends its requests to. -/
inductive Peer (I : Type) where
  | switchos
  | server (globalServerLogicalIdx : I)
  deriving DecidableEq

inductive Responder where
  | switchos (state : SwitchosSnapshot) (exchange : Exchange)
  | server (node : ServerNode)

inductive ResponderEvent where
  | switchos (event : ExchangeEvent)
  | server (event : ServerEvent)

namespace Responder

def ready : Responder → Signal → Bool
  | switchos state exchange, signal => state.ready exchange signal
  | server node, signal => node.ready signal

def handle : Responder → Signal → Option (Responder × Bool)
  | switchos state exchange, signal =>
    (state.snapshotserver exchange signal).map fun (after, ack) =>
      (switchos after (exchange.handled signal), ack.isSome)
  | server node, signal => (node.handle signal).map fun (after, acked) => (server after, acked)

def advance : Responder → ResponderEvent → Option Responder
  | switchos state exchange, .switchos event => some (switchos state (exchange.advance state.signal event))
  | server node, .server event => (node.advance event).map server
  | responder, _ => some responder

end Responder

section Protocol

variable (I : Type) [Fintype I] [DecidableEq I]

/-- `run_controller_snapshotclient` sends `SNAPSHOT_CLEANUP` and `SNAPSHOT_START` to everyone, the data to the
servers and everything else to `switchos`. -/
def peers (signal : Signal) : Finset (Peer I) :=
  match signal.1 with
  | .cleanup => insert .switchos (Finset.univ.image .server)
  | .prepare => {.switchos}
  | .setflag => {.switchos}
  | .start => insert .switchos (Finset.univ.image .server)
  | .getdata => {.switchos}
  | .senddata => Finset.univ.image .server

end Protocol

/-- The snapshot client of the controller with its sub-threads, `switchos` and the servers. Of an
acknowledgement only the control type is checked, not the snapshot id. -/
def snapshotProtocol (I : Type) [Fintype I] [DecidableEq I] : Protocol (Peer I) Signal Responder ResponderEvent where
  peers := peers I
  next := nextSignal
  accepts awaited received := awaited.1 = received.1
  ready _ := Responder.ready
  handle _ := Responder.handle
  advance _ := Responder.advance

namespace Signalling

open ServerNode

def switchosAwaits : Signal → SwitchosSnapshot → Prop
  | (.cleanup, _), state => state.Sound
  | (.prepare, n), state => state.Cleaned ∧ state.signal = some (.cleanup, n)
  | (.setflag, n), state => state.Cleaned ∧ state.signal = some (.prepare, n)
  | (.start, n), state => state.Cleaned ∧ state.signal = some (.setflag, n)
  | (.getdata, n), state => state.Started ∧ state.signal = some (.start, n)
  | (.senddata, _), _ => False

def switchosDone : Signal → SwitchosSnapshot → Prop
  | (.cleanup, n), state => state.Cleaned ∧ state.signal = some (.cleanup, n)
  | (.prepare, n), state => state.Cleaned ∧ state.signal = some (.prepare, n)
  | (.setflag, n), state => state.Cleaned ∧ state.signal = some (.setflag, n)
  | (.start, n), state => state.Started ∧ state.signal = some (.start, n)
  | (.getdata, n), state => state.Sound ∧ state.signal = some (.getdata, n)
  | (.senddata, _), state => state.Sound

/-- ptf answers, and no check can end the loads of `SNAPSHOT_START`, if they have begun. -/
structure ExchangeAwaits (query : Signal) (exchange : Exchange) : Prop where
  ptf : exchange.ptf = true
  sane : exchange.Sane
  idle : query.1 ≠ .start → exchange.loads = none

structure ExchangeDone (exchange : Exchange) : Prop where
  ptf : exchange.ptf = true
  idle : exchange.loads = none

/-- ptf answers, and the loads, which begin when `SNAPSHOT_START` has arrived, meet only what is for the
backed-up slots. -/
def ExchangeFits (query : Signal) (exchange : Exchange) : ExchangeEvent → Prop
  | .ptf answers => answers = true
  | .begin network => query.1 = .start ∧ Addressed exchange.backup network
  | _ => True

def serverAwaits : Signal → ServerNode → Prop
  | (.cleanup, n), node => Past (n - 1) node
  | (.start, n), node => Cleaned n node
  | (.senddata, n), node => Started n node
  | _, _ => False

def serverDone : Signal → ServerNode → Prop
  | (.cleanup, n), node => Cleaned n node ∧ node.threads.view.snapshottoken < n
  | (.prepare, n), node => Cleaned n node
  | (.setflag, n), node => Cleaned n node
  | (.start, n), node => Started n node
  | (.getdata, n), node => Started n node
  | (.senddata, n), node => Sent n node

/-- The newest token that packets can have: `SNAPSHOT_SETFLAG` comes behind every cleanup. -/
def newestToken : Signal → Int
  | (.cleanup, n) => n - 1
  | (_, n) => n

def rank : ControlType → Int
  | .cleanup => 0
  | .prepare => 1
  | .setflag => 2
  | .start => 3
  | .getdata => 4
  | .senddata => 5

/-- A server is not to get the next cleanup before it is done with its data. -/
def rules (I : Type) : Rules (Peer I) Signal Responder ResponderEvent where
  Await query peer responder :=
    match peer, responder with
    | .switchos, .switchos state exchange => switchosAwaits query state ∧ ExchangeAwaits query exchange
    | .server _, .server node => serverAwaits query node
    | _, _ => False
  Done query peer responder :=
    match peer, responder with
    | .switchos, .switchos state exchange => switchosDone query state ∧ ExchangeDone exchange
    | .server _, .server node => serverDone query node
    | _, _ => False
  repeats query := query.1 = .cleanup
  timely query _ responder :=
    match responder with
    | .switchos _ _ => True
    | .server node => query.1 = .cleanup → node.stage = .free
  fits query _ responder event :=
    match responder, event with
    | .switchos _ exchange, .switchos event => ExchangeFits query exchange event
    | .server node, .server event => node.Fits (newestToken query) event
    | _, _ => True
  stamp query := 6 * query.2 + rank query.1

variable {I : Type} [Fintype I] [DecidableEq I]

section Switchos

variable {query : Signal} {state : SwitchosSnapshot} {exchange : Exchange}

theorem switchos_handle (awaits : switchosAwaits query state) (ptf : exchange.ptf = true)
    (loaded : exchange.loaded = true) :
    ∃ after, state.snapshotserver exchange query = some (after, some query) ∧ switchosDone query after := by
  obtain ⟨kind, n⟩ := query
  cases kind with
  | cleanup =>
    obtain ⟨after, ran, cleaned, signal⟩ := state.snapshotserver_cleanup awaits ptf n
    exact ⟨after, ran, cleaned, signal⟩
  | prepare =>
    obtain ⟨cleaned, signal⟩ := awaits
    exact ⟨{ state with signal := some (.prepare, n) }, by simp [SwitchosSnapshot.snapshotserver, signal, ptf],
      { cleaned with }, rfl⟩
  | setflag =>
    obtain ⟨cleaned, signal⟩ := awaits
    exact ⟨{ state with signal := some (.setflag, n) }, by simp [SwitchosSnapshot.snapshotserver, signal, ptf],
      { cleaned with }, rfl⟩
  | start =>
    obtain ⟨cleaned, signal⟩ := awaits
    exact state.snapshotserver_start cleaned (by rw [signal]; simp) ptf loaded
  | getdata =>
    obtain ⟨started, signal⟩ := awaits
    exact state.snapshotserver_getdata started (by rw [signal]; simp) ptf
  | senddata => exact awaits.elim

theorem switchos_again (done : switchosDone query state) (gets : query.1 ≠ .senddata) (ptf : exchange.ptf = true) :
    ∃ after ack, state.snapshotserver exchange query = some (after, ack) ∧ switchosDone query after ∧
      (query.1 = .cleanup → ack = some query) := by
  by_cases cleanup : query.1 = .cleanup
  · obtain ⟨kind, n⟩ := query
    cases cleanup
    obtain ⟨after, ran, cleaned, signal⟩ := state.snapshotserver_cleanup done.1.sound ptf n
    exact ⟨after, _, ran, ⟨cleaned, signal⟩, fun _ => rfl⟩
  · have seen : state.signal = some query := by
      obtain ⟨kind, n⟩ := query
      cases kind with
      | senddata => exact absurd rfl gets
      | _ => exact done.2
    exact ⟨state, none, state.snapshotserver_repeated seen cleanup, done, fun isCleanup => absurd isCleanup cleanup⟩

/-- A signal that can be handled finds its loads at their end. -/
theorem ExchangeAwaits.loaded (awaits : ExchangeAwaits query exchange) (ready : state.ready exchange query = true) :
    exchange.loaded = true := by
  refine awaits.sane.loaded ?_
  unfold SwitchosSnapshot.ready at ready
  split at ready
  · simpa using (Bool.and_eq_true_iff.mp ready).2
  · rename_i idle
    have idle : exchange.loads = none := by simpa using idle
    unfold loading
    rw [idle]
    rfl

theorem ExchangeAwaits.advance {event : ExchangeEvent} (awaits : ExchangeAwaits query exchange)
    (fits : ExchangeFits query exchange event) (signal : Option Signal) :
    ExchangeAwaits query (exchange.advance signal event) := by
  cases event with
  | ptf answers => exact ⟨fits, awaits.sane, awaits.idle⟩
  | cache cached => exact ⟨awaits.ptf, awaits.sane, awaits.idle⟩
  | begin network =>
    unfold Exchange.advance
    dsimp only
    split
    · exact ⟨awaits.ptf, sane_loadsOf fits.2, fun other => absurd fits.1 other⟩
    · exact awaits
  | load events =>
    refine ⟨awaits.ptf, ?_, fun other => by simp [Exchange.advance, awaits.idle other]⟩
    have sane := awaits.sane
    unfold Sane Exchange.advance at *
    cases found : exchange.loads with
    | none => simp
    | some loads =>
      rw [found] at sane
      exact sane_goOn sane events

/-- Behind its acknowledgement `SNAPSHOT_START` does not load again. -/
theorem ExchangeDone.advance {event : ExchangeEvent} (done : switchosDone query state) (rests : ExchangeDone exchange)
    (fits : ExchangeFits query exchange event) : ExchangeDone (exchange.advance state.signal event) := by
  cases event with
  | ptf answers => exact ⟨fits, rests.idle⟩
  | cache cached => exact ⟨rests.ptf, rests.idle⟩
  | begin network =>
    have started : state.signal.map Prod.fst ≠ some .setflag := by
      obtain ⟨kind, n⟩ := query
      cases fits.1
      rw [done.2]
      simp
    unfold Exchange.advance
    dsimp only
    rw [if_neg fun both => started both.2]
    exact rests
  | load events => exact ⟨rests.ptf, by simp [Exchange.advance, rests.idle]⟩

theorem ExchangeDone.awaits (rests : ExchangeDone exchange) (query : Signal) : ExchangeAwaits query exchange :=
  ⟨rests.ptf, sane_of_none rests.idle, fun _ => rests.idle⟩

theorem ExchangeAwaits.handled (awaits : ExchangeAwaits query exchange) : ExchangeDone (exchange.handled query) :=
  ⟨awaits.ptf, rfl⟩

theorem ready_of_none (idle : exchange.loads = none) (other : query.1 ≠ .start) :
    state.ready exchange query = true := by
  simp [SwitchosSnapshot.ready, idle, other]

/-- The loads of `SNAPSHOT_START` can end, and it can be acknowledged. -/
theorem start_loads {n : Int} (awaits : ExchangeAwaits (.start, n) exchange)
    (signal : state.signal = some (.setflag, n)) :
    ∃ events : List ExchangeEvent, ∃ later : Exchange,
      events.foldl (Exchange.advance · state.signal) exchange = later ∧ later.ptf = true ∧ later.loaded = true ∧
        state.ready later (.start, n) = true := by
  have ends : ∀ begun : Exchange, begun.ptf = true → begun.Sane → begun.loads ≠ none →
      ∃ events : List ExchangeEvent, ∃ later : Exchange, events.foldl (Exchange.advance · state.signal)
        begun = later ∧
        later.ptf = true ∧ later.loaded = true ∧ state.ready later (.start, n) = true := by
    intro begun ptf sane going
    obtain ⟨loads, found⟩ := Option.ne_none_iff_exists'.mp going
    unfold Sane at sane
    rw [found] at sane
    obtain ⟨events, loaded⟩ := completes sane
    refine ⟨[.load events], _, rfl, ptf, ?_, ?_⟩
    · simpa [Exchange.advance, Exchange.loaded, found] using loaded
    · simp [SwitchosSnapshot.ready, Exchange.advance, loading, found]
      intro backup load member
      rw [loaded _ member]
      simp
  cases found : exchange.loads with
  | some loads => exact ends exchange awaits.ptf awaits.sane (by simp [found])
  | none =>
    let begun : Exchange := { exchange with loads := some (loadsOf exchange.backup fun _ => ⟨[], []⟩) }
    have begins : exchange.advance state.signal (.begin fun _ => ⟨[], []⟩) = begun :=
      if_pos ⟨by simp [found], by simp [signal]⟩
    have addressed : Addressed exchange.backup fun _ => ⟨[], []⟩ :=
      fun _ _ _ => Or.inr ⟨by simp, by simp⟩
    obtain ⟨events, later, ran, good⟩ := ends begun awaits.ptf (sane_loadsOf addressed) (by simp [begun])
    refine ⟨.begin (fun _ => ⟨[], []⟩) :: events, later, ?_, good⟩
    rw [List.foldl_cons, begins]
    exact ran

theorem switchos_next (done : switchosDone query state) :
    if (.switchos : Peer I) ∈ peers I (nextSignal query) then switchosAwaits (nextSignal query) state
    else switchosDone (nextSignal query) state := by
  obtain ⟨kind, n⟩ := query
  cases kind with
  | getdata =>
    rw [if_neg (by simp [nextSignal, peers])]
    exact done.1
  | _ =>
    rw [if_pos (by simp [nextSignal, peers])]
    exact done

end Switchos

section Server

variable {query : Signal} {node : ServerNode}

theorem server_handle (awaits : serverAwaits query node) (timely : query.1 = .cleanup → node.stage = .free) :
    ∃ after, node.handle query = some (after, true) ∧ serverDone query after := by
  obtain ⟨kind, n⟩ := query
  cases kind with
  | cleanup =>
    have idle : Idle (n - 1) node := by
      rcases awaits with receiving | updated | idle
      · cases receiving.stage.symm.trans (timely rfl)
      · cases updated.stage.symm.trans (timely rfl)
      · exact idle
    have cleans := idle.cleanup
    rwa [Int.sub_add_cancel] at cleans
  | start => exact awaits.start
  | senddata =>
    obtain ⟨after, ran, receiving⟩ := awaits.senddata
    exact ⟨after, ran, Or.inl receiving⟩
  | _ => exact awaits.elim

theorem server_again (done : serverDone query node)
    (member : query.1 = .cleanup ∨ query.1 = .start ∨ query.1 = .senddata) :
    ∃ after acked, node.handle query = some (after, acked) ∧ serverDone query after ∧
      (query.1 = .cleanup → acked = true) := by
  obtain ⟨kind, n⟩ := query
  rcases member with cleanup | start | senddata
  · cases cleanup
    obtain ⟨cleaned, older⟩ := done
    obtain ⟨after, ran, again⟩ := handle_cleanup cleaned.within cleaned.stage cleaned.snapshotid older cleaned.data
    exact ⟨after, true, ran, again, fun _ => rfl⟩
  · cases start
    exact ⟨node, false, done.again, done, by simp⟩
  · cases senddata
    have seen : node.threads.dataSignal = some (.senddata, n) := by
      rcases done with receiving | updated | ⟨_, data⟩
      · exact receiving.data
      · exact updated.data
      · exact data
    exact ⟨node, false, senddata_again seen, done, by simp⟩

theorem server_next {idx : I} (done : serverDone query node) :
    if (.server idx : Peer I) ∈ peers I (nextSignal query) then serverAwaits (nextSignal query) node
    else serverDone (nextSignal query) node := by
  obtain ⟨kind, n⟩ := query
  cases kind with
  | cleanup =>
    rw [if_neg (by simp [nextSignal, peers])]
    exact done.1
  | prepare =>
    rw [if_neg (by simp [nextSignal, peers])]
    exact done
  | setflag =>
    rw [if_pos (by simp [nextSignal, peers])]
    exact done
  | start =>
    rw [if_neg (by simp [nextSignal, peers])]
    exact done
  | getdata =>
    rw [if_pos (by simp [nextSignal, peers])]
    exact done
  | senddata =>
    rw [if_pos (by simp [nextSignal, peers])]
    show Past (n + 1 - 1) node
    rw [Int.add_sub_cancel]
    exact ServerNode.Sent.past done

theorem server_await_advance {event : ServerEvent} (awaits : serverAwaits query node)
    (fits : node.Fits (newestToken query) event) :
    ∃ after, node.advance event = some after ∧ serverAwaits query after := by
  obtain ⟨kind, n⟩ := query
  cases kind with
  | cleanup => exact ServerNode.Past.advance awaits fits (le_refl _)
  | start =>
    obtain ⟨after, ran, cleaned, _⟩ := ServerNode.Cleaned.advance awaits fits (le_refl _)
    exact ⟨after, ran, cleaned⟩
  | senddata => exact ServerNode.Started.advance awaits fits (le_refl _)
  | _ => exact awaits.elim

theorem server_done_advance {event : ServerEvent} (done : serverDone query node)
    (fits : node.Fits (newestToken query) event) :
    ∃ after, node.advance event = some after ∧ serverDone query after := by
  obtain ⟨kind, n⟩ := query
  have waits : ∀ node : ServerNode, node.Fits n event → Cleaned n node →
      ∃ after, node.advance event = some after ∧ Cleaned n after := by
    intro node fits cleaned
    obtain ⟨after, ran, still, _⟩ := cleaned.advance fits (le_refl n)
    exact ⟨after, ran, still⟩
  cases kind with
  | cleanup =>
    obtain ⟨cleaned, older⟩ := done
    obtain ⟨after, ran, still, token⟩ := cleaned.advance fits (show n - 1 ≤ n by omega)
    exact ⟨after, ran, still, token (show n - 1 < n by omega) older⟩
  | prepare => exact waits node fits done
  | setflag => exact waits node fits done
  | start => exact ServerNode.Started.advance done fits (le_refl _)
  | getdata => exact ServerNode.Started.advance done fits (le_refl _)
  | senddata => exact ServerNode.Sent.advance done fits (le_refl _)

end Server

/-- Servers get cleanups, starts and data. -/
theorem server_mem_peers {query : Signal} {idx : I} (member : .server idx ∈ peers I query) :
    query.1 = .cleanup ∨ query.1 = .start ∨ query.1 = .senddata := by
  obtain ⟨kind, n⟩ := query
  cases kind <;> simp_all [peers]

theorem switchos_mem_peers {query : Signal} (member : .switchos ∈ peers I query) : query.1 ≠ .senddata := by
  obtain ⟨kind, n⟩ := query
  cases kind <;> simp_all [peers]

theorem foldlM_server (events : List ServerEvent) (node : ServerNode) :
    (events.map .server).foldlM Responder.advance (.server node) =
      (events.foldlM ServerNode.advance node).map Responder.server := by
  induction events generalizing node with
  | nil => rfl
  | cons event rest ih =>
    simp only [List.map_cons, List.foldlM_cons, Responder.advance]
    cases node.advance event with
    | none => rfl
    | some after => exact ih after

theorem server_canAck {query : Signal} {idx : I} {node : ServerNode} (awaits : serverAwaits query node) :
    (snapshotProtocol I).CanAck (.server idx) (.server node) query := by
  obtain ⟨kind, n⟩ := query
  cases kind with
  | cleanup =>
    obtain ⟨events, later, ran, idle⟩ := ServerNode.Past.settles awaits
    obtain ⟨after, handled, _⟩ := @server_handle (.cleanup, n) later (Or.inr (Or.inr idle)) fun _ => idle.stage
    refine ⟨events.map .server, .server later, .server after, ?_, rfl, ?_⟩
    · exact (foldlM_server events node).trans (by rw [ran]; rfl)
    · show (later.handle _).map _ = _
      rw [handled]
      rfl
  | start =>
    obtain ⟨after, handled, _⟩ := ServerNode.Cleaned.start awaits
    refine ⟨[], .server node, .server after, rfl, rfl, ?_⟩
    show (node.handle _).map _ = _
    rw [handled]
    rfl
  | senddata =>
    obtain ⟨after, handled, _⟩ := ServerNode.Started.senddata awaits
    refine ⟨[], .server node, .server after, rfl, ?_, ?_⟩
    · simp [snapshotProtocol, Responder.ready, ServerNode.ready, ServerNode.Started.stage awaits]
    · show (node.handle _).map _ = _
      rw [handled]
      rfl
  | _ => exact awaits.elim

theorem foldlM_switchos (events : List ExchangeEvent) (state : SwitchosSnapshot) (exchange : Exchange) :
    (events.map .switchos).foldlM Responder.advance (.switchos state exchange) =
      some (.switchos state (events.foldl (Exchange.advance · state.signal) exchange)) := by
  induction events generalizing exchange with
  | nil => rfl
  | cons event rest ih => exact ih (exchange.advance state.signal event)

theorem switchos_canAck {query : Signal} {state : SwitchosSnapshot} {exchange : Exchange}
    (awaits : switchosAwaits query state) (exchanges : ExchangeAwaits query exchange) :
    (snapshotProtocol I).CanAck .switchos (.switchos state exchange) query := by
  have acks : ∀ later : Exchange, later.ptf = true → later.loaded = true → ∃ after,
      (snapshotProtocol I).handle .switchos (.switchos state later) query = some (after, true) := by
    intro later ptf loaded
    obtain ⟨after, ran, _⟩ := switchos_handle awaits ptf loaded
    exact ⟨.switchos after (later.handled query), by simp [snapshotProtocol, Responder.handle, ran]⟩
  by_cases start : query.1 = .start
  · obtain ⟨kind, n⟩ := query
    cases start
    obtain ⟨events, later, ran, ptf, loaded, ready⟩ := start_loads exchanges awaits.2
    obtain ⟨after, handled⟩ := acks later ptf loaded
    exact ⟨events.map .switchos, .switchos state later,
      after, by rw [← ran]; exact foldlM_switchos events state exchange, ready, handled⟩
  · have ready : state.ready exchange query = true := ready_of_none (exchanges.idle start) start
    obtain ⟨after, handled⟩ := acks exchange exchanges.ptf (exchanges.loaded ready)
    exact ⟨[], .switchos state exchange, after, rfl, ready, handled⟩

theorem lawful (I : Type) [Fintype I] [DecidableEq I] : (rules I).Lawful (snapshotProtocol I) where
  accepts query := by simp [snapshotProtocol]
  stamp query := by
    obtain ⟨kind, n⟩ := query
    cases kind <;> (simp only [snapshotProtocol, nextSignal, rules, rank]; omega)
  handle query peer responder member awaits timely ready := by
    cases peer <;> cases responder
    · rename_i state exchange
      obtain ⟨after, ran, done⟩ := switchos_handle awaits.1 awaits.2.ptf (awaits.2.loaded ready)
      exact ⟨.switchos after (exchange.handled query), by simp [snapshotProtocol, Responder.handle, ran], done,
        awaits.2.handled⟩
    · exact awaits.elim
    · exact awaits.elim
    · rename_i idx node
      obtain ⟨after, ran, done⟩ := server_handle awaits timely
      exact ⟨.server after, by simp [snapshotProtocol, Responder.handle, ran], done⟩
  again query peer responder member done ready := by
    cases peer <;> cases responder
    · rename_i state exchange
      obtain ⟨after, ack, ran, still, _⟩ := switchos_again done.1 (switchos_mem_peers member) done.2.ptf
      exact ⟨.switchos after (exchange.handled query), ack.isSome, by simp [snapshotProtocol, Responder.handle, ran],
        still, done.2.ptf, rfl⟩
    · exact done.elim
    · exact done.elim
    · rename_i idx node
      obtain ⟨after, acked, ran, still, _⟩ := server_again done (server_mem_peers member)
      exact ⟨.server after, acked, by simp [snapshotProtocol, Responder.handle, ran], still⟩
  next query peer responder done := by
    cases peer <;> cases responder
    · rename_i state exchange
      have next := @switchos_next I _ _ query state done.1
      show if (.switchos : Peer I) ∈ peers I (nextSignal query) then _ else _
      split
      · rename_i member
        rw [if_pos member] at next
        exact ⟨next, done.2.awaits _⟩
      · rename_i absent
        rw [if_neg absent] at next
        exact ⟨next, done.2⟩
    · exact done.elim
    · exact done.elim
    · exact server_next done
  await_advance query peer responder event awaits fits := by
    cases peer <;> cases responder <;> cases event
    · exact ⟨_, rfl, awaits.1, awaits.2.advance fits _⟩
    · exact ⟨_, rfl, awaits⟩
    · exact awaits.elim
    · exact awaits.elim
    · exact awaits.elim
    · exact awaits.elim
    · exact ⟨_, rfl, awaits⟩
    · obtain ⟨after, ran, still⟩ := server_await_advance awaits fits
      exact ⟨.server after, by simp [snapshotProtocol, Responder.advance, ran], still⟩
  done_advance query peer responder event done fits := by
    cases peer <;> cases responder <;> cases event
    · exact ⟨_, rfl, done.1, done.2.advance done.1 fits⟩
    · exact ⟨_, rfl, done⟩
    · exact done.elim
    · exact done.elim
    · exact done.elim
    · exact done.elim
    · exact ⟨_, rfl, done⟩
    · obtain ⟨after, ran, still⟩ := server_done_advance done fits
      exact ⟨.server after, by simp [snapshotProtocol, Responder.advance, ran], still⟩
  await_acks query peer responder member awaits := by
    cases peer <;> cases responder
    · exact switchos_canAck awaits.1 awaits.2
    · exact awaits.elim
    · exact awaits.elim
    · exact server_canAck awaits
  repeat_acks query peer responder member again done := by
    have cleanup : query.1 = .cleanup := again
    cases peer <;> cases responder
    · rename_i state exchange
      obtain ⟨after, ack, ran, _, acks⟩ := switchos_again done.1 (switchos_mem_peers member) done.2.ptf
      refine ⟨[], .switchos state exchange, .switchos after (exchange.handled query), rfl, ?_, ?_⟩
      · exact ready_of_none done.2.idle (by simp [cleanup])
      · simp [snapshotProtocol, Responder.handle, ran, acks again]
    · exact done.elim
    · exact done.elim
    · rename_i idx node
      obtain ⟨after, acked, ran, _, acks⟩ := server_again done (server_mem_peers member)
      refine ⟨[], .server node, .server after, rfl, ?_, ?_⟩
      · simp [snapshotProtocol, Responder.ready, ServerNode.ready, cleanup]
      · simp [snapshotProtocol, Responder.handle, ran, acks again]

/-- The controller is about to begin snapshot `n`. -/
def begin (n : Int) (switchos : SwitchosSnapshot) (exchange : Exchange) (servers : I → ServerNode) :
    System (Peer I) Signal Responder where
  query := some (.cleanup, n)
  waiting := peers I (.cleanup, n)
  responders peer :=
    match peer with
    | .switchos => some (.switchos switchos exchange)
    | .server idx => some (.server (servers idx))
  network := []

variable {n : Int} {switchos : SwitchosSnapshot} {exchange : Exchange} {servers : I → ServerNode}

theorem inv_begin (sound : switchos.Sound) (rests : ExchangeDone exchange)
    (idle : ∀ idx, Idle (n - 1) (servers idx)) :
    (rules I).Inv (snapshotProtocol I) (begin n switchos exchange servers) (.cleanup, n) := by
  refine ⟨rfl, Finset.Subset.refl _, ?_, ?_, ?_⟩
  · intro peer
    cases peer with
    | switchos => exact ⟨_, rfl, Or.inr ⟨by simp [begin, peers], sound, rests.awaits _⟩⟩
    | server idx => exact ⟨_, rfl, Or.inr ⟨by simp [begin, peers], Or.inr (Or.inr (idle idx))⟩⟩
  · exact fun _ _ inFlight => absurd inFlight (List.not_mem_nil)
  · exact fun _ _ inFlight => absurd inFlight (List.not_mem_nil)

def prepared : List (Event (Peer (Fin 1)) Signal ResponderEvent) :=
  [.send .switchos, .deliver (.request .switchos (.cleanup, 1)), .deliver (.ack .switchos (.cleanup, 1)),
    .send (.server 0), .deliver (.request (.server 0) (.cleanup, 1)),
    .deliver (.ack (.server 0) (.cleanup, 1)), .join, .send .switchos, .deliver (.request .switchos (.prepare, 1))]

end Signalling

end FarReach
