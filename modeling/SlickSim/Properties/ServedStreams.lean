import SlickSim.Gateway.TcpOrderGateway

/-!
# A connection's messages do not depend on its packets

What a venue's protocol is called with is a matter of each connection's stream as a whole,
from where it was opened, and of the order the responses were published in.
-/

set_option autoImplicit false

namespace SlickSim

variable {σ μ : Type}

inductive ProtocolCall (μ : Type) where
  | connect (connectionId : Int) (address : String)
  | disconnect (connectionId : Int)
  | message (connectionId : Int) (message : μ)
  | response (response : OrderResponse)
  | poll

/-- What a call does to the protocol's members. -/
def TcpProtocol.call (protocol : TcpProtocol σ μ) (state : σ) : ProtocolCall μ → σ
  | .connect connectionId address => protocol.onConnect connectionId address state
  | .disconnect connectionId => protocol.onDisconnect connectionId state
  | .message connectionId message => protocol.onMessage connectionId message state
  | .response response => protocol.onResponse response state
  | .poll => protocol.onPoll state

namespace ProtocolCall

def deliver (connectionId : Int) (messages : List μ) : ProtocolCall μ → List μ
  | .disconnect closed => if closed = connectionId then [] else messages
  | .message sender sent => if sender = connectionId then messages ++ [sent] else messages
  | _ => messages

/-- The messages of a connection since its number was last given up. -/
def delivered (calls : List (ProtocolCall μ)) (connectionId : Int) : List μ :=
  calls.foldl (deliver connectionId) []

def response? : ProtocolCall μ → Option OrderResponse
  | .response handled => some handled
  | _ => none

def responses (calls : List (ProtocolCall μ)) : List OrderResponse :=
  calls.filterMap response?

theorem delivered_append (calls more : List (ProtocolCall μ)) (connectionId : Int) :
    delivered (calls ++ more) connectionId = more.foldl (deliver connectionId) (delivered calls connectionId) :=
  List.foldl_append

theorem responses_append (calls more : List (ProtocolCall μ)) :
    responses (calls ++ more) = responses calls ++ responses more :=
  List.filterMap_append

end ProtocolCall

namespace TcpEvent

def receive (clientId : Int) (stream : List UInt8) : TcpEvent → List UInt8
  | .disconnected closed => if closed = clientId then [] else stream
  | .data sender bytes => if sender = clientId then stream ++ bytes else stream
  | _ => stream

def received (events : List TcpEvent) (clientId : Int) : List UInt8 :=
  events.foldl (receive clientId) []

def response? : TcpEvent → Option OrderResponse
  | .published response => some response
  | _ => none

def responses (events : List TcpEvent) : List OrderResponse :=
  events.filterMap response?

def await (waiting : Nat) : TcpEvent → Nat
  | .polled => waiting - TcpOrderGateway.maxResponsesPerPoll
  | .published _ => waiting + 1
  | _ => waiting

def backlog (events : List TcpEvent) : Nat :=
  events.foldl await 0

theorem received_append (events : List TcpEvent) (event : TcpEvent) (clientId : Int) :
    received (events ++ [event]) clientId = receive clientId (received events clientId) event :=
  List.foldl_concat ..

theorem responses_append (events more : List TcpEvent) :
    responses (events ++ more) = responses events ++ responses more :=
  List.filterMap_append

theorem backlog_append (events : List TcpEvent) (event : TcpEvent) :
    backlog (events ++ [event]) = await (backlog events) event :=
  List.foldl_concat ..

end TcpEvent

namespace TcpOrderGateway

open ProtocolCall TcpEvent

/-- Where a gateway is after some events, and what it has called its protocol with. -/
structure Served (protocol : TcpProtocol σ μ) (initial : σ) (earlier : List OrderResponse)
    (events : List TcpEvent) (calls : List (ProtocolCall μ)) (gateway : TcpOrderGateway σ) : Prop where
  state : gateway.state = calls.foldl protocol.call initial
  delivered : ∀ clientId, delivered calls clientId = protocol.framing.messages (received events clientId)
  pending : ∀ clientId,
    (gateway.pending clientId).getD [] = protocol.framing.rest (received events clientId)
  queue : gateway.responseQueue = earlier ++ TcpEvent.responses events
  handled : gateway.responseQueue.take gateway.responseCursor = earlier ++ ProtocolCall.responses calls
  backlog : gateway.responseQueue.length = gateway.responseCursor + backlog events

variable (protocol : TcpProtocol σ μ)

/-- A read of the queue takes what is there, up to the bound. -/
private theorem handleResponses_eq (allowed : Nat) (gateway : TcpOrderGateway σ) :
    handleResponses protocol allowed gateway =
      { gateway with
        responseCursor := gateway.responseCursor +
          min allowed (gateway.responseQueue.length - gateway.responseCursor)
        state := ((gateway.responseQueue.drop gateway.responseCursor).take allowed).foldl
          (fun state response => protocol.onResponse response state) gateway.state } := by
  induction allowed generalizing gateway with
  | zero => simp [handleResponses]
  | succ allowed ih =>
      rw [handleResponses]
      cases waiting : gateway.responseQueue[gateway.responseCursor]? with
      | none =>
          have past := List.getElem?_eq_none_iff.mp waiting
          simp [List.drop_eq_nil_of_le past, Nat.sub_eq_zero_of_le past]
      | some response =>
          obtain ⟨within, read⟩ := List.getElem?_eq_some_iff.mp waiting
          simp only [ih, List.drop_eq_getElem_cons within, read, List.take_succ_cons, List.foldl_cons,
            TcpOrderGateway.mk.injEq, true_and]
          omega

private theorem deliver_messages (clientId sender : Int) (sent messages : List μ) :
    (sent.map (ProtocolCall.message sender)).foldl (deliver clientId) messages =
      if sender = clientId then messages ++ sent else messages := by
  induction sent generalizing messages with
  | nil => simp
  | cons message sent ih =>
      rw [List.map_cons, List.foldl_cons, ih]
      by_cases same : sender = clientId <;> simp [deliver, same]

private theorem deliver_responses (clientId : Int) (handled : List OrderResponse) (messages : List μ) :
    (handled.map ProtocolCall.response).foldl (deliver clientId) messages = messages := by
  induction handled with
  | nil => rfl
  | cons response handled ih =>
      rw [List.map_cons, List.foldl_cons]
      exact ih

private theorem responses_messages (sender : Int) (sent : List μ) :
    ProtocolCall.responses (sent.map (ProtocolCall.message sender)) = [] := by
  simp [ProtocolCall.responses, ProtocolCall.response?]

private theorem responses_responses (handled : List OrderResponse) :
    ProtocolCall.responses (handled.map (@ProtocolCall.response μ)) = handled := by
  simp [ProtocolCall.responses, Function.comp_def, ProtocolCall.response?]

private theorem getD_update (pending : Int → Option (List UInt8)) (clientId other : Int) (bytes : List UInt8) :
    (Function.update pending clientId (some bytes) other).getD [] =
      if other = clientId then bytes else (pending other).getD [] := by
  rw [Function.update_apply]
  split <;> rfl

/-- What a gateway is after data that came behind what was kept. -/
private structure Consumed (clientId : Int) (buffer : List UInt8) (gateway after : TcpOrderGateway σ) : Prop where
  state : after.state = (protocol.framing.messages buffer).foldl
    (fun state message => protocol.onMessage clientId message state) gateway.state
  pending : ∀ other, (after.pending other).getD [] =
    if other = clientId then protocol.framing.rest buffer else (gateway.pending other).getD []
  queue : after.responseQueue = gateway.responseQueue
  cursor : after.responseCursor = gateway.responseCursor

/-- On a message boundary nothing was kept, and nothing is written where all was consumed. -/
private theorem consumed_of_boundary {clientId : Int} (data : List UInt8) {gateway : TcpOrderGateway σ}
    (boundary : (gateway.pending clientId).getD [] = []) :
    Consumed protocol clientId data gateway
      (let (state, consumed) := protocol.onData clientId data gateway.state
        if consumed < data.length then
          { gateway with
            pending := Function.update gateway.pending clientId (some (data.drop consumed))
            state }
        else { gateway with state }) := by
  unfold TcpProtocol.onData
  have short := (protocol.framing.rest_suffix data).length_le
  dsimp only
  split
  · refine ⟨rfl, fun other => ?_, rfl, rfl⟩
    rw [getD_update, protocol.framing.drop_consumed]
  · refine ⟨rfl, fun other => ?_, rfl, rfl⟩
    have all : protocol.framing.rest data = [] := List.eq_nil_of_length_eq_zero (by omega)
    dsimp only
    split
    · rename_i same
      rw [same, boundary, all]
    · rfl

private theorem onClientData_consumed (clientId : Int) (data : List UInt8) (gateway : TcpOrderGateway σ) :
    Consumed protocol clientId ((gateway.pending clientId).getD [] ++ data) gateway
      (onClientData protocol clientId data gateway) := by
  unfold onClientData
  split
  · rename_i none
    rw [none]
    exact consumed_of_boundary protocol data (congrArg (·.getD []) none)
  · rename_i empty
    rw [empty]
    exact consumed_of_boundary protocol data (congrArg (·.getD []) empty)
  · rename_i buffered kept
    rw [kept]
    refine ⟨rfl, fun other => ?_, rfl, rfl⟩
    simp only [TcpProtocol.onData]
    rw [getD_update, protocol.framing.drop_consumed]
    rfl

variable {protocol} {initial : σ} {earlier : List OrderResponse} {events : List TcpEvent}
  {calls : List (ProtocolCall μ)} {gateway : TcpOrderGateway σ}

private theorem Served.connected (served : Served protocol initial earlier events calls gateway)
    (clientId : Int) (address : String) :
    Served protocol initial earlier (events ++ [.connected clientId address])
      (calls ++ [.connect clientId address]) (onClientConnected protocol clientId address gateway) where
  state := by
    rw [List.foldl_concat, ← served.state]
    rfl
  delivered other := by
    rw [delivered_append, received_append]
    exact served.delivered other
  pending other := by
    rw [received_append]
    exact served.pending other
  queue := by
    rw [TcpEvent.responses_append]
    exact served.queue.trans (congrArg _ (List.append_nil _).symm)
  handled := by
    rw [ProtocolCall.responses_append]
    exact served.handled.trans (congrArg _ (List.append_nil _).symm)
  backlog := by
    rw [backlog_append]
    exact served.backlog

private theorem Served.disconnected (served : Served protocol initial earlier events calls gateway)
    (clientId : Int) :
    Served protocol initial earlier (events ++ [.disconnected clientId])
      (calls ++ [.disconnect clientId]) (onClientDisconnected protocol clientId gateway) where
  state := by
    rw [List.foldl_concat, ← served.state]
    rfl
  delivered other := by
    rw [delivered_append, received_append, List.foldl_cons, List.foldl_nil, served.delivered other, deliver, receive]
    split
    · exact protocol.framing.messages_nil.symm
    · rfl
  pending other := by
    rw [received_append, onClientDisconnected, receive]
    dsimp only
    rw [Function.update_apply]
    by_cases closed : other = clientId
    · rw [if_pos closed, if_pos closed.symm]
      exact protocol.framing.rest_nil.symm
    · rw [if_neg closed, if_neg (Ne.symm closed)]
      exact served.pending other
  queue := by
    rw [TcpEvent.responses_append]
    exact served.queue.trans (congrArg _ (List.append_nil _).symm)
  handled := by
    rw [ProtocolCall.responses_append]
    exact served.handled.trans (congrArg _ (List.append_nil _).symm)
  backlog := by
    rw [backlog_append]
    exact served.backlog

/-- The stream as a whole is cut where what was kept of it is cut. -/
private theorem Served.data (served : Served protocol initial earlier events calls gateway)
    (clientId : Int) (bytes : List UInt8) :
    Served protocol initial earlier (events ++ [.data clientId bytes])
      (calls ++ (protocol.framing.messages (protocol.framing.rest (received events clientId) ++ bytes)).map
        (.message clientId))
      (onClientData protocol clientId bytes gateway) := by
  have consumed := onClientData_consumed protocol clientId bytes gateway
  rw [served.pending clientId] at consumed
  constructor
  case state =>
    rw [consumed.state, List.foldl_append, ← served.state, List.foldl_map]
    rfl
  case delivered =>
    intro other
    rw [delivered_append, deliver_messages, received_append, receive, served.delivered other]
    split
    · rename_i same
      rw [← same]
      exact (protocol.framing.messages_append ..).symm
    · rfl
  case pending =>
    intro other
    rw [consumed.pending, received_append, receive]
    by_cases same : other = clientId
    · rw [if_pos same, if_pos same.symm, same]
      exact (protocol.framing.rest_append ..).symm
    · rw [if_neg same, if_neg (Ne.symm same)]
      exact served.pending other
  case queue =>
    rw [consumed.queue, TcpEvent.responses_append]
    exact served.queue.trans (congrArg _ (List.append_nil _).symm)
  case handled =>
    rw [consumed.queue, consumed.cursor, ProtocolCall.responses_append, responses_messages, List.append_nil]
    exact served.handled
  case backlog =>
    rw [consumed.queue, consumed.cursor, backlog_append]
    exact served.backlog

private theorem Served.polled (served : Served protocol initial earlier events calls gateway) :
    Served protocol initial earlier (events ++ [.polled])
      (calls ++ (((gateway.responseQueue.drop gateway.responseCursor).take maxResponsesPerPoll).map .response
        ++ [.poll])) (onPoll protocol gateway) := by
  unfold onPoll
  rw [handleResponses_eq]
  constructor
  case state =>
    rw [List.foldl_append, List.foldl_concat, ← served.state, List.foldl_map]
    rfl
  case delivered =>
    intro other
    rw [delivered_append, List.foldl_append, deliver_responses, received_append]
    exact served.delivered other
  case pending =>
    intro other
    rw [received_append]
    exact served.pending other
  case queue =>
    rw [TcpEvent.responses_append]
    exact served.queue.trans (congrArg _ (List.append_nil _).symm)
  case handled =>
    rw [ProtocolCall.responses_append, ProtocolCall.responses_append, responses_responses, ← List.append_assoc,
      ← served.handled]
    dsimp only
    rw [List.take_add, ← List.length_drop, ← List.take_eq_take_min]
    exact congrArg _ (List.append_nil _).symm
  case backlog =>
    have backlog := served.backlog
    rw [backlog_append, TcpEvent.await]
    dsimp only
    omega

private theorem Served.published (served : Served protocol initial earlier events calls gateway)
    (response : OrderResponse) :
    Served protocol initial earlier (events ++ [.published response]) calls
      { gateway with responseQueue := gateway.responseQueue ++ [response] } where
  state := served.state
  delivered other := by
    rw [received_append]
    exact served.delivered other
  pending other := by
    rw [received_append]
    exact served.pending other
  queue := by
    rw [TcpEvent.responses_append, ← List.append_assoc, ← served.queue]
    rfl
  handled := by
    have within : gateway.responseCursor ≤ gateway.responseQueue.length := by
      have := served.backlog
      omega
    rw [← served.handled]
    exact List.take_append_of_le_length within
  backlog := by
    rw [backlog_append, List.length_append, served.backlog]
    exact Nat.add_assoc ..

/-- The calls of one event are behind those of the events before it. -/
private theorem Served.step (served : Served protocol initial earlier events calls gateway) (event : TcpEvent) :
    ∃ more, Served protocol initial earlier (events ++ [event]) (calls ++ more) (handle protocol gateway event) := by
  cases event with
  | connected clientId address => exact ⟨_, served.connected clientId address⟩
  | disconnected clientId => exact ⟨_, served.disconnected clientId⟩
  | data clientId bytes => exact ⟨_, served.data clientId bytes⟩
  | polled => exact ⟨_, served.polled⟩
  | published response =>
      refine ⟨[], ?_⟩
      rw [List.append_nil]
      exact served.published response

private theorem Served.run (served : Served protocol initial earlier events calls gateway)
    (more : List TcpEvent) :
    ∃ following, Served protocol initial earlier (events ++ more) (calls ++ following)
      (gateway.run protocol more) := by
  induction more generalizing events calls gateway with
  | nil =>
      refine ⟨[], ?_⟩
      rw [List.append_nil, List.append_nil]
      exact served
  | cons event more ih =>
      obtain ⟨first, stepped⟩ := served.step event
      obtain ⟨later, ran⟩ := ih stepped
      rw [List.append_assoc, List.append_assoc] at ran
      exact ⟨first ++ later, ran⟩

/-- Whatever pieces the streams come in and however they are woven together, the protocol is
called with the messages each stream is cut into from its start, what is kept is the part of a
message behind them, no whole one, and the responses published since the gateway was made are handled once
and in order, so many to a poll. -/
theorem serves_streams (protocol : TcpProtocol σ μ) (initial : σ) (earlier : List OrderResponse)
    (events : List TcpEvent) :
    let gateway := (new earlier initial).run protocol events
    ∃ calls : List (ProtocolCall μ),
      gateway.state = calls.foldl protocol.call initial ∧
      (∀ clientId, delivered calls clientId = protocol.framing.messages (received events clientId) ∧
        (gateway.pending clientId).getD [] = protocol.framing.rest (received events clientId) ∧
        protocol.framing.next ((gateway.pending clientId).getD []) = none) ∧
      ProtocolCall.responses calls ++ gateway.responseQueue.drop gateway.responseCursor =
        TcpEvent.responses events ∧
      (gateway.responseQueue.drop gateway.responseCursor).length = backlog events := by
  have made : Served protocol initial earlier [] [] (new earlier initial) :=
    { state := rfl
      delivered := fun _ => protocol.framing.messages_nil.symm
      pending := fun _ => protocol.framing.rest_nil.symm
      queue := (List.append_nil _).symm
      handled := (List.take_length ..).trans (List.append_nil _).symm
      backlog := rfl }
  obtain ⟨calls, served⟩ := made.run events
  refine ⟨calls, served.state, fun clientId => ⟨served.delivered clientId, served.pending clientId, ?_⟩, ?_, ?_⟩
  · rw [served.pending]
    exact protocol.framing.next_rest _
  · have whole := List.take_append_drop ((new earlier initial).run protocol events).responseCursor
      ((new earlier initial).run protocol events).responseQueue
    rw [served.handled, List.append_assoc] at whole
    exact List.append_cancel_left (whole.trans served.queue)
  · rw [List.length_drop]
    exact Nat.sub_eq_of_eq_add' served.backlog

/-- The second message of the first connection comes in two pieces, with a message of another
connection between them. -/
theorem serves_streams_twoPieces :
    let protocol : TcpProtocol (List (Int × List UInt8)) (List UInt8) :=
      { framing := .lengthPrefixed, onConnect := fun _ _ => id, onDisconnect := fun _ => id
        onMessage := fun connectionId message heard => heard ++ [(connectionId, message)]
        onResponse := fun _ => id, onPoll := id }
    let events : List TcpEvent :=
      [.connected 7 "", .connected 8 "", .data 7 [1, 64, 2, 65], .data 8 [1, 67], .data 7 [66, 3]]
    let gateway := (new [] []).run protocol events
    ∃ calls : List (ProtocolCall (List UInt8)),
      gateway.state = calls.foldl protocol.call [] ∧ delivered calls 7 = [[64], [65, 66]] ∧
        delivered calls 8 = [[67]] ∧ (gateway.pending 7).getD [] = [3] := by
  intro protocol events gateway
  obtain ⟨calls, state, streams, -⟩ := serves_streams protocol [] [] events
  refine ⟨calls, state, (streams 7).1.trans ?_, (streams 8).1.trans ?_, (streams 7).2.1.trans ?_⟩
  · decide +kernel
  · decide +kernel
  · decide +kernel

end TcpOrderGateway

end SlickSim
