import SlickSim.Common.Messages
import SlickSim.Lib.Framing

/-!
# A binary order gateway over TCP

`order_gateway/tcp_order_gateway.cpp`: the transport half, which keeps what each connection
has sent of a message that is not whole yet, and hands a venue's protocol the messages and
the engine's responses. The callbacks run one at a time, on the thread of the server.
-/

set_option autoImplicit false

namespace SlickSim

/-- What a venue derives from the gateway. Its `on_data` takes as many whole messages from the
front of the data as are there. -/
structure TcpProtocol (σ μ : Type) where
  framing : Framing UInt8 μ
  onConnect : Int → String → σ → σ
  onDisconnect : Int → σ → σ
  onMessage : Int → μ → σ → σ
  onResponse : OrderResponse → σ → σ
  onPoll : σ → σ

/-- `on_data`: the state after the messages, and how many bytes they took up. -/
def TcpProtocol.onData {σ μ : Type} (protocol : TcpProtocol σ μ) (connectionId : Int)
    (data : List UInt8) (state : σ) : σ × Nat :=
  ((protocol.framing.messages data).foldl (fun state message => protocol.onMessage connectionId message state) state,
    data.length - (protocol.framing.rest data).length)

structure TcpOrderGateway (σ : Type) where
  state : σ
  /-- `partial_`: bytes received but not consumed, by connection. -/
  pending : Int → Option (List UInt8)
  responseQueue : List OrderResponse
  responseCursor : Nat

inductive TcpEvent where
  | connected (clientId : Int) (address : String)
  | disconnected (clientId : Int)
  | data (clientId : Int) (bytes : List UInt8)
  | polled
  | published (response : OrderResponse)

namespace TcpOrderGateway

variable {σ μ : Type} (protocol : TcpProtocol σ μ)

/-- Responses published before the gateway existed are passed over. -/
def new (responseQueue : List OrderResponse) (state : σ) : TcpOrderGateway σ :=
  { state, pending := fun _ => none, responseQueue, responseCursor := responseQueue.length }

def onClientConnected (clientId : Int) (address : String) (gateway : TcpOrderGateway σ) :
    TcpOrderGateway σ :=
  { gateway with state := protocol.onConnect clientId address gateway.state }

def onClientDisconnected (clientId : Int) (gateway : TcpOrderGateway σ) : TcpOrderGateway σ :=
  { gateway with
    pending := Function.update gateway.pending clientId none
    state := protocol.onDisconnect clientId gateway.state }

def onClientData (clientId : Int) (data : List UInt8) (gateway : TcpOrderGateway σ) :
    TcpOrderGateway σ :=
  match gateway.pending clientId with
  | none | some [] =>
      -- on a message boundary: only what the protocol could not use yet is kept
      let (state, consumed) := protocol.onData clientId data gateway.state
      if consumed < data.length then
        { gateway with
          pending := Function.update gateway.pending clientId (some (data.drop consumed))
          state }
      else { gateway with state }
  | some buffered =>
      let buffer := buffered ++ data
      let (state, consumed) := protocol.onData clientId buffer gateway.state
      { gateway with
        pending := Function.update gateway.pending clientId (some (buffer.drop consumed))
        state }

def handleResponses : Nat → TcpOrderGateway σ → TcpOrderGateway σ
  | 0, gateway => gateway
  | allowed + 1, gateway =>
      match gateway.responseQueue[gateway.responseCursor]? with
      | none => gateway
      | some response =>
          handleResponses allowed
            { gateway with
              responseCursor := gateway.responseCursor + 1
              state := protocol.onResponse response gateway.state }

def maxResponsesPerPoll : Nat := 1024

def onPoll (gateway : TcpOrderGateway σ) : TcpOrderGateway σ :=
  let handled := handleResponses protocol maxResponsesPerPoll gateway
  { handled with state := protocol.onPoll handled.state }

def handle (gateway : TcpOrderGateway σ) : TcpEvent → TcpOrderGateway σ
  | .connected clientId address => onClientConnected protocol clientId address gateway
  | .disconnected clientId => onClientDisconnected protocol clientId gateway
  | .data clientId bytes => onClientData protocol clientId bytes gateway
  | .polled => onPoll protocol gateway
  | .published response => { gateway with responseQueue := gateway.responseQueue ++ [response] }

def run (gateway : TcpOrderGateway σ) (events : List TcpEvent) : TcpOrderGateway σ :=
  events.foldl (handle protocol) gateway

end TcpOrderGateway

end SlickSim
