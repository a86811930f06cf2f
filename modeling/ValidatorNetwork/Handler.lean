import Mathlib.Data.List.AList
import ValidatorNetwork.Basic

/-!
# Message handlers and handler tables

A handler is built around a service object (`Network` or `Stream`) and handles a message
together with a responder, whose `send` hands a reply to the sending thread of the loop
that received the message. The four acking handlers share one body, `acknowledge`: parse
the request, act on the service, send an OK `gossip/ack` that echoes the correlation id.
They differ only in the payload type and in the service attribute they call; a `Stream`
has none of these attributes, so `GossipMessageHandler` built on a stream raises
`AttributeError` after a successful parse.

`Network.__init__` and `Stream.__init__` fill different tables. In particular the
network's has no entry for `gossip/ping`, which its receive loop therefore routes to the
`default` handler.
-/

namespace ValidatorNetwork

variable {Bytes σ α : Type}

/-- The handler classes of `network.py`. -/
inductive Handler
  | defaultHandler
  | peerRegisterHandler
  | peerUnregisterHandler
  | gossipMessageHandler
  | pingHandler
deriving DecidableEq, Repr

/-- The attributes a handler reaches on its `_service`; `none` is a missing attribute. -/
structure Service (Bytes σ : Type) where
  registerPeer : Option (String → String → σ → σ)
  unregisterPeer : Option (String → String → σ → σ)
  putOnInbound : Option (GossipMessage Bytes → σ → σ)

/-- The reply of every acking handler: `gossip/ack` with status OK, addressed to the
request's sender and echoing its correlation id. -/
def ackFor (codec : Codec Bytes) (message : Message Bytes) : Message Bytes where
  messageType := "gossip/ack"
  correlationId := message.correlationId
  content := codec.serializeNetworkAcknowledgement ⟨.ok⟩
  sender := message.sender

/-- The body the acking handlers share. `send` is the responder's `send`. -/
def acknowledge (codec : Codec Bytes) (parse : Bytes → Option α)
    (act : α → Message Bytes → σ → Option σ) (send : Message Bytes → σ → σ)
    (message : Message Bytes) (s : σ) : σ × Option PyError :=
  match parse message.content with
  | none => (s, some .decodeError)
  | some request =>
    match act request message s with
    | none => (s, some .attributeError)
    | some s' => (send (ackFor codec message) s', none)

section Handlers

variable (codec : Codec Bytes) (service : Service Bytes σ) (send : Message Bytes → σ → σ)

/-- `DefaultHandler.handle`: print and drop. -/
def DefaultHandler.handle (_message : Message Bytes) (s : σ) : σ × Option PyError :=
  (s, none)

/-- `PeerRegisterHandler.handle`. -/
def PeerRegisterHandler.handle : Message Bytes → σ → σ × Option PyError :=
  acknowledge codec codec.parsePeerRegisterRequest
    (fun request message s =>
      service.registerPeer.map fun f => f message.sender request.identity s)
    send

/-- `PeerUnregisterHandler.handle`. -/
def PeerUnregisterHandler.handle : Message Bytes → σ → σ × Option PyError :=
  acknowledge codec codec.parsePeerUnregisterRequest
    (fun request message s =>
      service.unregisterPeer.map fun f => f message.sender request.identity s)
    send

/-- `GossipMessageHandler.handle`. -/
def GossipMessageHandler.handle : Message Bytes → σ → σ × Option PyError :=
  acknowledge codec codec.parseGossipMessage
    (fun request _ s => service.putOnInbound.map fun f => f request s) send

/-- `PingHandler.handle`. -/
def PingHandler.handle : Message Bytes → σ → σ × Option PyError :=
  acknowledge codec codec.parsePingRequest (fun _ _ s => some s) send

/-- `handler.handle(message, _Responder(send))`. -/
def Handler.handle : Handler → Message Bytes → σ → σ × Option PyError
  | .defaultHandler => DefaultHandler.handle
  | .peerRegisterHandler => PeerRegisterHandler.handle codec service send
  | .peerUnregisterHandler => PeerUnregisterHandler.handle codec service send
  | .gossipMessageHandler => GossipMessageHandler.handle codec service send
  | .pingHandler => PingHandler.handle codec send

end Handlers

section Acknowledge

variable {codec : Codec Bytes} {parse : Bytes → Option α}
  {act : α → Message Bytes → σ → Option σ} {send : Message Bytes → σ → σ}
  {message : Message Bytes} {s s' : σ}

theorem acknowledge_of_act {request : α} (hp : parse message.content = some request)
    (ha : act request message s = some s') :
    acknowledge codec parse act send message s = (send (ackFor codec message) s', none) := by
  simp [acknowledge, hp, ha]

end Acknowledge

/-- Whether `handle` returns: the payload parses and the service has the attribute the
handler calls. -/
def Handler.accepts (codec : Codec Bytes) (service : Service Bytes σ) :
    Handler → Bytes → Bool
  | .defaultHandler, _ => true
  | .peerRegisterHandler, b =>
    (codec.parsePeerRegisterRequest b).isSome && service.registerPeer.isSome
  | .peerUnregisterHandler, b =>
    (codec.parsePeerUnregisterRequest b).isSome && service.unregisterPeer.isSome
  | .gossipMessageHandler, b =>
    (codec.parseGossipMessage b).isSome && service.putOnInbound.isSome
  | .pingHandler, b => (codec.parsePingRequest b).isSome

/-- A `_handlers` dict, from message type to handler. -/
abbrev HandlerTable := AList fun _ : String => Handler

/-- `add_handler`. -/
def addHandler (messageType : String) (handler : Handler) (handlers : HandlerTable) :
    HandlerTable :=
  handlers.insert messageType handler

/-- The lookup both receive loops make: the entry for the type, else `'default'`; `none`
is the `KeyError` of a table without a default. -/
def lookupHandler (handlers : HandlerTable) (messageType : String) : Option Handler :=
  match handlers.lookup messageType with
  | some h => some h
  | none => handlers.lookup "default"

/-- The table `Network.__init__` fills. -/
def networkHandlers : HandlerTable :=
  ∅ |> addHandler "default" .defaultHandler
    |> addHandler "gossip/register" .peerRegisterHandler
    |> addHandler "gossip/unregister" .peerUnregisterHandler
    |> addHandler "gossip/msg" .gossipMessageHandler

/-- The table `Stream.__init__` fills. -/
def streamHandlers : HandlerTable :=
  ∅ |> addHandler "default" .defaultHandler
    |> addHandler "gossip/msg" .gossipMessageHandler
    |> addHandler "gossip/ping" .pingHandler

/-- The network routes the three request types it names, and everything else,
`gossip/ping` included, to its default handler. -/
theorem lookupHandler_networkHandlers (t : String) :
    lookupHandler networkHandlers t =
      some (if t = "gossip/register" then .peerRegisterHandler
        else if t = "gossip/unregister" then .peerUnregisterHandler
        else if t = "gossip/msg" then .gossipMessageHandler
        else .defaultHandler) := by
  unfold lookupHandler networkHandlers addHandler
  by_cases h1 : t = "gossip/register"
  · subst h1; rfl
  by_cases h2 : t = "gossip/unregister"
  · subst h2; rfl
  by_cases h3 : t = "gossip/msg"
  · subst h3; rfl
  simp only [AList.lookup_insert_ne h1, AList.lookup_insert_ne h2, AList.lookup_insert_ne h3,
    if_neg h1, if_neg h2, if_neg h3]
  by_cases h4 : t = "default"
  · subst h4; rfl
  · rw [AList.lookup_insert_ne h4, AList.lookup_empty]; rfl

theorem lookupHandler_streamHandlers (t : String) :
    lookupHandler streamHandlers t =
      some (if t = "gossip/msg" then .gossipMessageHandler
        else if t = "gossip/ping" then .pingHandler
        else .defaultHandler) := by
  unfold lookupHandler streamHandlers addHandler
  by_cases h1 : t = "gossip/msg"
  · subst h1; rfl
  by_cases h2 : t = "gossip/ping"
  · subst h2; rfl
  simp only [AList.lookup_insert_ne h1, AList.lookup_insert_ne h2, if_neg h1, if_neg h2]
  by_cases h4 : t = "default"
  · subst h4; rfl
  · rw [AList.lookup_insert_ne h4, AList.lookup_empty]; rfl

end ValidatorNetwork
