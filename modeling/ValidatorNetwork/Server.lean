import ValidatorNetwork.Future
import ValidatorNetwork.Registry
import ValidatorNetwork.Handler

/-!
# The server side of a network

`Server` is a `Network` together with its `_ServerSendReceiveThread`: the futures table
and handler table they share, the registry, the log of items put on `inbound_queue`, the
callbacks that `run_coroutine_threadsafe` has scheduled on the server loop, the send and
broadcast queues, and the frames written to the ROUTER socket.

`receiveFrame` is one turn of `_receive_message`: unpack two parts, parse a `Message`,
store the routing prefix as the string `sender`, then either complete a future or hand
the message to its handler. None of the first three steps is inside the `try`, and the
`except` only catches `FutureCollectionKeyError`, so any other exception ends the
coroutine. `receiveMessage` is the coroutine over the frames it awaits.
-/

namespace ValidatorNetwork

variable {Bytes : Type}

/-- A callback scheduled on the server loop by `run_coroutine_threadsafe`. -/
inductive ServerTask (Bytes : Type)
  | putMessage (message : Message Bytes)
  | putBroadcastMessage (message : Message Bytes)
deriving DecidableEq, Repr

/-- The message of a scheduled `_put_broadcast_message`. -/
def ServerTask.broadcastOf : ServerTask Bytes → Option (Message Bytes)
  | .putMessage _ => none
  | .putBroadcastMessage m => some m

/-- The message of a scheduled `_put_message`. -/
def ServerTask.replyOf : ServerTask Bytes → Option (Message Bytes)
  | .putMessage m => some m
  | .putBroadcastMessage _ => none

/-- A `Network` and its `_ServerSendReceiveThread`. `inbound` is what was put on
`inbound_queue`, in order. -/
structure Server (Bytes : Type) where
  futures : FutureCollection Bytes := ∅
  handlers : HandlerTable := networkHandlers
  peeredWithUs : PeerTable := ∅
  inbound : List (GossipMessage Bytes) := []
  ready : List (ServerTask Bytes) := []
  sendQueue : List (Message Bytes) := []
  written : List (Bytes × Bytes) := []
  broadcastQueue : List (Message Bytes) := []

namespace Server

/-- `_ServerSendReceiveThread.send_message`: schedule `_put_message(msg)`. -/
def sendMessage (message : Message Bytes) (s : Server Bytes) : Server Bytes :=
  { s with ready := s.ready ++ [.putMessage message] }

/-- `_ServerSendReceiveThread.broadcast_message`: schedule `_put_broadcast_message(msg)`. -/
def broadcastMessage (message : Message Bytes) (s : Server Bytes) : Server Bytes :=
  { s with ready := s.ready ++ [.putBroadcastMessage message] }

/-- The `Network` as its handlers see it. -/
def service : Service Bytes (Server Bytes) where
  registerPeer := some fun sender identity s =>
    { s with peeredWithUs := ValidatorNetwork.registerPeer sender identity s.peeredWithUs }
  unregisterPeer := some fun sender identity s =>
    { s with peeredWithUs := ValidatorNetwork.unregisterPeer sender identity s.peeredWithUs }
  putOnInbound := some fun item s => { s with inbound := s.inbound ++ [item] }

/-- The `try`/`except FutureCollectionKeyError` of `_receive_message`. -/
def dispatch (codec : Codec Bytes) (message : Message Bytes) (s : Server Bytes) :
    Server Bytes × Option PyError :=
  match s.futures.setResult message.correlationId ⟨message.messageType, message.content⟩ with
  | .ok futures => ({ s with futures }, none)
  | .error _ =>
    match lookupHandler s.handlers message.messageType with
    | none => (s, some .keyError)
    | some handler => handler.handle codec service sendMessage message s

/-- One turn of `_ServerSendReceiveThread._receive_message` on a multipart frame. -/
def receiveFrame (codec : Codec Bytes) (frame : List Bytes) (s : Server Bytes) :
    Server Bytes × Option PyError :=
  match frame with
  | [ident, result] =>
    match codec.parseMessage result with
    | none => (s, some .decodeError)
    | some message =>
      match codec.decodeText ident with
      | none => (s, some .valueError)
      | some sender => dispatch codec { message with sender } s
  | _ => (s, some .valueError)

/-- `_ServerSendReceiveThread._receive_message` over the frames it awaits. -/
def receiveMessage (codec : Codec Bytes) (frames : List (List Bytes)) (s : Server Bytes) :
    Server Bytes × Option PyError :=
  loopUntilRaise (receiveFrame codec) frames s

/-- The server loop runs its oldest scheduled callback. -/
def runTask (s : Server Bytes) : Option (Server Bytes) :=
  match s.ready with
  | [] => none
  | .putMessage m :: rest => some { s with ready := rest, sendQueue := s.sendQueue ++ [m] }
  | .putBroadcastMessage m :: rest =>
    some { s with ready := rest, broadcastQueue := s.broadcastQueue ++ [m] }

/-- One turn of `_ServerSendReceiveThread._send_message`: a frame of the routing prefix
and a one-message `MessageList`. -/
def sendNext (codec : Codec Bytes) (s : Server Bytes) : Option (Server Bytes) :=
  match s.sendQueue with
  | [] => none
  | m :: rest =>
    some { s with sendQueue := rest,
                  written := s.written ++ [(codec.encodeText m.sender,
                    codec.serializeMessageList [m])] }

/-- The frames the server has written, then those its send path will write for the replies
it has queued or scheduled, in order. -/
def outgoing (codec : Codec Bytes) (s : Server Bytes) : List (Bytes × Bytes) :=
  s.written ++ (s.sendQueue ++ s.ready.filterMap ServerTask.replyOf).map fun m =>
    (codec.encodeText m.sender, codec.serializeMessageList [m])

/-- A reply scheduled on the loop is among the frames the server will write. -/
theorem mem_outgoing_of_mem_ready (codec : Codec Bytes) {s : Server Bytes} {m : Message Bytes}
    (h : .putMessage m ∈ s.ready) :
    (codec.encodeText m.sender, codec.serializeMessageList [m]) ∈ s.outgoing codec :=
  List.mem_append_right _ (List.mem_map_of_mem _
    (List.mem_append_right _ (List.mem_filterMap.2 ⟨_, h, rfl⟩)))

/-! ## What the loops leave alone -/

/-- What a turn of the receive loop leaves alone: the keys of the futures table, the
handler table, the broadcast queue, the broadcasts scheduled on the loop, the send queue,
and the frames written. -/
structure Keeps (s s' : Server Bytes) : Prop where
  futures : ∀ k, k ∈ s'.futures ↔ k ∈ s.futures
  handlers : s'.handlers = s.handlers
  broadcastQueue : s'.broadcastQueue = s.broadcastQueue
  broadcasts :
    s'.ready.filterMap ServerTask.broadcastOf = s.ready.filterMap ServerTask.broadcastOf
  sendQueue : s'.sendQueue = s.sendQueue
  written : s'.written = s.written

theorem Keeps.refl (s : Server Bytes) : Keeps s s := ⟨fun _ => Iff.rfl, rfl, rfl, rfl, rfl, rfl⟩

/-- A network handler changes nothing, or changes the registry and the inbound log and
schedules its ack. -/
theorem handle_cases (h : Handler) (codec : Codec Bytes) (message : Message Bytes)
    (s : Server Bytes) :
    (h.handle codec service sendMessage message s).1 = s ∨
      ∃ peeredWithUs inbound, (h.handle codec service sendMessage message s).1 =
        sendMessage (ackFor codec message) { s with peeredWithUs, inbound } := by
  cases h <;>
    simp only [Handler.handle, DefaultHandler.handle, PeerRegisterHandler.handle,
      PeerUnregisterHandler.handle, GossipMessageHandler.handle, PingHandler.handle,
      acknowledge, service, Option.map_some'] <;>
    (repeat' split) <;> first | exact .inl trivial | exact .inl rfl | exact .inr ⟨_, _, rfl⟩

/-- A message some future waits for completes that future and does nothing else. -/
theorem dispatch_of_lookup (codec : Codec Bytes) (message : Message Bytes) {s : Server Bytes}
    {f : Future Bytes} (h : s.futures.lookup message.correlationId = some f) :
    dispatch codec message s =
      ({ s with
          futures := s.futures.insert message.correlationId
            (f.setResult ⟨message.messageType, message.content⟩) }, none) := by
  simp [dispatch, FutureCollection.setResult_of_lookup _ h]

/-- A dispatch completes the future waiting under the message's id, finds no handler and
changes nothing, or runs a handler. -/
theorem dispatch_cases (codec : Codec Bytes) (message : Message Bytes) (s : Server Bytes) :
    (∃ f, s.futures.lookup message.correlationId = some f ∧
      (dispatch codec message s).1 = { s with
        futures := s.futures.insert message.correlationId
          (f.setResult ⟨message.messageType, message.content⟩) }) ∨
      (dispatch codec message s).1 = s ∨
      ∃ h, lookupHandler s.handlers message.messageType = some h ∧
        (dispatch codec message s).1 = (h.handle codec service sendMessage message s).1 := by
  cases hf : s.futures.lookup message.correlationId with
  | some f => exact .inl ⟨f, rfl, by rw [dispatch_of_lookup codec message hf]⟩
  | none =>
    simp only [dispatch, FutureCollection.setResult_of_not_mem _ (AList.lookup_eq_none.1 hf)]
    split
    · exact .inr (.inl rfl)
    · next h hl => exact .inr (.inr ⟨h, hl, rfl⟩)

/-- A turn of the receive loop raises before it dispatches, having changed nothing, or
dispatches the message it parsed. -/
theorem receiveFrame_cases (codec : Codec Bytes) (frame : List Bytes) (s : Server Bytes) :
    (receiveFrame codec frame s).1 = s ∨
      ∃ message, receiveFrame codec frame s = dispatch codec message s := by
  unfold receiveFrame
  split
  · split
    · exact .inl rfl
    · split
      · exact .inl rfl
      · exact .inr ⟨_, rfl⟩
  · exact .inl rfl

theorem handle_futures (h : Handler) (codec : Codec Bytes) (message : Message Bytes)
    (s : Server Bytes) : (h.handle codec service sendMessage message s).1.futures = s.futures := by
  rcases handle_cases h codec message s with e | ⟨p, i, e⟩ <;> rw [e]
  rfl

/-- Of the handlers, only `GossipMessageHandler` puts on `inbound_queue`, and what it puts
is the payload it parsed. -/
theorem handle_inbound (h : Handler) (codec : Codec Bytes) (message : Message Bytes)
    (s : Server Bytes) :
    (h.handle codec service sendMessage message s).1.inbound = s.inbound ∨
      h = .gossipMessageHandler ∧ ∃ g, codec.parseGossipMessage message.content = some g ∧
        (h.handle codec service sendMessage message s).1.inbound = s.inbound ++ [g] := by
  cases h
  case gossipMessageHandler =>
    simp only [Handler.handle, GossipMessageHandler.handle, acknowledge, service,
      Option.map_some']
    split
    · exact .inl rfl
    · next g hg => exact .inr ⟨trivial, g, hg, rfl⟩
  all_goals
    simp only [Handler.handle, DefaultHandler.handle, PeerRegisterHandler.handle,
      PeerUnregisterHandler.handle, PingHandler.handle, acknowledge, service, Option.map_some']
    (repeat' split) <;> first | exact .inl trivial | exact .inl rfl

theorem Keeps.handle (h : Handler) (codec : Codec Bytes) (message : Message Bytes)
    (s : Server Bytes) : Keeps s (h.handle codec service sendMessage message s).1 := by
  rcases handle_cases h codec message s with e | ⟨p, i, e⟩ <;> rw [e]
  · exact .refl s
  · exact ⟨fun _ => Iff.rfl, rfl, rfl, by simp [sendMessage, ServerTask.broadcastOf], rfl, rfl⟩

theorem dispatch_keeps (codec : Codec Bytes) (message : Message Bytes) (s : Server Bytes) :
    Keeps s (dispatch codec message s).1 := by
  rcases dispatch_cases codec message s with ⟨f, hf, e⟩ | e | ⟨h, -, e⟩ <;> rw [e]
  · exact ⟨fun _ => FutureCollection.mem_of_setResult
      (FutureCollection.setResult_of_lookup _ hf), rfl, rfl, rfl, rfl, rfl⟩
  · exact .refl s
  · exact .handle h codec message s

theorem receiveFrame_keeps (codec : Codec Bytes) (frame : List Bytes) (s : Server Bytes) :
    Keeps s (receiveFrame codec frame s).1 := by
  rcases receiveFrame_cases codec frame s with e | ⟨m, e⟩ <;> rw [e]
  · exact .refl s
  · exact dispatch_keeps codec m s

/-- A dispatch at a network puts on `inbound_queue` nothing, or the payload of a
`gossip/msg`. -/
theorem dispatch_inbound (codec : Codec Bytes) (message : Message Bytes) {s : Server Bytes}
    (hs : s.handlers = networkHandlers) :
    (dispatch codec message s).1.inbound = s.inbound ∨
      message.messageType = "gossip/msg" ∧ ∃ g, codec.parseGossipMessage message.content = some g ∧
        (dispatch codec message s).1.inbound = s.inbound ++ [g] := by
  rcases dispatch_cases codec message s with ⟨f, -, e⟩ | e | ⟨h, hl, e⟩ <;> rw [e]
  · exact .inl rfl
  · exact .inl rfl
  · refine (handle_inbound h codec message s).imp_right fun ⟨hg, hp⟩ => ⟨?_, hp⟩
    subst hg
    rw [hs, lookupHandler_networkHandlers] at hl
    split_ifs at hl with h1 h2 h3 <;> first | exact h3 | cases hl

/-- A dispatch schedules the message's ack or nothing. -/
theorem dispatch_ready (codec : Codec Bytes) (message : Message Bytes) (s : Server Bytes) :
    (dispatch codec message s).1.ready = s.ready ∨
      (dispatch codec message s).1.ready = s.ready ++ [.putMessage (ackFor codec message)] := by
  rcases dispatch_cases codec message s with ⟨f, -, e⟩ | e | ⟨h, -, e⟩ <;> rw [e]
  · exact .inl rfl
  · exact .inl rfl
  · rcases handle_cases h codec message s with e | ⟨p, i, e⟩ <;> rw [e]
    · exact .inl rfl
    · exact .inr rfl

theorem runTask_keeps {s s' : Server Bytes} (h : runTask s = some s') :
    s'.futures = s.futures ∧ s'.handlers = s.handlers := by
  unfold runTask at h
  split at h <;> cases h <;> exact ⟨rfl, rfl⟩

/-- The loop runs its callbacks in order, so a broadcast leaves the schedule for the end
of the broadcast queue. -/
theorem runTask_broadcasts {s s' : Server Bytes} (h : runTask s = some s') :
    s'.broadcastQueue ++ s'.ready.filterMap ServerTask.broadcastOf =
      s.broadcastQueue ++ s.ready.filterMap ServerTask.broadcastOf := by
  unfold runTask at h
  split at h <;> cases h <;> simp_all [ServerTask.broadcastOf]

/-- A reply leaves the schedule for the end of the send queue. -/
theorem runTask_replies {s s' : Server Bytes} (h : runTask s = some s') :
    s'.sendQueue ++ s'.ready.filterMap ServerTask.replyOf =
      s.sendQueue ++ s.ready.filterMap ServerTask.replyOf ∧ s'.written = s.written := by
  unfold runTask at h
  split at h <;> cases h <;> simp_all [ServerTask.replyOf]

/-- A callback touches only the loop's schedule and the two queues. -/
theorem runTask_frame {s s' : Server Bytes} (h : runTask s = some s') :
    s' = { s with ready := s'.ready, sendQueue := s'.sendQueue,
                  broadcastQueue := s'.broadcastQueue } := by
  unfold runTask at h
  split at h <;> cases h <;> rfl

/-- A turn of the send path touches only the send queue and the frames written. -/
theorem sendNext_frame {codec : Codec Bytes} {s s' : Server Bytes}
    (h : sendNext codec s = some s') :
    s' = { s with sendQueue := s'.sendQueue, written := s'.written } := by
  unfold sendNext at h
  split at h <;> cases h
  rfl

theorem runTask_outgoing (codec : Codec Bytes) {s s' : Server Bytes} (h : runTask s = some s') :
    s'.outgoing codec = s.outgoing codec := by
  obtain ⟨hp, hw⟩ := runTask_replies h
  rw [outgoing, outgoing, hp, hw]

/-- The send path writes the frame of the reply at the head of its queue. -/
theorem sendNext_outgoing {codec : Codec Bytes} {s s' : Server Bytes}
    (h : sendNext codec s = some s') : s'.outgoing codec = s.outgoing codec := by
  unfold sendNext at h
  split at h <;> cases h
  rename_i m rest hq
  simp [outgoing, hq]

theorem sendNext_keeps {codec : Codec Bytes} {s s' : Server Bytes}
    (h : sendNext codec s = some s') :
    s'.futures = s.futures ∧ s'.handlers = s.handlers ∧ s'.ready = s.ready ∧
      s'.broadcastQueue = s.broadcastQueue := by
  unfold sendNext at h
  split at h <;> cases h
  exact ⟨rfl, rfl, rfl, rfl⟩

/-! ## Which frames the receive loop processes -/

/-- A frame a DEALER socket of this module sends: the routing prefix the socket announces
and a serialized `Message`. The loop stores the prefix as the sender and dispatches. -/
theorem receiveFrame_encoded (codec : Codec Bytes) (sender : String) (message : Message Bytes)
    (s : Server Bytes) :
    receiveFrame codec [codec.encodeText sender, codec.serializeMessage message] s =
      dispatch codec { message with sender } s := by
  simp [receiveFrame, codec.parseMessage_serializeMessage, codec.decodeText_encodeText]

/-! ## Requests -/

/-- The registry call a request's handler makes, if any. -/
def registryCall (codec : Codec Bytes) (message : Message Bytes) : Option RegistryCall :=
  if message.messageType = "gossip/register" then
    (codec.parsePeerRegisterRequest message.content).map fun r =>
      .registerPeer message.sender r.identity
  else if message.messageType = "gossip/unregister" then
    (codec.parsePeerUnregisterRequest message.content).map fun r =>
      .unregisterPeer message.sender r.identity
  else none

/-- The item a request's handler puts on `inbound_queue`, if any. -/
def inboundItem (codec : Codec Bytes) (message : Message Bytes) :
    Option (GossipMessage Bytes) :=
  if message.messageType = "gossip/msg" then codec.parseGossipMessage message.content else none

@[simp] theorem inboundItem_sender (codec : Codec Bytes) (message : Message Bytes)
    (sender : String) : inboundItem codec { message with sender } = inboundItem codec message :=
  rfl

/-- A request the network acks: no future waits for its id, and it is routed to an acking
handler that accepts its payload. -/
def IsRequest (codec : Codec Bytes) (s : Server Bytes) (message : Message Bytes) : Prop :=
  message.correlationId ∉ s.futures ∧
    ∃ h, lookupHandler s.handlers message.messageType = some h ∧ h ≠ .defaultHandler ∧
      h.accepts codec service message.content

/-- A request makes its registry call, puts its item on `inbound_queue`, and schedules one
OK ack echoing its correlation id to its sender. -/
theorem dispatch_request (codec : Codec Bytes) (message : Message Bytes) {s : Server Bytes}
    (hs : s.handlers = networkHandlers) (hr : IsRequest codec s message) :
    dispatch codec message s =
      ({ s with
          peeredWithUs := (registryCall codec message).elim s.peeredWithUs
            (·.apply s.peeredWithUs)
          inbound := s.inbound ++ (inboundItem codec message).toList
          ready := s.ready ++ [.putMessage (ackFor codec message)] }, none) := by
  obtain ⟨hf, h, hl, hd, ha⟩ := hr
  rw [hs, lookupHandler_networkHandlers] at hl
  simp only [dispatch, FutureCollection.setResult_of_not_mem _ hf, hs,
    lookupHandler_networkHandlers]
  split_ifs at hl ⊢ with h1 h2 h3 <;> cases hl
  · obtain ⟨r, hr⟩ := Option.isSome_iff_exists.1 (by simpa [Handler.accepts, service] using ha)
    simp [Handler.handle, PeerRegisterHandler.handle, acknowledge, hr, service, sendMessage,
      registryCall, inboundItem, h1, RegistryCall.apply, hs]
  · obtain ⟨r, hr⟩ := Option.isSome_iff_exists.1 (by simpa [Handler.accepts, service] using ha)
    simp [Handler.handle, PeerUnregisterHandler.handle, acknowledge, hr, service, sendMessage,
      registryCall, inboundItem, h1, h2, RegistryCall.apply, hs]
  · obtain ⟨g, hg⟩ := Option.isSome_iff_exists.1 (by simpa [Handler.accepts, service] using ha)
    simp [Handler.handle, GossipMessageHandler.handle, acknowledge, hg, service, sendMessage,
      registryCall, inboundItem, h1, h2, h3, hs]
  · exact absurd rfl hd

/-- A `gossip/msg` that no future waits for reaches `GossipMessageHandler`: its payload is
put on `inbound_queue` and its ack is scheduled, and nothing else changes. -/
theorem dispatch_gossip_of_not_mem (codec : Codec Bytes) (message : Message Bytes)
    {s : Server Bytes} {g : GossipMessage Bytes} (hs : s.handlers = networkHandlers)
    (ht : message.messageType = "gossip/msg")
    (hg : codec.parseGossipMessage message.content = some g)
    (hf : message.correlationId ∉ s.futures) :
    dispatch codec message s =
      ({ s with inbound := s.inbound ++ [g],
                ready := s.ready ++ [.putMessage (ackFor codec message)] }, none) := by
  rw [dispatch_request codec message hs ⟨hf, .gossipMessageHandler,
    by rw [hs, lookupHandler_networkHandlers, ht]; rfl, by decide,
    by simp [Handler.accepts, service, hg]⟩]
  simp [registryCall, inboundItem, ht, hg]

/-- Take any sequence of requests, each routed to an acking handler that accepts it and
none of them a reply, from senders whose routing prefixes are text. The receive loop
processes all of them: it makes their registry calls in order, puts their gossip payloads
on `inbound_queue` in order, and schedules one OK ack per request in receive order, each
echoing the request's correlation id to its sender. -/
theorem receiveMessage_requests (codec : Codec Bytes) (requests : List (String × Message Bytes))
    {s : Server Bytes} (hs : s.handlers = networkHandlers)
    (hr : ∀ p ∈ requests, IsRequest codec s p.2) :
    receiveMessage codec
        (requests.map fun p => [codec.encodeText p.1, codec.serializeMessage p.2]) s =
      ({ s with
          peeredWithUs := (requests.filterMap fun p =>
            registryCall codec { p.2 with sender := p.1 }).foldl (fun t c => c.apply t)
              s.peeredWithUs
          inbound := s.inbound ++ requests.filterMap fun p => inboundItem codec p.2
          ready := s.ready ++ requests.map fun p =>
            .putMessage (ackFor codec { p.2 with sender := p.1 }) }, none) := by
  induction requests generalizing s with
  | nil => simp [receiveMessage]
  | cons p ps ih =>
    have hp := dispatch_request codec { p.2 with sender := p.1 } hs (hr p (.head _))
    rw [← receiveFrame_encoded] at hp
    rw [List.map_cons, receiveMessage, loopUntilRaise_cons_of_ok hp, ← receiveMessage]
    refine Eq.trans (ih hs fun q hq => hr q (.tail _ hq)) ?_
    cases hc : registryCall codec { p.2 with sender := p.1 } <;>
      cases hi : inboundItem codec p.2 <;> simp [List.filterMap_cons, hc, hi]

/-- A registration, a gossip message and an unregistration, from two peers, at a new
network. -/
theorem receiveMessage_requests_three :
    let requests : List (String × Message Blob) :=
      [("peer-a", ⟨"gossip/register", "c1", .peerRegister "a", ""⟩),
        ("peer-a", ⟨"gossip/msg", "c2", .gossip .noise "t", ""⟩),
        ("peer-b", ⟨"gossip/unregister", "c3", .peerUnregister "b", ""⟩)]
    (∀ p ∈ requests, IsRequest Blob.codec {} p.2) ∧
      receiveMessage Blob.codec
          (requests.map fun p => [Blob.codec.encodeText p.1, Blob.codec.serializeMessage p.2])
          {} =
        ({ ({} : Server Blob) with
            peeredWithUs := (requests.filterMap fun p =>
              registryCall Blob.codec { p.2 with sender := p.1 }).foldl (fun t c => c.apply t) ∅
            inbound := requests.filterMap fun p => inboundItem Blob.codec p.2
            ready := requests.map fun p =>
              .putMessage (ackFor Blob.codec { p.2 with sender := p.1 }) }, none) := by
  intro requests
  have hr : ∀ p ∈ requests, IsRequest Blob.codec {} p.2 := by
    intro p hp
    simp only [requests, List.mem_cons, List.mem_singleton, List.not_mem_nil, or_false] at hp
    rcases hp with rfl | rfl | rfl <;> exact ⟨AList.not_mem_empty _, _, rfl, by decide, rfl⟩
  exact ⟨hr, receiveMessage_requests Blob.codec requests rfl hr⟩

/-! ## Pings -/

/-- A `gossip/ping` request that no future waits for reaches the network's default
handler, which only prints: the frame is processed and nothing changes, so no ack is
scheduled or written. -/
theorem receiveFrame_ping_unanswered (codec : Codec Bytes) (s : Server Bytes)
    (hs : s.handlers = networkHandlers) {ident result : Bytes} {message : Message Bytes}
    {sender : String} (hm : codec.parseMessage result = some message)
    (hd : codec.decodeText ident = some sender) (ht : message.messageType = "gossip/ping")
    (hf : message.correlationId ∉ s.futures) :
    receiveFrame codec [ident, result] s = (s, none) := by
  simp only [receiveFrame, hm, hd, dispatch, FutureCollection.setResult_of_not_mem _ hf, hs,
    lookupHandler_networkHandlers, ht]
  rfl

/-- The ping of the free codec, with a fresh correlation id, against a new network. -/
theorem receiveFrame_ping_unanswered_free :
    Blob.codec.parseMessage (.message "gossip/ping" "c1" .ping "") =
        some ⟨"gossip/ping", "c1", .ping, ""⟩ ∧
      Blob.codec.decodeText (.text "peer-a") = some "peer-a" ∧
      "c1" ∉ ({} : Server Blob).futures ∧
      receiveFrame Blob.codec [.text "peer-a", .message "gossip/ping" "c1" .ping ""] {} =
        ({}, none) :=
  ⟨rfl, rfl, AList.not_mem_empty _,
    receiveFrame_ping_unanswered Blob.codec {} rfl rfl rfl rfl (AList.not_mem_empty _)⟩

end Server

end ValidatorNetwork
