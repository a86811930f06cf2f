import ValidatorNetwork.Server

/-!
# The client side of a connection

`Stream` is a `Stream` together with its `_ClientSendReceiveThread`: the futures table
and handler table they share, the `_put_message` callbacks scheduled on the client loop,
the send queue, the messages written to the DEALER socket, and the receive queue.

Both `Stream.send` and `Stream.send_message` put a future for the correlation id and only
then hand the message to the client thread (`putFuture`, then `handOff`). The client loop
runs the scheduled callbacks in order (`putMessage`) and writes the send queue in order
(`sendNext`).

`receiveFrame` is one turn of `_receive_message`: parse a `MessageList`, then for each
message complete a future or call its handler and put the message on the receive queue.
The `try` covers one message; a `DecodeError` from the list, or any exception of a
handler, ends the coroutine, after the messages before it have been dispatched.
-/

namespace ValidatorNetwork

variable {Bytes : Type}

/-- A `Stream` and its `_ClientSendReceiveThread`. `ready` holds the messages of the
`_put_message` callbacks scheduled on the client loop, oldest first. -/
structure Stream (Bytes : Type) where
  futures : FutureCollection Bytes := ∅
  handlers : HandlerTable := streamHandlers
  ready : List (Message Bytes) := []
  sendQueue : List (Message Bytes) := []
  written : List (Message Bytes) := []
  recvQueue : List (Message Bytes) := []

namespace Stream

/-- The first half of `Stream.send` and `Stream.send_message`: put a future. -/
def putFuture (correlationId : String) (s : Stream Bytes) : Stream Bytes :=
  { s with futures := s.futures.put { correlationId } }

/-- `_ClientSendReceiveThread.send_message`: schedule `_put_message(msg)`. -/
def handOff (message : Message Bytes) (s : Stream Bytes) : Stream Bytes :=
  { s with ready := s.ready ++ [message] }

/-- `Stream.send_message`. -/
def sendMessage (message : Message Bytes) (s : Stream Bytes) : Stream Bytes :=
  handOff message (putFuture message.correlationId s)

/-- `Stream.send`, with the correlation id `_generate_id()` returned. -/
def send (messageType correlationId : String) (content : Bytes) (s : Stream Bytes) :
    Stream Bytes :=
  sendMessage { messageType, correlationId, content } s

/-- The client loop runs its oldest `_put_message` callback. -/
def putMessage (s : Stream Bytes) : Option (Stream Bytes) :=
  match s.ready with
  | [] => none
  | m :: rest => some { s with ready := rest, sendQueue := s.sendQueue ++ [m] }

/-- One turn of `_ClientSendReceiveThread._send_message`. -/
def sendNext (s : Stream Bytes) : Option (Stream Bytes) :=
  match s.sendQueue with
  | [] => none
  | m :: rest => some { s with sendQueue := rest, written := s.written ++ [m] }

/-- Everything handed to the client thread and not lost: written, queued, or scheduled. -/
def pipeline (s : Stream Bytes) : List (Message Bytes) :=
  s.written ++ s.sendQueue ++ s.ready

/-- A `Stream` as its handlers see it: it has none of the attributes they call. -/
def service : Service Bytes (Stream Bytes) := ⟨none, none, none⟩

/-- The `try`/`except FutureCollectionKeyError` of `_receive_message`, on one message. -/
def dispatch (codec : Codec Bytes) (message : Message Bytes) (s : Stream Bytes) :
    Stream Bytes × Option PyError :=
  match s.futures.setResult message.correlationId ⟨message.messageType, message.content⟩ with
  | .ok futures => ({ s with futures }, none)
  | .error _ =>
    match lookupHandler s.handlers message.messageType with
    | none => (s, some .keyError)
    | some handler =>
      match handler.handle codec service handOff message s with
      | (s', none) => ({ s' with recvQueue := s'.recvQueue ++ [message] }, none)
      | r => r

/-- One turn of `_ClientSendReceiveThread._receive_message` on a frame. -/
def receiveFrame (codec : Codec Bytes) (frame : Bytes) (s : Stream Bytes) :
    Stream Bytes × Option PyError :=
  match codec.parseMessageList frame with
  | none => (s, some .decodeError)
  | some messages => loopUntilRaise (dispatch codec) messages s

/-- `_ClientSendReceiveThread._receive_message` over the frames it awaits. -/
def receiveMessage (codec : Codec Bytes) (frames : List Bytes) (s : Stream Bytes) :
    Stream Bytes × Option PyError :=
  loopUntilRaise (receiveFrame codec) frames s

/-! ## Frame lemmas -/

@[simp] theorem putFuture_ready (c : String) (s : Stream Bytes) :
    (putFuture c s).ready = s.ready := rfl
@[simp] theorem putFuture_sendQueue (c : String) (s : Stream Bytes) :
    (putFuture c s).sendQueue = s.sendQueue := rfl
@[simp] theorem putFuture_written (c : String) (s : Stream Bytes) :
    (putFuture c s).written = s.written := rfl
@[simp] theorem putFuture_futures (c : String) (s : Stream Bytes) :
    (putFuture c s).futures = s.futures.put { correlationId := c } := rfl
@[simp] theorem handOff_futures (m : Message Bytes) (s : Stream Bytes) :
    (handOff m s).futures = s.futures := rfl
@[simp] theorem handOff_pipeline (m : Message Bytes) (s : Stream Bytes) :
    (handOff m s).pipeline = s.pipeline ++ [m] := by
  simp [handOff, pipeline]
@[simp] theorem putFuture_pipeline (c : String) (s : Stream Bytes) :
    (putFuture c s).pipeline = s.pipeline := rfl

theorem putMessage_spec {s s' : Stream Bytes} (h : putMessage s = some s') :
    s'.pipeline = s.pipeline ∧ s'.futures = s.futures ∧ s'.written = s.written := by
  unfold putMessage at h
  split at h
  · cases h
  · cases h; simp_all [pipeline]

theorem sendNext_spec {s s' : Stream Bytes} (h : sendNext s = some s') :
    s'.pipeline = s.pipeline ∧ s'.futures = s.futures ∧ s.written <+: s'.written := by
  unfold sendNext at h
  split at h
  · cases h
  · cases h; simp_all [pipeline]

/-- A message some future waits for completes that future and does nothing else: no
handler runs and the receive queue is untouched. -/
theorem dispatch_of_lookup (codec : Codec Bytes) {message : Message Bytes}
    {s : Stream Bytes} {f : Future Bytes} (h : s.futures.lookup message.correlationId = some f) :
    dispatch codec message s =
      ({ s with
          futures := s.futures.insert message.correlationId
            (f.setResult ⟨message.messageType, message.content⟩) }, none) := by
  simp [dispatch, FutureCollection.setResult_of_lookup _ h]

/-! ## Which frames the receive loop processes -/

/-- On a stream a handler changes nothing, or schedules its ack and nothing else. -/
theorem handle_stream (h : Handler) (codec : Codec Bytes) (message : Message Bytes)
    (s : Stream Bytes) :
    (h.handle codec service handOff message s).1 = s ∨
      (h.handle codec service handOff message s).1 = handOff (ackFor codec message) s := by
  cases h <;>
    simp only [Handler.handle, DefaultHandler.handle, PeerRegisterHandler.handle,
      PeerUnregisterHandler.handle, GossipMessageHandler.handle, PingHandler.handle,
      acknowledge, service, Option.map_none'] <;>
    (try split) <;> simp

theorem handle_stream_keeps (h : Handler) (codec : Codec Bytes) (message : Message Bytes)
    (s : Stream Bytes) :
    (h.handle codec service handOff message s).1.futures = s.futures ∧
      (h.handle codec service handOff message s).1.handlers = s.handlers := by
  rcases handle_stream h codec message s with e | e <;> rw [e] <;> exact ⟨rfl, rfl⟩

/-- Dispatching a message keeps the keys of the futures table and the handler table. -/
theorem dispatch_keeps (codec : Codec Bytes) (message : Message Bytes) (s : Stream Bytes) :
    (∀ c, c ∈ (dispatch codec message s).1.futures ↔ c ∈ s.futures) ∧
      (dispatch codec message s).1.handlers = s.handlers := by
  unfold dispatch
  split
  next futures hf => exact ⟨fun c => FutureCollection.mem_of_setResult hf, rfl⟩
  next =>
    split
    · exact ⟨fun _ => Iff.rfl, rfl⟩
    · rename_i handler _
      obtain ⟨hf, hh⟩ := handle_stream_keeps handler codec message s
      split
      · rename_i heq
        rw [heq] at hf hh
        dsimp only at hf hh
        simp [hf, hh]
      · simp [hf, hh]

/-- On a stream with the table `Stream.__init__` fills, a `gossip/ack` completes the future
waiting under its id; with none waiting, the table routes it to `default`, which drops it,
and it goes on the receive queue. Neither raises. -/
theorem dispatch_ack (codec : Codec Bytes) {message : Message Bytes} {s : Stream Bytes}
    (hs : s.handlers = streamHandlers) (ht : message.messageType = "gossip/ack") :
    (∃ f, s.futures.lookup message.correlationId = some f ∧
      dispatch codec message s = ({ s with
        futures := s.futures.insert message.correlationId
          (f.setResult ⟨message.messageType, message.content⟩) }, none)) ∨
    (message.correlationId ∉ s.futures ∧
      dispatch codec message s = ({ s with recvQueue := s.recvQueue ++ [message] }, none)) := by
  cases hf : s.futures.lookup message.correlationId with
  | some f => exact .inl ⟨f, rfl, dispatch_of_lookup codec hf⟩
  | none =>
    have hn : message.correlationId ∉ s.futures := AList.lookup_eq_none.1 hf
    refine .inr ⟨hn, ?_⟩
    simp [dispatch, FutureCollection.setResult_of_not_mem _ hn, hs,
      lookupHandler_streamHandlers, ht, Handler.handle, DefaultHandler.handle]

/-- Taking an ack leaves what was handed to the client thread and what it has written, and
keeps every future. -/
theorem dispatch_ack_keeps (codec : Codec Bytes) {message : Message Bytes} {s : Stream Bytes}
    (hs : s.handlers = streamHandlers) (ht : message.messageType = "gossip/ack") :
    (dispatch codec message s).1.pipeline = s.pipeline ∧
      (dispatch codec message s).1.written = s.written ∧
      ∀ k ∈ s.futures, k ∈ (dispatch codec message s).1.futures := by
  rcases dispatch_ack codec hs ht with ⟨f, -, e⟩ | ⟨-, e⟩ <;> rw [e]
  · exact ⟨rfl, rfl, fun _ hk => (AList.mem_insert _).2 (.inr hk)⟩
  · exact ⟨rfl, rfl, fun _ => id⟩

/-- Taking an ack gives a result only to the future under the ack's id, and that result is
the ack's type and content. -/
theorem dispatch_ack_results (codec : Codec Bytes) {message : Message Bytes} {s : Stream Bytes}
    (hs : s.handlers = streamHandlers) (ht : message.messageType = "gossip/ack") {k : String}
    {f : Future Bytes} {r : FutureResult Bytes}
    (hf : (dispatch codec message s).1.futures.lookup k = some f) (hr : f.result = some r) :
    (k = message.correlationId ∧ r = ⟨message.messageType, message.content⟩) ∨
      ∃ f', s.futures.lookup k = some f' ∧ f'.result = some r := by
  rcases dispatch_ack codec hs ht with ⟨f₀, -, e⟩ | ⟨-, e⟩ <;> rw [e] at hf
  · by_cases hk : k = message.correlationId
    · subst hk
      simp only [AList.lookup_insert, Option.some.injEq] at hf
      subst hf
      exact .inl ⟨rfl, (Option.some_inj.1 hr).symm⟩
    · exact .inr ⟨f, by rwa [AList.lookup_insert_ne hk] at hf, hr⟩
  · exact .inr ⟨f, hf, hr⟩

/-- A frame holding one message is that message's dispatch. -/
theorem receiveFrame_single (codec : Codec Bytes) {frame : Bytes} {message : Message Bytes}
    (hp : codec.parseMessageList frame = some [message]) (s : Stream Bytes) :
    receiveFrame codec frame s = dispatch codec message s := by
  rcases h : dispatch codec message s with ⟨s', _ | e⟩
  · simp [receiveFrame, hp, loopUntilRaise_cons_of_ok h]
  · simp [receiveFrame, hp, loopUntilRaise_cons_of_raise h]

end Stream

/-! ## Both receive loops -/

end ValidatorNetwork
