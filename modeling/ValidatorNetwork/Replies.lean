import ValidatorNetwork.Classification
import ValidatorNetwork.Broadcast
import ValidatorNetwork.SendLoops

/-!
# The way back: what servers write reaches the connections

`World` stops at the ROUTER socket: a server's `_send_message` writes frames of a routing
prefix and a one-message `MessageList`. ZeroMQ hands each frame to the DEALER socket that
announced the prefix, and that connection's `_ClientSendReceiveThread._receive_message`
takes it: `set_result` on the future under each message's id or, with none waiting, the
handler the stream's table names for the type, then the receive queue.

`Net` is `World` with that path. The DEALER of a built connection `c` takes, in order, the
frames a server at its url has written to the routing prefix of `c`'s owner (`reply`);
`taken` counts them, and `clientReceiving` says whether the client receive coroutine still
runs. All DEALER sockets of one process share its prefix, and which of two connections to
one url under one prefix the ROUTER serves is up to ZeroMQ: the model lets each of them
take every such frame, which contains what ZeroMQ does.

Every frame a connection takes is an OK `gossip/ack`, which completes a future or, with
none waiting, goes to the `default` handler, which drops it. So in every run each client
receive loop still runs, every future a connection holds resolves only to an OK ack, and
only OK acks reach a receive queue (`connection_receives_only_ok_acks`).
-/

namespace ValidatorNetwork

variable {Bytes : Type}

/-- Whether `Connection.__init__` has built the connection. -/
def Link.built (l : Link Bytes) : Bool :=
  match l.stage with
  | .absent => false
  | _ => true

theorem Link.built_iff {l : Link Bytes} : l.built = true ↔ l.stage ≠ .absent := by
  unfold Link.built; split <;> simp_all

/-- `World` with the DEALER side of every connection. -/
structure Net (Bytes : Type) where
  world : World Bytes
  /-- `taken n c`: how many frames of server `n` the DEALER of connection `c` has taken. -/
  taken : Nat → Nat → Nat
  /-- Whether the client receive coroutine of connection `c` still runs. -/
  clientReceiving : Nat → Bool

/-- An action of `World`, or a DEALER taking the next frame a server wrote to it. -/
inductive NetAction (Bytes : Type)
  | world (a : WorldAction Bytes)
  | reply (node link : Nat)

namespace Net

/-- Networks at the given endpoints, before any connection. -/
def init (endpoint processIdentity : Nat → String) : Net Bytes where
  world := World.init endpoint processIdentity
  taken _ _ := 0
  clientReceiving _ := true

/-- The frames server `n` has written to the routing prefix of connection `c`'s owner, as
its DEALER socket receives them. By the codec laws a prefix decodes to the identity exactly
when it is the identity's encoding. -/
def inbox (codec : Codec Bytes) (w : World Bytes) (n c : Nat) : List Bytes :=
  (w.nodes n).server.written.filterMap fun f =>
    if codec.decodeText f.1 = some (w.nodes (w.links c).owner).processIdentity then some f.2
    else none

/-- The step function; `none` when the action is not enabled. -/
def step (codec : Codec Bytes) : NetAction Bytes → Net Bytes → Option (Net Bytes)
  | .world a, s => (World.step codec a s.world).map fun w => { s with world := w }
  | .reply n c, s =>
    if (s.world.links c).built && s.clientReceiving c &&
        (s.world.nodes n).endpoint == (s.world.links c).url then
      match (inbox codec s.world n c)[s.taken n c]? with
      | some frame =>
        let r := (s.world.links c).stream.receiveFrame codec frame
        some { world := s.world.setLink c { s.world.links c with stream := r.1 }
               taken := fun n' c' => if n' = n ∧ c' = c then s.taken n c + 1 else s.taken n' c'
               clientReceiving := fun c' => if c' = c then r.2.isNone else s.clientReceiving c' }
      | none => none
    else none

/-- Run a schedule of actions; `none` when one is not enabled. -/
def run (codec : Codec Bytes) (acts : List (NetAction Bytes)) (s : Net Bytes) :
    Option (Net Bytes) :=
  acts.foldlM (fun s a => step codec a s) s

theorem run_append_of_eq_some {codec : Codec Bytes} {as bs : List (NetAction Bytes)}
    {s s₁ s₂ : Net Bytes} (h₁ : run codec as s = some s₁) (h₂ : run codec bs s₁ = some s₂) :
    run codec (as ++ bs) s = some s₂ := by
  simp only [run, List.foldlM_append] at h₁ h₂ ⊢
  rw [h₁]; exact h₂

@[simp] theorem run_nil (codec : Codec Bytes) (s : Net Bytes) : run codec [] s = some s := rfl

@[simp] theorem run_cons (codec : Codec Bytes) (a : NetAction Bytes)
    (as : List (NetAction Bytes)) (s : Net Bytes) :
    run codec (a :: as) s = (step codec a s).bind (run codec as) := rfl

/-- Carry a property of states along every schedule from one step of it. -/
theorem run_induction (codec : Codec Bytes) (P : Net Bytes → Prop)
    (hstep : ∀ a s s', P s → step codec a s = some s' → P s')
    {acts : List (NetAction Bytes)} {s s' : Net Bytes} (hs : P s)
    (h : run codec acts s = some s') : P s' := by
  induction acts generalizing s with
  | nil => cases h; exact hs
  | cons a acts ih =>
    obtain ⟨s₁, h₁, h₂⟩ := Option.bind_eq_some.1 h
    exact ih (hstep a s s₁ hs h₁) h₂

/-- A schedule of `World` is one of `Net`, which keeps the DEALER sides. -/
theorem run_world {codec : Codec Bytes} {as : List (WorldAction Bytes)} {s : Net Bytes}
    {w : World Bytes} (h : World.run codec as s.world = some w) :
    run codec (as.map .world) s = some { s with world := w } := by
  induction as generalizing s with
  | nil => cases h; rfl
  | cons a as ih =>
    obtain ⟨w₁, h₁, h₂⟩ := Option.bind_eq_some.1 h
    simp only [List.map_cons, run_cons, step, h₁, Option.map_some', Option.some_bind]
    exact ih (s := { s with world := w₁ }) h₂

/-! ## What a connection's receive loop has taken -/

variable {codec : Codec Bytes}

/-- The stream of a connection that has only ever taken OK acks: its table is the one
`Stream.__init__` fills, each completed future holds an OK ack, and only OK acks are on the
receive queue. -/
structure StreamOk (codec : Codec Bytes) (st : Stream Bytes) : Prop where
  handlers : st.handlers = streamHandlers
  results : ∀ k f r, st.futures.lookup k = some f → f.result = some r →
    r = ⟨"gossip/ack", codec.serializeNetworkAcknowledgement ⟨.ok⟩⟩
  recvQueue : ∀ m ∈ st.recvQueue, World.IsOkAck codec m

theorem StreamOk.empty (codec : Codec Bytes) : StreamOk codec ({} : Stream Bytes) :=
  ⟨rfl, fun _ _ _ h => by simp [AList.lookup_empty] at h, fun _ h => by simp at h⟩

/-- A new future holds no result. -/
theorem StreamOk.putFuture {st : Stream Bytes} (hs : StreamOk codec st) (k : String) :
    StreamOk codec (st.putFuture k) where
  handlers := hs.handlers
  results k' f r hf hr := by
    rw [Stream.putFuture_futures, FutureCollection.lookup_put] at hf
    split_ifs at hf
    · cases hf; cases hr
    · exact hs.results k' f r hf hr
  recvQueue := hs.recvQueue

/-- A step of `World` keeps it: it builds a stream, puts futures, or leaves alone what the
receive loop reads. -/
theorem StreamOk.of_linkMove {w : World Bytes} {c : Nat} {l : Link Bytes}
    (hs : StreamOk codec (w.links c).stream) (h : World.LinkMove codec w c l) :
    StreamOk codec l.stream := by
  have results k f r (hf : l.stream.futures.lookup k = some f) (hr : f.result = some r) :=
    have ⟨_, _, f', hf', hr'⟩ := h.results hf hr
    hs.results k f' r hf' hr'
  cases h with
  | keep _ _ _ hh hq => exact ⟨hh ▸ hs.handlers, results, hq ▸ hs.recvQueue⟩
  | build => exact ⟨rfl, results, fun _ h => (nomatch h)⟩
  | start | handOff | putFuture => exact ⟨hs.handlers, results, hs.recvQueue⟩

/-- Taking an OK ack keeps it, and raises nothing. -/
theorem StreamOk.dispatch {st : Stream Bytes} (hs : StreamOk codec st) {m : Message Bytes}
    (hm : World.IsOkAck codec m) :
    StreamOk codec (st.dispatch codec m).1 ∧ (st.dispatch codec m).2 = none := by
  have results k f r (hf : (st.dispatch codec m).1.futures.lookup k = some f)
      (hr : f.result = some r) :
      r = ⟨"gossip/ack", codec.serializeNetworkAcknowledgement ⟨.ok⟩⟩ := by
    rcases Stream.dispatch_ack_results codec hs.handlers hm.1 hf hr with ⟨-, rfl⟩ | ⟨f', hf', hr'⟩
    · rw [hm.1, hm.2]
    · exact hs.results k f' r hf' hr'
  rcases Stream.dispatch_ack codec hs.handlers hm.1 with ⟨f, -, e⟩ | ⟨-, e⟩ <;> rw [e] at results ⊢
  · exact ⟨⟨hs.handlers, results, hs.recvQueue⟩, rfl⟩
  · refine ⟨⟨hs.handlers, results, fun m' hm' => ?_⟩, rfl⟩
    rcases List.mem_append.1 hm' with hm' | hm'
    · exact hs.recvQueue m' hm'
    · rw [List.mem_singleton.1 hm']; exact hm

/-- A frame in a connection's inbox was written by the server under the routing prefix of
the connection's process. -/
theorem mem_inbox {w : World Bytes} {n c : Nat} {frame : Bytes} (h : frame ∈ inbox codec w n c) :
    ∃ f ∈ (w.nodes n).server.written,
      codec.decodeText f.1 = some (w.nodes (w.links c).owner).processIdentity ∧ f.2 = frame := by
  obtain ⟨f, hf, he⟩ := List.mem_filterMap.1 h
  split_ifs at he with hd
  exact ⟨f, hf, hd, Option.some_inj.1 he⟩

/-- A frame in a connection's inbox holds one OK ack, when its server writes only those. -/
theorem inbox_ack {w : World Bytes} {n c : Nat} (hn : World.AcksOnly codec (w.nodes n).server)
    {frame : Bytes} (h : frame ∈ inbox codec w n c) :
    ∃ a, World.IsOkAck codec a ∧ frame = codec.serializeMessageList [a] := by
  obtain ⟨f, hf, -, rfl⟩ := mem_inbox h
  obtain ⟨a, ha, rfl⟩ := hn.written f hf
  exact ⟨a, ha, rfl⟩

/-- The servers write only OK acks, and every connection's stream has taken only OK acks
and still receives. -/
structure ReplyInv (codec : Codec Bytes) (s : Net Bytes) : Prop where
  acks : World.AcksInv codec s.world
  streams : ∀ c, StreamOk codec (s.world.links c).stream
  receiving : ∀ c, s.clientReceiving c = true

theorem replyInv_init (endpoint processIdentity : Nat → String) :
    ReplyInv codec (init endpoint processIdentity : Net Bytes) :=
  ⟨fun _ => ⟨by simp [init, World.init], by simp [init, World.init]⟩,
    fun _ => StreamOk.empty codec, fun _ => rfl⟩

/-- A connection's stream is not what routes frames to it. -/
@[simp] theorem inbox_setLink_stream (w : World Bytes) (c : Nat) (st : Stream Bytes) :
    inbox codec (w.setLink c { w.links c with stream := st }) = inbox codec w := by
  funext n c'
  by_cases hc : c' = c
  · subst hc; simp [inbox]
  · simp [inbox, hc]

/-- The DEALER of a built connection at a server's url, whose receive loop runs, takes the
next frame the server has written to it. -/
theorem step_reply_enabled {s : Net Bytes} {n c : Nat} (hb : (s.world.links c).built = true)
    (hr : s.clientReceiving c = true) (hu : (s.world.nodes n).endpoint = (s.world.links c).url)
    (ht : s.taken n c < (inbox codec s.world n c).length) :
    ∃ s', step codec (.reply n c) s = some s' := by
  simp [step, hb, hr, hu, List.getElem?_eq_getElem ht]

section Frames

variable (hlist : ∀ m, codec.parseMessageList (codec.serializeMessageList [m]) = some [m])
include hlist

/-- One-message `MessageList`s that serialize alike hold the same message. -/
theorem serialize_single_inj {m m' : Message Bytes}
    (h : codec.serializeMessageList [m] = codec.serializeMessageList [m']) : m = m' := by
  have e := hlist m
  rw [h, hlist m'] at e
  simpa using e.symm

/-- What a reply step does: the next frame of the inbox holds one OK ack `m`, the
connection's stream dispatches it, the count of frames taken goes up by one, and nothing
else moves. -/
theorem step_reply {s s' : Net Bytes} (hi : ReplyInv codec s) {n c : Nat}
    (h : step codec (.reply n c) s = some s') :
    ∃ m, World.IsOkAck codec m ∧ (s.world.links c).built = true ∧
      (s.world.nodes n).endpoint = (s.world.links c).url ∧
      (inbox codec s.world n c)[s.taken n c]? = some (codec.serializeMessageList [m]) ∧
      s'.world = s.world.setLink c
        { s.world.links c with stream := ((s.world.links c).stream.dispatch codec m).1 } ∧
      s'.taken = (fun n' c' => if n' = n ∧ c' = c then s.taken n c + 1 else s.taken n' c') ∧
      s'.clientReceiving = s.clientReceiving := by
  simp only [step] at h
  split_ifs at h with hc
  split at h <;> cases h
  rename_i frame hframe
  obtain ⟨m, hm, rfl⟩ := inbox_ack (hi.acks n) (List.getElem?_mem hframe)
  simp only [Bool.and_eq_true, beq_iff_eq] at hc
  have hr := Stream.receiveFrame_single codec (hlist m) (s.world.links c).stream
  refine ⟨m, hm, hc.1.1, hc.2, hframe, by rw [hr], rfl, funext fun c' => ?_⟩
  by_cases hc' : c' = c <;> simp [hc', hr, ((hi.streams c).dispatch hm).2, hi.receiving]

theorem ReplyInv.after_step {s s' : Net Bytes} (hi : ReplyInv codec s) {a : NetAction Bytes}
    (h : step codec a s = some s') : ReplyInv codec s' := by
  cases a with
  | world a =>
    obtain ⟨w, hw, rfl⟩ := Option.map_eq_some'.1 h
    exact ⟨fun n => (hi.acks n).of_move (World.step_serverMove codec hw n),
      fun c => (hi.streams c).of_linkMove (World.step_linkMove codec hw c), hi.receiving⟩
  | reply n c =>
    obtain ⟨m, hm, -, -, -, hw, -, hr⟩ := step_reply hlist hi h
    refine ⟨hw ▸ hi.acks, fun c' => ?_, hr ▸ hi.receiving⟩
    rw [hw]
    by_cases hc : c' = c
    · subst hc; simpa using ((hi.streams c').dispatch hm).1
    · simpa [hc] using hi.streams c'

end Frames

/-- In every run, each client receive loop still runs, every future a connection holds
resolves only to an OK `gossip/ack`, and only OK acks are on a connection's receive queue:
no frame a server writes makes `_receive_message` raise or hand a caller anything else. -/
theorem connection_receives_only_ok_acks (codec : Codec Bytes)
    (hlist : ∀ m, codec.parseMessageList (codec.serializeMessageList [m]) = some [m])
    (endpoint processIdentity : Nat → String) (acts : List (NetAction Bytes)) {s : Net Bytes}
    (hs : run codec acts (init endpoint processIdentity) = some s) (c : Nat) :
    s.clientReceiving c = true ∧
      (∀ k f r, (s.world.links c).stream.futures.lookup k = some f → f.result = some r →
        r = ⟨"gossip/ack", codec.serializeNetworkAcknowledgement ⟨.ok⟩⟩) ∧
      ∀ m ∈ (s.world.links c).stream.recvQueue,
        m.messageType = "gossip/ack" ∧ m.content = codec.serializeNetworkAcknowledgement ⟨.ok⟩ := by
  have hi := run_induction codec (ReplyInv codec) (fun _ _ _ hi h => hi.after_step hlist h)
    (replyInv_init endpoint processIdentity) hs
  exact ⟨hi.receiving c, (hi.streams c).results, (hi.streams c).recvQueue⟩

/-- A network connected to itself: the connection sends its register, the server answers
it, and the connection's DEALER takes the answer. -/
def selfRegisterSchedule : List (NetAction Blob) :=
  [.world (.addConnection 0 0 "tcp://a" "r1"), .world (.startConnection 0),
    .world (.clientTask 0), .world (.clientSend 0), .world (.receive 0 0),
    .world (.serverTask 0), .world (.serverSend 0), .reply 0 0]

theorem connection_receives_only_ok_acks_self_register :
    ∃ s : Net Blob,
      run Blob.codec selfRegisterSchedule (init (fun _ => "tcp://a") fun _ => "host-1") =
        some s ∧
      s.taken 0 0 = 1 ∧
      (s.world.links 0).stream.futures.lookup "r1" =
        some ⟨"r1", some ⟨"gossip/ack", Blob.codec.serializeNetworkAcknowledgement ⟨.ok⟩⟩⟩ ∧
      s.clientReceiving 0 = true ∧
      (∀ k f r, (s.world.links 0).stream.futures.lookup k = some f → f.result = some r →
        r = ⟨"gossip/ack", Blob.codec.serializeNetworkAcknowledgement ⟨.ok⟩⟩) ∧
      ∀ m ∈ (s.world.links 0).stream.recvQueue, m.messageType = "gossip/ack" ∧
        m.content = Blob.codec.serializeNetworkAcknowledgement ⟨.ok⟩ := by
  refine ⟨_, rfl, rfl, by decide, ?_⟩
  exact connection_receives_only_ok_acks Blob.codec (fun _ => rfl) (fun _ => "tcp://a")
    (fun _ => "host-1") selfRegisterSchedule (by rfl) 0

end Net

end ValidatorNetwork
