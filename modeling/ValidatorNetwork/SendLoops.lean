import ValidatorNetwork.World

/-!
# The send loops deliver in order

Each event loop moves what other threads hand it through two coroutines: the scheduled
`_put_message` callbacks fill an `asyncio.Queue`, and `_send_message` writes the queue to
the socket. From any state, running each scheduled callback and then each queued send
writes everything handed to the loop, in the order it was handed over, and touches nothing
else: on a connection's client thread (`client_send_loop_drains`), and on a network's
server thread, whose callbacks also move broadcasts to the broadcast queue
(`server_send_loop_drains`).
-/

namespace ValidatorNetwork

variable {Bytes : Type}

namespace World

variable (codec : Codec Bytes)

theorem run_clientTasks (c : Nat) (w : World Bytes) :
    run codec (List.replicate (w.links c).stream.ready.length (.clientTask c)) w =
      some (w.setLink c { w.links c with stream := { (w.links c).stream with
        ready := []
        sendQueue := (w.links c).stream.sendQueue ++ (w.links c).stream.ready } }) := by
  generalize hr : (w.links c).stream.ready = rs
  induction rs generalizing w with
  | nil =>
    have : ({ (w.links c).stream with
        ready := [], sendQueue := (w.links c).stream.sendQueue ++ [] } : Stream Bytes) =
        (w.links c).stream := by
      rw [List.append_nil, ← hr]
    rw [this]
    exact congrArg some (setLink_self c w).symm
  | cons m rs ih =>
    have h1 : step codec (.clientTask c) w = some (w.setLink c { w.links c with
        stream := { (w.links c).stream with
          ready := rs, sendQueue := (w.links c).stream.sendQueue ++ [m] } }) := by
      simp [step, Stream.putMessage, hr]
    rw [List.length_cons, List.replicate_succ, run_cons, h1, Option.some_bind,
      ih _ (by simp)]
    simp

theorem run_clientSends (c : Nat) (w : World Bytes) :
    run codec (List.replicate (w.links c).stream.sendQueue.length (.clientSend c)) w =
      some (w.setLink c { w.links c with stream := { (w.links c).stream with
        sendQueue := []
        written := (w.links c).stream.written ++ (w.links c).stream.sendQueue } }) := by
  generalize hq : (w.links c).stream.sendQueue = ms
  induction ms generalizing w with
  | nil =>
    have : ({ (w.links c).stream with
        sendQueue := [], written := (w.links c).stream.written ++ [] } : Stream Bytes) =
        (w.links c).stream := by
      rw [List.append_nil, ← hq]
    rw [this]
    exact congrArg some (setLink_self c w).symm
  | cons m ms ih =>
    have h1 : step codec (.clientSend c) w = some (w.setLink c { w.links c with
        stream := { (w.links c).stream with
          sendQueue := ms, written := (w.links c).stream.written ++ [m] } }) := by
      simp [step, Stream.sendNext, hq]
    rw [List.length_cons, List.replicate_succ, run_cons, h1, Option.some_bind,
      ih _ (by simp)]
    simp

/-- From any state, the client thread of connection `c`, given a turn of `_put_message` per
scheduled message and a turn of `_send_message` per queued one, writes everything handed to
it, in hand-off order, and nothing else changes. -/
theorem client_send_loop_drains (c : Nat) (w : World Bytes) :
    run codec (List.replicate (w.links c).stream.ready.length (.clientTask c) ++
        List.replicate ((w.links c).stream.sendQueue.length + (w.links c).stream.ready.length)
          (.clientSend c)) w =
      some (w.setLink c { w.links c with stream := { (w.links c).stream with
        ready := [], sendQueue := [], written := (w.links c).stream.pipeline } }) := by
  rw [run_append, run_clientTasks, Option.some_bind]
  have h := run_clientSends codec c (w.setLink c { w.links c with stream :=
    { (w.links c).stream with
      ready := [], sendQueue := (w.links c).stream.sendQueue ++ (w.links c).stream.ready } })
  simp only [setLink_links_self, List.length_append] at h
  rw [h]
  simp [Stream.pipeline]

/-- After any run, the client thread of connection `c` can write everything it holds. -/
theorem exists_run_client_writes {as : List (WorldAction Bytes)} {w w₁ : World Bytes}
    (h : run codec as w = some w₁) (c : Nat) :
    ∃ bs, run codec (as ++ bs) w = some (w₁.setLink c { w₁.links c with stream :=
      { (w₁.links c).stream with
        ready := [], sendQueue := [], written := (w₁.links c).stream.pipeline } }) :=
  ⟨_, run_append_of_eq_some h (client_send_loop_drains codec c w₁)⟩

theorem run_serverTasks (n : Nat) (w : World Bytes) :
    run codec (List.replicate (w.nodes n).server.ready.length (.serverTask n)) w =
      some (w.setNode n { w.nodes n with server := { (w.nodes n).server with
        ready := []
        sendQueue := (w.nodes n).server.sendQueue ++
          (w.nodes n).server.ready.filterMap ServerTask.replyOf
        broadcastQueue := (w.nodes n).server.broadcastQueue ++
          (w.nodes n).server.ready.filterMap ServerTask.broadcastOf } }) := by
  generalize hr : (w.nodes n).server.ready = ts
  induction ts generalizing w with
  | nil =>
    have : ({ (w.nodes n).server with
        ready := [], sendQueue := (w.nodes n).server.sendQueue ++ [],
        broadcastQueue := (w.nodes n).server.broadcastQueue ++ [] } : Server Bytes) =
        (w.nodes n).server := by
      rw [List.append_nil, List.append_nil, ← hr]
    simp only [List.filterMap_nil]
    rw [this]
    exact congrArg some (setNode_self n w).symm
  | cons t ts ih =>
    cases t with
    | putMessage m =>
      have h1 : step codec (.serverTask n) w = some (w.setNode n { w.nodes n with
          server := { (w.nodes n).server with
            ready := ts, sendQueue := (w.nodes n).server.sendQueue ++ [m] } }) := by
        simp [step, Server.runTask, hr]
      rw [List.length_cons, List.replicate_succ, run_cons, h1, Option.some_bind,
        ih _ (by simp)]
      simp [ServerTask.replyOf, ServerTask.broadcastOf]
    | putBroadcastMessage m =>
      have h1 : step codec (.serverTask n) w = some (w.setNode n { w.nodes n with
          server := { (w.nodes n).server with
            ready := ts, broadcastQueue := (w.nodes n).server.broadcastQueue ++ [m] } }) := by
        simp [step, Server.runTask, hr]
      rw [List.length_cons, List.replicate_succ, run_cons, h1, Option.some_bind,
        ih _ (by simp)]
      simp [ServerTask.replyOf, ServerTask.broadcastOf]

theorem run_serverSends (n : Nat) (w : World Bytes) :
    run codec (List.replicate (w.nodes n).server.sendQueue.length (.serverSend n)) w =
      some (w.setNode n { w.nodes n with server := { (w.nodes n).server with
        sendQueue := []
        written := (w.nodes n).server.written ++ (w.nodes n).server.sendQueue.map fun m =>
          (codec.encodeText m.sender, codec.serializeMessageList [m]) } }) := by
  generalize hq : (w.nodes n).server.sendQueue = ms
  induction ms generalizing w with
  | nil =>
    have : ({ (w.nodes n).server with
        sendQueue := [], written := (w.nodes n).server.written ++ [] } : Server Bytes) =
        (w.nodes n).server := by
      rw [List.append_nil, ← hq]
    simp only [List.map_nil]
    rw [this]
    exact congrArg some (setNode_self n w).symm
  | cons m ms ih =>
    have h1 : step codec (.serverSend n) w = some (w.setNode n { w.nodes n with
        server := { (w.nodes n).server with
          sendQueue := ms, written := (w.nodes n).server.written ++
            [(codec.encodeText m.sender, codec.serializeMessageList [m])] } }) := by
      simp [step, Server.sendNext, hq]
    rw [List.length_cons, List.replicate_succ, run_cons, h1, Option.some_bind,
      ih _ (by simp)]
    simp

/-- From any state, the server thread of network `n`, given a turn per scheduled callback
and a turn of `_send_message` per reply, writes every reply handed to it, in order, each as
a frame of its sender's routing prefix and a one-message `MessageList`; the scheduled
broadcasts go to the broadcast queue in order, and nothing else changes. -/
theorem server_send_loop_drains (n : Nat) (w : World Bytes) :
    run codec (List.replicate (w.nodes n).server.ready.length (.serverTask n) ++
        List.replicate ((w.nodes n).server.sendQueue.length +
          ((w.nodes n).server.ready.filterMap ServerTask.replyOf).length) (.serverSend n)) w =
      some (w.setNode n { w.nodes n with server := { (w.nodes n).server with
        ready := []
        sendQueue := []
        written := (w.nodes n).server.written ++
          ((w.nodes n).server.sendQueue ++
            (w.nodes n).server.ready.filterMap ServerTask.replyOf).map fun m =>
              (codec.encodeText m.sender, codec.serializeMessageList [m])
        broadcastQueue := (w.nodes n).server.broadcastQueue ++
          (w.nodes n).server.ready.filterMap ServerTask.broadcastOf } }) := by
  rw [run_append, run_serverTasks, Option.some_bind]
  have h := run_serverSends codec n (w.setNode n { w.nodes n with server :=
    { (w.nodes n).server with
      ready := []
      sendQueue := (w.nodes n).server.sendQueue ++
        (w.nodes n).server.ready.filterMap ServerTask.replyOf
      broadcastQueue := (w.nodes n).server.broadcastQueue ++
        (w.nodes n).server.ready.filterMap ServerTask.broadcastOf } })
  simp only [setNode_nodes_self, List.length_append] at h
  rw [h]
  simp

/-! ## What a network sends -/

/-- An OK `gossip/ack`. -/
def IsOkAck (codec : Codec Bytes) (m : Message Bytes) : Prop :=
  m.messageType = "gossip/ack" ∧ m.content = codec.serializeNetworkAcknowledgement ⟨.ok⟩

/-- Everything a server has written, queued, or scheduled to send is an OK ack. -/
structure AcksOnly (s : Server Bytes) : Prop where
  pending : ∀ m ∈ s.sendQueue ++ s.ready.filterMap ServerTask.replyOf, IsOkAck codec m
  written : ∀ f ∈ s.written, ∃ m, IsOkAck codec m ∧
    f = (codec.encodeText m.sender, codec.serializeMessageList [m])

variable {codec}

theorem AcksOnly.runTask {s s' : Server Bytes} (hs : AcksOnly codec s)
    (h : s.runTask = some s') : AcksOnly codec s' := by
  obtain ⟨hp, hw⟩ := Server.runTask_replies h
  exact ⟨hp ▸ hs.pending, hw ▸ hs.written⟩

theorem AcksOnly.sendNext {s s' : Server Bytes} (hs : AcksOnly codec s)
    (h : s.sendNext codec = some s') : AcksOnly codec s' := by
  unfold Server.sendNext at h
  split at h
  · cases h
  · next m rest hq =>
    cases h
    have hm := hs.pending
    rw [hq] at hm
    refine ⟨fun m' h' => hm m' (.tail _ h'), fun f hf => ?_⟩
    rcases List.mem_append.1 hf with hf | hf
    · exact hs.written f hf
    · exact ⟨m, hm m (.head _), List.mem_singleton.1 hf⟩

theorem AcksOnly.dispatch {s : Server Bytes} (hs : AcksOnly codec s) (message : Message Bytes) :
    AcksOnly codec (s.dispatch codec message).1 := by
  have hk := Server.dispatch_keeps codec message s
  refine ⟨?_, hk.written ▸ hs.written⟩
  rcases Server.dispatch_ready codec message s with hr | hr
  · rw [hr, hk.sendQueue]; exact hs.pending
  · rw [hr, hk.sendQueue, List.filterMap_append, ← List.append_assoc]
    intro m' hm'
    rcases List.mem_append.1 hm' with hm' | hm'
    · exact hs.pending m' hm'
    · simp only [List.filterMap_cons, ServerTask.replyOf, List.filterMap_nil,
        List.mem_singleton] at hm'
      subst hm'
      exact ⟨rfl, rfl⟩

/-- Every move of a server keeps `AcksOnly`: a broadcast schedules no reply, and a
dispatch schedules nothing or an OK ack. -/
theorem AcksOnly.of_move {w : World Bytes} {n : Nat} {v : Node Bytes}
    (hn : AcksOnly codec (w.nodes n).server) (h : ServerMove codec w n v) :
    AcksOnly codec v.server := by
  cases h with
  | keep hs => rwa [hs]
  | broadcastMessage m hs =>
    rw [hs]
    exact ⟨by simpa [Server.broadcastMessage, ServerTask.replyOf] using hn.pending, hn.written⟩
  | putBroadcastFuture m hs => rw [hs]; exact ⟨hn.pending, hn.written⟩
  | runTask hs => exact hn.runTask hs
  | sendNext hs => exact hn.sendNext hs
  | drainBegin m rest _ hs => rw [hs]; exact ⟨hn.pending, hn.written⟩
  | receive c m _ _ _ hs => rw [hs]; exact hn.dispatch _

/-- `AcksOnly` for every network. -/
def AcksInv (codec : Codec Bytes) (w : World Bytes) : Prop :=
  ∀ n, AcksOnly codec (w.nodes n).server

/-- In every run, every frame a network's server has written is an OK `gossip/ack` in a
one-message `MessageList`, under its sender's routing prefix. No network ever sends a
stream a request, so a stream's own handlers never answer a network. -/
theorem network_writes_only_ok_acks (codec : Codec Bytes)
    (endpoint processIdentity : Nat → String) (acts : List (WorldAction Bytes))
    {w : World Bytes} (hw : run codec acts (init endpoint processIdentity) = some w) (n : Nat) :
    ∀ f ∈ (w.nodes n).server.written, ∃ m, m.messageType = "gossip/ack" ∧
      m.content = codec.serializeNetworkAcknowledgement ⟨.ok⟩ ∧
      f = (codec.encodeText m.sender, codec.serializeMessageList [m]) := by
  have hi : AcksInv codec w :=
    run_induction codec (AcksInv codec)
      (fun _ _ _ hi hs n => (hi n).of_move (step_serverMove codec hs n))
      (fun _ => ⟨by simp [init], by simp [init]⟩) hw
  intro f hf
  obtain ⟨m, ⟨ht, hc⟩, rfl⟩ := (hi n).written f hf
  exact ⟨m, ht, hc, rfl⟩

/-- A network connected to itself receives its connection's registration and writes the
ack. -/
theorem network_writes_only_ok_acks_register :
    ∃ w : World Blob,
      run Blob.codec [.addConnection 0 0 "tcp://a" "r1", .startConnection 0, .clientTask 0,
        .clientSend 0, .receive 0 0, .serverTask 0, .serverSend 0]
        (init (fun _ => "tcp://a") fun _ => "host-1") = some w ∧
      (w.nodes 0).server.written =
        [(.text "host-1", .cons (.message "gossip/ack" "r1" (.ack .ok) "host-1") .nil)] ∧
      ∀ f ∈ (w.nodes 0).server.written, ∃ m, m.messageType = "gossip/ack" ∧
        m.content = Blob.codec.serializeNetworkAcknowledgement ⟨.ok⟩ ∧
        f = (Blob.codec.encodeText m.sender, Blob.codec.serializeMessageList [m]) :=
  ⟨_, rfl, by decide, network_writes_only_ok_acks Blob.codec (fun _ => "tcp://a")
    (fun _ => "host-1") [.addConnection 0 0 "tcp://a" "r1", .startConnection 0, .clientTask 0,
      .clientSend 0, .receive 0 0, .serverTask 0, .serverSend 0] rfl 0⟩

end World

end ValidatorNetwork
