import ValidatorNetwork.World

/-!
# Replies and initial messages at a server

A server decides that a message is a reply exactly when its futures table has the
correlation id. In every run, the only writer of a network's table is the second half of
`Network.broadcast_message`, which puts a future for the message it has just handed to
its own drainer (`TableFacts`). So a server classifies a received `gossip/msg` by one
question: has this network itself broadcast a message with that correlation id, and
has the future of that broadcast been put yet (`receive_gossip_classified`)? A network
whose peer list names its own endpoint receives its own broadcasts, and once the put
has run it consumes them as replies (`own_broadcast_consumed_as_reply`).
-/

namespace ValidatorNetwork

variable {Bytes : Type}

/-- The futures table of a network holds exactly the ids of the broadcasts whose future
it has put, and its handler table is the one `Network.__init__` filled. -/
structure TableFacts (v : Node Bytes) : Prop where
  futures_broadcasts : ∀ k, k ∈ v.server.futures ↔ ∃ m ∈ v.broadcastPuts, m.correlationId = k
  handlers : v.server.handlers = networkHandlers

theorem TableFacts.of_keys {v v' : Node Bytes} (hv : TableFacts v)
    (hk : ∀ k, k ∈ v'.server.futures ↔ k ∈ v.server.futures)
    (hh : v'.server.handlers = v.server.handlers) (hb : v'.broadcastPuts = v.broadcastPuts) :
    TableFacts v' where
  futures_broadcasts k := by rw [hk, hb]; exact hv.futures_broadcasts k
  handlers := hh.trans hv.handlers

/-- Only the put of a broadcast future adds a key; every other move keeps the keys. -/
theorem TableFacts.of_move {codec : Codec Bytes} {w : World Bytes} {n : Nat} {v : Node Bytes}
    (hn : TableFacts (w.nodes n)) (h : World.ServerMove codec w n v) : TableFacts v := by
  cases h with
  | keep hs _ hb => exact hn.of_keys (fun _ => by rw [hs]) (by rw [hs]) hb
  | broadcastMessage m hs _ hb => exact hn.of_keys (fun _ => by rw [hs]; rfl) (by rw [hs]; rfl) hb
  | putBroadcastFuture m hs _ hb =>
    refine ⟨fun k => ?_, by rw [hs]; exact hn.handlers⟩
    simp only [hs, hb, FutureCollection.mem_put, hn.futures_broadcasts, List.mem_append,
      List.mem_singleton]
    constructor
    · rintro (rfl | ⟨b, hb, rfl⟩)
      · exact ⟨m, .inr rfl, rfl⟩
      · exact ⟨b, .inl hb, rfl⟩
    · rintro ⟨b, hb | rfl, rfl⟩
      · exact .inr ⟨b, hb, rfl⟩
      · exact .inl rfl
  | runTask hs _ hb =>
    obtain ⟨hf, hh⟩ := Server.runTask_keeps hs
    exact hn.of_keys (fun _ => by rw [hf]) hh hb
  | sendNext hs _ hb =>
    obtain ⟨hf, hh, -⟩ := Server.sendNext_keeps hs
    exact hn.of_keys (fun _ => by rw [hf]) hh hb
  | drainBegin m rest _ hs _ hb => exact hn.of_keys (fun _ => by rw [hs]) (by rw [hs]) hb
  | receive c m _ _ _ hs _ hb =>
    have hk := Server.dispatch_keeps codec
      { m with sender := (w.nodes (w.links c).owner).processIdentity } (w.nodes n).server
    rw [← hs] at hk
    exact hn.of_keys hk.futures hk.handlers hb

namespace World

/-- `TableFacts` for every network. -/
def TableInv (w : World Bytes) : Prop := ∀ n, TableFacts (w.nodes n)

theorem tableInv_init (endpoint processIdentity : Nat → String) :
    TableInv (init endpoint processIdentity : World Bytes) := fun _ =>
  ⟨fun k => by simp [init, AList.not_mem_empty], rfl⟩

theorem tableInv_run (codec : Codec Bytes) (endpoint processIdentity : Nat → String)
    {acts : List (WorldAction Bytes)} {w : World Bytes}
    (h : run codec acts (init endpoint processIdentity) = some w) : TableInv w :=
  run_induction codec TableInv
    (fun _ _ _ hi hs n => (hi n).of_move (step_serverMove codec hs n))
    (tableInv_init endpoint processIdentity) h

/-- Take any networks, any connections between them, a network's own endpoint included,
and any schedule. When a server receives a `gossip/msg` whose payload is a
`GossipMessage`, it treats it as an initial message (puts the payload on `inbound_queue`
and schedules its ack) exactly when its network has put no broadcast future under that
correlation id. Otherwise `set_result` consumes the message as a reply, and neither the
inbound log nor the send path changes. -/
theorem receive_gossip_classified (codec : Codec Bytes) (endpoint processIdentity : Nat → String)
    (acts : List (WorldAction Bytes)) {w : World Bytes}
    (hw : run codec acts (init endpoint processIdentity) = some w) (n c : Nat)
    {m : Message Bytes} (hr : (w.nodes n).receiving = true)
    (hu : (w.nodes n).endpoint = (w.links c).url)
    (hm : (w.links c).stream.written[(w.links c).delivered]? = some m)
    (ht : m.messageType = "gossip/msg") {g : GossipMessage Bytes}
    (hg : codec.parseGossipMessage m.content = some g) :
    ((∀ b ∈ (w.nodes n).broadcastPuts, b.correlationId ≠ m.correlationId) →
      ∃ w', step codec (.receive n c) w = some w' ∧ (w'.nodes n).receiving = true ∧
        (w'.nodes n).server = { (w.nodes n).server with
          inbound := (w.nodes n).server.inbound ++ [g]
          ready := (w.nodes n).server.ready ++ [.putMessage (ackFor codec
            { m with sender := (w.nodes (w.links c).owner).processIdentity })] }) ∧
    ((∃ b ∈ (w.nodes n).broadcastPuts, b.correlationId = m.correlationId) →
      ∃ f w', (w.nodes n).server.futures.lookup m.correlationId = some f ∧
        step codec (.receive n c) w = some w' ∧ (w'.nodes n).receiving = true ∧
        (w'.nodes n).server = { (w.nodes n).server with
          futures := (w.nodes n).server.futures.insert m.correlationId
            (f.setResult ⟨m.messageType, m.content⟩) }) := by
  have hi := tableInv_run codec endpoint processIdentity hw n
  rw [step_receive codec hr hu hm]
  generalize (w.nodes (w.links c).owner).processIdentity = sender
  constructor
  · intro hb
    have hf : m.correlationId ∉ (w.nodes n).server.futures := fun h => by
      obtain ⟨b, hb', he⟩ := (hi.futures_broadcasts _).1 h
      exact hb b hb' he
    rw [Server.dispatch_gossip_of_not_mem codec { m with sender } hi.handlers ht hg hf]
    exact ⟨_, rfl, by simp, by simp⟩
  · intro hb
    obtain ⟨f, hf⟩ := Option.isSome_iff_exists.1
      (AList.lookup_isSome.2 ((hi.futures_broadcasts _).2 hb))
    rw [Server.dispatch_of_lookup codec { m with sender } hf]
    exact ⟨f, _, hf, rfl, by simp, by simp⟩

/-- A network whose peer list names its own endpoint: it connects to itself, broadcasts one
`gossip/msg`, puts its future, drains it to the connection, and its server receives the
registration; the broadcast is the next written message, and its id is among the ids of the
broadcasts whose future is put, so the reply branch applies. -/
def ownBroadcastSchedule : List (WorldAction Blob) :=
  [.addConnection 0 0 "tcp://a" "r1", .startConnection 0, .appendConnection 0,
    .broadcastMessage 0 ⟨"gossip/msg", "b1", .gossip .noise "", ""⟩, .putBroadcastFuture 0 0,
    .serverTask 0, .drainBegin 0, .drainPut 0, .drainHandOff 0, .drainEnd 0, .clientTask 0,
    .clientTask 0, .clientSend 0, .clientSend 0, .receive 0 0]

theorem receive_gossip_classified_own_broadcast :
    ∃ w : World Blob,
      run Blob.codec ownBroadcastSchedule (init (fun _ => "tcp://a") fun _ => "host-1") =
        some w ∧
      (w.nodes 0).receiving = true ∧ (w.nodes 0).endpoint = (w.links 0).url ∧
      (w.links 0).stream.written[(w.links 0).delivered]? =
        some ⟨"gossip/msg", "b1", .gossip .noise "", ""⟩ ∧
      (∃ b ∈ (w.nodes 0).broadcastPuts, b.correlationId = "b1") ∧
        ∃ f w', (w.nodes 0).server.futures.lookup "b1" = some f ∧
          step Blob.codec (.receive 0 0) w = some w' ∧ (w'.nodes 0).receiving = true ∧
          (w'.nodes 0).server = { (w.nodes 0).server with
            futures := (w.nodes 0).server.futures.insert "b1"
              (f.setResult ⟨"gossip/msg", .gossip .noise ""⟩) } :=
  ⟨_, rfl, rfl, rfl, rfl, ⟨_, .head _, rfl⟩, (receive_gossip_classified Blob.codec
    (fun _ => "tcp://a") (fun _ => "host-1") ownBroadcastSchedule rfl 0 0
    rfl rfl rfl rfl rfl).2 ⟨_, .head _, rfl⟩⟩

/-- The network of `ownBroadcastSchedule` receives its own broadcast after the future of
the broadcast is put: `set_result` consumes it, nothing is put on `inbound_queue`, and
the only ack scheduled is the registration's. -/
theorem own_broadcast_consumed_as_reply :
    ∃ w : World Blob,
      run Blob.codec (ownBroadcastSchedule ++ [.receive 0 0])
        (init (fun _ => "tcp://a") fun _ => "host-1") = some w ∧
      (w.nodes 0).broadcastPuts = [⟨"gossip/msg", "b1", .gossip .noise "", ""⟩] ∧
      (w.links 0).stream.written =
        [registerMessage Blob.codec "r1", ⟨"gossip/msg", "b1", .gossip .noise "", ""⟩] ∧
      (w.links 0).delivered = 2 ∧ (w.nodes 0).receiving = true ∧
      (w.nodes 0).server.inbound = [] ∧
      (w.nodes 0).server.ready =
        [.putMessage
          (ackFor Blob.codec { registerMessage Blob.codec "r1" with sender := "host-1" })] ∧
      (w.nodes 0).server.futures.lookup "b1" =
        some ⟨"b1", some ⟨"gossip/msg", .gossip .noise ""⟩⟩ :=
  ⟨_, rfl, rfl, by decide, rfl, rfl, rfl, by decide, by decide⟩

end World

end ValidatorNetwork
