import ValidatorNetwork.Broadcast
import ValidatorNetwork.Classification
import ValidatorNetwork.SendLoops

/-!
# A broadcast reaches every connection

`_broadcast_message` takes a message off the broadcast queue and walks `_connections`, and
at each connection `Stream.send_message` puts a future and hands the message to the
connection's client thread. In every reachable state where the drainer waits on the queue
and `m` is next, some schedule takes `m`, visits each connection in `_connections` once,
lets each client thread write what it holds, and brings the drainer back to the queue:
every listed connection has then written everything handed to it and then `m`, and no
other connection has changed (`broadcast_written_by_every_connection`).

The walk is one induction over the connections from the drainer's index on
(`walk_writes`), from one visit (`exists_run_visit`).

End to end: when such a connection leads to a network that has received everything the
connection wrote before, and `m` is a `gossip/msg` that no future of that network waits
for, some schedule puts the payload of `m` on that network's `inbound_queue` and schedules
its ack (`broadcast_gossip_reaches_caught_up_peer`).
-/

namespace ValidatorNetwork

variable {Bytes : Type}

namespace World

variable (codec : Codec Bytes)

/-- At index `i` of `_connections` the drainer puts the future of `m` on the connection
there and hands `m` to its client thread. -/
theorem run_drainPut_drainHandOff {w : World Bytes} {o i c : Nat} {m : Message Bytes}
    (hd : (w.nodes o).drainer = .visiting m i) (hc : (w.nodes o).connections[i]? = some c) :
    run codec [.drainPut o, .drainHandOff o] w = some ((w.setLink c { w.links c with
      stream := ((w.links c).stream.putFuture m.correlationId).handOff m }).setNode o
        { w.nodes o with drainer := .visiting m (i + 1) }) := by
  simp [step, hd, hc, setNode_setLink_comm]

/-- One visit: the drainer hands `m` to the connection at its index, whose client thread
then writes what it held and `m`; the drainer moves on and no other connection changes. -/
theorem exists_run_visit {w : World Bytes} {o i c : Nat} {m : Message Bytes}
    (hd : (w.nodes o).drainer = .visiting m i) (hc : (w.nodes o).connections[i]? = some c) :
    ∃ acts w', run codec acts w = some w' ∧
      w'.nodes = (w.setNode o { w.nodes o with drainer := .visiting m (i + 1) }).nodes ∧
      (w'.links c = { w.links c with stream := (w'.links c).stream } ∧
        (w'.links c).stream.written = (w.links c).stream.pipeline ++ [m]) ∧
      ∀ d ≠ c, w'.links d = w.links d := by
  obtain ⟨bs, h⟩ := exists_run_client_writes codec (run_drainPut_drainHandOff codec hd hc) c
  exact ⟨_, _, h, rfl, ⟨by simp, by simp⟩, fun d hd => by simp [hd]⟩

/-- The drainer walks the connections `ds` that `_connections` holds from its index on,
each visited once: every one of them writes what it held and then `m`, and no other
connection changes. -/
theorem walk_writes {o : Nat} {m : Message Bytes} :
    ∀ (ds : List Nat) (w : World Bytes) (i : Nat), (w.nodes o).drainer = .visiting m i →
      (w.nodes o).connections.drop i = ds → ds.Nodup →
      ∃ acts w', run codec acts w = some w' ∧
        w'.nodes = (w.setNode o { w.nodes o with drainer := .visiting m (i + ds.length) }).nodes ∧
        ∀ c, (c ∈ ds → w'.links c = { w.links c with stream := (w'.links c).stream } ∧
            (w'.links c).stream.written = (w.links c).stream.pipeline ++ [m]) ∧
          (c ∉ ds → w'.links c = w.links c)
  | [], w, i, hd, _, _ => ⟨[], w, rfl,
    by rw [List.length_nil, Nat.add_zero, ← hd]; exact congrArg nodes (setNode_self o w).symm,
    fun _ => ⟨nofun, fun _ => rfl⟩⟩
  | c :: ds, w, i, hd, hdrop, hn => by
    have hc : (w.nodes o).connections[i]? = some c := by
      rw [← List.head?_drop, hdrop]; rfl
    obtain ⟨hcds, hds⟩ := List.nodup_cons.1 hn
    obtain ⟨as, w₁, h₁, hn₁, hc₁, hl₁⟩ := exists_run_visit codec hd hc
    have ho₁ : w₁.nodes o = { w.nodes o with drainer := .visiting m (i + 1) } := by simp [hn₁]
    obtain ⟨bs, w', h', hn', hl'⟩ := walk_writes ds w₁ (i + 1) (by rw [ho₁])
      (by simp only [ho₁, ← List.tail_drop, hdrop, List.tail_cons]) hds
    refine ⟨as ++ bs, w', run_append_of_eq_some h₁ h', ?_, fun d => ⟨fun hd => ?_, fun hd => ?_⟩⟩
    · rw [hn', setNode_nodes_congr hn₁, ho₁, setNode_setNode, List.length_cons,
        Nat.add_right_comm, Nat.add_assoc]
    · rcases List.mem_cons.1 hd with rfl | hd
      · rw [(hl' d).2 hcds]; exact hc₁
      · rw [← hl₁ d (ne_of_mem_of_not_mem hd hcds)]; exact (hl' d).1 hd
    · rw [(hl' d).2 (fun h => hd (.tail _ h)), hl₁ d (fun h => hd (h ▸ .head _))]

/-- The drainer takes `m` off the queue, walks all of `_connections`, and waits again:
each connection there writes what it held and then `m`, no other connection changes, and
the network keeps everything but the queue and the drainer's record of what it took. -/
theorem exists_run_drain {w : World Bytes} {o : Nat} {m : Message Bytes}
    {rest : List (Message Bytes)} (hd : (w.nodes o).drainer = .idle)
    (hq : (w.nodes o).server.broadcastQueue = m :: rest) (hn : (w.nodes o).connections.Nodup) :
    ∃ acts w', run codec acts w = some w' ∧
      w'.nodes = (w.setNode o { w.nodes o with
        server := { (w.nodes o).server with broadcastQueue := rest },
        dequeued := (w.nodes o).dequeued ++ [m] }).nodes ∧
      ∀ c, (c ∈ (w.nodes o).connections →
          w'.links c = { w.links c with stream := (w'.links c).stream } ∧
          (w'.links c).stream.written = (w.links c).stream.pipeline ++ [m]) ∧
        (c ∉ (w.nodes o).connections → w'.links c = w.links c) := by
  let v : Node Bytes := { w.nodes o with
    server := { (w.nodes o).server with broadcastQueue := rest }, drainer := .visiting m 0,
    dequeued := (w.nodes o).dequeued ++ [m] }
  have h₁ : step codec (.drainBegin o) w = some (w.setNode o v) := by simp [step, hd, hq, v]
  obtain ⟨as, w₂, h₂, hn₂, hl₂⟩ := walk_writes codec (o := o) (m := m) _ (w.setNode o v) 0
    (by simp [v]) (by simp [v]) hn
  have h₃ : step codec (.drainEnd o) w₂ =
      some (w₂.setNode o { w₂.nodes o with drainer := .idle }) := by
    simp [step, hn₂, v]
  refine ⟨.drainBegin o :: as ++ [.drainEnd o], _,
    run_append_of_eq_some (by rw [run_cons, h₁, Option.some_bind, h₂])
      (by rw [run_cons, h₃]; rfl), ?_, fun c => by simpa using hl₂ c⟩
  rw [setNode_nodes_congr hn₂]
  simp [hn₂, v, ← hd]

/-- In every run, once network `o`'s drainer waits on the broadcast queue and `m` is next,
some schedule drains `m`: each connection in `_connections` writes everything it was
handed and then `m`, no other connection changes, and the drainer waits again with the rest
of the queue. -/
theorem broadcast_written_by_every_connection (codec : Codec Bytes)
    (endpoint processIdentity : Nat → String) (acts : List (WorldAction Bytes))
    {w : World Bytes} (hw : run codec acts (init endpoint processIdentity) = some w)
    {o : Nat} {m : Message Bytes} {rest : List (Message Bytes)}
    (hd : (w.nodes o).drainer = .idle) (hq : (w.nodes o).server.broadcastQueue = m :: rest) :
    ∃ acts' w', run codec acts' w = some w' ∧ (w'.nodes o).drainer = .idle ∧
      (w'.nodes o).server.broadcastQueue = rest ∧
      ∀ c, (c ∈ (w.nodes o).connections →
          (w'.links c).stream.written = (w.links c).stream.pipeline ++ [m]) ∧
        (c ∉ (w.nodes o).connections → w'.links c = w.links c) := by
  obtain ⟨acts', w', h, hn, hl⟩ := exists_run_drain codec hd hq
    ((broadcastInv_run codec endpoint processIdentity hw).node o).nodup
  exact ⟨acts', w', h, by simp [hn, hd], by simp [hn],
    fun c => ⟨fun hc => ((hl c).1 hc).2, (hl c).2⟩⟩

/-- A network connects to two peers and broadcasts one `gossip/msg`, which its server loop
moves to the broadcast queue. -/
def twoPeerBroadcastSchedule : List (WorldAction Blob) :=
  [.addConnection 0 0 "tcp://a" "r1", .startConnection 0, .appendConnection 0,
    .addConnection 0 1 "tcp://b" "r2", .startConnection 1, .appendConnection 1,
    .broadcastMessage 0 ⟨"gossip/msg", "b1", .gossip .noise "", ""⟩, .serverTask 0]

theorem broadcast_written_by_every_connection_two_peers :
    ∃ w : World Blob,
      run Blob.codec twoPeerBroadcastSchedule (init (fun _ => "tcp://a") fun _ => "host-1") =
        some w ∧
      (w.nodes 0).drainer = .idle ∧
      (w.nodes 0).server.broadcastQueue = [⟨"gossip/msg", "b1", .gossip .noise "", ""⟩] ∧
      ∃ acts' w', run Blob.codec acts' w = some w' ∧ (w'.nodes 0).drainer = .idle ∧
        (w'.nodes 0).server.broadcastQueue = [] ∧
        ∀ c, (c ∈ (w.nodes 0).connections → (w'.links c).stream.written =
            (w.links c).stream.pipeline ++ [⟨"gossip/msg", "b1", .gossip .noise "", ""⟩]) ∧
          (c ∉ (w.nodes 0).connections → w'.links c = w.links c) := by
  refine ⟨_, rfl, rfl, rfl, ?_⟩
  exact broadcast_written_by_every_connection Blob.codec (fun _ => "tcp://a")
    (fun _ => "host-1") twoPeerBroadcastSchedule (by rfl) (by rfl) (by rfl)

/-- `broadcast_gossip_reaches_caught_up_peer` from the invariants it reads: the receipt
also leaves what `n` has written, and the connection has written `m`. -/
theorem broadcast_gossip_received (codec : Codec Bytes) {w : World Bytes} (hb : BroadcastInv w)
    (hT : TableInv w) {o n c : Nat} {m : Message Bytes} {rest : List (Message Bytes)}
    {g : GossipMessage Bytes}
    (hd : (w.nodes o).drainer = .idle) (hq : (w.nodes o).server.broadcastQueue = m :: rest)
    (hc : c ∈ (w.nodes o).connections) (hu : (w.links c).url = (w.nodes n).endpoint)
    (hr : (w.nodes n).receiving = true)
    (hdl : (w.links c).delivered = (w.links c).stream.pipeline.length)
    (ht : m.messageType = "gossip/msg") (hg : codec.parseGossipMessage m.content = some g)
    (hf : m.correlationId ∉ (w.nodes n).server.futures) :
    ∃ acts' w', run codec acts' w = some w' ∧ (w'.nodes n).receiving = true ∧
      (w'.nodes n).server.inbound = (w.nodes n).server.inbound ++ [g] ∧
      (w'.nodes n).server.ready = (w.nodes n).server.ready ++
        [.putMessage (ackFor codec { m with sender := (w.nodes o).processIdentity })] ∧
      (w'.nodes n).server.written = (w.nodes n).server.written ∧
      m ∈ (w'.links c).stream.written := by
  -- `o` drains `m` to `c`, which writes it after everything `n` has received
  obtain ⟨as, w₂, h₂, hn₂, hl₂⟩ := exists_run_drain codec hd hq (hb.node o).nodup
  obtain ⟨hc₂, hm₂⟩ := (hl₂ c).1 hc
  -- the drain changes no network but `o`'s queue and ghost
  have hkeep : ∀ x,
      (∃ q, (w₂.nodes x).server = { (w.nodes x).server with broadcastQueue := q }) ∧
      (w₂.nodes x).receiving = (w.nodes x).receiving ∧
      (w₂.nodes x).endpoint = (w.nodes x).endpoint ∧
      (w₂.nodes x).processIdentity = (w.nodes x).processIdentity := fun x => by
    by_cases hx : x = o
    · subst hx; rw [hn₂, setNode_nodes_self]; exact ⟨⟨rest, rfl⟩, rfl, rfl, rfl⟩
    · rw [hn₂, setNode_nodes_of_ne hx]; exact ⟨⟨_, rfl⟩, rfl, rfl, rfl⟩
  obtain ⟨⟨q, hsn⟩, hrn, hen, -⟩ := hkeep n
  have hown : (w.links c).owner = o := (hb.listed o c hc).1
  have hs := Server.dispatch_gossip_of_not_mem codec
    { m with sender := (w.nodes o).processIdentity } (s := (w₂.nodes n).server)
    (by rw [hsn]; exact (hT n).handlers)
    ht hg (by rw [hsn]; exact hf)
  -- `n` receives it next
  have h₃ := step_receive codec (w := w₂) (n := n) (c := c) (m := m)
    (by rw [hrn, hr]) (by rw [hen, hc₂, ← hu])
    (by rw [hm₂, hc₂, hdl]; exact List.getElem?_concat_length _ _)
  rw [hc₂] at h₃
  simp only [hown, (hkeep o).2.2.2, hs] at h₃
  refine ⟨as ++ [.receive n c], _, run_append_of_eq_some h₂ (by rw [run_cons, h₃]; rfl),
    by simp, by simp [hsn], by simp [hsn], by simp [hsn], by simp [hm₂]⟩


/-- Take a network `o` whose drainer waits on the broadcast queue with a `gossip/msg` `m`
next, a connection in its `_connections` to network `n`'s endpoint, whose every message `n`
has received, and no future in `n`'s table under `m`'s id. Then some schedule puts the
payload of `m` on `n`'s `inbound_queue` and schedules an OK ack of `m` to `o`'s process,
with `n`'s receive loop still running. -/
theorem broadcast_gossip_reaches_caught_up_peer (codec : Codec Bytes)
    (endpoint processIdentity : Nat → String) (acts : List (WorldAction Bytes))
    {w : World Bytes} (hw : run codec acts (init endpoint processIdentity) = some w)
    {o n c : Nat} {m : Message Bytes} {rest : List (Message Bytes)} {g : GossipMessage Bytes}
    (hd : (w.nodes o).drainer = .idle) (hq : (w.nodes o).server.broadcastQueue = m :: rest)
    (hc : c ∈ (w.nodes o).connections) (hu : (w.links c).url = (w.nodes n).endpoint)
    (hr : (w.nodes n).receiving = true)
    (hdl : (w.links c).delivered = (w.links c).stream.pipeline.length)
    (ht : m.messageType = "gossip/msg") (hg : codec.parseGossipMessage m.content = some g)
    (hf : m.correlationId ∉ (w.nodes n).server.futures) :
    ∃ acts' w', run codec acts' w = some w' ∧ (w'.nodes n).receiving = true ∧
      (w'.nodes n).server.inbound = (w.nodes n).server.inbound ++ [g] ∧
      (w'.nodes n).server.ready = (w.nodes n).server.ready ++
        [.putMessage (ackFor codec { m with sender := (w.nodes o).processIdentity })] := by
  obtain ⟨acts', w', h, hr', hi, hre, -, -⟩ := broadcast_gossip_received codec
    (broadcastInv_run codec endpoint processIdentity hw)
    (tableInv_run codec endpoint processIdentity hw) hd hq hc hu hr hdl ht hg hf
  exact ⟨acts', w', h, hr', hi, hre⟩

/-- A network connects to another, whose server receives the register; the first network
then broadcasts a `gossip/msg`, which its server loop moves to the broadcast queue. -/
def peerGossipSchedule : List (WorldAction Blob) :=
  [.addConnection 0 0 "tcp://b" "r1", .startConnection 0, .appendConnection 0, .clientTask 0,
    .clientSend 0, .receive 1 0, .broadcastMessage 0 ⟨"gossip/msg", "b1", .gossip .noise "t", ""⟩,
    .serverTask 0]

theorem broadcast_gossip_reaches_caught_up_peer_two_networks :
    ∃ w : World Blob,
      run Blob.codec peerGossipSchedule
        (init (fun k => if k = 0 then "tcp://a" else "tcp://b") fun _ => "host-1") = some w ∧
      (w.nodes 0).drainer = .idle ∧
      (w.nodes 0).server.broadcastQueue = [⟨"gossip/msg", "b1", .gossip .noise "t", ""⟩] ∧
      0 ∈ (w.nodes 0).connections ∧ (w.links 0).url = (w.nodes 1).endpoint ∧
      (w.nodes 1).receiving = true ∧
      (w.links 0).delivered = (w.links 0).stream.pipeline.length ∧
      "b1" ∉ (w.nodes 1).server.futures ∧
      ∃ acts' w', run Blob.codec acts' w = some w' ∧ (w'.nodes 1).receiving = true ∧
        (w'.nodes 1).server.inbound = (w.nodes 1).server.inbound ++ [⟨.noise, "t"⟩] ∧
        (w'.nodes 1).server.ready = (w.nodes 1).server.ready ++
          [.putMessage (ackFor Blob.codec { (⟨"gossip/msg", "b1", .gossip .noise "t", ""⟩ :
            Message Blob) with sender := (w.nodes 0).processIdentity })] := by
  refine ⟨_, rfl, rfl, rfl, by decide, rfl, rfl, rfl, by decide, ?_⟩
  exact broadcast_gossip_reaches_caught_up_peer Blob.codec
    (fun k => if k = 0 then "tcp://a" else "tcp://b") (fun _ => "host-1") peerGossipSchedule
    (o := 0) (n := 1) (c := 0) (by rfl) (by rfl) (by rfl) (by decide) (by rfl) (by rfl) (by rfl)
    rfl rfl (by decide)

end World

end ValidatorNetwork
