import ValidatorNetwork.Client

/-!
# Networks, their connections, and every interleaving of their threads

A `World` holds any number of networks and the connections they build. `step` takes one
atomic action of one thread, and every choice of the scheduler is an argument of the action,
so the runs of `step` are all the interleavings. `add_connection` is three actions (build
the stream and put the register's future, hand the register off, append to
`_connections`), `Network.broadcast_message` two (hand off, put the future), and the drainer
walks `_connections` by index, so that a connection appended during the walk is visited.
A server receives the written messages of a connection to its endpoint, in order.
`broadcasts`, `dequeued`, `broadcastPuts` and `joined` are ghost records of what the
threads have done.
-/

namespace ValidatorNetwork

variable {Bytes : Type}

/-- How far `Connection.__init__` and `add_connection` have got. -/
inductive Stage (Bytes : Type)
  | absent
  | registering (register : Message Bytes)
  | started
  | listed

/-- A `Connection` with its stream, and how many of its written messages the server at
its url has received. -/
structure Link (Bytes : Type) where
  owner : Nat := 0
  url : String := ""
  stage : Stage Bytes := .absent
  stream : Stream Bytes := {}
  delivered : Nat := 0
  joined : Nat := 0

/-- Where `_broadcast_message` is: waiting on the queue, about to visit `_connections` at
an index, or inside `Stream.send_message` there with the future put. -/
inductive Drainer (Bytes : Type)
  | idle
  | visiting (message : Message Bytes) (index : Nat)
  | handing (message : Message Bytes) (index : Nat)

/-- A `Network` and the threads around it. `processIdentity` is the `hostname-pid` every
DEALER socket of its process announces; `broadcasting` holds the `broadcast_message` calls
between their two halves. -/
structure Node (Bytes : Type) where
  endpoint : String
  processIdentity : String
  server : Server Bytes := {}
  receiving : Bool := true
  connections : List Nat := []
  drainer : Drainer Bytes := .idle
  broadcasting : List (Message Bytes) := []
  broadcasts : List (Message Bytes) := []
  broadcastPuts : List (Message Bytes) := []
  dequeued : List (Message Bytes) := []

/-- How many of the messages it has taken the drainer has finished sending to every
connection: all of them, or all but the one it is walking `_connections` with. -/
def Node.drained (v : Node Bytes) : Nat :=
  match v.drainer with
  | .idle => v.dequeued.length
  | _ => v.dequeued.length - 1

structure World (Bytes : Type) where
  nodes : Nat → Node Bytes
  links : Nat → Link Bytes

/-- One atomic action of one thread. -/
inductive WorldAction (Bytes : Type)
  | addConnection (node link : Nat) (url correlationId : String)
  | startConnection (link : Nat)
  | appendConnection (link : Nat)
  | broadcastMessage (node : Nat) (message : Message Bytes)
  | putBroadcastFuture (node index : Nat)
  | serverTask (node : Nat)
  | serverSend (node : Nat)
  | drainBegin (node : Nat)
  | drainPut (node : Nat)
  | drainHandOff (node : Nat)
  | drainEnd (node : Nat)
  | clientTask (link : Nat)
  | clientSend (link : Nat)
  | receive (node link : Nat)

namespace World

/-- Networks at the given endpoints, before any connection. -/
def init (endpoint processIdentity : Nat → String) : World Bytes where
  nodes n := { endpoint := endpoint n, processIdentity := processIdentity n }
  links _ := {}

def setNode (n : Nat) (v : Node Bytes) (w : World Bytes) : World Bytes :=
  { w with nodes := fun o => if o = n then v else w.nodes o }

def setLink (c : Nat) (l : Link Bytes) (w : World Bytes) : World Bytes :=
  { w with links := fun d => if d = c then l else w.links d }

@[simp] theorem setNode_nodes_self (n : Nat) (v : Node Bytes) (w : World Bytes) :
    (w.setNode n v).nodes n = v := if_pos rfl
@[simp] theorem setNode_nodes_of_ne {n o : Nat} (h : o ≠ n) (v : Node Bytes) (w : World Bytes) :
    (w.setNode n v).nodes o = w.nodes o := if_neg h
@[simp] theorem setNode_links (n : Nat) (v : Node Bytes) (w : World Bytes) :
    (w.setNode n v).links = w.links := rfl
@[simp] theorem setLink_links_self (c : Nat) (l : Link Bytes) (w : World Bytes) :
    (w.setLink c l).links c = l := if_pos rfl
@[simp] theorem setLink_links_of_ne {c d : Nat} (h : d ≠ c) (l : Link Bytes) (w : World Bytes) :
    (w.setLink c l).links d = w.links d := if_neg h
@[simp] theorem setLink_nodes (c : Nat) (l : Link Bytes) (w : World Bytes) :
    (w.setLink c l).nodes = w.nodes := rfl

@[simp] theorem setNode_setNode (n : Nat) (v v' : Node Bytes) (w : World Bytes) :
    (w.setNode n v).setNode n v' = w.setNode n v' := by
  simp only [setNode, World.mk.injEq, and_true]
  funext o; split_ifs <;> rfl
@[simp] theorem setLink_setLink (c : Nat) (l l' : Link Bytes) (w : World Bytes) :
    (w.setLink c l).setLink c l' = w.setLink c l' := by
  simp only [setLink, World.mk.injEq, true_and]
  funext d; split_ifs <;> rfl
theorem setNode_nodes_congr {w₀ w : World Bytes} (h : w₀.nodes = w.nodes) (n : Nat)
    (v : Node Bytes) : (w₀.setNode n v).nodes = (w.setNode n v).nodes := by
  simp only [setNode, h]
theorem setNode_setLink_comm (n c : Nat) (v : Node Bytes) (l : Link Bytes) (w : World Bytes) :
    (w.setNode n v).setLink c l = (w.setLink c l).setNode n v := rfl
@[simp] theorem setNode_self (n : Nat) (w : World Bytes) : w.setNode n (w.nodes n) = w := by
  simp only [setNode]
  congr
  funext o; split_ifs with h <;> simp [h]
@[simp] theorem setLink_self (c : Nat) (w : World Bytes) : w.setLink c (w.links c) = w := by
  simp only [setLink]
  congr
  funext d; split_ifs with h <;> simp [h]

/-- The `gossip/register` that `Connection.start` sends. -/
def registerMessage (codec : Codec Bytes) (correlationId : String) : Message Bytes where
  messageType := "gossip/register"
  correlationId := correlationId
  content := codec.serializePeerRegisterRequest {}

/-- The step function; `none` when the action is not enabled. A server receives from every
connection to its endpoint; ZeroMQ serves one connection per process there (`SoleConnection`). -/
def step (codec : Codec Bytes) : WorldAction Bytes → World Bytes → Option (World Bytes)
  | .addConnection n c url cid, w =>
    match (w.links c).stage with
    | .absent =>
      some (w.setLink c { owner := n, url, stage := .registering (registerMessage codec cid),
                          stream := ({} : Stream Bytes).putFuture cid })
    | _ => none
  | .startConnection c, w =>
    match (w.links c).stage with
    | .registering m =>
      some (w.setLink c { w.links c with stage := .started,
                                         stream := (w.links c).stream.handOff m })
    | _ => none
  | .appendConnection c, w =>
    match (w.links c).stage with
    | .started =>
      let o := (w.links c).owner
      some ((w.setLink c { w.links c with stage := .listed,
                                          joined := (w.nodes o).drained }).setNode o
        { w.nodes o with connections := (w.nodes o).connections ++ [c] })
    | _ => none
  | .broadcastMessage n m, w =>
    some (w.setNode n { w.nodes n with server := (w.nodes n).server.broadcastMessage m,
                                       broadcasting := (w.nodes n).broadcasting ++ [m],
                                       broadcasts := (w.nodes n).broadcasts ++ [m] })
  | .putBroadcastFuture n i, w =>
    match (w.nodes n).broadcasting[i]? with
    | some m =>
      some (w.setNode n { w.nodes n with
        server := { (w.nodes n).server with
          futures := (w.nodes n).server.futures.put { correlationId := m.correlationId } }
        broadcasting := (w.nodes n).broadcasting.eraseIdx i
        broadcastPuts := (w.nodes n).broadcastPuts ++ [m] })
    | none => none
  | .serverTask n, w =>
    (w.nodes n).server.runTask.map fun s => w.setNode n { w.nodes n with server := s }
  | .serverSend n, w =>
    ((w.nodes n).server.sendNext codec).map fun s => w.setNode n { w.nodes n with server := s }
  | .drainBegin n, w =>
    match (w.nodes n).drainer, (w.nodes n).server.broadcastQueue with
    | .idle, m :: rest =>
      some (w.setNode n { w.nodes n with
        server := { (w.nodes n).server with broadcastQueue := rest }
        drainer := .visiting m 0
        dequeued := (w.nodes n).dequeued ++ [m] })
    | _, _ => none
  | .drainPut n, w =>
    match (w.nodes n).drainer with
    | .visiting m i =>
      match (w.nodes n).connections[i]? with
      | some c =>
        some ((w.setLink c { w.links c with
            stream := (w.links c).stream.putFuture m.correlationId }).setNode n
          { w.nodes n with drainer := .handing m i })
      | none => none
    | _ => none
  | .drainHandOff n, w =>
    match (w.nodes n).drainer with
    | .handing m i =>
      match (w.nodes n).connections[i]? with
      | some c =>
        some ((w.setLink c { w.links c with stream := (w.links c).stream.handOff m }).setNode n
          { w.nodes n with drainer := .visiting m (i + 1) })
      | none => none
    | _ => none
  | .drainEnd n, w =>
    match (w.nodes n).drainer with
    | .visiting _ i =>
      if (w.nodes n).connections.length ≤ i then
        some (w.setNode n { w.nodes n with drainer := .idle })
      else none
    | _ => none
  | .clientTask c, w =>
    (w.links c).stream.putMessage.map fun s => w.setLink c { w.links c with stream := s }
  | .clientSend c, w =>
    (w.links c).stream.sendNext.map fun s => w.setLink c { w.links c with stream := s }
  | .receive n c, w =>
    if (w.nodes n).receiving && (w.nodes n).endpoint == (w.links c).url then
      match (w.links c).stream.written[(w.links c).delivered]? with
      | some m =>
        let frame := [codec.encodeText (w.nodes (w.links c).owner).processIdentity,
          codec.serializeMessage m]
        let r := (w.nodes n).server.receiveFrame codec frame
        some ((w.setLink c { w.links c with delivered := (w.links c).delivered + 1 }).setNode n
          { w.nodes n with server := r.1, receiving := r.2.isNone })
      | none => none
    else none

/-- A server receives the next written message of a connection to its endpoint, with the
owner's routing prefix as its sender, and dispatches it. -/
theorem step_receive (codec : Codec Bytes) {w : World Bytes} {n c : Nat} {m : Message Bytes}
    (hr : (w.nodes n).receiving = true) (hu : (w.nodes n).endpoint = (w.links c).url)
    (hm : (w.links c).stream.written[(w.links c).delivered]? = some m) :
    step codec (.receive n c) w =
      let r := (w.nodes n).server.dispatch codec
        { m with sender := (w.nodes (w.links c).owner).processIdentity }
      some ((w.setLink c { w.links c with delivered := (w.links c).delivered + 1 }).setNode n
        { w.nodes n with server := r.1, receiving := r.2.isNone }) := by
  simp [step, hr, hu, hm, Server.receiveFrame_encoded]

/-- Connection `c` is the only one its owner's process has built to its url. ZeroMQ's
ROUTER, which `network.py` never sets to hand an identity over, refuses a second DEALER that
announces a routing prefix in use, and every DEALER of a process announces its
`hostname-pid`. `receive` serves every connection to the endpoint, so a result that needs a
connection's frames to get through assumes this of it. -/
def SoleConnection (w : World Bytes) (c : Nat) : Prop :=
  ∀ d, d ≠ c → (w.links d).url = (w.links c).url →
    (w.nodes (w.links d).owner).processIdentity = (w.nodes (w.links c).owner).processIdentity →
      (w.links d).stage = .absent

/-! ## What one step can do to a network's server -/

/-- How one step can move network `n`'s server, its receive coroutine and its ghost record
of broadcast futures: one turn of the server loop, one half of `broadcast_message`, the
drainer taking a message, or nothing. -/
inductive ServerMove (codec : Codec Bytes) (w : World Bytes) (n : Nat) : Node Bytes → Prop
  | keep {v : Node Bytes} : v.server = (w.nodes n).server →
      v.receiving = (w.nodes n).receiving → v.broadcastPuts = (w.nodes n).broadcastPuts →
      ServerMove codec w n v
  | broadcastMessage {v : Node Bytes} (m : Message Bytes) :
      v.server = (w.nodes n).server.broadcastMessage m →
      v.receiving = (w.nodes n).receiving → v.broadcastPuts = (w.nodes n).broadcastPuts →
      ServerMove codec w n v
  | putBroadcastFuture {v : Node Bytes} (m : Message Bytes) :
      v.server = { (w.nodes n).server with
        futures := (w.nodes n).server.futures.put { correlationId := m.correlationId } } →
      v.receiving = (w.nodes n).receiving →
      v.broadcastPuts = (w.nodes n).broadcastPuts ++ [m] → ServerMove codec w n v
  | runTask {v : Node Bytes} : (w.nodes n).server.runTask = some v.server →
      v.receiving = (w.nodes n).receiving → v.broadcastPuts = (w.nodes n).broadcastPuts →
      ServerMove codec w n v
  | sendNext {v : Node Bytes} : (w.nodes n).server.sendNext codec = some v.server →
      v.receiving = (w.nodes n).receiving → v.broadcastPuts = (w.nodes n).broadcastPuts →
      ServerMove codec w n v
  | drainBegin {v : Node Bytes} (m : Message Bytes) (rest : List (Message Bytes)) :
      (w.nodes n).server.broadcastQueue = m :: rest →
      v.server = { (w.nodes n).server with broadcastQueue := rest } →
      v.receiving = (w.nodes n).receiving → v.broadcastPuts = (w.nodes n).broadcastPuts →
      ServerMove codec w n v
  | receive {v : Node Bytes} (c : Nat) (m : Message Bytes) : (w.nodes n).receiving = true →
      (w.nodes n).endpoint = (w.links c).url →
      (w.links c).stream.written[(w.links c).delivered]? = some m →
      v.server = ((w.nodes n).server.dispatch codec
        { m with sender := (w.nodes (w.links c).owner).processIdentity }).1 →
      v.receiving = ((w.nodes n).server.dispatch codec
        { m with sender := (w.nodes (w.links c).owner).processIdentity }).2.isNone →
      v.broadcastPuts = (w.nodes n).broadcastPuts → ServerMove codec w n v

/-- Setting network `n'` moves it as the new value says and leaves every other network
alone. -/
theorem ServerMove.setNode {codec : Codec Bytes} {w w₀ : World Bytes} (hw : w₀.nodes = w.nodes)
    {n' : Nat} {v : Node Bytes} (hv : ServerMove codec w n' v) (n : Nat) :
    ServerMove codec w n ((w₀.setNode n' v).nodes n) := by
  by_cases h : n = n'
  · subst h; simpa using hv
  · rw [setNode_nodes_of_ne h, hw]; exact .keep rfl rfl rfl

/-- Every step moves every network's server by one `ServerMove`. -/
theorem step_serverMove (codec : Codec Bytes) {a : WorldAction Bytes} {w w' : World Bytes}
    (h : step codec a w = some w') (n : Nat) : ServerMove codec w n (w'.nodes n) := by
  cases a with
  | addConnection | startConnection =>
    simp only [step] at h; split at h <;> cases h; exact .keep rfl rfl rfl
  | appendConnection =>
    simp only [step] at h; split at h <;> cases h
    refine .setNode rfl ?_ n; exact .keep rfl rfl rfl
  | broadcastMessage n' m =>
    cases h; refine .setNode rfl ?_ n; exact .broadcastMessage m rfl rfl rfl
  | putBroadcastFuture =>
    simp only [step] at h; split at h <;> cases h
    refine .setNode rfl ?_ n; exact .putBroadcastFuture _ rfl rfl rfl
  | serverTask =>
    obtain ⟨s, hs, rfl⟩ := Option.map_eq_some'.1 h
    refine .setNode rfl ?_ n; exact .runTask hs rfl rfl
  | serverSend =>
    obtain ⟨s, hs, rfl⟩ := Option.map_eq_some'.1 h
    refine .setNode rfl ?_ n; exact .sendNext hs rfl rfl
  | drainBegin =>
    simp only [step] at h; split at h <;> cases h
    refine .setNode rfl ?_ n; exact .drainBegin _ _ ‹_› rfl rfl rfl
  | drainPut | drainHandOff =>
    simp only [step] at h; split at h <;> try cases h
    split at h <;> cases h
    refine .setNode rfl ?_ n; exact .keep rfl rfl rfl
  | drainEnd =>
    simp only [step] at h; split at h <;> try cases h
    split_ifs at h; cases h
    refine .setNode rfl ?_ n; exact .keep rfl rfl rfl
  | clientTask | clientSend =>
    obtain ⟨s, -, rfl⟩ := Option.map_eq_some'.1 h; exact .keep rfl rfl rfl
  | receive n' c =>
    simp only [step] at h
    split_ifs at h with hc
    simp only [Bool.and_eq_true, beq_iff_eq] at hc
    split at h <;> cases h
    rename_i m hm
    refine .setNode rfl ?_ n
    simp only [Server.receiveFrame_encoded]
    exact .receive c m hc.1 hc.2 hm rfl rfl rfl

/-! ## What one step can do to addresses and written messages -/

/-- Setting a connection that keeps its url and only appends to what it has written. -/
private theorem written_setLink {w₀ w : World Bytes} (hw : w₀.links = w.links) {c' : Nat}
    {l : Link Bytes}
    (hl : l.url = (w.links c').url ∧ (w.links c').stream.written <+: l.stream.written)
    (c : Nat) : ((w₀.setLink c' l).links c).url = (w.links c).url ∧
      (w.links c).stream.written <+: ((w₀.setLink c' l).links c).stream.written := by
  by_cases h : c = c'
  · subst h; simpa using hl
  · rw [setLink_links_of_ne h, hw]; exact ⟨rfl, List.prefix_refl _⟩

/-- Setting a network that keeps its endpoint. -/
private theorem endpoint_setNode {w₀ w : World Bytes} (hw : w₀.nodes = w.nodes) {o : Nat}
    {v : Node Bytes} (hv : v.endpoint = (w.nodes o).endpoint) (n : Nat) :
    ((w₀.setNode o v).nodes n).endpoint = (w.nodes n).endpoint := by
  by_cases h : n = o
  · subst h; simpa using hv
  · rw [setNode_nodes_of_ne h, hw]

/-- A step keeps every network's endpoint and every connection's url, and only appends to
what a connection's client thread has written, save that `add_connection` builds a
connection where there was none. -/
theorem step_written (codec : Codec Bytes) {a : WorldAction Bytes} {w w' : World Bytes}
    (h : step codec a w = some w') (n c : Nat) :
    (w'.nodes n).endpoint = (w.nodes n).endpoint ∧
      ((w.links c).stage = .absent ∨ (w'.links c).url = (w.links c).url ∧
        (w.links c).stream.written <+: (w'.links c).stream.written) := by
  have keep : (w.links c).url = (w.links c).url ∧
      (w.links c).stream.written <+: (w.links c).stream.written := ⟨rfl, List.prefix_refl _⟩
  cases a with
  | addConnection n' c' =>
    simp only [step] at h
    split at h <;> cases h
    next hs =>
      refine ⟨rfl, ?_⟩
      by_cases hc : c = c'
      · exact .inl (hc ▸ hs)
      · exact .inr (by rw [setLink_links_of_ne hc]; exact keep)
  | startConnection =>
    simp only [step] at h; split at h <;> cases h
    refine ⟨rfl, .inr (written_setLink rfl ?_ c)⟩; exact ⟨rfl, List.prefix_refl _⟩
  | appendConnection =>
    simp only [step] at h; split at h <;> cases h
    refine ⟨endpoint_setNode rfl (by rfl) n, .inr (written_setLink rfl ?_ c)⟩
    exact ⟨rfl, List.prefix_refl _⟩
  | broadcastMessage => cases h; exact ⟨endpoint_setNode rfl (by rfl) n, .inr keep⟩
  | putBroadcastFuture | drainBegin =>
    simp only [step] at h; split at h <;> cases h
    exact ⟨endpoint_setNode rfl (by rfl) n, .inr keep⟩
  | serverTask | serverSend =>
    obtain ⟨s, -, rfl⟩ := Option.map_eq_some'.1 h
    exact ⟨endpoint_setNode rfl (by rfl) n, .inr keep⟩
  | drainPut | drainHandOff =>
    simp only [step] at h; split at h <;> try cases h
    split at h <;> cases h
    refine ⟨endpoint_setNode rfl (by rfl) n, .inr (written_setLink rfl ?_ c)⟩
    exact ⟨rfl, List.prefix_refl _⟩
  | drainEnd =>
    simp only [step] at h; split at h <;> try cases h
    split_ifs at h; cases h; exact ⟨endpoint_setNode rfl (by rfl) n, .inr keep⟩
  | clientTask =>
    obtain ⟨s, hs, rfl⟩ := Option.map_eq_some'.1 h
    refine ⟨rfl, .inr (written_setLink rfl ?_ c)⟩
    exact ⟨rfl, (Stream.putMessage_spec hs).2.2 ▸ List.prefix_refl _⟩
  | clientSend =>
    obtain ⟨s, hs, rfl⟩ := Option.map_eq_some'.1 h
    refine ⟨rfl, .inr (written_setLink rfl ?_ c)⟩; exact ⟨rfl, (Stream.sendNext_spec hs).2.2⟩
  | receive =>
    simp only [step] at h; split_ifs at h; split at h <;> cases h
    refine ⟨endpoint_setNode rfl (by rfl) n, .inr (written_setLink rfl ?_ c)⟩
    exact ⟨rfl, List.prefix_refl _⟩

/-! ## What one step can do to a connection's stream and a network's drainer -/

/-- How one step can move connection `c`: it keeps everything its futures table, handler
table and receive queue hold and everything handed to it, and only appends to what it has
written, moving at most from `started` to `listed`; or `Connection.__init__` builds it; or
`Connection.start` hands the register to its client thread; or the drainer, at its index
in a network's `_connections`, puts a future on it or hands it a message. -/
inductive LinkMove (codec : Codec Bytes) (w : World Bytes) (c : Nat) : Link Bytes → Prop
  | keep {l : Link Bytes} : l.owner = (w.links c).owner → l.url = (w.links c).url →
      l.stream.futures = (w.links c).stream.futures →
      l.stream.handlers = (w.links c).stream.handlers →
      l.stream.recvQueue = (w.links c).stream.recvQueue →
      l.stream.pipeline = (w.links c).stream.pipeline →
      (w.links c).stream.written <+: l.stream.written →
      (l.stage = (w.links c).stage ∨ (w.links c).stage = .started ∧ l.stage = .listed) →
      LinkMove codec w c l
  | build (n : Nat) (url cid : String) : (w.links c).stage = .absent →
      LinkMove codec w c { owner := n, url, stage := .registering (registerMessage codec cid),
                           stream := ({} : Stream Bytes).putFuture cid }
  | start (r : Message Bytes) : (w.links c).stage = .registering r →
      LinkMove codec w c
        { w.links c with stage := .started, stream := (w.links c).stream.handOff r }
  | putFuture (o : Nat) (m : Message Bytes) (i : Nat) : (w.nodes o).drainer = .visiting m i →
      (w.nodes o).connections[i]? = some c →
      LinkMove codec w c
        { w.links c with stream := (w.links c).stream.putFuture m.correlationId }
  | handOff (o : Nat) (m : Message Bytes) (i : Nat) : (w.nodes o).drainer = .handing m i →
      (w.nodes o).connections[i]? = some c →
      LinkMove codec w c { w.links c with stream := (w.links c).stream.handOff m }

theorem LinkMove.refl (codec : Codec Bytes) (w : World Bytes) (c : Nat) :
    LinkMove codec w c (w.links c) :=
  .keep rfl rfl rfl rfl rfl rfl (List.prefix_refl _) (.inl rfl)

/-- Setting one connection by a move leaves every other connection where it was. -/
theorem LinkMove.setLink {codec : Codec Bytes} {w w₀ : World Bytes} (hw : w₀.links = w.links)
    {c' : Nat} {l : Link Bytes} (hl : LinkMove codec w c' l) (c : Nat) :
    LinkMove codec w c ((w₀.setLink c' l).links c) := by
  by_cases h : c = c'
  · subst h; simpa using hl
  · rw [setLink_links_of_ne h, hw]; exact .refl codec w c

/-- A move of `World` gives a connection no result: every future of the moved connection
that holds one held it before, and the connection keeps its owner and url. -/
theorem LinkMove.results {codec : Codec Bytes} {w : World Bytes} {c : Nat} {l : Link Bytes}
    (h : LinkMove codec w c l) {k : String} {f : Future Bytes} {r : FutureResult Bytes}
    (hf : l.stream.futures.lookup k = some f) (hr : f.result = some r) :
    l.owner = (w.links c).owner ∧ l.url = (w.links c).url ∧
      ∃ f', (w.links c).stream.futures.lookup k = some f' ∧ f'.result = some r := by
  cases h with
  | keep ho hu hk => exact ⟨ho, hu, f, hk ▸ hf, hr⟩
  | build =>
    simp only [Stream.putFuture_futures, FutureCollection.lookup_put] at hf
    split_ifs at hf
    · cases hf; cases hr
    · simp [AList.lookup_empty] at hf
  | start | handOff => exact ⟨rfl, rfl, f, hf, hr⟩
  | putFuture =>
    simp only [Stream.putFuture_futures, FutureCollection.lookup_put] at hf
    split_ifs at hf
    · cases hf; cases hr
    · exact ⟨rfl, rfl, f, hf, hr⟩

/-- Every step moves every connection by one `LinkMove`. -/
theorem step_linkMove (codec : Codec Bytes) {a : WorldAction Bytes} {w w' : World Bytes}
    (h : step codec a w = some w') (c : Nat) : LinkMove codec w c (w'.links c) := by
  cases a with
  | addConnection n c' url cid =>
    simp only [step] at h; split at h <;> cases h
    exact .setLink rfl (.build n url cid ‹_›) c
  | startConnection =>
    simp only [step] at h; split at h <;> cases h
    exact .setLink rfl (.start _ ‹_›) c
  | appendConnection =>
    simp only [step] at h; split at h <;> cases h
    refine .setLink rfl ?_ c
    exact .keep rfl rfl rfl rfl rfl rfl (List.prefix_refl _) (.inr ⟨‹_›, rfl⟩)
  | broadcastMessage => cases h; exact .refl codec w c
  | putBroadcastFuture | drainBegin | drainEnd =>
    simp only [step] at h; split at h <;> (try split_ifs at h) <;> cases h; exact .refl codec w c
  | serverTask | serverSend =>
    obtain ⟨s, -, rfl⟩ := Option.map_eq_some'.1 h; exact .refl codec w c
  | drainPut =>
    simp only [step] at h; split at h <;> try cases h
    split at h <;> cases h
    exact .setLink rfl (.putFuture _ _ _ ‹_› ‹_›) c
  | drainHandOff =>
    simp only [step] at h; split at h <;> try cases h
    split at h <;> cases h
    exact .setLink rfl (.handOff _ _ _ ‹_› ‹_›) c
  | clientTask =>
    obtain ⟨s, hs, rfl⟩ := Option.map_eq_some'.1 h
    unfold Stream.putMessage at hs; split at hs <;> cases hs
    refine .setLink rfl ?_ c
    refine .keep rfl rfl rfl rfl rfl ?_ (List.prefix_refl _) (.inl rfl)
    simp_all [Stream.pipeline]
  | clientSend =>
    obtain ⟨s, hs, rfl⟩ := Option.map_eq_some'.1 h
    unfold Stream.sendNext at hs; split at hs <;> cases hs
    refine .setLink rfl ?_ c
    refine .keep rfl rfl rfl rfl rfl ?_ (List.prefix_append _ _) (.inl rfl)
    simp_all [Stream.pipeline]
  | receive =>
    simp only [step] at h; split_ifs at h; split at h <;> cases h
    refine .setLink rfl ?_ c
    exact .keep rfl rfl rfl rfl rfl rfl (List.prefix_refl _) (.inl rfl)

/-- Setting a network that keeps its drainer and `_connections`. -/
private theorem drainer_setNode {w₀ w : World Bytes} (hw : w₀.nodes = w.nodes) {n : Nat}
    {v : Node Bytes} (hd : v.drainer = (w.nodes n).drainer)
    (hc : v.connections = (w.nodes n).connections) (o : Nat) :
    ((w₀.setNode n v).nodes o).drainer = (w.nodes o).drainer ∧
      ((w₀.setNode n v).nodes o).connections = (w.nodes o).connections := by
  by_cases h : o = n
  · subst h; simpa using ⟨hd, hc⟩
  · rw [setNode_nodes_of_ne h, hw]; exact ⟨rfl, rfl⟩

/-- A drainer handing `m` at index `i` after a step was already handing it, or has just put
the future of `m` on the connection at that index; `_connections` only grows. -/
theorem step_handing (codec : Codec Bytes) {a : WorldAction Bytes} {w w' : World Bytes}
    (h : step codec a w = some w') {o i : Nat} {m : Message Bytes}
    (hd : (w'.nodes o).drainer = .handing m i) :
    (w.nodes o).connections <+: (w'.nodes o).connections ∧
      ((w.nodes o).drainer = .handing m i ∨
        ∃ c, (w.nodes o).connections[i]? = some c ∧
          m.correlationId ∈ (w'.links c).stream.futures) := by
  -- a step that keeps the drainer and `_connections` of `o`
  have keep (hn : (w'.nodes o).drainer = (w.nodes o).drainer ∧
      (w'.nodes o).connections = (w.nodes o).connections) :
      (w.nodes o).connections <+: (w'.nodes o).connections ∧
        ((w.nodes o).drainer = .handing m i ∨ ∃ c, (w.nodes o).connections[i]? = some c ∧
          m.correlationId ∈ (w'.links c).stream.futures) :=
    ⟨hn.2 ▸ List.prefix_refl _, .inl (hn.1 ▸ hd)⟩
  cases a with
  | addConnection | startConnection =>
    simp only [step] at h; split at h <;> cases h; exact keep ⟨rfl, rfl⟩
  | clientTask | clientSend =>
    obtain ⟨s, -, rfl⟩ := Option.map_eq_some'.1 h; exact keep ⟨rfl, rfl⟩
  | broadcastMessage => cases h; exact keep (drainer_setNode rfl (by rfl) (by rfl) o)
  | serverTask | serverSend =>
    obtain ⟨s, -, rfl⟩ := Option.map_eq_some'.1 h
    exact keep (drainer_setNode rfl (by rfl) (by rfl) o)
  | putBroadcastFuture =>
    simp only [step] at h; split at h <;> cases h
    exact keep (drainer_setNode rfl (by rfl) (by rfl) o)
  | receive =>
    simp only [step] at h; split_ifs at h; split at h <;> cases h
    exact keep (drainer_setNode rfl (by rfl) (by rfl) o)
  | appendConnection c =>
    simp only [step] at h; split at h <;> cases h
    by_cases ho : o = (w.links c).owner
    · subst ho; simp only [setNode_nodes_self] at hd ⊢; exact ⟨List.prefix_append _ _, .inl hd⟩
    · exact keep (by simp [setNode_nodes_of_ne ho])
  | drainBegin n | drainHandOff n | drainEnd n =>
    simp only [step] at h; split at h <;> (try split at h) <;> cases h
    all_goals
      by_cases ho : o = n
      · subst ho; simp at hd
      · exact keep (by simp [setNode_nodes_of_ne ho])
  | drainPut n =>
    simp only [step] at h; split at h <;> try cases h
    next m' i' _ =>
    split at h <;> cases h
    next c hc =>
    by_cases ho : o = n
    · subst ho
      simp only [setNode_nodes_self, Drainer.handing.injEq] at hd ⊢
      obtain ⟨rfl, rfl⟩ := hd
      exact ⟨List.prefix_refl _, .inr ⟨c, hc, by simp [FutureCollection.mem_put_self]⟩⟩
    · exact keep (by simp [setNode_nodes_of_ne ho])

/-- Setting a network that keeps its routing prefix. -/
theorem processIdentity_setNode {w₀ w : World Bytes} (hw : w₀.nodes = w.nodes) {n : Nat}
    {v : Node Bytes} (hv : v.processIdentity = (w.nodes n).processIdentity) (o : Nat) :
    ((w₀.setNode n v).nodes o).processIdentity = (w.nodes o).processIdentity := by
  by_cases h : o = n
  · subst h; simpa using hv
  · rw [setNode_nodes_of_ne h, hw]

/-- No step changes a network's routing prefix. -/
theorem step_processIdentity (codec : Codec Bytes) {a : WorldAction Bytes}
    {w w' : World Bytes} (h : step codec a w = some w') (o : Nat) :
    (w'.nodes o).processIdentity = (w.nodes o).processIdentity := by
  cases a with
  | addConnection | startConnection =>
    simp only [step] at h; split at h <;> cases h; rfl
  | clientTask | clientSend => obtain ⟨s, -, rfl⟩ := Option.map_eq_some'.1 h; rfl
  | serverTask | serverSend =>
    obtain ⟨s, -, rfl⟩ := Option.map_eq_some'.1 h; exact processIdentity_setNode rfl (by rfl) o
  | broadcastMessage => cases h; exact processIdentity_setNode rfl (by rfl) o
  | appendConnection | putBroadcastFuture | drainBegin =>
    simp only [step] at h; split at h <;> cases h; exact processIdentity_setNode rfl (by rfl) o
  | drainPut | drainHandOff =>
    simp only [step] at h; split at h <;> try cases h
    split at h <;> cases h; exact processIdentity_setNode rfl (by rfl) o
  | drainEnd =>
    simp only [step] at h; split at h <;> try cases h
    split_ifs at h; cases h; exact processIdentity_setNode rfl (by rfl) o
  | receive =>
    simp only [step] at h; split_ifs at h; split at h <;> cases h
    exact processIdentity_setNode rfl (by rfl) o

/-- A server only appends to what it has written. -/
theorem ServerMove.written_prefix {codec : Codec Bytes} {w : World Bytes} {n : Nat}
    {v : Node Bytes} (h : ServerMove codec w n v) :
    (w.nodes n).server.written <+: v.server.written := by
  cases h with
  | keep hv | broadcastMessage _ hv | putBroadcastFuture _ hv | drainBegin _ _ _ hv =>
    exact hv ▸ List.prefix_refl _
  | runTask hv => simp only [(Server.runTask_replies hv).2, List.prefix_refl]
  | sendNext hv =>
    unfold Server.sendNext at hv
    split at hv
    · cases hv
    · rw [← Option.some_inj.1 hv]; exact List.prefix_append _ _
  | receive c m _ _ _ hv =>
    simp only [hv, (Server.dispatch_keeps codec _ _).written, List.prefix_refl]

/-- Run a schedule of actions; `none` when one is not enabled. -/
def run (codec : Codec Bytes) : List (WorldAction Bytes) → World Bytes → Option (World Bytes)
  | [], w => some w
  | a :: as, w => (step codec a w).bind (run codec as)

@[simp] theorem run_nil (codec : Codec Bytes) (w : World Bytes) : run codec [] w = some w := rfl

@[simp] theorem run_cons (codec : Codec Bytes) (a : WorldAction Bytes)
    (as : List (WorldAction Bytes)) (w : World Bytes) :
    run codec (a :: as) w = (step codec a w).bind (run codec as) := rfl

theorem run_append (codec : Codec Bytes) (as bs : List (WorldAction Bytes)) (w : World Bytes) :
    run codec (as ++ bs) w = (run codec as w).bind (run codec bs) := by
  induction as generalizing w with
  | nil => rfl
  | cons a as ih => cases h : step codec a w <;> simp [h, ih]

theorem run_append_of_eq_some {codec : Codec Bytes} {as bs : List (WorldAction Bytes)}
    {w w₁ w₂ : World Bytes} (h₁ : run codec as w = some w₁) (h₂ : run codec bs w₁ = some w₂) :
    run codec (as ++ bs) w = some w₂ := by
  rw [run_append, h₁]; exact h₂

/-- Carry a property of states along every schedule from one step of it. -/
theorem run_induction (codec : Codec Bytes) (P : World Bytes → Prop)
    (hstep : ∀ a w w', P w → step codec a w = some w' → P w')
    {acts : List (WorldAction Bytes)} {w w' : World Bytes} (hw : P w)
    (h : run codec acts w = some w') : P w' := by
  induction acts generalizing w with
  | nil => cases h; exact hw
  | cons a acts ih =>
    obtain ⟨w₁, h₁, h₂⟩ := Option.bind_eq_some.1 h
    exact ih (hstep a w w₁ hw h₁) h₂

end World

end ValidatorNetwork
