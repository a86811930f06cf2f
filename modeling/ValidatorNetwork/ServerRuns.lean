import ValidatorNetwork.Classification
import ValidatorNetwork.Broadcast
import ValidatorNetwork.SendLoops

/-!
# A network's server along whole runs

Over every schedule of `World`: a network's receive loop completes a future of its own
broadcasts only with a message a connection to its endpoint wrote
(`network_future_results_written`); what it puts on `inbound_queue` is the payload of a
broadcast of a connection's owner (`network_inbound_items_broadcast`); while it runs, the
register of its process's only connection to it gets answered (`register_acked`); and once
`_receive_message` has raised, nothing is received again and `_peered_with_us` and
`inbound_queue` never change (`stopped_receive_loop_stays_stopped`).
-/

namespace ValidatorNetwork

variable {Bytes : Type}

namespace World

/-! ## What completes a network's futures -/

/-- Some connection to network `n`'s endpoint has written a message that satisfies `P`. -/
def WrittenTo (w : World Bytes) (n : Nat) (P : Message Bytes → Prop) : Prop :=
  ∃ c, (w.links c).url = (w.nodes n).endpoint ∧ ∃ m ∈ (w.links c).stream.written, P m

/-- A message with correlation id `k` whose type and content are `r`. -/
def Completes (k : String) (r : FutureResult Bytes) (m : Message Bytes) : Prop :=
  m.correlationId = k ∧ r = ⟨m.messageType, m.content⟩

/-- Every result a future in a network's table holds was written to its endpoint under
the future's id. -/
def ResultsWritten (w : World Bytes) : Prop :=
  ∀ n k f r, (w.nodes n).server.futures.lookup k = some f → f.result = some r →
    WrittenTo w n (Completes k r)

section Results

variable {codec : Codec Bytes} {w w' : World Bytes} {n : Nat} {k : String}
  {r : FutureResult Bytes}

/-- What was written to a network's endpoint stays written. -/
theorem WrittenTo.of_step (hb : BroadcastInv w) {a : WorldAction Bytes}
    (h : step codec a w = some w') {P : Message Bytes → Prop} (hw : WrittenTo w n P) :
    WrittenTo w' n P := by
  obtain ⟨c, hu, m, hm, hP⟩ := hw
  obtain ⟨he, ha | ⟨hu', hp⟩⟩ := step_written codec h n c
  · exact absurd ha (hb.written_mem hm).1
  · exact ⟨c, by rw [hu', hu, he], m, hp.subset hm, hP⟩

/-- A move of a network's server completes a future only with the message it receives
under the future's id, and keeps every other result. -/
theorem ServerMove.results {v : Node Bytes} (h : ServerMove codec w n v)
    (hn : ∀ k f r, (w.nodes n).server.futures.lookup k = some f → f.result = some r →
      WrittenTo w n (Completes k r))
    {f : Future Bytes} (hf : v.server.futures.lookup k = some f) (hr : f.result = some r) :
    WrittenTo w n (Completes k r) := by
  cases h with
  | keep hv => rw [hv] at hf; exact hn k f r hf hr
  | broadcastMessage m hv => rw [hv] at hf; exact hn k f r hf hr
  | putBroadcastFuture m hv =>
    simp only [hv, FutureCollection.lookup_put] at hf
    split_ifs at hf
    · cases hf; cases hr
    · exact hn k f r hf hr
  | runTask hv => rw [(Server.runTask_keeps hv).1] at hf; exact hn k f r hf hr
  | sendNext hv => rw [(Server.sendNext_keeps hv).1] at hf; exact hn k f r hf hr
  | drainBegin m rest _ hv => rw [hv] at hf; exact hn k f r hf hr
  | receive c m _ hu hm hv =>
    rw [hv] at hf
    rcases Server.dispatch_cases codec
        { m with sender := (w.nodes (w.links c).owner).processIdentity } (w.nodes n).server
      with ⟨f₀, -, e⟩ | e | ⟨h, -, e⟩
    · rw [e] at hf
      by_cases hk : k = m.correlationId
      · subst hk
        simp only [AList.lookup_insert, Option.some.injEq] at hf
        subst hf
        simp only [Future.setResult, Option.some.injEq] at hr
        exact ⟨c, hu.symm, m, List.getElem?_mem hm, rfl, hr.symm⟩
      · simp only [AList.lookup_insert_ne hk] at hf
        exact hn k f r hf hr
    · rw [e] at hf; exact hn k f r hf hr
    · rw [e, Server.handle_futures] at hf; exact hn k f r hf hr

theorem resultsWritten_init (endpoint processIdentity : Nat → String) :
    ResultsWritten (init endpoint processIdentity : World Bytes) := fun _ _ _ _ hf => by
  simp [init, AList.lookup_empty] at hf

theorem ResultsWritten.after_step (hi : ResultsWritten w) (hb : BroadcastInv w)
    {a : WorldAction Bytes} (h : step codec a w = some w') : ResultsWritten w' :=
  fun n _ _ _ hf hr => ((step_serverMove codec h n).results (hi n) hf hr).of_step hb h

end Results

/-- In every run, each result that a future in a network's table holds is the type and
content of a message with the future's correlation id that a connection to the network's
endpoint has written: that connection's `gossip/register` or a broadcast of its owner. -/
theorem network_future_results_written (codec : Codec Bytes)
    (endpoint processIdentity : Nat → String) (acts : List (WorldAction Bytes))
    {w : World Bytes} (hw : run codec acts (init endpoint processIdentity) = some w) (n : Nat)
    {k : String} {f : Future Bytes} {r : FutureResult Bytes}
    (hf : (w.nodes n).server.futures.lookup k = some f) (hr : f.result = some r) :
    ∃ c m, (w.links c).url = (w.nodes n).endpoint ∧ m ∈ (w.links c).stream.written ∧
      m.correlationId = k ∧ r = ⟨m.messageType, m.content⟩ ∧
      (m.messageType = "gossip/register" ∨ m ∈ (w.nodes (w.links c).owner).broadcasts) := by
  obtain ⟨hb, hi⟩ := run_induction codec (fun u => BroadcastInv u ∧ ResultsWritten u)
    (fun _ _ _ ⟨hb, hi⟩ hs => ⟨hb.after_step hs, hi.after_step hb hs⟩)
    ⟨broadcastInv_init endpoint processIdentity, resultsWritten_init endpoint processIdentity⟩
    hw
  obtain ⟨c, hu, m, hm, hk, rfl⟩ := hi n k f r hf hr
  exact ⟨c, m, hu, hm, hk, rfl, (hb.written_mem hm).2⟩

/-- A network connected to itself receives its own broadcast after putting its future: the
future holds the broadcast itself. -/
theorem network_future_results_written_own_broadcast :
    ∃ w : World Blob,
      run Blob.codec (ownBroadcastSchedule ++ [.receive 0 0])
        (init (fun _ => "tcp://a") fun _ => "host-1") = some w ∧
      (w.nodes 0).server.futures.lookup "b1" =
        some ⟨"b1", some ⟨"gossip/msg", .gossip .noise ""⟩⟩ ∧
      ∃ c m, (w.links c).url = (w.nodes 0).endpoint ∧ m ∈ (w.links c).stream.written ∧
        m.correlationId = "b1" ∧
        (⟨"gossip/msg", .gossip .noise ""⟩ : FutureResult Blob) = ⟨m.messageType, m.content⟩ ∧
        (m.messageType = "gossip/register" ∨ m ∈ (w.nodes (w.links c).owner).broadcasts) := by
  refine ⟨_, rfl, by decide, ?_⟩
  exact network_future_results_written Blob.codec (fun _ => "tcp://a") (fun _ => "host-1")
    (ownBroadcastSchedule ++ [.receive 0 0]) (by rfl) 0
    (f := ⟨"b1", some ⟨"gossip/msg", .gossip .noise ""⟩⟩) (by decide) rfl

/-! ## What reaches `inbound_queue` -/

/-- A `gossip/msg` whose payload parses as `g`. -/
def Carries (codec : Codec Bytes) (g : GossipMessage Bytes) (m : Message Bytes) : Prop :=
  m.messageType = "gossip/msg" ∧ codec.parseGossipMessage m.content = some g

/-- Every item on a network's `inbound_queue` is the payload of a `gossip/msg` written to
its endpoint. -/
def InboundWritten (codec : Codec Bytes) (w : World Bytes) : Prop :=
  ∀ n, ∀ g ∈ (w.nodes n).server.inbound, WrittenTo w n (Carries codec g)

section Inbound

variable {codec : Codec Bytes} {w w' : World Bytes} {n : Nat}

/-- A move of a network's server puts on `inbound_queue` only the payload of a `gossip/msg`
it receives. -/
theorem ServerMove.inbound {v : Node Bytes} (h : ServerMove codec w n v)
    (hh : (w.nodes n).server.handlers = networkHandlers)
    (hn : ∀ g ∈ (w.nodes n).server.inbound, WrittenTo w n (Carries codec g)) :
    ∀ g ∈ v.server.inbound, WrittenTo w n (Carries codec g) := by
  cases h with
  | keep hv => rw [hv]; exact hn
  | broadcastMessage m hv => rw [hv]; exact hn
  | putBroadcastFuture m hv => rw [hv]; exact hn
  | runTask hv => rw [Server.runTask_frame hv]; exact hn
  | sendNext hv => rw [Server.sendNext_frame hv]; exact hn
  | drainBegin m rest _ hv => rw [hv]; exact hn
  | receive c m _ hu hm hv =>
    rw [hv]
    rcases Server.dispatch_inbound codec
        { m with sender := (w.nodes (w.links c).owner).processIdentity } hh
      with e | ⟨ht, g, hg, e⟩ <;> rw [e]
    · exact hn
    · intro g' hg'
      rcases List.mem_append.1 hg' with hg' | hg'
      · exact hn g' hg'
      · rw [List.mem_singleton.1 hg']
        exact ⟨c, hu.symm, m, List.getElem?_mem hm, ht, hg⟩

theorem InboundWritten.after_step (hi : InboundWritten codec w) (hb : BroadcastInv w)
    (ht : TableInv w) {a : WorldAction Bytes} (h : step codec a w = some w') :
    InboundWritten codec w' :=
  fun n g hg => ((step_serverMove codec h n).inbound (ht n).handlers (hi n) g hg).of_step hb h

end Inbound

/-- In every run, each item a network has put on `inbound_queue` is the `GossipMessage`
payload of a `gossip/msg` that a connection to the network's endpoint has written, and that
message is a broadcast of the connection's owner. -/
theorem network_inbound_items_broadcast (codec : Codec Bytes)
    (endpoint processIdentity : Nat → String) (acts : List (WorldAction Bytes))
    {w : World Bytes} (hw : run codec acts (init endpoint processIdentity) = some w) (n : Nat)
    {g : GossipMessage Bytes} (hg : g ∈ (w.nodes n).server.inbound) :
    ∃ c m, (w.links c).url = (w.nodes n).endpoint ∧ m ∈ (w.links c).stream.written ∧
      m.messageType = "gossip/msg" ∧ codec.parseGossipMessage m.content = some g ∧
      m ∈ (w.nodes (w.links c).owner).broadcasts := by
  obtain ⟨hb, -, hi⟩ := run_induction codec
    (fun u => BroadcastInv u ∧ TableInv u ∧ InboundWritten codec u)
    (fun _ _ _ ⟨hb, ht, hi⟩ hs => ⟨hb.after_step hs,
      fun n => (ht n).of_move (step_serverMove codec hs n), hi.after_step hb ht hs⟩)
    ⟨broadcastInv_init endpoint processIdentity, tableInv_init endpoint processIdentity,
      fun _ _ hg => by simp [init] at hg⟩ hw
  obtain ⟨c, hu, m, hm, ht, hp⟩ := hi n g hg
  exact ⟨c, m, hu, hm, ht, hp, (hb.written_mem hm).2.resolve_left (by rw [ht]; decide)⟩

/-- A network connected to itself broadcasts `m` without putting its future, drains it to
the connection, and receives the connection's register and then `m`. -/
def selfGossipSchedule (m : Message Blob) : List (WorldAction Blob) :=
  [.addConnection 0 0 "tcp://a" "r1", .startConnection 0, .appendConnection 0,
    .broadcastMessage 0 m, .serverTask 0, .drainBegin 0, .drainPut 0, .drainHandOff 0,
    .drainEnd 0, .clientTask 0, .clientTask 0, .clientSend 0, .clientSend 0, .receive 0 0,
    .receive 0 0]

theorem network_inbound_items_broadcast_self :
    ∃ w : World Blob,
      run Blob.codec (selfGossipSchedule ⟨"gossip/msg", "b1", .gossip .noise "t", ""⟩)
        (init (fun _ => "tcp://a") fun _ => "host-1") = some w ∧
      (w.nodes 0).server.inbound = [⟨.noise, "t"⟩] ∧
      ∃ c m, (w.links c).url = (w.nodes 0).endpoint ∧ m ∈ (w.links c).stream.written ∧
        m.messageType = "gossip/msg" ∧
        Blob.codec.parseGossipMessage m.content = some ⟨.noise, "t"⟩ ∧
        m ∈ (w.nodes (w.links c).owner).broadcasts := by
  refine ⟨_, rfl, rfl, ?_⟩
  exact network_inbound_items_broadcast Blob.codec (fun _ => "tcp://a") (fun _ => "host-1")
    (selfGossipSchedule ⟨"gossip/msg", "b1", .gossip .noise "t", ""⟩) (by rfl) 0 (by decide)

/-! ## A register is answered -/

/-- `register_acked`, with the ack among the frames the schedule appends to what the
server had written. -/
theorem register_ack_appended (codec : Codec Bytes) {w : World Bytes} {n c : Nat}
    {cid : String} (hr : (w.nodes n).receiving = true)
    (hu : (w.nodes n).endpoint = (w.links c).url) (hd : (w.links c).delivered = 0)
    (hp : (w.links c).stream.pipeline.head? = some (registerMessage codec cid))
    (hf : cid ∉ (w.nodes n).server.futures) (hh : (w.nodes n).server.handlers = networkHandlers)
    (hreg : (codec.parsePeerRegisterRequest (codec.serializePeerRegisterRequest {})).isSome) :
    ∃ acts w', run codec acts w = some w' ∧
      (w'.nodes n).server.peeredWithUs.lookup (w.nodes (w.links c).owner).processIdentity =
        some (((w.nodes n).server.peeredWithUs.lookup
          (w.nodes (w.links c).owner).processIdentity).getD [] ++
            [(w.nodes (w.links c).owner).processIdentity]) ∧
      ∃ m X, m.messageType = "gossip/ack" ∧ m.correlationId = cid ∧
        m.content = codec.serializeNetworkAcknowledgement ⟨.ok⟩ ∧
        m.sender = (w.nodes (w.links c).owner).processIdentity ∧
        (w'.nodes n).server.written = (w.nodes n).server.written ++ X ∧
        (codec.encodeText m.sender, codec.serializeMessageList [m]) ∈ X := by
  -- the client thread writes everything it holds, its register first
  obtain ⟨as₁, h₁⟩ := exists_run_client_writes codec (run_nil codec w) c
  generalize hw₁ : w.setLink c _ = w₁ at h₁
  have hn₁ : w₁.nodes = w.nodes := by rw [← hw₁]; rfl
  have hl₁ : (w₁.links c).stream.written = (w.links c).stream.pipeline ∧
      (w₁.links c).delivered = 0 ∧ (w₁.links c).url = (w.links c).url ∧
      (w₁.links c).owner = (w.links c).owner := by simp [← hw₁, hd]
  -- the server receives it: `PeerRegisterHandler` registers the sender and schedules the ack
  generalize hsender : (w.nodes (w.links c).owner).processIdentity = sender
  obtain ⟨req, hq⟩ := Option.isSome_iff_exists.1 hreg
  have hd₂ := Server.dispatch_request codec { registerMessage codec cid with sender } hh
    ⟨hf, .peerRegisterHandler, by rw [hh, lookupHandler_networkHandlers]; rfl, by decide,
      by simp [Handler.accepts, Server.service, registerMessage, hreg]⟩
  obtain ⟨w₂, h₂, hn₂⟩ : ∃ w₂, step codec (.receive n c) w₁ = some w₂ ∧
      (w₂.nodes n).server = { (w.nodes n).server with
        peeredWithUs := registerPeer sender req.identity (w.nodes n).server.peeredWithUs
        ready := (w.nodes n).server.ready ++
          [.putMessage (ackFor codec { registerMessage codec cid with sender })] } := by
    refine ⟨_, step_receive codec (m := registerMessage codec cid) (by rw [hn₁]; exact hr)
      (by rw [hn₁, hl₁.2.2.1]; exact hu)
      (by rw [hl₁.1, hl₁.2.1, ← List.head?_eq_getElem?, hp]), ?_⟩
    simp only [hn₁, hl₁.2.2.2, hsender, hd₂]
    simp [Server.registryCall, registerMessage, hq, RegistryCall.apply, Server.inboundItem]
  -- the server thread writes every reply it holds, after what it had written
  obtain ⟨as₃, w₃, h₃, hw₃, hp₃⟩ : ∃ as w₃, run codec as w₂ = some w₃ ∧
      (w₃.nodes n).server.written = (w₂.nodes n).server.outgoing codec ∧
      (w₃.nodes n).server.peeredWithUs = (w₂.nodes n).server.peeredWithUs :=
    ⟨_, _, server_send_loop_drains codec n w₂, by simp [Server.outgoing], by simp⟩
  refine ⟨_, w₃,
    run_append_of_eq_some (run_append_of_eq_some h₁
      (show run codec [.receive n c] w₁ = some w₂ by simp [h₂])) h₃, by simp [hp₃, hn₂],
    ackFor codec { registerMessage codec cid with sender }, _, rfl, rfl, rfl, rfl,
    by rw [hw₃, Server.outgoing, hn₂], ?_⟩
  exact List.mem_map_of_mem _
    (List.mem_append_right _ (List.mem_filterMap.2 ⟨.putMessage _, by simp [hn₂], rfl⟩))

/-- Take a connection whose client thread holds its `gossip/register` first, the only
connection its process has built to its url, and the server at that url: its receive loop
runs, it has received nothing from the connection
yet, no future waits under the register's id, and its handler table is the one
`Network.__init__` fills. If the register's payload parses, some schedule makes the server
append the process identity of the connection's owner to that identity's entry in
`_peered_with_us`, and write to it an OK `gossip/ack` that echoes the register's
correlation id. -/
theorem register_acked (codec : Codec Bytes) {w : World Bytes} {n c : Nat} {cid : String}
    (_ : SoleConnection w c)
    (hr : (w.nodes n).receiving = true) (hu : (w.nodes n).endpoint = (w.links c).url)
    (hd : (w.links c).delivered = 0)
    (hp : (w.links c).stream.pipeline.head? = some (registerMessage codec cid))
    (hf : cid ∉ (w.nodes n).server.futures) (hh : (w.nodes n).server.handlers = networkHandlers)
    (hreg : (codec.parsePeerRegisterRequest (codec.serializePeerRegisterRequest {})).isSome) :
    ∃ acts w', run codec acts w = some w' ∧
      (w'.nodes n).server.peeredWithUs.lookup (w.nodes (w.links c).owner).processIdentity =
        some (((w.nodes n).server.peeredWithUs.lookup
          (w.nodes (w.links c).owner).processIdentity).getD [] ++
            [(w.nodes (w.links c).owner).processIdentity]) ∧
      ∃ m, m.messageType = "gossip/ack" ∧ m.correlationId = cid ∧
        m.content = codec.serializeNetworkAcknowledgement ⟨.ok⟩ ∧
        m.sender = (w.nodes (w.links c).owner).processIdentity ∧
        (codec.encodeText m.sender, codec.serializeMessageList [m]) ∈
          (w'.nodes n).server.written := by
  obtain ⟨acts, w', h, hl, m, X, ht, hc, hm, hs, hw, hX⟩ :=
    register_ack_appended codec hr hu hd hp hf hh hreg
  exact ⟨acts, w', h, hl, m, ht, hc, hm, hs, hw ▸ List.mem_append_right _ hX⟩

/-- A network connected to itself answers the register of its connection. -/
theorem register_acked_self_connection :
    ∃ w : World Blob,
      run Blob.codec [.addConnection 0 0 "tcp://a" "r1", .startConnection 0]
        (init (fun _ => "tcp://a") fun _ => "host-1") = some w ∧
      SoleConnection w 0 ∧
      (w.nodes 0).receiving = true ∧ (w.nodes 0).endpoint = (w.links 0).url ∧
      (w.links 0).delivered = 0 ∧
      (w.links 0).stream.pipeline.head? = some (registerMessage Blob.codec "r1") ∧
      "r1" ∉ (w.nodes 0).server.futures ∧ (w.nodes 0).server.handlers = networkHandlers ∧
      (Blob.codec.parsePeerRegisterRequest (Blob.codec.serializePeerRegisterRequest {})).isSome ∧
      ∃ acts w', run Blob.codec acts w = some w' ∧
        (w'.nodes 0).server.peeredWithUs.lookup "host-1" = some ["host-1"] ∧
        ∃ m, m.messageType = "gossip/ack" ∧ m.correlationId = "r1" ∧
          m.content = Blob.codec.serializeNetworkAcknowledgement ⟨.ok⟩ ∧ m.sender = "host-1" ∧
          (Blob.codec.encodeText m.sender, Blob.codec.serializeMessageList [m]) ∈
            (w'.nodes 0).server.written := by
  refine ⟨_, rfl, fun d hd _ _ => by simp [hd, init], rfl, rfl, rfl, rfl,
    AList.not_mem_empty _, rfl, rfl, ?_⟩
  exact register_acked Blob.codec (n := 0) (c := 0) (fun d hd _ _ => by simp [hd, init])
    rfl rfl rfl rfl (AList.not_mem_empty _) rfl rfl

/-! ## A stopped receive loop -/

section Stopped

variable {codec : Codec Bytes} {w : World Bytes} {n : Nat} {v : Node Bytes}

/-- A move of a network whose receive loop has stopped keeps the loop stopped and changes
neither the registry, nor the inbound log, nor the frames written and still to write. -/
theorem ServerMove.of_stopped (h : ServerMove codec w n v)
    (hs : (w.nodes n).receiving = false) :
    v.receiving = false ∧ v.server.peeredWithUs = (w.nodes n).server.peeredWithUs ∧
      v.server.inbound = (w.nodes n).server.inbound ∧
      v.server.outgoing codec = (w.nodes n).server.outgoing codec := by
  cases h with
  | keep hv hr => rw [hv, hr]; exact ⟨hs, rfl, rfl, rfl⟩
  | broadcastMessage m hv hr =>
    rw [hv, hr]
    exact ⟨hs, rfl, rfl, by simp [Server.outgoing, Server.broadcastMessage, ServerTask.replyOf]⟩
  | putBroadcastFuture m hv hr => rw [hv, hr]; exact ⟨hs, rfl, rfl, rfl⟩
  | runTask hv hr =>
    rw [hr, Server.runTask_outgoing codec hv, Server.runTask_frame hv]
    exact ⟨hs, rfl, rfl, rfl⟩
  | sendNext hv hr =>
    rw [hr, Server.sendNext_outgoing hv, Server.sendNext_frame hv]
    exact ⟨hs, rfl, rfl, rfl⟩
  | drainBegin m rest _ hv hr => rw [hv, hr]; exact ⟨hs, rfl, rfl, rfl⟩
  | receive c m hr => exact nomatch hs.symm.trans hr

end Stopped

/-- Once a network's receive coroutine has raised, along every continuation of the run no
frame is received again, `_peered_with_us` and `inbound_queue` never change, and every
frame the server writes is one of the replies it had queued or scheduled when the loop
stopped, in that order. -/
theorem stopped_receive_loop_stays_stopped (codec : Codec Bytes)
    (acts : List (WorldAction Bytes)) {w w' : World Bytes} (h : run codec acts w = some w')
    (n : Nat) (hs : (w.nodes n).receiving = false) :
    (∀ c, step codec (.receive n c) w' = none) ∧
      (w'.nodes n).server.peeredWithUs = (w.nodes n).server.peeredWithUs ∧
      (w'.nodes n).server.inbound = (w.nodes n).server.inbound ∧
      (w'.nodes n).server.written <+: (w.nodes n).server.outgoing codec := by
  obtain ⟨hr, hp, hi, ho⟩ := run_induction codec
    (fun u => (u.nodes n).receiving = false ∧
      (u.nodes n).server.peeredWithUs = (w.nodes n).server.peeredWithUs ∧
      (u.nodes n).server.inbound = (w.nodes n).server.inbound ∧
      (u.nodes n).server.outgoing codec = (w.nodes n).server.outgoing codec)
    (fun _ _ _ ⟨hr, hp, hi, ho⟩ hu =>
      let ⟨hr', hp', hi', ho'⟩ := (step_serverMove codec hu n).of_stopped hr
      ⟨hr', hp'.trans hp, hi'.trans hi, ho'.trans ho⟩)
    ⟨hs, rfl, rfl, rfl⟩ h
  refine ⟨fun c => by simp [step, hr], hp, hi, ?_⟩
  rw [← ho]
  exact List.prefix_append _ _

/-- A network connected to itself broadcasts a `gossip/msg` whose payload is not a
`GossipMessage` (`selfGossipSchedule`). Its receive loop registers the connection, then
raises on the broadcast.
A second network then connects to it and writes its register, which is never received. -/
theorem stopped_receive_loop_after_bad_broadcast :
    ∃ w w' : World Blob,
      run Blob.codec (selfGossipSchedule ⟨"gossip/msg", "b1", .noise, ""⟩)
        (init (fun _ => "tcp://a") fun _ => "host-1") = some w ∧
      (w.nodes 0).receiving = false ∧
      run Blob.codec [.serverTask 0, .serverSend 0, .addConnection 1 1 "tcp://a" "r2",
        .startConnection 1, .clientTask 1, .clientSend 1] w = some w' ∧
      (w'.links 1).stream.written = [registerMessage Blob.codec "r2"] ∧
      ((∀ c, step Blob.codec (.receive 0 c) w' = none) ∧
        (w'.nodes 0).server.peeredWithUs = (w.nodes 0).server.peeredWithUs ∧
        (w'.nodes 0).server.inbound = (w.nodes 0).server.inbound ∧
        (w'.nodes 0).server.written <+: (w.nodes 0).server.outgoing Blob.codec) := by
  refine ⟨_, _, rfl, rfl, rfl, rfl, ?_⟩
  exact stopped_receive_loop_stays_stopped Blob.codec
    [.serverTask 0, .serverSend 0, .addConnection 1 1 "tcp://a" "r2", .startConnection 1,
      .clientTask 1, .clientSend 1] (by rfl) 0 (by rfl)

end World

end ValidatorNetwork
