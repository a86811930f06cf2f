import ValidatorNetwork.Answers

/-!
# Answers go back to the process that asked

A server's handlers answer a message with `sender=message.sender` and
`correlation_id=message.correlation_id`, and `_receive_message` sets `sender` to the routing
prefix the ROUTER socket saw, which every DEALER socket of one process announces. The send
loop writes each reply under its `sender`, and the ROUTER hands it to a DEALER that announced
that prefix.

So every reply a server holds or has written answers a message with the reply's id that a
connection to the server's endpoint wrote, and goes to the prefix of that connection's
process (`RepliesAnswer`). In every run, a result that a future of connection `c` holds
answers a message with the future's id that a connection of a process with the prefix of
`c`'s owner wrote to `c`'s url (`future_results_answer_own_process`). With one prefix per
process, an answer completes only a future of the process that sent the request.
-/

namespace ValidatorNetwork

variable {Bytes : Type}

namespace World

variable {codec : Codec Bytes} {w w' : World Bytes}

/-- A connection of the process with routing prefix `p` has written a message with id `k`
to `url`. -/
def Sent (w : World Bytes) (url p k : String) : Prop :=
  ∃ c, (w.links c).url = url ∧ (w.nodes (w.links c).owner).processIdentity = p ∧
    ∃ m ∈ (w.links c).stream.written, m.correlationId = k

/-- What was sent stays sent. -/
theorem Sent.of_step (hb : BroadcastInv w) {a : WorldAction Bytes}
    (h : step codec a w = some w') {url p k : String} (hs : Sent w url p k) :
    Sent w' url p k := by
  obtain ⟨c, hu, hp, m, hm, hk⟩ := hs
  have hc := (hb.written_mem hm).1
  obtain ⟨-, ho, hu', -⟩ := (step_linkMove codec h c).kept hc
  obtain ⟨-, ha | ⟨-, hw⟩⟩ := step_written codec h 0 c
  · exact absurd ha hc
  · exact ⟨c, hu'.trans hu, by rw [ho, step_processIdentity codec h]; exact hp, m,
      hw.subset hm, hk⟩

/-- A stream that keeps what it has written keeps what was sent. -/
theorem Sent.setLink_stream {c : Nat} {st : Stream Bytes}
    (hw : st.written = (w.links c).stream.written) {url p k : String} (hs : Sent w url p k) :
    Sent (w.setLink c { w.links c with stream := st }) url p k := by
  obtain ⟨c', hu, hp, m, hm, hk⟩ := hs
  by_cases hc : c' = c
  · subst hc; exact ⟨c', by simpa using hu, by simpa using hp, m, by simpa [hw] using hm, hk⟩
  · exact ⟨c', by simpa [hc] using hu, by simpa [hc] using hp, m, by simpa [hc] using hm, hk⟩

/-! ## What a server answers -/

/-- A move of a server writes only frames of replies it held, and schedules at most the ack
of the message it receives, to that message's sender. -/
theorem ServerMove.replies {n : Nat} {v : Node Bytes} (h : ServerMove codec w n v) :
    (∀ a ∈ v.server.sendQueue ++ v.server.ready.filterMap ServerTask.replyOf,
      a ∈ (w.nodes n).server.sendQueue ++ (w.nodes n).server.ready.filterMap ServerTask.replyOf ∨
      ∃ c m, (w.nodes n).endpoint = (w.links c).url ∧
        (w.links c).stream.written[(w.links c).delivered]? = some m ∧
        a = ackFor codec { m with sender := (w.nodes (w.links c).owner).processIdentity }) ∧
    ∀ f ∈ v.server.written, f ∈ (w.nodes n).server.written ∨
      ∃ a ∈ (w.nodes n).server.sendQueue,
        f = (codec.encodeText a.sender, codec.serializeMessageList [a]) := by
  cases h with
  | keep hs | putBroadcastFuture _ hs | drainBegin _ _ _ hs =>
    rw [hs]; exact ⟨fun a ha => .inl ha, fun f hf => .inl hf⟩
  | broadcastMessage m hs =>
    rw [hs]
    refine ⟨fun a ha => .inl ?_, fun f hf => .inl hf⟩
    simpa [Server.broadcastMessage, ServerTask.replyOf] using ha
  | runTask hs =>
    obtain ⟨hp, hw⟩ := Server.runTask_replies hs
    exact ⟨fun a ha => .inl (hp ▸ ha), fun f hf => .inl (hw ▸ hf)⟩
  | sendNext hs =>
    unfold Server.sendNext at hs
    split at hs
    · cases hs
    · next a rest hq =>
      rw [← Option.some_inj.1 hs]
      refine ⟨fun a' ha' => .inl ?_, fun f hf => ?_⟩
      · rw [hq]
        rcases List.mem_append.1 ha' with ha' | ha'
        · exact List.mem_append_left _ (.tail _ ha')
        · exact List.mem_append_right _ ha'
      · rcases List.mem_append.1 hf with hf | hf
        · exact .inl hf
        · exact .inr ⟨a, by rw [hq]; exact .head _, List.mem_singleton.1 hf⟩
  | receive c m _ hu hm hs =>
    rw [hs]
    have hk := Server.dispatch_keeps codec
      { m with sender := (w.nodes (w.links c).owner).processIdentity } (w.nodes n).server
    refine ⟨fun a ha => ?_, fun f hf => .inl (hk.written ▸ hf)⟩
    rcases Server.dispatch_ready codec
        { m with sender := (w.nodes (w.links c).owner).processIdentity } (w.nodes n).server
      with hr | hr <;> rw [hr, hk.sendQueue] at ha
    · exact .inl ha
    · rw [List.filterMap_append, ← List.append_assoc] at ha
      rcases List.mem_append.1 ha with ha | ha
      · exact .inl ha
      · simp only [List.filterMap_cons, ServerTask.replyOf, List.filterMap_nil,
          List.mem_singleton] at ha
        exact .inr ⟨c, m, hu, hm, ha⟩

/-- Every reply server `s` of network `n` holds, and every frame it has written, answers a
message that a connection to `n`'s endpoint wrote under the reply's id, and goes to the
routing prefix of that connection's process. -/
structure RepliesAnswer (codec : Codec Bytes) (w : World Bytes) (n : Nat) (s : Server Bytes) :
    Prop where
  pending : ∀ a ∈ s.sendQueue ++ s.ready.filterMap ServerTask.replyOf,
    Sent w (w.nodes n).endpoint a.sender a.correlationId
  written : ∀ f ∈ s.written, ∃ a, f = (codec.encodeText a.sender, codec.serializeMessageList [a]) ∧
    Sent w (w.nodes n).endpoint a.sender a.correlationId

theorem RepliesAnswer.of_move {n : Nat} {v : Node Bytes}
    (hn : RepliesAnswer codec w n (w.nodes n).server) (h : ServerMove codec w n v) :
    RepliesAnswer codec w n v.server := by
  obtain ⟨hp, hw⟩ := h.replies
  refine ⟨fun a ha => ?_, fun f hf => ?_⟩
  · rcases hp a ha with ha | ⟨c, m, hu, hm, rfl⟩
    · exact hn.pending a ha
    · exact ⟨c, hu.symm, rfl, m, List.getElem?_mem hm, rfl⟩
  · rcases hw f hf with hf | ⟨a, ha, rfl⟩
    · exact hn.written f hf
    · exact ⟨a, rfl, hn.pending a (List.mem_append_left _ ha)⟩

/-- `RepliesAnswer` survives what keeps `n`'s endpoint and everything sent. -/
theorem RepliesAnswer.mono {n : Nat} {s : Server Bytes} (hn : RepliesAnswer codec w n s)
    (he : (w'.nodes n).endpoint = (w.nodes n).endpoint)
    (hs : ∀ url p k, Sent w url p k → Sent w' url p k) : RepliesAnswer codec w' n s :=
  ⟨fun a ha => he ▸ hs _ _ _ (hn.pending a ha), fun f hf =>
    have ⟨a, hf, ha⟩ := hn.written f hf
    ⟨a, hf, he ▸ hs _ _ _ ha⟩⟩

/-! ## What a connection's futures hold -/

/-- Every result a future of connection `c` holds answers a message with the future's id
that a connection of the process with the routing prefix of `c`'s owner wrote to `c`'s
url. -/
def ResultsAnswer (w : World Bytes) (c : Nat) : Prop :=
  ∀ k f r, (w.links c).stream.futures.lookup k = some f → f.result = some r →
    Sent w (w.links c).url (w.nodes (w.links c).owner).processIdentity k

theorem ResultsAnswer.of_step (hb : BroadcastInv w) {a : WorldAction Bytes}
    (h : step codec a w = some w') {c : Nat} (hr : ResultsAnswer w c) : ResultsAnswer w' c :=
  fun k f r hf hr' => by
    obtain ⟨ho, hu, f', hf', hr''⟩ := (step_linkMove codec h c).results hf hr'
    rw [ho, hu, step_processIdentity codec h]
    exact (hr k f' r hf' hr'').of_step hb h

end World

namespace Net

variable {codec : Codec Bytes}

/-- Every server answers only messages written to it, and every connection's futures hold
only answers to messages its process wrote to the connection's url. -/
structure RouteInv (codec : Codec Bytes) (s : Net Bytes) : Prop where
  servers : ∀ n, World.RepliesAnswer codec s.world n (s.world.nodes n).server
  streams : ∀ c, World.ResultsAnswer s.world c

theorem routeInv_init (endpoint processIdentity : Nat → String) :
    RouteInv codec (init endpoint processIdentity : Net Bytes) :=
  ⟨fun _ => ⟨by simp [init, World.init], by simp [init, World.init]⟩,
    fun _ _ _ _ hf => by simp [init, World.init, AList.lookup_empty] at hf⟩

section Steps

variable (hlist : ∀ m, codec.parseMessageList (codec.serializeMessageList [m]) = some [m])
include hlist

/-- The frame a DEALER takes answers a message its process wrote to the connection's url. -/
theorem RouteInv.reply_sent {s : Net Bytes} (hi : RouteInv codec s) {n c : Nat}
    {m : Message Bytes} (hu : (s.world.nodes n).endpoint = (s.world.links c).url)
    (hf : (inbox codec s.world n c)[s.taken n c]? = some (codec.serializeMessageList [m])) :
    World.Sent s.world (s.world.links c).url (s.world.nodes (s.world.links c).owner).processIdentity
      m.correlationId := by
  obtain ⟨f, hf', hd, he⟩ := mem_inbox (List.getElem?_mem hf)
  obtain ⟨a, rfl, ha⟩ := (hi.servers n).written f hf'
  rw [codec.decodeText_encodeText, Option.some_inj] at hd
  obtain rfl := serialize_single_inj hlist he
  rw [← hu, ← hd]; exact ha

theorem RouteInv.after_step {s s' : Net Bytes} (hi : RouteInv codec s) (hn : NetInv codec s)
    {a : NetAction Bytes} (h : step codec a s = some s') : RouteInv codec s' := by
  cases a with
  | world a =>
    obtain ⟨w, hw, rfl⟩ := Option.map_eq_some'.1 h
    exact ⟨fun n => ((hi.servers n).of_move (World.step_serverMove codec hw n)).mono
      (World.step_written codec hw n 0).1 fun _ _ _ hs => hs.of_step hn.broadcast hw,
      fun c => (hi.streams c).of_step hn.broadcast hw⟩
  | reply n c =>
    obtain ⟨m, hm, -, hu, hf, hw, -, -⟩ := step_reply hlist hn.reply h
    obtain ⟨-, hwr, -⟩ := Stream.dispatch_ack_keeps codec (hn.reply.streams c).handlers hm.1
    have hsent := hi.reply_sent hlist hu hf
    have keep := fun url p k (hs : World.Sent s.world url p k) => hs.setLink_stream hwr
    refine ⟨fun n' => hw ▸ (hi.servers n').mono rfl keep, fun c' k f r hf' hr => ?_⟩
    rw [hw] at hf' ⊢
    by_cases hc : c' = c
    · subst hc
      simp only [World.setLink_links_self] at hf' ⊢
      rcases Stream.dispatch_ack_results codec (hn.reply.streams c').handlers hm.1 hf' hr with
        ⟨rfl, -⟩ | ⟨f', hf'', hr'⟩
      · exact keep _ _ _ hsent
      · exact keep _ _ _ (hi.streams c' k f' r hf'' hr')
    · simp only [World.setLink_links_of_ne hc] at hf' ⊢
      exact keep _ _ _ (hi.streams c' k f r hf' hr)

end Steps

/-- In every run, a result that a future of connection `c` holds answers a message with the
future's id that a connection of a process with the routing prefix of `c`'s owner has
written to `c`'s url. The ROUTER routes each ack by that prefix, which every DEALER socket
of one process announces: with one prefix per process, an answer completes only a future of
the process that sent the request. -/
theorem future_results_answer_own_process (codec : Codec Bytes)
    (hlist : ∀ m, codec.parseMessageList (codec.serializeMessageList [m]) = some [m])
    (endpoint processIdentity : Nat → String) (acts : List (NetAction Bytes)) {s : Net Bytes}
    (hs : run codec acts (init endpoint processIdentity) = some s) {c : Nat} {k : String}
    {f : Future Bytes} {r : FutureResult Bytes}
    (hf : (s.world.links c).stream.futures.lookup k = some f) (hr : f.result = some r) :
    ∃ c', (s.world.links c').url = (s.world.links c).url ∧
      (s.world.nodes (s.world.links c').owner).processIdentity =
        (s.world.nodes (s.world.links c).owner).processIdentity ∧
      ∃ m ∈ (s.world.links c').stream.written, m.correlationId = k := by
  obtain ⟨-, hi⟩ := run_induction codec (fun u => NetInv codec u ∧ RouteInv codec u)
    (fun _ _ _ ⟨hn, hi⟩ h => ⟨hn.after_step hlist h, hi.after_step hlist hn h⟩)
    ⟨netInv_init endpoint processIdentity, routeInv_init endpoint processIdentity⟩ hs
  exact hi.streams c k f r hf hr

/-- A network connected to itself: the future of the connection's register holds the
server's ack, which answers the register the connection wrote. -/
theorem future_results_answer_own_process_self_register :
    ∃ s : Net Blob,
      run Blob.codec selfRegisterSchedule (init (fun _ => "tcp://a") fun _ => "host-1") =
        some s ∧
      (s.world.links 0).stream.futures.lookup "r1" =
        some ⟨"r1", some ⟨"gossip/ack", Blob.codec.serializeNetworkAcknowledgement ⟨.ok⟩⟩⟩ ∧
      ∃ c', (s.world.links c').url = (s.world.links 0).url ∧
        (s.world.nodes (s.world.links c').owner).processIdentity =
          (s.world.nodes (s.world.links 0).owner).processIdentity ∧
        ∃ m ∈ (s.world.links c').stream.written, m.correlationId = "r1" := by
  refine ⟨_, rfl, by decide, ?_⟩
  exact future_results_answer_own_process Blob.codec (fun _ => rfl) (fun _ => "tcp://a")
    (fun _ => "host-1") selfRegisterSchedule (by rfl) (c := 0)
    (f := ⟨"r1", some ⟨"gossip/ack", Blob.codec.serializeNetworkAcknowledgement ⟨.ok⟩⟩⟩)
    (by decide) rfl

end Net

end ValidatorNetwork
