import ValidatorNetwork.Replies
import ValidatorNetwork.ServerRuns
import ValidatorNetwork.Fanout

/-!
# Requests are answered: a connection's futures complete

The server at a connection's url answers a register, and a `gossip/msg` it has not sent
itself, with an OK `gossip/ack` under the same id, and the connection's receive loop then
completes the future that `Stream.send_message` put. So some schedule completes the future
of a connection's register (`register_future_resolved`) and of a broadcast it carries
(`broadcast_future_resolved`). Both rest on three facts of the reachable states: a message
is handed off only after its future is put (`FuturesPut`), a built connection keeps its
owner, url and futures (`Kept`), and a DEALER has taken no more frames than its inbox
holds (`NetInv`), every one of them an OK ack that never stops its receive loop.
-/

namespace ValidatorNetwork

variable {Bytes : Type}

theorem getElem?_of_prefix {α : Type} {l₁ l₂ : List α} (h : l₁ <+: l₂) {i : Nat} {x : α}
    (hi : l₁[i]? = some x) : l₂[i]? = some x := by
  obtain ⟨t, rfl⟩ := h
  rw [List.getElem?_append_left (List.getElem?_eq_some_iff.1 hi).1, hi]

namespace World

variable {codec : Codec Bytes} {w w' : World Bytes}

/-! ## Futures are put before a message leaves -/

/-- `Connection.__init__` and `Stream.send_message` put a message's future before the
message is handed to the client thread: every message handed to a connection has a future
under its id, and so have the register a connection still holds and the broadcast a drainer
is handing to the connection at its index. -/
structure FuturesPut (w : World Bytes) : Prop where
  pipeline : ∀ c, ∀ m ∈ (w.links c).stream.pipeline,
    m.correlationId ∈ (w.links c).stream.futures
  register : ∀ c r, (w.links c).stage = .registering r →
    r.correlationId ∈ (w.links c).stream.futures
  handing : ∀ o m i, (w.nodes o).drainer = .handing m i →
    ∃ c, (w.nodes o).connections[i]? = some c ∧ m.correlationId ∈ (w.links c).stream.futures

theorem futuresPut_init (endpoint processIdentity : Nat → String) :
    FuturesPut (init endpoint processIdentity : World Bytes) :=
  ⟨fun _ _ h => by simp [init, Stream.pipeline] at h, fun _ _ h => (nomatch h),
    fun _ _ _ h => (nomatch h)⟩

/-- `FuturesPut` reads the drainers, and of each connection its stage, what was handed to
it and the keys of its futures: it survives what keeps these and only adds keys. -/
theorem FuturesPut.of_keys (hf : FuturesPut w) (hn : w'.nodes = w.nodes)
    (hl : ∀ c, (w'.links c).stage = (w.links c).stage ∧
      (w'.links c).stream.pipeline = (w.links c).stream.pipeline ∧
      ∀ k ∈ (w.links c).stream.futures, k ∈ (w'.links c).stream.futures) :
    FuturesPut w' where
  pipeline c m hm := (hl c).2.2 _ (hf.pipeline c m ((hl c).2.1 ▸ hm))
  register c r hr := (hl c).2.2 _ (hf.register c r ((hl c).1 ▸ hr))
  handing o m i hd := by
    obtain ⟨c, hc, hm⟩ := hf.handing o m i (hn ▸ hd)
    exact ⟨c, hn ▸ hc, (hl c).2.2 _ hm⟩

/-- A move of a connection keeps the futures of what it holds: `Connection.__init__` puts
the register's, and the drainer hands a message only to the connection it put it on. -/
theorem FuturesPut.linkMove (hf : FuturesPut w) {c : Nat} {l : Link Bytes}
    (h : LinkMove codec w c l) :
    (∀ m ∈ l.stream.pipeline, m.correlationId ∈ l.stream.futures) ∧
      ∀ r, l.stage = .registering r → r.correlationId ∈ l.stream.futures := by
  cases h with
  | keep _ _ hk _ _ hp _ hs =>
    rw [hk, hp]
    refine ⟨hf.pipeline c, fun r hr => hf.register c r ?_⟩
    rcases hs with hs | ⟨-, hs⟩ <;> rw [hs] at hr
    · exact hr
    · cases hr
  | build n url cid =>
    refine ⟨fun m hm => by simp [Stream.pipeline] at hm, fun r hr => ?_⟩
    cases hr
    exact FutureCollection.mem_put_self _ _
  | start r hr =>
    refine ⟨fun m hm => ?_, fun _ h => nomatch h⟩
    rcases (by simpa using hm : m ∈ (w.links c).stream.pipeline ∨ m = r) with hm | rfl
    · exact hf.pipeline c m hm
    · exact hf.register c m hr
  | putFuture =>
    exact ⟨fun m hm => FutureCollection.mem_put_of_mem (hf.pipeline c m hm) _,
      fun r hr => FutureCollection.mem_put_of_mem (hf.register c r hr) _⟩
  | handOff o m i hd hc =>
    refine ⟨fun m' hm' => ?_, hf.register c⟩
    obtain ⟨c', hc', hk⟩ := hf.handing o m i hd
    rcases (by simpa using hm' : m' ∈ (w.links c).stream.pipeline ∨ m' = m) with hm' | rfl
    · exact hf.pipeline c m' hm'
    · rw [← Option.some_inj.1 (hc'.symm.trans hc)]; exact hk

/-- What a move keeps of a built connection: it stays built, under its owner and url, and
keeps every future it holds. -/
theorem LinkMove.kept {c : Nat} {l : Link Bytes} (h : LinkMove codec w c l)
    (hs : (w.links c).stage ≠ .absent) :
    l.stage ≠ .absent ∧ l.owner = (w.links c).owner ∧ l.url = (w.links c).url ∧
      ∀ k ∈ (w.links c).stream.futures, k ∈ l.stream.futures := by
  cases h with
  | keep ho hu hk _ _ _ _ hst =>
    refine ⟨?_, ho, hu, fun k h => hk ▸ h⟩
    rcases hst with hst | ⟨-, hst⟩ <;> rw [hst]
    · exact hs
    · exact nofun
  | build _ _ _ ha => exact absurd ha hs
  | start => exact ⟨nofun, rfl, rfl, fun _ => id⟩
  | putFuture => exact ⟨hs, rfl, rfl, fun _ hk => FutureCollection.mem_put_of_mem hk _⟩
  | handOff => exact ⟨hs, rfl, rfl, fun _ => id⟩

theorem FuturesPut.after_step (hf : FuturesPut w) (hb : BroadcastInv w) {a : WorldAction Bytes}
    (h : step codec a w = some w') : FuturesPut w' where
  pipeline c := (hf.linkMove (step_linkMove codec h c)).1
  register c := (hf.linkMove (step_linkMove codec h c)).2
  handing o m i hd := by
    obtain ⟨hpre, hd | ⟨c, hc, hk⟩⟩ := step_handing codec h hd
    · obtain ⟨c, hc, hk⟩ := hf.handing o m i hd
      have hl : (w.links c).stage = .listed := (hb.listed o c (List.getElem?_mem hc)).2
      exact ⟨c, getElem?_of_prefix hpre hc,
        ((step_linkMove codec h c).kept (by rw [hl]; nofun)).2.2.2 _ hk⟩
    · exact ⟨c, getElem?_of_prefix hpre hc, hk⟩

/-- What a run from `w` keeps of connection `c`, built in `w`, and of every network. -/
structure Kept (w w' : World Bytes) (c : Nat) : Prop where
  built : (w'.links c).stage ≠ .absent
  owner : (w'.links c).owner = (w.links c).owner
  url : (w'.links c).url = (w.links c).url
  futures : ∀ k ∈ (w.links c).stream.futures, k ∈ (w'.links c).stream.futures
  endpoint : ∀ o, (w'.nodes o).endpoint = (w.nodes o).endpoint
  processIdentity : ∀ o, (w'.nodes o).processIdentity = (w.nodes o).processIdentity

theorem Kept.step {c : Nat} {u u' : World Bytes} (hk : Kept w u c) {a : WorldAction Bytes}
    (h : step codec a u = some u') : Kept w u' c := by
  obtain ⟨hs, ho, hu, hf⟩ := (step_linkMove codec h c).kept hk.built
  exact ⟨hs, ho.trans hk.owner, hu.trans hk.url, fun k h => hf k (hk.futures k h),
    fun o => (step_written codec h o c).1.trans (hk.endpoint o),
    fun o => (step_processIdentity codec h o).trans (hk.processIdentity o)⟩

theorem run_kept {as : List (WorldAction Bytes)} (h : run codec as w = some w') {c : Nat}
    (hs : (w.links c).stage ≠ .absent) : Kept w w' c :=
  run_induction codec (Kept w · c) (fun _ _ _ hk h => hk.step h)
    ⟨hs, rfl, rfl, fun _ => id, fun _ => rfl, fun _ => rfl⟩ h

/-- A connection's facts read its stage, what was handed to it, and when it joined. -/
theorem linkFacts_congr {a b : Link Bytes} {v : Node Bytes} {c : Nat}
    (hs : b.stage = a.stage) (hp : b.stream.pipeline = a.stream.pipeline)
    (hj : b.joined = a.joined) : LinkFacts b v c ↔ LinkFacts a v c := by
  simp only [LinkFacts, hs, hp, hj]

/-- A stream that keeps what was handed to it keeps `BroadcastInv`. -/
theorem BroadcastInv.setLink_stream (hb : BroadcastInv w) {c : Nat} {st : Stream Bytes}
    (hp : st.pipeline = (w.links c).stream.pipeline) :
    BroadcastInv (w.setLink c { w.links c with stream := st }) where
  node := hb.node
  listed o c' h := by
    by_cases hc : c' = c
    · subst hc; simpa using hb.listed o c' h
    · simpa [hc] using hb.listed o c' h
  link c' := by
    by_cases hc : c' = c
    · subst hc
      rw [setLink_links_self, setLink_nodes]
      exact (linkFacts_congr (a := w.links c') (b := { w.links c' with stream := st }) rfl hp
        rfl).2 (hb.link c')
    · rw [setLink_links_of_ne hc, setLink_nodes]; exact hb.link c'

end World

namespace Net

variable {codec : Codec Bytes}

/-- When server `n` appends `X` to what it has written and the routing prefix of `c`'s owner
stays, the inbox of `c` grows by the frames of `X` under that prefix. -/
theorem inbox_append {w w' : World Bytes} {n c : Nat} {X : List (Bytes × Bytes)}
    (hw : (w'.nodes n).server.written = (w.nodes n).server.written ++ X)
    (ho : (w'.nodes (w'.links c).owner).processIdentity =
      (w.nodes (w.links c).owner).processIdentity) :
    inbox codec w' n c = inbox codec w n c ++ X.filterMap fun f =>
      if codec.decodeText f.1 = some (w.nodes (w.links c).owner).processIdentity then some f.2
      else none := by
  simp only [inbox, hw, ho, List.filterMap_append]

/-- What the handshake needs of a reachable state: the invariants of `World` it reads, and a
DEALER that has taken no more frames than its inbox holds, and none before its connection
was built. -/
structure NetInv (codec : Codec Bytes) (s : Net Bytes) : Prop where
  reply : ReplyInv codec s
  broadcast : World.BroadcastInv s.world
  table : World.TableInv s.world
  futures : World.FuturesPut s.world
  fresh : ∀ n c, (s.world.links c).stage = .absent → s.taken n c = 0
  taken : ∀ n c, s.taken n c ≤ (inbox codec s.world n c).length

theorem netInv_init (endpoint processIdentity : Nat → String) :
    NetInv codec (init endpoint processIdentity : Net Bytes) :=
  ⟨replyInv_init endpoint processIdentity, World.broadcastInv_init endpoint processIdentity,
    World.tableInv_init endpoint processIdentity, World.futuresPut_init endpoint processIdentity,
    fun _ _ _ => rfl, fun _ _ => Nat.zero_le _⟩

section Steps

variable (hlist : ∀ m, codec.parseMessageList (codec.serializeMessageList [m]) = some [m])
include hlist

theorem NetInv.after_world {s : Net Bytes} (hi : NetInv codec s) {a : WorldAction Bytes}
    {w : World Bytes} (h : World.step codec a s.world = some w) :
    NetInv codec { s with world := w } where
  reply := hi.reply.after_step hlist (a := .world a) (by simp [step, h])
  broadcast := hi.broadcast.after_step h
  table n := (hi.table n).of_move (World.step_serverMove codec h n)
  futures := hi.futures.after_step hi.broadcast h
  fresh n c hc := hi.fresh n c (not_not.1 fun hs => ((World.step_linkMove codec h c).kept hs).1 hc)
  taken n c := by
    by_cases hs : (s.world.links c).stage = .absent
    · exact (Nat.le_of_eq (hi.fresh n c hs)).trans (Nat.zero_le _)
    · have hk := (World.Kept.mk hs rfl rfl (fun _ => id) (fun _ => rfl) fun _ => rfl).step h
      have hp : inbox codec s.world n c <+: inbox codec w n c := by
        simp only [inbox, hk.owner, hk.processIdentity]
        exact List.IsPrefix.filterMap _ <| World.ServerMove.written_prefix
          (World.step_serverMove codec h n)
      exact (hi.taken n c).trans hp.length_le

theorem NetInv.after_reply {s s' : Net Bytes} (hi : NetInv codec s) {n c : Nat}
    (h : step codec (.reply n c) s = some s') : NetInv codec s' := by
  obtain ⟨m, hm, hb, -, hf, hw, ht, -⟩ := step_reply hlist hi.reply h
  obtain ⟨hp, -, hk⟩ := Stream.dispatch_ack_keeps codec (hi.reply.streams c).handlers hm.1
  have hl : ∀ c', (s'.world.links c').stage = (s.world.links c').stage ∧
      (s'.world.links c').stream.pipeline = (s.world.links c').stream.pipeline ∧
      ∀ k ∈ (s.world.links c').stream.futures, k ∈ (s'.world.links c').stream.futures := by
    intro c'
    rw [hw]
    by_cases hc : c' = c
    · subst hc; simpa [hp] using hk
    · simp [hc]
  refine ⟨hi.reply.after_step hlist h, hw ▸ hi.broadcast.setLink_stream hp, hw ▸ hi.table,
    hi.futures.of_keys (by rw [hw]; rfl) hl, fun n' c' hs => ?_, fun n' c' => ?_⟩ <;>
    simp only [ht]
  · rw [(hl c').1] at hs
    split_ifs with he
    · rw [← he.2, Link.built_iff] at hb; exact hb hs
    · exact hi.fresh n' c' hs
  · rw [hw, inbox_setLink_stream]
    split_ifs with he
    · obtain ⟨rfl, rfl⟩ := he; exact (List.getElem?_eq_some_iff.1 hf).1
    · exact hi.taken n' c'

theorem NetInv.after_step {s s' : Net Bytes} (hi : NetInv codec s) {a : NetAction Bytes}
    (h : step codec a s = some s') : NetInv codec s' := by
  cases a with
  | world a =>
    obtain ⟨w, hw, rfl⟩ := Option.map_eq_some'.1 h
    exact hi.after_world hlist hw
  | reply => exact hi.after_reply hlist h

theorem NetInv.after_run {s s' : Net Bytes} (hi : NetInv codec s) {acts : List (NetAction Bytes)}
    (h : run codec acts s = some s') : NetInv codec s' :=
  run_induction codec (NetInv codec) (fun _ _ _ hi h => hi.after_step hlist h) hi h

theorem netInv_run (endpoint processIdentity : Nat → String) {acts : List (NetAction Bytes)}
    {s : Net Bytes} (hs : run codec acts (init endpoint processIdentity) = some s) :
    NetInv codec s :=
  (netInv_init endpoint processIdentity).after_run hlist hs

/-- A DEALER whose receive loop runs takes, one at a time, the frames of its inbox up to one
that holds an ack for one of its futures, which then holds the ack's type and content. -/
theorem exists_run_replies {s : Net Bytes} (hi : ReplyInv codec s) {n c j : Nat}
    {m : Message Bytes} (hb : (s.world.links c).built = true)
    (hu : (s.world.nodes n).endpoint = (s.world.links c).url)
    (hk : m.correlationId ∈ (s.world.links c).stream.futures) (hj : s.taken n c ≤ j)
    (hm : (inbox codec s.world n c)[j]? = some (codec.serializeMessageList [m])) :
    ∃ acts s', run codec acts s = some s' ∧
      ∃ f, (s'.world.links c).stream.futures.lookup m.correlationId = some f ∧
        f.result = some ⟨m.messageType, m.content⟩ := by
  obtain ⟨d, rfl⟩ := Nat.exists_eq_add_of_le hj
  clear hj
  induction d generalizing s with
  | zero =>
    obtain ⟨s', h⟩ := step_reply_enabled hb (hi.receiving c) hu
      (List.getElem?_eq_some_iff.1 hm).1
    obtain ⟨m', hm', -, -, hf, hw, -, -⟩ := step_reply hlist hi h
    obtain rfl := serialize_single_inj hlist (Option.some_inj.1 (hf.symm.trans hm))
    rcases Stream.dispatch_ack codec (hi.streams c).handlers hm'.1 with ⟨f, -, e⟩ | ⟨hn, -⟩
    · refine ⟨[.reply n c], s', by simp [h], f.setResult _, ?_, rfl⟩
      rw [hw, World.setLink_links_self]
      simp only [e]
      exact AList.lookup_insert _
    · exact absurd hk hn
  | succ d ih =>
    have hlt : s.taken n c < (inbox codec s.world n c).length :=
      Nat.lt_of_le_of_lt (Nat.le_add_right _ _) (List.getElem?_eq_some_iff.1 hm).1
    obtain ⟨s₁, h⟩ := step_reply_enabled hb (hi.receiving c) hu hlt
    obtain ⟨m', hm', -, -, -, hw, ht, -⟩ := step_reply hlist hi h
    have hk₁ := (Stream.dispatch_ack_keeps codec (hi.streams c).handlers hm'.1).2.2 _ hk
    have ht₁ : s₁.taken n c = s.taken n c + 1 := by simp [ht]
    obtain ⟨acts, s', h', hr⟩ := ih (hi.after_step hlist h) (by rw [hw]; simpa using hb)
      (by rw [hw]; simpa using hu) (by rw [hw]; simpa using hk₁)
      (by rw [hw, inbox_setLink_stream, ht₁, Nat.add_right_comm]; exact hm)
    exact ⟨.reply n c :: acts, s', by simp [h, h'], hr⟩

/-- Take a reachable state `s`, a built connection `c`, and a run of `World` from `s` after
which the server at `c`'s url has appended, to what it had written, the frame of an ack `a`
for the process of `c`, with a future of `c` waiting under the ack's id. Then some schedule
from `s` completes that future with the ack's type and content. -/
theorem appended_ack_completes {s : Net Bytes} (hi : NetInv codec s)
    {as : List (WorldAction Bytes)} {w : World Bytes} (hw : World.run codec as s.world = some w)
    {n c : Nat} (hb : (s.world.links c).stage ≠ .absent)
    (hu : (s.world.nodes n).endpoint = (s.world.links c).url) {X : List (Bytes × Bytes)}
    (hX : (w.nodes n).server.written = (s.world.nodes n).server.written ++ X)
    {a : Message Bytes} (ha : (codec.encodeText a.sender, codec.serializeMessageList [a]) ∈ X)
    (hsd : a.sender = (s.world.nodes (s.world.links c).owner).processIdentity)
    (hk : a.correlationId ∈ (w.links c).stream.futures) :
    ∃ acts s', run codec acts s = some s' ∧
      ∃ f, (s'.world.links c).stream.futures.lookup a.correlationId = some f ∧
        f.result = some ⟨a.messageType, a.content⟩ := by
  have hkw := World.run_kept hw hb
  have hs₁ := run_world (s := s) hw
  -- the ack's frame stands in the connection's inbox after every frame taken so far
  have hin : inbox codec w n c = inbox codec s.world n c ++ _ :=
    inbox_append hX (by rw [hkw.owner, hkw.processIdentity])
  have hY : codec.serializeMessageList [a] ∈ X.filterMap fun f =>
      if codec.decodeText f.1 = some (s.world.nodes (s.world.links c).owner).processIdentity
      then some f.2 else none :=
    List.mem_filterMap.2 ⟨_, ha, by simp [hsd, codec.decodeText_encodeText]⟩
  obtain ⟨i, hi'⟩ := List.getElem?_of_mem hY
  obtain ⟨acts, s', h, hr⟩ := exists_run_replies hlist (s := { s with world := w })
    (hi.after_run hlist hs₁).reply (Link.built_iff.2 hkw.built)
    (by rw [hkw.endpoint, hkw.url]; exact hu) hk ((hi.taken n c).trans (Nat.le_add_right _ i))
    (by rw [hin, List.getElem?_append_right (Nat.le_add_right _ _), Nat.add_sub_cancel_left]
        exact hi')
  exact ⟨_, s', run_append_of_eq_some hs₁ h, hr⟩

end Steps

/-- Over every schedule of `Net`, replies included, each connection's client thread has
been handed its `gossip/register` and then the broadcasts of its owner, in drain order, as
over the schedules of `World`: the OK acks a connection's receive loop takes hand nothing
to its client thread. -/
theorem replies_keep_register_then_broadcasts (codec : Codec Bytes)
    (hlist : ∀ m, codec.parseMessageList (codec.serializeMessageList [m]) = some [m])
    (endpoint processIdentity : Nat → String) (acts : List (NetAction Bytes)) {s : Net Bytes}
    (hs : run codec acts (init endpoint processIdentity) = some s) (c : Nat) :
    World.RegisterThenBroadcasts s.world c :=
  (netInv_run hlist endpoint processIdentity hs).broadcast.registerThenBroadcasts c

/-- A network connected to itself takes the ack of its register, then appends the
connection and drains a broadcast to it. -/
def selfRegisterBroadcastSchedule : List (NetAction Blob) :=
  selfRegisterSchedule ++ [.appendConnection 0,
    .broadcastMessage 0 ⟨"gossip/msg", "b1", .gossip .noise "", ""⟩, .putBroadcastFuture 0 0,
    .serverTask 0, .drainBegin 0, .drainPut 0, .drainHandOff 0, .drainEnd 0].map .world

theorem replies_keep_register_then_broadcasts_self :
    ∃ s : Net Blob,
      run Blob.codec selfRegisterBroadcastSchedule (init (fun _ => "tcp://a") fun _ => "host-1") =
        some s ∧
      s.taken 0 0 = 1 ∧
      (s.world.links 0).stream.pipeline =
        [World.registerMessage Blob.codec "r1", ⟨"gossip/msg", "b1", .gossip .noise "", ""⟩] ∧
      World.RegisterThenBroadcasts s.world 0 :=
  ⟨_, rfl, rfl, rfl, replies_keep_register_then_broadcasts Blob.codec (fun _ => rfl)
    (fun _ => "tcp://a") (fun _ => "host-1") selfRegisterBroadcastSchedule (by rfl) 0⟩

/-- Take any reachable state, a connection whose client thread holds its `gossip/register`
first, the only connection its process has built to its url, and the server at that url:
its receive loop runs, it
has received nothing from the connection yet, and no future of it waits under the
register's id. If the register's payload parses, some schedule makes the connection's
receive loop complete the future `Stream.send` put under the register's id, with an OK
`gossip/ack`. -/
theorem register_future_resolved (codec : Codec Bytes)
    (hlist : ∀ m, codec.parseMessageList (codec.serializeMessageList [m]) = some [m])
    (hreg : (codec.parsePeerRegisterRequest (codec.serializePeerRegisterRequest {})).isSome)
    (endpoint processIdentity : Nat → String) (acts : List (NetAction Bytes)) {s : Net Bytes}
    (hs : run codec acts (init endpoint processIdentity) = some s) {n c : Nat} {cid : String}
    (_ : World.SoleConnection s.world c)
    (hr : (s.world.nodes n).receiving = true)
    (hu : (s.world.nodes n).endpoint = (s.world.links c).url)
    (hd : (s.world.links c).delivered = 0)
    (hp : (s.world.links c).stream.pipeline.head? = some (World.registerMessage codec cid))
    (hf : cid ∉ (s.world.nodes n).server.futures) :
    ∃ acts' s', run codec acts' s = some s' ∧
      ∃ f, (s'.world.links c).stream.futures.lookup cid = some f ∧
        f.result = some ⟨"gossip/ack", codec.serializeNetworkAcknowledgement ⟨.ok⟩⟩ := by
  have hi := netInv_run hlist endpoint processIdentity hs
  -- the connection is built, and the register's future waits on it
  have hmem : World.registerMessage codec cid ∈ (s.world.links c).stream.pipeline :=
    List.mem_of_mem_head? hp
  have hb : (s.world.links c).stage ≠ .absent := fun ha => by
    have hl := hi.broadcast.link c
    rw [World.LinkFacts, ha] at hl
    rw [hl] at hmem; exact List.not_mem_nil _ hmem
  -- the server answers, after everything it had written
  obtain ⟨as, w, hw, -, m, X, hmt, hmc, hmo, hms, hX, hmX⟩ :=
    World.register_ack_appended codec hr hu hd hp hf (hi.table n).handlers hreg
  obtain ⟨acts', s', h, f, hf', hr'⟩ := appended_ack_completes hlist hi hw hb hu hX hmX hms
    (by rw [hmc]; exact (World.run_kept hw hb).futures _ (hi.futures.pipeline c _ hmem))
  exact ⟨acts', s', h, f, hmc ▸ hf', by rw [hr', hmt, hmo]⟩

/-- A network connected to itself: once `Connection.start` has handed off the register, some
schedule completes the register's future. -/
theorem register_future_resolved_self_connection :
    ∃ s : Net Blob,
      run Blob.codec [.world (.addConnection 0 0 "tcp://a" "r1"), .world (.startConnection 0)]
        (init (fun _ => "tcp://a") fun _ => "host-1") = some s ∧
      World.SoleConnection s.world 0 ∧
      (s.world.nodes 0).receiving = true ∧ (s.world.nodes 0).endpoint = (s.world.links 0).url ∧
      (s.world.links 0).delivered = 0 ∧
      (s.world.links 0).stream.pipeline.head? = some (World.registerMessage Blob.codec "r1") ∧
      "r1" ∉ (s.world.nodes 0).server.futures ∧
      ∃ acts' s', run Blob.codec acts' s = some s' ∧
        ∃ f, (s'.world.links 0).stream.futures.lookup "r1" = some f ∧
          f.result = some ⟨"gossip/ack", Blob.codec.serializeNetworkAcknowledgement ⟨.ok⟩⟩ := by
  refine ⟨_, rfl, fun d hd _ _ => by simp [hd, init, World.init], rfl, rfl, rfl, rfl,
    AList.not_mem_empty _, ?_⟩
  exact register_future_resolved Blob.codec (fun _ => rfl) rfl (fun _ => "tcp://a")
    (fun _ => "host-1") [.world (.addConnection 0 0 "tcp://a" "r1"), .world (.startConnection 0)]
    (by rfl) (n := 0) (c := 0) (fun d hd _ _ => by simp [hd, init, World.init]) rfl rfl rfl rfl
    (AList.not_mem_empty _)

/-- Take any reachable state, a network `o` whose drainer waits on the broadcast queue with a
`gossip/msg` `m` next, and a connection in its `_connections` to the endpoint of a network
`n` whose receive loop runs, which has received everything the connection was handed, and
has no future under `m`'s id. If the payload of `m` parses, some schedule makes the
connection's receive loop complete the future `Stream.send_message` put on it under `m`'s
id, with an OK `gossip/ack`. -/
theorem broadcast_future_resolved (codec : Codec Bytes)
    (hlist : ∀ m, codec.parseMessageList (codec.serializeMessageList [m]) = some [m])
    (endpoint processIdentity : Nat → String) (acts : List (NetAction Bytes)) {s : Net Bytes}
    (hs : run codec acts (init endpoint processIdentity) = some s) {o n c : Nat}
    {m : Message Bytes} {rest : List (Message Bytes)} {g : GossipMessage Bytes}
    (hd : (s.world.nodes o).drainer = .idle)
    (hq : (s.world.nodes o).server.broadcastQueue = m :: rest)
    (hc : c ∈ (s.world.nodes o).connections)
    (hu : (s.world.links c).url = (s.world.nodes n).endpoint)
    (hr : (s.world.nodes n).receiving = true)
    (hdl : (s.world.links c).delivered = (s.world.links c).stream.pipeline.length)
    (ht : m.messageType = "gossip/msg") (hg : codec.parseGossipMessage m.content = some g)
    (hf : m.correlationId ∉ (s.world.nodes n).server.futures) :
    ∃ acts' s', run codec acts' s = some s' ∧
      ∃ f, (s'.world.links c).stream.futures.lookup m.correlationId = some f ∧
        f.result = some ⟨"gossip/ack", codec.serializeNetworkAcknowledgement ⟨.ok⟩⟩ := by
  have hi := netInv_run hlist endpoint processIdentity hs
  obtain ⟨ho, hl⟩ := hi.broadcast.listed o c hc
  -- `o` drains `m` to `c`, and `n` receives it and schedules its ack
  obtain ⟨as₁, w₁, h₁, -, -, hre, hwr, hm⟩ := World.broadcast_gossip_received codec
    hi.broadcast hi.table hd hq hc hu hr hdl ht hg hf
  have hk : m.correlationId ∈ (w₁.links c).stream.futures :=
    (hi.after_run hlist (run_world (s := s) h₁)).futures.pipeline c m
      (List.mem_append_left _ (List.mem_append_left _ hm))
  -- `n`'s server thread writes the ack, after everything it had written
  obtain ⟨as₂, w₂, h₂, hl₂, hw₂⟩ : ∃ as w₂, World.run codec as w₁ = some w₂ ∧
      w₂.links = w₁.links ∧ (w₂.nodes n).server.written = (w₁.nodes n).server.outgoing codec :=
    ⟨_, _, World.run_append_of_eq_some (World.run_serverTasks codec n w₁)
      (World.run_serverSends codec n _), rfl, by simp [Server.outgoing]⟩
  have hX : (w₂.nodes n).server.written = (s.world.nodes n).server.written ++
      ((w₁.nodes n).server.sendQueue ++ (w₁.nodes n).server.ready.filterMap ServerTask.replyOf).map
        fun m => (codec.encodeText m.sender, codec.serializeMessageList [m]) := by
    rw [hw₂, Server.outgoing, hwr]
  obtain ⟨acts', s', h, f, hf', hr'⟩ := appended_ack_completes hlist hi
    (World.run_append_of_eq_some h₁ h₂) (by rw [hl]; nofun) hu.symm hX
    (a := ackFor codec { m with sender := (s.world.nodes o).processIdentity })
    (List.mem_map_of_mem _ (List.mem_append_right _
      (List.mem_filterMap.2 ⟨.putMessage _, by simp [hre], rfl⟩)))
    (by rw [ho]; rfl) (by rw [hl₂]; exact hk)
  exact ⟨acts', s', h, f, hf', by rw [hr']; rfl⟩

/-- A network connects to another, whose server receives the register; the first network
broadcasts a `gossip/msg`, and some schedule completes the broadcast's future on the
connection. -/
theorem broadcast_future_resolved_two_networks :
    ∃ s : Net Blob,
      run Blob.codec (World.peerGossipSchedule.map .world)
        (init (fun k => if k = 0 then "tcp://a" else "tcp://b") fun _ => "host-1") = some s ∧
      (s.world.nodes 0).drainer = .idle ∧
      (s.world.nodes 0).server.broadcastQueue = [⟨"gossip/msg", "b1", .gossip .noise "t", ""⟩] ∧
      0 ∈ (s.world.nodes 0).connections ∧ (s.world.links 0).url = (s.world.nodes 1).endpoint ∧
      (s.world.nodes 1).receiving = true ∧
      (s.world.links 0).delivered = (s.world.links 0).stream.pipeline.length ∧
      "b1" ∉ (s.world.nodes 1).server.futures ∧
      ∃ acts' s', run Blob.codec acts' s = some s' ∧
        ∃ f, (s'.world.links 0).stream.futures.lookup "b1" = some f ∧
          f.result = some ⟨"gossip/ack", Blob.codec.serializeNetworkAcknowledgement ⟨.ok⟩⟩ := by
  refine ⟨_, rfl, rfl, rfl, by decide, rfl, rfl, rfl, by decide, ?_⟩
  exact broadcast_future_resolved Blob.codec (fun _ => rfl)
    (fun k => if k = 0 then "tcp://a" else "tcp://b") (fun _ => "host-1")
    (World.peerGossipSchedule.map .world) (o := 0) (n := 1) (c := 0)
    (m := ⟨"gossip/msg", "b1", .gossip .noise "t", ""⟩) (g := ⟨.noise, "t"⟩) (by rfl) (by rfl)
    (by rfl) (by decide) (by rfl) (by rfl) (by rfl) rfl rfl (by decide)

end Net

end ValidatorNetwork
