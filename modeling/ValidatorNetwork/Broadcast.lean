import ValidatorNetwork.World

/-!
# Broadcast order per connection

`_broadcast_message` takes one message at a time off the broadcast queue and walks
`_connections` with a list iterator, handing the message to each connection's client
thread. `add_connection` builds a connection, whose `start` hands off its
`gossip/register`, and only then appends it to `_connections`, possibly while a walk is
under way; the iterator still reaches it. A client thread writes what it is handed in
order.

So in every run, every connection has been handed nothing, or its register and then
exactly the broadcasts its owner drained since the connection joined `_connections`, in
drain order, save that the message of a walk in progress may not have reached it yet.
What its client thread has written is a prefix of that, and the drain order is the order
of the `broadcast_message` calls (`connection_writes_register_then_broadcasts`).

`BroadcastInv` states this of every connection against the drainer's position: a
connection before the walk's index has the walk's message, one at or after it does not
yet (`Handed`).
-/

namespace ValidatorNetwork

variable {Bytes : Type}

namespace World

/-- The broadcasts `V` handed to connection `c`, which joined when `joined` broadcasts had
been drained, against the state of its owner's drainer. -/
def Handed (v : Node Bytes) (c joined : Nat) (V : List (Message Bytes)) : Prop :=
  match v.drainer with
  | .idle => V = v.dequeued.drop joined
  | .visiting _ i | .handing _ i =>
    (c ∈ v.connections.take i → V = v.dequeued.drop joined) ∧
      (c ∈ v.connections.drop i → V = v.dequeued.dropLast.drop joined)

/-- Facts of one network: `_connections` has no repeats; a walk in progress walks the last
message taken, at an index within the list; and the messages taken, queued, and scheduled
on the loop are the `broadcast_message` calls, in order. -/
structure DrainFacts (v : Node Bytes) : Prop where
  nodup : v.connections.Nodup
  walk : ∀ m i, v.drainer = .visiting m i ∨ v.drainer = .handing m i →
    v.dequeued.getLast? = some m ∧ i ≤ v.connections.length
  fifo : v.dequeued ++ v.server.broadcastQueue ++
    v.server.ready.filterMap ServerTask.broadcastOf = v.broadcasts

/-- What connection `c` has been handed, by how far `Connection.__init__` and
`add_connection` have got. -/
def LinkFacts (l : Link Bytes) (v : Node Bytes) (c : Nat) : Prop :=
  match l.stage with
  | .absent => l.stream.pipeline = []
  | .registering r => r.messageType = "gossip/register" ∧ l.stream.pipeline = []
  | .started => ∃ r, r.messageType = "gossip/register" ∧ l.stream.pipeline = [r]
  | .listed => c ∈ v.connections ∧ l.joined ≤ v.drained ∧
    ∃ r V, r.messageType = "gossip/register" ∧ l.stream.pipeline = r :: V ∧
      Handed v c l.joined V

structure BroadcastInv (w : World Bytes) : Prop where
  node : ∀ o, DrainFacts (w.nodes o)
  listed : ∀ o c, c ∈ (w.nodes o).connections →
    (w.links c).owner = o ∧ (w.links c).stage = .listed
  link : ∀ c, LinkFacts (w.links c) (w.nodes (w.links c).owner) c

/-! ## The definitions, one case at a time -/

section Unfold

variable {v : Node Bytes} {c j : Nat} {V : List (Message Bytes)} {m : Message Bytes} {i : Nat}

theorem handed_idle (h : v.drainer = .idle) : Handed v c j V ↔ V = v.dequeued.drop j := by
  rw [Handed, h]

theorem handed_busy (h : v.drainer = .visiting m i ∨ v.drainer = .handing m i) :
    Handed v c j V ↔ (c ∈ v.connections.take i → V = v.dequeued.drop j) ∧
      (c ∈ v.connections.drop i → V = v.dequeued.dropLast.drop j) := by
  rcases h with h | h <;> rw [Handed, h]

theorem drained_busy (h : v.drainer = .visiting m i ∨ v.drainer = .handing m i) :
    v.drained = v.dequeued.length - 1 := by
  rcases h with h | h <;> rw [Node.drained, h]

theorem linkFacts_listed {l : Link Bytes} (h : l.stage = .listed) :
    LinkFacts l v c ↔ c ∈ v.connections ∧ l.joined ≤ v.drained ∧
      ∃ r V, r.messageType = "gossip/register" ∧ l.stream.pipeline = r :: V ∧
        Handed v c l.joined V := by
  rw [LinkFacts, h]

/-- A connection in _connections has been handed the messages drained since it joined, less
the walk's message while a walk in progress has not reached it. -/
theorem Handed.of_mem_connections (hv : Handed v c j V) (hc : c ∈ v.connections) :
    V = v.dequeued.drop j ∨ (v.drainer ≠ .idle ∧ V = v.dequeued.dropLast.drop j) := by
  cases hb : v.drainer with
  | idle => exact .inl ((handed_idle hb).1 hv)
  | visiting m i | handing m i =>
    rw [Handed, hb] at hv
    rw [← List.take_append_drop i v.connections, List.mem_append] at hc
    exact hc.imp hv.1 fun h => ⟨by simp, hv.2 h⟩

end Unfold

/-! ## How the drainer's steps move what a connection has been handed -/

/-- The connection at the drainer's index splits `_connections` there. -/
private theorem take_drop_of_getElem? {l : List Nat} {i c : Nat} (h : l[i]? = some c) :
    l.take (i + 1) = l.take i ++ [c] ∧ l.drop i = c :: l.drop (i + 1) := by
  obtain ⟨hi, rfl⟩ := List.getElem?_eq_some_iff.1 h
  exact ⟨by rw [List.take_succ, h]; rfl, List.drop_eq_getElem_cons hi⟩

section Walk

variable {v v' : Node Bytes} {c c₀ j : Nat} {V : List (Message Bytes)} {m : Message Bytes}
  {i : Nat}

/-- Taking a message off the queue starts a walk that has reached no connection. -/
theorem Handed.drainBegin (hv : Handed v c j V) (hd : v.drainer = .idle)
    (hd' : v'.drainer = .visiting m 0) (hq : v'.dequeued = v.dequeued ++ [m]) :
    Handed v' c j V := by
  rw [handed_idle hd] at hv
  rw [handed_busy (.inl hd'), hq]
  simp [hv]

theorem Handed.drainPut (hv : Handed v c j V) (hd : v.drainer = .visiting m i)
    (hd' : v'.drainer = .handing m i) (hc : v'.connections = v.connections)
    (hq : v'.dequeued = v.dequeued) : Handed v' c j V := by
  rwa [handed_busy (.inr hd'), hc, hq, ← handed_busy (.inl hd)]

/-- The hand-off at the walk's index gives the connection there the walk's message. -/
theorem Handed.handOff_self (hv : Handed v c j V) (hd : v.drainer = .handing m i)
    (hd' : v'.drainer = .visiting m (i + 1)) (hc : v'.connections = v.connections)
    (hq : v'.dequeued = v.dequeued) (hget : v.connections[i]? = some c)
    (hn : v.connections.Nodup) (hm : v.dequeued.getLast? = some m)
    (hj : j ≤ v.dequeued.length - 1) : Handed v' c j (V ++ [m]) := by
  obtain ⟨htake, hdrop⟩ := take_drop_of_getElem? hget
  rw [handed_busy (.inr hd), hdrop] at hv
  rw [handed_busy (.inl hd'), hc, hq]
  refine ⟨fun _ => ?_, fun h => (List.disjoint_take_drop hn le_rfl (by simp [htake]) h).elim⟩
  rw [hv.2 (List.mem_cons_self _ _), ← List.drop_append_of_le_length (by simpa using hj),
    List.dropLast_append_getLast? m hm]

/-- The hand-off at the walk's index leaves every other connection as it was. -/
theorem Handed.handOff_other (hv : Handed v c j V) (hd : v.drainer = .handing m i)
    (hd' : v'.drainer = .visiting m (i + 1)) (hc : v'.connections = v.connections)
    (hq : v'.dequeued = v.dequeued) (hget : v.connections[i]? = some c₀) (hne : c ≠ c₀) :
    Handed v' c j V := by
  obtain ⟨htake, hdrop⟩ := take_drop_of_getElem? hget
  rw [handed_busy (.inr hd), hdrop] at hv
  rw [handed_busy (.inl hd'), hc, hq, htake]
  simp only [List.mem_append, List.mem_singleton, hne, or_false]
  exact ⟨hv.1, fun h => hv.2 (List.mem_cons_of_mem _ h)⟩

/-- A walk that has passed the end of `_connections` has reached every connection. -/
theorem Handed.drainEnd (hv : Handed v c j V) (hd : v.drainer = .visiting m i)
    (hd' : v'.drainer = .idle) (hq : v'.dequeued = v.dequeued)
    (hlen : v.connections.length ≤ i) (hc : c ∈ v.connections) : Handed v' c j V := by
  rw [handed_busy (.inl hd), List.take_of_length_le hlen] at hv
  rw [handed_idle hd', hq]
  exact hv.1 hc

/-- Appending `c₀` to `_connections` leaves the connections already there as they were. -/
theorem Handed.append (hv : Handed v c j V) (hd : v'.drainer = v.drainer)
    (hq : v'.dequeued = v.dequeued) (hc : v'.connections = v.connections ++ [c₀])
    (hwalk : ∀ m i, v.drainer = .visiting m i ∨ v.drainer = .handing m i →
      i ≤ v.connections.length) (hne : c ≠ c₀) : Handed v' c j V := by
  cases hb : v.drainer with
  | idle => rwa [handed_idle (hd.trans hb), hq, ← handed_idle hb]
  | visiting m i | handing m i =>
    have hb' : v.drainer = .visiting m i ∨ v.drainer = .handing m i := by simp [hb]
    have hin := hwalk m i hb'
    rw [handed_busy hb'] at hv
    rw [handed_busy (hd ▸ hb'), hc, hq, List.take_append_of_le_length hin,
      List.drop_append_of_le_length hin, List.mem_append, List.mem_singleton]
    exact ⟨hv.1, fun h => h.elim hv.2 fun h => absurd h hne⟩

/-- A connection appended to `_connections`, which the walk in progress has not reached,
has been handed nothing since it joined. -/
theorem handed_append_self (hd : v'.drainer = v.drainer) (hq : v'.dequeued = v.dequeued)
    (hc : v'.connections = v.connections ++ [c₀])
    (hwalk : ∀ m i, v.drainer = .visiting m i ∨ v.drainer = .handing m i →
      i ≤ v.connections.length) (hnot : c₀ ∉ v.connections) : Handed v' c₀ v.drained [] := by
  cases hb : v.drainer with
  | idle => rw [handed_idle (hd.trans hb), hq, Node.drained, hb, List.drop_length]
  | visiting m i | handing m i =>
    have hb' : v.drainer = .visiting m i ∨ v.drainer = .handing m i := by simp [hb]
    rw [handed_busy (hd ▸ hb'), hc, hq, List.take_append_of_le_length (hwalk m i hb'),
      drained_busy hb']
    exact ⟨fun h => absurd (List.mem_of_mem_take h) hnot, fun _ => by simp⟩

end Walk

/-- Link facts carried to a new state of the owner: only a listed connection looks at it. -/
theorem LinkFacts.of_handed {l : Link Bytes} {v v' : Node Bytes} {c : Nat}
    (h : LinkFacts l v c) (hc : c ∈ v.connections → c ∈ v'.connections)
    (hd : v.drained ≤ v'.drained)
    (hh : c ∈ v.connections → ∀ V, Handed v c l.joined V → Handed v' c l.joined V) :
    LinkFacts l v' c := by
  unfold LinkFacts at h ⊢
  split at h
  all_goals try exact h
  obtain ⟨hc', hj, r, V, hr, hp, hV⟩ := h
  exact ⟨hc hc', hj.trans hd, r, V, hr, hp, hh hc' V hV⟩

theorem LinkFacts.of_link {l l' : Link Bytes} {v : Node Bytes} {c : Nat} (h : LinkFacts l v c)
    (hs : l'.stage = l.stage) (hp : l'.stream.pipeline = l.stream.pipeline)
    (hj : l'.joined = l.joined) : LinkFacts l' v c := by
  unfold LinkFacts; rw [hs, hp, hj]; exact h

/-! ## Updates of one connection or one network -/

section Frame

variable {w : World Bytes}

/-- A connection changes, and stays in or out of `_connections` as it was. -/
theorem BroadcastInv.setLink (hi : BroadcastInv w) {c : Nat} {l : Link Bytes}
    (hk : LinkFacts l (w.nodes l.owner) c)
    (hs : l.stage = .listed ↔ (w.links c).stage = .listed)
    (ho : (w.links c).stage = .listed → l.owner = (w.links c).owner) :
    BroadcastInv (w.setLink c l) where
  node := hi.node
  listed o d hd := by
    obtain ⟨hdo, hds⟩ := hi.listed o d hd
    by_cases hdc : d = c
    · subst hdc; simpa [hs.2 hds, ho hds] using hdo
    · simpa [hdc] using hi.listed o d hd
  link d := by
    by_cases hdc : d = c
    · subst hdc; simpa using hk
    · simpa [hdc] using hi.link d

/-- A network changes, with `_connections` as it was. -/
theorem BroadcastInv.setNode (hi : BroadcastInv w) {n : Nat} {v : Node Bytes}
    (hv : DrainFacts v) (hc : v.connections = (w.nodes n).connections)
    (hd : (w.nodes n).drained ≤ v.drained)
    (hh : ∀ c ∈ (w.nodes n).connections, ∀ V,
      Handed (w.nodes n) c (w.links c).joined V → Handed v c (w.links c).joined V) :
    BroadcastInv (w.setNode n v) where
  node o := by
    by_cases ho : o = n
    · subst ho; simpa using hv
    · simpa [ho] using hi.node o
  listed o c hc' := by
    by_cases ho : o = n
    · subst ho; simp only [setNode_nodes_self, hc] at hc'; simpa using hi.listed o c hc'
    · simp only [setNode_nodes_of_ne ho] at hc'; simpa using hi.listed o c hc'
  link c := by
    by_cases ho : (w.links c).owner = n
    · have hk := hi.link c
      rw [ho] at hk
      simpa [ho] using hk.of_handed (fun h => hc ▸ h) hd (hh c)
    · simpa [ho] using hi.link c

/-- A network's own connection `c₀` changes and stays listed, while the network changes and
keeps `_connections` apart from, at most, adding `c₀`. -/
theorem BroadcastInv.setLink_setNode (hi : BroadcastInv w) {n c₀ : Nat} {l : Link Bytes}
    {v : Node Bytes} (ho : (w.links c₀).owner = n) (hl : l.owner = n) (hs : l.stage = .listed)
    (hv : DrainFacts v) (hc : ∀ c ∈ v.connections, c ∈ (w.nodes n).connections ∨ c = c₀)
    (hc' : ∀ c ∈ (w.nodes n).connections, c ∈ v.connections)
    (hd : (w.nodes n).drained ≤ v.drained) (hk : LinkFacts l v c₀)
    (hh : ∀ c ∈ (w.nodes n).connections, c ≠ c₀ → ∀ V,
      Handed (w.nodes n) c (w.links c).joined V → Handed v c (w.links c).joined V) :
    BroadcastInv ((w.setLink c₀ l).setNode n v) where
  node o := by
    by_cases hon : o = n
    · subst hon; simpa using hv
    · simpa [hon] using hi.node o
  listed o c hco := by
    by_cases hc₀ : c = c₀
    · subst hc₀
      by_cases hon : o = n
      · simp [hl, hs, hon]
      · obtain ⟨hco', -⟩ := hi.listed o c (by simpa [hon] using hco)
        exact absurd (ho ▸ hco').symm hon
    · by_cases hon : o = n
      · subst hon
        rcases hc c (by simpa using hco) with hco | rfl
        · simpa [hc₀] using hi.listed o c hco
        · exact absurd rfl hc₀
      · simpa [hon, hc₀] using hi.listed o c (by simpa [hon] using hco)
  link c := by
    by_cases hc₀ : c = c₀
    · subst hc₀; simpa [hl] using hk
    · by_cases hon : (w.links c).owner = n
      · have hk := hi.link c
        rw [hon] at hk
        simpa [hon, hc₀] using hk.of_handed (hc' c) hd fun hcn => hh c hcn hc₀
      · simpa [hon, hc₀] using hi.link c

end Frame

/-! ## Each action keeps the invariant -/

section Actions

variable {codec : Codec Bytes} {w w' : World Bytes}

theorem DrainFacts.of_drain {v v' : Node Bytes} (hv : DrainFacts v)
    (hc : v'.connections = v.connections) (hd : v'.drainer = v.drainer)
    (hq : v'.dequeued = v.dequeued) (hb : v'.broadcasts = v.broadcasts)
    (hs : v'.server.broadcastQueue ++ v'.server.ready.filterMap ServerTask.broadcastOf =
      v.server.broadcastQueue ++ v.server.ready.filterMap ServerTask.broadcastOf) :
    DrainFacts v' where
  nodup := hc ▸ hv.nodup
  walk m i h := by rw [hc, hq]; exact hv.walk m i (hd ▸ h)
  fifo := by rw [List.append_assoc, hs, hq, hb, ← List.append_assoc]; exact hv.fifo

/-- A network whose drainer, dequeued messages and `_connections` stay as they were. -/
theorem BroadcastInv.setNode_of_drain (hi : BroadcastInv w) {n : Nat} {v : Node Bytes}
    (hv : DrainFacts v) (hc : v.connections = (w.nodes n).connections)
    (hd : v.drainer = (w.nodes n).drainer) (hq : v.dequeued = (w.nodes n).dequeued) :
    BroadcastInv (w.setNode n v) :=
  hi.setNode hv hc (by rw [Node.drained, Node.drained, hd, hq]) fun _ _ _ h => by
    unfold Handed at h ⊢; rw [hd, hq, hc]; exact h

theorem BroadcastInv.addConnection (hi : BroadcastInv w) {n c : Nat} {url cid : String}
    (h : step codec (.addConnection n c url cid) w = some w') : BroadcastInv w' := by
  simp only [step] at h
  split at h
  next hs =>
    cases h
    exact hi.setLink ⟨rfl, rfl⟩ (by simp [hs]) (by simp [hs])
  next => cases h

theorem BroadcastInv.startConnection (hi : BroadcastInv w) {c : Nat}
    (h : step codec (.startConnection c) w = some w') : BroadcastInv w' := by
  simp only [step] at h
  split at h
  next m hs =>
    cases h
    have hk := hi.link c
    rw [LinkFacts, hs] at hk
    exact hi.setLink ⟨m, hk.1, by simp [hk.2]⟩ (by simp [hs]) (by simp [hs])
  next => cases h

theorem BroadcastInv.appendConnection (hi : BroadcastInv w) {c : Nat}
    (h : step codec (.appendConnection c) w = some w') : BroadcastInv w' := by
  simp only [step] at h
  split at h
  next hs =>
    cases h
    have hk := hi.link c
    rw [LinkFacts, hs] at hk
    obtain ⟨r, hr, hp⟩ := hk
    have hcn : c ∉ (w.nodes (w.links c).owner).connections := fun hc => by
      have := (hi.listed _ c hc).2; rw [hs] at this; cases this
    have hv := hi.node (w.links c).owner
    have hwalk := fun m i hb => (hv.walk m i hb).2
    refine hi.setLink_setNode rfl rfl rfl ⟨?_, fun m i hb => ?_, hv.fifo⟩
      (fun d hd => by simpa using hd) (fun d hd => List.mem_append_left _ hd) le_rfl
      ⟨by simp, le_rfl, r, [], hr, hp, handed_append_self rfl rfl rfl hwalk hcn⟩
      fun d _ hdc V hV => hV.append rfl rfl rfl hwalk hdc
    · exact List.nodup_append.2 ⟨hv.nodup, List.nodup_singleton c, by simpa using hcn⟩
    · obtain ⟨hm, hin⟩ := hv.walk m i hb; exact ⟨hm, by simp; omega⟩
  next => cases h

theorem BroadcastInv.broadcastMessage (hi : BroadcastInv w) {n : Nat} {m : Message Bytes}
    (h : step codec (.broadcastMessage n m) w = some w') : BroadcastInv w' := by
  cases h
  have hv := hi.node n
  refine hi.setNode_of_drain ⟨hv.nodup, hv.walk, ?_⟩ rfl rfl rfl
  simp [Server.broadcastMessage, ServerTask.broadcastOf, ← hv.fifo]

theorem BroadcastInv.putBroadcastFuture (hi : BroadcastInv w) {n i : Nat}
    (h : step codec (.putBroadcastFuture n i) w = some w') : BroadcastInv w' := by
  simp only [step] at h
  split at h <;> cases h
  exact hi.setNode_of_drain ((hi.node n).of_drain rfl rfl rfl rfl rfl) rfl rfl rfl

theorem BroadcastInv.serverTask (hi : BroadcastInv w) {n : Nat}
    (h : step codec (.serverTask n) w = some w') : BroadcastInv w' := by
  obtain ⟨s, hs, rfl⟩ := Option.map_eq_some'.1 h
  exact hi.setNode_of_drain ((hi.node n).of_drain rfl rfl rfl rfl (Server.runTask_broadcasts hs))
    rfl rfl rfl

theorem BroadcastInv.serverSend (hi : BroadcastInv w) {n : Nat}
    (h : step codec (.serverSend n) w = some w') : BroadcastInv w' := by
  obtain ⟨s, hs, rfl⟩ := Option.map_eq_some'.1 h
  obtain ⟨-, -, hr, hq⟩ := Server.sendNext_keeps hs
  exact hi.setNode_of_drain ((hi.node n).of_drain rfl rfl rfl rfl (by rw [hr, hq])) rfl rfl rfl

theorem BroadcastInv.drainBegin (hi : BroadcastInv w) {n : Nat}
    (h : step codec (.drainBegin n) w = some w') : BroadcastInv w' := by
  simp only [step] at h
  split at h
  next m rest hd hq =>
    cases h
    have hv := hi.node n
    refine hi.setNode ⟨hv.nodup, fun m' i hb => ?_, by simp [← hv.fifo, hq]⟩ rfl
      (by simp [Node.drained, hd]) fun c _ V hV => hV.drainBegin hd rfl rfl
    dsimp only at hb
    rcases hb with hb | hb <;> cases hb
    simp
  next => cases h

theorem BroadcastInv.drainPut (hi : BroadcastInv w) {n : Nat}
    (h : step codec (.drainPut n) w = some w') : BroadcastInv w' := by
  simp only [step] at h
  split at h <;> try cases h
  next m i hd =>
    split at h <;> cases h
    next c hc =>
      have hi₁ : BroadcastInv (w.setLink c
          { w.links c with stream := (w.links c).stream.putFuture m.correlationId }) :=
        hi.setLink ((hi.link c).of_link rfl (Stream.putFuture_pipeline _ _) rfl) Iff.rfl
          fun _ => rfl
      have hv := hi.node n
      refine hi₁.setNode ⟨hv.nodup, fun m' i' hb => hv.walk m' i' ?_, hv.fifo⟩ rfl
        (by simp [Node.drained, hd]) fun c _ V hV => hV.drainPut hd rfl rfl rfl
      dsimp only at hb
      rcases hb with hb | hb <;> cases hb
      exact .inl hd

theorem BroadcastInv.drainHandOff (hi : BroadcastInv w) {n : Nat}
    (h : step codec (.drainHandOff n) w = some w') : BroadcastInv w' := by
  simp only [step] at h
  split at h <;> try cases h
  next m i hd =>
    split at h <;> cases h
    next c hc =>
      have hv := hi.node n
      have hb : (w.nodes n).drainer = .visiting m i ∨ (w.nodes n).drainer = .handing m i :=
        .inr hd
      obtain ⟨hm, -⟩ := hv.walk m i hb
      have hco := hi.listed n c (List.getElem?_mem hc)
      have hk := hi.link c
      rw [hco.1, linkFacts_listed hco.2] at hk
      obtain ⟨-, hj, r, V, hr, hp, hV⟩ := hk
      refine hi.setLink_setNode hco.1 hco.1 hco.2
        ⟨hv.nodup, fun m' i' hb' => ?_, hv.fifo⟩ (fun d hd => .inl hd) (fun d hd => hd)
        (by simp [Node.drained, hd]) (Iff.mpr (linkFacts_listed hco.2) ⟨List.getElem?_mem hc,
          by simpa [Node.drained, hd] using hj, r, V ++ [m], hr, by simp [hp],
          hV.handOff_self hd rfl rfl rfl hc hv.nodup hm (drained_busy hb ▸ hj)⟩)
        fun d _ hdc V hV => hV.handOff_other hd rfl rfl rfl hc hdc
      dsimp only at hb'
      rcases hb' with hb' | hb' <;> cases hb'
      exact ⟨hm, (List.getElem?_eq_some_iff.1 hc).1⟩

theorem BroadcastInv.drainEnd (hi : BroadcastInv w) {n : Nat}
    (h : step codec (.drainEnd n) w = some w') : BroadcastInv w' := by
  simp only [step] at h
  split at h <;> try cases h
  next m i hd =>
    split_ifs at h with hlen
    cases h
    have hv := hi.node n
    refine hi.setNode ⟨hv.nodup, fun _ _ h => by simp at h, hv.fifo⟩ rfl
      (by rw [drained_busy (.inl hd)]; exact Nat.sub_le _ _)
      fun c hc V hV => hV.drainEnd hd rfl rfl hlen hc

theorem BroadcastInv.clientTask (hi : BroadcastInv w) {c : Nat}
    (h : step codec (.clientTask c) w = some w') : BroadcastInv w' := by
  obtain ⟨s, hs, rfl⟩ := Option.map_eq_some'.1 h
  exact hi.setLink ((hi.link c).of_link rfl (Stream.putMessage_spec hs).1 rfl) Iff.rfl
    fun _ => rfl

theorem BroadcastInv.clientSend (hi : BroadcastInv w) {c : Nat}
    (h : step codec (.clientSend c) w = some w') : BroadcastInv w' := by
  obtain ⟨s, hs, rfl⟩ := Option.map_eq_some'.1 h
  exact hi.setLink ((hi.link c).of_link rfl (Stream.sendNext_spec hs).1 rfl) Iff.rfl
    fun _ => rfl

theorem BroadcastInv.receive (hi : BroadcastInv w) {n c : Nat}
    (h : step codec (.receive n c) w = some w') : BroadcastInv w' := by
  simp only [step] at h
  split_ifs at h
  split at h <;> cases h
  have hi₁ : BroadcastInv (w.setLink c { w.links c with delivered := (w.links c).delivered + 1 }) :=
    hi.setLink ((hi.link c).of_link rfl rfl rfl) Iff.rfl fun _ => rfl
  have hk := Server.receiveFrame_keeps codec
    [codec.encodeText (w.nodes (w.links c).owner).processIdentity,
      codec.serializeMessage ‹Message Bytes›] (w.nodes n).server
  exact hi₁.setNode_of_drain ((hi.node n).of_drain rfl rfl rfl rfl
    (by rw [hk.broadcastQueue, hk.broadcasts])) rfl rfl rfl

theorem BroadcastInv.after_step (hi : BroadcastInv w) {a : WorldAction Bytes}
    (h : step codec a w = some w') : BroadcastInv w' := by
  cases a with
  | addConnection => exact hi.addConnection h
  | startConnection => exact hi.startConnection h
  | appendConnection => exact hi.appendConnection h
  | broadcastMessage => exact hi.broadcastMessage h
  | putBroadcastFuture => exact hi.putBroadcastFuture h
  | serverTask => exact hi.serverTask h
  | serverSend => exact hi.serverSend h
  | drainBegin => exact hi.drainBegin h
  | drainPut => exact hi.drainPut h
  | drainHandOff => exact hi.drainHandOff h
  | drainEnd => exact hi.drainEnd h
  | clientTask => exact hi.clientTask h
  | clientSend => exact hi.clientSend h
  | receive => exact hi.receive h

end Actions

theorem broadcastInv_init (endpoint processIdentity : Nat → String) :
    BroadcastInv (init endpoint processIdentity : World Bytes) where
  node _ := ⟨List.nodup_nil, fun _ _ h => by simp [init] at h, rfl⟩
  listed _ _ h := by simp [init] at h
  link _ := rfl

theorem broadcastInv_run (codec : Codec Bytes) (endpoint processIdentity : Nat → String)
    {acts : List (WorldAction Bytes)} {w : World Bytes}
    (h : run codec acts (init endpoint processIdentity) = some w) : BroadcastInv w :=
  run_induction codec BroadcastInv (fun _ _ _ hi hs => hi.after_step hs)
    (broadcastInv_init endpoint processIdentity) h

/-- What a connection's client thread has written: nothing before `Connection.__init__` has
run, then its `gossip/register` and broadcasts of its owner. -/
theorem BroadcastInv.written_mem (hi : BroadcastInv w) {c : Nat} {m : Message Bytes}
    (hm : m ∈ (w.links c).stream.written) :
    (w.links c).stage ≠ .absent ∧
      (m.messageType = "gossip/register" ∨ m ∈ (w.nodes (w.links c).owner).broadcasts) := by
  have hp : m ∈ (w.links c).stream.pipeline := by
    rw [Stream.pipeline, List.append_assoc]; exact List.mem_append_left _ hm
  have hk := hi.link c
  cases hs : (w.links c).stage <;> rw [LinkFacts, hs] at hk
  case absent => rw [hk] at hp; cases hp
  case registering => rw [hk.2] at hp; cases hp
  case started =>
    obtain ⟨r, hr, hq⟩ := hk
    rw [hq, List.mem_singleton] at hp
    exact ⟨nofun, .inl (hp ▸ hr)⟩
  case listed =>
    obtain ⟨hc, -, r, V, hr, hq, hV⟩ := hk
    rw [hq, List.mem_cons] at hp
    refine ⟨nofun, hp.imp (fun he : m = r => he ▸ hr) fun hv => ?_⟩
    have hd : m ∈ (w.nodes (w.links c).owner).dequeued := by
      rcases hV.of_mem_connections hc with rfl | ⟨-, rfl⟩
      · exact List.mem_of_mem_drop hv
      · exact List.dropLast_subset _ (List.mem_of_mem_drop hv)
    rw [← (hi.node _).fifo, List.append_assoc]
    exact List.mem_append_left _ hd

/-- Connection `c`'s client thread has been handed nothing, or its `gossip/register`
followed by broadcasts `V`, and has written a prefix of that. While the connection is not in
its owner's `_connections`, `V` is empty; once it is, `V` is the broadcasts the owner drained
since the connection joined, in drain order, save the message of a walk that has not reached
the connection yet. The drain order is the order of the owner's `broadcast_message` calls. -/
def RegisterThenBroadcasts (w : World Bytes) (c : Nat) : Prop :=
  (w.links c).stream.pipeline = [] ∨
    ∃ r V, r.messageType = "gossip/register" ∧ (w.links c).stream.pipeline = r :: V ∧
      (w.links c).stream.written <+: r :: V ∧
      ((c ∉ (w.nodes (w.links c).owner).connections ∧ V = []) ∨
        (c ∈ (w.nodes (w.links c).owner).connections ∧
          (V = (w.nodes (w.links c).owner).dequeued.drop (w.links c).joined ∨
            ((w.nodes (w.links c).owner).drainer ≠ .idle ∧
              V = (w.nodes (w.links c).owner).dequeued.dropLast.drop (w.links c).joined)))) ∧
      (w.nodes (w.links c).owner).dequeued <+: (w.nodes (w.links c).owner).broadcasts

theorem BroadcastInv.registerThenBroadcasts {w : World Bytes} (hi : BroadcastInv w) (c : Nat) :
    RegisterThenBroadcasts w c := by
  have hpre : (w.nodes (w.links c).owner).dequeued <+: (w.nodes (w.links c).owner).broadcasts :=
    ⟨_, by rw [← (hi.node _).fifo, List.append_assoc]⟩
  have hwr : (w.links c).stream.written <+: (w.links c).stream.pipeline :=
    ⟨_, by rw [Stream.pipeline, List.append_assoc]⟩
  have hk := hi.link c
  cases hs : (w.links c).stage <;> rw [LinkFacts, hs] at hk
  case absent => exact .inl hk
  case registering => exact .inl hk.2
  case started =>
    obtain ⟨r, hr, hp⟩ := hk
    refine .inr ⟨r, [], hr, hp, hp ▸ hwr, .inl ⟨fun hc => ?_, rfl⟩, hpre⟩
    simpa [hs] using (hi.listed _ c hc).2
  case listed =>
    obtain ⟨hc, -, r, V, hr, hp, hV⟩ := hk
    exact .inr ⟨r, V, hr, hp, hp ▸ hwr, .inr ⟨hc, hV.of_mem_connections hc⟩, hpre⟩

/-- Take any networks, any connections, and any schedule of their threads, appends that land
in the middle of a drain included. Every connection's client thread has been handed nothing,
or its `gossip/register` followed by broadcasts `V`, and has written a prefix of that. While
the connection is not in its owner's `_connections`, `V` is empty; once it is, `V` is
exactly the broadcasts the owner drained since the connection joined, in drain order, save
the message of a walk that has not reached the connection yet. The drain order is the order
of the owner's `broadcast_message` calls. -/
theorem connection_writes_register_then_broadcasts (codec : Codec Bytes)
    (endpoint processIdentity : Nat → String) (acts : List (WorldAction Bytes))
    {w : World Bytes} (hw : run codec acts (init endpoint processIdentity) = some w) (c : Nat) :
    (w.links c).stream.pipeline = [] ∨
      ∃ r V, r.messageType = "gossip/register" ∧ (w.links c).stream.pipeline = r :: V ∧
        (w.links c).stream.written <+: r :: V ∧
        ((c ∉ (w.nodes (w.links c).owner).connections ∧ V = []) ∨
          (c ∈ (w.nodes (w.links c).owner).connections ∧
            (V = (w.nodes (w.links c).owner).dequeued.drop (w.links c).joined ∨
              ((w.nodes (w.links c).owner).drainer ≠ .idle ∧
                V = (w.nodes (w.links c).owner).dequeued.dropLast.drop (w.links c).joined)))) ∧
        (w.nodes (w.links c).owner).dequeued <+: (w.nodes (w.links c).owner).broadcasts :=
  (broadcastInv_run codec endpoint processIdentity hw).registerThenBroadcasts c

/-- A network with two connections, the second appended while the drainer walks
`_connections` with the first broadcast: the walk still reaches it, and its client thread
writes its register and then that broadcast. -/
theorem connection_writes_register_then_broadcasts_mid_walk :
    ∃ w : World Blob,
      run Blob.codec [.addConnection 0 0 "tcp://b" "r0", .startConnection 0, .appendConnection 0,
        .addConnection 0 1 "tcp://c" "r1", .startConnection 1,
        .broadcastMessage 0 ⟨"gossip/msg", "b1", .gossip .noise "", ""⟩,
        .putBroadcastFuture 0 0, .serverTask 0, .drainBegin 0, .drainPut 0, .drainHandOff 0,
        .appendConnection 1, .drainPut 0, .drainHandOff 0, .drainEnd 0, .clientTask 1,
        .clientTask 1, .clientSend 1, .clientSend 1]
        (init (fun _ => "tcp://a") fun _ => "host-1") = some w ∧
      (w.links 1).stream.written =
        [registerMessage Blob.codec "r1", ⟨"gossip/msg", "b1", .gossip .noise "", ""⟩] ∧
      ((w.links 1).stream.pipeline = [] ∨
        ∃ r V, r.messageType = "gossip/register" ∧ (w.links 1).stream.pipeline = r :: V ∧
          (w.links 1).stream.written <+: r :: V ∧
          ((1 ∉ (w.nodes (w.links 1).owner).connections ∧ V = []) ∨
            (1 ∈ (w.nodes (w.links 1).owner).connections ∧
              (V = (w.nodes (w.links 1).owner).dequeued.drop (w.links 1).joined ∨
                ((w.nodes (w.links 1).owner).drainer ≠ .idle ∧
                  V = (w.nodes (w.links 1).owner).dequeued.dropLast.drop (w.links 1).joined)))) ∧
          (w.nodes (w.links 1).owner).dequeued <+: (w.nodes (w.links 1).owner).broadcasts) :=
  ⟨_, rfl, by decide, connection_writes_register_then_broadcasts Blob.codec
    (fun _ => "tcp://a") (fun _ => "host-1") [.addConnection 0 0 "tcp://b" "r0",
      .startConnection 0, .appendConnection 0, .addConnection 0 1 "tcp://c" "r1",
      .startConnection 1, .broadcastMessage 0 ⟨"gossip/msg", "b1", .gossip .noise "", ""⟩,
      .putBroadcastFuture 0 0, .serverTask 0, .drainBegin 0, .drainPut 0, .drainHandOff 0,
      .appendConnection 1, .drainPut 0, .drainHandOff 0, .drainEnd 0, .clientTask 1,
      .clientTask 1, .clientSend 1, .clientSend 1] rfl 1⟩

end World

end ValidatorNetwork
