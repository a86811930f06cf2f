import ValidatorNetwork.StreamRun
import ValidatorNetwork.Answers

/-!
# Every connection is a stream under concurrent senders

`StreamRun` is one `Stream` with any peer and any interleaving of the threads inside
`Stream.send` or `Stream.send_message` and of the client event loop. In a network the threads
that send on connection `c` are the one that built it, inside `Connection.start` from the
moment `Connection.__init__` puts the register's future until it hands the register off, and
the drainer `_broadcast_message` of the network that lists `c` in `_connections`, from the
moment its walk reaches `c` until it moves past it. The peer is the server at `c`'s url, whose
frames the DEALER of `c` takes.

`World.streamView` reads connection `c` of a state as a `StreamRun`: its stream, the thread
of `Connection.start` as thread `0`, the drainer of network `o` as thread `o + 1`, whether
its receive loop runs, and what it has been handed. Every step of `Net` moves each view by
zero, one or two steps of `StreamRun` (`streamView_step`), so in every run each connection is
in a state `StreamRun` reaches from a new stream (`connection_follows_stream_model`), and what
holds of every reachable `StreamRun` holds of every connection of the network.

A connection not yet built holds the stream `Stream.__init__` builds (`AbsentFresh`), since
nothing but `Connection.__init__` touches it.
-/

namespace ValidatorNetwork

variable {Bytes : Type}

namespace StreamRun

variable {codec : Codec Bytes} {s s' : Stream Bytes} {f : Nat → Option (Sender Bytes)} {b : Bool}
  {t : Nat} {m : Message Bytes}

@[simp] theorem run_nil (codec : Codec Bytes) (r : StreamRun Bytes) : run codec [] r = some r :=
  rfl

@[simp] theorem run_cons (codec : Codec Bytes) (a : StreamAction Bytes)
    (as : List (StreamAction Bytes)) (r : StreamRun Bytes) :
    run codec (a :: as) r = (step codec a r).bind (run codec as) := rfl

theorem run_append_of_eq_some {as bs : List (StreamAction Bytes)} {r r₁ r₂ : StreamRun Bytes}
    (h₁ : run codec as r = some r₁) (h₂ : run codec bs r₁ = some r₂) :
    run codec (as ++ bs) r = some r₂ := by
  induction as generalizing r with
  | nil => cases h₁; exact h₂
  | cons a as ih =>
    obtain ⟨r', h, h'⟩ := Option.bind_eq_some.1 h₁
    simp only [List.cons_append, run_cons, h, Option.some_bind]
    exact ih h'

theorem run_singleton {a : StreamAction Bytes} {r r' : StreamRun Bytes}
    (h : step codec a r = some r') : run codec [a] r = some r' := by
  simp [h]

/-- A stream with senders `f` and receive flag `b`, dispatching nothing, that has been handed
what its pipeline holds. -/
def view (s : Stream Bytes) (f : Nat → Option (Sender Bytes)) (b : Bool) : StreamRun Bytes :=
  ⟨s, f, [], b, s.pipeline⟩

theorem step_beginSend_view (h : f t = none) :
    step codec (.beginSend t m) (view s f b) =
      some (view s (Function.update f t (some ⟨m, false⟩)) b) := by
  simp [step, view, h]

theorem step_putFuture_view (h : f t = some ⟨m, false⟩) :
    step codec (.putFuture t) (view s f b) =
      some (view (s.putFuture m.correlationId) (Function.update f t (some ⟨m, true⟩)) b) := by
  simp [step, view, h]

theorem step_handOff_view (h : f t = some ⟨m, true⟩) :
    step codec (.handOff t) (view s f b) =
      some (view (s.handOff m) (Function.update f t none) b) := by
  simp [step, view, h]

theorem step_putMessage_view (h : s.putMessage = some s') :
    step codec .putMessage (view s f b) = some (view s' f b) := by
  simp [step, view, h, (Stream.putMessage_spec h).1]

theorem step_sendNext_view (h : s.sendNext = some s') :
    step codec .sendNext (view s f b) = some (view s' f b) := by
  simp [step, view, h, (Stream.sendNext_spec h).1]

/-- A frame of one message, which the receive loop dispatches without raising and which hands
nothing to the client thread, is a `receive` and a `dispatch`. -/
theorem run_receive_view {frame : Bytes} (hl : codec.parseMessageList frame = some [m])
    (hd : s.dispatch codec m = (s', none)) (hp : s'.pipeline = s.pipeline) :
    run codec [.receive frame, .dispatch] (view s f true) = some (view s' f true) := by
  simp [step, view, hl, hd, hp]

end StreamRun

/-- The thread of `Connection.start` on a connection, between the future `Connection.__init__`
puts for the register and the register's hand-off. -/
def Link.starting (l : Link Bytes) : Option (Sender Bytes) :=
  match l.stage with
  | .registering r => some ⟨r, true⟩
  | _ => none

/-- The drainer of a network as a sender on connection `c`: while its walk is at `c`, about
to put the message's future (`visiting`) or to hand the message off (`handing`). -/
def Node.walking (v : Node Bytes) (c : Nat) : Option (Sender Bytes) :=
  match v.drainer with
  | .idle => none
  | .visiting m i => if v.connections[i]? = some c then some ⟨m, false⟩ else none
  | .handing m i => if v.connections[i]? = some c then some ⟨m, true⟩ else none

namespace Node

variable {v : Node Bytes} {c : Nat}

theorem walking_congr {v' : Node Bytes} (hd : v'.drainer = v.drainer)
    (hc : v'.connections = v.connections) (c : Nat) : v'.walking c = v.walking c := by
  simp only [walking, hd, hc]

theorem walking_of_not_mem (h : c ∉ v.connections) : v.walking c = none := by
  have hi : ∀ i, v.connections[i]? ≠ some c := fun i hi => h (List.getElem?_mem hi)
  unfold walking
  split <;> simp [hi]

/-- Appending `c'` to `_connections` moves the drainer's view of `c` only when `c'` is `c`,
new to the list, and the walk waits at the end of the list: the walk reaches `c`. -/
theorem walking_append {d : Nat}
    (hh : ∀ m i, v.drainer = .handing m i → i < v.connections.length)
    (hc : c = d → c ∉ v.connections) :
    { v with connections := v.connections ++ [d] }.walking c = v.walking c ∨
      ∃ m, v.walking c = none ∧
        { v with connections := v.connections ++ [d] }.walking c = some ⟨m, false⟩ := by
  cases hd : v.drainer with
  | idle => exact .inl (by simp [walking, hd])
  | handing m i => exact .inl (by simp [walking, hd, List.getElem?_append_left (hh m i hd)])
  | visiting m i =>
    by_cases hi : i < v.connections.length
    · exact .inl (by simp [walking, hd, List.getElem?_append_left hi])
    obtain ⟨k, rfl⟩ := Nat.exists_eq_add_of_le (not_lt.1 hi)
    have hn : v.connections[v.connections.length + k]? = none := List.getElem?_eq_none (by omega)
    cases k with
    | zero =>
      by_cases he : c = d
      · subst he
        exact .inr ⟨m, by simp [walking, hd, hn], by simp [walking, hd]⟩
      · exact .inl (by simp [walking, hd, hn, Ne.symm he])
    | succ k =>
      exact .inl (by simp [walking, hd, hn, List.getElem?_append_right (Nat.le_add_right _ _)])

end Node

namespace World

variable {codec : Codec Bytes} {w w' : World Bytes} {a : WorldAction Bytes}

/-- The threads sending on connection `c`: `Connection.start` is thread `0`, the drainer of
network `o` is thread `o + 1`. -/
def senders (w : World Bytes) (c : Nat) : Nat → Option (Sender Bytes)
  | 0 => (w.links c).starting
  | o + 1 => (w.nodes o).walking c

@[simp] theorem senders_zero (w : World Bytes) (c : Nat) : w.senders c 0 = (w.links c).starting :=
  rfl

@[simp] theorem senders_succ (w : World Bytes) (c o : Nat) :
    w.senders c (o + 1) = (w.nodes o).walking c := rfl

/-- Connection `c` as one stream under concurrent senders, with `receiving` for its receive
loop. -/
def streamView (w : World Bytes) (c : Nat) (receiving : Bool) : StreamRun Bytes :=
  StreamRun.view (w.links c).stream (w.senders c) receiving

/-- Moving one drainer moves only its thread. -/
theorem senders_update_node {c n : Nat} (h0 : (w'.links c).starting = (w.links c).starting)
    (ho : ∀ o, o ≠ n → (w'.nodes o).walking c = (w.nodes o).walking c) :
    w'.senders c = Function.update (w.senders c) (n + 1) ((w'.nodes n).walking c) := by
  funext t
  cases t with
  | zero => simp [h0]
  | succ o =>
    by_cases h : o = n
    · subst h; simp
    · simp [h, ho o h]

/-- Moving `Connection.start` moves only thread `0`. -/
theorem senders_update_link {c : Nat}
    (hn : ∀ o, (w'.nodes o).walking c = (w.nodes o).walking c) :
    w'.senders c = Function.update (w.senders c) 0 (w'.links c).starting := by
  funext t
  cases t <;> simp [hn]

/-- Setting a network whose drainer and `_connections` stay. -/
private theorem walking_setNode {w₀ : World Bytes} (hw : w₀.nodes = w.nodes) {n : Nat}
    {v : Node Bytes} (hd : v.drainer = (w.nodes n).drainer)
    (hc : v.connections = (w.nodes n).connections) (c o : Nat) :
    ((w₀.setNode n v).nodes o).walking c = (w.nodes o).walking c := by
  by_cases h : o = n
  · subst h; simpa using Node.walking_congr hd hc c
  · rw [setNode_nodes_of_ne h, hw]

/-- Setting a connection by a value that agrees with the old one on `g`. -/
private theorem setLink_agree {β : Type} {w₀ : World Bytes} (hw : w₀.links = w.links) {d : Nat}
    {l : Link Bytes} (g : Link Bytes → β) (hl : g l = g (w.links d)) (c : Nat) :
    g ((w₀.setLink d l).links c) = g (w.links c) := by
  by_cases h : c = d
  · subst h; simpa using hl
  · rw [setLink_links_of_ne h, hw]

/-! ## Connections not yet built -/

/-- A connection `Connection.__init__` has not built holds a new stream. -/
def AbsentFresh (w : World Bytes) : Prop :=
  ∀ c, (w.links c).stage = .absent → (w.links c).stream = {}

theorem absentFresh_init (endpoint processIdentity : Nat → String) :
    AbsentFresh (init endpoint processIdentity : World Bytes) := fun _ _ => rfl

/-- A stream with no futures, its own handler table, and nothing received or handed to it is
a new one. -/
theorem Stream.eq_empty {s : Stream Bytes} (hf : s.futures = ∅) (hh : s.handlers = streamHandlers)
    (hq : s.recvQueue = []) (hp : s.pipeline = []) : s = {} := by
  obtain ⟨f, h, r, q, wr, rq⟩ := s
  simp only [Stream.pipeline, List.append_eq_nil] at hf hh hq hp
  obtain ⟨⟨rfl, rfl⟩, rfl⟩ := hp
  subst hf hh hq
  rfl

theorem LinkMove.fresh (hb : BroadcastInv w) (hf : AbsentFresh w) {c : Nat} {l : Link Bytes}
    (h : LinkMove codec w c l) (hc : l.stage = .absent) : l.stream = {} := by
  cases h with
  | keep _ _ hk hh hq hp _ hs =>
    rcases hs with hs | ⟨-, hs⟩ <;> rw [hs] at hc
    · have he := hf c hc
      have hp' : (w.links c).stream.pipeline = [] := by rw [he]; rfl
      exact Stream.eq_empty (by rw [hk, he]) (by rw [hh, he]) (by rw [hq, he]) (by rw [hp, hp'])
    · cases hc
  | build | start => cases hc
  | putFuture o m i _ hi | handOff o m i _ hi =>
    rw [(hb.listed o c (List.getElem?_mem hi)).2] at hc; cases hc

theorem AbsentFresh.after_step (hb : BroadcastInv w) (hf : AbsentFresh w)
    (h : step codec a w = some w') : AbsentFresh w' :=
  fun c => (step_linkMove codec h c).fresh hb hf

/-- The DEALER side moves only the streams of built connections. -/
theorem AbsentFresh.setLink_stream (hf : AbsentFresh w) {c : Nat} (hc : (w.links c).stage ≠ .absent)
    (st : Stream Bytes) : AbsentFresh (w.setLink c { w.links c with stream := st }) := by
  intro d hd
  by_cases h : d = c
  · subst h; simp at hd; exact absurd hd hc
  · rw [setLink_links_of_ne h] at hd ⊢; exact hf d hd

/-! ## One step of `World` on the view -/

section Simulation

variable {c : Nat} (rc : Bool)

/-- A step that keeps a connection's stream and every thread sending on it keeps its view. -/
theorem exists_run_of_keep (hs : (w'.links c).stream = (w.links c).stream)
    (h0 : (w'.links c).starting = (w.links c).starting)
    (hn : ∀ o, (w'.nodes o).walking c = (w.nodes o).walking c) :
    ∃ acts, StreamRun.run codec acts (w.streamView c rc) = some (w'.streamView c rc) := by
  have hd : w'.senders c = w.senders c := funext fun t => by cases t <;> simp [h0, hn]
  exact ⟨[], by rw [streamView, streamView, hs, hd]; rfl⟩

/-- Setting another connection keeps the view. -/
theorem exists_run_of_setLink {d : Nat} (l : Link Bytes) (hc : c ≠ d) :
    ∃ acts, StreamRun.run codec acts (w.streamView c rc) =
      some ((w.setLink d l).streamView c rc) :=
  exists_run_of_keep rc (by rw [setLink_links_of_ne hc]) (by rw [setLink_links_of_ne hc])
    fun _ => rfl

/-- A step of the client loop moves only the stream. -/
theorem exists_run_of_stream (acts : List (StreamAction Bytes)) {s : Stream Bytes}
    (hs : (w'.links c).stream = s) (h0 : (w'.links c).starting = (w.links c).starting)
    (hn : ∀ o, (w'.nodes o).walking c = (w.nodes o).walking c)
    (hr : StreamRun.run codec acts (w.streamView c rc) =
      some (StreamRun.view s (w.senders c) rc)) :
    ∃ acts, StreamRun.run codec acts (w.streamView c rc) = some (w'.streamView c rc) := by
  have hd : w'.senders c = w.senders c := funext fun t => by cases t <;> simp [h0, hn]
  exact ⟨acts, by rw [hr, streamView, hs, hd]⟩

/-- A step of `Connection.__init__` or `Connection.start` moves thread `0` and the stream. -/
theorem exists_run_of_link (acts : List (StreamAction Bytes)) {s : Stream Bytes}
    {x : Option (Sender Bytes)} (hs : (w'.links c).stream = s) (h0 : (w'.links c).starting = x)
    (hn : ∀ o, (w'.nodes o).walking c = (w.nodes o).walking c)
    (hr : StreamRun.run codec acts (w.streamView c rc) =
      some (StreamRun.view s (Function.update (w.senders c) 0 x) rc)) :
    ∃ acts, StreamRun.run codec acts (w.streamView c rc) = some (w'.streamView c rc) :=
  ⟨acts, by rw [hr, streamView, hs, senders_update_link hn, h0]⟩

/-- A step of the drainer of network `n` moves thread `n + 1` and the stream. -/
theorem exists_run_of_node (acts : List (StreamAction Bytes)) {n : Nat} {s : Stream Bytes}
    {x : Option (Sender Bytes)} (hs : (w'.links c).stream = s)
    (h0 : (w'.links c).starting = (w.links c).starting)
    (ho : ∀ o, o ≠ n → (w'.nodes o).walking c = (w.nodes o).walking c)
    (hx : (w'.nodes n).walking c = x)
    (hr : StreamRun.run codec acts (w.streamView c rc) =
      some (StreamRun.view s (Function.update (w.senders c) (n + 1) x) rc)) :
    ∃ acts, StreamRun.run codec acts (w.streamView c rc) = some (w'.streamView c rc) :=
  ⟨acts, by rw [hr, streamView, hs, senders_update_node h0 ho, hx]⟩

/-- The drainer of network `n` reaching `c` begins a send on it. -/
theorem exists_run_of_beginSend {n : Nat} {m : Message Bytes}
    (hs : (w'.links c).stream = (w.links c).stream)
    (h0 : (w'.links c).starting = (w.links c).starting)
    (ho : ∀ o, o ≠ n → (w'.nodes o).walking c = (w.nodes o).walking c)
    (hn : (w.nodes n).walking c = none) (hn' : (w'.nodes n).walking c = some ⟨m, false⟩) :
    ∃ acts, StreamRun.run codec acts (w.streamView c rc) = some (w'.streamView c rc) :=
  exists_run_of_node rc [.beginSend (n + 1) m] hs h0 ho hn'
    (StreamRun.run_singleton (StreamRun.step_beginSend_view (t := n + 1) hn))

section Invariants

variable (hb : BroadcastInv w) (hp : FuturesPut w) (hf : AbsentFresh w)
include hb hp hf

/-- Each step of `World` moves the view of connection `c` by steps of `StreamRun`:
`Connection.__init__` by `beginSend` and `putFuture` of thread `0`, `Connection.start` by
its `handOff`; the drainer by `beginSend` when its walk reaches `c`, which `add_connection`
can cause by appending `c` under a waiting walk, then `putFuture` and `handOff`; the client
loop by `putMessage` and `sendNext`. Every other step keeps the view. -/
theorem streamView_step (h : step codec a w = some w') (c : Nat) :
    ∃ acts, StreamRun.run codec acts (w.streamView c rc) = some (w'.streamView c rc) := by
  have notMem (hs : (w.links c).stage ≠ .listed) (o : Nat) : c ∉ (w.nodes o).connections :=
    fun hc => hs (hb.listed o c hc).2
  have other {n : Nat} {v : Node Bytes} {w₀ : World Bytes} (hw : w₀.nodes = w.nodes) (o : Nat)
      (ho : o ≠ n) : ((w₀.setNode n v).nodes o).walking c = (w.nodes o).walking c := by
    rw [setNode_nodes_of_ne ho, hw]
  cases a with
  | addConnection n d url cid =>
    simp only [step] at h
    split at h <;> cases h
    next hst =>
      by_cases hc : c = d
      · subst hc
        refine exists_run_of_link rc [.beginSend 0 (registerMessage codec cid), .putFuture 0]
          (s := (w.links c).stream.putFuture cid) (x := some ⟨registerMessage codec cid, true⟩)
          (by simp [hf c hst]) (by simp [Link.starting]) (fun _ => rfl) ?_
        rw [StreamRun.run_cons, streamView,
          StreamRun.step_beginSend_view (t := 0) (by simp [Link.starting, hst]), Option.some_bind,
          StreamRun.run_cons, StreamRun.step_putFuture_view (Function.update_same _ _ _),
          Option.some_bind, StreamRun.run_nil, Function.update_idem]
        rfl
      · exact exists_run_of_setLink rc _ hc
  | startConnection d =>
    simp only [step] at h
    split at h <;> cases h
    next r hst =>
      by_cases hc : c = d
      · subst hc
        exact exists_run_of_link rc [.handOff 0] (by simp) (by simp [Link.starting])
          (fun _ => rfl) (StreamRun.run_singleton
            (StreamRun.step_handOff_view (t := 0) (m := r) (by simp [Link.starting, hst])))
      · exact exists_run_of_setLink rc _ hc
  | appendConnection d =>
    simp only [step] at h
    split at h <;> cases h
    next hst =>
      have hh m i (hd : (w.nodes (w.links d).owner).drainer = .handing m i) :
          i < (w.nodes (w.links d).owner).connections.length :=
        (List.getElem?_eq_some_iff.1 (hp.handing _ m i hd).choose_spec.1).1
      rcases Node.walking_append (c := c) hh (fun hc => notMem (by rw [hc, hst]; nofun) _) with
        e | ⟨m, hn, hn'⟩
      · refine exists_run_of_keep rc (setLink_agree rfl Link.stream (by rfl) c)
          (setLink_agree rfl Link.starting (by simp [Link.starting, hst]) c) fun o => ?_
        by_cases ho : o = (w.links d).owner
        · subst ho; simpa using e
        · exact other rfl o ho
      · exact exists_run_of_beginSend rc (setLink_agree rfl Link.stream (by rfl) c)
          (setLink_agree rfl Link.starting (by simp [Link.starting, hst]) c) (other rfl) hn
          (by simpa using hn')
  | broadcastMessage =>
    cases h; exact exists_run_of_keep rc rfl rfl (walking_setNode rfl (by rfl) (by rfl) c)
  | putBroadcastFuture =>
    simp only [step] at h; split at h <;> cases h
    exact exists_run_of_keep rc rfl rfl (walking_setNode rfl (by rfl) (by rfl) c)
  | serverTask | serverSend =>
    obtain ⟨s, -, rfl⟩ := Option.map_eq_some'.1 h
    exact exists_run_of_keep rc rfl rfl (walking_setNode rfl (by rfl) (by rfl) c)
  | drainBegin n =>
    simp only [step] at h
    split at h <;> cases h
    next m rest hd hq =>
      by_cases h0c : (w.nodes n).connections[0]? = some c
      · exact exists_run_of_beginSend rc (m := m) rfl rfl (other rfl) (by simp [Node.walking, hd])
          (by simp [Node.walking, h0c])
      · refine exists_run_of_keep rc rfl rfl fun o => ?_
        by_cases ho : o = n
        · subst ho; simp [Node.walking, hd, h0c]
        · exact other rfl o ho
  | drainPut n =>
    simp only [step] at h
    split at h <;> try cases h
    next m i hd =>
    split at h <;> cases h
    next d hi =>
    by_cases hc : c = d
    · subst hc
      exact exists_run_of_node rc [.putFuture (n + 1)] (by simp) (by simp [Link.starting])
        (other rfl) (by simp [Node.walking, hi]) (StreamRun.run_singleton
          (StreamRun.step_putFuture_view (t := n + 1) (m := m) (by simp [Node.walking, hd, hi])))
    · refine exists_run_of_keep rc (by simp [setLink_links_of_ne hc])
        (by simp [setLink_links_of_ne hc]) fun o => ?_
      by_cases ho : o = n
      · subst ho; simp [Node.walking, hd, hi, Ne.symm hc]
      · exact other rfl o ho
  | drainHandOff n =>
    simp only [step] at h
    split at h <;> try cases h
    next m i hd =>
    split at h <;> cases h
    next d hi =>
    by_cases hc : c = d
    · subst hc
      have hnext : (w.nodes n).connections[i + 1]? ≠ some c := fun h' => by
        have := List.getElem?_inj (List.getElem?_eq_some_iff.1 hi).1 (hb.node n).nodup
          (hi.trans h'.symm)
        omega
      exact exists_run_of_node rc [.handOff (n + 1)] (by simp) (by simp [Link.starting])
        (other rfl) (by simp [Node.walking, hnext]) (StreamRun.run_singleton
          (StreamRun.step_handOff_view (t := n + 1) (m := m) (by simp [Node.walking, hd, hi])))
    · have hn : (w.nodes n).walking c = none := by simp [Node.walking, hd, hi, Ne.symm hc]
      by_cases h1 : (w.nodes n).connections[i + 1]? = some c
      · exact exists_run_of_beginSend rc (m := m) (by simp [setLink_links_of_ne hc])
          (by simp [setLink_links_of_ne hc]) (other rfl) hn (by simp [Node.walking, h1])
      · refine exists_run_of_keep rc (by simp [setLink_links_of_ne hc])
          (by simp [setLink_links_of_ne hc]) fun o => ?_
        by_cases ho : o = n
        · subst ho; simp [Node.walking, hd, hi, Ne.symm hc, h1]
        · exact other rfl o ho
  | drainEnd n =>
    simp only [step] at h
    split at h <;> try cases h
    next m i hd =>
    split_ifs at h with hl
    cases h
    refine exists_run_of_keep rc rfl rfl fun o => ?_
    by_cases ho : o = n
    · subst ho; simp [Node.walking, hd, List.getElem?_eq_none hl]
    · exact other rfl o ho
  | clientTask d =>
    obtain ⟨st, hst, rfl⟩ := Option.map_eq_some'.1 h
    by_cases hc : c = d
    · subst hc
      exact exists_run_of_stream rc [.putMessage] (by simp) (by simp [Link.starting])
        (fun _ => rfl) (StreamRun.run_singleton (StreamRun.step_putMessage_view hst))
    · exact exists_run_of_setLink rc _ hc
  | clientSend d =>
    obtain ⟨st, hst, rfl⟩ := Option.map_eq_some'.1 h
    by_cases hc : c = d
    · subst hc
      exact exists_run_of_stream rc [.sendNext] (by simp) (by simp [Link.starting])
        (fun _ => rfl) (StreamRun.run_singleton (StreamRun.step_sendNext_view hst))
    · exact exists_run_of_setLink rc _ hc
  | receive n d =>
    simp only [step] at h; split_ifs at h; split at h <;> cases h
    exact exists_run_of_keep rc (setLink_agree rfl Link.stream (by rfl) c)
      (setLink_agree rfl Link.starting (by rfl) c) (walking_setNode rfl (by rfl) (by rfl) c)

end Invariants

end Simulation

end World

namespace Net

variable {codec : Codec Bytes}

/-- Connection `c` of a network state as one stream under concurrent senders. -/
def streamView (s : Net Bytes) (c : Nat) : StreamRun Bytes :=
  s.world.streamView c (s.clientReceiving c)

theorem streamView_init (endpoint processIdentity : Nat → String) (c : Nat) :
    (init endpoint processIdentity : Net Bytes).streamView c = StreamRun.init := by
  simp only [streamView, World.streamView, StreamRun.view, StreamRun.init]
  congr
  funext t
  cases t <;> rfl

section Frames

variable (hlist : ∀ m, codec.parseMessageList (codec.serializeMessageList [m]) = some [m])
include hlist

/-- Each step of `Net` moves the view of connection `c` by steps of `StreamRun`: a step of
`World` as `World.streamView_step` says, and the DEALER of `c` taking a frame by a `receive`
of the frame and a `dispatch` of the one OK ack it holds. -/
theorem streamView_step {s s' : Net Bytes} (hi : NetInv codec s) (hf : World.AbsentFresh s.world)
    {a : NetAction Bytes} (h : step codec a s = some s') (c : Nat) :
    ∃ acts, StreamRun.run codec acts (s.streamView c) = some (s'.streamView c) := by
  cases a with
  | world a =>
    obtain ⟨w, hw, rfl⟩ := Option.map_eq_some'.1 h
    exact World.streamView_step _ hi.broadcast hi.futures hf hw c
  | reply n d =>
    obtain ⟨m, hm, -, -, -, hw, -, hr⟩ := step_reply hlist hi.reply h
    have hn : s'.world.nodes = s.world.nodes := by rw [hw]; rfl
    simp only [streamView, hr]
    by_cases hc : c = d
    · subst hc
      obtain ⟨hp, -, -⟩ := Stream.dispatch_ack_keeps codec (hi.reply.streams c).handlers hm.1
      refine World.exists_run_of_stream _ [.receive (codec.serializeMessageList [m]), .dispatch]
        (s := ((s.world.links c).stream.dispatch codec m).1) (by rw [hw]; simp)
        (by rw [hw]; simp [Link.starting]) (fun o => by rw [hn]) ?_
      rw [hi.reply.receiving c, World.streamView,
        StreamRun.run_receive_view (hlist m) (Prod.ext rfl ((hi.reply.streams c).dispatch hm).2) hp]
    · exact World.exists_run_of_keep _ (by rw [hw]; simp [World.setLink_links_of_ne hc])
        (by rw [hw]; simp [World.setLink_links_of_ne hc]) fun o => by rw [hn]

theorem absentFresh_after_step {s s' : Net Bytes} (hi : NetInv codec s)
    (hf : World.AbsentFresh s.world) {a : NetAction Bytes} (h : step codec a s = some s') :
    World.AbsentFresh s'.world := by
  cases a with
  | world a =>
    obtain ⟨w, hw, rfl⟩ := Option.map_eq_some'.1 h
    exact hf.after_step hi.broadcast hw
  | reply =>
    obtain ⟨m, -, hb, -, -, hw, -, -⟩ := step_reply hlist hi.reply h
    rw [hw]
    exact hf.setLink_stream (Link.built_iff.1 hb) _

end Frames

/-- In every run, each connection, with the threads sending on it, whether its receive loop
runs, and what it has been handed, is in a state that `StreamRun` reaches from a new stream
under some schedule of senders, client loop and peer. -/
theorem connection_follows_stream_model (codec : Codec Bytes)
    (hlist : ∀ m, codec.parseMessageList (codec.serializeMessageList [m]) = some [m])
    (endpoint processIdentity : Nat → String) (acts : List (NetAction Bytes)) {s : Net Bytes}
    (hs : run codec acts (init endpoint processIdentity) = some s) (c : Nat) :
    ∃ streamActs, StreamRun.run codec streamActs StreamRun.init = some (s.streamView c) := by
  obtain ⟨-, -, hr⟩ := run_induction codec
    (fun u => NetInv codec u ∧ World.AbsentFresh u.world ∧
      ∃ streamActs, StreamRun.run codec streamActs StreamRun.init = some (u.streamView c))
    (fun _ _ _ ⟨hi, hf, _, hr⟩ h =>
      have ⟨_, h'⟩ := streamView_step hlist hi hf h c
      ⟨hi.after_step hlist h, absentFresh_after_step hlist hi hf h, _,
        StreamRun.run_append_of_eq_some hr h'⟩)
    ⟨netInv_init endpoint processIdentity, World.absentFresh_init endpoint processIdentity, [],
      by rw [streamView_init]; rfl⟩ hs
  exact hr

/-- A network connected to itself, after its connection's register has been answered: the
connection has been handed its register, and its state is one `StreamRun` reaches. -/
theorem connection_follows_stream_model_self_register :
    ∃ s : Net Blob,
      run Blob.codec selfRegisterSchedule (init (fun _ => "tcp://a") fun _ => "host-1") =
        some s ∧
      (s.streamView 0).sent = [World.registerMessage Blob.codec "r1"] ∧
      ∃ streamActs, StreamRun.run Blob.codec streamActs StreamRun.init = some (s.streamView 0) := by
  refine ⟨_, rfl, rfl, ?_⟩
  exact connection_follows_stream_model Blob.codec (fun _ => rfl) (fun _ => "tcp://a")
    (fun _ => "host-1") selfRegisterSchedule (by rfl) 0

end Net

end ValidatorNetwork
