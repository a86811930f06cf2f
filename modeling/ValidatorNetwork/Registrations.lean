import ValidatorNetwork.Answers

/-!
# Who is in `_peered_with_us`

`Network.register_peer` and `Network.unregister_peer` are called only by the handlers of
`gossip/register` and `gossip/unregister`, with the `sender` that `_receive_message` set to
the routing prefix the ROUTER socket saw, and only when no future waits under the message's
id. `Logged` runs `World` with a ghost log of what each network's receive loop dispatched:
the registry is what the calls of the log build, in log order, and the log holds each
message a connection to the network wrote, once, in the order written
(`peer_registry_built_from_received_calls`). So every key of the registry is the prefix of a
process whose `gossip/register` the server received (`registered_peer_sent_register`).
-/

namespace ValidatorNetwork

variable {Bytes : Type}

/-- A registry with a register of `p` since the last unregister of `p` comes from a log
holding such a register. -/
theorem exists_registerPeer_of_registrations {p : String} {calls : List RegistryCall}
    (h : registrationsSinceUnregister p calls ≠ 0) : ∃ i, .registerPeer p i ∈ calls := by
  obtain ⟨x, hx, hr⟩ := List.countP_pos_iff.1 (Nat.pos_of_ne_zero h)
  have hc : x ∈ calls := List.mem_reverse.1 ((List.takeWhile_sublist _).subset hx)
  cases x with
  | registerPeer s i =>
    obtain rfl : s = p := by simpa [RegistryCall.isRegisterOf] using hr
    exact ⟨i, hc⟩
  | unregisterPeer => simp [RegistryCall.isRegisterOf] at hr

namespace Server

/-- What a dispatch at a network does to its registry: nothing when a future waits under the
message's id, else the registry call of the message, if it makes one. -/
theorem dispatch_peeredWithUs (codec : Codec Bytes) (message : Message Bytes)
    {s : Server Bytes} (hs : s.handlers = networkHandlers) :
    (dispatch codec message s).1.peeredWithUs =
      if message.correlationId ∈ s.futures then s.peeredWithUs
      else (registryCall codec message).elim s.peeredWithUs (·.apply s.peeredWithUs) := by
  split_ifs with hf
  · obtain ⟨f, hl, -⟩ :=
      FutureCollection.setResult_of_mem ⟨message.messageType, message.content⟩ hf
    rw [dispatch_of_lookup codec message hl]
  · simp only [dispatch, FutureCollection.setResult_of_not_mem _ hf, hs,
      lookupHandler_networkHandlers, registryCall]
    split_ifs <;> simp only [Handler.handle, PeerRegisterHandler.handle,
      PeerUnregisterHandler.handle, GossipMessageHandler.handle, DefaultHandler.handle, acknowledge]
    · cases codec.parsePeerRegisterRequest message.content <;> rfl
    · cases codec.parsePeerUnregisterRequest message.content <;> rfl
    · cases codec.parseGossipMessage message.content <;> rfl
    · rfl

/-- A register call names the sender of a `gossip/register`. -/
theorem registryCall_eq_registerPeer {codec : Codec Bytes} {message : Message Bytes}
    {p i : String} (h : registryCall codec message = some (.registerPeer p i)) :
    message.messageType = "gossip/register" ∧ message.sender = p := by
  unfold registryCall at h
  split_ifs at h with h₁
  · obtain ⟨r, -, hr⟩ := Option.map_eq_some'.1 h
    injection hr with hs
    exact ⟨h₁, hs⟩
  · obtain ⟨r, -, hr⟩ := Option.map_eq_some'.1 h
    cases hr

end Server

/-- One message a network's receive loop dispatched: the connection that wrote it, its index
among that connection's written messages, the message with the sender the ROUTER socket gave
it, and whether a future waited under its id, so that `set_result` took it. -/
structure Receipt (Bytes : Type) where
  link : Nat
  index : Nat
  message : Message Bytes
  reply : Bool

/-- The registry call the dispatch of a receipt's message makes: none for a reply, else the
`register_peer` or `unregister_peer` of a registry request whose payload parses. -/
def Receipt.call (codec : Codec Bytes) (r : Receipt Bytes) : Option RegistryCall :=
  if r.reply then none else Server.registryCall codec r.message

namespace World

variable {codec : Codec Bytes} {w w' : World Bytes} {a : WorldAction Bytes}

/-! ## What a step does to registries and delivered counts -/

/-- A receive is enabled when the server receives, the connection is at its endpoint, and the
connection has written a message the server has not received. -/
theorem step_receive_enabled {n c : Nat} (h : step codec (.receive n c) w = some w') :
    ∃ m, (w.nodes n).receiving = true ∧ (w.nodes n).endpoint = (w.links c).url ∧
      (w.links c).stream.written[(w.links c).delivered]? = some m := by
  simp only [step] at h
  split_ifs at h with hc
  simp only [Bool.and_eq_true, beq_iff_eq] at hc
  split at h <;> cases h
  exact ⟨_, hc.1, hc.2, ‹_›⟩

/-- Setting a network whose server keeps its registry. -/
private theorem registry_setNode {w₀ w : World Bytes} (hw : w₀.nodes = w.nodes) {o : Nat}
    {v : Node Bytes} (hv : v.server.peeredWithUs = (w.nodes o).server.peeredWithUs) (n : Nat) :
    ((w₀.setNode o v).nodes n).server.peeredWithUs = (w.nodes n).server.peeredWithUs := by
  by_cases h : n = o
  · subst h; simpa using hv
  · rw [setNode_nodes_of_ne h, hw]

/-- Setting a connection that keeps its delivered count. -/
private theorem delivered_setLink {w₀ w : World Bytes} (hw : w₀.links = w.links) {c' : Nat}
    {l : Link Bytes} (hl : l.delivered = (w.links c').delivered) (c : Nat) :
    ((w₀.setLink c' l).links c).delivered = (w.links c).delivered := by
  by_cases h : c = c'
  · subst h; simpa using hl
  · rw [setLink_links_of_ne h, hw]

/-- Every step but a receive keeps every network's registry, and the delivered count of every
connection, save one `add_connection` builds, which starts from none. -/
theorem step_keeps_registry (h : step codec a w = some w') (ha : ∀ n c, a ≠ .receive n c)
    (n c : Nat) :
    (w'.nodes n).server.peeredWithUs = (w.nodes n).server.peeredWithUs ∧
      ((w.links c).stage = .absent ∧ (w'.links c).delivered = 0 ∨
        (w'.links c).delivered = (w.links c).delivered) := by
  cases a with
  | receive n' c' => exact absurd rfl (ha n' c')
  | addConnection _ c' =>
    simp only [step] at h
    split at h <;> cases h
    next hs =>
      refine ⟨rfl, ?_⟩
      by_cases hc : c = c'
      · subst hc; exact .inl ⟨hs, by simp⟩
      · exact .inr (by rw [setLink_links_of_ne hc])
  | startConnection =>
    simp only [step] at h; split at h <;> cases h
    exact ⟨rfl, .inr (delivered_setLink rfl (by rfl) c)⟩
  | clientTask | clientSend =>
    obtain ⟨s, -, rfl⟩ := Option.map_eq_some'.1 h
    exact ⟨rfl, .inr (delivered_setLink rfl (by rfl) c)⟩
  | appendConnection =>
    simp only [step] at h; split at h <;> cases h
    exact ⟨registry_setNode rfl (by rfl) n, .inr (delivered_setLink rfl (by rfl) c)⟩
  | broadcastMessage => cases h; exact ⟨registry_setNode rfl (by rfl) n, .inr rfl⟩
  | putBroadcastFuture | drainBegin =>
    simp only [step] at h; split at h <;> cases h
    exact ⟨registry_setNode rfl (by rfl) n, .inr rfl⟩
  | serverTask =>
    obtain ⟨s, hs, rfl⟩ := Option.map_eq_some'.1 h
    exact ⟨registry_setNode rfl (by rw [Server.runTask_frame hs]) n, .inr rfl⟩
  | serverSend =>
    obtain ⟨s, hs, rfl⟩ := Option.map_eq_some'.1 h
    exact ⟨registry_setNode rfl (by rw [Server.sendNext_frame hs]) n, .inr rfl⟩
  | drainPut | drainHandOff =>
    simp only [step] at h; split at h <;> try cases h
    split at h <;> cases h
    exact ⟨registry_setNode rfl (by rfl) n, .inr (delivered_setLink rfl (by rfl) c)⟩
  | drainEnd =>
    simp only [step] at h; split at h <;> try cases h
    split_ifs at h; cases h
    exact ⟨registry_setNode rfl (by rfl) n, .inr rfl⟩

/-- A move that leaves a connection unbuilt found it unbuilt. -/
theorem LinkMove.absent {c : Nat} {l : Link Bytes} (h : LinkMove codec w c l)
    (hl : l.stage = .absent) : (w.links c).stage = .absent := by
  cases h with
  | keep _ _ _ _ _ _ _ hs =>
    rcases hs with hs | ⟨-, hs⟩ <;> rw [hs] at hl
    · exact hl
    · cases hl
  | build | start => cases hl
  | putFuture | handOff => exact hl

/-- A step receives once more from connection `c`, or builds it from nothing delivered, or
keeps its delivered count. -/
theorem step_delivered_cases (h : step codec a w = some w') (c : Nat) :
    (∀ n, a = .receive n c → (w'.links c).delivered = (w.links c).delivered + 1) ∧
      ((∀ n, a ≠ .receive n c) → (w.links c).stage = .absent ∧ (w'.links c).delivered = 0 ∨
        (w'.links c).delivered = (w.links c).delivered) := by
  by_cases ha : ∃ n c', a = .receive n c'
  · obtain ⟨n, c', rfl⟩ := ha
    obtain ⟨m, hr, hu, hm⟩ := step_receive_enabled h
    rw [step_receive codec hr hu hm, Option.some_inj] at h
    subst h
    by_cases hc : c = c'
    · subst hc; exact ⟨fun _ _ => by simp, fun hn => absurd rfl (hn n)⟩
    · exact ⟨fun _ he => by cases he; exact absurd rfl hc,
        fun _ => .inr (by simp [setLink_links_of_ne hc])⟩
  · push_neg at ha
    exact ⟨fun n he => absurd he (ha n c), fun _ => (step_keeps_registry h ha 0 c).2⟩

/-- No step lowers the delivered count of a built connection. -/
theorem step_delivered (h : step codec a w = some w') (c : Nat) :
    (w.links c).stage = .absent ∨ (w.links c).delivered ≤ (w'.links c).delivered := by
  obtain ⟨hr, hk⟩ := step_delivered_cases h c
  by_cases ha : ∃ n, a = .receive n c
  · obtain ⟨n, rfl⟩ := ha
    exact .inr (by rw [hr n rfl]; omega)
  · push_neg at ha
    exact (hk ha).imp And.left Eq.ge

/-- What network `n` dispatches when it receives the next written message of connection `c`,
under the routing prefix of the connection's process. -/
def receipt (w : World Bytes) (n c : Nat) : Option (Receipt Bytes) :=
  (w.links c).stream.written[(w.links c).delivered]?.map fun m =>
    { link := c, index := (w.links c).delivered,
      message := { m with sender := (w.nodes (w.links c).owner).processIdentity },
      reply := decide (m.correlationId ∈ (w.nodes n).server.futures) }

theorem receipt_eq {n c : Nat} {m : Message Bytes}
    (hm : (w.links c).stream.written[(w.links c).delivered]? = some m) :
    w.receipt n c = some
      { link := c, index := (w.links c).delivered,
        message := { m with sender := (w.nodes (w.links c).owner).processIdentity },
        reply := decide (m.correlationId ∈ (w.nodes n).server.futures) } := by
  simp [receipt, hm]

theorem receipt_link {n c : Nat} {r : Receipt Bytes} (h : w.receipt n c = some r) :
    r.link = c ∧ r.index = (w.links c).delivered := by
  simp only [receipt, Option.map_eq_some'] at h
  obtain ⟨m, -, rfl⟩ := h
  exact ⟨rfl, rfl⟩

/-- No schedule moves a network's endpoint. -/
theorem run_endpoint {as : List (WorldAction Bytes)} (h : run codec as w = some w') (o : Nat) :
    (w'.nodes o).endpoint = (w.nodes o).endpoint :=
  run_induction codec (fun u => (u.nodes o).endpoint = (w.nodes o).endpoint)
    (fun _ _ _ hu hs => (step_written codec hs o 0).1.trans hu) rfl h

/-- Receipt `r` in network `n`'s log is of a message that a connection to `n`'s endpoint
wrote and `n` has received, under the routing prefix of the connection's process. -/
def Received (w : World Bytes) (n : Nat) (r : Receipt Bytes) : Prop :=
  (w.links r.link).url = (w.nodes n).endpoint ∧ r.index < (w.links r.link).delivered ∧
    ∃ m, (w.links r.link).stream.written[r.index]? = some m ∧
      r.message = { m with sender := (w.nodes (w.links r.link).owner).processIdentity }

/-- What was received stays received. -/
theorem Received.of_step (h : step codec a w = some w') {n : Nat} {r : Receipt Bytes}
    (hr : Received w n r) (hs : (w.links r.link).stage ≠ .absent) : Received w' n r := by
  obtain ⟨hu, hi, m, hm, he⟩ := hr
  obtain ⟨-, ho, hu', -⟩ := (step_linkMove codec h r.link).kept hs
  obtain ⟨hn, ha | ⟨-, hw⟩⟩ := step_written codec h n r.link
  · exact absurd ha hs
  exact ⟨by rw [hu', hn, hu], hi.trans_le ((step_delivered h r.link).resolve_left hs), m,
    getElem?_of_prefix hw hm, by rw [ho, step_processIdentity codec h]; exact he⟩

/-- A receive makes its receipt received. -/
theorem received_receipt {n c : Nat} {r : Receipt Bytes}
    (h : step codec (.receive n c) w = some w') (hr : w.receipt n c = some r) :
    Received w' n r := by
  obtain ⟨m, hru, hu, hm⟩ := step_receive_enabled h
  rw [receipt_eq hm, Option.some_inj] at hr
  subst hr
  have hp := step_processIdentity codec h
  rw [step_receive codec hru hu hm, Option.some_inj] at h
  subst h
  exact ⟨by simp [hu], by simp, m, by simp [hm], by simp [hp]⟩

end World

/-! ## The receive log -/

/-- `World` with the log of what each network's receive loop dispatched, in order. The log
is a ghost: it records what a step does and never changes it. -/
structure Logged (Bytes : Type) where
  world : World Bytes
  receipts : Nat → List (Receipt Bytes)

namespace Logged

variable {codec : Codec Bytes}

/-- Networks at the given endpoints, before any connection, with empty logs. -/
def init (endpoint processIdentity : Nat → String) : Logged Bytes :=
  ⟨World.init endpoint processIdentity, fun _ => []⟩

/-- A step of `World`; a receive appends its receipt to the receiving network's log. -/
def step (codec : Codec Bytes) (a : WorldAction Bytes) (s : Logged Bytes) :
    Option (Logged Bytes) :=
  (World.step codec a s.world).map fun w =>
    ⟨w, match a with
      | .receive n c => Function.update s.receipts n (s.receipts n ++ (s.world.receipt n c).toList)
      | _ => s.receipts⟩

/-- Run a schedule of actions; `none` when one is not enabled. -/
def run (codec : Codec Bytes) : List (WorldAction Bytes) → Logged Bytes → Option (Logged Bytes)
  | [], s => some s
  | a :: as, s => (step codec a s).bind (run codec as)

/-- The log never changes what a schedule does to the world. -/
theorem run_world (codec : Codec Bytes) (as : List (WorldAction Bytes)) (s : Logged Bytes) :
    (run codec as s).map world = World.run codec as s.world := by
  induction as generalizing s with
  | nil => rfl
  | cons a as ih =>
    simp only [run, World.run_cons, step]
    cases World.step codec a s.world with
    | none => rfl
    | some w => exact ih _

/-- Every schedule of `World` is one of `Logged`. -/
theorem exists_run_of_world {as : List (WorldAction Bytes)} {s : Logged Bytes}
    {w : World Bytes} (h : World.run codec as s.world = some w) :
    ∃ s', run codec as s = some s' ∧ s'.world = w := by
  rw [← run_world] at h
  obtain ⟨s', hs', rfl⟩ := Option.map_eq_some'.1 h
  exact ⟨s', hs', rfl⟩

/-- A step of `Logged` is one of `World`; a receive appends its receipt to the receiving
network's log, and every other step keeps the logs. -/
theorem step_cases {a : WorldAction Bytes} {s s' : Logged Bytes} (h : step codec a s = some s') :
    World.step codec a s.world = some s'.world ∧
      ((∃ n c r, a = .receive n c ∧ s.world.receipt n c = some r ∧
          s'.receipts = Function.update s.receipts n (s.receipts n ++ [r])) ∨
        ((∀ n c, a ≠ .receive n c) ∧ s'.receipts = s.receipts)) := by
  obtain ⟨w, hw, rfl⟩ := Option.map_eq_some'.1 h
  refine ⟨hw, ?_⟩
  cases a with
  | receive n c =>
    obtain ⟨m, -, -, hm⟩ := World.step_receive_enabled hw
    exact .inl ⟨n, c, _, rfl, World.receipt_eq hm, by simp only [World.receipt_eq hm]; rfl⟩
  | _ => exact .inr ⟨fun _ _ => nofun, rfl⟩

theorem run_world_eq {as : List (WorldAction Bytes)} {s s' : Logged Bytes}
    (h : run codec as s = some s') : World.run codec as s.world = some s'.world := by
  rw [← run_world, h]; rfl

/-- Carry a property of states along every schedule from one step of it. -/
theorem run_induction (codec : Codec Bytes) (P : Logged Bytes → Prop)
    (hstep : ∀ a s s', P s → step codec a s = some s' → P s')
    {acts : List (WorldAction Bytes)} {s s' : Logged Bytes} (hs : P s)
    (h : run codec acts s = some s') : P s' := by
  induction acts generalizing s with
  | nil => cases h; exact hs
  | cons a acts ih =>
    obtain ⟨s₁, h₁, h₂⟩ := Option.bind_eq_some.1 h
    exact ih (hstep a s s₁ hs h₁) h₂

/-- The indices, in log order, of the receipts of connection `c` in network `n`'s log. -/
def indices (s : Logged Bytes) (n c : Nat) : List Nat :=
  ((s.receipts n).filter (·.link = c)).map (·.index)

/-- What the logs say of a state. -/
structure Inv (codec : Codec Bytes) (s : Logged Bytes) : Prop where
  /-- A network's registry is what the registry calls of its log build, in log order. -/
  table : ∀ n, (s.world.nodes n).server.peeredWithUs =
    runCalls ((s.receipts n).filterMap (Receipt.call codec))
  /-- Every receipt is of a message the network received. -/
  received : ∀ n, ∀ r ∈ s.receipts n, s.world.Received n r
  /-- A connection not built yet has delivered nothing. -/
  absent : ∀ c, (s.world.links c).stage = .absent → (s.world.links c).delivered = 0
  /-- A network logs a connection's messages in the order it wrote them, each at most once. -/
  order : ∀ n c, (s.indices n c).Sublist (List.range (s.world.links c).delivered)
  /-- The only network at an endpoint logs every message of every connection to it. -/
  complete : ∀ n c, (∀ o, (s.world.nodes o).endpoint = (s.world.nodes n).endpoint → o = n) →
    (s.world.links c).url = (s.world.nodes n).endpoint →
      s.indices n c = List.range (s.world.links c).delivered

theorem inv_init (endpoint processIdentity : Nat → String) :
    Inv codec (init endpoint processIdentity : Logged Bytes) :=
  ⟨fun _ => rfl, fun _ _ h => (List.not_mem_nil _ h).elim, fun _ _ => rfl,
    fun _ _ => List.nil_sublist _, fun _ _ _ _ => rfl⟩

/-- The registry a log builds after one more receipt. -/
theorem runCalls_filterMap_append (codec : Codec Bytes) (l : List (Receipt Bytes))
    (r : Receipt Bytes) :
    runCalls ((l ++ [r]).filterMap (Receipt.call codec)) =
      (r.call codec).elim (runCalls (l.filterMap (Receipt.call codec)))
        (·.apply (runCalls (l.filterMap (Receipt.call codec)))) := by
  cases h : r.call codec <;> simp [h]

section Step

variable {a : WorldAction Bytes} {s s' : Logged Bytes}

/-- A step appends to network `n`'s log of connection `c` only when `n` receives from `c`,
and then the index `c` had delivered. -/
theorem indices_step (h : step codec a s = some s') (n c : Nat) :
    (a = .receive n c → s'.indices n c = s.indices n c ++ [(s.world.links c).delivered]) ∧
      (a ≠ .receive n c → s'.indices n c = s.indices n c) := by
  obtain ⟨-, ⟨n', c', r, rfl, hr, he⟩ | ⟨hr, he⟩⟩ := step_cases h
  · obtain ⟨hl, hi⟩ := World.receipt_link hr
    by_cases hn : n = n'
    · subst hn
      by_cases hc : c = c'
      · subst hc
        exact ⟨fun _ => by simp [indices, he, hl, hi], fun h => absurd rfl h⟩
      · refine ⟨fun h => absurd (WorldAction.receive.inj h).2.symm hc, fun _ => ?_⟩
        simp [indices, he, hl, Ne.symm hc]
    · refine ⟨fun h => absurd (WorldAction.receive.inj h).1.symm hn, fun _ => ?_⟩
      simp [indices, he, Function.update_noteq hn]
  · exact ⟨fun ha => absurd ha (hr n c), fun _ => by simp [indices, he]⟩

/-- How a step moves a built connection's delivered count and network `n`'s log of it:
not at all, or a receive at another network, or a receive at `n`. -/
theorem step_built (h : step codec a s = some s') {c : Nat}
    (hc : (s.world.links c).stage ≠ .absent) (n : Nat) :
    (s'.indices n c = s.indices n c ∧
      (s'.world.links c).delivered = (s.world.links c).delivered) ∨
    (s'.indices n c = s.indices n c ∧ ∃ n', n' ≠ n ∧ a = .receive n' c ∧
      (s'.world.links c).delivered = (s.world.links c).delivered + 1) ∨
    (a = .receive n c ∧ s'.indices n c = s.indices n c ++ [(s.world.links c).delivered] ∧
      (s'.world.links c).delivered = (s.world.links c).delivered + 1) := by
  have hd := World.step_delivered_cases (step_cases h).1 c
  have hx := indices_step h n c
  by_cases ha : ∃ n', a = .receive n' c
  · obtain ⟨n', rfl⟩ := ha
    by_cases hn : n' = n
    · subst hn; exact .inr (.inr ⟨rfl, hx.1 rfl, hd.1 _ rfl⟩)
    · exact .inr (.inl ⟨hx.2 fun he => hn (WorldAction.receive.inj he).1, n', hn, rfl,
        hd.1 _ rfl⟩)
  · push_neg at ha
    exact .inl ⟨hx.2 (ha n), (hd.2 ha).resolve_left fun h' => hc h'.1⟩

variable (hi : Inv codec s) (hb : World.BroadcastInv s.world)
include hi

/-- A connection in a log is built. -/
theorem Inv.built_of_mem {n : Nat} {r : Receipt Bytes} (hr : r ∈ s.receipts n) :
    (s.world.links r.link).stage ≠ .absent := fun ha => by
  have hlt := (hi.received n r hr).2.1
  rw [hi.absent _ ha] at hlt
  exact Nat.not_lt_zero _ hlt

/-- A connection not built yet is in no log. -/
theorem Inv.indices_absent {c : Nat} (hc : (s.world.links c).stage = .absent) (n : Nat) :
    s.indices n c = [] :=
  List.eq_nil_iff_forall_not_mem.2 fun i hm => by
    obtain ⟨r, hr, rfl⟩ := List.mem_map.1 hm
    obtain ⟨hr, hl⟩ := List.mem_filter.1 hr
    exact hi.built_of_mem hr (by rw [of_decide_eq_true hl]; exact hc)

include hb

/-- A step finds a connection it does not build in no log and with nothing delivered, and
leaves it so. -/
theorem Inv.step_absent (h : step codec a s = some s') {c : Nat}
    (hc : (s.world.links c).stage = .absent) (n : Nat) :
    s'.indices n c = [] ∧ (s'.world.links c).delivered = 0 := by
  have hw := (step_cases h).1
  have hr : ∀ n', a ≠ .receive n' c := by
    rintro n' rfl
    obtain ⟨m, -, -, hm⟩ := World.step_receive_enabled hw
    exact (hb.written_mem (List.getElem?_mem hm)).1 hc
  refine ⟨by rw [(indices_step h n c).2 (hr n), hi.indices_absent hc], ?_⟩
  rcases (World.step_delivered_cases hw c).2 hr with ⟨-, hd⟩ | hd
  · exact hd
  · rw [hd, hi.absent c hc]

omit hb in
theorem Inv.table_step (hT : World.TableInv s.world) (h : step codec a s = some s') (n : Nat) :
    (s'.world.nodes n).server.peeredWithUs =
      runCalls ((s'.receipts n).filterMap (Receipt.call codec)) := by
  obtain ⟨hw, ⟨n', c, r, rfl, hr, he⟩ | ⟨ha, he⟩⟩ := step_cases h
  · obtain ⟨m, hru, hu, hm⟩ := World.step_receive_enabled hw
    rw [World.step_receive codec hru hu hm, Option.some_inj] at hw
    rw [he, ← hw]
    by_cases hn : n = n'
    · subst hn
      rw [World.receipt_eq hm, Option.some_inj] at hr
      subst hr
      rw [World.setNode_nodes_self, Function.update_same, runCalls_filterMap_append,
        Server.dispatch_peeredWithUs codec _ (hT n).handlers, ← hi.table n]
      by_cases hf : m.correlationId ∈ (s.world.nodes n).server.futures <;> simp [Receipt.call, hf]
    · rw [World.setNode_nodes_of_ne hn, World.setLink_nodes, Function.update_noteq hn,
        hi.table n]
  · rw [he, (World.step_keeps_registry hw ha n 0).1, hi.table n]

omit hb in
theorem Inv.received_step (h : step codec a s = some s') (n : Nat) :
    ∀ r ∈ s'.receipts n, s'.world.Received n r := by
  obtain ⟨hw, hcases⟩ := step_cases h
  have old : ∀ r ∈ s.receipts n, s'.world.Received n r := fun r hr =>
    (hi.received n r hr).of_step hw (hi.built_of_mem hr)
  rcases hcases with ⟨n', c, r, rfl, hr, he⟩ | ⟨-, he⟩
  · rw [he]
    by_cases hn : n = n'
    · subst hn
      simp only [Function.update_same, List.mem_append, List.mem_singleton]
      rintro _ (hr' | rfl)
      exacts [old _ hr', World.received_receipt hw hr]
    · rw [Function.update_noteq hn]; exact old
  · rw [he]; exact old

theorem Inv.order_step (h : step codec a s = some s') (n c : Nat) :
    (s'.indices n c).Sublist (List.range (s'.world.links c).delivered) := by
  by_cases hc : (s.world.links c).stage = .absent
  · rw [(hi.step_absent hb h hc n).1]; exact List.nil_sublist _
  rcases step_built h hc n with ⟨hx, hd⟩ | ⟨hx, -, -, -, hd⟩ | ⟨-, hx, hd⟩ <;> rw [hx, hd]
  · exact hi.order n c
  · exact (hi.order n c).trans (List.range_sublist.2 (Nat.le_succ _))
  · rw [show List.range (_ + 1) = _ from List.range_succ _]
    exact (hi.order n c).append (List.Sublist.refl _)

theorem Inv.complete_step (h : step codec a s = some s') (n c : Nat)
    (hn : ∀ o, (s'.world.nodes o).endpoint = (s'.world.nodes n).endpoint → o = n)
    (hu : (s'.world.links c).url = (s'.world.nodes n).endpoint) :
    s'.indices n c = List.range (s'.world.links c).delivered := by
  have hw := (step_cases h).1
  have he : ∀ o, (s'.world.nodes o).endpoint = (s.world.nodes o).endpoint :=
    fun o => (World.step_written codec hw o 0).1
  by_cases hc : (s.world.links c).stage = .absent
  · obtain ⟨hx, hd⟩ := hi.step_absent hb h hc n
    rw [hx, hd]; rfl
  have hn₀ : ∀ o, (s.world.nodes o).endpoint = (s.world.nodes n).endpoint → o = n :=
    fun o ho => hn o (by simp only [he]; exact ho)
  have hu₀ : (s.world.links c).url = (s.world.nodes n).endpoint := by
    rw [← he, ← hu, ((World.step_written codec hw n c).2.resolve_left hc).1]
  have ih := hi.complete n c hn₀ hu₀
  rcases step_built h hc n with ⟨hx, hd⟩ | ⟨-, n', hn', rfl, -⟩ | ⟨-, hx, hd⟩
  · rw [hx, hd, ih]
  · obtain ⟨m, -, hu', -⟩ := World.step_receive_enabled hw
    exact absurd (hn₀ n' (by rw [hu', hu₀])) hn'
  · rw [hx, hd, ih, show List.range (_ + 1) = _ from List.range_succ _]

theorem Inv.after_step (hT : World.TableInv s.world) (h : step codec a s = some s') :
    Inv codec s' :=
  ⟨hi.table_step hT h, hi.received_step h,
    fun c hc => (hi.step_absent hb h ((World.step_linkMove codec (step_cases h).1 c).absent hc)
      0).2,
    hi.order_step hb h, hi.complete_step hb h⟩

end Step

theorem inv_run (codec : Codec Bytes) (endpoint processIdentity : Nat → String)
    {as : List (WorldAction Bytes)} {s : Logged Bytes}
    (hs : run codec as (init endpoint processIdentity) = some s) : Inv codec s :=
  (run_induction codec (fun u => World.BroadcastInv u.world ∧ World.TableInv u.world ∧ Inv codec u)
    (fun _ _ _ ⟨hb, hT, hi⟩ h =>
      have hw := (step_cases h).1
      ⟨hb.after_step hw, fun o => (hT o).of_move (World.step_serverMove codec hw o),
        hi.after_step hb hT h⟩)
    ⟨World.broadcastInv_init endpoint processIdentity,
      World.tableInv_init endpoint processIdentity, inv_init endpoint processIdentity⟩ hs).2.2

/-- In every run, each network's log lists the messages its receive loop dispatched, in the
order it received them: each one a connection to the network's endpoint wrote, under the
routing prefix of the connection's process; a connection's messages in the order it wrote
them, each at most once; and, when no other network has the endpoint, every message of every
connection to it. The network's registry is what `register_peer` and `unregister_peer` build
from the empty registry, called in log order on the messages of the log that no future
waited for and that carry a registry request whose payload parses. -/
theorem peer_registry_built_from_received_calls (codec : Codec Bytes)
    (endpoint processIdentity : Nat → String) (as : List (WorldAction Bytes)) {s : Logged Bytes}
    (hs : run codec as (init endpoint processIdentity) = some s) (n : Nat) :
    (s.world.nodes n).server.peeredWithUs =
        runCalls ((s.receipts n).filterMap (Receipt.call codec)) ∧
      (∀ r ∈ s.receipts n, s.world.Received n r) ∧
      (∀ c, (s.indices n c).Sublist (List.range (s.world.links c).delivered)) ∧
      ((∀ o, endpoint o = endpoint n → o = n) → ∀ c, (s.world.links c).url = endpoint n →
        s.indices n c = List.range (s.world.links c).delivered) := by
  have hi := inv_run codec endpoint processIdentity hs
  have he := World.run_endpoint (run_world_eq hs)
  refine ⟨hi.table n, hi.received n, hi.order n, fun hn c hu =>
    hi.complete n c (fun o ho => hn o ?_) (by rwa [he])⟩
  rwa [he, he] at ho

/-- A network alone at its endpoint connects to itself, registers its own process, then
receives its own broadcast `gossip/unregister`: its log holds the connection's two messages in
the order written and the register and unregister calls they make, and no entry is left. -/
theorem peer_registry_built_from_received_calls_self_unregister :
    ∃ s : Logged Blob,
      run Blob.codec
          (World.selfGossipSchedule ⟨"gossip/unregister", "u1", .peerUnregister "x", ""⟩)
          (init (fun o => if o = 0 then "tcp://a" else "tcp://b") fun _ => "host-1") = some s ∧
      (s.receipts 0).filterMap (Receipt.call Blob.codec) =
        [.registerPeer "host-1" "", .unregisterPeer "host-1" "x"] ∧
      (s.world.nodes 0).server.peeredWithUs.lookup "host-1" = none ∧
      (s.world.links 0).delivered = 2 ∧ s.indices 0 0 = List.range (s.world.links 0).delivered ∧
      (s.world.nodes 0).server.peeredWithUs =
        runCalls ((s.receipts 0).filterMap (Receipt.call Blob.codec)) ∧
      (∀ r ∈ s.receipts 0, s.world.Received 0 r) ∧
      ∀ c, (s.indices 0 c).Sublist (List.range (s.world.links c).delivered) := by
  refine ⟨_, rfl, rfl, rfl, rfl, ?_⟩
  have h := peer_registry_built_from_received_calls Blob.codec
    (fun o => if o = 0 then "tcp://a" else "tcp://b") (fun _ => "host-1")
    (World.selfGossipSchedule ⟨"gossip/unregister", "u1", .peerUnregister "x", ""⟩) rfl 0
  exact ⟨h.2.2.2 (fun o ho => by by_contra hne; simp [hne] at ho) 0 rfl, h.1, h.2.1, h.2.2.1⟩

end Logged

namespace World

/-- In every run, each key of a network's `_peered_with_us` is the routing prefix of a
process with a connection to the network's endpoint whose `gossip/register` the server there
has received, and its entry is that prefix, at least once and nothing else. -/
theorem registered_peer_sent_register (codec : Codec Bytes)
    (endpoint processIdentity : Nat → String) (as : List (WorldAction Bytes)) {w : World Bytes}
    (hw : run codec as (init endpoint processIdentity) = some w) {n : Nat} {p : String}
    {l : List String} (hp : (w.nodes n).server.peeredWithUs.lookup p = some l) :
    l ≠ [] ∧ l = List.replicate l.length p ∧
      ∃ c i m, (w.links c).url = (w.nodes n).endpoint ∧
        (w.nodes (w.links c).owner).processIdentity = p ∧ i < (w.links c).delivered ∧
        (w.links c).stream.written[i]? = some m ∧ m.messageType = "gossip/register" := by
  obtain ⟨s, hs, rfl⟩ := Logged.exists_run_of_world (s := Logged.init endpoint processIdentity) hw
  have hi := Logged.inv_run codec endpoint processIdentity hs
  rw [hi.table, lookup_runCalls] at hp
  split_ifs at hp with hk
  cases hp
  obtain ⟨i, hc⟩ := exists_registerPeer_of_registrations hk
  obtain ⟨r, hr, hc⟩ := List.mem_filterMap.1 hc
  have hc : Server.registryCall codec r.message = some (.registerPeer p i) := by
    unfold Receipt.call at hc; split_ifs at hc; exact hc
  obtain ⟨hu, hj, m, hm, he⟩ := hi.received n r hr
  obtain ⟨ht, hsnd⟩ := Server.registryCall_eq_registerPeer hc
  rw [he] at ht hsnd
  exact ⟨by simpa using hk, by simp, r.link, r.index, m, hu, hsnd, hj, hm, ht⟩

/-- A network connected to itself receives its own register and a broadcast: its registry
holds its own prefix once. -/
theorem registered_peer_sent_register_self :
    ∃ w : World Blob,
      run Blob.codec (selfGossipSchedule ⟨"gossip/msg", "b1", .gossip .noise "t", ""⟩)
        (init (fun _ => "tcp://a") fun _ => "host-1") = some w ∧
      (w.nodes 0).server.peeredWithUs.lookup "host-1" = some ["host-1"] ∧
      ["host-1"] ≠ [] ∧ ["host-1"] = List.replicate ["host-1"].length "host-1" ∧
      ∃ c i m, (w.links c).url = (w.nodes 0).endpoint ∧
        (w.nodes (w.links c).owner).processIdentity = "host-1" ∧ i < (w.links c).delivered ∧
        (w.links c).stream.written[i]? = some m ∧ m.messageType = "gossip/register" := by
  refine ⟨_, rfl, rfl, ?_⟩
  exact registered_peer_sent_register Blob.codec (fun _ => "tcp://a") (fun _ => "host-1")
    (selfGossipSchedule ⟨"gossip/msg", "b1", .gossip .noise "t", ""⟩) (by rfl) rfl

end World

end ValidatorNetwork
