import ValidatorNetwork.Client

/-!
# A stream under concurrent senders

The threads that call `Stream.send` or `Stream.send_message` (the thread that built a
`Connection`, the server's broadcast drainer) run beside the client event loop, which
moves scheduled messages to the send queue, writes them, and receives frames. A peer may
answer in any order and coalesce answers in one `MessageList`.

`StreamRun` is one stream with those threads: each sender has put its future or not yet,
and the receive coroutine holds the rest of the list it is dispatching. `step` takes one
atomic action of one of them; every choice the scheduler or the peer makes is an argument
of the action. `sent` records, in order, the messages handed to the client thread
through `send` or `send_message`.

Every reply whose correlation id is that of a sent message completes that message's
future and reaches no handler (`dispatch_sent_reply`). The reason is the order inside
`send`: the future is put before the hand-off, and nothing removes a future.
-/

namespace ValidatorNetwork

variable {Bytes : Type}

/-- A thread inside `Stream.send` or `Stream.send_message`. -/
structure Sender (Bytes : Type) where
  message : Message Bytes
  futurePut : Bool

structure StreamRun (Bytes : Type) where
  stream : Stream Bytes
  senders : Nat → Option (Sender Bytes)
  pending : List (Message Bytes)
  receiving : Bool
  sent : List (Message Bytes)

/-- One atomic action of a sending thread, of the client loop, or of the peer. -/
inductive StreamAction (Bytes : Type)
  | beginSend (thread : Nat) (message : Message Bytes)
  | putFuture (thread : Nat)
  | handOff (thread : Nat)
  | putMessage
  | sendNext
  | receive (frame : Bytes)
  | dispatch

namespace StreamRun

/-- A stream just built: its loop is waiting for frames and no thread is sending. -/
def init : StreamRun Bytes where
  stream := {}
  senders _ := none
  pending := []
  receiving := true
  sent := []

/-- The step function; `none` when the action is not enabled. -/
def step (codec : Codec Bytes) : StreamAction Bytes → StreamRun Bytes → Option (StreamRun Bytes)
  | .beginSend t m, r =>
    match r.senders t with
    | none => some { r with senders := Function.update r.senders t (some ⟨m, false⟩) }
    | some _ => none
  | .putFuture t, r =>
    match r.senders t with
    | some ⟨m, false⟩ =>
      some { r with stream := r.stream.putFuture m.correlationId,
                    senders := Function.update r.senders t (some ⟨m, true⟩) }
    | _ => none
  | .handOff t, r =>
    match r.senders t with
    | some ⟨m, true⟩ =>
      some { r with stream := r.stream.handOff m, senders := Function.update r.senders t none,
                    sent := r.sent ++ [m] }
    | _ => none
  | .putMessage, r => r.stream.putMessage.map fun s => { r with stream := s }
  | .sendNext, r => r.stream.sendNext.map fun s => { r with stream := s }
  | .receive frame, r =>
    if r.receiving && r.pending.isEmpty then
      match codec.parseMessageList frame with
      | none => some { r with receiving := false }
      | some messages => some { r with pending := messages }
    else none
  | .dispatch, r =>
    if r.receiving then
      match r.pending with
      | [] => none
      | m :: rest =>
        match r.stream.dispatch codec m with
        | (s, none) => some { r with stream := s, pending := rest }
        | (s, some _) => some { r with stream := s, pending := [], receiving := false }
    else none

/-- Run a schedule of actions; `none` when one is not enabled. -/
def run (codec : Codec Bytes) : List (StreamAction Bytes) → StreamRun Bytes →
    Option (StreamRun Bytes)
  | [], r => some r
  | a :: as, r => (step codec a r).bind (run codec as)

/-- Every message handed off, and every message whose sender has put its future, has a
future waiting under its correlation id. -/
structure Inv (r : StreamRun Bytes) : Prop where
  sent_waiting : ∀ m ∈ r.sent, m.correlationId ∈ r.stream.futures
  put_waiting : ∀ t m, r.senders t = some ⟨m, true⟩ → m.correlationId ∈ r.stream.futures

theorem init_inv : Inv (init : StreamRun Bytes) where
  sent_waiting := by simp [init]
  put_waiting := by simp [init]

/-- An invariant carried over a change of the stream that keeps every key. -/
theorem Inv.of_keys {r r' : StreamRun Bytes} (hi : Inv r) (hs : r'.sent = r.sent)
    (ht : r'.senders = r.senders) (hk : ∀ c ∈ r.stream.futures, c ∈ r'.stream.futures) :
    Inv r' where
  sent_waiting m hm := hk _ (hi.sent_waiting m (hs ▸ hm))
  put_waiting t m h := hk _ (hi.put_waiting t m (ht ▸ h))

/-- Setting one sender keeps every put future waiting if the new sender's is. -/
theorem put_waiting_update {senders : Nat → Option (Sender Bytes)} {fs : FutureCollection Bytes}
    (h : ∀ t m, senders t = some ⟨m, true⟩ → m.correlationId ∈ fs) {t : Nat}
    {v : Option (Sender Bytes)} (hv : ∀ m, v = some ⟨m, true⟩ → m.correlationId ∈ fs) :
    ∀ t' m, Function.update senders t v t' = some ⟨m, true⟩ → m.correlationId ∈ fs := by
  intro t' m h'
  rw [Function.update_apply] at h'
  split_ifs at h'
  exacts [hv m h', h t' m h']

theorem Inv.after_step {codec : Codec Bytes} {a : StreamAction Bytes} {r r' : StreamRun Bytes}
    (hi : Inv r) (h : step codec a r = some r') : Inv r' := by
  cases a with
  | beginSend t m =>
    simp only [step] at h
    split at h
    · cases h
      exact ⟨hi.sent_waiting, put_waiting_update hi.put_waiting (by simp)⟩
    · cases h
  | putFuture t =>
    simp only [step] at h
    split at h
    · cases h
      refine ⟨fun m' hm => FutureCollection.mem_put_of_mem (hi.sent_waiting m' hm) _,
        put_waiting_update (fun t' m' h' => FutureCollection.mem_put_of_mem
          (hi.put_waiting t' m' h') _) fun _ h' => ?_⟩
      cases h'
      exact FutureCollection.mem_put_self _ _
    · cases h
  | handOff t =>
    simp only [step] at h
    split at h
    · cases h
      rename_i m hm
      refine ⟨fun m' hm' => ?_, put_waiting_update hi.put_waiting (by simp)⟩
      rcases List.mem_append.1 hm' with hm' | hm'
      · exact hi.sent_waiting m' hm'
      · rw [List.mem_singleton.1 hm']; exact hi.put_waiting t m hm
    · cases h
  | putMessage =>
    obtain ⟨s, hs, rfl⟩ := Option.map_eq_some'.1 h
    exact hi.of_keys rfl rfl fun c hc => (Stream.putMessage_spec hs).2.1 ▸ hc
  | sendNext =>
    obtain ⟨s, hs, rfl⟩ := Option.map_eq_some'.1 h
    exact hi.of_keys rfl rfl fun c hc => (Stream.sendNext_spec hs).2.1 ▸ hc
  | receive frame =>
    simp only [step] at h
    split_ifs at h
    split at h <;> cases h <;> exact hi.of_keys rfl rfl fun _ hc => hc
  | dispatch =>
    simp only [step] at h
    split_ifs at h
    split at h
    · cases h
    · rename_i m rest _
      have keys := (Stream.dispatch_keeps codec m r.stream).1
      split at h <;> rename_i hd <;> cases h <;> rw [hd] at keys <;>
        exact hi.of_keys rfl rfl fun c hc => (keys c).2 hc

/-- The invariant holds after every schedule. -/
theorem Inv.after_run {codec : Codec Bytes} {acts : List (StreamAction Bytes)}
    {r r' : StreamRun Bytes} (hi : Inv r) (h : run codec acts r = some r') : Inv r' := by
  induction acts generalizing r with
  | nil => cases h; exact hi
  | cons a acts ih =>
    obtain ⟨r₁, h₁, h₂⟩ := Option.bind_eq_some.1 h
    exact ih (hi.after_step h₁) h₂

/-- Take any schedule of the sending threads, the client loop and the peer. When the
receive loop dispatches a message whose correlation id is that of a message sent
through the stream, it completes the future stored under that id with the message's
type and content, and does nothing else: no handler runs, nothing is scheduled, and
the receive queue is untouched. -/
theorem dispatch_sent_reply (codec : Codec Bytes) (acts : List (StreamAction Bytes))
    {r : StreamRun Bytes} (hr : run codec acts init = some r) (m : Message Bytes)
    (hm : m ∈ r.sent) {e : Message Bytes} {rest : List (Message Bytes)}
    (hp : r.pending = e :: rest) (hrec : r.receiving = true)
    (he : e.correlationId = m.correlationId) :
    ∃ f, r.stream.futures.lookup e.correlationId = some f ∧
      step codec .dispatch r =
        some { r with
          stream := { r.stream with
            futures := r.stream.futures.insert e.correlationId
              (f.setResult ⟨e.messageType, e.content⟩) }
          pending := rest } := by
  have hw := (init_inv.after_run hr).sent_waiting m hm
  rw [← he] at hw
  obtain ⟨f, hf⟩ := Option.isSome_iff_exists.1 (AList.lookup_isSome.2 hw)
  refine ⟨f, hf, ?_⟩
  simp [step, hrec, hp, Stream.dispatch_of_lookup codec hf]

/-- A registration sent through a new stream, then its ack arriving in a list of one. -/
theorem dispatch_sent_reply_register_ack :
    ∃ r : StreamRun Blob,
      run Blob.codec [.beginSend 0 ⟨"gossip/register", "c1", .peerRegister "", ""⟩,
        .putFuture 0, .handOff 0,
        .receive (.cons (.message "gossip/ack" "c1" (.ack .ok) "") .nil)] init = some r ∧
      (⟨"gossip/register", "c1", .peerRegister "", ""⟩ : Message Blob) ∈ r.sent ∧
      r.pending = [⟨"gossip/ack", "c1", .ack .ok, ""⟩] ∧ r.receiving = true ∧
      ∃ f, r.stream.futures.lookup "c1" = some f ∧
        step Blob.codec .dispatch r =
          some { r with
            stream := { r.stream with
              futures := r.stream.futures.insert "c1" (f.setResult ⟨"gossip/ack", .ack .ok⟩) }
            pending := [] } :=
  ⟨_, rfl, by decide, rfl, rfl, dispatch_sent_reply Blob.codec [.beginSend 0
    ⟨"gossip/register", "c1", .peerRegister "", ""⟩, .putFuture 0, .handOff 0,
    .receive (.cons (.message "gossip/ack" "c1" (.ack .ok) "") .nil)] rfl
    ⟨"gossip/register", "c1", .peerRegister "", ""⟩ (by decide) rfl rfl rfl⟩

end StreamRun

end ValidatorNetwork
