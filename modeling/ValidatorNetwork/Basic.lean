import Mathlib.Data.List.Basic

/-!
# Wire data and Python control flow

`validator_pb2.Message` is the envelope every link carries: a client writes the bare
`Message`, a server writes a `MessageList` around each reply. The `network_pb2` payloads
travel in its `content`. Byte strings are left abstract. The protobuf runtime and the
text codec that a string field applies are a `Codec` over them, which carries the round
trips the runtime guarantees. `Blob` is one such codec whose byte strings are the encoded
terms themselves, so that the model runs on concrete frames.

A receive coroutine is a `while True` loop whose body may raise. `loopUntilRaise` runs
such a body over the finite list of inputs it awaits: mutations made before an exception
stay, and the first exception ends the coroutine.
-/

namespace ValidatorNetwork

/-- `validator_pb2.Message`. -/
structure Message (Bytes : Type) where
  messageType : String
  correlationId : String
  content : Bytes
  sender : String := ""
deriving DecidableEq, Repr

structure PeerRegisterRequest where
  identity : String := ""
deriving DecidableEq, Repr

structure PeerUnregisterRequest where
  identity : String := ""
deriving DecidableEq, Repr

structure GossipMessage (Bytes : Type) where
  content : Bytes
  contentType : String := ""
deriving DecidableEq, Repr

structure PingRequest where
deriving DecidableEq, Repr

inductive AckStatus
  | ok
  | error
deriving DecidableEq, Repr

structure NetworkAcknowledgement where
  status : AckStatus
deriving DecidableEq, Repr

/-- What the code reaches through `ParseFromString`, `SerializeToString`, and the UTF-8
decoding and encoding of the `sender` string field. Parsing is partial: `none` is a
`DecodeError`, or a `ValueError` for a routing prefix that is not text. -/
structure Codec (Bytes : Type) where
  parseMessage : Bytes → Option (Message Bytes)
  serializeMessage : Message Bytes → Bytes
  parseMessageList : Bytes → Option (List (Message Bytes))
  serializeMessageList : List (Message Bytes) → Bytes
  parsePeerRegisterRequest : Bytes → Option PeerRegisterRequest
  serializePeerRegisterRequest : PeerRegisterRequest → Bytes
  parsePeerUnregisterRequest : Bytes → Option PeerUnregisterRequest
  parseGossipMessage : Bytes → Option (GossipMessage Bytes)
  parsePingRequest : Bytes → Option PingRequest
  serializeNetworkAcknowledgement : NetworkAcknowledgement → Bytes
  decodeText : Bytes → Option String
  encodeText : String → Bytes
  parseMessage_serializeMessage : ∀ m, parseMessage (serializeMessage m) = some m
  decodeText_encodeText : ∀ s, decodeText (encodeText s) = some s
  encodeText_of_decodeText : ∀ {b s}, decodeText b = some s → encodeText s = b

/-! ## A concrete codec -/

/-- Byte strings of the free codec: each is the term it encodes, a `MessageList` is a
chain of `cons` cells, and `noise` parses as nothing and is not text. -/
inductive Blob
  | text (s : String)
  | noise
  | message (messageType correlationId : String) (content : Blob) (sender : String)
  | nil
  | cons (head tail : Blob)
  | peerRegister (identity : String)
  | peerUnregister (identity : String)
  | gossip (content : Blob) (contentType : String)
  | ping
  | ack (status : AckStatus)
deriving DecidableEq, Repr

namespace Blob

def parseMessage : Blob → Option (Message Blob)
  | message t c b s => some ⟨t, c, b, s⟩
  | _ => none

def serializeMessage (m : Message Blob) : Blob :=
  message m.messageType m.correlationId m.content m.sender

def parseMessageList : Blob → Option (List (Message Blob))
  | nil => some []
  | cons h t => do
    let m ← parseMessage h
    let ms ← parseMessageList t
    pure (m :: ms)
  | _ => none

def serializeMessageList : List (Message Blob) → Blob
  | [] => nil
  | m :: ms => cons (serializeMessage m) (serializeMessageList ms)

def decodeText : Blob → Option String
  | text s => some s
  | _ => none

/-- The free codec. -/
def codec : Codec Blob where
  parseMessage := parseMessage
  serializeMessage := serializeMessage
  parseMessageList := parseMessageList
  serializeMessageList := serializeMessageList
  parsePeerRegisterRequest
    | peerRegister i => some ⟨i⟩
    | _ => none
  serializePeerRegisterRequest r := peerRegister r.identity
  parsePeerUnregisterRequest
    | peerUnregister i => some ⟨i⟩
    | _ => none
  parseGossipMessage
    | gossip b t => some ⟨b, t⟩
    | _ => none
  parsePingRequest
    | ping => some {}
    | _ => none
  serializeNetworkAcknowledgement a := ack a.status
  decodeText := decodeText
  encodeText := text
  parseMessage_serializeMessage _ := rfl
  decodeText_encodeText _ := rfl
  encodeText_of_decodeText {b _} h := by cases b <;> cases h; rfl

end Blob

/-! ## Python control flow -/

/-- An exception that escapes a receive coroutine. `FutureCollectionKeyError` is not one:
both receive loops catch it. -/
inductive PyError
  | valueError
  | decodeError
  | attributeError
  | keyError
deriving DecidableEq, Repr

variable {α σ : Type}

/-- A coroutine body run over the inputs it awaits, until the first exception. -/
def loopUntilRaise (body : α → σ → σ × Option PyError) : List α → σ → σ × Option PyError
  | [], s => (s, none)
  | a :: as, s =>
    match body a s with
    | (s', none) => loopUntilRaise body as s'
    | (s', some e) => (s', some e)

@[simp] theorem loopUntilRaise_nil (body : α → σ → σ × Option PyError) (s : σ) :
    loopUntilRaise body [] s = (s, none) := rfl

theorem loopUntilRaise_cons_of_ok {body : α → σ → σ × Option PyError} {a : α} {s s' : σ}
    (h : body a s = (s', none)) (as : List α) :
    loopUntilRaise body (a :: as) s = loopUntilRaise body as s' := by
  simp [loopUntilRaise, h]

theorem loopUntilRaise_cons_of_raise {body : α → σ → σ × Option PyError} {a : α} {s s' : σ}
    {e : PyError} (h : body a s = (s', some e)) (as : List α) :
    loopUntilRaise body (a :: as) s = (s', some e) := by
  simp [loopUntilRaise, h]

/-- Once a prefix raised, nothing after it is looked at. -/
theorem loopUntilRaise_append_of_raise {body : α → σ → σ × Option PyError} {pre : List α}
    {s t : σ} {e : PyError} (h : loopUntilRaise body pre s = (t, some e)) (post : List α) :
    loopUntilRaise body (pre ++ post) s = (t, some e) := by
  induction pre generalizing s with
  | nil => cases h
  | cons a pre ih =>
    rcases hb : body a s with ⟨s', _ | e'⟩
    · rw [loopUntilRaise_cons_of_ok hb] at h
      rw [List.cons_append, loopUntilRaise_cons_of_ok hb, ih h]
    · rw [loopUntilRaise_cons_of_raise hb] at h
      rw [List.cons_append, loopUntilRaise_cons_of_raise hb, h]

end ValidatorNetwork
