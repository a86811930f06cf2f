import Mathlib.Data.List.AList

/-!
# The registry of peers that registered with us

`Network._peered_with_us` maps a sender to a list, and the two handlers for
`gossip/register` and `gossip/unregister` are its only writers. `register_peer` appends
the sender itself to its own list, creating the list on first use; `unregister_peer`
deletes the key. The identity argument is only logged.
-/

namespace ValidatorNetwork

/-- `Network._peered_with_us`. -/
abbrev PeerTable := AList fun _ : String => List String

/-- `Network.register_peer`. -/
def registerPeer (sender _identity : String) (peeredWithUs : PeerTable) : PeerTable :=
  let data := sender
  let peeredWithUs :=
    if sender ∈ peeredWithUs then peeredWithUs else peeredWithUs.insert sender []
  peeredWithUs.insert sender ((peeredWithUs.lookup sender).getD [] ++ [data])

/-- `Network.unregister_peer`. -/
def unregisterPeer (sender _identity : String) (peeredWithUs : PeerTable) : PeerTable :=
  if sender ∈ peeredWithUs then peeredWithUs.erase sender else peeredWithUs

section Lemmas

variable {p q i j : String} {t : PeerTable}

@[simp] theorem lookup_registerPeer_self :
    (registerPeer p i t).lookup p = some ((t.lookup p).getD [] ++ [p]) := by
  unfold registerPeer
  split_ifs with h
  · simp
  · simp [AList.lookup_eq_none.2 h]

@[simp] theorem lookup_registerPeer_of_ne (h : q ≠ p) :
    (registerPeer p i t).lookup q = t.lookup q := by
  unfold registerPeer
  split_ifs <;> simp [AList.lookup_insert_ne h]

@[simp] theorem lookup_unregisterPeer_self : (unregisterPeer p i t).lookup p = none := by
  unfold unregisterPeer
  split_ifs with h
  · exact AList.lookup_erase p t
  · exact AList.lookup_eq_none.2 h

@[simp] theorem lookup_unregisterPeer_of_ne (h : q ≠ p) :
    (unregisterPeer p i t).lookup q = t.lookup q := by
  unfold unregisterPeer
  split_ifs <;> simp [AList.lookup_erase_ne h]

theorem erase_insert_self (b : List String) : (t.insert p b).erase p = t.erase p :=
  AList.ext (show List.kerase p (t.insert p b).entries = List.kerase p t.entries by
    rw [AList.insert_entries]; exact List.kerase_cons_eq rfl)

theorem erase_eq_self_iff : t.erase p = t ↔ p ∉ t := by
  constructor
  · intro h hp
    have := AList.lookup_erase p t
    rw [h, AList.lookup_eq_none] at this
    exact this hp
  · intro h
    exact AList.ext (List.kerase_of_not_mem_keys (AList.mem_keys.not.1 h))

end Lemmas

/-- A register/unregister pair on `p` leaves the registry as it was, with `p`'s key
removed: it restores the state before the pair exactly when `p` was not a key. -/
theorem unregisterPeer_registerPeer (t : PeerTable) (p i j : String) :
    unregisterPeer p j (registerPeer p i t) = t.erase p ∧
      (unregisterPeer p j (registerPeer p i t) = t ↔ p ∉ t) := by
  have key : unregisterPeer p j (registerPeer p i t) = t.erase p := by
    have hmem : p ∈ registerPeer p i t := by
      rw [← AList.lookup_isSome, lookup_registerPeer_self]; rfl
    rw [unregisterPeer, if_pos hmem, registerPeer]
    split_ifs
    · exact erase_insert_self _
    · rw [erase_insert_self, erase_insert_self]
  exact ⟨key, key ▸ erase_eq_self_iff⟩

/-! ## Runs of register and unregister calls -/

/-- A call of `register_peer` or `unregister_peer`, as the two handlers make them. -/
inductive RegistryCall
  | registerPeer (sender identity : String)
  | unregisterPeer (sender identity : String)
deriving DecidableEq, Repr

namespace RegistryCall

def sender : RegistryCall → String
  | registerPeer s _ => s
  | unregisterPeer s _ => s

def apply : RegistryCall → PeerTable → PeerTable
  | registerPeer s i => ValidatorNetwork.registerPeer s i
  | unregisterPeer s i => ValidatorNetwork.unregisterPeer s i

def isRegisterOf (p : String) : RegistryCall → Bool
  | registerPeer s _ => s == p
  | unregisterPeer _ _ => false

def isUnregisterOf (p : String) : RegistryCall → Bool
  | registerPeer _ _ => false
  | unregisterPeer s _ => s == p

end RegistryCall

/-- The registry after a run of calls from the empty one. -/
def runCalls (calls : List RegistryCall) : PeerTable :=
  calls.foldl (fun t c => c.apply t) ∅

/-- The number of `register_peer(p, ·)` calls after the last `unregister_peer(p, ·)`, or
in the whole run when there is none. -/
def registrationsSinceUnregister (p : String) (calls : List RegistryCall) : Nat :=
  (calls.reverse.takeWhile fun c => !c.isUnregisterOf p).countP (·.isRegisterOf p)

@[simp] theorem runCalls_nil : runCalls [] = ∅ := rfl

@[simp] theorem runCalls_append_singleton (calls : List RegistryCall) (c : RegistryCall) :
    runCalls (calls ++ [c]) = c.apply (runCalls calls) := by
  simp [runCalls]

theorem registrationsSinceUnregister_append_singleton (p : String)
    (calls : List RegistryCall) (c : RegistryCall) :
    registrationsSinceUnregister p (calls ++ [c]) =
      if c.isUnregisterOf p then 0
      else registrationsSinceUnregister p calls + if c.isRegisterOf p then 1 else 0 := by
  simp only [registrationsSinceUnregister, List.reverse_append, List.reverse_singleton,
    List.singleton_append, List.takeWhile_cons]
  cases c.isUnregisterOf p <;> simp [List.countP_cons]

/-- The registry entry of `p` after any run from the empty registry: present exactly when
some `register_peer(p, ·)` follows the last `unregister_peer(p, ·)`, and then the list of
that many copies of `p`. Identities and calls on other senders do not enter. -/
theorem lookup_runCalls (p : String) (calls : List RegistryCall) :
    (runCalls calls).lookup p =
      if registrationsSinceUnregister p calls = 0 then none
      else some (List.replicate (registrationsSinceUnregister p calls) p) := by
  induction calls using List.reverseRecOn with
  | nil => simp [registrationsSinceUnregister]
  | append_singleton calls c ih =>
    rw [runCalls_append_singleton, registrationsSinceUnregister_append_singleton]
    cases c with
    | registerPeer s i =>
      by_cases hs : s = p
      · subst hs
        simp only [RegistryCall.apply, lookup_registerPeer_self, ih]
        split_ifs <;> simp_all [RegistryCall.isUnregisterOf, RegistryCall.isRegisterOf,
          List.replicate_succ']
      · simp [RegistryCall.apply, RegistryCall.isUnregisterOf, RegistryCall.isRegisterOf,
          lookup_registerPeer_of_ne (Ne.symm hs), ih, hs]
    | unregisterPeer s i =>
      by_cases hs : s = p
      · subst hs
        simp [RegistryCall.apply, RegistryCall.isUnregisterOf]
      · simp [RegistryCall.apply, RegistryCall.isUnregisterOf, RegistryCall.isRegisterOf,
          lookup_unregisterPeer_of_ne (Ne.symm hs), ih, hs]

theorem registrationsSinceUnregister_filter_sender (p : String) (calls : List RegistryCall) :
    registrationsSinceUnregister p (calls.filter fun c => c.sender = p) =
      registrationsSinceUnregister p calls := by
  induction calls using List.reverseRecOn with
  | nil => rfl
  | append_singleton calls c ih =>
    rw [List.filter_append, registrationsSinceUnregister_append_singleton]
    by_cases hc : c.sender = p
    · simp [hc, registrationsSinceUnregister_append_singleton, ih]
    · have hu : c.isUnregisterOf p = false := by
        cases c <;> simp_all [RegistryCall.isUnregisterOf, RegistryCall.sender]
      have hr : c.isRegisterOf p = false := by
        cases c <;> simp_all [RegistryCall.isRegisterOf, RegistryCall.sender]
      simp [hc, hu, hr, ih]

/-- From the empty registry, `p` is a key exactly when some `register_peer(p, ·)` follows
the last `unregister_peer(p, ·)`, and maps to as many copies of `p` as there are such
calls; the calls on other senders can be dropped without changing `p`'s entry. -/
theorem registry_entry_counts_registrations_since_unregister (p : String)
    (calls : List RegistryCall) :
    (runCalls calls).lookup p =
        (if registrationsSinceUnregister p calls = 0 then none
          else some (List.replicate (registrationsSinceUnregister p calls) p)) ∧
      (runCalls calls).lookup p = (runCalls (calls.filter fun c => c.sender = p)).lookup p := by
  refine ⟨lookup_runCalls p calls, ?_⟩
  rw [lookup_runCalls, lookup_runCalls, registrationsSinceUnregister_filter_sender]

/-- A second registration of `p` followed by an unregistration does not bring back the
registry that held the first one: `p`'s key is gone. -/
theorem register_unregister_pair_drops_earlier_registration :
    ¬ ∀ (calls : List RegistryCall) (p i j : String),
      unregisterPeer p j (registerPeer p i (runCalls calls)) = runCalls calls := fun h => by
  have := congrArg (AList.lookup "p") (h [.registerPeer "p" "i"] "p" "i" "j")
  revert this
  decide

end ValidatorNetwork
