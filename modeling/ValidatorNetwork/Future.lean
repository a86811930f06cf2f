import Mathlib.Data.List.AList
import ValidatorNetwork.Basic

/-!
# Futures keyed by correlation id

`sawtooth_validator.server.future` is not among the sources. Its `FutureCollection` is
modelled as `network.py` calls it: a map from correlation id to `Future`,
where `put` stores a future under its id, replacing one already there, and `set_result`
completes the stored future or raises `FutureCollectionKeyError` when the id is absent.
Nothing removes an entry: no caller in `network.py` does.
-/

namespace ValidatorNetwork

variable {Bytes : Type}

/-- As `network.py` uses it: `future.FutureResult`, the `(message_type, content)` a reply
delivers. -/
structure FutureResult (Bytes : Type) where
  messageType : String
  content : Bytes
deriving DecidableEq, Repr

/-- As `network.py` uses it: `future.Future`, a one-shot slot for a reply. -/
structure Future (Bytes : Type) where
  correlationId : String
  result : Option (FutureResult Bytes) := none
deriving DecidableEq, Repr

/-- As `network.py` uses it: `Future.set_result`. -/
def Future.setResult (result : FutureResult Bytes) (f : Future Bytes) : Future Bytes :=
  { f with result := some result }

/-- As `network.py` uses it: `future.FutureCollectionKeyError`. -/
structure FutureCollectionKeyError where
  correlationId : String

/-- As `network.py` uses it: `future.FutureCollection`, a dict from correlation id to
future. -/
abbrev FutureCollection (Bytes : Type) := AList fun _ : String => Future Bytes

namespace FutureCollection

/-- As `network.py` uses it: `FutureCollection.put`. -/
def put (f : Future Bytes) (fs : FutureCollection Bytes) : FutureCollection Bytes :=
  fs.insert f.correlationId f

/-- As `network.py` uses it: `FutureCollection.set_result`. -/
def setResult (correlationId : String) (result : FutureResult Bytes)
    (fs : FutureCollection Bytes) : Except FutureCollectionKeyError (FutureCollection Bytes) :=
  match fs.lookup correlationId with
  | none => .error ⟨correlationId⟩
  | some f => .ok (fs.insert correlationId (f.setResult result))

@[simp] theorem mem_put {fs : FutureCollection Bytes} {f : Future Bytes} {c : String} :
    c ∈ fs.put f ↔ c = f.correlationId ∨ c ∈ fs :=
  AList.mem_insert fs

theorem mem_put_self (fs : FutureCollection Bytes) (f : Future Bytes) :
    f.correlationId ∈ fs.put f :=
  mem_put.2 (.inl rfl)

theorem mem_put_of_mem {fs : FutureCollection Bytes} {c : String} (h : c ∈ fs)
    (f : Future Bytes) : c ∈ fs.put f :=
  mem_put.2 (.inr h)

/-- `put` stores a future with no result under its id and leaves every other entry. -/
theorem lookup_put (fs : FutureCollection Bytes) (f : Future Bytes) (k : String) :
    (fs.put f).lookup k = if k = f.correlationId then some f else fs.lookup k := by
  split_ifs with h
  · subst h; exact AList.lookup_insert fs
  · exact AList.lookup_insert_ne h

theorem setResult_of_not_mem {c : String} (r : FutureResult Bytes)
    {fs : FutureCollection Bytes} (h : c ∉ fs) : fs.setResult c r = .error ⟨c⟩ := by
  rw [← AList.lookup_eq_none] at h
  simp [setResult, h]

/-- On a waiting future, `set_result` stores the result in it and keeps every key. -/
theorem setResult_of_lookup {c : String} (r : FutureResult Bytes)
    {fs : FutureCollection Bytes} {f : Future Bytes} (h : fs.lookup c = some f) :
    fs.setResult c r = .ok (fs.insert c (f.setResult r)) := by
  simp [setResult, h]

theorem setResult_of_mem {c : String} (r : FutureResult Bytes) {fs : FutureCollection Bytes}
    (h : c ∈ fs) : ∃ f, fs.lookup c = some f ∧
      fs.setResult c r = .ok (fs.insert c (f.setResult r)) := by
  obtain ⟨f, hf⟩ := Option.isSome_iff_exists.1 (AList.lookup_isSome.2 h)
  exact ⟨f, hf, setResult_of_lookup r hf⟩

theorem mem_of_setResult {c d : String} {r : FutureResult Bytes}
    {fs fs' : FutureCollection Bytes} (h : fs.setResult c r = .ok fs') : d ∈ fs' ↔ d ∈ fs := by
  unfold setResult at h
  split at h
  · cases h
  · cases h
    rename_i hf
    have hc : c ∈ fs := AList.lookup_isSome.1 (by simp [hf])
    rw [AList.mem_insert]
    constructor
    · rintro (rfl | hd) <;> assumption
    · exact .inr

end FutureCollection

end ValidatorNetwork
