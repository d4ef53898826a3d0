/-
**Forwarding the renaming of an application.**

The broker of an application's files passes requests on to the filesystem.  The new name of a `RENAME`
lies in memory that the application shares with the broker: the broker copies it to a mirror that the
filesystem reads, and checks it.  The check reads the application's memory once more and not the
mirror, and the application can change its memory at any time.

* `Memory` — the shared memory of the application, and the mirrors;
* `rename_ok` — when a request is sent, and what the mirror holds then;
* `renames_to_component_iff` — when the filesystem sees a name that was checked;
* `renames_to_parent` — it can be made to see another one.
-/

import NullStar.Permission

set_option autoImplicit false

namespace Forwarding

open Bytes Rust Machine Permission Option

def maxNameBytes : ℕ := 96

def maxApplicationResourceBufferBytes : ℕ := 4096

/-! ### Requests -/

structure BulkBuffer where
  (bufferId offset length : UInt64)

/-- A request of the filesystem protocol whose operation is `RENAME`. -/
structure Request where
  version : UInt16
  flags : UInt32
  (requestId sessionId generation nodeId secondaryNodeId fileOffset : UInt64)
  bulk : BulkBuffer
  nameLength : UInt16
  reserved : UInt16 × UInt16 × UInt16
  name : Buf 96

/-- The statuses a `RENAME` can be answered with by the broker itself. -/
inductive Status where
  | invalid | notDirectory | permission | range | staleSession | staleNode | staleBuffer | io

/-- A name of one component: `.` is 46 and `/` is 47. -/
def validComponent (name : List UInt8) : Bool :=
  !name.isEmpty && name != [46] && name != [46, 46] && !name.contains 47 && !name.contains 0

/-- The branch of `canonical_request` for `RENAME`. -/
def canonicalRequest (request : Request) : Bool :=
  request.version = 1 && request.requestId ≠ 0 && request.reserved = (0, 0, 0) &&
    request.nameLength.toNat ≤ maxNameBytes && (request.name.1.drop request.nameLength.toNat).all (· = 0) &&
    request.nodeId ≠ 0 && request.secondaryNodeId ≠ 0 && request.fileOffset = 0 &&
    validComponent (request.name.1.take request.nameLength.toNat) &&
    request.bulk.bufferId ≠ 0 && request.bulk.length ≠ 0 &&
    (checkedAddU64 request.bulk.offset request.bulk.length).isSome && request.bulk.length.toNat ≤ maxNameBytes

/-! ### The forwarder -/

/-- `node_kind::DIRECTORY`. -/
def directoryKind : UInt16 := 2

structure NodeBinding where
  (brokerId providerId : UInt64)
  kind : UInt16

/-- A buffer of the application: the memory it shares, and the broker's mirror of it. -/
structure BufferBinding where
  id : UInt64
  (length client provider : ℕ)

structure Forwarder where
  rights : ApplicationGrantRights
  kind : ApplicationResourceKind
  (providerSessionId providerGeneration clientSessionId clientGeneration clientFeatures : UInt64)
  (connected disconnected : Bool)
  nodes : List NodeBinding
  buffers : List BufferBinding

variable (f : Forwarder)

namespace Forwarder

/-- The branch of `authorize_operation` for `RENAME`, with the statuses of its errors.  The rights it
asks for are those to create and to remove. -/
def authorizeOperation (flags : UInt32) : Outcome Status Unit := do
  rejectIf (flags ≠ 0) .invalid
  rejectIf (f.kind ≠ .directory) .notDirectory
  rejectIf (f.rights.contains ⟨12, by decide⟩ = false) .permission

def nodeBinding (brokerId : UInt64) : Option NodeBinding :=
  f.nodes.find? (·.brokerId = brokerId)

/-- The request with the nodes and the session of the provider. -/
def providerRequest (request : Request) : Outcome Status Request := do
  let primary ← okOr (f.nodeBinding request.nodeId) .staleNode
  let secondary ← okOr (f.nodeBinding request.secondaryNodeId) .staleNode
  rejectIf (secondary.kind ≠ directoryKind) .notDirectory
  rejectIf (primary.kind ≠ directoryKind) .notDirectory
  return { request with
    sessionId := f.providerSessionId
    generation := f.providerGeneration
    nodeId := primary.providerId
    secondaryNodeId := secondary.providerId }

/-- Everything that is checked before the memory is looked at: `forward_one`, `dispatch` and
`forward_provider` in this order.  Neither node id of a canonical request is zero. -/
def accept (request : Request) (capability : Bool) : Outcome Status Request := do
  rejectIf (f.connected = false ∨ f.disconnected = true ∨ request.sessionId ≠ f.clientSessionId ∨
    request.generation ≠ f.clientGeneration) .staleSession
  rejectIf (canonicalRequest request = false ∨ capability = true) .invalid
  f.authorizeOperation request.flags
  rejectIf (f.clientFeatures &&& 1 = 0) .permission
  f.providerRequest request

/-- The binding, the offset and the length of a buffer that is named in a request. -/
def bufferRange (bulk : BulkBuffer) : Outcome Status (BufferBinding × ℕ × ℕ) := do
  let binding ← okOr (f.buffers.find? (·.id = bulk.bufferId)) .staleBuffer
  rejectIf (maxApplicationResourceBufferBytes < bulk.length.toNat ∨
    binding.length < bulk.offset.toNat + bulk.length.toNat) .range
  return (binding, bulk.offset.toNat, bulk.length.toNat)

end Forwarder

/-! ### Shared memory -/

structure Memory where
  (client mirror : ℕ → List UInt8)

/-- The accesses of the broker to memory while it handles a `RENAME`. -/
inductive Access where
  | copyRead | copyWrite | checkRead | send

/-- What the application does to its memory before each access. -/
abbrev Application := Access → (ℕ → List UInt8) → ℕ → List UInt8

variable (app : Application)

/-- The application has its turn. -/
def interfere (access : Access) : Op Status Memory Unit :=
  modify fun m => { m with client := app access m.client }

/-- Reading a range of an object, which must lie inside it. -/
def readRange (object : List UInt8) (offset length : ℕ) : Option (List UInt8) :=
  if offset + length ≤ object.length then some (slice object offset length) else none

/-- Writing to a range of an object, which must lie inside it. -/
def writeRange (object : List UInt8) (offset : ℕ) (bytes : List UInt8) : Option (List UInt8) :=
  if offset + bytes.length ≤ object.length then
    some (object.take offset ++ bytes ++ object.drop (offset + bytes.length))
  else none

namespace Forwarder

def copyClientToProvider (bulk : BulkBuffer) : Op Status Memory Unit := do
  let (binding, offset, length) ← check (f.bufferRange bulk)
  interfere app .copyRead
  let bytes ← read fun m => okOr (readRange (m.client binding.client) offset length) .io
  interfere app .copyWrite
  let written ← read fun m => okOr (writeRange (m.mirror binding.provider) offset bytes) .io
  modify fun m => { m with mirror := Function.update m.mirror binding.provider written }

def validateBufferName (bulk : BulkBuffer) : Op Status Memory Unit := do
  let (binding, offset, length) ← check (f.bufferRange bulk)
  -- the name is read into an array of `MAX_NAME_BYTES`
  check (if length ≤ maxNameBytes then .ok () else trapped)
  interfere app .checkRead
  let name ← read fun m => okOr (readRange (m.client binding.client) offset length) .invalid
  check (rejectIf (validComponent name = false) .invalid)

/-- The handling of a `RENAME`.  It ends with the request that is sent to the provider. -/
def rename (request : Request) (capability : Bool) : Op Status Memory Request := do
  let sent ← check (f.accept request capability)
  f.copyClientToProvider app request.bulk
  f.validateBufferName app request.bulk
  interfere app .send
  return sent

end Forwarder

/-! ### What the filesystem sees -/

section

variable {f} {app} {request sent : Request} {capability : Bool} {m m' : Memory}

/-- What is written to a range is read from it again. -/
theorem readRange_written {source object written bytes : List UInt8} {offset length : ℕ}
    (hbytes : readRange source offset length = some bytes)
    (hwritten : writeRange object offset bytes = some written) :
    readRange written offset length = some bytes := by
  unfold readRange at hbytes
  unfold writeRange at hwritten
  split at hbytes
  · next hsource =>
      split at hwritten
      · next hobject =>
          have hlength : bytes.length = length := by
            rw [← some.inj hbytes, length_slice_of_le hsource]
          have hoffset : (object.take offset).length = offset := by
            rw [List.length_take]
            omega
          rw [← some.inj hwritten, readRange, if_pos (by simp; omega), slice,
            List.append_assoc, List.drop_left' hoffset, List.take_left' hlength]
      · cases hwritten
  · cases hbytes

/-- The application's memory when the broker copies from it. -/
def copied (app : Application) (m : Memory) : ℕ → List UInt8 := app .copyRead m.client

/-- The application's memory when the broker checks the name. -/
def checked (app : Application) (m : Memory) : ℕ → List UInt8 :=
  app .checkRead (app .copyWrite (copied app m))

/-- A request is sent when the name can be copied and what is read for the check is a component.  The
mirror then holds what was copied. -/
theorem rename_ok : f.rename app request capability m = .ok sent m' ↔
    ∃ binding offset length bytes name written, f.accept request capability = .ok sent ∧
      f.bufferRange request.bulk = .ok (binding, offset, length) ∧ length ≤ maxNameBytes ∧
      readRange (copied app m binding.client) offset length = some bytes ∧
      writeRange (m.mirror binding.provider) offset bytes = some written ∧
      readRange (checked app m binding.client) offset length = some name ∧ validComponent name = true ∧
      m' = ⟨app .send (checked app m), Function.update m.mirror binding.provider written⟩ := by
  have hlimit : ∀ length : ℕ, (if length ≤ maxNameBytes then .ok () else trapped) =
      (.ok () : Outcome Status Unit) ↔ length ≤ maxNameBytes := by
    intro length
    split <;> simp_all
  simp only [Forwarder.rename, Forwarder.copyClientToProvider, Forwarder.validateBufferName,
    interfere, op_ok, okOr_eq_ok, rejectIf_eq_ok, hlimit, Bool.not_eq_false]
  constructor
  · rintro ⟨_, _, ⟨haccept, rfl⟩, _, _, ⟨⟨binding, offset, length⟩, _, ⟨hrange, rfl⟩, _, _, rfl, bytes, _,
      ⟨hbytes, rfl⟩, _, _, rfl, written, _, ⟨hwritten, rfl⟩, rfl⟩, _, _, ⟨⟨binding', offset', length'⟩,
      _, ⟨hrange', rfl⟩, _, _, ⟨hlength, rfl⟩, _, _, rfl, name, _, ⟨hname, rfl⟩, hvalid, rfl⟩, _, _, rfl,
      rfl, rfl⟩
    rw [hrange] at hrange'
    cases hrange'
    exact ⟨binding, offset, length, bytes, name, written, haccept, hrange, hlength, hbytes, hwritten,
      hname, hvalid, rfl⟩
  · rintro ⟨binding, offset, length, bytes, name, written, haccept, hrange, hlength, hbytes, hwritten,
      hname, hvalid, rfl⟩
    exact ⟨_, _, ⟨haccept, rfl⟩, (), _, ⟨_, _, ⟨hrange, rfl⟩, (), _, rfl, bytes, _, ⟨hbytes, rfl⟩, (), _,
      rfl, written, _, ⟨hwritten, rfl⟩, rfl⟩, (), _, ⟨_, _, ⟨hrange, rfl⟩, (), _, ⟨hlength, rfl⟩, (), _,
      rfl, name, _, ⟨hname, rfl⟩, hvalid, rfl⟩, (), _, rfl, rfl, rfl⟩

/-- The name that the mirror holds for the request is a component. -/
def MirrorHoldsComponent (f : Forwarder) (request : Request) (m : Memory) : Prop :=
  ∀ binding offset length, f.bufferRange request.bulk = .ok (binding, offset, length) →
    ∃ name, readRange (m.mirror binding.provider) offset length = some name ∧ validComponent name = true

/-- The application has not put a component in the place of a name that is none, between the broker's
copy and its check. -/
def NotReplaced (f : Forwarder) (app : Application) (request : Request) (m : Memory) : Prop :=
  ∀ binding offset length bytes name written,
    f.bufferRange request.bulk = .ok (binding, offset, length) → length ≤ maxNameBytes →
    readRange (copied app m binding.client) offset length = some bytes →
    writeRange (m.mirror binding.provider) offset bytes = some written →
    readRange (checked app m binding.client) offset length = some name →
      validComponent name = true → validComponent bytes = true

/-- **The filesystem sees a component, whenever a request is sent, exactly when the application has not
replaced the name in between.** -/
theorem renames_to_component_iff (f : Forwarder) (app : Application) (request : Request)
    (capability : Bool) (m : Memory) :
    (∀ sent m', f.rename app request capability m = .ok sent m' → MirrorHoldsComponent f request m') ↔
      ((∃ sent, f.accept request capability = .ok sent) → NotReplaced f app request m) := by
  constructor
  · rintro hmirror ⟨sent, haccept⟩ binding offset length bytes name written hrange hlength hbytes hwritten
      hname hvalid
    have hsent := rename_ok.2 ⟨binding, offset, length, bytes, name, written, haccept, hrange, hlength,
      hbytes, hwritten, hname, hvalid, rfl⟩
    obtain ⟨name', hname', hvalid'⟩ := hmirror _ _ hsent binding offset length hrange
    dsimp only at hname'
    rw [Function.update_self, readRange_written hbytes hwritten] at hname'
    rwa [some.inj hname']
  · intro hcondition sent m' hsent binding' offset' length' hrange'
    obtain ⟨binding, offset, length, bytes, name, written, haccept, hrange, hlength, hbytes, hwritten,
      hname, hvalid, rfl⟩ := rename_ok.1 hsent
    rw [hrange'] at hrange
    cases hrange
    have hbytes' := hcondition ⟨sent, haccept⟩ binding' offset' length' bytes name written hrange' hlength
      hbytes hwritten hname hvalid
    refine ⟨bytes, ?_, hbytes'⟩
    dsimp only
    rw [Function.update_self, readRange_written hbytes hwritten]

end

/-! ### A name that is not checked -/

/-- The forwarder of a directory with one buffer, which the application opened for writing. -/
def sampleForwarder : Forwarder :=
  ⟨⟨15, by decide⟩, .directory, 70, 71, 5, 6, 1, true, false, [⟨1, 100, directoryKind⟩], [⟨9, 2, 0, 0⟩]⟩

/-- The file `a` of the directory gets the name that is in the buffer. -/
def sampleRequest : Request :=
  ⟨1, 0, 1, 5, 6, 1, 1, 0, ⟨9, 0, 2⟩, 1, (0, 0, 0), ⟨97 :: List.replicate 95 0, rfl⟩⟩

/-- The application puts `..` in the buffer, and `ok` before the broker checks the name. -/
def sampleApplication : Application
  | .checkRead, _, _ => [111, 107]
  | _, client, object => client object

def sampleMemory : Memory := ⟨fun _ => [46, 46], fun _ => [0, 0]⟩

/-- **The filesystem is asked to rename a file to the parent directory.** -/
theorem renames_to_parent : ∃ sent m',
    sampleForwarder.rename sampleApplication sampleRequest false sampleMemory = .ok sent m' ∧
      readRange (m'.mirror 0) 0 2 = some [46, 46] ∧
      ¬ MirrorHoldsComponent sampleForwarder sampleRequest m' := by
  have hrange : sampleForwarder.bufferRange sampleRequest.bulk = .ok (⟨9, 2, 0, 0⟩, 0, 2) := rfl
  obtain ⟨sent, haccept⟩ : ∃ sent, sampleForwarder.accept sampleRequest false = .ok sent := ⟨_, rfl⟩
  have hmirror : readRange (Function.update sampleMemory.mirror 0 [46, 46] 0) 0 2 = some [46, 46] := rfl
  refine ⟨sent, _, rename_ok.2 ⟨⟨9, 2, 0, 0⟩, 0, 2, [46, 46], [111, 107], [46, 46], haccept, hrange,
    by decide, rfl, rfl, rfl, by decide, rfl⟩, hmirror, fun hcomponent => ?_⟩
  obtain ⟨name, hname, hvalid⟩ := hcomponent _ _ _ hrange
  cases hmirror.symm.trans hname
  cases hvalid

end Forwarding
