/-
**The stored form of the permission store.**

A grant is stored in 128 bytes and a checkpoint of the store in a header followed by its grants; a
selector says which checkpoint is in force.  Records, headers and selectors are sealed: the CRC of
their bytes follows them.

The selector also stores a CRC of the whole checkpoint.  The register of the CRC is linear, and sealed
strings of one length take it to the same value, so two checkpoints may have the same CRC.

* `ApplicationGrantRecord.encode`, `ApplicationGrantRecord.decode`;
* `encodeApplicationPermissionCheckpoint`,
  `decodeApplicationPermissionCheckpoint`;
* `Selector`, `encodeSelector`, `decodeSelector`;
* `ApplicationGrantRecord.decode_eq_ok`, `decodeCheckpoint_eq_ok` — exactly what
  is encoded from canonical values is accepted, and decoded to them;
* `decode_encodeSelector` — decoding inverts encoding.
-/

import NullStar.Format
import NullStar.Permission

set_option autoImplicit false

namespace Bytes

/-! ### The front and the back of a string of bytes -/

variable {a b : List UInt8} {o w : ℕ}

theorem slice_append_left (h : o + w ≤ a.length) : slice (a ++ b) o w = slice a o w := by
  rw [slice, slice, List.drop_append_of_le_length (by omega), List.take_append_of_le_length]
  rw [List.length_drop]
  omega

theorem slice_append_right (h : a.length ≤ o) : slice (a ++ b) o w = slice b (o - a.length) w := by
  rw [slice, slice, List.drop_append, List.drop_eq_nil_of_le h, List.nil_append]

theorem slice_add (a : List UInt8) (o v w : ℕ) : slice a o (v + w) = slice a o v ++ slice a (o + v) w := by
  rw [slice, slice, slice, List.take_add, List.drop_drop]

theorem slice_take {n : ℕ} (h : o + w ≤ n) : slice (a.take n) o w = slice a o w := by
  rw [slice, slice, List.drop_take, List.take_take, min_eq_left (by omega)]

theorem slice_all (h : w = a.length) : slice a 0 w = a := by
  rw [slice, List.drop_zero, List.take_of_length_le h.ge]

end Bytes

namespace NullFS

open Bytes Rust List

/-! ### Sealed strings -/

/-- A string of bytes followed by its CRC. -/
def sealed (bytes : List UInt8) : List UInt8 := bytes ++ toLe 4 (crc32c bytes).toNat

/-- The CRC of a sealed string stands behind it. -/
theorem u32At_sealed (bs : List UInt8) {o : ℕ} (h : o = bs.length) : u32At (sealed bs) o = crc32c bs := by
  refine u32At_of_slice ?_
  rw [sealed, slice_append_right h.ge, h, Nat.sub_self, slice_all (by simp)]

@[simp] theorem length_sealed (bs : List UInt8) : (sealed bs).length = bs.length + 4 := by
  simp [sealed]

/-- Which strings are the sealed rendering of given fields. -/
theorem eq_sealed_iff {n : ℕ} {ts : List Tile} {fs : List Field} {b : Buf (n + 4)}
    (ht : Tiled n 0 ts) (h : Follows ts fs) : b.1 = sealed (render n fs).1 ↔ (∀ f ∈ fs, Holds b f) ∧
      (∀ t ∈ ts, t.reserved = true → allZero (slice b.1 t.offset t.length) = true) ∧
      crc32c (b.1.take n) = u32At b.1 n := by
  have hfront : (b.1.take n).length = n := by
    rw [length_take]
    omega
  set a : Buf n := ⟨b.1.take n, hfront⟩ with ha
  have hb : b.1 = a.1 ++ slice b.1 n 4 := by
    rw [slice, take_of_length_le (by rw [length_drop]; omega), take_append_drop]
  have hslice : ∀ o w, o + w ≤ n → slice b.1 o w = slice a.1 o w := by
    intro o w hle
    rw [hb, slice_append_left (by rw [a.2]; exact hle)]
  have hsum : toLe 4 (u32At b.1 n).toNat = slice b.1 n 4 := toLe_u32At (by rw [b.2])
  have hrender : a = render n fs ↔ (∀ f ∈ fs, Holds b f) ∧
      ∀ t ∈ ts, t.reserved = true → allZero (slice b.1 t.offset t.length) = true := by
    rw [eq_render_iff ht h]
    refine and_congr (forall₂_congr fun f hf => ?_) (forall₂_congr fun t hmem => ?_)
    · rw [Holds, Holds, hslice _ _ ((h.fits ht).le hf)]
    · rw [hslice _ _ (ht.end_le hmem)]
  rw [← and_assoc, ← hrender]
  constructor
  · intro heq
    have htake : b.1.take n = (render n fs).1 := by
      rw [heq, sealed, take_left' (render n fs).2]
    refine ⟨Subtype.ext htake, ?_⟩
    rw [htake, heq, u32At_sealed _ (render n fs).2.symm]
  · rintro ⟨heq, hcrc⟩
    rw [← heq, sealed, hcrc, hsum, ← hb]

/-! ### The register of the checksum -/

/-- A step of the register is linear. -/
theorem crc32cBit_xor (x y : UInt32) : crc32cBit (x ^^^ y) = crc32cBit x ^^^ crc32cBit y := by
  have hbit : ∀ z : UInt32, z &&& 1 = 0 ∨ z &&& 1 = 1 := by
    intro z
    rw [← UInt32.toNat_inj, ← UInt32.toNat_inj]
    simpa using Nat.mod_two_eq_zero_or_one z.toNat
  have hxor : (x ^^^ y) &&& 1 = (x &&& 1) ^^^ (y &&& 1) := by
    rw [← UInt32.toNat_inj]
    exact Nat.and_xor_distrib_right
  have hfeed : reversedCastagnoliPolynomial &&& (0 - ((x &&& 1) ^^^ (y &&& 1))) =
      (reversedCastagnoliPolynomial &&& (0 - (x &&& 1))) ^^^
        (reversedCastagnoliPolynomial &&& (0 - (y &&& 1))) := by
    rcases hbit x with hx | hx <;> rcases hbit y with hy | hy <;> rw [hx, hy] <;> rfl
  unfold crc32cBit
  dsimp only
  rw [hxor, hfeed, UInt32.shiftRight_xor]
  ac_rfl

theorem crc32cByte_xor (x y : UInt32) (b : UInt8) :
    crc32cByte (x ^^^ y) b = crc32cByte x b ^^^ crc32cByte y 0 := by
  have hbits : ∀ (l : List ℕ) (x y : UInt32), l.foldl (fun crc _ => crc32cBit crc) (x ^^^ y) =
      l.foldl (fun crc _ => crc32cBit crc) x ^^^ l.foldl (fun crc _ => crc32cBit crc) y := by
    intro l
    induction l with
    | nil => exact fun _ _ => rfl
    | cons _ l ih => exact fun x y => by rw [foldl_cons, crc32cBit_xor, ih, foldl_cons, foldl_cons]
  rw [crc32cByte, crc32cByte, crc32cByte, ← hbits]
  congr 1
  simp
  ac_rfl

/-- Strings of one length that take the register to the same value do so from every value. -/
theorem crc32cByte_congr {bs cs : List UInt8} (hlength : bs.length = cs.length) {x : UInt32}
    (h : bs.foldl crc32cByte x = cs.foldl crc32cByte x) (y : UInt32) :
    bs.foldl crc32cByte y = cs.foldl crc32cByte y := by
  have hxor : ∀ (bs : List UInt8) (x d : UInt32), bs.foldl crc32cByte (x ^^^ d) =
      bs.foldl crc32cByte x ^^^ (replicate bs.length 0).foldl crc32cByte d := by
    intro bs
    induction bs with
    | nil => exact fun _ _ => rfl
    | cons b bs ih =>
      intro x d
      rw [foldl_cons, crc32cByte_xor, ih]
      rfl
  have hy : y = x ^^^ (x ^^^ y) := by rw [← UInt32.xor_assoc, UInt32.xor_self, UInt32.zero_xor]
  rw [hy, hxor bs, h, hlength, ← hxor cs]

end NullFS

namespace Permission

open Bytes Rust NullFS

def applicationGrantRecordBytes : ℕ := 128
def applicationGrantVersion : UInt16 := 1

/-- The magic number of a record, "NSPG". -/
def applicationGrantMagic : List UInt8 := [0x4e, 0x53, 0x50, 0x47]

/-! ### Enumerations -/

def ApplicationResourceKind.raw : ApplicationResourceKind → UInt8
  | .file => 1
  | .directory => 2

def ApplicationResourceKind.fromRaw (value : UInt8) : Option ApplicationResourceKind :=
  if value = 1 then some .file else if value = 2 then some .directory else none

variable {value : UInt8} {generation : UInt64} {records : List ApplicationGrantRecord} {bytes : List UInt8}

theorem ApplicationResourceKind.fromRaw_eq_some {k : ApplicationResourceKind} :
    fromRaw value = some k ↔ value = k.raw := by
  constructor
  · unfold fromRaw
    split_ifs <;> rintro ⟨⟩ <;> assumption
  · rintro rfl
    cases k <;> rfl

def ApplicationGrantScope.raw : ApplicationGrantScope → UInt8
  | .once => 1
  | .session => 2
  | .persistent => 3

def ApplicationGrantScope.fromRaw (value : UInt8) : Option ApplicationGrantScope :=
  if value = 1 then some .once
  else if value = 2 then some .session
  else if value = 3 then some .persistent
  else none

theorem ApplicationGrantScope.fromRaw_eq_some {s : ApplicationGrantScope} :
    fromRaw value = some s ↔ value = s.raw := by
  constructor
  · unfold fromRaw
    split_ifs <;> rintro ⟨⟩ <;> assumption
  · rintro rfl
    cases s <;> rfl

def ApplicationGrantRevocation.raw : ApplicationGrantRevocation → UInt8
  | .consumed => 1
  | .user => 2
  | .sessionEnded => 3
  | .resourceRemoved => 4
  | .applicationRemoved => 5
  | .policy => 6
  | .reset => 7

def ApplicationGrantRevocation.fromRaw (value : UInt8) : Option ApplicationGrantRevocation :=
  if value = 1 then some .consumed
  else if value = 2 then some .user
  else if value = 3 then some .sessionEnded
  else if value = 4 then some .resourceRemoved
  else if value = 5 then some .applicationRemoved
  else if value = 6 then some .policy
  else if value = 7 then some .reset
  else none

theorem ApplicationGrantRevocation.fromRaw_eq_some {r : ApplicationGrantRevocation} :
    fromRaw value = some r ↔ value = r.raw := by
  constructor
  · unfold fromRaw
    split_ifs <;> rintro ⟨⟩ <;> assumption
  · rintro rfl
    cases r <;> rfl

def ApplicationTrustClass.raw : ApplicationTrustClass → UInt8
  | .system => 1
  | .repository => 2
  | .localDeveloper => 3
  | .transient => 4

def trustClassFromRaw (value : UInt8) : Option ApplicationTrustClass :=
  if value = 1 then some .system
  else if value = 2 then some .repository
  else if value = 3 then some .localDeveloper
  else if value = 4 then some .transient
  else none

theorem trustClassFromRaw_eq_some {c : ApplicationTrustClass} :
    trustClassFromRaw value = some c ↔ value = c.raw := by
  constructor
  · unfold trustClassFromRaw
    split_ifs <;> rintro ⟨⟩ <;> assumption
  · rintro rfl
    cases c <;> rfl

def ApplicationInstallScope.raw : ApplicationInstallScope → UInt8
  | .systemGeneration => 1
  | .machine => 2
  | .user => 3
  | .transient => 4

def installScopeFromRaw (value : UInt8) : Option ApplicationInstallScope :=
  if value = 1 then some .systemGeneration
  else if value = 2 then some .machine
  else if value = 3 then some .user
  else if value = 4 then some .transient
  else none

theorem installScopeFromRaw_eq_some {s : ApplicationInstallScope} :
    installScopeFromRaw value = some s ↔ value = s.raw := by
  constructor
  · unfold installScopeFromRaw
    split_ifs <;> rintro ⟨⟩ <;> assumption
  · rintro rfl
    cases s <;> rfl

def boolRaw (value : Bool) : UInt8 := if value then 1 else 0

def boolFromRaw (value : UInt8) : Option Bool :=
  if value = 0 then some false else if value = 1 then some true else none

theorem boolFromRaw_eq_some {b : Bool} : boolFromRaw value = some b ↔ value = boolRaw b := by
  constructor
  · unfold boolFromRaw
    split_ifs <;> rintro ⟨⟩ <;> assumption
  · rintro rfl
    cases b <;> rfl

/-! ### Records -/

theorem ApplicationGrantSubject.new_eq_some {user : UInt64} {principal : StableApplicationPrincipal}
    {installation : UInt64} {installScope : ApplicationInstallScope} {s : ApplicationGrantSubject} :
    new user principal installation installScope = some s ↔ user = s.user ∧ principal = s.principal ∧
      installation = s.installation ∧ installScope = s.installScope := by
  constructor
  · unfold new
    split_ifs
    · rintro ⟨⟩
      exact ⟨rfl, rfl, rfl, rfl⟩
    · rintro ⟨⟩
  · rintro ⟨rfl, rfl, rfl, rfl⟩
    exact s.new_self

theorem ApplicationResourceIdentity.new_eq_some {uuid : Buf 16} {id : UInt64}
    {kind : ApplicationResourceKind} {r : ApplicationResourceIdentity} :
    new uuid id generation kind = some r ↔ uuid = r.filesystemUuid ∧ id = r.objectId ∧
      generation = r.objectGeneration ∧ kind = r.kind := by
  constructor
  · unfold new
    split_ifs
    · rintro ⟨⟩
    · rintro ⟨⟩
      exact ⟨rfl, rfl, rfl, rfl⟩
  · rintro ⟨rfl, rfl, rfl, rfl⟩
    exact r.new_self

theorem ApplicationGrantRights.fromBits_eq_some {bits : UInt16} {r : ApplicationGrantRights} :
    fromBits bits = some r ↔ bits = r.bits := by
  constructor
  · unfold fromBits
    split_ifs
    · rintro ⟨⟩
      rfl
    · rintro ⟨⟩
  · rintro rfl
    exact r.fromBits_bits

inductive ApplicationGrantDecodeError where
  | length | magic | version | checksum | reserved | state | scope | subject | resource | rights
  | canonical
  deriving DecidableEq

namespace ApplicationGrantState

/-- The bytes of a state: its tag and the reason of a revocation. -/
def raw : ApplicationGrantState → UInt8 × UInt8
  | .active => (1, 0)
  | .revoked reason => (2, reason.raw)

def fromRaw (tag reason : UInt8) : Option ApplicationGrantState :=
  if tag = 1 ∧ reason = 0 then some .active
  else if tag = 2 then (ApplicationGrantRevocation.fromRaw reason).map .revoked
  else none

theorem fromRaw_eq_some {tag reason : UInt8} {s : ApplicationGrantState} :
    fromRaw tag reason = some s ↔ tag = s.raw.1 ∧ reason = s.raw.2 := by
  constructor
  · unfold fromRaw
    split_ifs with h h'
    · rintro ⟨⟩
      exact h
    · rw [Option.map_eq_some_iff]
      rintro ⟨r, hr, rfl⟩
      exact ⟨h', ApplicationGrantRevocation.fromRaw_eq_some.1 hr⟩
    · rintro ⟨⟩
  · rintro ⟨rfl, rfl⟩
    cases s with
    | active => rfl
    | revoked => simp [raw, fromRaw, ApplicationGrantRevocation.fromRaw_eq_some]

end ApplicationGrantState

variable (r : ApplicationGrantRecord)

namespace ApplicationGrantRecord

/-- How often an active grant that is used once can still be used. -/
def remainingUses : UInt32 :=
  if r.active = true ∧ r.scope = .once then 1 else 0

/-- The fields of a record, up to its checksum. -/
def fields : List Field :=
  [(0, applicationGrantMagic), u16Field 4 applicationGrantVersion, (6, [r.state.raw.1]),
    (7, [r.scope.raw]), u64Field 8 r.id, u64Field 16 r.revision, u64Field 24 r.subject.user,
    u64Field 32 r.subject.principal.application, u64Field 40 r.subject.principal.publisher,
    u64Field 48 r.subject.principal.signingLineage, u64Field 56 r.subject.installation,
    (64, [r.subject.principal.trustClass.raw]), (65, [r.subject.installScope.raw]),
    (66, [boolRaw r.subject.principal.systemApplication]), (67, [r.resource.kind.raw]),
    u16Field 68 r.rights.bits, (70, [r.state.raw.2]), (72, r.resource.filesystemUuid.1),
    u64Field 88 r.resource.objectId, u64Field 96 r.resource.objectGeneration,
    u64Field 104 r.session, u32Field 120 r.remainingUses]

def image : List UInt8 := sealed (render 124 r.fields).1

/-- The assertion that the record is canonical traps. -/
def encode {ε : Type} (r : ApplicationGrantRecord) : Outcome ε (List UInt8) :=
  if r.canonical then .ok r.image else trapped

def decode (bytes : List UInt8) : Outcome ApplicationGrantDecodeError ApplicationGrantRecord := do
  rejectIf (bytes.length ≠ applicationGrantRecordBytes) .length
  rejectIf ((← subslice bytes 0 4) ≠ applicationGrantMagic) .magic
  rejectIf ((← getU16 bytes 4) ≠ applicationGrantVersion) .version
  rejectIf (crc32c (← subslice bytes 0 124) ≠ (← getU32 bytes 124)) .checksum
  rejectIf ((← subslice bytes 71 1) ≠ [0] ∨ (← subslice bytes 112 8) ≠ List.replicate 8 0) .reserved
  let state ← okOr (ApplicationGrantState.fromRaw (← index bytes 6) (← index bytes 70)) .state
  let scope ← okOr (ApplicationGrantScope.fromRaw (← index bytes 7)) .scope
  let trustClass ← okOr (trustClassFromRaw (← index bytes 64)) .subject
  let installScope ← okOr (installScopeFromRaw (← index bytes 65)) .subject
  let systemApplication ← okOr (boolFromRaw (← index bytes 66)) .subject
  let subject ← okOr (ApplicationGrantSubject.new (← getU64 bytes 24)
    ⟨← getU64 bytes 32, ← getU64 bytes 40, ← getU64 bytes 48, trustClass, systemApplication⟩
    (← getU64 bytes 56) installScope) .subject
  let kind ← okOr (ApplicationResourceKind.fromRaw (← index bytes 67)) .resource
  let filesystemUuid ← subarray bytes 72 16
  let resource ← okOr (ApplicationResourceIdentity.new filesystemUuid (← getU64 bytes 88)
    (← getU64 bytes 96) kind) .resource
  let rights ← okOr ((ApplicationGrantRights.fromBits (← getU16 bytes 68)).filter (·.validFor kind))
    .rights
  let record : ApplicationGrantRecord :=
    ⟨← getU64 bytes 8, ← getU64 bytes 16, subject, resource, rights, scope, ← getU64 bytes 104, state⟩
  rejectIf (record.canonical = false ∨ (← getU32 bytes 120) ≠ record.remainingUses) .canonical
  return record

/-- The layout of a record, up to its checksum. -/
def tiles : List Tile :=
  [.field 0 4, .field 4 2, .field 6 1, .field 7 1, .field 8 8, .field 16 8, .field 24 8,
    .field 32 8, .field 40 8, .field 48 8, .field 56 8, .field 64 1, .field 65 1, .field 66 1,
    .field 67 1, .field 68 2, .field 70 1, .gap 71 1, .field 72 16, .field 88 8, .field 96 8,
    .field 104 8, .gap 112 8, .field 120 4]

theorem tiled : Tiled 124 0 tiles := by decide

theorem follows_fields : Follows tiles r.fields := by
  simp [Follows, tiles, fields, u16Field, u32Field, u64Field, applicationGrantMagic, Tile.field,
    Tile.gap, r.resource.filesystemUuid.2]

@[simp] theorem length_image : r.image.length = applicationGrantRecordBytes := by
  simp [image, (render 124 r.fields).2, applicationGrantRecordBytes]

theorem eq_image_iff {b : Buf 128} {r : ApplicationGrantRecord} : b.1 = r.image ↔
    (slice b.1 0 4 = applicationGrantMagic ∧ u16At b.1 4 = applicationGrantVersion ∧
      b.1.getD 6 0 = r.state.raw.1 ∧ b.1.getD 7 0 = r.scope.raw ∧ u64At b.1 8 = r.id ∧
      u64At b.1 16 = r.revision ∧ u64At b.1 24 = r.subject.user ∧
      u64At b.1 32 = r.subject.principal.application ∧ u64At b.1 40 = r.subject.principal.publisher ∧
      u64At b.1 48 = r.subject.principal.signingLineage ∧ u64At b.1 56 = r.subject.installation ∧
      b.1.getD 64 0 = r.subject.principal.trustClass.raw ∧ b.1.getD 65 0 = r.subject.installScope.raw ∧
      b.1.getD 66 0 = boolRaw r.subject.principal.systemApplication ∧
      b.1.getD 67 0 = r.resource.kind.raw ∧ u16At b.1 68 = r.rights.bits ∧
      b.1.getD 70 0 = r.state.raw.2 ∧ slice b.1 72 16 = r.resource.filesystemUuid.1 ∧
      u64At b.1 88 = r.resource.objectId ∧ u64At b.1 96 = r.resource.objectGeneration ∧
      u64At b.1 104 = r.session ∧ u32At b.1 120 = r.remainingUses) ∧
    (slice b.1 71 1 = [0] ∧ slice b.1 112 8 = List.replicate 8 0) ∧
    crc32c (b.1.take 124) = u32At b.1 124 := by
  have hzero : ∀ {o w : ℕ}, o + w ≤ 128 →
      (allZero (slice b.1 o w) = true ↔ slice b.1 o w = .replicate w 0) := by
    intro o w h
    rw [allZero_iff_replicate, b.length_slice h]
  rw [image, eq_sealed_iff tiled r.follows_fields]
  simp (disch := decide) only [fields, tiles, holds_fields, zero_tiles,
    holds_bytes r.resource.filesystemUuid.2, and_true, hzero]
  rfl

/-- **Exactly the bytes of canonical records are accepted.** -/
theorem decode_eq_ok {bytes : List UInt8} {r : ApplicationGrantRecord} :
    decode bytes = .ok r ↔ r.canonical = true ∧ bytes = r.image := by
  apply sized_eq_ok bytes r.length_image
  intro (b : Buf 128)
  rw [eq_image_iff]
  simp (disch := decide) only [reads_buf, ok_bind]
  simp only [run_eq_ok, Option.filter_eq_some_iff, ApplicationGrantState.fromRaw_eq_some,
    ApplicationGrantScope.fromRaw_eq_some, trustClassFromRaw_eq_some, installScopeFromRaw_eq_some,
    boolFromRaw_eq_some, ApplicationGrantSubject.new_eq_some,
    ApplicationResourceKind.fromRaw_eq_some, ApplicationResourceIdentity.new_eq_some,
    ApplicationGrantRights.fromBits_eq_some, not_or, not_not, Bool.not_eq_false]
  constructor
  · rintro ⟨hmagic, hversion, hchecksum, hreserved, state, hstate, scope, hscope, trust, htrust,
      install, hinstall, system, hsystem, subject, ⟨huser, hprincipal, hinstallation, rfl⟩, kind, hkind,
      resource, ⟨huuid', hobject, hgeneration, rfl⟩, rights, ⟨hrights, hvalid⟩, ⟨hcanonical, huses⟩, rfl⟩
    rw [← hprincipal, ← huuid']
    exact ⟨hcanonical, ⟨hmagic, hversion, hstate.1, hscope, rfl, rfl, huser, rfl, rfl, rfl,
      hinstallation, htrust, hinstall, hsystem, hkind, hrights, hstate.2, rfl, hobject, hgeneration, rfl,
      huses⟩, hreserved, hchecksum⟩
  · rintro ⟨hcanonical, ⟨hmagic, hversion, hstate, hscope, hid, hrevision, huser, happlication,
      hpublisher, hlineage, hinstallation, htrust, hinstall, hsystem, hkind, hrights, hreason, huuid',
      hobject, hgeneration, hsession, huses⟩, hreserved, hchecksum⟩
    rw [hid, hrevision, happlication, hpublisher, hlineage, hsession]
    exact ⟨hmagic, hversion, hchecksum, hreserved, r.state, ⟨hstate, hreason⟩, r.scope, hscope, _,
      htrust, _, hinstall, _, hsystem, r.subject, ⟨huser, rfl, hinstallation, rfl⟩, _, hkind,
      r.resource, ⟨Subtype.ext huuid', hobject, hgeneration, rfl⟩, r.rights,
      ⟨hrights, (canonical_eq_true.1 hcanonical).2.2.1⟩, ⟨hcanonical, huses⟩, rfl⟩

end ApplicationGrantRecord

/-! ### Checkpoints -/

def checkpointHeaderBytes : ℕ := 64
def payloadBytes : ℕ := maxApplicationGrants * applicationGrantRecordBytes
def checkpointBytes : ℕ := checkpointHeaderBytes + payloadBytes
def checkpointVersion : UInt16 := 1

/-- The magic number of a checkpoint, "NSGC". -/
def checkpointMagic : List UInt8 := [0x4e, 0x53, 0x47, 0x43]

inductive ApplicationPermissionCheckpointError where
  | length | magic | version | header | checksum
  | record (error : ApplicationGrantDecodeError)
  | store (error : ApplicationPermissionLoadError)
  deriving DecidableEq

def checkpointFields (generation nextGrantId nextRevision : UInt64) (recordCount : ℕ)
    (payload : List UInt8) : List Field :=
  [(0, checkpointMagic), u16Field 4 checkpointVersion, u16Field 6 64, u64Field 8 generation,
    u64Field 16 nextGrantId, u64Field 24 nextRevision, u16Field 32 (UInt16.ofNat recordCount),
    u16Field 34 128, u32Field 36 (UInt32.ofNat (recordCount * applicationGrantRecordBytes)),
    u32Field 40 (crc32c payload)]

/-- The bytes of the records, filled up with zeros. -/
def checkpointPayload (images : List UInt8) : List UInt8 :=
  images ++ List.replicate (payloadBytes - images.length) 0

def checkpointImage (generation nextGrantId nextRevision : UInt64) (recordCount : ℕ)
    (payload : List UInt8) : List UInt8 :=
  sealed (render 60 (checkpointFields generation nextGrantId nextRevision recordCount payload)).1 ++ payload

def encodeRecords {ε : Type} : List ApplicationGrantRecord → Outcome ε (List UInt8)
  | [] => .ok []
  | record :: rest => do
    let image ← record.encode
    let images ← encodeRecords rest
    return image ++ images

def encodeApplicationPermissionCheckpoint (store : ApplicationPermissionStore)
    (generation : UInt64) : Outcome ApplicationPermissionCheckpointError (List UInt8) := do
  rejectIf (generation = 0) .header
  let images ← encodeRecords store.records
  return checkpointImage generation store.nextGrantId store.nextRevision store.records.length
    (checkpointPayload images)

def decodeRecords (bytes : List UInt8) (index : ℕ) : ℕ →
    Outcome ApplicationPermissionCheckpointError (List ApplicationGrantRecord)
  | 0 => .ok []
  | count + 1 => do
    let start := checkpointHeaderBytes + index * applicationGrantRecordBytes
    let image ← subslice bytes start applicationGrantRecordBytes
    let record ← mapErr .record (ApplicationGrantRecord.decode image)
    let rest ← decodeRecords bytes (index + 1) count
    return record :: rest

def decodeApplicationPermissionCheckpoint (bytes : List UInt8) :
    Outcome ApplicationPermissionCheckpointError (UInt64 × ApplicationPermissionStore) := do
  rejectIf (bytes.length ≠ checkpointBytes) .length
  rejectIf ((← subslice bytes 0 4) ≠ checkpointMagic) .magic
  rejectIf ((← getU16 bytes 4) ≠ checkpointVersion) .version
  let generation ← getU64 bytes 8
  let recordCount := (← getU16 bytes 32).toNat
  let payloadBytes := (← getU32 bytes 36).toNat
  rejectIf ((← getU16 bytes 6) ≠ 64 ∨ generation = 0 ∨ maxApplicationGrants < recordCount ∨
    (← getU16 bytes 34) ≠ 128 ∨ payloadBytes ≠ recordCount * applicationGrantRecordBytes) .header
  rejectIf (allZero (← subslice bytes 44 16) = false) .header
  -- this part is looked at only when the count of the payload has been checked
  rejectIf (allZero (← sliceFrom bytes (checkpointHeaderBytes + payloadBytes)) = false) .header
  rejectIf (crc32c (← subslice bytes 0 60) ≠ (← getU32 bytes 60) ∨
    crc32c (← sliceFrom bytes checkpointHeaderBytes) ≠ (← getU32 bytes 40)) .checksum
  let records ← decodeRecords bytes 0 recordCount
  let store ← mapErr .store (ApplicationPermissionStore.restoreCheckpointSlots
    (ApplicationPermissionStore.slots records) recordCount (← getU64 bytes 16) (← getU64 bytes 24))
  return (generation, store)

/-- The layout of the header, up to its checksum. -/
def checkpointTiles : List Tile :=
  [.field 0 4, .field 4 2, .field 6 2, .field 8 8, .field 16 8, .field 24 8, .field 32 2,
    .field 34 2, .field 36 4, .field 40 4, .gap 44 16]

theorem checkpointTiled : Tiled 60 0 checkpointTiles := by decide

def imagesOf (records : List ApplicationGrantRecord) : List UInt8 :=
  (records.map ApplicationGrantRecord.image).flatten

theorem imagesOf_cons (rs : List ApplicationGrantRecord) : imagesOf (r :: rs) = r.image ++ imagesOf rs := by
  simp [imagesOf]

theorem length_imagesOf (records : List ApplicationGrantRecord) :
    (imagesOf records).length = records.length * applicationGrantRecordBytes := by
  induction records with
  | nil => simp [imagesOf]
  | cons r rs ih =>
    rw [imagesOf_cons, List.length_append, ih, ApplicationGrantRecord.length_image, List.length_cons]
    ring

theorem encodeRecords_eq {ε : Type} (h : ∀ r ∈ records, r.canonical = true) :
    (encodeRecords records : Outcome ε (List UInt8)) = .ok (imagesOf records) := by
  induction records with
  | nil => rfl
  | cons r rs ih =>
    rw [List.forall_mem_cons] at h
    rw [encodeRecords, ApplicationGrantRecord.encode, if_pos h.1, ih h.2]
    rfl

/-- The records are read from where they are written. -/
theorem decodeRecords_eq_ok {count : ℕ} : ∀ {index : ℕ}, decodeRecords bytes index count = .ok records ↔
      records.length = count ∧ (∀ r ∈ records, r.canonical = true) ∧
        slice bytes (checkpointHeaderBytes + index * applicationGrantRecordBytes)
          (count * applicationGrantRecordBytes) = imagesOf records := by
  induction count generalizing records with
  | zero =>
    cases records with
    | nil => simp [decodeRecords, imagesOf, slice]
    | cons => simp [decodeRecords]
  | succ count ih =>
    intro index
    have hnext : checkpointHeaderBytes + (index + 1) * applicationGrantRecordBytes =
        checkpointHeaderBytes + index * applicationGrantRecordBytes + applicationGrantRecordBytes := by
      ring
    have hbytes : (count + 1) * applicationGrantRecordBytes =
        applicationGrantRecordBytes + count * applicationGrantRecordBytes := by
      ring
    simp only [decodeRecords, run_eq_ok, subslice_eq_ok, ApplicationGrantRecord.decode_eq_ok, ih,
      hnext, hbytes, slice_add]
    constructor
    · rintro ⟨_, ⟨-, rfl⟩, r, ⟨hcanonical, hr⟩, rs, ⟨hlength, hrs, himages⟩, rfl⟩
      refine ⟨by rw [List.length_cons, hlength], List.forall_mem_cons.2 ⟨hcanonical, hrs⟩, ?_⟩
      rw [imagesOf_cons, hr, himages]
    · rintro ⟨hlength, hcanonical, himages⟩
      cases records with
      | nil => simp at hlength
      | cons r rs =>
        rw [List.forall_mem_cons] at hcanonical
        have hrs : rs.length = count := by simpa using hlength
        -- both pieces are as long as they can be, since together they are
        have htotal := congrArg List.length himages
        rw [List.length_append, imagesOf_cons, List.length_append, length_slice,
          length_slice, ApplicationGrantRecord.length_image] at htotal
        obtain ⟨hr, himages⟩ := List.append_inj (himages.trans (imagesOf_cons r rs)) (by
          rw [length_slice, ApplicationGrantRecord.length_image]
          omega)
        exact ⟨_, ⟨by rw [applicationGrantRecordBytes] at *; omega, rfl⟩, r, ⟨hcanonical.1, hr⟩, rs,
        ⟨hrs, hcanonical.2, himages⟩, rfl⟩

theorem eq_checkpointImage_iff {payload : List UInt8} {nextGrantId nextRevision : UInt64}
    {count : ℕ} (hlength : bytes.length = checkpointBytes) :
    bytes = checkpointImage generation nextGrantId nextRevision count payload ↔
      bytes.drop checkpointHeaderBytes = payload ∧
      (slice bytes 0 4 = checkpointMagic ∧ u16At bytes 4 = checkpointVersion ∧ u16At bytes 6 = 64 ∧
        u64At bytes 8 = generation ∧ u64At bytes 16 = nextGrantId ∧ u64At bytes 24 = nextRevision ∧
        u16At bytes 32 = UInt16.ofNat count ∧ u16At bytes 34 = 128 ∧
        u32At bytes 36 = UInt32.ofNat (count * applicationGrantRecordBytes) ∧
        u32At bytes 40 = crc32c payload) ∧
      allZero (slice bytes 44 16) = true ∧ crc32c (bytes.take 60) = u32At bytes 60 := by
  have hfollows : Follows checkpointTiles
      (checkpointFields generation nextGrantId nextRevision count payload) := rfl
  have hfront : (bytes.take 64).length = 60 + 4 := by
    rw [List.length_take, hlength]
    rfl
  set b : Buf (60 + 4) := ⟨bytes.take 64, hfront⟩ with hb
  have hslice : ∀ o w, o + w ≤ 64 → slice b.1 o w = slice bytes o w := fun o w h => slice_take h
  have hsum : b.1.take 60 = bytes.take 60 := List.take_take
  have hsplit : bytes = checkpointImage generation nextGrantId nextRevision count payload ↔
      bytes.drop checkpointHeaderBytes = payload ∧ b.1 = sealed (render 60
        (checkpointFields generation nextGrantId nextRevision count payload)).1 := by
    have hheader : (sealed (render 60 (checkpointFields generation nextGrantId nextRevision count
        payload)).1).length = 64 := by
      rw [length_sealed, (render 60 _).2]
    constructor
    · intro h
      refine ⟨by rw [h, checkpointImage, checkpointHeaderBytes, List.drop_left' hheader], ?_⟩
      change bytes.take 64 = _
      rw [h, checkpointImage, List.take_left' hheader]
    · rintro ⟨hdrop, htake⟩
      rw [checkpointImage, ← htake, ← hdrop]
      exact (List.take_append_drop 64 bytes).symm
  rw [hsplit, eq_sealed_iff checkpointTiled hfollows]
  simp (disch := decide) only [checkpointFields, checkpointTiles, holds_fields, zero_tiles,
    holds_bytes (show checkpointMagic.length = 4 from rfl), and_true, u16At, u32At, u64At, hslice, hsum]

theorem length_checkpointPayload (hcount : records.length ≤ maxApplicationGrants) :
    (checkpointPayload (imagesOf records)).length = payloadBytes := by
  have hle : records.length * applicationGrantRecordBytes ≤ payloadBytes := Nat.mul_le_mul_right _ hcount
  rw [checkpointPayload, List.length_append, List.length_replicate, length_imagesOf]
  omega

/-- The payload is made of the records and zeros. -/
theorem drop_eq_payload_iff (hlength : bytes.length = checkpointBytes) :
    bytes.drop checkpointHeaderBytes = checkpointPayload (imagesOf records) ↔
      slice bytes checkpointHeaderBytes (records.length * applicationGrantRecordBytes) = imagesOf records ∧
      allZero (bytes.drop (checkpointHeaderBytes + records.length * applicationGrantRecordBytes)) = true := by
  have hsplit : bytes.drop checkpointHeaderBytes =
      slice bytes checkpointHeaderBytes (records.length * applicationGrantRecordBytes) ++
        bytes.drop (checkpointHeaderBytes + records.length * applicationGrantRecordBytes) := by
    rw [slice, ← List.drop_drop, List.take_append_drop]
  have hrest : (bytes.drop (checkpointHeaderBytes + records.length * applicationGrantRecordBytes)).length =
        payloadBytes - (imagesOf records).length := by
    rw [List.length_drop, hlength, length_imagesOf, checkpointBytes]
    omega
  rw [allZero_iff_replicate, hrest, checkpointPayload]
  constructor
  · intro h
    rw [hsplit] at h
    refine List.append_inj' h ?_
    rw [hrest, List.length_replicate]
  · rintro ⟨himages, hzero⟩
    rw [hsplit, himages, hzero]

/-- **Exactly the checkpoints of records that the store takes back are accepted.** -/
theorem decodeCheckpoint_eq_ok {store : ApplicationPermissionStore} :
    decodeApplicationPermissionCheckpoint bytes = .ok (generation, store) ↔
      generation ≠ 0 ∧ ∃ records nextGrantId nextRevision,
        records.length ≤ maxApplicationGrants ∧ (∀ r ∈ records, r.canonical = true) ∧
        ApplicationPermissionStore.restoreCheckpointSlots (ApplicationPermissionStore.slots records)
          records.length nextGrantId nextRevision = .ok store ∧
        bytes = checkpointImage generation nextGrantId nextRevision records.length
          (checkpointPayload (imagesOf records)) := by
  by_cases hlength : bytes.length = checkpointBytes
  · set b : Buf checkpointBytes := ⟨bytes, hlength⟩ with hb
    change decodeApplicationPermissionCheckpoint b.1 = _ ↔ _
    simp (disch := decide) only [decodeApplicationPermissionCheckpoint, reads_buf, ok_bind]
    simp only [run_eq_ok, sliceFrom_eq_ok, decodeRecords_eq_ok, eq_checkpointImage_iff hlength,
      drop_eq_payload_iff hlength, not_or, not_not, not_lt, Bool.not_eq_false, Prod.mk.injEq]
    constructor
    · rintro ⟨-, hmagic, hversion, ⟨hheader, hgeneration, hcount, hrecord, hbytes⟩, hgap, _,
        ⟨-, rfl⟩, htail, _, ⟨-, rfl⟩, ⟨hsum, hsum'⟩, records, ⟨hrecords, hcanonical, himages⟩, _,
        hrestore, rfl, rfl⟩
      rw [← hrecords] at hcount hbytes himages hrestore
      rw [hbytes] at htail
      have hpayload := (drop_eq_payload_iff hlength).2 ⟨himages, htail⟩
      have hcount' : u16At bytes 32 = .ofNat records.length := by
        rw [hrecords, UInt16.ofNat_toNat]
      have hbytes' : u32At bytes 36 = .ofNat (records.length * applicationGrantRecordBytes) := by
        rw [← hbytes, UInt32.ofNat_toNat]
      rw [hpayload] at hsum'
      exact ⟨hgeneration, records, _, _, hcount, hcanonical, hrestore, ⟨himages, htail⟩,
        ⟨hmagic, hversion, hheader, rfl, rfl, rfl, hcount', hrecord, hbytes', hsum'.symm⟩, hgap, hsum⟩
    · rintro ⟨hgeneration, records, nextGrantId, nextRevision, hcount, hcanonical, hrestore,
        ⟨himages, htail⟩, ⟨hmagic, hversion, hheader, rfl, rfl, rfl, hcount', hrecord, hbytes, hsum'⟩,
        hgap, hsum⟩
      have hlt : records.length < 2 ^ 16 := hcount.trans_lt (by decide)
      have hlt' : records.length * applicationGrantRecordBytes < 2 ^ 32 :=
        (Nat.mul_le_mul_right _ hcount).trans_lt (by decide)
      have hpayload := (drop_eq_payload_iff hlength).2 ⟨himages, htail⟩
      rw [hcount', hbytes, UInt16.toNat_ofNat_of_lt' hlt, UInt32.toNat_ofNat_of_lt' hlt', hpayload]
      have hfit : checkpointHeaderBytes + records.length * applicationGrantRecordBytes ≤ bytes.length := by
        rw [hlength]
        exact Nat.add_le_add_left (Nat.mul_le_mul_right _ hcount) _
      exact ⟨hlength, hmagic, hversion, ⟨hheader, hgeneration, hcount, hrecord, rfl⟩, hgap, _,
        ⟨hfit, rfl⟩, htail, _, ⟨by rw [hlength]; decide, rfl⟩, ⟨hsum, hsum'.symm⟩, records, ⟨rfl,
        hcanonical, himages⟩, store, hrestore, rfl, rfl⟩
  · constructor
    · intro h
      rw [decodeApplicationPermissionCheckpoint, bind_eq_ok] at h
      obtain ⟨_, h, -⟩ := h
      exact absurd (not_not.1 (rejectIf_eq_ok.1 h)) hlength
    · rintro ⟨-, records, _, _, hcount, -, -, hbytes⟩
      refine absurd ?_ hlength
      rw [hbytes, checkpointImage, List.length_append, length_sealed, (render 60 _).2,
        length_checkpointPayload hcount, checkpointBytes, checkpointHeaderBytes]

/-! ### Selectors -/

def selectorBytes : ℕ := 64
def selectorVersion : UInt16 := 1

/-- The magic number of a selector, "NSGS". -/
def selectorMagic : List UInt8 := [0x4e, 0x53, 0x47, 0x53]

inductive ApplicationPermissionSelectorError where
  | length | magic | version | canonical | checksum
  deriving DecidableEq

structure Selector where
  (sequence checkpointGeneration : UInt64)
  checkpointChecksum : UInt32
  checkpointSlot : Fin 2
  deriving DecidableEq

/-- There is a first slot. -/
scoped instance neZero_slots : NeZero 2 := ⟨two_ne_zero⟩

/-- The byte that stands for a slot. -/
def slotRaw (slot : Fin 2) : UInt8 := if slot = 0 then 0 else 1

/-- The slot a byte stands for, when it is 0 or 1. -/
def slotFromRaw (value : UInt8) : Fin 2 := if value = 0 then 0 else 1

theorem slotFromRaw_raw (slot : Fin 2) : slotFromRaw (slotRaw slot) = slot := by
  fin_cases slot <;> rfl

variable (selector : Selector)

def selectorFields : List Field :=
  [(0, selectorMagic), u16Field 4 selectorVersion, (6, [slotRaw selector.checkpointSlot]),
    u64Field 8 selector.sequence, u64Field 16 selector.checkpointGeneration,
    u32Field 24 selector.checkpointChecksum]

def encodeSelector : List UInt8 :=
  sealed (render 60 (selectorFields selector)).1

def decodeSelector (bytes : List UInt8) : Outcome ApplicationPermissionSelectorError Selector := do
  rejectIf (bytes.length ≠ selectorBytes) .length
  rejectIf (slice bytes 0 4 ≠ selectorMagic) .magic
  rejectIf (u16At bytes 4 ≠ selectorVersion) .version
  rejectIf (1 < bytes.getD 6 0 ∨ slice bytes 7 1 ≠ [0] ∨ u64At bytes 8 = 0 ∨ u64At bytes 16 = 0 ∨
    allZero (slice bytes 28 32) = false) .canonical
  rejectIf (crc32c (bytes.take 60) ≠ u32At bytes 60) .checksum
  return ⟨u64At bytes 8, u64At bytes 16, u32At bytes 24, slotFromRaw (bytes.getD 6 0)⟩

/-- The layout of a selector, up to its checksum. -/
def selectorTiles : List Tile :=
  [.field 0 4, .field 4 2, .field 6 1, .gap 7 1, .field 8 8, .field 16 8, .field 24 4, .gap 28 32]

theorem selectorTiled : Tiled 60 0 selectorTiles := by decide

theorem follows_selectorFields : Follows selectorTiles (selectorFields selector) := rfl

@[simp] theorem length_encodeSelector : (encodeSelector selector).length = selectorBytes := by
  rw [encodeSelector, length_sealed, (render 60 _).2, selectorBytes]

/-- Decoding inverts encoding. -/
theorem decode_encodeSelector {selector : Selector} (hsequence : selector.sequence ≠ 0)
    (hgeneration : selector.checkpointGeneration ≠ 0) :
    decodeSelector (encodeSelector selector) = .ok selector := by
  set b : Buf (60 + 4) := ⟨encodeSelector selector, length_encodeSelector selector⟩
  have hholds := (eq_sealed_iff selectorTiled (follows_selectorFields selector)).1
    (show b.1 = sealed (render 60 (selectorFields selector)).1 from rfl)
  simp (disch := decide) only [selectorFields, selectorTiles, holds_fields, zero_tiles, and_true] at hholds
  obtain ⟨⟨hmagic, hversion, hslot, hsequence', hgeneration', hsum⟩, ⟨hgap, hgap'⟩, hchecksum⟩ := hholds
  rw [allZero_iff_replicate, b.length_slice (by decide)] at hgap
  have hlength : b.1.length = selectorBytes := b.2
  have hbit : ¬ 1 < slotRaw selector.checkpointSlot := by
    rw [slotRaw]
    split <;> decide
  have hcanonical : ¬ (1 < b.1.getD 6 0 ∨ slice b.1 7 1 ≠ [0] ∨ u64At b.1 8 = 0 ∨
      u64At b.1 16 = 0 ∨ allZero (slice b.1 28 32) = false) := by
    rw [hslot, hgap, hsequence', hgeneration', hgap']
    simp only [hbit, hsequence, hgeneration, ne_eq, List.replicate_one, not_true_eq_false,
      Bool.true_eq_false, or_self, not_false_eq_true]
  rw [decodeSelector, rejectIf_of_not (not_not.2 hlength), rejectIf_of_not (not_not.2 hversion),
    rejectIf_of_not hcanonical,
    rejectIf_of_not (not_not.2 hchecksum), hsequence', hgeneration', hsum, hslot, slotFromRaw_raw]
  rfl

end Permission
