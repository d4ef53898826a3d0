/-
**Why a negotiation was refused.**

A server that selects no minor answers with a reason.  The reason is decided after the search from two
flags: whether there was a common minor, and whether the required features were available at one.  The
second flag is set only at minors whose own minimum fits the limits of the connection.  So a request may
be told that a required feature is unavailable although it is available at a common minor, one that does
not fit.

* `refusal_truthful_iff` — when the reason is true;
* `refusal_not_truthful` — a refusal for the wrong reason.
-/

import NullStar.NegotiationOptimal

set_option autoImplicit false

namespace NSWP

open Bytes Rust List

/-! ### Reasons -/

/-- The minimum of the version fits. -/
def MinimumFits (limits : ConnectionLimits) (version : MinorVersionProfile) : Prop :=
  version.minimumBodyBytes ≤ limits.maxBodyBytes ∧ version.minimumHandles ≤ limits.maxHandles

section

variable (request : DecodedNegotiationRequest) (profile : ServerProfile)

/-- The required features are available at the version. -/
def RequiredAvailable (version : MinorVersionProfile) : Prop :=
  ∀ id ∈ requiredIds request, Available profile version.minor id

/-- The reason of a refusal is the one that the request and the profile give. -/
structure Truthful (status : NegotiationStatus) : Prop where
  unavailable : status = .requiredFeatureUnavailable →
    ∃ id ∈ requiredIds request, ∀ v ∈ commonVersions request profile, ¬ Available profile v.minor id
  bounds : (∃ v ∈ commonVersions request profile, RequiredAvailable request profile v) →
    status = .transportBoundsTooSmall

/-- Required features that are available at a common minor are available at one whose minimum fits. -/
def FitsWhereAvailable : Prop := requiredIds request ≠ [] →
  (∃ v ∈ commonVersions request profile, RequiredAvailable request profile v) →
    ∃ v ∈ commonVersions request profile, MinimumFits (negotiatedLimits request.root profile) v ∧
      RequiredAvailable request profile v

/-- The server's minors meet the requested range. -/
def MinorsMeet : Prop :=
  ∃ lo hi minor, firstMinor profile.versions = .ok lo ∧ lastMinor profile.versions = .ok hi ∧
    (lo ≤ minor ∧ minor ≤ hi) ∧ request.root.minMinor ≤ minor ∧ minor ≤ request.root.maxMinor

end

variable {request : DecodedNegotiationRequest} {profile : ServerProfile} {limits : ConnectionLimits}

/-! ### What the search records -/

theorem collectRequired_available (hp : ValidProfile profile) {minor : UInt16}
    {requested selected selected' : List FeatureRecord} {count count' : ℕ} {available available' : Bool}
    (h : collectRequired profile minor requested selected count available =
      .ok (selected', count', available')) :
    available' = true ↔ available = true ∧ ∀ r ∈ requested, Available profile minor r.id := by
  induction requested generalizing selected count available with
  | nil =>
    cases h
    simp
  | cons r rest ih =>
    rw [collectRequired] at h
    split at h
    case isTrue hnone =>
      rw [isNone_featureProfileAtMinor hp] at hnone
      simp [ih h, hnone]
    case isFalse hsome =>
      rw [isNone_featureProfileAtMinor hp, not_not] at hsome
      obtain ⟨_, -, h⟩ := bind_eq_ok.1 h
      simp [ih h, hsome]

/-- The flags of a search that selects nothing. -/
theorem searchMinor_flags (hp : ValidProfile profile) {versions : List MinorVersionProfile}
    {search search' : MinorSearch} (h : searchMinor request profile limits versions search = .ok search')
    (hnone : search'.selectedMinor = none) :
    (search'.hasCommonMinor = true ↔ search.hasCommonMinor = true ∨ versions ≠ []) ∧
    (search'.requiredFeaturesAvailable = true ↔ search.requiredFeaturesAvailable = true ∨
      ∃ v ∈ versions, MinimumFits limits v ∧ RequiredAvailable request profile v) := by
  induction versions generalizing search with
  | nil =>
    cases h
    simp
  | cons v rest ih =>
    rw [searchMinor] at h
    split at h
    case isTrue hbounds =>
      have hfail : ¬ MinimumFits limits v := by
        rintro ⟨hb, hh⟩
        exact hbounds.elim (UInt32.not_lt.2 hb) (UInt16.not_lt.2 hh)
      obtain ⟨hcommon, hrequired⟩ := ih h
      simp [hcommon, hrequired, hfail]
    case isFalse hbounds =>
      rw [not_or, UInt32.not_lt, UInt16.not_lt] at hbounds
      obtain ⟨⟨selected, count, available⟩, hcollect, h⟩ := bind_eq_ok.1 h
      have havailable : available = true ↔ RequiredAvailable request profile v := by
        rw [collectRequired_available hp hcollect, RequiredAvailable, requiredIds, forall_mem_map]
        exact and_iff_right rfl
      have hfits : MinimumFits limits v := hbounds
      simp only at h
      split at h
      case isTrue hfalse =>
        obtain ⟨hcommon, hrequired⟩ := ih h
        simp [hcommon, hrequired, ← havailable, hfalse]
      case isFalse htrue =>
        have htrue : RequiredAvailable request profile v := havailable.1 (by simpa using htrue)
        split at h
        case isTrue =>
          obtain ⟨hcommon, hrequired⟩ := ih h
          simp [hcommon, hrequired, hfits, htrue]
        case isFalse =>
          -- here a minor is selected
          obtain ⟨_, -, h⟩ := bind_eq_ok.1 h
          cases h
          cases hnone

/-! ### Minors -/

/-- The minors of a server have no gap. -/
theorem validateVersionsFrom_contiguous {versions : List MinorVersionProfile} {previous : Option UInt16}
    {lo hi minor : UInt16} (h : validateVersionsFrom previous versions = .ok ())
    (hlo : firstMinor versions = .ok lo) (hhi : lastMinor versions = .ok hi) (hle : lo ≤ minor)
    (hge : minor ≤ hi) : ∃ v ∈ versions, v.minor = minor := by
  induction versions generalizing previous lo with
  | nil => cases hlo
  | cons v rest ih =>
    cases hlo
    obtain ⟨_, -, h⟩ := bind_eq_ok.1 h
    cases rest with
    | nil =>
      cases hhi
      exact ⟨v, mem_cons_self, UInt16.le_antisymm hle hge⟩
    | cons w rest =>
      by_cases heq : v.minor = minor
      · exact ⟨v, mem_cons_self, heq⟩
      · have hnext := h
        simp only [validateVersionsFrom, run_eq_ok, not_or, Option.any_some, decide_eq_true_eq, not_not,
          checkedAdd_eq_some] at hnext
        have hstep : w.minor ≤ minor := by
          rw [UInt16.le_iff_toNat_le] at hle ⊢
          have hne := mt UInt16.toNat_inj.1 heq
          omega
        obtain ⟨u, hu, hminor⟩ := ih h rfl (by rwa [lastMinor, getLast?_cons_cons] at hhi) hstep
        exact ⟨u, mem_cons_of_mem _ hu, hminor⟩

/-- A feature stays available at later minors. -/
theorem Available.mono {minor minor' : UInt16} {id : UInt32} (h : Available profile minor id)
    (hle : minor ≤ minor') : Available profile minor' id := by
  obtain ⟨f, hf, hid, hsince⟩ := h
  exact ⟨f, hf, hid, UInt16.le_trans hsince hle⟩

theorem minorsMeet_iff (h : validateProfile profile = .ok ()) :
    MinorsMeet request profile ↔ commonVersions request profile ≠ [] := by
  have hp := validProfile_of_validateProfile h
  simp only [validateProfile, run_eq_ok] at h
  obtain ⟨-, -, _, hversions, -⟩ := h
  constructor
  · rintro ⟨lo, hi, minor, hlo, hhi, hserver, hrequest⟩
    obtain ⟨v, hv, rfl⟩ := validateVersionsFrom_contiguous hversions hlo hhi hserver.1 hserver.2
    exact ne_nil_of_mem (mem_commonVersions.2 ⟨hv, hrequest⟩)
  · intro hne
    obtain ⟨v, hv⟩ := exists_mem_of_ne_nil _ hne
    obtain ⟨hv, hrequest⟩ := mem_commonVersions.1 hv
    obtain ⟨lo, hi, hlo, hhi, hrange⟩ := exists_minors hp
    exact ⟨lo, hi, v.minor, hlo, hhi, hrange v hv, hrequest⟩

/-- A common minor lacks a feature that is missing at every common minor, or has them all. -/
theorem exists_unavailable (hp : ValidProfile profile) (hne : commonVersions request profile ≠ [])
    (h : ¬ ∃ v ∈ commonVersions request profile, RequiredAvailable request profile v) :
    ∃ id ∈ requiredIds request, ∀ v ∈ commonVersions request profile, ¬ Available profile v.minor id := by
  obtain ⟨top, rest, hcommon⟩ := exists_cons_of_ne_nil hne
  have hdesc : (commonVersions request profile).Pairwise fun v w => w.minor.toNat < v.minor.toNat :=
    (pairwise_reverse.2 hp.versions).filter _
  rw [hcommon] at h hdesc ⊢
  have htop : ¬ RequiredAvailable request profile top := fun hall => h ⟨top, mem_cons_self, hall⟩
  simp only [RequiredAvailable, not_forall] at htop
  obtain ⟨id, hid, hmissing⟩ := htop
  refine ⟨id, hid, fun v hv hav => hmissing (hav.mono ?_)⟩
  rcases mem_cons.1 hv with rfl | hv
  · exact UInt16.le_refl _
  · exact UInt16.le_iff_toNat_le.2 ((pairwise_cons.1 hdesc).1 v hv).le

/-- The status of a search that selected nothing. -/
theorem failureStatus_truthful_iff (hp : ValidProfile profile) {search : MinorSearch}
    (hcommon : search.hasCommonMinor = true ↔ commonVersions request profile ≠ [])
    (hrequired : search.requiredFeaturesAvailable = true ↔ ∃ v ∈ commonVersions request profile,
      MinimumFits (negotiatedLimits request.root profile) v ∧ RequiredAvailable request profile v) :
    (failureStatus request search = .noCommonMinor ↔ commonVersions request profile = []) ∧
    (Truthful request profile (failureStatus request search) ↔ FitsWhereAvailable request profile) := by
  have hany : request.features.records.any (·.isRequired) = true ↔ requiredIds request ≠ [] := by
    simp [requiredIds]
  unfold failureStatus
  by_cases hne : commonVersions request profile = []
  · have hnone : ∀ p : MinorVersionProfile → Prop, ¬ ∃ v ∈ commonVersions request profile, p v := by
      simp [hne]
    rw [if_pos (by simpa using mt hcommon.1 (not_not.2 hne))]
    exact ⟨iff_of_true rfl hne, iff_of_true ⟨by simp, fun h => absurd h (hnone _)⟩
      fun _ h => absurd h (hnone _)⟩
  rw [if_neg (by simpa using hcommon.2 hne)]
  by_cases hfits : ∃ v ∈ commonVersions request profile,
      MinimumFits (negotiatedLimits request.root profile) v ∧ RequiredAvailable request profile v
  · rw [if_pos (hrequired.2 hfits)]
    exact ⟨iff_of_false (by simp) hne, iff_of_true ⟨by simp, fun _ => rfl⟩ fun _ _ => hfits⟩
  rw [if_neg (mt hrequired.1 hfits)]
  by_cases hrequests : requiredIds request = []
  · rw [if_neg (mt hany.1 (not_not.2 hrequests))]
    exact ⟨iff_of_false (by simp) hne, iff_of_true ⟨by simp, fun _ => rfl⟩ (absurd hrequests)⟩
  rw [if_pos (hany.2 hrequests)]
  refine ⟨iff_of_false (by simp) hne,
    ⟨fun htrue _ hav => absurd (htrue.bounds hav) (by simp), fun hwhere => ?_⟩⟩
  have hnone := mt (hwhere hrequests) hfits
  exact ⟨fun _ => exists_unavailable hp hne hnone, fun h => absurd h hnone⟩

/-- **The reason of a refusal**: a missing common minor is always reported truly, and the other reasons
are true exactly if required features are never available only where the minimum does not fit. -/
theorem refusal_truthful_iff {scratch slice : List FeatureRecord} {outcome : NegotiationOutcome}
    (h : negotiate request profile scratch = .ok (outcome, slice)) (hstatus : outcome.response.status ≠ .ok)
    (hid : request.root.protocolId = profile.protocolId)
    (hmajor : request.root.protocolMajor = profile.protocolMajor) :
    (outcome.response.status = .noCommonMinor ↔ ¬ MinorsMeet request profile) ∧
    (Truthful request profile outcome.response.status ↔ FitsWhereAvailable request profile) := by
  simp only [negotiate, run_eq_ok, hid, hmajor, ne_eq, not_true_eq_false, if_false] at h
  obtain ⟨_, hprofile, -, lo, -, hi, -, search, hsearch, h⟩ := h
  have hp := validProfile_of_validateProfile hprofile
  cases hselected : search.selectedMinor with
  | some selected =>
    rw [hselected] at h
    cases h
    exact absurd rfl hstatus
  | none =>
    rw [hselected] at h
    cases h
    obtain ⟨hcommon, hrequired⟩ := searchMinor_flags hp hsearch hselected
    rw [minorsMeet_iff hprofile, not_not]
    exact failureStatus_truthful_iff hp (by simpa using hcommon) (by simpa using hrequired)

/-! ### A feature that is available where nothing fits -/

/-- A server whose minor 2 needs more than it carries, and has a feature since that minor. -/
def tightProfile : ServerProfile :=
  { sampleProfile with
    versions := [⟨1, 64, 0⟩, ⟨2, 8192, 0⟩]
    availableFeatures := [⟨7, 2⟩] }

/-- The sample request that requires the feature. -/
def requiringDecoded : DecodedNegotiationRequest where
  root := sampleRequest
  features := ⟨encodeFeatures [⟨7, .required⟩] .request, .request⟩

theorem refusal_truthful_sample : Truthful requiringDecoded sampleProfile .requiredFeatureUnavailable := by
  have hrun : negotiate requiringDecoded sampleProfile [.enabled 0] = .ok
      (failureOutcome sampleRequest 1 2 .requiredFeatureUnavailable, [.enabled 0]) := by decide +kernel
  refine (refusal_truthful_iff hrun nofun rfl rfl).2.2 fun _ ⟨v, _, hav⟩ => ?_
  have hmissing : ∀ minor, ¬ Available sampleProfile minor 7 := by simp [Available, sampleProfile]
  exact absurd (hav 7 (by decide +kernel)) (hmissing _)

/-- **A request is told that a required feature is unavailable**, although the feature is available at a
common minor, which does not fit the limits of the connection. -/
theorem refusal_not_truthful :
    NegotiationRequest.decode (requestBytes sampleRequest [⟨7, .required⟩]) = .ok requiringDecoded ∧
    (∃ outcome slice, negotiate requiringDecoded tightProfile [.enabled 0] = .ok (outcome, slice) ∧
      outcome.response.status = .requiredFeatureUnavailable) ∧
    ∃ v ∈ commonVersions requiringDecoded tightProfile,
    RequiredAvailable requiringDecoded tightProfile v := by
  have hrun : negotiate requiringDecoded tightProfile [.enabled 0] = .ok
      (failureOutcome sampleRequest 1 2 .requiredFeatureUnavailable, [.enabled 0]) := by decide +kernel
  refine ⟨by decide +kernel, ⟨_, _, hrun, rfl⟩, ⟨2, 8192, 0⟩, by decide +kernel, fun id hid => ?_⟩
  rw [show requiredIds requiringDecoded = [7] by decide +kernel, mem_singleton] at hid
  exact ⟨⟨7, 2⟩, mem_cons_self, hid.symm, by decide⟩

end NSWP
