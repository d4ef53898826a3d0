/-
**Negotiation is optimal and agreed by both ends.**

The selection is compared with what it is for.  A minor is *acceptable* when it lies in both ranges, its
minimum fits the least of the four limits, and the required features are available at it and fit together.
The server selects the highest acceptable minor.  Its choice of optional features is the greedy one: going
through them in the order of their identifiers, a feature is kept exactly when it is available and fits
together with the features kept before it.  The answer is read by the client as it was written and
passes the client's check, provided that the client knows every feature it asked for.

* `searchMinor_eq` — the search finds the first acceptable version;
* `negotiate_optimal` — **a successful negotiation is agreed, and it succeeds when it can**.
-/

import NullStar.Negotiation

set_option autoImplicit false

namespace NSWP

open Bytes Rust List

/-! ### Greedy choice -/

section Greedy

variable {α : Type} (ok : α → List α → Bool)

/-- Going through a list, keep each element that is `ok` with what was kept before. -/
def greedy : List α → List α → List α
  | chosen, [] => chosen
  | chosen, a :: as => if ok a chosen then greedy (chosen ++ [a]) as else greedy chosen as

variable {ok}

theorem greedy_append (chosen as bs : List α) :
    greedy ok chosen (as ++ bs) = greedy ok (greedy ok chosen as) bs := by
  induction as generalizing chosen with
  | nil => rfl
  | cons a as ih =>
    rw [cons_append, greedy, greedy]
    split
    · exact ih _
    · exact ih _

theorem greedy_sublist (chosen as : List α) : (greedy ok chosen as).Sublist (chosen ++ as) := by
  induction as generalizing chosen with
  | nil => rw [greedy, append_nil]
  | cons a as ih =>
    rw [greedy]
    split
    · simpa using ih (chosen ++ [a])
    · exact (ih chosen).trans (.append_left (sublist_cons_self a as) chosen)

theorem subset_greedy (chosen as : List α) {x : α} (h : x ∈ chosen) : x ∈ greedy ok chosen as := by
  induction as generalizing chosen with
  | nil => exact h
  | cons a as ih =>
    rw [greedy]
    split
    · exact ih _ (mem_append_left _ h)
    · exact ih _ h

variable {chosen before after : List α} {a : α}

/-- An element is kept exactly when it is `ok` with what was kept before it. -/
theorem mem_greedy_iff (h : (chosen ++ (before ++ a :: after)).Nodup) :
    a ∈ greedy ok chosen (before ++ a :: after) ↔ ok a (greedy ok chosen before) = true := by
  rw [greedy_append, greedy]
  have hnodup := nodup_append.1 h
  have hrest := nodup_append.1 hnodup.2.1
  have hcons := nodup_cons.1 hrest.2.1
  have hnew : a ∉ greedy ok chosen before := by
    intro hmem
    rcases mem_append.1 ((greedy_sublist chosen before).subset hmem) with hc | hb
    · exact hnodup.2.2 a hc a (by simp) rfl
    · exact hrest.2.2 a hb a (by simp) rfl
  split
  case isTrue hok => exact iff_of_true (subset_greedy _ after (by simp)) hok
  case isFalse hok =>
    simp only [hok, iff_false, Bool.false_eq_true]
    intro hmem
    rcases mem_append.1 ((greedy_sublist _ after).subset hmem) with hc | ha
    · exact hnew hc
    · exact hcons.1 ha

/-- What was kept before an element, among all that was kept. -/
theorem mem_greedy_before (h : (chosen ++ (before ++ a :: after)).Nodup) {x : α} :
    x ∈ greedy ok chosen before ↔
      x ∈ greedy ok chosen (before ++ a :: after) ∧ (x ∈ chosen ∨ x ∈ before) := by
  have hnodup := nodup_append.1 h
  have hrest := nodup_append.1 hnodup.2.1
  constructor
  · intro hx
    refine ⟨?_, mem_append.1 ((greedy_sublist chosen before).subset hx)⟩
    rw [greedy_append]
    exact subset_greedy _ _ hx
  · rintro ⟨hx, hwhere⟩
    rw [greedy_append] at hx
    rcases mem_append.1 ((greedy_sublist _ _).subset hx) with hc | hlater
    · exact hc
    · rcases hwhere with hc | hb
      · exact absurd rfl (hnodup.2.2 x hc x (mem_append_right _ hlater))
      · exact absurd rfl (hrest.2.2 x hb x hlater)

end Greedy

/-! ### Profiles that pass the checks -/

variable {u : Unit} {profile : ServerProfile}

theorem pairwise_of_isChain {α : Type} {key : α → ℕ} {as : List α}
    (h : as.IsChain fun a b => key a < key b) : as.Pairwise fun a b => key a < key b :=
  pairwise_map.1 (isChain_iff_pairwise.1 ((isChain_map key).2 h))

theorem validateAvailableFrom_sorted {features : List AvailableFeature} {previous : Option UInt32}
    (h : validateAvailableFrom previous features = .ok u) :
    (∀ f ∈ features.head?, ∀ p ∈ previous, p.toNat < f.id.toNat) ∧
      features.IsChain fun f g => f.id.toNat < g.id.toNat := by
  induction features generalizing previous with
  | nil => simp
  | cons f features ih =>
    simp only [validateAvailableFrom, run_eq_ok, not_or, Option.any_eq_true, not_exists, not_and,
      decide_eq_true_eq, UInt32.not_le] at h
    obtain ⟨⟨-, hprev⟩, hrest⟩ := h
    obtain ⟨hlt, hsorted⟩ := ih hrest
    refine ⟨?_, isChain_cons.2 ⟨fun g hg => hlt g hg f.id rfl, hsorted⟩⟩
    rintro _ ⟨⟩ p hp
    exact hprev p hp

theorem validateVersionsFrom_sorted {versions : List MinorVersionProfile} {previous : Option UInt16}
    (h : validateVersionsFrom previous versions = .ok u) :
    (∀ v ∈ versions.head?, ∀ p ∈ previous, p.toNat < v.minor.toNat) ∧
      versions.IsChain fun v w => v.minor.toNat < w.minor.toNat := by
  induction versions generalizing previous with
  | nil => simp
  | cons v versions ih =>
    simp only [validateVersionsFrom, run_eq_ok, not_or, Option.any_eq_true, not_exists, not_and,
      decide_eq_true_eq, not_not, checkedAdd_eq_some] at h
    obtain ⟨⟨-, hprev⟩, hrest⟩ := h
    obtain ⟨hlt, hsorted⟩ := ih hrest
    refine ⟨?_, isChain_cons.2 ⟨fun w hw => hlt w hw v.minor rfl, hsorted⟩⟩
    rintro _ ⟨⟩ p hp
    have := (hprev p hp).2
    omega

/-- What a profile that passes the checks has. -/
structure ValidProfile (profile : ServerProfile) : Prop where
  major : profile.protocolMajor ≠ 0
  generation : profile.serviceGeneration ≠ 0
  body : profile.serverLimits.maxBodyBytes ≠ 0 ∧ profile.transportLimits.maxBodyBytes ≠ 0 ∧
    profile.protocolLimits.maxBodyBytes ≠ 0
  outstanding : profile.serverLimits.maxOutstanding ≠ 0 ∧
    profile.transportLimits.maxOutstanding ≠ 0 ∧ profile.protocolLimits.maxOutstanding ≠ 0
  nonempty : profile.versions ≠ []
  versions : profile.versions.Pairwise fun v w => v.minor.toNat < w.minor.toNat
  features : profile.availableFeatures.Pairwise fun f g => f.id.toNat < g.id.toNat
  validFeatures : validateAvailableFeatures profile.availableFeatures = .ok ()

theorem validProfile_of_validateProfile (h : validateProfile profile = .ok u) : ValidProfile profile := by
  simp only [validateProfile, run_eq_ok, not_or] at h
  obtain ⟨hmajor, ⟨hsb, hso, htb, hto, hpb, hpo, hgen, hempty⟩, _, hversions, _, hfeatures, -⟩ := h
  exact
    { major := hmajor
      generation := hgen
      body := ⟨hsb, htb, hpb⟩
      outstanding := ⟨hso, hto, hpo⟩
      nonempty := by simpa using hempty
      versions := pairwise_of_isChain (validateVersionsFrom_sorted hversions).2
      features := pairwise_of_isChain (validateAvailableFrom_sorted hfeatures).2
      validFeatures := hfeatures }

/-- The search for a feature of a sorted list. -/
theorem featureProfile_eq_some {features : List AvailableFeature}
    (hs : features.Pairwise fun f g => f.id.toNat < g.id.toNat) {id : UInt32} {f : AvailableFeature} :
    featureProfile features id = some f ↔ f ∈ features ∧ f.id = id := by
  rw [featureProfile, bind_binarySearchByKey hs, UInt32.toNat_inj]

/-- The feature is offered at the minor. -/
def Available (profile : ServerProfile) (minor : UInt16) (id : UInt32) : Prop :=
  ∃ f ∈ profile.availableFeatures, f.id = id ∧ f.sinceMinor ≤ minor

theorem isNone_featureProfileAtMinor (h : ValidProfile profile) {id : UInt32} {minor : UInt16} :
    (featureProfileAtMinor profile id minor).isNone = true ↔ ¬ Available profile minor id := by
  rw [Option.isNone_iff_eq_none, featureProfileAtMinor, Option.filter_eq_none_iff]
  constructor
  · rintro hnone ⟨f, hf, rfl, hsince⟩
    exact hnone f ((featureProfile_eq_some h.features).2 ⟨hf, rfl⟩) (by simpa using hsince)
  · intro hav f hf hsince
    obtain ⟨hmem, hid⟩ := (featureProfile_eq_some h.features).1 hf
    exact hav ⟨f, hmem, hid, by simpa using hsince⟩

/-! ### The loops over the features -/

instance (profile : ServerProfile) (minor : UInt16) (id : UInt32) : Decidable (Available profile minor id) :=
  inferInstanceAs (Decidable (∃ f ∈ profile.availableFeatures, _))

variable (ids : List UInt32)

/-- The set of identifiers in a list, as the membership test a validator is given. -/
def idSet (id : UInt32) : Bool := decide (id ∈ ids)

theorem recordsContain_enabled : recordsContain (ids.map FeatureRecord.enabled) = idSet ids := by
  funext id
  rw [Bool.eq_iff_iff, recordsContain, idSet, any_map, any_eq_true, decide_eq_true_eq]
  constructor
  · rintro ⟨x, hx, heq⟩
    exact of_decide_eq_true heq ▸ hx
  · intro h
    exact ⟨id, h, decide_eq_true rfl⟩

theorem recordsContainWith_enabled (extra : UInt32) :
    recordsContainWith (ids.map FeatureRecord.enabled) extra = idSet (extra :: ids) := by
  funext id
  simp [recordsContainWith, recordsContain_enabled, idSet]

/-- The first `ids.length` places of the slice hold the features `ids`. -/
def Holds (selected : List FeatureRecord) (ids : List UInt32) : Prop :=
  selected.take ids.length = ids.map FeatureRecord.enabled

theorem putFeature_holds {selected : List FeatureRecord} {ids : List UInt32} (h : Holds selected ids)
    (hlen : ids.length < selected.length) (id : UInt32) :
    ∃ selected', putFeature selected ids.length id = .ok selected' ∧
      selected'.length = selected.length ∧ Holds selected' (ids ++ [id]) := by
  refine ⟨_, if_pos hlen, by simp, ?_⟩
  rw [Holds, length_append, length_singleton, map_append, ← h,
    take_succ_eq_append_getElem (by simpa using hlen), take_set_of_le (Nat.le_refl _)]
  simp

section Loops

variable {profile : ServerProfile} (hp : ValidProfile profile) (minor : UInt16)

include hp

/-- The loop over the required features. -/
theorem collectRequired_eq {requested selected : List FeatureRecord} {ids : List UInt32}
    (available : Bool) (h : Holds selected ids) (hlen : ids.length + requested.length ≤ selected.length) :
    ∃ selected' ids', collectRequired profile minor requested selected ids.length available =
        .ok (selected', ids'.length, available && decide (∀ r ∈ requested, Available profile minor r.id)) ∧
      selected'.length = selected.length ∧ Holds selected' ids' ∧
      ((∀ r ∈ requested, Available profile minor r.id) → ids' = ids ++ requested.map (·.id)) := by
  induction requested generalizing selected ids available with
  | nil => exact ⟨selected, ids, by simp [collectRequired], rfl, h, by simp⟩
  | cons r requested ih =>
    simp only [length_cons] at hlen
    rw [collectRequired]
    by_cases hr : Available profile minor r.id
    · rw [if_neg (by rw [isNone_featureProfileAtMinor hp]; exact not_not.2 hr)]
      obtain ⟨selected1, hput, hlen1, hholds1⟩ := putFeature_holds h (by omega) r.id
      obtain ⟨selected', ids', hrun, hl', hholds', hall⟩ := ih available hholds1
        (by rw [hlen1]; simp; omega)
      rw [length_append, length_singleton] at hrun
      refine ⟨selected', ids', ?_, hl'.trans hlen1, hholds', fun hav => ?_⟩
      · rw [hput, ok_bind, hrun]
        simp [hr]
      · rw [hall fun s hs => hav s (mem_cons_of_mem _ hs)]
        simp
    · rw [if_pos (by rw [isNone_featureProfileAtMinor hp]; exact hr)]
      obtain ⟨selected', ids', hrun, hl', hholds', hall⟩ := ih false h (by omega)
      refine ⟨selected', ids', ?_, hl', hholds', fun hav => absurd (hav r mem_cons_self) hr⟩
      rw [hrun]
      simp [hr]

variable (limits : ConnectionLimits)

/-- What makes an optional feature eligible, given the features kept before it. -/
def Eligible (profile : ServerProfile) (minor : UInt16) (limits : ConnectionLimits) (id : UInt32)
    (kept : List UInt32) : Bool :=
  decide (Available profile minor id) && profile.featureSetFits minor (idSet (id :: kept)) limits

/-- The loop over the optional features. -/
theorem admitOptional_eq {requested selected : List FeatureRecord} {ids : List UInt32}
    (h : Holds selected ids) (hlen : ids.length + requested.length ≤ selected.length) :
    ∃ selected', admitOptional profile minor limits requested selected ids.length =
        .ok (selected', (greedy (Eligible profile minor limits) ids (requested.map (·.id))).length) ∧
      selected'.length = selected.length ∧
        Holds selected' (greedy (Eligible profile minor limits) ids (requested.map (·.id))) := by
  induction requested generalizing selected ids with
  | nil => exact ⟨selected, rfl, rfl, h⟩
  | cons r requested ih =>
    simp only [length_cons] at hlen
    rw [admitOptional, map_cons, greedy, h, recordsContainWith_enabled]
    by_cases hr : Available profile minor r.id
    · rw [if_neg (by rw [isNone_featureProfileAtMinor hp]; exact not_not.2 hr)]
      by_cases hfits : profile.featureSetFits minor (idSet (r.id :: ids)) limits = true
      · have hok : Eligible profile minor limits r.id ids = true := by simp [Eligible, hr, hfits]
        obtain ⟨selected1, hput, hlen1, hholds1⟩ := putFeature_holds h (by omega) r.id
        obtain ⟨selected', hrun, hl', hholds'⟩ := ih hholds1 (by rw [hlen1]; simp; omega)
        rw [length_append, length_singleton] at hrun
        rw [if_neg (by simp [hfits]), if_pos hok, hput, ok_bind, hrun]
        exact ⟨selected', rfl, hl'.trans hlen1, hholds'⟩
      · have hok : Eligible profile minor limits r.id ids = false := by simp [Eligible, hfits]
        rw [if_pos (by simpa using hfits), hok]
        exact ih h (by omega)
    · have hok : Eligible profile minor limits r.id ids = false := by simp [Eligible, hr]
      rw [if_pos (by rw [isNone_featureProfileAtMinor hp]; exact hr), hok]
      exact ih h (by omega)

end Loops

/-! ### The search for a minor -/

variable (request : DecodedNegotiationRequest)

def requiredIds : List UInt32 :=
  (request.features.records.filter (·.isRequired)).map (·.id)

def optionalIds : List UInt32 :=
  (request.features.records.filter (!·.isRequired)).map (·.id)

section Search

variable (request : DecodedNegotiationRequest) (profile : ServerProfile) (limits : ConnectionLimits)

/-- The minimum of the version fits, and the required features are available and fit together. -/
def Passes (version : MinorVersionProfile) : Prop :=
  version.minimumBodyBytes ≤ limits.maxBodyBytes ∧ version.minimumHandles ≤ limits.maxHandles ∧
    (∀ id ∈ requiredIds request, Available profile version.minor id) ∧
      profile.featureSetFits version.minor (idSet (requiredIds request)) limits = true

instance (version : MinorVersionProfile) : Decidable (Passes request profile limits version) :=
  inferInstanceAs (Decidable (_ ∧ _))

/-- The features that are selected at a minor. -/
def selection (minor : UInt16) : List UInt32 :=
  greedy (Eligible profile minor limits) (requiredIds request) (optionalIds request)

variable {request profile limits}

/-- **The search finds the first version that passes**, and leaves the selected features at the start of
the slice. -/
theorem searchMinor_eq (hp : ValidProfile profile) {versions : List MinorVersionProfile}
    {search : MinorSearch} (hnone : search.selectedMinor = none)
    (hlen : request.features.records.length ≤ search.selectedFeatures.length) :
    ∃ search', searchMinor request profile limits versions search = .ok search' ∧
      match versions.find? fun v => decide (Passes request profile limits v) with
      | none => search'.selectedMinor = none
      | some v => search'.selectedMinor = some (v.minor, (selection request profile limits v.minor).length) ∧
          Holds search'.selectedFeatures (selection request profile limits v.minor) := by
  have hcount := request.features.records.length_eq_length_filter_add (·.isRequired)
  induction versions generalizing search with
  | nil => exact ⟨search, rfl, hnone⟩
  | cons v versions ih =>
    rw [searchMinor]
    by_cases hbounds : limits.maxBodyBytes < v.minimumBodyBytes ∨ limits.maxHandles < v.minimumHandles
    · -- the minimum of the version does not fit
      have hfail : ¬ Passes request profile limits v := by
        rintro ⟨hb, hh, -⟩
        rcases hbounds with h | h
        · exact absurd h (UInt32.not_lt.2 hb)
        · exact absurd h (UInt16.not_lt.2 hh)
      rw [if_pos hbounds, find?_cons_of_neg (by simpa using hfail)]
      exact ih hnone hlen
    · rw [if_neg hbounds]
      rw [not_or, UInt32.not_lt, UInt16.not_lt] at hbounds
      have hstart : Holds search.selectedFeatures [] := rfl
      have hroom : ([] : List UInt32).length + (request.features.records.filter
          (·.isRequired)).length ≤ search.selectedFeatures.length := by
        rw [length_nil]
        omega
      obtain ⟨selected1, ids1, hrun, hlen1, hholds1, hall⟩ := collectRequired_eq hp v.minor true hstart hroom
      simp only [length_nil, Bool.true_and] at hrun
      simp only [hrun, ok_bind]
      by_cases hav : ∀ r ∈ request.features.records.filter (·.isRequired), Available profile v.minor r.id
      · -- the required features are at slice
        have hids : ids1 = requiredIds request := hall hav
        subst hids
        rw [if_neg (by rw [decide_eq_true hav]; simp), hholds1, recordsContain_enabled]
        by_cases hfits : profile.featureSetFits v.minor (idSet (requiredIds request)) limits = true
        · have hpass : Passes request profile limits v :=
            ⟨hbounds.1, hbounds.2, forall_mem_map.2 hav, hfits⟩
          rw [if_neg (by simp [hfits]), find?_cons_of_pos (by simpa using hpass)]
          have hroom2 : (requiredIds request).length + (request.features.records.filter
              (!·.isRequired)).length ≤ selected1.length := by
            rw [requiredIds, length_map]
            omega
          obtain ⟨selected2, hrun2, hlen2, hholds2⟩ :=
            admitOptional_eq hp v.minor limits hholds1 hroom2
          simp only [hrun2]
          exact ⟨_, rfl, rfl, hholds2⟩
        · have hfail : ¬ Passes request profile limits v := fun h => hfits h.2.2.2
          rw [if_pos (by simpa using hfits), find?_cons_of_neg (by simpa using hfail)]
          exact ih hnone (by rw [hlen1]; exact hlen)
      · have hfail : ¬ Passes request profile limits v := fun h =>
          hav (forall_mem_map.1 h.2.2.1)
        rw [if_pos (decide_eq_false hav), find?_cons_of_neg (by simpa using hfail)]
        exact ih hnone (by rw [hlen1]; exact hlen)

end Search

/-! ### What a decoded request has -/

theorem NegotiationRequest.decode_valid {input : List UInt8} {request : DecodedNegotiationRequest}
    (h : NegotiationRequest.decode input = .ok request) : validateRequestRoot request.root = .ok () ∧
      validateFeatureRecords request.features.records .request = .ok () ∧
        8 * request.features.records.length < 2 ^ 32 := by
  have hencode := NegotiationRequest.canonical.encode_decode h
    (show input.length ≤ (replicate input.length 0).length by simp)
  obtain ⟨hroot, hfeatures, hsmall, -⟩ := NegotiationRequest.encode_eq_ok.1 hencode
  exact ⟨hroot, hfeatures, hsmall⟩

section Requested

variable {request}

/-- The features of a request come in the order of their identifiers, each once. -/
def SortedRequest (request : DecodedNegotiationRequest) : Prop :=
  request.features.records.Pairwise fun f g => f.id.toNat < g.id.toNat

variable {id : UInt32}

theorem mem_requiredIds :
    id ∈ requiredIds request ↔ ∃ r ∈ request.features.records, r.isRequired = true ∧ r.id = id := by
  simp [requiredIds, and_assoc]

theorem mem_optionalIds :
    id ∈ optionalIds request ↔ ∃ r ∈ request.features.records, r.isRequired = false ∧ r.id = id := by
  simp [optionalIds, and_assoc]

theorem nodup_requested (h : SortedRequest request) : (requiredIds request ++ optionalIds request).Nodup := by
  have hperm := (filter_append_perm (·.isRequired) request.features.records).map (·.id)
  rw [map_append] at hperm
  refine hperm.nodup_iff.2 ?_
  rw [Nodup, pairwise_map]
  exact h.imp fun hlt heq => by
    rw [heq] at hlt
    omega

theorem sorted_optionalIds (h : SortedRequest request) :
    (optionalIds request).Pairwise fun a b => a.toNat < b.toNat := by
  rw [optionalIds, pairwise_map]
  exact h.sublist filter_sublist

variable {profile : ServerProfile} {limits : ConnectionLimits} {minor : UInt16}

theorem nodup_selection (h : SortedRequest request) : (selection request profile limits minor).Nodup :=
  (nodup_requested h).sublist (greedy_sublist _ _)

theorem mem_selection_of_required (h : id ∈ requiredIds request) :
    id ∈ selection request profile limits minor := subset_greedy _ _ h

theorem requested_of_mem_selection (h : id ∈ selection request profile limits minor) :
    ∃ r ∈ request.features.records, r.id = id := by
  rcases mem_append.1 ((greedy_sublist _ _).subset h) with h | h
  · obtain ⟨r, hr, -, rfl⟩ := mem_requiredIds.1 h
    exact ⟨r, hr, rfl⟩
  · obtain ⟨r, hr, -, rfl⟩ := mem_optionalIds.1 h
    exact ⟨r, hr, rfl⟩

/-- An optional feature is selected exactly when it is available and fits with the required features and
the selected ones of a smaller identifier. -/
theorem mem_selection_optional (h : SortedRequest request) (hid : id ∈ optionalIds request) :
    id ∈ selection request profile limits minor ↔ Available profile minor id ∧
      profile.featureSetFits minor (fun i => decide (i = id ∨
        i ∈ selection request profile limits minor ∧ (i ∈ requiredIds request ∨ i < id))) limits = true := by
  obtain ⟨before, after, hsplit⟩ := append_of_mem hid
  have hnodup := nodup_requested h
  have hsorted := sorted_optionalIds h
  rw [hsplit] at hnodup hsorted
  have hbefore : ∀ i ∈ before, i < id := fun i hi =>
    (pairwise_append.1 hsorted).2.2 i hi id mem_cons_self
  have hafter : ∀ i ∈ after, id.toNat < i.toNat := (pairwise_cons.1 (pairwise_append.1 hsorted).2.1).1
  -- the features kept before `id` are the selected ones that are required or smaller
  have hset : idSet (id :: greedy (Eligible profile minor limits) (requiredIds request) before) =
      fun i => decide (i = id ∨ i ∈ selection request profile limits minor ∧
        (i ∈ requiredIds request ∨ i < id)) := by
    funext i
    rw [idSet, decide_eq_decide, mem_cons, mem_greedy_before hnodup, selection, hsplit]
    refine or_congr_right (and_congr_right fun hi => or_congr_right' fun hreq => ?_)
    refine ⟨hbefore i, fun hlt => ?_⟩
    rcases mem_append.1 ((greedy_sublist _ _).subset hi) with hr | ho
    · exact absurd hr hreq
    · rcases mem_append.1 ho with hb | ha
      · exact hb
      · rcases mem_cons.1 ha with rfl | ha
        · exact absurd hlt (UInt32.lt_irrefl _)
        · have h1 := hafter i ha
          have h2 : i.toNat < id.toNat := hlt
          omega
  rw [← hset]
  conv_lhs => rw [selection, hsplit, mem_greedy_iff hnodup]
  simp [Eligible]

end Requested

/-! ### The slice after the selection -/

/-- The selected features in the order of their identifiers. -/
theorem sortFeatures_take {selected : List FeatureRecord} {ids : List UInt32} (h : Holds selected ids)
    (hnodup : ids.Nodup) :
    ((sortFeatures selected ids.length).take ids.length).Perm (ids.map FeatureRecord.enabled) ∧
      ((sortFeatures selected ids.length).take ids.length).Pairwise fun f g => f.id < g.id := by
  have htake : (sortFeatures selected ids.length).take ids.length =
      (ids.map FeatureRecord.enabled).insertionSort fun a b => a.id.toNat ≤ b.id.toNat := by
    rw [sortFeatures, h]
    exact take_left' (by rw [length_insertionSort, length_map])
  rw [htake]
  have hperm := perm_insertionSort (fun a b : FeatureRecord => a.id.toNat ≤ b.id.toNat)
    (ids.map FeatureRecord.enabled)
  refine ⟨hperm, ?_⟩
  have hsorted := pairwise_insertionSort (fun a b : FeatureRecord => a.id.toNat ≤ b.id.toNat)
    (ids.map FeatureRecord.enabled)
  have hdistinct : ((ids.map FeatureRecord.enabled).insertionSort
      fun a b => a.id.toNat ≤ b.id.toNat).Pairwise fun f g => f.id ≠ g.id := by
    refine (hperm.pairwise_iff Ne.symm).2 ?_
    rw [pairwise_map]
    exact hnodup
  refine hsorted.imp₂ (fun f g hle hne => ?_) hdistinct
  have : f.id.toNat ≠ g.id.toNat := fun heq => hne (UInt32.toNat_inj.1 heq)
  exact UInt32.lt_iff_toNat_lt.2 (by omega)

/-! ### Limits and ranges -/

theorem componentMin_le {a b c : ConnectionLimits}
    (h : a.maxBodyBytes ≤ c.maxBodyBytes ∧ a.maxHandles ≤ c.maxHandles ∧
      a.maxOutstanding ≤ c.maxOutstanding) :
    (a.componentMin b).maxBodyBytes ≤ c.maxBodyBytes ∧ (a.componentMin b).maxHandles ≤ c.maxHandles ∧
      (a.componentMin b).maxOutstanding ≤ c.maxOutstanding := by
  simp only [ConnectionLimits.componentMin]
  grind

theorem componentMin_ne_zero {a b : ConnectionLimits}
    (ha : a.maxBodyBytes ≠ 0 ∧ a.maxOutstanding ≠ 0) (hb : b.maxBodyBytes ≠ 0 ∧ b.maxOutstanding ≠ 0) :
    (a.componentMin b).maxBodyBytes ≠ 0 ∧ (a.componentMin b).maxOutstanding ≠ 0 := by
  simp only [ConnectionLimits.componentMin]
  grind

theorem negotiatedLimits_le (request : NegotiationRequest) (profile : ServerProfile) :
    (negotiatedLimits request profile).maxBodyBytes ≤ request.maxBodyBytes ∧
      (negotiatedLimits request profile).maxHandles ≤ request.maxHandles ∧
        (negotiatedLimits request profile).maxOutstanding ≤ request.maxOutstanding :=
  componentMin_le (c := ⟨request.maxBodyBytes, request.maxHandles, request.maxOutstanding⟩)
    (componentMin_le (componentMin_le ⟨UInt32.le_refl _, UInt16.le_refl _, UInt16.le_refl _⟩))

theorem negotiatedLimits_ne_zero {request : NegotiationRequest}
    (hr : validateRequestRoot request = .ok u) (hp : ValidProfile profile) :
    (negotiatedLimits request profile).maxBodyBytes ≠ 0 ∧
      (negotiatedLimits request profile).maxOutstanding ≠ 0 := by
  simp only [validateRequestRoot, run_eq_ok, not_or] at hr
  exact componentMin_ne_zero (componentMin_ne_zero (componentMin_ne_zero hr.2.2
    ⟨hp.body.1, hp.outstanding.1⟩) ⟨hp.body.2.1, hp.outstanding.2.1⟩)
      ⟨hp.body.2.2, hp.outstanding.2.2⟩

/-- The first and the last minor of a profile bound its minors. -/
theorem exists_minors (hp : ValidProfile profile) :
    ∃ lo hi, firstMinor profile.versions = .ok lo ∧ lastMinor profile.versions = .ok hi ∧
      ∀ v ∈ profile.versions, lo ≤ v.minor ∧ v.minor ≤ hi := by
  have hne := hp.nonempty
  have hsorted := hp.versions
  refine ⟨(profile.versions.head hne).minor, (profile.versions.getLast hne).minor, ?_, ?_, ?_⟩
  · rw [firstMinor, head?_eq_some_head hne]
  · rw [lastMinor, getLast?_eq_some_getLast hne]
  · intro v hv
    rw [UInt16.le_iff_toNat_le, UInt16.le_iff_toNat_le]
    constructor
    · obtain ⟨w, ws, hw⟩ := exists_cons_of_ne_nil hne
      simp only [hw] at hv hsorted ⊢
      rcases mem_cons.1 hv with rfl | hv
      · exact Nat.le_refl _
      · exact ((pairwise_cons.1 hsorted).1 v hv).le
    · have hsplit := dropLast_append_getLast hne
      rw [← hsplit] at hv hsorted
      rcases mem_append.1 hv with hv | hv
      · exact ((pairwise_append.1 hsorted).2.2 v hv _ (by simp)).le
      · rw [mem_singleton.1 hv]

/-! ### The result -/

/-- The minor can be selected: it lies in both ranges, its minimum fits the limits of the connection, and
the required features are available at it and fit together. -/
structure Acceptable (request : DecodedNegotiationRequest) (profile : ServerProfile) (minor : UInt16) :
    Prop where
  requested : request.root.minMinor ≤ minor ∧ minor ≤ request.root.maxMinor
  offered : ∃ v ∈ profile.versions, v.minor = minor ∧
    v.minimumBodyBytes ≤ (negotiatedLimits request.root profile).maxBodyBytes ∧
      v.minimumHandles ≤ (negotiatedLimits request.root profile).maxHandles
  available : ∀ r ∈ request.features.records, r.isRequired = true → Available profile minor r.id
  fits : profile.featureSetFits minor (fun id => decide (∃ r ∈ request.features.records,
    r.isRequired = true ∧ r.id = id)) (negotiatedLimits request.root profile) = true

/-- What both ends can rely on after a successful negotiation. -/
structure Agreed (request : DecodedNegotiationRequest) (profile : ServerProfile)
    (response : NegotiationResponse) (features : List FeatureRecord) : Prop where
  /-- The selected minor is acceptable. -/
  acceptable : Acceptable request profile response.selectedMinor
  /-- No acceptable minor is higher. -/
  highest : ∀ minor, Acceptable request profile minor → minor ≤ response.selectedMinor
  limits : (⟨response.maxBodyBytes, response.maxHandles, response.maxOutstanding⟩ : ConnectionLimits) =
    negotiatedLimits request.root profile
  sorted : features.Pairwise fun f g => f.id < g.id
  requested : ∀ f ∈ features, ∃ r ∈ request.features.records, r.id = f.id
  required : ∀ r ∈ request.features.records, r.isRequired = true → ∃ f ∈ features, f.id = r.id
  /-- An optional feature is selected exactly when it is available and fits with the required features and
  the selected ones before it. -/
  greedy : ∀ r ∈ request.features.records, r.isRequired = false →
    ((∃ f ∈ features, f.id = r.id) ↔ Available profile response.selectedMinor r.id ∧
      profile.featureSetFits response.selectedMinor (fun i => decide (i = r.id ∨
        (∃ f ∈ features, f.id = i) ∧ ((∃ q ∈ request.features.records, q.isRequired = true ∧ q.id = i) ∨
          i < r.id))) (negotiatedLimits request.root profile) = true)
  /-- The response is read as it was written, and the client accepts it when it knows every feature that
  it asked for. -/
  agreed : ∀ output : List UInt8, negotiateResponseRootBytes + 8 * features.length ≤ output.length →
    ∃ out decoded, response.encode features output =
        .ok (negotiateResponseRootBytes + 8 * features.length, out) ∧
      NegotiationResponse.decode (out.take (negotiateResponseRootBytes + 8 * features.length)) =
        .ok decoded ∧ decoded.root = response ∧ decoded.features.records = features ∧
      ((∀ r ∈ request.features.records, ∃ a ∈ profile.availableFeatures, a.id = r.id) →
        decoded.validateAgainst request profile.availableFeatures profile.featureSetFits = .ok ())

section Result

variable {request} {profile : ServerProfile} {v : MinorVersionProfile}

theorem mem_commonVersions : v ∈ commonVersions request profile ↔
    v ∈ profile.versions ∧ request.root.minMinor ≤ v.minor ∧ v.minor ≤ request.root.maxMinor := by
  simp [commonVersions]

/-- The first of the common versions that passes within the limits of the connection. -/
def firstPassing (request : DecodedNegotiationRequest) (profile : ServerProfile) :
    Option MinorVersionProfile :=
  (commonVersions request profile).find? fun v =>
    decide (Passes request profile (negotiatedLimits request.root profile) v)

/-- The features that are selected at a minor within the limits of the connection. -/
def selectedIds (request : DecodedNegotiationRequest) (profile : ServerProfile) (minor : UInt16) :
    List UInt32 :=
  selection request profile (negotiatedLimits request.root profile) minor

theorem acceptable_iff {minor : UInt16} : Acceptable request profile minor ↔
    ∃ v ∈ commonVersions request profile, v.minor = minor ∧
      Passes request profile (negotiatedLimits request.root profile) v := by
  have hset : idSet (requiredIds request) = fun id => decide (∃ r ∈ request.features.records,
      r.isRequired = true ∧ r.id = id) := by
    funext id
    rw [idSet, decide_eq_decide, mem_requiredIds]
  constructor
  · rintro ⟨hrange, ⟨v, hv, rfl, hbody, hhandles⟩, hav, hfits⟩
    refine ⟨v, mem_commonVersions.2 ⟨hv, hrange⟩, rfl, hbody, hhandles, fun id hid => ?_, ?_⟩
    · obtain ⟨r, hr, hreq, rfl⟩ := mem_requiredIds.1 hid
      exact hav r hr hreq
    · rw [hset]
      exact hfits
  · rintro ⟨v, hv, rfl, hbody, hhandles, hav, hfits⟩
    obtain ⟨hv, hrange⟩ := mem_commonVersions.1 hv
    refine ⟨hrange, ⟨v, hv, rfl, hbody, hhandles⟩, fun r hr hreq => ?_, ?_⟩
    · exact hav r.id (mem_requiredIds.2 ⟨r, hr, hreq, rfl⟩)
    · rw [← hset]
      exact hfits

/-- The first version that passes is the highest one. -/
theorem highest_of_find (hp : ValidProfile profile)
    (hfind : firstPassing request profile = some v) : Acceptable request profile v.minor ∧
    ∀ minor, Acceptable request profile minor → minor ≤ v.minor := by
  obtain ⟨hpass, before, after, hsplit, hbefore⟩ := find?_eq_some_iff_append.1 hfind
  have hdesc : (commonVersions request profile).Pairwise fun v w => w.minor.toNat < v.minor.toNat :=
    (pairwise_reverse.2 hp.versions).filter _
  refine ⟨acceptable_iff.2 ⟨v, mem_of_find?_eq_some hfind, rfl, of_decide_eq_true hpass⟩, ?_⟩
  intro minor hminor
  obtain ⟨w, hw, rfl, hwpass⟩ := acceptable_iff.1 hminor
  rw [hsplit] at hw hdesc
  rcases mem_append.1 hw with hw | hw
  · exact absurd (decide_eq_true hwpass) (by simpa using hbefore w hw)
  · rcases mem_cons.1 hw with rfl | hw
    · exact UInt16.le_refl _
    · have := (pairwise_cons.1 (pairwise_append.1 hdesc).2.1).1 w hw
      exact UInt16.le_iff_toNat_le.2 this.le

theorem failureStatus_ne_ok (search : MinorSearch) : failureStatus request search ≠ .ok := by
  unfold failureStatus
  split
  · simp
  · split
    · simp
    · split <;> simp

/-- What a successful negotiation returns: the features are at the start of the slice that the search
leaves. -/
theorem negotiate_eq (hprofile : validateProfile profile = .ok ()) {scratch : List FeatureRecord}
    (hlen : request.features.records.length ≤ scratch.length) {lo hi : UInt16}
    (hlo : firstMinor profile.versions = .ok lo) (hhi : lastMinor profile.versions = .ok hi) :
    ∃ selected, (∀ v, firstPassing request profile = some v →
        Holds selected (selectedIds request profile v.minor)) ∧ ∀ outcome slice,
        negotiate request profile scratch = .ok (outcome, slice) ∧ outcome.response.status = .ok ↔
          (request.root.maxHandles ≤ profile.transportLimits.maxHandles ∧
            request.root.protocolId = profile.protocolId ∧
            request.root.protocolMajor = profile.protocolMajor) ∧ ∃ v, firstPassing request profile = some v ∧
            outcome = successOutcome request.root profile lo hi v.minor
              (selectedIds request profile v.minor).length ∧
            slice = sortFeatures selected (selectedIds request profile v.minor).length := by
  have hp := validProfile_of_validateProfile hprofile
  obtain ⟨search, hsearch, hfound⟩ : ∃ search, searchMinor request profile
      (negotiatedLimits request.root profile) (commonVersions request profile)
      ⟨scratch, false, false, none⟩ = .ok search ∧ _ := searchMinor_eq hp rfl hlen
  rw [← firstPassing] at hfound
  refine ⟨search.selectedFeatures, fun v hv => ?_, fun outcome slice => ?_⟩
  · rw [hv] at hfound
    exact hfound.2
  unfold negotiate
  rw [hprofile, hlo, hhi]
  simp only [ok_bind, run_eq_ok, UInt16.not_lt]
  by_cases hid : request.root.protocolId = profile.protocolId
  case neg =>
    simp only [ne_eq, hid, false_and, and_false, iff_false]
    rintro ⟨⟨-, rfl, -⟩, hstatus⟩
    cases hstatus
  case pos =>
    by_cases hmajor : request.root.protocolMajor = profile.protocolMajor
    case neg =>
      simp only [ne_eq, hid, hmajor, false_and, and_false, iff_false]
      rintro ⟨⟨-, rfl, -⟩, hstatus⟩
      cases hstatus
    case pos =>
      simp only [ne_eq, hid, hmajor, not_true_eq_false, if_false, hsearch, ok_bind, and_true]
      cases hfind : firstPassing request profile with
      | none =>
        rw [hfind] at hfound
        simp only [hfound, reduceCtorEq, false_and, exists_false, and_false, iff_false]
        rintro ⟨⟨-, rfl, -⟩, hstatus⟩
        exact failureStatus_ne_ok search hstatus
      | some v =>
        rw [hfind] at hfound
        simp only [hfound.1, return_eq_ok, Prod.mk.injEq]
        constructor
        · rintro ⟨⟨hhandles, rfl, rfl⟩, -⟩
          exact ⟨hhandles, v, rfl, rfl, rfl⟩
        · rintro ⟨hhandles, w, ⟨⟩, rfl, rfl⟩
          exact ⟨⟨hhandles, rfl, rfl⟩, rfl⟩

/-- What was kept fits together, and is available. -/
theorem greedy_fits {minor : UInt16} {limits : ConnectionLimits} {kept ids : List UInt32}
    (hfits : profile.featureSetFits minor (idSet kept) limits = true)
    (hav : ∀ id ∈ kept, Available profile minor id) :
    profile.featureSetFits minor (idSet (greedy (Eligible profile minor limits) kept ids)) limits =
        true ∧ ∀ id ∈ greedy (Eligible profile minor limits) kept ids, Available profile minor id := by
  induction ids generalizing kept with
  | nil => exact ⟨hfits, hav⟩
  | cons id ids ih =>
    rw [greedy]
    split
    case isFalse => exact ih hfits hav
    case isTrue hok =>
      simp only [Eligible, Bool.and_eq_true, decide_eq_true_eq] at hok
      have hset : idSet (kept ++ [id]) = idSet (id :: kept) := by
        funext i
        simp [idSet, or_comm]
      exact ih (by rw [hset]; exact hok.2)
        (forall_mem_append.2 ⟨hav, forall_mem_singleton.2 hok.1⟩)

variable {lo hi minor : UInt16} {count : ℕ}

theorem validateResponseRoot_success {u : Unit} (hr : validateRequestRoot request.root = .ok u)
    (hp : ValidProfile profile) (hlo : lo ≤ minor) (hhi : minor ≤ hi) (featuresEmpty : Bool) :
    validateResponseRoot (successOutcome request.root profile lo hi minor count).response
      featuresEmpty = .ok () := by
  obtain ⟨hbody, hout⟩ := negotiatedLimits_ne_zero hr hp
  simp only [validateRequestRoot, run_eq_ok] at hr
  have hle : ¬ hi < lo := UInt16.not_lt.2 (UInt16.le_trans hlo hhi)
  have hgen := hp.generation
  refine bind_eq_ok.2 ⟨(), rejectIf_of_not hr.1, bind_eq_ok.2 ⟨(), rejectIf_of_not hle, ?_⟩⟩
  simp [validSuccess, successOutcome, UInt16.not_lt.2 hlo, UInt16.not_lt.2 hhi, hbody, hout, hgen]

/-- The client accepts the answer to a request for features it knows. -/
theorem validateAgainst_success {u : Unit} (hr : validateRequestRoot request.root = .ok u)
    (hp : ValidProfile profile) (hlo : lo ≤ minor) (hhi : minor ≤ hi)
    (hacc : Acceptable request profile minor)
    (hknown : ∀ r ∈ request.features.records, ∃ a ∈ profile.availableFeatures, a.id = r.id)
    {decoded : DecodedNegotiationResponse}
    (hroot : decoded.root = (successOutcome request.root profile lo hi minor count).response)
    (hmem : ∀ id, (∃ f ∈ decoded.features.records, f.id = id) ↔ id ∈ selectedIds request profile minor) :
    decoded.validateAgainst request profile.availableFeatures profile.featureSetFits = .ok () := by
  obtain ⟨v, -, rfl, -, -, hav, hfits⟩ := acceptable_iff.1 hacc
  obtain ⟨hall, hallav⟩ : _ ∧ ∀ id ∈ selectedIds request profile v.minor, _ := greedy_fits hfits hav
  have hcontains : decoded.features.contains = idSet (selectedIds request profile v.minor) := by
    funext id
    rw [Bool.eq_iff_iff, idSet, decide_eq_true_eq, ← hmem]
    simp [FeatureList.contains]
  obtain ⟨hb, hh, ho⟩ := negotiatedLimits_le request.root profile
  have hrange := hacc.requested
  have hprofiles : ∀ r ∈ request.features.records,
      (featureProfile profile.availableFeatures r.id).isNone = false := by
    intro r hmem
    obtain ⟨a, ha, hid⟩ := hknown r hmem
    rw [(featureProfile_eq_some hp.features).2 ⟨ha, hid⟩]
    rfl
  -- the steps of the check, one after the other
  have hrequested : ∀ r ∈ request.features.records, rejectIf
      ((featureProfile profile.availableFeatures r.id).isNone = true)
        NegotiationError.missingFeatureProfile = .ok () := fun r hr =>
    rejectIf_of_not (by rw [hprofiles r hr]; simp)
  have hselected : ∀ f ∈ decoded.features.records,
      checkSelected request profile.availableFeatures v.minor f = .ok () := by
    intro f hf
    have hsel := (hmem f.id).1 ⟨f, hf, rfl⟩
    obtain ⟨r, hr, hid⟩ := requested_of_mem_selection hsel
    obtain ⟨a, ha, haid, hsince⟩ := hallav f.id hsel
    have hin : request.features.contains f.id = true := by
      simp only [FeatureList.contains, any_eq_true, decide_eq_true_eq]
      exact ⟨r, hr, hid⟩
    rw [checkSelected, rejectIf_of_not (by simp [hin]), ok_bind,
      (featureProfile_eq_some hp.features).2 ⟨ha, haid⟩, okOr_some, ok_bind,
      rejectIf_of_not (UInt16.not_lt.2 hsince)]
  have hrequired : ∀ r ∈ request.features.records.filter (·.isRequired), rejectIf
      (decoded.features.contains r.id = false) NegotiationError.missingRequiredFeature = .ok () := by
    intro r hr
    rw [mem_filter] at hr
    have hin : r.id ∈ selectedIds request profile v.minor :=
      mem_selection_of_required (mem_requiredIds.2 ⟨r, hr.1, hr.2, rfl⟩)
    exact rejectIf_of_not (by rw [hcontains]; simp [idSet, hin])
  have hset : ¬ profile.featureSetFits v.minor decoded.features.contains
      (negotiatedLimits request.root profile) = false := by
    rw [hcontains, selectedIds, selection, hall]
    simp
  unfold DecodedNegotiationResponse.validateAgainst
  rw [hroot]
  rw [if_neg (by simp [successOutcome])]
  simp only [run_eq_ok]
  refine ⟨_, validateResponseRoot_success hr hp hlo hhi _, _, hp.validFeatures, ?_, ?_, ?_, _,
    each_eq_ok.2 hrequested, _, each_eq_ok.2 hselected, hset, each_eq_ok.2 hrequired⟩
  · simp [successOutcome]
  · simp [successOutcome, hrange, hlo, hhi]
  · simp [successOutcome, hb, hh, ho]

/-- The outcome of a successful negotiation is agreed. -/
theorem agreed_of_find {input : List UInt8} (hreq : NegotiationRequest.decode input = .ok request)
    (hp : ValidProfile profile) {selected : List FeatureRecord}
    (hrange : ∀ w ∈ profile.versions, lo ≤ w.minor ∧ w.minor ≤ hi)
    (hfind : firstPassing request profile = some v)
    (hholds : Holds selected (selectedIds request profile v.minor)) : Agreed request profile
      (successOutcome request.root profile lo hi v.minor
        (selectedIds request profile v.minor).length).response
      ((sortFeatures selected (selectedIds request profile v.minor).length).take
        (selectedIds request profile v.minor).length) := by
  obtain ⟨hroot, hrecords, hsmall⟩ := NegotiationRequest.decode_valid hreq
  obtain ⟨hvalid, hsortedReq⟩ := validateFeatureRecords_eq_ok.1 hrecords
  have hsorted : SortedRequest request := hsortedReq.imp UInt32.lt_iff_toNat_lt.1
  obtain ⟨hacc, hhighest⟩ := highest_of_find hp hfind
  obtain ⟨hlo, hhi⟩ := hrange v (mem_commonVersions.1 (mem_of_find?_eq_some hfind)).1
  obtain ⟨hperm, hpair⟩ := sortFeatures_take hholds (nodup_selection hsorted)
  generalize hids : selectedIds request profile v.minor = ids at *
  generalize (sortFeatures selected ids.length).take ids.length = features at *
  have hlength : features.length = ids.length := by simpa using hperm.length_eq
  have hmem : ∀ id, (∃ f ∈ features, f.id = id) ↔ id ∈ ids := by
    intro id
    constructor
    · rintro ⟨f, hf, rfl⟩
      obtain ⟨i, hi, rfl⟩ := mem_map.1 (hperm.mem_iff.1 hf)
      exact hi
    · intro h
      exact ⟨.enabled id, hperm.mem_iff.2 (mem_map_of_mem h), rfl⟩
  have hrequested : ∀ id ∈ ids, ∃ r ∈ request.features.records, r.id = id := by
    intro id h
    rw [← hids] at h
    exact requested_of_mem_selection h
  constructor
  case acceptable => exact hacc
  case highest => exact hhighest
  case limits => rfl
  case sorted => exact hpair
  case requested => exact fun f hf => hrequested f.id ((hmem f.id).1 ⟨f, hf, rfl⟩)
  case required =>
    intro r hr hrequired
    rw [hmem, ← hids]
    exact mem_selection_of_required (mem_requiredIds.2 ⟨r, hr, hrequired, rfl⟩)
  case greedy =>
    intro r hr hoptional
    have hopt : r.id ∈ selectedIds request profile v.minor ↔ _ :=
      mem_selection_optional hsorted (mem_optionalIds.2 ⟨r, hr, hoptional, rfl⟩)
    simp only [mem_requiredIds] at hopt
    rw [← selectedIds, hids] at hopt
    simp only [hmem]
    exact hopt
  case agreed =>
    intro output hout
    have hcount : 8 * features.length < 2 ^ 32 := by
      have hle : ids.length ≤ (requiredIds request ++ optionalIds request).length := by
        rw [← hids]
        exact (greedy_sublist _ _).length_le
      have hreqlen := request.features.records.length_eq_length_filter_add (·.isRequired)
      simp only [requiredIds, optionalIds, length_append, length_map] at hle
      omega
    have hfeatures : validateFeatureRecords features .response = .ok () := by
      refine validateFeatureRecords_eq_ok.2 ⟨fun f hf => ?_, hpair⟩
      obtain ⟨i, hi, rfl⟩ := mem_map.1 (hperm.mem_iff.1 hf)
      obtain ⟨r, hr, hid⟩ := hrequested i hi
      refine ⟨?_, fun _ => rfl⟩
      rw [← hid]
      exact (hvalid r hr).1
    have hencode : (successOutcome request.root profile lo hi v.minor ids.length).response.encode
        features output = .ok (_, _) := NegotiationResponse.encode_eq_ok.2
      ⟨validateResponseRoot_success hroot hp hlo hhi _, hfeatures, hcount, hout, rfl⟩
    obtain ⟨d, hdecode, hsame, hlist⟩ := NegotiationResponse.canonical.decode_encode hencode
    refine ⟨_, _, hencode, hdecode, hsame, hlist, fun hknown => ?_⟩
    refine validateAgainst_success hroot hp hlo hhi hacc hknown hsame ?_
    rw [hids]
    simp only [hlist]
    exact hmem

end Result

/-- **Negotiation is optimal and agreed by both ends.**  Whenever a decoded request is answered with
success, the selected minor is the highest acceptable one, the selected features are the greedy choice, and
the answer is read by the client as it was written; the client accepts it when it knows every
feature that it asked for.  And a request for this protocol that asks for no more handles than the
transport carries is answered with success whenever some minor is acceptable. -/
theorem negotiate_optimal {input : List UInt8} {request : DecodedNegotiationRequest}
    (hreq : NegotiationRequest.decode input = .ok request) {profile : ServerProfile}
    (hprofile : validateProfile profile = .ok ()) {scratch : List FeatureRecord}
    (hlen : request.features.records.length ≤ scratch.length) :
    (∀ outcome slice, negotiate request profile scratch = .ok (outcome, slice) →
      outcome.response.status = .ok →
        Agreed request profile outcome.response (slice.take outcome.featureCount)) ∧
    (request.root.protocolId = profile.protocolId → request.root.protocolMajor = profile.protocolMajor →
        request.root.maxHandles ≤ profile.transportLimits.maxHandles →
          (∃ minor, Acceptable request profile minor) →
            ∃ outcome slice, negotiate request profile scratch = .ok (outcome, slice) ∧
              outcome.response.status = .ok) := by
  have hp := validProfile_of_validateProfile hprofile
  obtain ⟨lo, hi, hlo, hhi, hrange⟩ := exists_minors hp
  obtain ⟨selected, hholds, heq⟩ := negotiate_eq hprofile hlen hlo hhi
  constructor
  · intro outcome slice hrun hstatus
    obtain ⟨-, v, hfind, rfl, rfl⟩ := (heq outcome slice).1 ⟨hrun, hstatus⟩
    exact agreed_of_find hreq hp hrange hfind (hholds v hfind)
  · rintro hid hmajor hhandles ⟨minor, hminor⟩
    obtain ⟨w, hw, -, hpass⟩ := acceptable_iff.1 hminor
    obtain ⟨v, hfind⟩ : ∃ v, firstPassing request profile = some v :=
      Option.isSome_iff_exists.1 (find?_isSome.2 ⟨w, hw, decide_eq_true hpass⟩)
    exact ⟨_, _, (heq _ _).2 ⟨⟨hhandles, hid, hmajor⟩, v, hfind, rfl, rfl⟩⟩

/-! ### A sample connection -/

/-- A server of the sample protocol with the minors 1 and 2, without features. -/
def sampleProfile : ServerProfile where
  protocolId := sampleId
  protocolMajor := 1
  serverLimits := ⟨2048, 4, 8⟩
  transportLimits := ⟨4096, 4, 8⟩
  protocolLimits := ⟨4096, 4, 8⟩
  serviceGeneration := 1
  versions := [⟨1, 64, 0⟩, ⟨2, 64, 0⟩]
  availableFeatures := []
  featureSetFits := fun _ _ _ => true

/-- The sample request with an optional feature. -/
def sampleDecoded : DecodedNegotiationRequest where
  root := sampleRequest
  features := ⟨encodeFeatures [⟨7, .optional⟩] .request, .request⟩

/-- The same request, for more handles than the transport carries. -/
def greedyDecoded : DecodedNegotiationRequest where
  root := { sampleRequest with maxHandles := 5 }
  features := ⟨[], .request⟩

theorem validateProfile_sampleProfile : validateProfile sampleProfile = .ok () := by decide

def requestBytes (request : NegotiationRequest) (fs : List FeatureRecord) : List UInt8 :=
  (render negotiateRequestRootBytes (request.fields fs.length)).1 ++ encodeFeatures fs .request

theorem decode_sampleDecoded :
    NegotiationRequest.decode (requestBytes sampleRequest [⟨7, .optional⟩]) = .ok sampleDecoded := by
  decide +kernel

/-- The sample request without features. -/
def plainDecoded : DecodedNegotiationRequest where
  root := sampleRequest
  features := ⟨[], .request⟩

theorem acceptable_plainDecoded : Acceptable plainDecoded sampleProfile 2 where
  requested := by decide
  offered := ⟨⟨2, 64, 0⟩, by decide, by decide, by decide, by decide⟩
  available := by decide
  fits := rfl

theorem negotiate_optimal_plain :
    ∃ outcome slice, negotiate plainDecoded sampleProfile [] = .ok (outcome, slice) ∧
      Agreed plainDecoded sampleProfile outcome.response (slice.take outcome.featureCount) := by
  have hreq : NegotiationRequest.decode (requestBytes sampleRequest []) = .ok plainDecoded := by
    decide +kernel
  have hlen : plainDecoded.features.records.length ≤ ([] : List FeatureRecord).length := by decide
  obtain ⟨hagreed, hsucceeds⟩ := negotiate_optimal hreq validateProfile_sampleProfile hlen
  obtain ⟨outcome, slice, hrun, hstatus⟩ := hsucceeds rfl rfl (by decide) ⟨2, acceptable_plainDecoded⟩
  exact ⟨outcome, slice, hrun, hagreed outcome slice hrun hstatus⟩

/-- **The client refuses the answer to a request for a feature the server does not know**, although the
answer is a success and all the rest agrees; and a request for more handles than the transport carries is
not answered at all, although a minor is acceptable. -/
theorem negotiate_not_agreed :
    (NegotiationRequest.decode (requestBytes sampleRequest [⟨7, .optional⟩]) = .ok sampleDecoded ∧
      validateProfile sampleProfile = .ok () ∧
      (∃ outcome, negotiate sampleDecoded sampleProfile [.enabled 0] =
          .ok (outcome, [.enabled 0]) ∧ outcome.response.status = .ok ∧ outcome.featureCount = 0 ∧
        DecodedNegotiationResponse.validateAgainst ⟨outcome.response, ⟨[], .response⟩⟩ sampleDecoded
          sampleProfile.availableFeatures sampleProfile.featureSetFits = fail .missingFeatureProfile)) ∧
    (NegotiationRequest.decode (requestBytes { sampleRequest with maxHandles := 5 } []) =
        .ok greedyDecoded ∧ Acceptable greedyDecoded sampleProfile 2 ∧
      negotiate greedyDecoded sampleProfile [] = fail .invalidLimits) := by
  refine ⟨⟨decode_sampleDecoded, validateProfile_sampleProfile,
    successOutcome sampleRequest sampleProfile 1 2 2 0, ?_, rfl, rfl, ?_⟩, ?_, ⟨?_, ?_, ?_, rfl⟩, ?_⟩
  · decide +kernel
  · decide +kernel
  · decide +kernel
  · decide
  · exact ⟨⟨2, 64, 0⟩, by decide, by decide, by decide, by decide⟩
  · decide
  · decide +kernel

end NSWP
