import Mathlib.Data.List.DropRight
import TenantIam.Proofs.Arn.RoundTrip

/-!
# Drafts after many edits

Every part of a draft is what the last edit that sets it has set. Only the mapping takes two edits
into account: the last one that sets or removes it, and the last one after it that names a region.
So edits of different parts can change places, and what a draft makes up is decided by these last
settings alone. Asking for the resource name leaves the draft as it is, whatever the answer.
-/

namespace TenantIam.ArnDraft

/-! ## The last settings -/

namespace Edit

def service? : Edit → Option Service
  | .service s => some (.ofToken s.token)
  | .serviceToken token => some (.ofToken token)
  | _ => none

def tenant? : Edit → Option (List SegmentInput)
  | .tenant path => some (path.segmentTexts.map .text)
  | .rootTenant segment => some [segment]
  | .segments given => some given
  | _ => none

def instanceId? : Edit → Option String
  | .instanceId id => some id
  | _ => none

def resource? : Edit → Option Resource
  | .resource r => some r
  | _ => none

/-- The mapping that an edit sets or removes. -/
def place? : Edit → Option (Option CloudMapping)
  | .account provider accountId => some (some (.of provider accountId none))
  | .regionalAccount provider accountId r => some (some (.of provider accountId (some r)))
  | .mapping m => some (some m.folded)
  | .unmapped => some none
  | _ => none

/-- The region that an edit names for a mapping that is there. -/
def region? : Edit → Option String
  | .region r => some r
  | _ => none

end Edit

variable {α : Type}

/-- What the last of the edits that set something sets. -/
def latest? (set? : Edit → Option α) (edits : List Edit) : Option α :=
  edits.reverse.findSome? set?

@[simp] theorem latest?_nil (set? : Edit → Option α) : latest? set? [] = none := rfl

@[simp] theorem latest?_concat (set? : Edit → Option α) (edits : List Edit) (edit : Edit) :
    latest? set? (edits ++ [edit]) = (set? edit).or (latest? set? edits) := by
  rw [latest?, List.reverse_append, List.reverse_singleton, List.singleton_append,
    List.findSome?_cons]
  cases set? edit <;> rfl

/-- The edits after the last one that sets or removes the mapping. -/
def sincePlaced (edits : List Edit) : List Edit :=
  edits.rtakeWhile (·.place?.isNone)

/-- The mapping that is set last, with the region that is named last after that. -/
def mappingLeft (edits : List Edit) : Option CloudMapping :=
  (latest? Edit.place? edits).join.map fun m =>
    match latest? Edit.region? (sincePlaced edits) with
    | none => m
    | some region => .of m.provider m.accountId (some region)

/-- The draft of the last settings. -/
def written (edits : List Edit) : ArnDraft where
  service := latest? Edit.service? edits
  tenant := latest? Edit.tenant? edits
  instanceId := latest? Edit.instanceId? edits
  mapping := mappingLeft edits
  resource := latest? Edit.resource? edits

/-- An edit replaces what it sets and leaves the other parts as they are. -/
theorem apply_eq (draft : ArnDraft) (edit : Edit) :
    draft.apply edit =
      { service := edit.service?.or draft.service
        tenant := edit.tenant?.or draft.tenant
        instanceId := edit.instanceId?.or draft.instanceId
        mapping := edit.mappingAfter draft.mapping
        resource := edit.resource?.or draft.resource } := by
  cases edit <;> rfl

theorem sincePlaced_concat_of_none {edit : Edit} (h : edit.place? = none) (edits : List Edit) :
    sincePlaced (edits ++ [edit]) = sincePlaced edits ++ [edit] :=
  List.rtakeWhile_concat_pos _ _ _ (by simp [h])

/-- The mapping that is left changes with one more edit as the mapping of a draft does. -/
theorem mappingLeft_concat (edits : List Edit) (edit : Edit) :
    mappingLeft (edits ++ [edit]) = edit.mappingAfter (mappingLeft edits) := by
  cases hplace : edit.place? with
  | some place =>
      -- an edit that sets or removes the mapping has no region after it
      have hsince : sincePlaced (edits ++ [edit]) = [] :=
        List.rtakeWhile_concat_neg _ _ _ (by simp [hplace])
      simp only [mappingLeft, hsince, latest?_concat, latest?_nil, hplace]
      cases edit <;> cases hplace <;> rfl
  | none =>
      simp only [mappingLeft, sincePlaced_concat_of_none hplace, latest?_concat, hplace,
        Option.none_or]
      cases hregion : edit.region? with
      | some region =>
          obtain rfl : edit = .region region := by cases edit <;> cases hregion; rfl
          -- the new region takes the place of the one that was named before, if one was
          cases latest? Edit.region? (sincePlaced edits) <;>
            simp [Edit.mappingAfter, CloudMapping.of, Function.comp_def]
      | none =>
          have hkeep (m : Option CloudMapping) : edit.mappingAfter m = m := by
            cases edit with
            | account | regionalAccount | mapping | unmapped => cases hplace
            | region => cases hregion
            | _ => rfl
          rw [hkeep, Option.none_or]

/-- **The last settings count.** A draft holds for every part what was set last. -/
theorem run_eq_written (edits : List Edit) : run {} edits = written edits := by
  induction edits using List.reverseRecOn with
  | nil => rfl
  | append_singleton edits edit ih =>
      have hrun : run {} (edits ++ [edit]) = (run {} edits).apply edit := by
        simp [run]
      rw [hrun, ih, apply_eq]
      simp only [written, latest?_concat, mappingLeft_concat]

/-- The mapping that is left is reached edit by edit. -/
theorem mappingLeft_eq_foldl (edits : List Edit) :
    mappingLeft edits = edits.foldl (fun mapping edit => edit.mappingAfter mapping) none := by
  induction edits using List.reverseRecOn with
  | nil => rfl
  | append_singleton edits edit ih =>
      rw [mappingLeft_concat, ih, List.foldl_append]
      rfl

/-- No region of a mapping is spelled out as `global` after an edit. -/
theorem region_mappingAfter_ne (edit : Edit) {mapping : Option CloudMapping}
    (h : ∀ m ∈ mapping, m.region ≠ some "global") :
    ∀ m ∈ edit.mappingAfter mapping, m.region ≠ some "global" := by
  have hmade (provider accountId : String) (region : Option String) :
      (CloudMapping.of provider accountId region).region ≠ some "global" :=
    CloudMapping.folded_eq_iff.1 (CloudMapping.folded_of provider accountId region)
  intro m hm
  cases edit with
  | account | regionalAccount | mapping =>
      cases hm
      exact hmade _ _ _
  | region =>
      obtain ⟨earlier, -, rfl⟩ := Option.map_eq_some_iff.1 hm
      exact hmade _ _ _
  | unmapped => cases hm
  | _ => exact h m hm

theorem region_mappingLeft_ne (edits : List Edit) :
    ∀ m ∈ mappingLeft edits, m.region ≠ some "global" := by
  induction edits using List.reverseRecOn with
  | nil =>
      intro m hm
      cases hm
  | append_singleton edits edit ih =>
      rw [mappingLeft_concat]
      exact region_mappingAfter_ne edit ih

/-! ## The order of edits -/

inductive Part where
  | service
  | tenant
  | instanceId
  | mapping
  | resource
  deriving DecidableEq

def Edit.part : Edit → Part
  | .service _ | .serviceToken _ => .service
  | .tenant _ | .rootTenant _ | .segments _ => .tenant
  | .instanceId _ => .instanceId
  | .account .. | .regionalAccount .. | .mapping _ | .region _ | .unmapped => .mapping
  | .resource _ => .resource

/-- An edit sets the part that it is about and no other. -/
theorem Edit.sets_only_part (edit : Edit) :
    (edit.part = .service ∨ edit.service? = none) ∧ (edit.part = .tenant ∨ edit.tenant? = none) ∧
      (edit.part = .instanceId ∨ edit.instanceId? = none) ∧
      (edit.part = .mapping ∨ ∀ mapping, edit.mappingAfter mapping = mapping) ∧
      (edit.part = .resource ∨ edit.resource? = none) := by
  cases edit <;> simp [part, service?, tenant?, instanceId?, mappingAfter, resource?]

/-- Two changes of which at most one sets something come in any order. -/
theorem or_or_comm {a b c : Option α} (h : a = none ∨ b = none) :
    a.or (b.or c) = b.or (a.or c) := by
  obtain rfl | rfl := h <;> simp

/-- Edits of different parts come in any order. -/
theorem apply_comm (draft : ArnDraft) {e e' : Edit} (h : e.part ≠ e'.part) :
    (draft.apply e).apply e' = (draft.apply e').apply e := by
  -- of two edits of different parts one leaves a given part alone
  have hone {part : Part} {p q : Prop} (he : e.part = part ∨ p) (he' : e'.part = part ∨ q) :
      p ∨ q := by
    rcases he with he | he
    · rcases he' with he' | he'
      · exact absurd (he.trans he'.symm) h
      · exact .inr he'
    · exact .inl he
  obtain ⟨hservice, htenant, hinstance, hmapping, hresource⟩ := e.sets_only_part
  obtain ⟨hservice', htenant', hinstance', hmapping', hresource'⟩ := e'.sets_only_part
  have hmappings : e'.mappingAfter (e.mappingAfter draft.mapping) =
      e.mappingAfter (e'.mappingAfter draft.mapping) := by
    rcases hone hmapping hmapping' with hkeep | hkeep <;> simp only [hkeep]
  simp only [apply_eq, hmappings, or_or_comm (hone hservice hservice'),
    or_or_comm (hone htenant htenant'), or_or_comm (hone hinstance hinstance'),
    or_or_comm (hone hresource hresource')]

theorem run_swap (draft : ArnDraft) (before after : List Edit) {e e' : Edit}
    (h : e.part ≠ e'.part) :
    draft.run (before ++ e :: e' :: after) = draft.run (before ++ e' :: e :: after) := by
  simp only [run, List.foldl_append, List.foldl_cons, apply_comm _ h]

/-! ## Requests -/

def Call.edit? : Call → Option Edit
  | .edit e => some e
  | .finish => none

/-- A draft holds the edits among the calls, whatever was asked for in between. -/
theorem callAll_fst (draft : ArnDraft) (calls : List Call) :
    (draft.callAll calls).1 = draft.run (calls.filterMap Call.edit?) := by
  induction calls generalizing draft with
  | nil => rfl
  | cons call calls ih =>
      cases call with
      | edit e => exact ih (draft.apply e)
      | finish => exact ih draft

theorem callAll_append_snd (draft : ArnDraft) (before after : List Call) :
    (draft.callAll (before ++ after)).2 =
      (draft.callAll before).2 ++ ((draft.callAll before).1.callAll after).2 := by
  induction before generalizing draft with
  | nil => rfl
  | cons call before ih => exact congrArg _ (ih (draft.call call).1)

theorem length_callAll (draft : ArnDraft) (calls : List Call) :
    (draft.callAll calls).2.length = calls.length := by
  induction calls generalizing draft with
  | nil => rfl
  | cons call calls ih => exact congrArg (· + 1) (ih (draft.call call).1)

/-- **A request changes nothing.** Among other calls it adds its own answer, which is that of the
edits before it. -/
theorem callAll_finish (draft : ArnDraft) (before after : List Call) :
    (draft.callAll (before ++ .finish :: after)).1 = (draft.callAll (before ++ after)).1 ∧
      ∃ earlier later, earlier.length = before.length ∧
        (draft.callAll (before ++ after)).2 = earlier ++ later ∧
        (draft.callAll (before ++ .finish :: after)).2 =
          earlier ++ some (draft.run (before.filterMap Call.edit?)).finish :: later := by
  constructor
  · rw [callAll_fst, callAll_fst, List.filterMap_append, List.filterMap_append]
    rfl
  · refine ⟨_, _, draft.length_callAll before, draft.callAll_append_snd before after, ?_⟩
    rw [callAll_append_snd, ← callAll_fst]
    rfl

/-! ## Which drafts make up a resource name -/

/-- What a draft needs to make up a resource name. -/
structure IsComplete (draft : ArnDraft) : Prop where
  service : ∃ service, draft.service = some service ∧ IsPart [':'] service.token
  tenant : ∃ segments, draft.tenant = some segments ∧ segments ≠ [] ∧
    ∀ segment ∈ segments, TenantPath.IsSegmentText segment.toText
  instanceId : ∃ id, draft.instanceId = some id ∧ IsPart [':'] id
  mapping : ∀ m ∈ draft.mapping, IsPart [':', '/'] m.provider ∧ IsPart [':', '/'] m.accountId ∧
    ∀ region ∈ m.region, IsPart [':', '/'] region
  resource : ∃ resource, draft.resource = some resource ∧ IsPart [':', '/'] resource.type ∧
    resource.id ≠ ""

theorem of_eq_ofTexts (given : List SegmentInput) :
    TenantPath.of given = TenantPath.ofTexts (given.map SegmentInput.toText) := by
  have hread : given.mapM TenantPath.readSegment =
      ((given.map SegmentInput.toText).map SegmentInput.text).mapM TenantPath.readSegment := by
    rw [List.map_map, List.mapM_map]
    rfl
  rw [TenantPath.ofTexts, TenantPath.of, TenantPath.of, hread]

/-- Segments make up a path when there are some and all are decimals below 2^64. -/
theorem exists_of_eq_ok_iff {given : List SegmentInput} :
    (∃ path, TenantPath.of given = .ok path) ↔
      given ≠ [] ∧ ∀ segment ∈ given, TenantPath.IsSegmentText segment.toText := by
  simp only [of_eq_ofTexts, TenantPath.ofTexts_eq_ok_iff, List.forall_mem_map, exists_and_left]
  rw [and_comm]
  refine and_congr_left fun hgiven => ⟨?_, fun hne => ?_⟩
  · rintro ⟨path, hvalues⟩ rfl
    exact path.nonempty (List.map_eq_nil_iff.1 hvalues.symm)
  · exact TenantPath.exists_of_isSegmentText (by simpa using hne) (by simpa using hgiven)

/-- A draft makes up a resource name when it is complete. -/
theorem exists_finish_iff {draft : ArnDraft} :
    (∃ a, draft.finish = .ok a) ↔ draft.IsComplete := by
  simp only [finish_eq_ok_iff]
  constructor
  · rintro ⟨a, hservice, ⟨segments, hsegments, hpath⟩, hinstance, hresource, hmapping⟩
    let parts : ArnParts := { a.toArnParts with mapping := draft.mapping }
    have hput : Arn.ofParts parts = .ok a :=
      Arn.ofParts_eq_ok_iff.2 (by rw [ArnParts.folded, hmapping])
    obtain ⟨hserviceOk, hinstanceOk, hmappingOk, hresourceOk⟩ :=
      ArnParts.defect?_eq_none_iff.1 (Arn.exists_ofParts_iff.1 ⟨a, hput⟩)
    exact ⟨⟨_, hservice, hserviceOk⟩, ⟨_, hsegments, exists_of_eq_ok_iff.1 ⟨_, hpath⟩⟩,
      ⟨_, hinstance, hinstanceOk⟩, hmappingOk, ⟨_, hresource, hresourceOk⟩⟩
  · rintro ⟨⟨service, hservice, hserviceOk⟩, ⟨segments, hsegments, hsegmentsOk⟩,
      ⟨instanceId, hinstance, hinstanceOk⟩, hmappingOk, ⟨resource, hresource, hresourceOk⟩⟩
    obtain ⟨tenantPath, hpath⟩ := exists_of_eq_ok_iff.2 hsegmentsOk
    let parts : ArnParts :=
      { service, tenantPath, instanceId, mapping := draft.mapping, resource }
    have hflawless : parts.defect? = none :=
      ArnParts.defect?_eq_none_iff.2 ⟨hserviceOk, hinstanceOk, hmappingOk, hresourceOk⟩
    exact ⟨⟨parts.folded, ArnParts.admissible_folded hflawless⟩, hservice,
      ⟨segments, hsegments, hpath⟩, hinstance, hresource, rfl⟩

/-- Every obstacle is a parameter that is not admitted. -/
theorem name_toFault (obstacle : Obstacle) :
    (Reported.toFault obstacle).name = "InvalidParameterError" := by
  cases obstacle with
  | refused defect => cases defect <;> rfl
  | _ => rfl

end TenantIam.ArnDraft
