import TenantIam.Arn.Draft
import TenantIam.Proofs.Arn.Grammar

/-!
# Written resource names are read back

Every resource name is the text of a reading: its mapping, if it has one, is written in the regional
shape, and a mapping without a region names the region `global`. So what is written is read back,
up to one thing that a text cannot carry: a custom service whose name is that of a known service
comes back as the known one. Drafts replace such a service when it is set, so a resource name that
comes from a draft is read back as it is.
-/

namespace TenantIam

theorem CloudMapping.isPart_regionText {m : CloudMapping}
    (h : ∀ region ∈ m.region, IsPart [':', '/'] region) : IsPart [':', '/'] m.regionText := by
  cases hregion : m.region with
  | none =>
      have : m.regionText = "global" := by rw [regionText, hregion]; rfl
      rw [this]
      decide
  | some region =>
      have : m.regionText = region := by rw [regionText, hregion]; rfl
      rw [this]
      exact h region hregion

namespace Arn

/-- The tail under which a resource name is written. -/
def tail (a : Arn) : Tail :=
  match a.mapping with
  | none => .native a.resource
  | some m => .regional m.provider m.accountId m.regionText a.resource

/-- The reading of which the written form is the text. -/
def reading (a : Arn) : Reading where
  service := a.service.token
  tenant := a.tenantPath.segmentTexts
  instanceId := a.instanceId
  tail := a.tail

/-- The resource name with a known service in the place of its custom namesake. -/
def normalize (a : Arn) : Arn where
  toArnParts := { a.toArnParts with service := .ofToken a.service.token }
  admissible := by
    refine ⟨?_, a.admissible.folded⟩
    have h := ArnParts.defect?_eq_none_iff.1 a.admissible.flawless
    rw [ArnParts.defect?_eq_none_iff]
    simpa using h

/-- A resource name is normal when its service is the one that its token stands for. -/
theorem normalize_eq_iff {a : Arn} : a.normalize = a ↔ .ofToken a.service.token = a.service := by
  constructor
  · intro h
    exact congrArg (fun a : Arn => a.service) h
  · intro h
    obtain ⟨parts, admissible⟩ := a
    simp only [normalize, Arn.mk.injEq]
    rw [h]

theorem tail_resource (a : Arn) : a.tail.resource = a.resource := by
  unfold tail
  split <;> rfl

/-- Only a region can be written `global` without being one. -/
theorem tail_place (a : Arn) :
    a.tail.place = a.mapping.map fun m => (m.provider, m.accountId, m.region) := by
  unfold tail
  cases hmapping : a.mapping with
  | none => rfl
  | some m =>
      have hglobal := a.admissible.folded m hmapping
      cases hregion : m.region with
      | none => simp [Tail.place, CloudMapping.regionText, hregion]
      | some region =>
          have hne : region ≠ "global" := fun h => hglobal (by rw [hregion, h])
          simp [Tail.place, CloudMapping.regionText, hregion, hne]

theorem text_reading (a : Arn) : a.reading.text = a.text := by
  have hconcat : a.text = Text.joinWith ':' (a.stemParts ++ [a.resource.path]) := by
    rw [Text.joinWith_concat (by simp [stemParts])]
    rfl
  rw [hconcat, Reading.text, reading, tail, stemParts]
  cases a.mapping with
  | none => rfl
  | some m =>
      -- The text of a tail is joined first, while the written form joins all parts at once.
      exact (Text.joinWith_append
        (List.cons_ne_nil m.provider [m.accountId, m.regionText, a.resource.path])
        ["arn", "wami", a.service.token, a.tenantPath.text, "wami", a.instanceId]).symm

theorem wellFormed_reading (a : Arn) : a.reading.WellFormed := by
  obtain ⟨hservice, hinstance, hmapping, hresource⟩ :=
    ArnParts.defect?_eq_none_iff.1 a.admissible.flawless
  refine ⟨hservice, a.tenantPath.segmentTexts_ne_nil,
    fun s hs => TenantPath.isSegmentText_of_mem_segmentTexts hs, hinstance, ?_⟩
  show a.tail.WellFormed
  unfold tail
  split
  · exact hresource
  · next m hm =>
    obtain ⟨hprovider, haccount, hregion⟩ := hmapping m hm
    exact ⟨hprovider, haccount, CloudMapping.isPart_regionText hregion, hresource⟩

theorem denotes_reading (a : Arn) : a.reading.Denotes a.normalize.toArnParts where
  service := rfl
  tenant := by
    rw [TenantPath.segmentTexts_eq_iff]
    exact TenantPath.map_decimalValue_segmentTexts a.tenantPath
  instanceId := rfl
  mapping := a.tail_place.symm
  resource := a.tail_resource.symm

/-- Reading the written form of a resource name normalizes it. -/
theorem parse_text (a : Arn) : parse a.text = .ok a.normalize :=
  parse_eq_ok_iff.2 ⟨a.reading, a.wellFormed_reading, a.text_reading, a.denotes_reading⟩

end Arn

namespace ArnDraft

/-- No custom service of a draft hides a known one. -/
def IsNormal (draft : ArnDraft) : Prop :=
  ∀ service ∈ draft.service, .ofToken service.token = service

theorem isNormal_apply {draft : ArnDraft} (h : draft.IsNormal) (edit : Edit) :
    (draft.apply edit).IsNormal := by
  cases edit with
  | service service => simp [IsNormal, apply]
  | serviceToken token => simp [IsNormal, apply]
  | _ => exact h

theorem isNormal_run {draft : ArnDraft} (h : draft.IsNormal) (edits : List Edit) :
    (draft.run edits).IsNormal := by
  induction edits generalizing draft with
  | nil => exact h
  | cons edit edits ih => exact ih (isNormal_apply h edit)

theorem need_eq_ok_iff {α : Type} {part : Required} {value : Option α} {a : α} :
    need part value = .ok a ↔ value = some a := by
  cases value <;> simp [need]

theorem pathOf_eq_ok_iff {segments : List SegmentInput} {path : TenantPath} :
    pathOf segments = .ok path ↔ TenantPath.of segments = .ok path := by
  cases segments with
  | nil => simp [pathOf, TenantPath.of, pure, Except.pure]
  | cons segment segments => simp [pathOf, mapError_eq_ok_iff]

/-- A draft is finished when its parts are set, and they are the parts of the resource name. -/
theorem finish_eq_ok_iff {draft : ArnDraft} {a : Arn} :
    draft.finish = .ok a ↔
      draft.service = some a.service ∧
        (∃ segments, draft.tenant = some segments ∧ TenantPath.of segments = .ok a.tenantPath) ∧
        draft.instanceId = some a.instanceId ∧ draft.resource = some a.resource ∧
        draft.mapping.map .folded = a.mapping := by
  simp only [finish, bind_eq_ok_iff, mapError_eq_ok_iff, Arn.ofParts_eq_ok_iff, need_eq_ok_iff,
    pathOf_eq_ok_iff]
  constructor
  · rintro ⟨service, hservice, segments, hsegments, instanceId, hinstance, resource, hresource,
      path, hpath, hparts⟩
    rw [hparts]
    exact ⟨hservice, ⟨segments, hsegments, hpath⟩, hinstance, hresource, rfl⟩
  · rintro ⟨hservice, ⟨segments, hsegments, hpath⟩, hinstance, hresource, hmapping⟩
    exact ⟨_, hservice, segments, hsegments, _, hinstance, _, hresource, _, hpath,
      by rw [ArnParts.folded, hmapping]⟩

/-- What a list of edits leads to is normal. -/
theorem normalize_eq_of_finish {edits : List Edit} {a : Arn}
    (h : (ArnDraft.run {} edits).finish = .ok a) : a.normalize = a := by
  have hnormal : (ArnDraft.run {} edits).IsNormal := isNormal_run (by simp [IsNormal]) edits
  exact Arn.normalize_eq_iff.2 (hnormal _ (finish_eq_ok_iff.1 h).1)

/-- What a list of edits leads to is read back as it is. -/
theorem parse_text_of_finish {edits : List Edit} {a : Arn}
    (h : (ArnDraft.run {} edits).finish = .ok a) : Arn.parse a.text = .ok a := by
  rw [Arn.parse_text, normalize_eq_of_finish h]

end ArnDraft

/-- **Written resource names are read back.** What a draft leads to is read back as it is, so two
such names are equal exactly when their texts are. Parts that are put together in another way make
up a resource name with a region `global` dropped, which comes back with the service that its token
stands for. -/
theorem Arn.parse_text_roundTrip :
    (∀ (edits : List ArnDraft.Edit) (a : Arn), (ArnDraft.run {} edits).finish = .ok a →
      Arn.parse a.text = .ok a) ∧
    (∀ (edits edits' : List ArnDraft.Edit) (a b : Arn),
      (ArnDraft.run {} edits).finish = .ok a → (ArnDraft.run {} edits').finish = .ok b →
      (a.equals b = true ↔ a.text = b.text)) ∧
    (∀ (parts : ArnParts) (a : Arn), Arn.ofParts parts = .ok a →
      a.toArnParts = parts.folded ∧
      ∃ b, Arn.parse a.text = .ok b ∧
        b.toArnParts = { a.toArnParts with service := .ofToken a.service.token }) := by
  refine ⟨fun edits a h => ArnDraft.parse_text_of_finish h, ?_, ?_⟩
  · intro edits edits' a b ha hb
    rw [Arn.equals_iff]
    constructor
    · rintro rfl
      rfl
    · intro htext
      have hread := ArnDraft.parse_text_of_finish ha
      rw [htext, ArnDraft.parse_text_of_finish hb] at hread
      exact (Except.ok.inj hread).symm
  · intro parts a h
    exact ⟨Arn.ofParts_eq_ok_iff.1 h, a.normalize, a.parse_text, rfl⟩

/-- A custom service with a known name, leading zeros, a mapping that spells `global` out, and an
identifier made of separators; another region; and the same parts put together as they are. -/
theorem Arn.parse_text_roundTrip_separators :
    let place (region : String) : CloudMapping :=
      { provider := "aws", accountId := "1", region := some region }
    let edits (region : String) : List ArnDraft.Edit :=
      [.service (.custom "iam"), .segments [.text "007", .text "12"], .instanceId "i/1",
        .mapping (place region), .resource { type := "user", id := ":/x:y:/" }]
    let parts (service : Service) (mapping : CloudMapping) : ArnParts :=
      { service, tenantPath := ⟨[7, 12], by decide⟩, instanceId := "i/1", mapping := some mapping
        resource := { type := "user", id := ":/x:y:/" } }
    let a : Arn := ⟨parts .iam (.of "aws" "1" none), by decide⟩
    let b : Arn := ⟨parts .iam (place "eu"), by decide⟩
    let c : Arn := ⟨parts (.custom "iam") (.of "aws" "1" none), by decide⟩
    (ArnDraft.run {} (edits "global")).finish = .ok a ∧
      a.text = "arn:wami:iam:7/12:wami:i/1:aws:1:global:user/:/x:y:/" ∧
      Arn.parse a.text = .ok a ∧
      (ArnDraft.run {} (edits "eu")).finish = .ok b ∧ (a.equals b = true ↔ a.text = b.text) ∧
      Arn.ofParts (parts (.custom "iam") (place "global")) = .ok c ∧ c.equals a = false ∧
      Arn.parse c.text = .ok a := by
  intro place edits parts a b c
  have ha : (ArnDraft.run {} (edits "global")).finish = .ok a :=
    ArnDraft.finish_eq_ok_iff.2 ⟨rfl, ⟨_, rfl, by rfl⟩, rfl, rfl, rfl⟩
  have hb : (ArnDraft.run {} (edits "eu")).finish = .ok b :=
    ArnDraft.finish_eq_ok_iff.2 ⟨rfl, ⟨_, rfl, by rfl⟩, rfl, rfl, rfl⟩
  have hc : Arn.ofParts (parts (.custom "iam") (place "global")) = .ok c :=
    Arn.ofParts_eq_ok_iff.2 rfl
  obtain ⟨hread, hequal, hput⟩ := Arn.parse_text_roundTrip
  obtain ⟨-, d, hd, hparts⟩ := hput _ c hc
  have hda : d = a := Arn.eq_of_toArnParts_eq hparts
  exact ⟨ha, by decide, hread _ a ha, hb, hequal _ _ a b ha hb, hc, by decide, hda ▸ hd⟩

end TenantIam
