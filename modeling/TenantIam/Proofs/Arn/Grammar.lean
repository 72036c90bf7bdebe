import TenantIam.Arn.Reader
import TenantIam.Proofs.Success
import TenantIam.Proofs.TenantPath.Reading

/-!
# The grammar of resource names

A resource name reads `arn:wami:S:T:wami:I:R`. Here `S` and `I` are free of colons, `T` is a list of
decimals with slashes between them, and `R` has one of three shapes: `Y/D` (native), `P:A:G:Y/D`
(regional) or `P:A:Y/D` with `D` free of colons (legacy), where `P`, `A`, `G` and `Y` are free of
colons and slashes. This module states the grammar without the reader, as a type of readings, and
proves that the reader accepts exactly the texts that have a reading.
-/

namespace TenantIam

/-- A text that can stand between separators: it is not empty and free of them. -/
def IsPart (separators : List Char) (s : String) : Prop :=
  s ≠ "" ∧ ∀ c ∈ separators, c ∉ s.toList

-- the separators are gone through one by one, not all characters
instance (separators : List Char) (s : String) : Decidable (IsPart separators s) :=
  @instDecidableAnd _ _ inferInstance (List.decidableBAll (· ∉ s.toList) separators)

theorem IsPart.not_mem {separators : List Char} {s : String} (h : IsPart separators s) {c : Char}
    (hc : c ∈ separators) : c ∉ s.toList :=
  h.2 c hc

theorem ArnParts.Field.defect?_eq_none_iff_isPart {field : ArnParts.Field} {value : String} :
    field.defect? value = none ↔ IsPart field.forbidden value :=
  ArnParts.Field.defect?_eq_none_iff

theorem CloudMapping.eq_of_place_eq {m m' : Option CloudMapping}
    (h : m.map (fun m => (m.provider, m.accountId, m.region)) =
      m'.map (fun m => (m.provider, m.accountId, m.region))) : m = m' := by
  cases m with
  | none => cases m' <;> simp_all
  | some m =>
      cases m' with
      | none => simp at h
      | some m' =>
          cases m
          cases m'
          simpa using h

/-- The region that is given is the one that is written. -/
theorem CloudMapping.regionText_of (provider accountId region : String) :
    (CloudMapping.of provider accountId (some region)).regionText = region := by
  by_cases h : region = "global" <;> simp [of, regionText, Option.filter, h]

namespace Resource

/-- Which resources the grammar admits. -/
def WellFormed (r : Resource) : Prop := IsPart [':', '/'] r.type ∧ r.id ≠ ""

instance (r : Resource) : Decidable r.WellFormed :=
  inferInstanceAs (Decidable (IsPart [':', '/'] r.type ∧ r.id ≠ ""))

theorem toList_path (r : Resource) : r.path.toList = r.type.toList ++ '/' :: r.id.toList := by
  simp [path]

theorem parse_eq_ok_iff {s : String} {r : Resource} :
    parse s = .ok r ↔ s = r.path ∧ r.WellFormed := by
  unfold parse
  constructor
  · intro h
    split at h
    · cases h
    · next type id hcut =>
      obtain ⟨hs, hslash⟩ := Text.cutFirst_eq_some_iff.1 hcut
      split at h
      · cases h
      · next hempty =>
        split at h
        · cases h
        · next hcolon =>
          cases h
          rw [not_or] at hempty
          refine ⟨?_, ⟨by simpa using hempty.1, by simp [hcolon, hslash]⟩, by simpa using hempty.2⟩
          apply String.toList_inj.1
          simpa [toList_path] using hs
  · rintro ⟨rfl, htype, hid⟩
    have hcut : Text.cutFirst '/' r.path.toList = some (r.type.toList, r.id.toList) :=
      Text.cutFirst_eq_some_iff.2 ⟨r.toList_path, htype.not_mem (by simp)⟩
    have hcolon : ':' ∉ r.type.toList := htype.not_mem (by simp)
    simp [hcut, hcolon, htype.1, hid]

/-- A written resource is read back, so it is the text of one resource only. -/
theorem eq_of_path_eq {r r' : Resource} (hr : r.WellFormed) (hr' : r'.WellFormed)
    (h : r.path = r'.path) : r = r' := by
  have hread : parse r.path = .ok r := parse_eq_ok_iff.2 ⟨rfl, hr⟩
  rw [parse_eq_ok_iff.2 ⟨h, hr'⟩] at hread
  exact (Except.ok.inj hread).symm

/-- The first piece of a written resource holds its slash, and it is the only piece unless the
identifier holds colons. -/
theorem exists_pieces_path {r : Resource} (hr : r.WellFormed) :
    ∃ first more, Text.pieces ':' r.path = first :: more ∧ '/' ∈ first.toList ∧
      (':' ∉ r.id.toList → more = []) := by
  have hcolon : ':' ∉ (r.type ++ "/").toList := by
    have : ':' ∉ r.type.toList := hr.1.not_mem (by simp)
    simp [this]
  cases hid : Text.pieces ':' r.id with
  | nil => exact absurd hid (Text.pieces_ne_nil ':' r.id)
  | cons first more =>
      refine ⟨r.type ++ "/" ++ first, more, Text.pieces_append_of_not_mem hcolon hid, by simp, ?_⟩
      intro hfree
      rw [Text.pieces_of_not_mem hfree] at hid
      exact (List.cons.inj hid).2.symm

end Resource

/-- Parts are admissible when the separators that surround them are not in them. -/
theorem ArnParts.defect?_eq_none_iff {parts : ArnParts} :
    parts.defect? = none ↔
      IsPart [':'] parts.service.token ∧ IsPart [':'] parts.instanceId ∧
        (∀ m ∈ parts.mapping, IsPart [':', '/'] m.provider ∧ IsPart [':', '/'] m.accountId ∧
          ∀ region ∈ m.region, IsPart [':', '/'] region) ∧
        parts.resource.WellFormed := by
  have hid : IsPart [] parts.resource.id ↔ parts.resource.id ≠ "" := by simp [IsPart]
  simp only [defect?, checked, List.findSome?_eq_none_iff, Field.defect?_eq_none_iff_isPart]
  cases parts.mapping with
  | none => simp [Field.forbidden, Resource.WellFormed, hid]
  | some m =>
      obtain ⟨provider, accountId, region⟩ := m
      cases region <;> simp [Field.forbidden, Resource.WellFormed, hid, and_assoc]

namespace Arn

/-- What a text says after the instance, part by part as it is written. -/
inductive Tail where
  /-- The resource alone. -/
  | native (resource : Resource)
  /-- Provider, account, region and resource. -/
  | regional (provider accountId region : String) (resource : Resource)
  /-- Provider, account and resource. -/
  | legacy (provider accountId : String) (resource : Resource)

namespace Tail

def text : Tail → String
  | native r => r.path
  | regional provider accountId region r =>
    Text.joinWith ':' [provider, accountId, region, r.path]
  | legacy provider accountId r => Text.joinWith ':' [provider, accountId, r.path]

/-- Which tails the grammar admits. -/
def WellFormed : Tail → Prop
  | native r => r.WellFormed
  | regional provider accountId region r =>
    IsPart [':', '/'] provider ∧ IsPart [':', '/'] accountId ∧ IsPart [':', '/'] region ∧
      r.WellFormed
  | legacy provider accountId r =>
    IsPart [':', '/'] provider ∧ IsPart [':', '/'] accountId ∧ r.WellFormed ∧
      ':' ∉ r.id.toList

instance : (t : Tail) → Decidable t.WellFormed
  | native r => inferInstanceAs (Decidable r.WellFormed)
  | regional _ _ _ _ => inferInstanceAs (Decidable (_ ∧ _ ∧ _ ∧ _))
  | legacy _ _ _ => inferInstanceAs (Decidable (_ ∧ _ ∧ _ ∧ _))

def resource : Tail → Resource
  | native r | regional _ _ _ r | legacy _ _ r => r

/-- Provider, account and region of a tail; the region `global` counts as none. -/
def place : Tail → Option (String × String × Option String)
  | native _ => none
  | regional provider accountId region _ =>
    some (provider, accountId, if region = "global" then none else some region)
  | legacy provider accountId _ => some (provider, accountId, none)

/-- What the reader makes of a tail. -/
def rest : Tail → ArnRest
  | native r => { layout := .native, mapping := none, resourceText := r.path }
  | regional provider accountId region r =>
    { layout := .regional, mapping := some (.of provider accountId (some region))
      resourceText := r.path }
  | legacy provider accountId r =>
    { layout := .legacy, mapping := some (.of provider accountId none), resourceText := r.path }

theorem rest_mapping (t : Tail) :
    t.rest.mapping.map (fun m => (m.provider, m.accountId, m.region)) = t.place := by
  cases t with
  | native r => rfl
  | regional provider accountId region r =>
      by_cases h : region = "global" <;> simp [rest, place, CloudMapping.of, h]
  | legacy provider accountId r => simp [rest, place, CloudMapping.of]

/-- The reader spells no region out as `global`. -/
theorem region_rest_ne (t : Tail) : ∀ m ∈ t.rest.mapping, m.region ≠ some "global" := by
  cases t with
  | native r => simp [rest]
  | regional provider accountId region r =>
      intro m hm
      cases hm
      exact CloudMapping.folded_eq_iff.1 (CloudMapping.folded_of provider accountId (some region))
  | legacy provider accountId r =>
      intro m hm
      cases hm
      exact CloudMapping.folded_eq_iff.1 (CloudMapping.folded_of provider accountId none)

theorem resourceText_rest (t : Tail) : t.rest.resourceText = t.resource.path := by
  cases t <;> rfl

theorem WellFormed.resource {t : Tail} (ht : t.WellFormed) : t.resource.WellFormed := by
  cases t with
  | native r => exact ht
  | regional provider accountId region r => exact ht.2.2.2
  | legacy provider accountId r => exact ht.2.2.1

/-- What a tail says about the place at a provider is free of separators. -/
theorem WellFormed.isPart_mapping {t : Tail} (ht : t.WellFormed) :
    ∀ m ∈ t.rest.mapping, IsPart [':', '/'] m.provider ∧ IsPart [':', '/'] m.accountId ∧
      ∀ region ∈ m.region, IsPart [':', '/'] region := by
  cases t with
  | native r => simp [rest]
  | regional provider accountId region r =>
      by_cases h : region = "global" <;>
        simp [rest, CloudMapping.of, Option.filter, h, ht.1, ht.2.1, ht.2.2.1]
  | legacy provider accountId r => simp [rest, CloudMapping.of, ht.1, ht.2.1]

/-- A list of pieces whose first one has a slash is the resource alone. -/
theorem ofPieces_of_slash {first : String} (h : '/' ∈ first.toList) (more : List String) :
    ArnRest.ofPieces (first :: more) = .ok (ArnRest.native (first :: more)) := by
  unfold ArnRest.ofPieces
  split <;> simp_all [ArnRest.noneHasSlash]

/-- The parts before a resource are pieces of their own. -/
theorem pieces_joinWith_path {parts : List String} (hparts : ∀ s ∈ parts, IsPart [':', '/'] s)
    (r : Resource) :
    Text.pieces ':' (Text.joinWith ':' (parts ++ [r.path])) = parts ++ Text.pieces ':' r.path :=
  Text.pieces_joinWith_concat (fun s hs => (hparts s hs).not_mem (by simp)) r.path

theorem noneHasSlash_of_isPart {parts : List String} (hparts : ∀ s ∈ parts, IsPart [':', '/'] s) :
    ArnRest.noneHasSlash parts = true := by
  simp only [ArnRest.noneHasSlash, List.all_eq_true]
  intro s hs
  simpa using (hparts s hs).not_mem (c := '/') (by simp)

/-- The reader takes the pieces of a written tail for that tail. -/
theorem ofPieces_text {t : Tail} (ht : t.WellFormed) :
    ArnRest.ofPieces (Text.pieces ':' t.text) = .ok t.rest := by
  cases t with
  | native r =>
      -- the slash of a native resource is in the first piece, where no mapping has one
      obtain ⟨first, more, hpieces, hslash, -⟩ := r.exists_pieces_path ht
      have hpath := Text.joinWith_pieces ':' r.path
      rw [hpieces] at hpath
      rw [text, hpieces, ofPieces_of_slash hslash, ArnRest.native, hpath]
      rfl
  | regional provider accountId region r =>
      obtain ⟨hprovider, haccount, hregion, hr⟩ := ht
      obtain ⟨first, more, hpieces, -, -⟩ := r.exists_pieces_path hr
      have hparts : ∀ s ∈ [provider, accountId, region], IsPart [':', '/'] s := by
        simp [hprovider, haccount, hregion]
      have hpath := Text.joinWith_pieces ':' r.path
      rw [hpieces] at hpath
      have htext := pieces_joinWith_path hparts r
      rw [hpieces] at htext
      simp only [List.cons_append, List.nil_append] at htext
      rw [text, htext, ArnRest.ofPieces, noneHasSlash_of_isPart hparts, if_pos rfl, ArnRest.mapped,
        hpath]
      simp [hprovider.1, haccount.1, hregion.1, rest]
  | legacy provider accountId r =>
      obtain ⟨hprovider, haccount, hr, hid⟩ := ht
      obtain ⟨first, more, hpieces, -, hmore⟩ := r.exists_pieces_path hr
      have hparts : ∀ s ∈ [provider, accountId], IsPart [':', '/'] s := by
        simp [hprovider, haccount]
      have hpath := Text.joinWith_pieces ':' r.path
      rw [hpieces, hmore hid] at hpath
      have htext := pieces_joinWith_path hparts r
      rw [hpieces, hmore hid] at htext
      simp only [List.cons_append, List.nil_append] at htext
      rw [text, htext, ArnRest.ofPieces, noneHasSlash_of_isPart hparts, if_pos rfl, ArnRest.mapped,
        hpath]
      simp [hprovider.1, haccount.1, rest]

theorem isPart_of_noneHasSlash {parts : List String} (hcolon : ∀ s ∈ parts, ':' ∉ s.toList)
    (hslash : ArnRest.noneHasSlash parts = true) {s : String} (hs : s ∈ parts) (hne : s ≠ "") :
    IsPart [':', '/'] s := by
  simp only [ArnRest.noneHasSlash, List.all_eq_true] at hslash
  have : '/' ∉ s.toList := by simpa using hslash s hs
  exact ⟨hne, by simp [hcolon s hs, this]⟩

/-- A mapped rest has nonempty parts and the joined pieces as its resource. -/
theorem mapped_eq_ok_iff {layout : ArnLayout} {provider accountId : String}
    {region : Option String} {pieces : List String} {rest : ArnRest} :
    ArnRest.mapped layout provider accountId region pieces = .ok rest ↔
      provider ≠ "" ∧ accountId ≠ "" ∧ region ≠ some "" ∧
        rest =
          { layout, mapping := some (.of provider accountId region)
            resourceText := Text.joinWith ':' pieces } := by
  unfold ArnRest.mapped
  split
  · next h =>
    simp only [reduceCtorEq, false_iff]
    rintro ⟨hprovider, haccount, hregion, -⟩
    rcases h with h | h | h
    · exact hprovider h
    · exact haccount h
    · exact hregion h
  · next h =>
    simp only [not_or] at h
    simp [h, eq_comm]

/-- Whatever the reader makes of colon-free pieces is a tail that the grammar admits. -/
theorem exists_of_ofPieces {pieces : List String} (hcolon : ∀ s ∈ pieces, ':' ∉ s.toList)
    {rest : ArnRest} {resource : Resource}
    (hrest : ArnRest.ofPieces pieces = .ok rest)
    (hresource : Resource.parse rest.resourceText = .ok resource) :
    ∃ t : Tail, t.WellFormed ∧ t.text = Text.joinWith ':' pieces ∧ t.rest = rest ∧
      t.resource = resource := by
  -- The reader has three outcomes for pieces of any number; two of its branches are native.
  have hnative : rest = ArnRest.native pieces →
      ∃ t : Tail, t.WellFormed ∧ t.text = Text.joinWith ':' pieces ∧ t.rest = rest ∧
        t.resource = resource := by
    rintro rfl
    obtain ⟨htext, hwell⟩ := Resource.parse_eq_ok_iff.1 hresource
    exact ⟨.native resource, hwell, htext.symm, by simp [Tail.rest, ← htext, ArnRest.native], rfl⟩
  unfold ArnRest.ofPieces at hrest
  split at hrest
  · next provider accountId region part more =>
    split at hrest
    · next hslash =>
      obtain ⟨hprovider, haccount, hregion, rfl⟩ := mapped_eq_ok_iff.1 hrest
      obtain ⟨htext, hwell⟩ := Resource.parse_eq_ok_iff.1 hresource
      have hpart : ∀ s ∈ [provider, accountId, region], s ≠ "" → IsPart [':', '/'] s :=
        fun s hs => isPart_of_noneHasSlash (fun s hs => hcolon s (by grind)) hslash hs
      have hregion : region ≠ "" := fun h => hregion (congrArg some h)
      refine ⟨.regional provider accountId region resource, ?_, ?_, ?_, rfl⟩
      · exact ⟨hpart _ (by simp) hprovider, hpart _ (by simp) haccount, hpart _ (by simp) hregion,
          hwell⟩
      · rw [text, ← htext]
        exact (Text.joinWith_append (List.cons_ne_nil part more)
          [provider, accountId, region]).symm
      · rw [Tail.rest, ← htext]
    · exact hnative (Except.ok.inj hrest).symm
  · next provider accountId part =>
    split at hrest
    · next hslash =>
      obtain ⟨hprovider, haccount, -, rfl⟩ := mapped_eq_ok_iff.1 hrest
      obtain ⟨htext, hwell⟩ := Resource.parse_eq_ok_iff.1 hresource
      have hpart : ∀ s ∈ [provider, accountId], s ≠ "" → IsPart [':', '/'] s :=
        fun s hs => isPart_of_noneHasSlash (fun s hs => hcolon s (by grind)) hslash hs
      simp only [Text.joinWith_singleton] at htext
      subst htext
      have hid : ':' ∉ resource.id.toList := by
        have hpath : ':' ∉ resource.path.toList := hcolon _ (by simp)
        rw [Resource.toList_path] at hpath
        simp at hpath
        exact hpath.2
      refine ⟨.legacy provider accountId resource, ?_, rfl, ?_, rfl⟩
      · exact ⟨hpart _ (by simp) hprovider, hpart _ (by simp) haccount, hwell, hid⟩
      · simp [Tail.rest]
    · exact hnative (Except.ok.inj hrest).symm
  · exact hnative (Except.ok.inj hrest).symm

/-- Well-formed tails of which the reader makes the same are the same. -/
theorem eq_of_rest_eq {t t' : Tail} (ht : t.WellFormed) (ht' : t'.WellFormed)
    (h : t.rest = t'.rest) : t = t' := by
  have hlayout := congrArg ArnRest.layout h
  have hmapping := congrArg ArnRest.mapping h
  have hpath := congrArg ArnRest.resourceText h
  cases t <;> cases t' <;> simp only [rest, reduceCtorEq] at hlayout hmapping hpath
  case native.native r r' =>
    rw [Resource.eq_of_path_eq ht ht' hpath]
  case regional.regional provider accountId region r provider' accountId' region' r' =>
    have hregion := congrArg CloudMapping.regionText (Option.some.inj hmapping)
    simp only [CloudMapping.regionText_of] at hregion
    simp only [CloudMapping.of, Option.some.injEq, CloudMapping.mk.injEq] at hmapping
    rw [hmapping.1, hmapping.2.1, hregion, Resource.eq_of_path_eq ht.2.2.2 ht'.2.2.2 hpath]
  case legacy.legacy provider accountId r provider' accountId' r' =>
    simp only [CloudMapping.of, Option.some.injEq, CloudMapping.mk.injEq] at hmapping
    rw [hmapping.1, hmapping.2.1, Resource.eq_of_path_eq ht.2.2.1 ht'.2.2.1 hpath]

end Tail

/-- A way to read a text as a resource name, part by part as it is written. -/
structure Reading where
  /-- The token of the service. -/
  service : String
  /-- The decimals of the tenant path. -/
  tenant : List String
  /-- The instance. -/
  instanceId : String
  /-- What follows the instance. -/
  tail : Tail

namespace Reading

def text (r : Reading) : String :=
  Text.joinWith ':'
    ["arn", "wami", r.service, Text.joinWith '/' r.tenant, "wami", r.instanceId, r.tail.text]

/-- Which readings the grammar admits. -/
structure WellFormed (r : Reading) : Prop where
  service : IsPart [':'] r.service
  tenant_ne : r.tenant ≠ []
  tenant : ∀ s ∈ r.tenant, TenantPath.IsSegmentText s
  instanceId : IsPart [':'] r.instanceId
  tail : r.tail.WellFormed

instance (r : Reading) : Decidable r.WellFormed :=
  decidable_of_iff
    (IsPart [':'] r.service ∧ r.tenant ≠ [] ∧ (∀ s ∈ r.tenant, TenantPath.IsSegmentText s) ∧
      IsPart [':'] r.instanceId ∧ r.tail.WellFormed)
    ⟨fun ⟨hservice, hne, htenant, hinstance, htail⟩ => ⟨hservice, hne, htenant, hinstance, htail⟩,
      fun h => ⟨h.service, h.tenant_ne, h.tenant, h.instanceId, h.tail⟩⟩

/-- The parts that a reading stands for: decimals lose their leading zeros, and the region `global`
counts as none. -/
structure Denotes (r : Reading) (parts : ArnParts) : Prop where
  service : parts.service = .ofToken r.service
  tenant : parts.tenantPath.segmentTexts = r.tenant.map fun s => (TenantPath.decimalValue s).repr
  instanceId : parts.instanceId = r.instanceId
  mapping : parts.mapping.map (fun m => (m.provider, m.accountId, m.region)) = r.tail.place
  resource : parts.resource = r.tail.resource

/-- The decimals of a reading are found between the slashes of its path. -/
theorem pieces_tenant {r : Reading} (hr : r.WellFormed) :
    Text.pieces '/' (Text.joinWith '/' r.tenant) = r.tenant :=
  Text.pieces_joinWith '/' _ hr.tenant_ne fun s hs => (hr.tenant s hs).not_mem (by decide)

theorem pieces_text {r : Reading} (hr : r.WellFormed) :
    Text.pieces ':' r.text =
      "arn" :: "wami" :: r.service :: Text.joinWith '/' r.tenant :: "wami" :: r.instanceId ::
        Text.pieces ':' r.tail.text := by
  have hpath : ':' ∉ (Text.joinWith '/' r.tenant).toList :=
    Text.not_mem_joinWith (by decide) fun s hs => (hr.tenant s hs).not_mem (by decide)
  have hservice : ':' ∉ r.service.toList := hr.service.not_mem (by simp)
  have hinstance : ':' ∉ r.instanceId.toList := hr.instanceId.not_mem (by simp)
  refine Text.pieces_joinWith_concat
    (l := ["arn", "wami", r.service, Text.joinWith '/' r.tenant, "wami", r.instanceId]) ?_ _
  simp [hservice, hinstance, hpath]

/-- **No text has two readings.** -/
theorem text_injective {r r' : Reading} (hr : r.WellFormed) (hr' : r'.WellFormed)
    (h : r.text = r'.text) : r = r' := by
  have hpieces := pieces_text hr
  rw [h, pieces_text hr'] at hpieces
  simp only [List.cons.injEq, true_and] at hpieces
  obtain ⟨hservice, hpath, hinstance, htail⟩ := hpieces
  -- equal texts have equal pieces; the path and the tail are taken apart further
  have htenant : r'.tenant = r.tenant := by
    rw [← pieces_tenant hr', hpath, pieces_tenant hr]
  have hrest := Tail.ofPieces_text hr.tail
  rw [← htail, Tail.ofPieces_text hr'.tail] at hrest
  have hsame := Tail.eq_of_rest_eq hr'.tail hr.tail (Except.ok.inj hrest)
  cases r
  cases r'
  simp_all

theorem Denotes.eq_parts {r : Reading} {parts : ArnParts} (h : r.Denotes parts) :
    parts =
      { service := .ofToken r.service, tenantPath := parts.tenantPath, instanceId := r.instanceId
        mapping := r.tail.rest.mapping, resource := r.tail.resource } := by
  have hmapping : parts.mapping = r.tail.rest.mapping :=
    CloudMapping.eq_of_place_eq (h.mapping.trans r.tail.rest_mapping.symm)
  rw [← h.service, ← h.instanceId, ← hmapping, ← h.resource]

theorem Denotes.admissible {r : Reading} (hr : r.WellFormed) {parts : ArnParts}
    (h : r.Denotes parts) : parts.Admissible where
  flawless := by
    rw [h.eq_parts, ArnParts.defect?_eq_none_iff]
    refine ⟨by simpa using hr.service, hr.instanceId, ?_, hr.tail.resource⟩
    exact hr.tail.isPart_mapping
  folded := by
    rw [h.eq_parts]
    exact r.tail.region_rest_ne

end Reading

/-- What the reader asks of a text, one check after another. -/
theorem parseParts_eq_ok_iff {s : String} {parts : ArnParts} :
    parseParts s = .ok parts ↔
      ∃ service path instanceId part more tenantPath rest resource,
        Text.pieces ':' s =
          "arn" :: "wami" :: service :: path :: "wami" :: instanceId :: part :: more ∧
        service ≠ "" ∧ TenantPath.parse path = .ok tenantPath ∧ instanceId ≠ "" ∧
        ArnRest.ofPieces (part :: more) = .ok rest ∧
        Resource.parse rest.resourceText = .ok resource ∧
        parts =
          { service := .ofToken service, tenantPath, instanceId, mapping := rest.mapping
            resource } := by
  unfold parseParts
  constructor
  · intro h
    split at h
    · next head space service path marker instanceId part more hpieces =>
      simp only [guard_eq_ok_iff, bind_eq_ok_iff, mapError_eq_ok_iff, pure_eq_ok_iff, ne_eq,
        Decidable.not_not] at h
      obtain ⟨rfl, rfl, hservice, tenantPath, hpath, rfl, hinstance, rest, hrest, resource,
        hresource, rfl⟩ := h
      exact ⟨service, path, instanceId, part, more, tenantPath, rest, resource, hpieces, hservice,
        hpath, hinstance, hrest, hresource, rfl⟩
    · cases h
  · rintro ⟨service, path, instanceId, part, more, tenantPath, rest, resource, hpieces, hservice,
      hpath, hinstance, hrest, hresource, rfl⟩
    simp only [hpieces, guard_eq_ok_iff, bind_eq_ok_iff, mapError_eq_ok_iff, pure_eq_ok_iff, ne_eq,
      Decidable.not_not]
    exact ⟨trivial, trivial, hservice, tenantPath, hpath, trivial, hinstance, rest, hrest, resource,
      hresource, rfl⟩

/-- The reader finds parts in the texts with a reading, and they are what the reading denotes. -/
theorem parseParts_eq_ok_iff_reading {s : String} {parts : ArnParts} :
    parseParts s = .ok parts ↔
      ∃ r : Reading, r.WellFormed ∧ r.text = s ∧ r.Denotes parts := by
  rw [parseParts_eq_ok_iff]
  constructor
  · rintro ⟨service, path, instanceId, part, more, tenantPath, rest, resource, hpieces, hservice,
      hpath, hinstance, hrest, hresource, rfl⟩
    -- the pieces that the reader goes by are the parts of the reading
    have hcolon : ∀ s' ∈ Text.pieces ':' s, ':' ∉ s'.toList :=
      fun _ => Text.not_mem_of_mem_pieces
    obtain ⟨hsegments, hvalues⟩ := TenantPath.parse_eq_ok_iff.1 hpath
    obtain ⟨tail, htail, htext, htailRest, htailResource⟩ :=
      Tail.exists_of_ofPieces (fun s' hs' => hcolon s' (by grind)) hrest hresource
    refine ⟨{ service, tenant := Text.pieces '/' path, instanceId, tail }, ?_, ?_, ?_⟩
    · exact
        { service := ⟨hservice, by simpa using hcolon service (by simp [hpieces])⟩
          tenant_ne := Text.pieces_ne_nil '/' path
          tenant := hsegments
          instanceId := ⟨hinstance, by simpa using hcolon instanceId (by simp [hpieces])⟩
          tail := htail }
    · rw [Reading.text, htext, Text.joinWith_pieces, ← Text.joinWith_pieces ':' s, hpieces]
      exact (Text.joinWith_append (List.cons_ne_nil part more)
        ["arn", "wami", service, path, "wami", instanceId]).symm
    · exact
        { service := rfl
          tenant := TenantPath.segmentTexts_eq_iff.2 hvalues
          instanceId := rfl
          mapping := by rw [← htailRest]; exact tail.rest_mapping
          resource := htailResource.symm }
  · rintro ⟨r, hr, rfl, hparts⟩
    cases hpieces : Text.pieces ':' r.tail.text with
    | nil => exact absurd hpieces (Text.pieces_ne_nil ':' r.tail.text)
    | cons part more =>
        refine ⟨r.service, Text.joinWith '/' r.tenant, r.instanceId, part, more, parts.tenantPath,
          r.tail.rest, r.tail.resource, ?_, hr.service.1, ?_, hr.instanceId.1, ?_, ?_, ?_⟩
        · rw [Reading.pieces_text hr, hpieces]
        · rw [TenantPath.parse_eq_ok_iff, Reading.pieces_tenant hr]
          exact ⟨hr.tenant, TenantPath.segmentTexts_eq_iff.1 hparts.tenant⟩
        · rw [← hpieces, Tail.ofPieces_text hr.tail]
        · exact Resource.parse_eq_ok_iff.2 ⟨r.tail.resourceText_rest, hr.tail.resource⟩
        · exact hparts.eq_parts

theorem parse_eq_ok_iff {s : String} {a : Arn} :
    parse s = .ok a ↔ ∃ r : Reading, r.WellFormed ∧ r.text = s ∧ r.Denotes a.toArnParts := by
  simp only [parse, bind_eq_ok_iff, mapError_eq_ok_iff, ofParts_eq_ok_iff]
  rw [← parseParts_eq_ok_iff_reading]
  constructor
  · rintro ⟨parts, hparts, ha⟩
    obtain ⟨r, hr, -, hdenotes⟩ := parseParts_eq_ok_iff_reading.1 hparts
    rwa [ha, ArnParts.folded_eq_iff.2 (hdenotes.admissible hr).folded]
  · intro h
    exact ⟨a.toArnParts, h, a.folded_toArnParts.symm⟩

theorem Reading.exists_denotes {r : Reading} (hr : r.WellFormed) :
    ∃ a : Arn, r.Denotes a.toArnParts := by
  obtain ⟨tenantPath, hvalues⟩ := TenantPath.exists_of_isSegmentText hr.tenant_ne hr.tenant
  have hparts : r.Denotes
      { service := .ofToken r.service, tenantPath, instanceId := r.instanceId
        mapping := r.tail.rest.mapping, resource := r.tail.resource } :=
    { service := rfl
      tenant := TenantPath.segmentTexts_eq_iff.2 hvalues
      instanceId := rfl
      mapping := r.tail.rest_mapping
      resource := rfl }
  exact ⟨⟨_, hparts.admissible hr⟩, hparts⟩

/-- **The reader accepts exactly the grammar, without ambiguity.** A text is accepted when it has a
reading; it has no two readings; and what is read has the components of its reading. -/
theorem parse_grammar (s : String) :
    ((∃ a, parse s = .ok a) ↔ ∃ r : Reading, r.WellFormed ∧ r.text = s) ∧
      (∀ r r' : Reading, r.WellFormed → r.text = s → r'.WellFormed → r'.text = s → r = r') ∧
      ∀ (r : Reading) (a : Arn), r.WellFormed → r.text = s → parse s = .ok a →
        r.Denotes a.toArnParts := by
  refine ⟨⟨?_, ?_⟩, ?_, ?_⟩
  · rintro ⟨a, ha⟩
    obtain ⟨r, hr, htext, -⟩ := parse_eq_ok_iff.1 ha
    exact ⟨r, hr, htext⟩
  · rintro ⟨r, hr, rfl⟩
    obtain ⟨a, ha⟩ := Reading.exists_denotes hr
    exact ⟨a, parse_eq_ok_iff.2 ⟨r, hr, rfl, ha⟩⟩
  · rintro r r' hr rfl hr' htext
    exact Reading.text_injective hr hr' htext.symm
  · rintro r a hr rfl ha
    obtain ⟨r', hr', htext, hdenotes⟩ := parse_eq_ok_iff.1 ha
    rwa [Reading.text_injective hr' hr htext] at hdenotes

/-- Leading zeros and the region `global` in a text, and an identifier with both separators. -/
theorem parse_grammar_global :
    let r : Reading :=
      { service := "sts", tenant := ["007", "18446744073709551615"], instanceId := "i/1"
        tail := .regional "aws" "1" "global" { type := "user", id := "a:b/c:" } }
    r.WellFormed ∧
      ∃ a, parse "arn:wami:sts:007/18446744073709551615:wami:i/1:aws:1:global:user/a:b/c:" = .ok a ∧
        r.Denotes a.toArnParts := by
  intro r
  have hr : r.WellFormed := by decide
  have htext : r.text =
      "arn:wami:sts:007/18446744073709551615:wami:i/1:aws:1:global:user/a:b/c:" := by decide
  obtain ⟨a, ha⟩ := (parse_grammar _).1.2 ⟨r, hr, htext⟩
  exact ⟨hr, a, ha, (parse_grammar _).2.2 r a hr htext ha⟩

end Arn

end TenantIam
