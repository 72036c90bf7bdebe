import TenantIam.Proofs.Arn.Canonical
import TenantIam.Proofs.Provider.Decoding

/-!
# Resource names and their identifiers at providers

The identifier of a resource name says to which account it is mapped and which resource it is.
Tenant path and instance are not in it, and the region is in it at one provider only; with these
supplied, the resource name is rebuilt, provided that the provider's token of the service stands for
no other service. Whether account and resource are those of the resource name does not depend on
that: it depends on the separator of the provider alone.
-/

namespace TenantIam

/-- A mapping that is admissible can take the place of another one. -/
theorem Arn.exists_withMapping (a : Arn) (mapping : Option CloudMapping)
    (h : ∀ m ∈ mapping, IsPart [':', '/'] m.provider ∧ IsPart [':', '/'] m.accountId ∧
      ∀ region ∈ m.region, IsPart [':', '/'] region) :
    ∃ b, a.withMapping mapping = .ok b ∧
      b.toArnParts = { a.toArnParts with mapping := mapping.map .folded } := by
  obtain ⟨hservice, hinstance, -, hresource⟩ :=
    ArnParts.defect?_eq_none_iff.1 a.admissible.flawless
  have hflawless : { a.toArnParts with mapping }.defect? = none :=
    ArnParts.defect?_eq_none_iff.2 ⟨hservice, hinstance, h, hresource⟩
  obtain ⟨b, hb⟩ := exists_ofParts_iff.2 hflawless
  exact ⟨b, hb, ofParts_eq_ok_iff.1 hb⟩

namespace Provider

/-- The services that the identifiers of a provider tell apart. -/
def Carries (p : Provider) : Service → Prop
  | .iam | .ssoAdmin => True
  | .sts => p = aws
  | .custom name =>
    match p with
    | aws | scaleway => name ≠ "sso"
    | azure =>
      '/' ∉ name.toList ∧ name ≠ "Microsoft.Authorization" ∧ name ≠ "Microsoft.AzureActiveDirectory"
    | gcp =>
      '/' ∉ name.toList ∧ name ≠ "cloudidentity" ∧ ¬ ".googleapis.com".toList <:+ name.toList

instance (p : Provider) : (s : Service) → Decidable (p.Carries s)
  | .iam | .ssoAdmin => inferInstanceAs (Decidable True)
  | .sts => inferInstanceAs (Decidable (p = aws))
  | .custom _ =>
    match p with
    | aws | scaleway => inferInstanceAs (Decidable (_ ≠ _))
    | azure | gcp => inferInstanceAs (Decidable (_ ∧ _ ∧ _))

theorem Carries.separator_not_mem {p : Provider} {s : Service} (h : p.Carries s)
    (hcolon : ':' ∉ s.token.toList) : p.separator ∉ s.token.toList := by
  cases s with
  | custom name =>
      cases p with
      | aws | scaleway => exact hcolon
      | azure | gcp => exact h.1
  | _ => cases p <;> decide

theorem Gcp.service_token_custom {name : String} (hiam : name ≠ "iam")
    (hidentity : name ≠ "cloudidentity") (hdomain : ¬ ".googleapis.com".toList <:+ name.toList) :
    Gcp.service (Gcp.token (.custom name)) = .custom name := by
  have hhost : ∀ word : String, name ≠ word ++ Gcp.domain := by
    rintro word rfl
    exact hdomain ⟨word.toList, by rw [String.toList_append]; rfl⟩
  have hkept : Text.withoutEnding Gcp.domain name = name := Text.withoutEnding_of_not_suffix hdomain
  simp only [Gcp.token]
  split
  · simp [Gcp.service, hhost, hkept]
  · simp [Gcp.service, hiam, hidentity, Text.withoutEnding_append]

/-- A service that a provider carries is found again from the provider's token for it. -/
theorem service_token {p : Provider} {s : Service} (h : p.Carries s)
    (hs : .ofToken s.token = s) : p.codec.service (p.codec.token s) = s := by
  cases s with
  | custom name =>
      have hknown : name ≠ "iam" ∧ name ≠ "sts" ∧ name ≠ "sso-admin" := by
        refine ⟨?_, ?_, ?_⟩ <;> rintro rfl <;> cases hs
      cases p with
      | aws =>
        have h : name ≠ "sso" := h
        simp [codec, Aws.codec, Aws.token, Service.token, Aws.service, hknown, h]
      | gcp => exact Gcp.service_token_custom hknown.1 h.2.1 h.2.2
      | azure => simp [codec, Azure.codec, Azure.token, Azure.service, h.2.1, h.2.2]
      | scaleway =>
        have h : name ≠ "sso" := h
        simp [codec, Scaleway.codec, Scaleway.token, Scaleway.service, hknown, h]
  | sts =>
      obtain rfl : p = aws := h
      rfl
  | _ => cases p <;> rfl

end Provider

namespace Provider

variable {p : Provider} {a : Arn} {m : CloudMapping}

theorem mem_of_mem_regionKept {region : String}
    (h : region ∈ (CloudMapping.of m.provider m.accountId (p.regionKept m)).region) :
    region ∈ m.region := by
  have hkept : p.regionKept m = some region := (Option.filter_eq_some_iff.1 h).1
  cases p with
  | aws => exact hkept
  | _ => cases hkept

/-- The identifier of a resource name at the provider that it is mapped to. -/
theorem providerId_eq (hmapping : a.mapping = some m) (hprovider : m.provider = p.name) :
    a.providerId = .ok (p.codec.encode m a.service a.resource) := by
  have hname : ofName? p.name = some p := ofName?_eq_some_iff.2 rfl
  simp [Arn.providerId, Arn.provider?, hmapping, hprovider, hname, identifier]

/-- What is rebuilt is the resource name with the account, the service and the resource of the
identifier. -/
theorem Info.rebuild_eq_ok (info : Info) (ha : a.normalize = a)
    (hservice : info.provider.codec.service info.serviceToken = a.service)
    (hmapping : a.mapping = some (.of info.provider.name info.accountId info.region))
    (hresource : info.resource = a.resource) :
    info.rebuild { tenantPath := a.tenantPath, instanceId := a.instanceId } = .ok a := by
  have hedits : a.edits =
      [.service a.service, .tenant a.tenantPath, .instanceId a.instanceId, .resource a.resource,
        .mapping (.of info.provider.name info.accountId info.region)] := by
    simp [Arn.edits, hmapping]
  have hfinish := Arn.finish_run_edits ha (List.Perm.refl a.edits)
  rw [hedits] at hfinish
  simp only [rebuild, Info.service, Option.getD_none, hservice, hresource]
  exact hfinish

/-- **From identifiers back to resource names.** For a resource name that is made from a draft and
whose service the provider carries, the identifier at the provider is read, and with tenant path and
instance supplied the resource name is rebuilt: as it was at AWS, and without its region at the
other providers. -/
theorem rebuild_identifier {edits : List ArnDraft.Edit}
    (ha : (ArnDraft.run {} edits).finish = .ok a) (hmapping : a.mapping = some m)
    (hprovider : m.provider = p.name) (hcarries : p.Carries a.service) :
    ∃ id info b, a.providerId = .ok id ∧ p.codec.decode id = .ok info ∧
      info.rebuild { tenantPath := a.tenantPath, instanceId := a.instanceId } = .ok b ∧
      (p = .aws → b = a) ∧
      (p ≠ .aws → a.withMapping (some (.of m.provider m.accountId none)) = .ok b) := by
  have hnormal := ArnDraft.normalize_eq_of_finish ha
  obtain ⟨hservice, -, hplace, hresource⟩ := ArnParts.defect?_eq_none_iff.1 a.admissible.flawless
  obtain ⟨hname, haccount, hregion⟩ := hplace m hmapping
  have hdecode := decode_encode (hcarries.separator_not_mem (hservice.not_mem (by simp)))
    hservice.1 haccount hregion hresource
  -- the resource name with the region that the identifier keeps
  obtain ⟨b, hwith, hb⟩ :=
    a.exists_withMapping (some (.of m.provider m.accountId (p.regionKept m))) (by
      rintro _ ⟨⟩
      exact ⟨hname, haccount, fun region h => hregion region (mem_of_mem_regionKept h)⟩)
  rw [Option.map_some, CloudMapping.folded_of] at hb
  have hbnormal : b.normalize = b := by
    rw [Arn.normalize_eq_iff] at hnormal ⊢
    rwa [hb]
  refine ⟨_, _, b, providerId_eq hmapping hprovider, hdecode, ?_, ?_, ?_⟩
  · have hrebuild := Info.rebuild_eq_ok
      { provider := p, accountId := m.accountId, serviceToken := p.codec.token a.service
        resource := a.resource, region := p.regionKept m }
      hbnormal
      (by rw [hb]; exact service_token hcarries (Arn.normalize_eq_iff.1 hnormal))
      (by rw [hb, ← hprovider]) (by rw [hb])
    rw [hb] at hrebuild
    exact hrebuild
  · rintro rfl
    apply Arn.eq_of_toArnParts_eq
    have hself : CloudMapping.of m.provider m.accountId m.region = m :=
      CloudMapping.folded_eq_iff.2 (a.admissible.folded m hmapping)
    rw [hb, regionKept, hself, ← hmapping]
  · intro hp
    have hkept : p.regionKept m = none := by cases p <;> first | rfl | exact absurd rfl hp
    rwa [hkept] at hwith

/-- A service that is a host and an identifier with both separators, at AWS and at GCP. -/
theorem rebuild_identifier_host :
    let edits (provider : String) : List ArnDraft.Edit :=
      [.serviceToken "storage.v1", .segments [.text "1", .text "02"], .instanceId "i/1",
        .regionalAccount provider "acc" "eu", .resource { type := "users", id := "a:b/c" }]
    let parts (provider : String) : ArnParts :=
      { service := .custom "storage.v1", tenantPath := ⟨[1, 2], by decide⟩, instanceId := "i/1"
        mapping := some (.of provider "acc" (some "eu"))
        resource := { type := "users", id := "a:b/c" } }
    let a : Arn := ⟨parts "aws", by decide⟩
    let b : Arn := ⟨parts "gcp", by decide⟩
    (ArnDraft.run {} (edits "aws")).finish = .ok a ∧
      (ArnDraft.run {} (edits "gcp")).finish = .ok b ∧
      b.providerId = .ok "//storage.v1/projects/acc/userss/a:b/c" ∧
      (∃ id info, a.providerId = .ok id ∧ aws.codec.decode id = .ok info ∧
        info.rebuild { tenantPath := a.tenantPath, instanceId := a.instanceId } = .ok a) ∧
      ∃ id info c, b.providerId = .ok id ∧ gcp.codec.decode id = .ok info ∧
        info.rebuild { tenantPath := b.tenantPath, instanceId := b.instanceId } = .ok c ∧
        b.withMapping (some (.of "gcp" "acc" none)) = .ok c := by
  intro edits parts a b
  have ha : (ArnDraft.run {} (edits "aws")).finish = .ok a :=
    ArnDraft.finish_eq_ok_iff.2 ⟨rfl, ⟨_, rfl, by rfl⟩, rfl, rfl, rfl⟩
  have hb : (ArnDraft.run {} (edits "gcp")).finish = .ok b :=
    ArnDraft.finish_eq_ok_iff.2 ⟨rfl, ⟨_, rfl, by rfl⟩, rfl, rfl, rfl⟩
  obtain ⟨id, info, c, hid, hinfo, hrebuild, hsame, -⟩ :=
    rebuild_identifier (p := .aws) ha rfl rfl (by decide)
  obtain ⟨id', info', c', hid', hinfo', hrebuild', -, hplaced⟩ :=
    rebuild_identifier (p := .gcp) hb rfl rfl (by decide)
  refine ⟨ha, hb, by decide, ⟨id, info, hid, hinfo, ?_⟩, id', info', c', hid', hinfo', hrebuild',
    hplaced (by decide)⟩
  rw [hrebuild, hsame rfl]

/-- **Which identifiers say what they are identifiers of.** The identifier of a resource name at the
provider that it is mapped to is that of its account and its resource exactly when the separator of
the provider is not in its service. It never is at the providers that separate by colons; at the
others an identifier with a slash in the service, if it is read at all, is read as another
resource. -/
theorem identifier_names_iff (hmapping : a.mapping = some m) (hprovider : m.provider = p.name) :
    ∃ id, a.providerId = .ok id ∧
      ((p = .aws ∨ p = .scaleway ∨ '/' ∉ a.service.token.toList) →
        ∃ info, p.codec.decode id = .ok info) ∧
      ∀ info, p.codec.decode id = .ok info →
        (info.accountId = m.accountId ∧ info.resource = a.resource ↔
          p = .aws ∨ p = .scaleway ∨ '/' ∉ a.service.token.toList) := by
  obtain ⟨hservice, -, hplace, hresource⟩ := ArnParts.defect?_eq_none_iff.1 a.admissible.flawless
  obtain ⟨-, haccount, hregion⟩ := hplace m hmapping
  have hcolon : ':' ∉ a.service.token.toList := hservice.not_mem (by simp)
  have hseparator : p.separator ∉ a.service.token.toList ↔
      p = .aws ∨ p = .scaleway ∨ '/' ∉ a.service.token.toList := by
    cases p <;> simp [separator, hcolon]
  rw [← hseparator]
  refine ⟨_, providerId_eq hmapping hprovider, ?_, ?_⟩
  · intro hp
    exact ⟨_, decode_encode hp hservice.1 haccount hregion hresource⟩
  · intro info hinfo
    constructor
    · rintro ⟨-, hsame⟩ hp
      exact resource_ne_of_separator_mem hp hcolon haccount hresource hinfo hsame
    · intro hp
      rw [decode_encode hp hservice.1 haccount hregion hresource] at hinfo
      cases hinfo
      exact ⟨rfl, rfl⟩

/-- A slash in the service does no harm where colons separate. -/
theorem identifier_names_iff_colon :
    let a : Arn :=
      ⟨{ service := .custom "a/b", tenantPath := ⟨[1], by decide⟩, instanceId := "9"
         mapping := some (.of "scaleway" "acc" none)
         resource := { type := "user", id := "x:/y" } },
        by decide⟩
    ∃ id info, a.providerId = .ok id ∧ scaleway.codec.decode id = .ok info ∧
      info.accountId = "acc" ∧ info.resource = a.resource := by
  intro a
  obtain ⟨id, hid, hread, hnames⟩ := identifier_names_iff (p := .scaleway) (a := a) rfl rfl
  obtain ⟨info, hinfo⟩ := hread (by decide)
  exact ⟨id, info, hid, hinfo, (hnames info hinfo).2 (by decide)⟩

/-- **Two resource names with one identifier.** Both can be made from drafts; what the identifier
says is one of them, so of the other it says another type and another identifier. -/
theorem identifier_of_two :
    let parts (service : String) (resource : Resource) : ArnParts :=
      { service := .custom service, tenantPath := ⟨[1], by decide⟩, instanceId := "9"
        mapping := some (.of "azure" "acc" none), resource }
    let a : Arn := ⟨parts "a/b" { type := "user", id := "alice" }, by decide⟩
    let b : Arn := ⟨parts "a" { type := "b", id := "user/alice" }, by decide⟩
    let id := "/subscriptions/acc/resourceGroups/wami-resources/providers/a/b/user/alice"
    (ArnDraft.run {} a.edits).finish = .ok a ∧ (ArnDraft.run {} b.edits).finish = .ok b ∧
      a.providerId = .ok id ∧ b.providerId = .ok id ∧
      ∃ info, azure.codec.decode id = .ok info ∧ info.accountId = "acc" ∧
        info.resource = b.resource ∧ info.resource.type ≠ a.resource.type ∧
        info.resource.id ≠ a.resource.id := by
  intro parts a b id
  have hfinish : ∀ c : Arn, c.normalize = c → (ArnDraft.run {} c.edits).finish = .ok c :=
    fun c hc => Arn.finish_run_edits hc (List.Perm.refl c.edits)
  refine ⟨hfinish a (by decide), hfinish b (by decide), by decide, by decide,
    { provider := azure, accountId := "acc", serviceToken := "a", resource := b.resource
      region := none }, by decide, rfl, rfl, by decide, by decide⟩

end Provider

end TenantIam
