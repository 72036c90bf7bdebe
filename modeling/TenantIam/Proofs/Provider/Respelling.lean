import TenantIam.Proofs.Provider.Identifiers

/-!
# Identifiers that are read and written again

An identifier that is read, and rebuilt to a resource name, has an identifier again. That is the one
it was made from, part by part, with two kinds of exceptions. Some parts are not in a resource name:
a region that is none, the group at Azure, and at GCP whether a type stood in the plural. And the
service is written in the way in which the provider writes it, however it was spelt before.
-/

namespace TenantIam

/-- With its ending taken away and added again, a text ends with it and is otherwise the same. -/
theorem Text.withoutEnding_append_self (ending s : String) :
    withoutEnding ending s ++ ending =
      if ending.toList <:+ s.toList then s else s ++ ending := by
  split
  · next hsuffix =>
    obtain ⟨start, hstart⟩ := hsuffix
    have hs : s = String.ofList start ++ ending := by
      apply String.toList_inj.1
      simp [hstart]
    rw [hs, withoutEnding_append]
  · next hsuffix => rw [withoutEnding_of_not_suffix hsuffix]

namespace Provider

/-- The host is one in the domain of the provider, with a further dot before the domain. -/
def Gcp.IsDeep (host : String) : Prop :=
  ∃ name : String, '.' ∈ name.toList ∧ host = name ++ Gcp.domain

/-- The host of a service whose name in the library is another one at the provider. -/
def Gcp.canonicalHost (host : String) : String :=
  if host = "sts.googleapis.com" then "iam.googleapis.com"
  else if host = "sso-admin.googleapis.com" then "cloudidentity.googleapis.com"
  else host

/-- How a provider writes the service that one of its tokens stands for. The names that the library
has for services are understood everywhere; GCP writes hosts. -/
def spelling : Provider → String → String
  | aws, token => if token = "sso-admin" then "sso" else token
  | scaleway, token =>
    if token = "sts" then "iam" else if token = "sso-admin" then "sso" else token
  | azure, token =>
    if token = "iam" ∨ token = "sts" then "Microsoft.Authorization"
    else if token = "sso-admin" then "Microsoft.AzureActiveDirectory"
    else token
  | gcp, token =>
    Gcp.canonicalHost (if '.' ∈ token.toList then token else token ++ ".googleapis.com")

/-- An identifier with another token for the service, and with what resource names do not keep: the
region `global` is none, the group is that of all resources, and types stand in the plural. -/
def rewritten (p : Provider) (token identifier : String) : String :=
  let parts := Text.pieces p.separator identifier
  Text.joinWith p.separator <|
    match p with
    | aws => (parts.set 2 token).modify 3 fun region => if region = "global" then "" else region
    | scaleway => parts.set 2 token
    | azure => (parts.set 4 Azure.resourceGroup).set 6 token
    | gcp =>
      (parts.set 2 token).modify 5 fun type =>
        if "s".toList <:+ type.toList then type else type ++ "s"

variable {p : Provider} {identifier : String} {info : Info}

/-! ## What is read is written -/

theorem path_of_resourceTail? {text : String} {r : Resource} (h : resourceTail? text = some r) :
    r.path = text := by
  unfold resourceTail? at h
  split at h
  · next type id hcut =>
    obtain ⟨htext, -⟩ := Text.cutFirst_eq_some_iff.1 hcut
    split at h
    · cases h
    · cases h
      apply String.toList_inj.1
      rw [htext, Resource.toList_path]
      simp
  · cases h

theorem Aws.of_decode_eq_ok (h : Aws.decode identifier = .ok info) :
    info.provider = aws ∧
      ∀ s, Aws.encode (.of info.provider.name info.accountId info.region) s info.resource =
        aws.rewritten (Aws.token s) identifier := by
  unfold Aws.decode at h
  split at h
  · next head space token region account part more hpieces =>
    split at h
    · next hhead =>
      obtain ⟨rfl, rfl⟩ := hhead
      dsimp only at h
      split at h
      · cases h
      · next resource htail =>
        cases h
        refine ⟨rfl, fun s => ?_⟩
        have hregion : (CloudMapping.of aws.name account
            (if region = "" then none else some region)).region.getD "" =
              if region = "global" then "" else region := by
          by_cases hempty : region = ""
          · simp [CloudMapping.of, hempty]
          · by_cases hglobal : region = "global" <;>
              simp [CloudMapping.of, Option.filter, hempty, hglobal]
        simp only [Aws.encode, rewritten, separator, hpieces, hregion, path_of_resourceTail? htail]
        exact (Text.joinWith_append (List.cons_ne_nil part more)
          ["arn", "aws", Aws.token s, if region = "global" then "" else region, account]).symm
    · cases h
  · cases h

theorem Scaleway.of_decode_eq_ok (h : Scaleway.decode identifier = .ok info) :
    info.provider = scaleway ∧
      ∀ s, Scaleway.encode (.of info.provider.name info.accountId info.region) s info.resource =
        scaleway.rewritten (Scaleway.token s) identifier := by
  unfold Scaleway.decode at h
  split at h
  · next head account token part more hpieces =>
    split at h
    · next hhead =>
      obtain rfl := hhead
      dsimp only at h
      split at h
      · cases h
      · next resource htail =>
        cases h
        refine ⟨rfl, fun s => ?_⟩
        simp only [Scaleway.encode, rewritten, separator, hpieces, path_of_resourceTail? htail]
        exact (Text.joinWith_append (List.cons_ne_nil part more)
          ["scw", account, Scaleway.token s]).symm
    · cases h
  · cases h

theorem Azure.of_decode_eq_ok (h : Azure.decode identifier = .ok info) :
    info.provider = azure ∧
      ∀ s, Azure.encode (.of info.provider.name info.accountId info.region) s info.resource =
        azure.rewritten (Azure.token s) identifier := by
  unfold Azure.decode at h
  split at h
  · next subscriptions account groups group providers token type part more hpieces =>
    split at h
    · cases h
    · next hsubscriptions =>
      split at h
      · cases h
      · next hgroups =>
        dsimp only at h
        split at h
        · cases h
        · cases h
          refine ⟨rfl, fun s => ?_⟩
          rw [not_or] at hgroups
          obtain ⟨hgroups, hproviders⟩ := hgroups
          simp only [Azure.encode, rewritten, separator, hpieces,
            Decidable.not_not.1 hsubscriptions, Decidable.not_not.1 hgroups,
            Decidable.not_not.1 hproviders]
          exact (Text.joinWith_append (List.cons_ne_nil part more)
            ["", "subscriptions", account, "resourceGroups", resourceGroup, "providers",
              Azure.token s, type]).symm
  · cases h

/-- The pieces of a text after two slashes. -/
theorem Gcp.pieces_of_dropStart? {rest : List Char}
    (h : Text.dropStart? ['/', '/'] identifier.toList = some rest) :
    Text.pieces '/' identifier = "" :: "" :: Text.pieces '/' (String.ofList rest) := by
  have htext : identifier = "" ++ String.singleton '/' ++
      ("" ++ String.singleton '/' ++ String.ofList rest) := by
    apply String.toList_inj.1
    rw [Text.dropStart?_eq_some_iff.1 h]
    simp
  rw [htext, Text.pieces_cons_sep (by simp), Text.pieces_cons_sep (by simp)]

theorem Gcp.of_decode_eq_ok (h : Gcp.decode identifier = .ok info) :
    info.provider = gcp ∧
      ∀ s, Gcp.encode (.of info.provider.name info.accountId info.region) s info.resource =
        gcp.rewritten (Gcp.token s) identifier := by
  unfold Gcp.decode at h
  split at h
  · cases h
  · next rest hrest =>
    split at h
    · next token projects account type part more hpieces =>
      split at h
      · next hprojects =>
        obtain rfl := hprojects
        dsimp only at h
        split at h
        · cases h
        · cases h
          refine ⟨rfl, fun s => ?_⟩
          -- the two slashes in front come back as two empty pieces
          have hall := Gcp.pieces_of_dropStart? hrest
          rw [hpieces] at hall
          have hslashes (l : List String) (hl : l ≠ []) :
              "//" ++ Text.joinWith '/' l = Text.joinWith '/' ("" :: "" :: l) := by
            rw [Text.joinWith_cons (by simp), Text.joinWith_cons hl]
            rfl
          rw [Gcp.encode_eq, Text.withoutEnding_append_self, hslashes _ (by simp)]
          simp only [rewritten, separator, hall]
          exact (Text.joinWith_append (List.cons_ne_nil part more)
            ["", "", Gcp.token s, "projects", account,
              if "s".toList <:+ type.toList then type else type ++ "s"]).symm
      · cases h
    · cases h

/-- **What is read is written again.** An identifier that is read is one of its provider, and the
identifier of the resource that it is about, whatever the service, is the identifier itself with the
token for that service. -/
theorem of_decode_eq_ok (h : p.codec.decode identifier = .ok info) :
    info.provider = p ∧
      ∀ s, p.codec.encode (.of info.provider.name info.accountId info.region) s info.resource =
        p.rewritten (p.codec.token s) identifier := by
  cases p with
  | aws => exact Aws.of_decode_eq_ok h
  | gcp => exact Gcp.of_decode_eq_ok h
  | azure => exact Azure.of_decode_eq_ok h
  | scaleway => exact Scaleway.of_decode_eq_ok h

/-! ## How services are spelt -/

/-- Where tokens are names, the few that are known to the provider or the library can be looked up,
and every other one is written as it is. -/
theorem token_service_of_ne_gcp (hp : p ≠ gcp) (token : String) :
    p.codec.token (.ofToken (p.codec.service token).token) = p.spelling token := by
  have hknown : ∀ p : Provider, p ≠ gcp →
      ∀ word ∈ ["iam", "sts", "sso", "sso-admin", "Microsoft.Authorization",
          "Microsoft.AzureActiveDirectory"],
        p.codec.token (.ofToken (p.codec.service word).token) = p.spelling word := by
    intro p
    cases p <;> decide
  by_cases hword : token ∈ ["iam", "sts", "sso", "sso-admin", "Microsoft.Authorization",
      "Microsoft.AzureActiveDirectory"]
  · exact hknown p hp token hword
  · simp only [List.mem_cons, List.not_mem_nil, or_false, not_or] at hword
    cases p with
    | gcp => exact absurd rfl hp
    | aws =>
        simp [codec, Aws.codec, Aws.service, Service.ofToken, Service.token, Aws.token, spelling,
          hword]
    | azure =>
        simp [codec, Azure.codec, Azure.service, Service.ofToken, Service.token, Azure.token,
          spelling, hword]
    | scaleway =>
        simp [codec, Scaleway.codec, Scaleway.service, Service.ofToken, Service.token,
          Scaleway.token, spelling, hword]

/-- A bare name is written in the domain of the provider, under the name that it has there. -/
theorem Gcp.token_ofToken {name : String} (hdot : '.' ∉ name.toList) :
    Gcp.token (.ofToken name) = Gcp.canonicalHost (name ++ ".googleapis.com") := by
  have hknown : ∀ word ∈ ["iam", "sts", "sso-admin"],
      Gcp.token (.ofToken word) = Gcp.canonicalHost (word ++ ".googleapis.com") := by decide
  by_cases hword : name ∈ ["iam", "sts", "sso-admin"]
  · exact hknown name hword
  · simp only [List.mem_cons, List.not_mem_nil, or_false, not_or] at hword
    have hother (word : String) (hne : name ≠ word) :
        name ++ ".googleapis.com" ≠ word ++ ".googleapis.com" := fun h =>
      hne ((String.append_left_inj _).1 h)
    have hsts : name ++ ".googleapis.com" ≠ "sts.googleapis.com" := hother "sts" hword.2.1
    have hadmin : name ++ ".googleapis.com" ≠ "sso-admin.googleapis.com" :=
      hother "sso-admin" hword.2.2
    simp [Service.ofToken, Gcp.token, Gcp.canonicalHost, Gcp.domain, hword, hdot, hsts, hadmin]

/-- The services of hosts are written as spelt, unless the host lies deeper in the domain. -/
theorem Gcp.token_service {host : String} (hdeep : ¬ Gcp.IsDeep host) :
    Gcp.token (.ofToken (Gcp.service host).token) = gcp.spelling host := by
  by_cases hiam : host = "iam.googleapis.com"
  · subst hiam
    decide
  by_cases hidentity : host = "cloudidentity.googleapis.com"
  · subst hidentity
    decide
  have hservice : Gcp.service host = .custom (Text.withoutEnding Gcp.domain host) := by
    have hiam : host ≠ "iam" ++ Gcp.domain := hiam
    have hidentity : host ≠ "cloudidentity" ++ Gcp.domain := hidentity
    simp [Gcp.service, hiam, hidentity]
  rw [hservice]
  show Gcp.token (.ofToken (Text.withoutEnding Gcp.domain host)) = Gcp.canonicalHost _
  by_cases hdomain : Gcp.domain.toList <:+ host.toList
  · -- what stands before the domain is a bare name
    have hhost : host = Text.withoutEnding Gcp.domain host ++ Gcp.domain := by
      rw [Text.withoutEnding_append_self, if_pos hdomain]
    have hbare : '.' ∉ (Text.withoutEnding Gcp.domain host).toList := fun hdot =>
      hdeep ⟨_, hdot, hhost⟩
    have hdot : '.' ∈ host.toList := hdomain.subset (by decide)
    rw [if_pos hdot, Gcp.token_ofToken hbare]
    exact congrArg Gcp.canonicalHost hhost.symm
  · rw [Text.withoutEnding_of_not_suffix hdomain]
    by_cases hdot : '.' ∈ host.toList
    · rw [if_pos hdot]
      -- a host outside of the domain is no name of the library, and is written as it is
      have hword (word : String) (hfree : '.' ∉ word.toList) : host ≠ word := by
        rintro rfl
        exact hfree hdot
      have houtside (word : String) (hends : Gcp.domain.toList <:+ word.toList) : host ≠ word := by
        rintro rfl
        exact hdomain hends
      have hiam : host ≠ "iam" := hword _ (by decide)
      have hsts : host ≠ "sts" := hword _ (by decide)
      have hadmin : host ≠ "sso-admin" := hword _ (by decide)
      have hstsHost : host ≠ "sts.googleapis.com" := houtside _ (by decide)
      have hadminHost : host ≠ "sso-admin.googleapis.com" := houtside _ (by decide)
      simp [Service.ofToken, Gcp.token, Gcp.canonicalHost, *]
    · rw [if_neg hdot, Gcp.token_ofToken hdot]

/-- **Services are written as spelt.** The token that a provider writes for the service that one of
its tokens stands for is the spelling of that token. -/
theorem token_service {token : String} (hdeep : ¬ (p = gcp ∧ Gcp.IsDeep token)) :
    p.codec.token (.ofToken (p.codec.service token).token) = p.spelling token := by
  by_cases hp : p = gcp
  · subst hp
    exact Gcp.token_service fun h => hdeep ⟨rfl, h⟩
  · exact token_service_of_ne_gcp hp token

/-! ## Reading, rebuilding and writing -/

/-- What is rebuilt has the service, the mapping and the resource that the identifier says. -/
theorem Info.of_rebuild_eq_ok {scope : Scope} {a : Arn} (h : info.rebuild scope = .ok a) :
    a.service = .ofToken (info.service scope).token ∧ a.resource = info.resource ∧
      a.mapping = some (.of info.provider.name info.accountId info.region) := by
  obtain ⟨hservice, -, -, hresource, hmapping⟩ := ArnDraft.finish_eq_ok_iff.1 h
  have hplace : (CloudMapping.of info.provider.name info.accountId info.region).folded.folded =
      .of info.provider.name info.accountId info.region := by simp
  exact ⟨(Option.some.inj hservice).symm, (Option.some.inj hresource).symm,
    hmapping.symm.trans (congrArg some hplace)⟩

/-- **Identifiers come back.** An identifier that is read, and rebuilt to a resource name with the
service that it names, is the identifier of that resource name, except that a region `global` is
left out at AWS, the group is that of all resources at Azure, the type gains a final letter at GCP
if it has none, and the service is written as spelt. What is written for a host that lies deeper in
the domain is left open. -/
theorem providerId_rebuild {scope : Scope} {a : Arn} (hinfo : p.codec.decode identifier = .ok info)
    (hscope : scope.service = none) (ha : info.rebuild scope = .ok a) :
    ∃ token, a.providerId = .ok (p.rewritten token identifier) ∧
      (¬ (p = gcp ∧ Gcp.IsDeep info.serviceToken) → token = p.spelling info.serviceToken) := by
  obtain ⟨hservice, hresource, hmapping⟩ := Info.of_rebuild_eq_ok ha
  obtain ⟨hprovider, hwritten⟩ := of_decode_eq_ok hinfo
  rw [Info.service, hscope, Option.getD_none, hprovider] at hservice
  refine ⟨p.codec.token a.service, ?_, ?_⟩
  · rw [providerId_eq hmapping (congrArg name hprovider), hresource, hwritten]
  · intro hdeep
    rw [hservice, token_service hdeep]

/-- A region that is none, a group of its own, a type in the singular under a bare name, and a
service that the provider does not have. -/
theorem providerId_rebuild_spelt :
    let scope : Scope := { tenantPath := ⟨[1], by decide⟩, instanceId := "9" }
    let comesBack (p : Provider) (identifier written : String) : Prop :=
      ∃ info a, p.codec.decode identifier = .ok info ∧ info.rebuild scope = .ok a ∧
        a.providerId = .ok written
    comesBack aws "arn:aws:s3:global:acc:bucket/a:b/c" "arn:aws:s3::acc:bucket/a:b/c" ∧
      comesBack azure "/subscriptions/acc/resourceGroups/own/providers/iam/user/x/y"
        ("/subscriptions/acc/resourceGroups/wami-resources/providers/" ++
          "Microsoft.Authorization/user/x/y") ∧
      comesBack gcp "//storage/projects/acc/data/x"
        "//storage.googleapis.com/projects/acc/datas/x" ∧
      comesBack scaleway "scw:acc:sts:user/x" "scw:acc:iam:user/x" := by
  intro scope comesBack
  have hback (p : Provider) (identifier : String) (info : Info) {written : String}
      (hinfo : p.codec.decode identifier = .ok info)
      (hbuilt : (info.rebuild scope).toOption.isSome = true)
      (hdeep : ¬ (p = gcp ∧ Gcp.IsDeep info.serviceToken))
      (hwritten : p.rewritten (p.spelling info.serviceToken) identifier = written) :
      comesBack p identifier written := by
    obtain ⟨a, ha⟩ := Option.isSome_iff_exists.1 hbuilt
    rw [toOption_eq_some_iff] at ha
    obtain ⟨token, hid, htoken⟩ := providerId_rebuild hinfo rfl ha
    rw [htoken hdeep, hwritten] at hid
    exact ⟨info, a, hinfo, ha, hid⟩
  have hstorage : ¬ (gcp = gcp ∧ Gcp.IsDeep "storage") := by
    rintro ⟨-, name, hdot, hhost⟩
    have hfree : '.' ∉ "storage".toList := by decide
    rw [hhost, String.toList_append, List.mem_append, not_or] at hfree
    exact hfree.1 hdot
  refine ⟨?_, ?_, ?_, ?_⟩
  · exact hback aws _
      { provider := aws, accountId := "acc", serviceToken := "s3"
        resource := { type := "bucket", id := "a:b/c" }, region := some "global" }
      (by decide +kernel) (by decide +kernel) (by simp) (by decide +kernel)
  · exact hback azure _
      { provider := azure, accountId := "acc", serviceToken := "iam"
        resource := { type := "user", id := "x/y" }, region := none }
      (by decide +kernel) (by decide +kernel) (by simp) (by decide +kernel)
  · exact hback gcp _
      { provider := gcp, accountId := "acc", serviceToken := "storage"
        resource := { type := "data", id := "x" }, region := none }
      (by decide +kernel) (by decide +kernel) hstorage (by decide +kernel)
  · exact hback scaleway _
      { provider := scaleway, accountId := "acc", serviceToken := "sts"
        resource := { type := "user", id := "x" }, region := none }
      (by decide +kernel) (by decide +kernel) (by simp) (by decide +kernel)

/-- **Services are respelt.** Names that the library has for services, and bare names at GCP, are
read, but other names are written for them. -/
theorem providerId_rebuild_respelt :
    let scope : Scope := { tenantPath := ⟨[1], by decide⟩, instanceId := "9" }
    let isRespelt (p : Provider) (identifier written : String) : Prop :=
      ∃ info a, p.codec.decode identifier = .ok info ∧ scope.service = none ∧
        info.rebuild scope = .ok a ∧ a.providerId = .ok written ∧
        p.rewritten info.serviceToken identifier = identifier ∧ written ≠ identifier
    isRespelt gcp "//storage/projects/p/buckets/b" "//storage.googleapis.com/projects/p/buckets/b" ∧
      isRespelt gcp "//sts.googleapis.com/projects/p/users/x"
        "//iam.googleapis.com/projects/p/users/x" ∧
      isRespelt aws "arn:aws:sso-admin::acc:user/x" "arn:aws:sso::acc:user/x" ∧
      isRespelt azure
        "/subscriptions/acc/resourceGroups/wami-resources/providers/sts/user/x"
        ("/subscriptions/acc/resourceGroups/wami-resources/providers/" ++
          "Microsoft.Authorization/user/x") ∧
      isRespelt scaleway "scw:acc:sts:user/x" "scw:acc:iam:user/x" := by
  intro scope isRespelt
  have hrespelt (p : Provider) (identifier : String) (info : Info) {written : String}
      (hinfo : p.codec.decode identifier = .ok info)
      (hid : ((info.rebuild scope).toOption.bind fun a => a.providerId.toOption) = some written)
      (hsame : p.rewritten info.serviceToken identifier = identifier)
      (hother : written ≠ identifier) : isRespelt p identifier written := by
    obtain ⟨a, ha, hid⟩ := Option.bind_eq_some_iff.1 hid
    rw [toOption_eq_some_iff] at ha hid
    exact ⟨info, a, hinfo, rfl, ha, hid, hsame, hother⟩
  let user : Resource := { type := "user", id := "x" }
  refine ⟨?_, ?_, ?_, ?_, ?_⟩
  · exact hrespelt gcp _
      { provider := gcp, accountId := "p", serviceToken := "storage"
        resource := { type := "bucket", id := "b" }, region := none }
      (by decide +kernel) (by decide +kernel) (by decide +kernel) (by decide)
  · exact hrespelt gcp _
      { provider := gcp, accountId := "p", serviceToken := "sts.googleapis.com"
        resource := user, region := none }
      (by decide +kernel) (by decide +kernel) (by decide +kernel) (by decide)
  · exact hrespelt aws _
      { provider := aws, accountId := "acc", serviceToken := "sso-admin", resource := user
        region := none }
      (by decide +kernel) (by decide +kernel) (by decide +kernel) (by decide)
  · exact hrespelt azure _
      { provider := azure, accountId := "acc", serviceToken := "sts", resource := user
        region := none }
      (by decide +kernel) (by decide +kernel) (by decide +kernel) (by decide)
  · exact hrespelt scaleway _
      { provider := scaleway, accountId := "acc", serviceToken := "sts", resource := user
        region := none }
      (by decide +kernel) (by decide +kernel) (by decide +kernel) (by decide)

end Provider

end TenantIam
