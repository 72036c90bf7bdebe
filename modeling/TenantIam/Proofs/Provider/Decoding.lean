import TenantIam.Proofs.Arn.Grammar
import TenantIam.Provider.Codec

/-!
# Identifiers of providers are taken apart

An identifier joins its parts with the separator of its provider, and reading takes the parts by
their position. The parts of a resource name are free of every separator except the identifier of
the resource, which comes last, and the service, which may hold slashes. So an identifier is taken
apart into what it was made of when the separator of the provider is not in the service, and into
something else, if it is read at all, when it is.
-/

namespace TenantIam.Provider

/-- The separator between the parts of an identifier. -/
def separator : Provider → Char
  | aws | scaleway => ':'
  | gcp | azure => '/'

/-- The region of a mapping, where the identifiers of the provider have one. -/
def regionKept (p : Provider) (m : CloudMapping) : Option String :=
  match p with
  | aws => m.region
  | gcp | azure | scaleway => none

/-- The token of a provider holds the separator when the token of the service does. -/
theorem separator_mem_token_iff {p : Provider} {s : Service} :
    p.separator ∈ (p.codec.token s).toList ↔ p.separator ∈ s.token.toList := by
  cases s with
  | custom name =>
      cases p with
      | gcp =>
          have hdomain : '/' ∉ Gcp.domain.toList := by decide
          show '/' ∈ (Gcp.token (.custom name)).toList ↔ '/' ∈ name.toList
          simp only [Gcp.token]
          split <;> simp [hdomain]
      | _ => rfl
  | _ => cases p <;> decide

theorem token_ne_empty {p : Provider} {s : Service} (h : s.token ≠ "") : p.codec.token s ≠ "" := by
  cases s with
  | custom name =>
      cases p with
      | gcp =>
          show Gcp.token (.custom name) ≠ ""
          simp only [Gcp.token]
          split
          · exact h
          · simp [Gcp.domain]
      | _ => exact h
  | _ => cases p <;> decide

/-- A resource is found on the two sides of the first slash of its path. -/
theorem resourceTail?_path {r : Resource} (hr : r.WellFormed) : resourceTail? r.path = some r := by
  have hcut : Text.cutFirst '/' r.path.toList = some (r.type.toList, r.id.toList) :=
    Text.cutFirst_eq_some_iff.2 ⟨r.toList_path, hr.1.not_mem (by simp)⟩
  simp [resourceTail?, hcut, hr.1.1, hr.2]

section

variable {m : CloudMapping} {s : Service} {r : Resource}

theorem Aws.decode_encode (hservice : ':' ∉ s.token.toList)
    (haccount : IsPart [':', '/'] m.accountId)
    (hregion : ∀ region ∈ m.region, IsPart [':', '/'] region) (hr : r.WellFormed) :
    Aws.decode (Aws.encode m s r) =
      .ok
        { provider := .aws, accountId := m.accountId, serviceToken := Aws.token s, resource := r
          region := m.region } := by
  have htoken : ':' ∉ (Aws.token s).toList :=
    mt (separator_mem_token_iff (p := .aws)).1 hservice
  have haccount : ':' ∉ m.accountId.toList := haccount.not_mem (by simp)
  have hregionText : ':' ∉ (m.region.getD "").toList ∧
      (if m.region.getD "" = "" then none else some (m.region.getD "")) = m.region := by
    cases hm : m.region with
    | none => simp
    | some region =>
        have hpart := hregion region hm
        exact ⟨by simpa using hpart.not_mem (c := ':') (by simp), by simp [hpart.1]⟩
  have hpieces : Text.pieces ':' (Aws.encode m s r) =
      ["arn", "aws", Aws.token s, m.region.getD "", m.accountId] ++ Text.pieces ':' r.path := by
    refine Text.pieces_joinWith_concat
      (l := ["arn", "aws", Aws.token s, m.region.getD "", m.accountId]) ?_ r.path
    simp [htoken, haccount, hregionText.1]
  obtain ⟨first, more, hpath, -, -⟩ := r.exists_pieces_path hr
  have htail := Text.joinWith_pieces ':' r.path
  rw [hpath] at hpieces htail
  simp only [Aws.decode, hpieces, List.cons_append, List.nil_append, htail, resourceTail?_path hr,
    hregionText.2, and_self, if_true]

theorem Scaleway.decode_encode (hservice : ':' ∉ s.token.toList)
    (haccount : IsPart [':', '/'] m.accountId) (hr : r.WellFormed) :
    Scaleway.decode (Scaleway.encode m s r) =
      .ok
        { provider := .scaleway, accountId := m.accountId, serviceToken := Scaleway.token s
          resource := r, region := none } := by
  have htoken : ':' ∉ (Scaleway.token s).toList :=
    mt (separator_mem_token_iff (p := .scaleway)).1 hservice
  have haccount : ':' ∉ m.accountId.toList := haccount.not_mem (by simp)
  have hpieces : Text.pieces ':' (Scaleway.encode m s r) =
      ["scw", m.accountId, Scaleway.token s] ++ Text.pieces ':' r.path := by
    refine Text.pieces_joinWith_concat (l := ["scw", m.accountId, Scaleway.token s]) ?_ r.path
    simp [htoken, haccount]
  obtain ⟨first, more, hpath, -, -⟩ := r.exists_pieces_path hr
  have htail := Text.joinWith_pieces ':' r.path
  rw [hpath] at hpieces htail
  simp only [Scaleway.decode, hpieces, List.cons_append, List.nil_append, htail,
    resourceTail?_path hr, if_true]

/-- The pieces of a resource identifier; the service and the identifier are taken apart further. -/
theorem Azure.pieces_encode (haccount : IsPart [':', '/'] m.accountId) (hr : r.WellFormed) :
    Text.pieces '/' (Azure.encode m s r) =
      "" :: "subscriptions" :: m.accountId :: "resourceGroups" :: Azure.resourceGroup ::
        "providers" :: (Text.pieces '/' (Azure.token s) ++ r.type :: Text.pieces '/' r.id) := by
  have haccount : '/' ∉ m.accountId.toList := haccount.not_mem (by simp)
  have htype : '/' ∉ r.type.toList := hr.1.not_mem (by simp)
  have hfixed : ∀ word ∈ ["", "subscriptions", "resourceGroups", Azure.resourceGroup, "providers"],
      Text.pieces '/' word = [word] := fun word hword =>
    Text.pieces_of_not_mem (by revert word; decide)
  simp only [List.forall_mem_cons] at hfixed
  rw [Azure.encode, Text.pieces_joinWith_flatMap (by simp)]
  simp [hfixed, Text.pieces_of_not_mem haccount, Text.pieces_of_not_mem htype]

theorem Azure.decode_encode (hservice : '/' ∉ s.token.toList) (hne : s.token ≠ "")
    (haccount : IsPart [':', '/'] m.accountId) (hr : r.WellFormed) :
    Azure.decode (Azure.encode m s r) =
      .ok
        { provider := .azure, accountId := m.accountId, serviceToken := Azure.token s, resource := r
          region := none } := by
  have htoken : '/' ∉ (Azure.token s).toList :=
    mt (separator_mem_token_iff (p := .azure)).1 hservice
  have htokenNe : Azure.token s ≠ "" := token_ne_empty (p := .azure) hne
  have hpieces := Azure.pieces_encode (s := s) haccount hr
  have hid := Text.joinWith_pieces '/' r.id
  rw [Text.pieces_of_not_mem htoken] at hpieces
  match hsplit : Text.pieces '/' r.id with
  | [] => exact absurd hsplit (Text.pieces_ne_nil '/' r.id)
  | part :: more =>
      rw [hsplit] at hpieces hid
      simp [Azure.decode, hpieces, hid, haccount.1, htokenNe, hr.1.1, hr.2]

/-- A slash in the service moves parts of it and the type in front of the identifier. -/
theorem Azure.resource_ne_of_slash_mem (hservice : '/' ∈ s.token.toList)
    (haccount : IsPart [':', '/'] m.accountId) (hr : r.WellFormed) {info : Info}
    (hinfo : Azure.decode (Azure.encode m s r) = .ok info) : info.resource ≠ r := by
  have htoken : '/' ∈ (Azure.token s).toList := (separator_mem_token_iff (p := .azure)).2 hservice
  have hpieces := Azure.pieces_encode (s := s) haccount hr
  obtain ⟨first, second, more, hsplit⟩ := Text.exists_pieces_of_mem htoken
  have hid : Text.joinWith '/' (more ++ [r.type] ++ Text.pieces '/' r.id) ≠ r.id :=
    Text.joinWith_append_pieces_ne (by simp) r.id
  obtain ⟨part, rest, hrest⟩ :=
    List.exists_cons_of_ne_nil (List.append_ne_nil_of_right_ne_nil more
      (List.cons_ne_nil r.type (Text.pieces '/' r.id)))
  rw [List.append_assoc, List.singleton_append, hrest] at hid
  rw [hsplit, List.cons_append, List.cons_append, hrest] at hpieces
  -- the type is the second piece of the token, and the rest of the token comes before the type
  simp only [Azure.decode, hpieces] at hinfo
  intro hsame
  split at hinfo
  · cases hinfo
  · split at hinfo
    · cases hinfo
    · split at hinfo
      · cases hinfo
      · cases hinfo
        exact hid (congrArg Resource.id hsame)

/-- A resource name is a join after two slashes. -/
theorem Gcp.encode_eq :
    Gcp.encode m s r =
      "//" ++ Text.joinWith '/' [Gcp.token s, "projects", m.accountId, r.type ++ "s", r.id] := by
  apply String.toList_inj.1
  simp [Gcp.encode, Text.joinWith_cons (List.cons_ne_nil _ _)]

/-- The pieces of a resource name after the slashes; the host and the identifier are taken apart
further. -/
theorem Gcp.pieces_encode (haccount : IsPart [':', '/'] m.accountId) (hr : r.WellFormed) :
    ∃ text, Text.dropStart? ['/', '/'] (Gcp.encode m s r).toList = some text ∧
      Text.pieces '/' (String.ofList text) =
        Text.pieces '/' (Gcp.token s) ++
          "projects" :: m.accountId :: (r.type ++ "s") :: Text.pieces '/' r.id := by
  have haccount : '/' ∉ m.accountId.toList := haccount.not_mem (by simp)
  have hprojects : Text.pieces '/' "projects" = ["projects"] :=
    Text.pieces_of_not_mem (by decide)
  have htype : '/' ∉ (r.type ++ "s").toList := by
    have : '/' ∉ r.type.toList := hr.1.not_mem (by simp)
    simp [this]
  refine ⟨_, Text.dropStart?_eq_some_iff.2 (by rw [Gcp.encode_eq, String.toList_append]; rfl), ?_⟩
  rw [String.ofList_toList, Text.pieces_joinWith_flatMap (by simp)]
  simp [hprojects, Text.pieces_of_not_mem haccount, Text.pieces_of_not_mem htype]

theorem Gcp.decode_encode (hservice : '/' ∉ s.token.toList) (hne : s.token ≠ "")
    (haccount : IsPart [':', '/'] m.accountId) (hr : r.WellFormed) :
    Gcp.decode (Gcp.encode m s r) =
      .ok
        { provider := .gcp, accountId := m.accountId, serviceToken := Gcp.token s, resource := r
          region := none } := by
  have htoken : '/' ∉ (Gcp.token s).toList :=
    mt (separator_mem_token_iff (p := .gcp)).1 hservice
  have htokenNe : Gcp.token s ≠ "" := token_ne_empty (p := .gcp) hne
  obtain ⟨text, htext, hpieces⟩ := Gcp.pieces_encode (s := s) haccount hr
  have hid := Text.joinWith_pieces '/' r.id
  rw [Text.pieces_of_not_mem htoken] at hpieces
  match hsplit : Text.pieces '/' r.id with
  | [] => exact absurd hsplit (Text.pieces_ne_nil '/' r.id)
  | part :: more =>
      rw [hsplit] at hpieces hid
      simp [Gcp.decode, htext, hpieces, hid, Text.withoutEnding_append, haccount.1, htokenNe,
        hr.1.1, hr.2]

/-- A slash in the service moves parts before the identifier. -/
theorem Gcp.resource_ne_of_slash_mem (hservice : '/' ∈ s.token.toList)
    (haccount : IsPart [':', '/'] m.accountId) (hr : r.WellFormed) {info : Info}
    (hinfo : Gcp.decode (Gcp.encode m s r) = .ok info) : info.resource ≠ r := by
  have htoken : '/' ∈ (Gcp.token s).toList := (separator_mem_token_iff (p := .gcp)).2 hservice
  obtain ⟨text, htext, hpieces⟩ := Gcp.pieces_encode (s := s) haccount hr
  obtain ⟨first, second, more, hsplit⟩ := Text.exists_pieces_of_mem htoken
  -- of these parts two are taken for project and type, so at least one is left for the identifier
  obtain ⟨project, plural, part, rest, hrest⟩ : ∃ project plural part rest,
      more ++ ["projects", m.accountId, r.type ++ "s"] = project :: plural :: part :: rest := by
    match more with
    | [] => exact ⟨_, _, _, _, rfl⟩
    | [a] => exact ⟨_, _, _, _, rfl⟩
    | [a, b] => exact ⟨_, _, _, _, rfl⟩
    | a :: b :: c :: more => exact ⟨_, _, _, _, rfl⟩
  have hparts : more ++ "projects" :: m.accountId :: (r.type ++ "s") :: Text.pieces '/' r.id =
      project :: plural :: part :: (rest ++ Text.pieces '/' r.id) := by
    simpa using congrArg (· ++ Text.pieces '/' r.id) hrest
  have hid : Text.joinWith '/' (part :: rest ++ Text.pieces '/' r.id) ≠ r.id :=
    Text.joinWith_append_pieces_ne (by simp) r.id
  rw [List.cons_append] at hid
  rw [hsplit, List.cons_append, List.cons_append, hparts] at hpieces
  simp only [Gcp.decode, htext, hpieces] at hinfo
  intro hsame
  split at hinfo
  · split at hinfo
    · cases hinfo
    · cases hinfo
      exact hid (congrArg Resource.id hsame)
  · cases hinfo

/-- **Without its separator in the service an identifier is taken apart into its parts.** -/
theorem decode_encode {p : Provider} (hp : p.separator ∉ s.token.toList) (hservice : s.token ≠ "")
    (haccount : IsPart [':', '/'] m.accountId)
    (hregion : ∀ region ∈ m.region, IsPart [':', '/'] region) (hr : r.WellFormed) :
    p.codec.decode (p.codec.encode m s r) =
      .ok
        { provider := p, accountId := m.accountId, serviceToken := p.codec.token s, resource := r
          region := p.regionKept m } := by
  cases p <;> simp only [separator] at hp <;>
    simp only [codec, Aws.codec, Gcp.codec, Azure.codec, Scaleway.codec, regionKept]
  case aws => exact Aws.decode_encode hp haccount hregion hr
  case gcp => exact Gcp.decode_encode hp hservice haccount hr
  case azure => exact Azure.decode_encode hp hservice haccount hr
  case scaleway => exact Scaleway.decode_encode hp haccount hr

/-- **With its separator in the service an identifier is that of another resource.** -/
theorem resource_ne_of_separator_mem {p : Provider} (hp : p.separator ∈ s.token.toList)
    (hservice : ':' ∉ s.token.toList) (haccount : IsPart [':', '/'] m.accountId)
    (hr : r.WellFormed) {info : Info}
    (hinfo : p.codec.decode (p.codec.encode m s r) = .ok info) : info.resource ≠ r := by
  cases p <;> simp only [separator] at hp <;>
    simp only [codec, Aws.codec, Gcp.codec, Azure.codec, Scaleway.codec] at hinfo
  case aws => exact absurd hp hservice
  case gcp => exact Gcp.resource_ne_of_slash_mem hp haccount hr hinfo
  case azure => exact Azure.resource_ne_of_slash_mem hp haccount hr hinfo
  case scaleway => exact absurd hp hservice

end

end TenantIam.Provider
