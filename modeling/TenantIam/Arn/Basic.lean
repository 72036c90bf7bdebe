import TenantIam.CloudMapping
import TenantIam.Service
import TenantIam.TenantPath

/-!
# Resource names

A resource name says which service owns a resource, in which tenant and instance it lives, to which
place at a cloud provider it is mapped, if any, and what its type and identifier are. Its written
form separates these parts by colons, so they are admitted only where the written form can be read
back.
-/

namespace TenantIam

/-- What a resource name addresses. -/
structure Resource where
  /-- The type, such as `user`. -/
  type : String
  /-- The identifier within the type. -/
  id : String
  deriving DecidableEq

def Resource.path (r : Resource) : String := r.type ++ "/" ++ r.id

/-- The parts of a resource name, as they are given. -/
structure ArnParts where
  /-- The owner of the resource. -/
  service : Service
  /-- The tenant that the resource belongs to. -/
  tenantPath : TenantPath
  /-- The instance that holds the resource. -/
  instanceId : String
  /-- The place at a cloud provider, if the resource is kept in step with one. -/
  mapping : Option CloudMapping
  /-- The resource itself. -/
  resource : Resource
  deriving DecidableEq

namespace ArnParts

/-- A part that is subject to a condition. -/
inductive Field where
  | service
  | instanceId
  | cloudProvider
  | cloudAccountId
  | cloudRegion
  | resourceType
  | resourceId
  deriving DecidableEq

def Field.name : Field → String
  | service => "service"
  | instanceId => "wami_instance_id"
  | cloudProvider => "cloud_provider"
  | cloudAccountId => "cloud_account_id"
  | cloudRegion => "cloud_region"
  | resourceType => "resource_type"
  | resourceId => "resource_id"

/-- The separators that may not occur in a part. -/
def Field.forbidden : Field → List Char
  | service | instanceId => [':']
  | cloudProvider | cloudAccountId | cloudRegion | resourceType => [':', '/']
  | resourceId => []

/-- Why a part is not admissible. -/
inductive Defect where
  /-- The part is empty. -/
  | empty (field : Field)
  /-- The part holds a separator. -/
  | contains (field : Field) (separator : Char) (value : String)
  deriving DecidableEq

instance : Reported Defect where
  toFault
    | .empty field =>
      .invalidParameter (field.name ++ " cannot be empty") (some [("field", .str field.name)])
    | .contains field separator value =>
      .invalidParameter (field.name ++ " cannot contain '" ++ String.singleton separator ++ "'")
        (some [("field", .str field.name), ("value", .str value)])

def Field.defect? (field : Field) (value : String) : Option Defect :=
  if value = "" then some (.empty field)
  else (field.forbidden.find? (· ∈ value.toList)).map fun c => .contains field c value

/-- A value is admissible when it is not empty and free of the separators. -/
theorem Field.defect?_eq_none_iff {field : Field} {value : String} :
    field.defect? value = none ↔ value ≠ "" ∧ ∀ c ∈ field.forbidden, c ∉ value.toList := by
  unfold Field.defect?
  split <;> simp [*]

/-- The parts that are subject to a condition, in the order in which they are checked. -/
def checked (parts : ArnParts) : List (Field × String) :=
  [(.service, parts.service.token), (.instanceId, parts.instanceId)] ++
    (match parts.mapping with
    | none => []
    | some m =>
      [(.cloudProvider, m.provider), (.cloudAccountId, m.accountId)] ++
        m.region.toList.map fun region => (Field.cloudRegion, region)) ++
    [(.resourceType, parts.resource.type), (.resourceId, parts.resource.id)]

/-- The first thing that is wrong with the parts. -/
def defect? (parts : ArnParts) : Option Defect :=
  parts.checked.findSome? fun (field, value) => field.defect? value

/-- The parts with the mapping made anew from the one that is given. -/
def folded (parts : ArnParts) : ArnParts :=
  { parts with mapping := parts.mapping.map .folded }

/-- A region that is dropped is one that no check refuses. -/
@[simp] theorem defect?_folded (parts : ArnParts) : parts.folded.defect? = parts.defect? := by
  obtain ⟨service, tenantPath, instanceId, mapping, resource⟩ := parts
  cases mapping with
  | none => rfl
  | some m =>
      -- the checks are made on the parts as they are given, and `global` passes them
      have hglobal : Field.cloudRegion.defect? "global" = none := by decide
      by_cases h : m.region = some "global"
      · have hregion : m.folded.region = none := by rw [CloudMapping.region_folded, if_pos h]
        simp [defect?, checked, folded, h, hregion, List.findSome?_cons, hglobal]
      · have hm : m.folded = m := CloudMapping.folded_eq_iff.2 h
        simp [folded, hm]

/-- Parts of which a resource name is made. -/
structure Admissible (parts : ArnParts) : Prop where
  flawless : parts.defect? = none
  /-- No region is spelled out as `global`. -/
  folded : ∀ m ∈ parts.mapping, m.region ≠ some "global"

instance (parts : ArnParts) : Decidable parts.Admissible :=
  decidable_of_iff (parts.defect? = none ∧ ∀ m ∈ parts.mapping, m.region ≠ some "global")
    ⟨fun h => ⟨h.1, h.2⟩, fun h => ⟨h.flawless, h.folded⟩⟩

theorem folded_eq_iff {parts : ArnParts} :
    parts.folded = parts ↔ ∀ m ∈ parts.mapping, m.region ≠ some "global" := by
  obtain ⟨service, tenantPath, instanceId, mapping, resource⟩ := parts
  cases mapping with
  | none => simp [folded]
  | some m => simp [folded, CloudMapping.folded_eq_iff]

theorem admissible_folded {parts : ArnParts} (h : parts.defect? = none) :
    parts.folded.Admissible where
  flawless := by rw [defect?_folded, h]
  folded := by
    refine folded_eq_iff.1 ?_
    simp [folded, Function.comp_def]

end ArnParts

structure Arn extends ArnParts where
  admissible : toArnParts.Admissible
  deriving DecidableEq

namespace Arn

def ofParts (parts : ArnParts) : Except ArnParts.Defect Arn :=
  match h : parts.defect? with
  | none => .ok ⟨parts.folded, ArnParts.admissible_folded h⟩
  | some defect => .error defect

theorem ofParts_eq_ok_iff {parts : ArnParts} {a : Arn} :
    ofParts parts = .ok a ↔ a.toArnParts = parts.folded := by
  unfold ofParts
  constructor
  · intro h
    split at h
    · cases h
      rfl
    · cases h
  · intro h
    have hflawless : parts.defect? = none := by
      rw [← parts.defect?_folded, ← h, a.admissible.flawless]
    obtain ⟨own, admissible⟩ := a
    cases h
    split
    · rfl
    · next hdefect => rw [hflawless] at hdefect; cases hdefect

/-- There is a resource name with the given parts when nothing is wrong with them. -/
theorem exists_ofParts_iff {parts : ArnParts} :
    (∃ a, ofParts parts = .ok a) ↔ parts.defect? = none := by
  constructor
  · rintro ⟨a, ha⟩
    rw [← parts.defect?_folded, ← ofParts_eq_ok_iff.1 ha, a.admissible.flawless]
  · intro h
    exact ⟨⟨parts.folded, ArnParts.admissible_folded h⟩, ofParts_eq_ok_iff.2 rfl⟩

theorem folded_toArnParts (a : Arn) : a.toArnParts.folded = a.toArnParts :=
  ArnParts.folded_eq_iff.2 a.admissible.folded

theorem map_folded_mapping (a : Arn) : a.mapping.map .folded = a.mapping :=
  congrArg (fun parts : ArnParts => parts.mapping) a.folded_toArnParts

theorem ofParts_toArnParts (a : Arn) : ofParts a.toArnParts = .ok a := by
  rw [ofParts_eq_ok_iff, folded_toArnParts]

theorem eq_of_toArnParts_eq {a b : Arn} (h : a.toArnParts = b.toArnParts) : a = b := by
  have ha := a.ofParts_toArnParts
  rw [h, b.ofParts_toArnParts] at ha
  exact (Except.ok.inj ha).symm

/-- Whether two resource names agree in every part. -/
def equals (a b : Arn) : Bool :=
  a.service.kind = b.service.kind && a.service.token = b.service.token &&
    a.tenantPath.equals b.tenantPath && a.instanceId = b.instanceId &&
    CloudMapping.equals a.mapping b.mapping && a.resource.type = b.resource.type &&
    a.resource.id = b.resource.id

@[simp] theorem equals_iff {a b : Arn} : a.equals b = true ↔ a = b := by
  constructor
  · intro h
    simp only [equals, Bool.and_eq_true, decide_eq_true_eq, TenantPath.equals_iff,
      CloudMapping.equals_iff] at h
    obtain ⟨⟨⟨⟨⟨⟨hkind, htoken⟩, htenant⟩, hinstance⟩, hmapping⟩, htype⟩, hid⟩ := h
    have hservice : a.service = b.service := Service.eq_of_kind_of_token hkind htoken
    have hresource : a.resource = b.resource := by
      cases hb : b.resource
      cases ha : a.resource
      simp_all
    refine eq_of_toArnParts_eq ?_
    cases hb : b.toArnParts
    cases ha : a.toArnParts
    simp_all
  · rintro rfl
    simp [equals]

/-- The parts before the resource, in their written order. -/
def stemParts (a : Arn) : List String :=
  ["arn", "wami", a.service.token, a.tenantPath.text, "wami", a.instanceId] ++
    (match a.mapping with
    | none => []
    | some m => [m.provider, m.accountId, m.regionText])

/-- The written form up to the resource. -/
def stem (a : Arn) : String := Text.joinWith ':' a.stemParts

def text (a : Arn) : String := a.stem ++ ":" ++ a.resource.path

/-- Whether the resource is kept in step with a cloud provider. -/
def isMapped (a : Arn) : Bool := a.mapping.isSome

def provider? (a : Arn) : Option String := a.mapping.map (·.provider)

def region? (a : Arn) : Option String := a.mapping.bind (·.region)

/-- Whether the written form starts with a text. -/
def hasStem (a : Arn) (start : String) : Bool :=
  start.toList.isPrefixOf a.text.toList

/-- Whether the resource lives in a tenant or below it. -/
def livesIn (a : Arn) (path : TenantPath) : Bool :=
  a.tenantPath.startsWith path

def withMapping (a : Arn) (mapping : Option CloudMapping) : Except ArnParts.Defect Arn :=
  ofParts { a.toArnParts with mapping }

end Arn

end TenantIam
