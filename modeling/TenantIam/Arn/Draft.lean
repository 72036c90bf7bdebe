import TenantIam.Arn.Basic

/-!
# Drafts of resource names

A draft holds the parts of a resource name that are known so far. Parts are set one by one, and a
part that is set again is replaced.
-/

namespace TenantIam

/-- The parts of a resource name that have been set. -/
structure ArnDraft where
  service : Option Service := none
  /-- The segments of the tenant path, as they were given. -/
  tenant : Option (List SegmentInput) := none
  instanceId : Option String := none
  mapping : Option CloudMapping := none
  resource : Option Resource := none

namespace ArnDraft

inductive Edit where
  /-- Sets the service; a custom service with a known token counts as the known one. -/
  | service (service : Service)
  /-- Sets the service by its token. -/
  | serviceToken (token : String)
  /-- Sets the tenant. -/
  | tenant (path : TenantPath)
  /-- Sets the tenant to a root. -/
  | rootTenant (segment : SegmentInput)
  /-- Sets the tenant by its segments. -/
  | segments (segments : List SegmentInput)
  /-- Sets the instance. -/
  | instanceId (id : String)
  /-- Maps to an account without a region. -/
  | account (provider accountId : String)
  /-- Maps to an account and a region. -/
  | regionalAccount (provider accountId region : String)
  /-- Sets the mapping; a region that is `global` counts as none. -/
  | mapping (mapping : CloudMapping)
  /-- Replaces the region of a mapping that is set. -/
  | region (region : String)
  /-- Removes the mapping. -/
  | unmapped
  /-- Sets the resource. -/
  | resource (resource : Resource)

def Edit.mappingAfter (edit : Edit) (mapping : Option CloudMapping) : Option CloudMapping :=
  match edit with
  | .account provider accountId => some (.of provider accountId none)
  | .regionalAccount provider accountId r => some (.of provider accountId (some r))
  | .mapping m => some m.folded
  | .region r => mapping.map fun m => .of m.provider m.accountId (some r)
  | .unmapped => none
  | _ => mapping

def apply (draft : ArnDraft) (edit : Edit) : ArnDraft :=
  match edit with
  | .service service => { draft with service := some (.ofToken service.token) }
  | .serviceToken token => { draft with service := some (.ofToken token) }
  | .tenant path => { draft with tenant := some (path.segmentTexts.map .text) }
  | .rootTenant segment => { draft with tenant := some [segment] }
  | .segments segments => { draft with tenant := some segments }
  | .instanceId id => { draft with instanceId := some id }
  | .resource resource => { draft with resource := some resource }
  | edit => { draft with mapping := edit.mappingAfter draft.mapping }

def run (draft : ArnDraft) (edits : List Edit) : ArnDraft :=
  edits.foldl apply draft

/-- A part that has to be set. -/
inductive Required where
  | service
  | tenantPath
  | instanceId
  | resource
  deriving DecidableEq

def Required.name : Required → String
  | service => "service"
  | tenantPath => "tenant_path"
  | instanceId => "wami_instance_id"
  | resource => "resource"

/-- Why a draft is no resource name yet. -/
inductive Obstacle where
  /-- A part has not been set. -/
  | missing (part : Required)
  /-- The tenant path has no segment. -/
  | emptyPath
  /-- The tenant path is malformed. -/
  | invalidPath (flaw : TenantPath.Flaw)
  /-- A part is not admissible. -/
  | refused (defect : ArnParts.Defect)
  deriving DecidableEq

instance : Reported Obstacle where
  toFault
    | .missing part =>
      .invalidParameter (part.name ++ " is required") (some [("field", .str part.name)])
    | .emptyPath =>
      .invalidParameter "tenant_path cannot be empty" (some [("field", .str "tenant_path")])
    | .invalidPath flaw =>
      .invalidParameter ("tenant_path is invalid: " ++ (Reported.toFault flaw).message)
        (some [("field", .str "tenant_path")])
    | .refused defect => Reported.toFault defect

def pathOf (segments : List SegmentInput) : Except Obstacle TenantPath :=
  if segments.isEmpty then .error .emptyPath
  else (TenantPath.of segments).mapError .invalidPath

def need {α : Type} (part : Required) (value : Option α) : Except Obstacle α :=
  match value with
  | some value => .ok value
  | none => .error (.missing part)

/-- The resource name with the parts that were set. -/
def finish (draft : ArnDraft) : Except Obstacle Arn := do
  let service ← need .service draft.service
  let segments ← need .tenantPath draft.tenant
  let instanceId ← need .instanceId draft.instanceId
  let resource ← need .resource draft.resource
  let tenantPath ← pathOf segments
  (Arn.ofParts { service, tenantPath, instanceId, mapping := draft.mapping, resource }).mapError
    .refused

inductive Call where
  /-- Sets or removes a part. -/
  | edit (edit : Edit)
  /-- Asks for the resource name. -/
  | finish

/-- The draft after a call, and the answer to a request. -/
def call (draft : ArnDraft) : Call → ArnDraft × Option (Except Obstacle Arn)
  | .edit edit => (draft.apply edit, none)
  | .finish => (draft, some draft.finish)

/-- The draft after calls one after another, and the answer to each. -/
def callAll (draft : ArnDraft) : List Call → ArnDraft × List (Option (Except Obstacle Arn))
  | [] => (draft, [])
  | call :: calls =>
    let (next, answer) := draft.call call
    let (last, answers) := next.callAll calls
    (last, answer :: answers)

end ArnDraft

end TenantIam
