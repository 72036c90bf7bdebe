/-!
# Services

A service owns resources. Three services are known; every other token names a custom one.
-/

namespace TenantIam

/-- The owner of a kind of resources. -/
inductive Service where
  /-- Identities and their policies. -/
  | iam
  /-- Temporary credentials. -/
  | sts
  /-- Single sign-on. -/
  | ssoAdmin
  /-- Any other service. -/
  | custom (name : String)
  deriving DecidableEq

namespace Service

def token : Service → String
  | iam => "iam"
  | sts => "sts"
  | ssoAdmin => "sso-admin"
  | custom name => name

/-- The kind of a service; all custom services are of one kind. -/
def kind : Service → String
  | iam => "iam"
  | sts => "sts"
  | ssoAdmin => "sso-admin"
  | custom _ => "custom"

/-- The service of a token; an unknown token is a custom service. -/
def ofToken (token : String) : Service :=
  if token = "iam" then .iam
  else if token = "sts" then .sts
  else if token = "sso-admin" then .ssoAdmin
  else .custom token

@[simp] theorem token_ofToken (s : String) : (ofToken s).token = s := by
  unfold ofToken
  split
  · simp [token, *]
  · split
    · simp [token, *]
    · split <;> simp [token, *]

/-- Kind and token make up a service. -/
theorem eq_of_kind_of_token {s t : Service} (hkind : s.kind = t.kind) (htoken : s.token = t.token) :
    s = t := by
  cases s <;> cases t <;> simp_all [kind, token]

def equals (s t : Service) : Bool := s.token = t.token && s.kind = t.kind

@[simp] theorem equals_iff {s t : Service} : s.equals t = true ↔ s = t := by
  constructor
  · intro h
    obtain ⟨htoken, hkind⟩ : s.token = t.token ∧ s.kind = t.kind := by simpa [equals] using h
    exact eq_of_kind_of_token hkind htoken
  · rintro rfl
    simp [equals]

theorem ofToken_inj {s t : String} : ofToken s = ofToken t ↔ s = t :=
  ⟨fun h => by simpa using congrArg token h, fun h => h ▸ rfl⟩

end Service

end TenantIam
