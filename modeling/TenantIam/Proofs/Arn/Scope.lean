import TenantIam.Proofs.Arn.Grammar
import TenantIam.Proofs.Pattern.Stars
import TenantIam.Proofs.TenantPath.Order

/-!
# Patterns for the resources of a tenant

Policies name resources by patterns over their written forms. A written form starts with the service
and the tenant of the resource, and neither holds a colon. So a pattern that spells out a service
and a tenant, goes on with a slash or a colon and ends in a star is about the tenants below, or
about the tenant itself.
-/

namespace TenantIam.Arn

variable {a : Arn} {path : TenantPath} {service : String}

/-- The beginning of the written forms of the resource names of a service in a tenant. -/
def scope (service : String) (path : TenantPath) : String :=
  "arn:wami:" ++ service ++ ":" ++ path.text

theorem toList_scope (service : String) (path : TenantPath) :
    (scope service path).toList =
      "arn:wami:".toList ++ (service.toList ++ ':' :: path.text.toList) := by
  simp only [scope, String.toList_append, List.append_assoc]
  rfl

theorem joinWith_scope (service : String) (path : TenantPath) :
    Text.joinWith ':' ["arn", "wami", service, path.text] = scope service path := by
  apply String.toList_inj.1
  simp [Text.joinWith, scope]

/-- A written form starts with the scope of the name and a colon. -/
theorem exists_text_eq (a : Arn) :
    ∃ rest, a.text = scope a.service.token a.tenantPath ++ ":" ++ rest := by
  obtain ⟨more, hparts⟩ : ∃ more, a.stemParts =
      ["arn", "wami", a.service.token, a.tenantPath.text] ++ "wami" :: more := ⟨_, rfl⟩
  have hstem : a.stem =
      scope a.service.token a.tenantPath ++ ":" ++ Text.joinWith ':' ("wami" :: more) := by
    rw [stem, hparts, Text.joinWith_append_sep (List.cons_ne_nil _ _) (List.cons_ne_nil _ _),
      joinWith_scope]
    rfl
  refine ⟨Text.joinWith ':' ("wami" :: more) ++ ":" ++ a.resource.path, ?_⟩
  rw [text, hstem]
  simp only [String.append_assoc]

theorem colon_not_mem_token (a : Arn) : ':' ∉ a.service.token.toList :=
  (ArnParts.defect?_eq_none_iff.1 a.admissible.flawless).1.not_mem (List.mem_singleton_self _)

/-- Scopes are compared part by part: first the services, which hold no colon, then the tenants with
what follows them. -/
theorem scope_append_prefix_iff {rest : String}
    (htext : a.text = scope a.service.token a.tenantPath ++ ":" ++ rest)
    (hcolon : ':' ∉ service.toList) (more : List Char) :
    (scope service path).toList ++ more <+: a.text.toList ↔
      service = a.service.token ∧
        path.text.toList ++ more <+: a.tenantPath.text.toList ++ ':' :: rest.toList := by
  have hform : a.text.toList = "arn:wami:".toList ++ (a.service.token.toList ++
      ':' :: (a.tenantPath.text.toList ++ ':' :: rest.toList)) := by
    rw [htext, String.toList_append, String.toList_append, toList_scope]
    simp only [List.append_assoc, List.cons_append]
    rfl
  rw [hform, toList_scope, List.append_assoc, List.append_assoc, List.cons_append,
    List.prefix_append_right_inj, Text.append_sep_prefix_iff hcolon a.colon_not_mem_token,
    String.toList_inj]

theorem colon_not_mem_path (path : TenantPath) : ':' ∉ path.text.toList :=
  TenantPath.not_mem_text (by decide) (by decide) path

/-- What goes on with a slash before the first colon is a path below. -/
theorem path_slash_prefix_iff {other : TenantPath} {rest : List Char} :
    path.text.toList ++ ['/'] <+: other.text.toList ++ ':' :: rest ↔ other.isBelow path = true := by
  rw [TenantPath.isBelow_iff_text]
  exact Text.prefix_append_sep_iff (by simp [colon_not_mem_path path])

/-- What goes on with the first colon is the path. -/
theorem path_colon_prefix_iff {other : TenantPath} {rest : List Char} :
    path.text.toList ++ [':'] <+: other.text.toList ++ ':' :: rest ↔ other = path := by
  rw [Text.append_sep_prefix_iff (colon_not_mem_path path) (colon_not_mem_path other),
    String.toList_inj]
  constructor
  · rintro ⟨htexts, -⟩
    exact TenantPath.eq_of_text_eq htexts.symm
  · rintro rfl
    exact ⟨rfl, List.nil_prefix⟩

/-- The star of a pattern on a scope comes last, so what matches starts with the rest of it. -/
theorem covers_scope_append_iff {rest ending : String} {c : Char}
    (htext : a.text = scope a.service.token a.tenantPath ++ ":" ++ rest)
    (hcolon : ':' ∉ service.toList) (hstar : '*' ∉ service.toList) (hc : c ≠ '*')
    (hending : ending = String.singleton c ++ "*") :
    Wildcard.covers (scope service path ++ ending : String) a.text = true ↔
      service = a.service.token ∧
        path.text.toList ++ [c] <+: a.tenantPath.text.toList ++ ':' :: rest.toList := by
  have hscope : '*' ∉ (scope service path).toList := by
    have hpath : '*' ∉ path.text.toList := TenantPath.not_mem_text (by decide) (by decide) path
    rw [toList_scope]
    simp [hstar, hpath]
  rw [hending, ← String.append_assoc,
    Wildcard.covers_append_star_iff (by simp [hscope, hc.symm]), String.toList_append,
    String.toList_singleton, scope_append_prefix_iff htext hcolon]

/-- **Patterns mean containment.** A pattern that goes on after a scope with a slash matches the
resource names of the service in the tenants below, and one that goes on with a colon those in the
tenant itself; so one of the two matches where the resource lives in the tenant. -/
theorem covers_scope (a : Arn) (path : TenantPath) (service : String)
    (hcolon : ':' ∉ service.toList) (hstar : '*' ∉ service.toList) :
    (Wildcard.covers (scope service path ++ "/*" : String) a.text = true ↔
      a.service.token = service ∧ a.tenantPath.isBelow path = true) ∧
    (Wildcard.covers (scope service path ++ ":*" : String) a.text = true ↔
      a.service.token = service ∧ a.tenantPath = path) ∧
    (a.service.token = service ∧ a.livesIn path = true ↔
      Wildcard.covers (scope service path ++ "/*" : String) a.text = true ∨
        Wildcard.covers (scope service path ++ ":*" : String) a.text = true) := by
  obtain ⟨rest, htext⟩ := a.exists_text_eq
  have hbelow : Wildcard.covers (scope service path ++ "/*" : String) a.text = true ↔
      a.service.token = service ∧ a.tenantPath.isBelow path = true := by
    rw [covers_scope_append_iff htext hcolon hstar (by decide : '/' ≠ '*') (by decide),
      path_slash_prefix_iff, @eq_comm _ service]
  have hself : Wildcard.covers (scope service path ++ ":*" : String) a.text = true ↔
      a.service.token = service ∧ a.tenantPath = path := by
    rw [covers_scope_append_iff htext hcolon hstar (by decide : ':' ≠ '*') (by decide),
      path_colon_prefix_iff, @eq_comm _ service]
  refine ⟨hbelow, hself, ?_⟩
  rw [hbelow, hself, livesIn, TenantPath.startsWith_iff_eq_or_isBelow, ← and_or_left]
  exact and_congr_right fun _ => or_comm

/-- A mapped name in the tenant `1/23` whose service and id hold separators: the patterns on `1`
reach it from above and those on `1/23` in place, but not those on `1/2` or on another service. -/
theorem covers_scope_sibling :
    let a : Arn :=
      ⟨{ service := .custom "a/b", tenantPath := ⟨[1, 23], by decide⟩, instanceId := "i/1"
         mapping := some (.of "aws" "1" none), resource := { type := "user", id := "1/2:/x" } },
        by decide⟩
    a.text = "arn:wami:a/b:1/23:wami:i/1:aws:1:global:user/1/2:/x" ∧
      Wildcard.covers "arn:wami:a/b:1/*" a.text = true ∧
      Wildcard.covers "arn:wami:a/b:1/23:*" a.text = true ∧
      Wildcard.covers "arn:wami:a/b:1/2/*" a.text = false ∧
      Wildcard.covers "arn:wami:a/b:1/2:*" a.text = false ∧
      Wildcard.covers "arn:wami:a:1/23:*" a.text = false := by
  intro a
  obtain ⟨habove, -, -⟩ := covers_scope a ⟨[1], by decide⟩ "a/b" (by decide) (by decide)
  obtain ⟨-, hself, -⟩ := covers_scope a a.tenantPath "a/b" (by decide) (by decide)
  obtain ⟨hbelow, hbeside, -⟩ :=
    covers_scope a ⟨[1, 2], by decide⟩ "a/b" (by decide) (by decide)
  obtain ⟨-, hother, -⟩ := covers_scope a a.tenantPath "a" (by decide) (by decide)
  refine ⟨by decide, habove.2 ⟨rfl, by decide⟩, hself.2 ⟨rfl, rfl⟩, ?_, ?_, ?_⟩
  · exact Bool.eq_false_iff.2 fun h => absurd (hbelow.1 h).2 (by decide)
  · exact Bool.eq_false_iff.2 fun h => absurd (hbeside.1 h).2 (by decide)
  · exact Bool.eq_false_iff.2 fun h => absurd (hother.1 h).1 (by decide)

end TenantIam.Arn
