import TenantIam.Arn.Basic
import TenantIam.Arn.Draft
import TenantIam.Arn.Reader
import TenantIam.Authorization
import TenantIam.Caller
import TenantIam.CloudMapping
import TenantIam.Fault
import TenantIam.Hash.Sha256
import TenantIam.Instant
import TenantIam.Json.Basic
import TenantIam.Json.Reader
import TenantIam.Json.Writer
import TenantIam.Log
import TenantIam.Number.Basic
import TenantIam.Number.Decimal
import TenantIam.Number.Shortest
import TenantIam.OpaqueArn
import TenantIam.Pattern.Cache
import TenantIam.Pattern.Glob
import TenantIam.Pattern.Wildcard
import TenantIam.Policy.Decision
import TenantIam.Policy.Document
import TenantIam.Policy.Issue
import TenantIam.Policy.PrincipalSimulation
import TenantIam.Policy.Reader
import TenantIam.Policy.Simulation
import TenantIam.Policy.Store
import TenantIam.Provider.Aws
import TenantIam.Provider.Azure
import TenantIam.Provider.Basic
import TenantIam.Provider.Codec
import TenantIam.Provider.Gcp
import TenantIam.Provider.Scaleway
import TenantIam.Service
import TenantIam.Settings
import TenantIam.Tenant.Basic
import TenantIam.Tenant.Creation
import TenantIam.Tenant.Id
import TenantIam.Tenant.Inheritance
import TenantIam.Tenant.Lineage
import TenantIam.Tenant.Name
import TenantIam.Tenant.Permission
import TenantIam.Tenant.Queue
import TenantIam.Tenant.Quotas
import TenantIam.Tenant.Store
import TenantIam.Tenant.Tree
import TenantIam.TenantPath
import TenantIam.Text.Affix
import TenantIam.Text.Blank
import TenantIam.Text.Hex
import TenantIam.Text.Letter
import TenantIam.Text.Numeric
import TenantIam.Text.Ranges
import TenantIam.Text.Split
import TenantIam.Text.Units
import TenantIam.Text.Uppercase
import TenantIam.Proofs.Success
import TenantIam.Proofs.Text.Beginnings
import TenantIam.Proofs.TenantPath.Order
import TenantIam.Proofs.TenantPath.Reading
import TenantIam.Proofs.Text.Units
import TenantIam.Proofs.Pattern.Stars
import TenantIam.Proofs.Pattern.Runs
import TenantIam.Proofs.Arn.Grammar
import TenantIam.Proofs.Arn.RoundTrip
import TenantIam.Proofs.Arn.Canonical
import TenantIam.Proofs.Arn.Scope
import TenantIam.Proofs.Authorization.Access
import TenantIam.Proofs.Authorization.Agreement
import TenantIam.Proofs.Authorization.Decision
import TenantIam.Proofs.Authorization.Isolation
import TenantIam.Proofs.Authorization.Restriction
import TenantIam.Proofs.Authorization.Simulation
import TenantIam.Proofs.Json.Numbers
import TenantIam.Proofs.Json.Order
import TenantIam.Proofs.Json.RoundTrip
import TenantIam.Proofs.Json.Strings
import TenantIam.Proofs.Number.Decimal
import TenantIam.Proofs.Policy.Combining
import TenantIam.Proofs.Policy.Reading
import TenantIam.Proofs.Policy.Serialization
import TenantIam.Proofs.Policy.Storing
import TenantIam.Proofs.Provider.Decoding
import TenantIam.Proofs.Provider.Identifiers
import TenantIam.Proofs.Provider.Respelling
import TenantIam.Proofs.Tenant.Creation
import TenantIam.Proofs.Tenant.Lineage
import TenantIam.Proofs.Tenant.Grants
import TenantIam.Proofs.Tenant.Forest
import TenantIam.Proofs.Tenant.Bounds
import TenantIam.Proofs.Tenant.Keys
import TenantIam.Proofs.Tenant.Growth
import TenantIam.Proofs.Tenant.Views
import TenantIam.Proofs.Tenant.Turns
import TenantIam.Proofs.Tenant.SideBySide
import TenantIam.Proofs.Tenant.ParentChains
import TenantIam.Proofs.Tenant.Atomicity
import TenantIam.Proofs.Tenant.Positions
import TenantIam.Proofs.Tenant.Shape
import TenantIam.Proofs.Pattern.Cuts
import TenantIam.Proofs.Arn.Opaque
import TenantIam.Proofs.Arn.Drafting
import TenantIam.Proofs.Policy.Schema
import TenantIam.Proofs.Policy.Reports
import TenantIam.Proofs.Policy.Explanation
import TenantIam.Proofs.Policy.History
import TenantIam.Proofs.Policy.Reflection
import TenantIam.Proofs.Policy.Observations
import TenantIam.Proofs.Tenant.Administration
import TenantIam.Proofs.Pattern.Caching
import TenantIam.Proofs.Policy.Shorthands
import TenantIam.Proofs.Authorization.Logging
import TenantIam.Proofs.Tenant.Segments
import TenantIam.Proofs.TenantPath.Canonical
import TenantIam.Proofs.Tenant.Changes
import TenantIam.Proofs.Tenant.Listing
import TenantIam.Proofs.TenantPath.Identifiers
