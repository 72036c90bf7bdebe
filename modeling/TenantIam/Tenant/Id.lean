import TenantIam.Fault
import TenantIam.Text.Affix
import TenantIam.Text.Split

/-!
# Tenant identifiers

A tenant is identified by the names of the tenants from its root down to itself, with a slash
between neighbours. The operations work on the written form.
-/

namespace TenantIam

structure TenantId where
  /-- The written form. -/
  text : String
  segments_ne : ∀ s ∈ Text.pieces '/' text, s ≠ ""
  deriving DecidableEq

namespace TenantId

/-- What is wrong with an identifier or a segment that is given. -/
inductive Flaw where
  /-- The identifier has an empty segment. -/
  | emptySegment (given : String)
  /-- The segment is empty or holds a slash. -/
  | badSegment (given : String)
  deriving DecidableEq

instance : Reported Flaw where
  toFault
    | .emptySegment given =>
      .invalidParameter ("Invalid tenant id '" ++ given ++ "': segments cannot be empty")
        (some [("tenantId", .str given)])
    | .badSegment given =>
      .invalidParameter
        ("Invalid tenant id segment '" ++ given ++ "': must be non-empty and contain no '/'")
        (some [("segment", .str given)])

/-- A name that can be a segment of an identifier. -/
structure Segment where
  /-- The name. -/
  text : String
  nonempty : text ≠ ""
  slash_free : '/' ∉ text.toList
  deriving DecidableEq

def Segment.of (s : String) : Except Flaw Segment :=
  if h : s ≠ "" ∧ '/' ∉ s.toList then .ok ⟨s, h.1, h.2⟩ else .error (.badSegment s)

def of (s : String) : Except Flaw TenantId :=
  if h : ∀ piece ∈ Text.pieces '/' s, piece ≠ "" then .ok ⟨s, h⟩ else .error (.emptySegment s)

def root (segment : Segment) : TenantId where
  text := segment.text
  segments_ne := by simp [Text.pieces_of_not_mem segment.slash_free, segment.nonempty]

theorem pieces_extend (id segment : String) :
    Text.pieces '/' (id ++ "/" ++ segment) = Text.pieces '/' id ++ Text.pieces '/' segment := by
  have : id ++ "/" ++ segment = String.ofList (id.toList ++ '/' :: segment.toList) := by
    apply String.toList_inj.1
    simp
  rw [this, Text.pieces_append]
  simp

def child (id : TenantId) (segment : Segment) : TenantId where
  text := id.text ++ "/" ++ segment.text
  segments_ne := by
    rw [pieces_extend, Text.pieces_of_not_mem segment.slash_free]
    intro s hs
    rcases List.mem_append.1 hs with hs | hs
    · exact id.segments_ne s hs
    · simpa [List.mem_singleton.1 hs] using segment.nonempty

/-- The segments, from the root down. -/
def segments (id : TenantId) : List String := Text.pieces '/' id.text

def depth (id : TenantId) : Nat := id.segments.length - 1

def isRoot (id : TenantId) : Bool := '/' ∉ id.text.toList

theorem pieces_before_ne {id : TenantId} {before after : List Char}
    (h : Text.cutLast '/' id.text.toList = some (before, after)) :
    ∀ s ∈ Text.pieces '/' (String.ofList before), s ≠ "" := by
  have hid : id.text = String.ofList (before ++ '/' :: after) := by
    apply String.toList_inj.1
    simp [(Text.cutLast_eq_some_iff.1 h).1]
  intro s hs
  apply id.segments_ne
  rw [hid, Text.pieces_append]
  exact List.mem_append_left _ hs

/-- The identifier of the tenant above; a root has none. -/
def parent? (id : TenantId) : Option TenantId :=
  match h : Text.cutLast '/' id.text.toList with
  | none => none
  | some (before, _) => some ⟨String.ofList before, pieces_before_ne h⟩

/-- The parent of an identifier is a shorter one. -/
theorem parent?_eq_some {id parent : TenantId} (h : id.parent? = some parent) :
    parent.text.length < id.text.length := by
  unfold parent? at h
  split at h
  · simp at h
  · next before after hc =>
    cases h
    rw [String.length_ofList, ← String.length_toList]
    exact Text.length_cutLast hc

/-- The identifiers of all tenants above, the root first. -/
def ancestors (id : TenantId) : List TenantId :=
  match _ : id.parent? with
  | none => []
  | some parent => parent.ancestors ++ [parent]
termination_by id.text.length
decreasing_by exact parent?_eq_some (by assumption)

/-- Whether a tenant is strictly below another one. -/
def isBelow (id other : TenantId) : Bool :=
  (other.text ++ "/").toList.isPrefixOf id.text.toList

def isAbove (id other : TenantId) : Bool := other.isBelow id

theorem segments_child (id : TenantId) (segment : Segment) :
    (id.child segment).segments = id.segments ++ [segment.text] := by
  simp [segments, child, pieces_extend, Text.pieces_of_not_mem segment.slash_free]

end TenantId

end TenantIam
