import TenantIam.Fault
import TenantIam.Number.Shortest
import TenantIam.Text.Split

/-!
# Tenant paths

A tenant path is a non-empty list of unsigned 64-bit numbers, the root tenant first. It is written
in decimal without leading zeros, with a slash between neighbours; reading admits leading zeros.
-/

namespace TenantIam

/-- A segment as it is given by a caller. -/
inductive SegmentInput where
  /-- A text, expected to be a decimal. -/
  | text (s : String)
  /-- A number, which stands for its written form. -/
  | number (x : Number)
  /-- An integer of any size. -/
  | integer (i : Int)

def SegmentInput.toText : SegmentInput → String
  | .text s => s
  | .number x => x.text
  | .integer i => toString i

structure TenantPath where
  /-- The numbers of the tenants from the root down. -/
  segments : List UInt64
  nonempty : segments ≠ []
  deriving DecidableEq

namespace TenantPath

/-- What is wrong with a path or with one of its segments. -/
inductive Flaw where
  /-- The segment is not made of decimal digits. -/
  | notDecimal (given : String)
  /-- The segment needs more than 64 bits. -/
  | tooLarge (given : String)
  /-- There is no segment. -/
  | empty
  deriving DecidableEq

def Flaw.reason : Flaw → String
  | .notDecimal given =>
    "Invalid tenant path segment: '" ++ given ++ "' (must be an unsigned 64-bit integer)"
  | .tooLarge given =>
    "Invalid tenant path segment: '" ++ given ++ "' (exceeds unsigned 64-bit range)"
  | .empty => "Tenant path cannot be empty"

instance : Reported Flaw := ⟨fun flaw => .arn .component flaw.reason⟩

/-- Whether a text is made of decimal digits, at least one. -/
def isDecimal (s : String) : Bool :=
  !s.toList.isEmpty && s.toList.all Char.isDigit

def decimalValue (s : String) : Nat := Nat.ofDigitChars 10 s.toList 0

def readDecimal (s : String) : Except Flaw UInt64 :=
  if isDecimal s then
    if h : decimalValue s < UInt64.size then .ok (.ofNatLT (decimalValue s) h)
    else .error (.tooLarge s)
  else .error (.notDecimal s)

/-- The segment that a caller gives. -/
def readSegment (given : SegmentInput) : Except Flaw UInt64 :=
  readDecimal given.toText

def segmentText (segment : UInt64) : String := segment.toNat.repr

/-- A text is a segment exactly when it is a decimal below 2^64. -/
theorem readDecimal_eq_ok_iff {s : String} {segment : UInt64} :
    readDecimal s = .ok segment ↔ isDecimal s = true ∧ decimalValue s = segment.toNat := by
  unfold readDecimal
  split
  · next hs =>
    split
    · next h =>
      simp only [Except.ok.injEq, hs, true_and]
      constructor
      · rintro rfl
        simp
      · intro h'
        exact UInt64.toNat_inj.1 (by simp [h'])
    · next h =>
      simp only [reduceCtorEq, false_iff, not_and]
      intro _ h'
      exact h (h' ▸ segment.toNat_lt)
  · next hs => simp [hs]

theorem isDecimal_repr (n : Nat) : isDecimal n.repr = true := by
  simp only [isDecimal, Nat.toList_repr, Bool.and_eq_true, Bool.not_eq_true',
    List.isEmpty_eq_false_iff, List.all_eq_true]
  exact ⟨Nat.toDigits_ne_nil, fun c hc => Nat.isDigit_of_mem_toDigits (by decide) (by decide) hc⟩

theorem decimalValue_repr (n : Nat) : decimalValue n.repr = n := by
  simp [decimalValue, Nat.toList_repr, Nat.ofDigitChars_toDigits]

theorem readDecimal_segmentText (segment : UInt64) :
    readDecimal (segmentText segment) = .ok segment := by
  rw [readDecimal_eq_ok_iff, segmentText]
  exact ⟨isDecimal_repr segment.toNat, decimalValue_repr segment.toNat⟩

def of (given : List SegmentInput) : Except Flaw TenantPath :=
  match given.mapM readSegment with
  | .error flaw => .error flaw
  | .ok segments => if h : segments ≠ [] then .ok ⟨segments, h⟩ else .error .empty

def single (given : SegmentInput) : Except Flaw TenantPath :=
  (readSegment given).map fun segment => ⟨[segment], by simp⟩

def ofTexts (texts : List String) : Except Flaw TenantPath :=
  of (texts.map .text)

def parse (s : String) : Except Flaw TenantPath :=
  if s = "" then .error .empty else ofTexts (Text.pieces '/' s)

def segmentTexts (path : TenantPath) : List String := path.segments.map segmentText

def text (path : TenantPath) : String := Text.joinWith '/' path.segmentTexts

def depth (path : TenantPath) : Nat := path.segments.length

def root (path : TenantPath) : UInt64 := path.segments.head path.nonempty

def leaf (path : TenantPath) : UInt64 := path.segments.getLast path.nonempty

/-- The path without its last segment; a root has none. -/
def parent? (path : TenantPath) : Option TenantPath :=
  if h : path.segments.dropLast ≠ [] then some ⟨path.segments.dropLast, h⟩ else none

def child (path : TenantPath) (given : SegmentInput) : Except Flaw TenantPath :=
  (readSegment given).map fun segment => ⟨path.segments ++ [segment], by simp⟩

/-- Whether `other` is at or above a path. -/
def startsWith (path other : TenantPath) : Bool :=
  other.segments.isPrefixOf path.segments

/-- Whether a path is strictly below `other`. -/
def isBelow (path other : TenantPath) : Bool :=
  other.depth < path.depth && path.startsWith other

def isAbove (path other : TenantPath) : Bool :=
  other.isBelow path

def equals (path other : TenantPath) : Bool :=
  path.depth = other.depth && path.startsWith other

theorem startsWith_iff {path other : TenantPath} :
    path.startsWith other = true ↔ other.segments <+: path.segments := by
  simp [startsWith]

@[simp] theorem equals_iff {path other : TenantPath} : path.equals other = true ↔ path = other := by
  rw [equals, Bool.and_eq_true, decide_eq_true_iff, startsWith_iff]
  constructor
  · rintro ⟨hdepth, hprefix⟩
    have hsegments : other.segments = path.segments := hprefix.eq_of_length hdepth.symm
    cases path
    cases other
    rw [mk.injEq]
    exact hsegments.symm
  · rintro rfl
    exact ⟨rfl, List.prefix_refl _⟩

end TenantPath

end TenantIam
