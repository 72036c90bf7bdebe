import TenantIam.Pattern.Glob

/-!
# The cache of compiled globs

Compiled globs are kept for reuse. When the cache is full, the glob that has been in it longest
makes room.
-/

namespace TenantIam

/-- Compiled globs under their patterns, oldest first. -/
structure GlobCache where
  entries : List (String × Glob) := []

namespace GlobCache

def capacity : Nat := 1000

def size (cache : GlobCache) : Nat := cache.entries.length

/-- The entries with room for one more. -/
def trimmed (cache : GlobCache) : List (String × Glob) :=
  if capacity ≤ cache.size then cache.entries.drop 1 else cache.entries

/-- The compiled glob of a pattern, and the cache that holds it. -/
def glob (cache : GlobCache) (pattern : String) : Glob × GlobCache :=
  match cache.entries.lookup pattern with
  | some glob => (glob, cache)
  | none =>
    let glob := Glob.compile pattern
    (glob, ⟨cache.trimmed ++ [(pattern, glob)]⟩)

def matchText (cache : GlobCache) (pattern text : String) : Bool × GlobCache :=
  let (glob, cache) := cache.glob pattern
  (glob.acceptsText text, cache)

def cleared (_ : GlobCache) : GlobCache := {}

end GlobCache

end TenantIam
