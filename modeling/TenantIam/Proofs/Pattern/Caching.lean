import Mathlib.Data.List.DropRight
import Mathlib.Data.List.Nodup
import TenantIam.Pattern.Cache

/-!
# Matching through the cache

A match that goes through the cache is a question about a pattern and a text. Whatever was asked
before, and however often the cache was cleared in between, the answer is that of a glob that has
just been compiled. What the cache holds is told by the patterns that were missing from it: since it
was last cleared, every pattern that was missing has been put in at the end, and the oldest has made
room when there was none. So it holds the patterns that were missing last, each with its own glob.
-/

namespace TenantIam.GlobCache

inductive Call where
  /-- Asks whether a text matches a pattern. -/
  | ask (pattern text : String)
  | clear

/-- The answer of a glob that is compiled for this one question; a clearing has none. -/
def Call.freshAnswer? : Call → Option Bool
  | ask pattern text => some ((Glob.compile pattern).acceptsText text)
  | clear => none

/-- The patterns of the globs kept, oldest first. -/
def patterns (cache : GlobCache) : List String := cache.entries.map (·.1)

/-- The answer through the cache; a clearing has none. -/
def answer? (cache : GlobCache) : Call → Option Bool
  | .ask pattern text => some (cache.matchText pattern text).1
  | .clear => none

def after (cache : GlobCache) : Call → GlobCache
  | .ask pattern text => (cache.matchText pattern text).2
  | .clear => cache.cleared

def run (cache : GlobCache) (calls : List Call) : GlobCache := calls.foldl after cache

def answers (cache : GlobCache) : List Call → List (Option Bool)
  | [] => []
  | call :: calls => cache.answer? call :: (cache.after call).answers calls

/-- The patterns that were missing since the last clearing, with what a call adds to them. -/
def note (cache : GlobCache) (missed : List String) : Call → List String
  | .ask pattern _ => if pattern ∈ cache.patterns then missed else missed ++ [pattern]
  | .clear => []

/-- The patterns that were missing since the last clearing, in the order in which they were asked
for; those in `missed` were so before the calls. -/
def missedFrom (cache : GlobCache) (missed : List String) : List Call → List String
  | [] => missed
  | call :: calls => (cache.after call).missedFrom (cache.note missed call) calls

/-- The patterns that were missing since the last of the calls that clears the cache, which is empty
at first. -/
def missed (calls : List Call) : List String := missedFrom {} [] calls

/-- **What a cache holds.** It holds the patterns that were missing last, in that order and no
pattern twice, and each of them with the glob that it is compiled to. -/
structure Remembers (cache : GlobCache) (missed : List String) : Prop where
  entries_eq : cache.entries = (missed.rtake capacity).map fun pattern =>
    (pattern, Glob.compile pattern)
  nodup : (missed.rtake capacity).Nodup

section Lists

variable {α β : Type} {l : List α} {n : Nat}

theorem lookup_map_eq [DecidableEq α] (f : α → β) (l : List α) (a : α) :
    (l.map fun b => (b, f b)).lookup a = if a ∈ l then some (f a) else none := by
  induction l with
  | nil => rfl
  | cons b l ih =>
      rw [List.map_cons, List.lookup_cons, ih]
      by_cases hab : a = b
      · subst hab
        simp
      · have hne : (a == b) = false := beq_false_of_ne hab
        rw [hne]
        simp [hab]

/-- Of the last `n`, the first makes room when there are that many. -/
theorem ite_drop_rtake (hpos : 0 < n) (l : List α) :
    (if n ≤ (l.rtake n).length then (l.rtake n).drop 1 else l.rtake n) = l.rtake (n - 1) := by
  have hlength : (l.rtake n).length = l.length - (l.length - n) := List.length_drop
  split
  · next hfull =>
    have hnext : l.length - n + 1 = l.length - (n - 1) := by omega
    rw [List.rtake, List.rtake, List.drop_drop, hnext]
  · next hroom =>
    have hall : l.length - n = 0 ∧ l.length - (n - 1) = 0 := by omega
    rw [List.rtake, List.rtake, hall.1, hall.2]

theorem rtake_concat (hpos : 0 < n) (l : List α) (a : α) :
    (l ++ [a]).rtake n = l.rtake (n - 1) ++ [a] := by
  have hsucc : n = n - 1 + 1 := by omega
  rw [hsucc, List.rtake_concat_succ, Nat.add_sub_cancel]

theorem rtake_pred_sublist (hpos : 0 < n) (l : List α) :
    (l.rtake (n - 1)).Sublist (l.rtake n) := by
  rw [← ite_drop_rtake hpos]
  split
  · exact List.drop_sublist 1 _
  · exact .refl _

end Lists

theorem capacity_pos : 0 < capacity := by decide

theorem remembers_nil : ({} : GlobCache).Remembers [] := by
  constructor
  · rw [List.rtake_nil]
    rfl
  · rw [List.rtake_nil]
    exact List.nodup_nil

namespace Remembers

variable {cache : GlobCache} {missed : List String}

theorem patterns_eq (h : cache.Remembers missed) : cache.patterns = missed.rtake capacity := by
  rw [patterns, h.entries_eq, List.map_map]
  exact List.map_id _

theorem size_le (h : cache.Remembers missed) : cache.size ≤ capacity := by
  have hlength : (missed.rtake capacity).length = missed.length - (missed.length - capacity) :=
    List.length_drop
  rw [size, h.entries_eq, List.length_map, hlength]
  omega

/-- A pattern is found with its own glob, or not at all. -/
theorem lookup_eq (h : cache.Remembers missed) (pattern : String) :
    cache.entries.lookup pattern =
      if pattern ∈ cache.patterns then some (Glob.compile pattern) else none := by
  rw [h.patterns_eq, h.entries_eq, lookup_map_eq]

/-- Found or compiled, the glob is the same. -/
theorem glob_fst (h : cache.Remembers missed) (pattern : String) :
    (cache.glob pattern).1 = Glob.compile pattern := by
  unfold glob
  rw [h.lookup_eq]
  by_cases hkept : pattern ∈ cache.patterns
  · rw [if_pos hkept]
  · rw [if_neg hkept]

theorem glob_snd_of_mem (h : cache.Remembers missed) {pattern : String}
    (hkept : pattern ∈ cache.patterns) : (cache.glob pattern).2 = cache := by
  unfold glob
  rw [h.lookup_eq, if_pos hkept]

/-- A pattern that is missing is put in after the others, of which the oldest makes room. -/
theorem glob_snd_of_notMem (h : cache.Remembers missed) {pattern : String}
    (hmissing : pattern ∉ cache.patterns) :
    (cache.glob pattern).2 = ⟨cache.trimmed ++ [(pattern, Glob.compile pattern)]⟩ := by
  unfold glob
  rw [h.lookup_eq, if_neg hmissing]

/-- With room for one more, one pattern less is remembered. -/
theorem trimmed_eq (h : cache.Remembers missed) :
    cache.trimmed = (missed.rtake (capacity - 1)).map fun pattern =>
      (pattern, Glob.compile pattern) := by
  rw [trimmed, size, h.entries_eq, ← ite_drop_rtake capacity_pos, List.length_map, ← List.map_drop,
    ← apply_ite (List.map _)]

/-- **One call.** A clearing forgets everything, a pattern that is kept changes nothing, and one
that is missing becomes the last of those that were. -/
theorem after (h : cache.Remembers missed) (call : Call) :
    (cache.after call).Remembers (cache.note missed call) := by
  cases call with
  | clear => exact remembers_nil
  | ask pattern text =>
      show (cache.glob pattern).2.Remembers
        (if pattern ∈ cache.patterns then missed else missed ++ [pattern])
      by_cases hkept : pattern ∈ cache.patterns
      · rw [if_pos hkept, h.glob_snd_of_mem hkept]
        exact h
      · rw [if_neg hkept, h.glob_snd_of_notMem hkept, h.trimmed_eq]
        constructor
        · rw [rtake_concat capacity_pos, List.map_append]
          rfl
        · -- the patterns with room for one more are some of those that were kept
          have hsub := rtake_pred_sublist capacity_pos missed
          rw [rtake_concat capacity_pos]
          refine List.nodup_append.2 ⟨h.nodup.sublist hsub, List.nodup_singleton _, ?_⟩
          rintro old hold new hnew rfl
          rw [List.mem_singleton.1 hnew] at hold
          exact hkept (h.patterns_eq ▸ hsub.subset hold)

/-- **Any calls.** After a run the cache holds the patterns that were missing last. -/
theorem run (h : cache.Remembers missed) (calls : List Call) :
    (cache.run calls).Remembers (cache.missedFrom missed calls) := by
  induction calls generalizing cache missed with
  | nil => exact h
  | cons call calls ih => exact ih (h.after call)

/-- One answer is that of a fresh glob. -/
theorem answer?_eq (h : cache.Remembers missed) (call : Call) :
    cache.answer? call = call.freshAnswer? := by
  cases call with
  | clear => rfl
  | ask pattern text =>
      show some ((cache.glob pattern).1.acceptsText text) = _
      rw [h.glob_fst]
      rfl

theorem answers_eq (h : cache.Remembers missed) (calls : List Call) :
    cache.answers calls = calls.map Call.freshAnswer? := by
  induction calls generalizing cache missed with
  | nil => rfl
  | cons call calls ih =>
      rw [answers, List.map_cons, h.answer?_eq call, ih (h.after call)]

end Remembers

/-- **The cache is never noticed.** Starting with an empty cache, every question is answered as by a
glob that is compiled for it alone; there are never more than 1000 globs; and the patterns kept are
the last 1000 of those that were missing since the cache was last cleared, or all of them where they
are fewer, in that order and none of them twice. -/
theorem run_remembers (calls : List Call) :
    answers {} calls = calls.map Call.freshAnswer? ∧
      (run {} calls).size ≤ 1000 ∧
      (run {} calls).patterns = (missed calls).rtake 1000 ∧
      (run {} calls).patterns.Nodup := by
  have hrun := remembers_nil.run calls
  refine ⟨remembers_nil.answers_eq calls, hrun.size_le, hrun.patterns_eq, ?_⟩
  rw [hrun.patterns_eq]
  exact hrun.nodup

end TenantIam.GlobCache
