import Mathlib.Data.List.Perm.Basic
import TenantIam.Proofs.Arn.RoundTrip

/-!
# The canonical text of a resource name

Several texts denote one resource name: decimals may have leading zeros, and a mapping without a
region may be written in the legacy shape or with the region `global`. Of these texts one is
canonical. It is the one that is written, so writing what was read leads to it, and reading it gives
the same resource name again. Nothing that is read is refused afterwards: the grammar asks of a text
at least what is asked of the parts of a resource name.
-/

namespace TenantIam

namespace Arn

namespace Tail

/-- The tail with the region spelled out where a mapping has none. -/
def canonical : Tail → Tail
  | native r => native r
  | regional provider accountId region r => regional provider accountId region r
  | legacy provider accountId r => regional provider accountId "global" r

@[simp] theorem canonical_canonical (t : Tail) : t.canonical.canonical = t.canonical := by
  cases t <;> rfl

end Tail

namespace Reading

/-- The reading without leading zeros and with the region spelled out. -/
def canonical (r : Reading) : Reading where
  service := r.service
  tenant := r.tenant.map fun s => (TenantPath.decimalValue s).repr
  instanceId := r.instanceId
  tail := r.tail.canonical

/-- A canonical reading has no other canonical form. -/
theorem canonical_canonical (r : Reading) : r.canonical.canonical = r.canonical := by
  simp [canonical, Function.comp_def, TenantPath.decimalValue_repr]

end Reading

/-- A resource name is written with the tail that its mapping and its resource determine. -/
theorem tail_eq_canonical {t : Tail} {a : Arn}
    (hplace : a.mapping.map (fun m => (m.provider, m.accountId, m.region)) = t.place)
    (hresource : a.resource = t.resource) : a.tail = t.canonical := by
  unfold tail
  cases t with
  | native r =>
      have hnone : a.mapping = none := by simpa [Tail.place] using hplace
      rw [hnone, hresource]
      rfl
  | regional provider accountId region r =>
      obtain ⟨m, hm, hparts⟩ := Option.map_eq_some_iff.1 hplace
      obtain ⟨rfl, rfl, hregion⟩ : m.provider = provider ∧ m.accountId = accountId ∧
          m.region = if region = "global" then none else some region := by simpa using hparts
      have htext : m.regionText = region := by
        by_cases h : region = "global" <;> simp [CloudMapping.regionText, hregion, h]
      rw [hm, hresource]
      simp only [htext]
      rfl
  | legacy provider accountId r =>
      obtain ⟨m, hm, hparts⟩ := Option.map_eq_some_iff.1 hplace
      obtain ⟨rfl, rfl, hregion⟩ : m.provider = provider ∧ m.accountId = accountId ∧
          m.region = none := by simpa using hparts
      have htext : m.regionText = "global" := by simp [CloudMapping.regionText, hregion]
      rw [hm, hresource]
      simp only [htext]
      rfl

/-- What a reading stands for is written with the canonical form of the reading. -/
theorem Reading.Denotes.reading_eq {r : Reading} {a : Arn} (h : r.Denotes a.toArnParts) :
    a.reading = r.canonical := by
  have hservice : a.service.token = r.service := by rw [h.service, Service.token_ofToken]
  rw [reading, hservice, h.tenant, h.instanceId, tail_eq_canonical h.mapping h.resource]
  rfl

/-- What a reading stands for has no custom service that hides a known one. -/
theorem Reading.Denotes.normalize_eq {r : Reading} {a : Arn} (h : r.Denotes a.toArnParts) :
    a.normalize = a := by
  rw [normalize_eq_iff, h.service, Service.token_ofToken]

/-- The parts that are read are never refused. -/
theorem parse_ne_refused (s : String) (defect : ArnParts.Defect) :
    parse s ≠ .error (.refused defect) := by
  intro h
  cases hparts : parseParts s with
  | error malformed => simp [parse, hparts, Except.mapError, bind, Except.bind] at h
  | ok parts =>
      obtain ⟨r, hr, -, hdenotes⟩ := parseParts_eq_ok_iff_reading.1 hparts
      obtain ⟨a, hok⟩ := exists_ofParts_iff.2 (hdenotes.admissible hr).flawless
      simp [parse, hparts, hok, Except.mapError, bind, Except.bind] at h

/-- The edits that set the parts of a resource name. -/
def edits (a : Arn) : List ArnDraft.Edit :=
  [.service a.service, .tenant a.tenantPath, .instanceId a.instanceId, .resource a.resource] ++
    a.mapping.toList.map .mapping

theorem run_edits (a : Arn) :
    ArnDraft.run {} a.edits =
      { service := some (.ofToken a.service.token)
        tenant := some (a.tenantPath.segmentTexts.map .text)
        instanceId := some a.instanceId
        mapping := a.mapping
        resource := some a.resource } := by
  have hfolded := a.map_folded_mapping
  cases h : a.mapping with
  | none => simp [edits, h, ArnDraft.run, ArnDraft.apply]
  | some m =>
      rw [h] at hfolded
      simp [edits, h, ArnDraft.run, ArnDraft.apply, ArnDraft.Edit.mappingAfter,
        Option.some.inj hfolded]

/-- The edits that set the parts of a resource name set different parts. -/
theorem apply_comm_of_mem_edits {a : Arn} {e e' : ArnDraft.Edit} (he : e ∈ a.edits)
    (he' : e' ∈ a.edits) (draft : ArnDraft) :
    (draft.apply e).apply e' = (draft.apply e').apply e := by
  have hkinds : ∀ e ∈ a.edits, e = .service a.service ∨ e = .tenant a.tenantPath ∨
      e = .instanceId a.instanceId ∨ e = .resource a.resource ∨
      ∃ m, a.mapping = some m ∧ e = .mapping m := by
    intro e he
    simpa [edits, eq_comm, and_comm] using he
  obtain rfl | rfl | rfl | rfl | ⟨m, hm, rfl⟩ := hkinds e he <;>
    obtain rfl | rfl | rfl | rfl | ⟨m', hm', rfl⟩ := hkinds e' he' <;>
      first
        | rfl
        | (rw [hm] at hm'; cases hm'; rfl)

/-- A normal resource name is made up again from its parts, in whatever order they are set. -/
theorem finish_run_edits {a : Arn} (ha : a.normalize = a) {edits : List ArnDraft.Edit}
    (h : edits.Perm a.edits) : (ArnDraft.run {} edits).finish = .ok a := by
  have hrun : ArnDraft.run {} edits = ArnDraft.run {} a.edits :=
    h.foldl_eq' (fun e he e' he' draft =>
      apply_comm_of_mem_edits (h.subset he) (h.subset he') draft) {}
  have hpath : TenantPath.ofTexts a.tenantPath.segmentTexts = .ok a.tenantPath :=
    TenantPath.ofTexts_eq_ok_iff.2
      ⟨fun s hs => TenantPath.isSegmentText_of_mem_segmentTexts hs,
        a.tenantPath.map_decimalValue_segmentTexts⟩
  rw [hrun, run_edits, normalize_eq_iff.1 ha]
  exact ArnDraft.finish_eq_ok_iff.2 ⟨rfl, ⟨_, rfl, hpath⟩, rfl, rfl, a.map_folded_mapping⟩

/-- **Reading is closed and leads to canonical texts.** A text that is not read is reported as
malformed, and nothing else can go wrong. What is read from a text is read again from its written
form, and it is made up again from its parts; its written form is the text of the canonical reading,
so texts that differ in leading zeros or in how they say that there is no region lead to one
canonical text. -/
theorem parse_canonical (s : String) :
    (∀ error, parse s = .error error →
      (∃ malformed, error = .malformed malformed) ∧
        (Reported.toFault error).name = "ArnParseError" ∧ tryParse s = .ok none) ∧
    ∀ a, parse s = .ok a →
      tryParse s = .ok (some a) ∧
      parse a.text = .ok a ∧
      (∀ edits : List ArnDraft.Edit, edits.Perm a.edits → (ArnDraft.run {} edits).finish = .ok a) ∧
      ∃ r : Reading, r.WellFormed ∧ r.text = s ∧
        a.text = r.canonical.text ∧ r.canonical.WellFormed ∧
        r.canonical.canonical = r.canonical := by
  constructor
  · intro error herror
    cases error with
    | refused defect => exact absurd herror (parse_ne_refused s defect)
    | malformed malformed => exact ⟨⟨malformed, rfl⟩, rfl, by rw [tryParse, herror]⟩
  · intro a ha
    obtain ⟨r, hr, htext, hdenotes⟩ := parse_eq_ok_iff.1 ha
    have hread : parse a.text = .ok a := by rw [parse_text, hdenotes.normalize_eq]
    refine ⟨by rw [tryParse, ha], hread,
      fun edits h => finish_run_edits hdenotes.normalize_eq h, r, hr, htext, ?_, ?_,
      r.canonical_canonical⟩
    · rw [← text_reading, hdenotes.reading_eq]
    · rw [← hdenotes.reading_eq]
      exact a.wellFormed_reading

/-- A legacy text with leading zeros, made up again from its parts in another order, and a text
whose path holds a sign. -/
theorem parse_canonical_legacy :
    let legacy := "arn:wami:iam:007/00:wami:i/1:aws:1:user/a/b"
    let signed := "arn:wami:iam:7/+1:wami:i:user/a"
    let a : Arn :=
      ⟨{ service := .iam, tenantPath := ⟨[7, 0], by decide⟩, instanceId := "i/1"
         mapping := some (.of "aws" "1" none), resource := { type := "user", id := "a/b" } },
        by decide⟩
    parse legacy = .ok a ∧ a.text = "arn:wami:iam:7/0:wami:i/1:aws:1:global:user/a/b" ∧
      tryParse legacy = .ok (some a) ∧ parse a.text = .ok a ∧
      (ArnDraft.run {} a.edits.reverse).finish = .ok a ∧
      (∃ r : Reading, r.WellFormed ∧ r.text = legacy ∧ a.text = r.canonical.text ∧
        r.canonical.WellFormed ∧ r.canonical.canonical = r.canonical) ∧
      parse signed = .error (.malformed (.path (.notDecimal "+1"))) ∧
      tryParse signed = .ok none := by
  intro legacy signed a
  have hlegacy : parse legacy = .ok a := toOption_eq_some_iff.1 (by decide +kernel)
  have hsigned : parse "arn:wami:iam:7/+1:wami:i:user/a" =
      .error (.malformed (.path (.notDecimal "+1"))) := rfl
  obtain ⟨htry, hread, hedits, hreading⟩ := (parse_canonical legacy).2 a hlegacy
  exact ⟨hlegacy, by decide, htry, hread, hedits _ a.edits.reverse_perm, hreading, hsigned,
    ((parse_canonical signed).1 _ hsigned).2.2⟩

end Arn

end TenantIam
