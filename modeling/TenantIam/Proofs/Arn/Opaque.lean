import TenantIam.OpaqueArn
import TenantIam.Proofs.Success
import TenantIam.Proofs.Text.Pieces

/-!
# Which texts are opaque resource names

An opaque resource name is read from the first five stretches between colons. The fifth one holds
the type up to its first slash and the name from its last slash on; what stands between them,
slashes included, is the path. So every part can be found again in the written form, and a text is
read when it is a written form, or a written form that goes on after a fifth colon. What follows
that colon is lost.
-/

namespace TenantIam.OpaqueArn

/-! ## Type, path and name -/

/-- Nothing, or folders with a slash before each and after the last. -/
def IsPath (path : String) : Prop :=
  path = "" ∨ ∃ folders : List String, folders ≠ [] ∧ (∀ folder ∈ folders, '/' ∉ folder.toList) ∧
    path = "/" ++ Text.joinWith '/' folders ++ "/"

/-- Between two slashes any letters are folders. -/
theorem isPath_iff {path : String} :
    IsPath path ↔ path = "" ∨ ∃ letters, path.toList = '/' :: letters ++ ['/'] := by
  refine or_congr_right ⟨?_, ?_⟩
  · rintro ⟨folders, -, -, rfl⟩
    exact ⟨(Text.joinWith '/' folders).toList, by simp⟩
  · rintro ⟨letters, hletters⟩
    refine ⟨Text.pieces '/' (String.ofList letters), Text.pieces_ne_nil _ _,
      fun folder hfolder => Text.not_mem_of_mem_pieces hfolder, String.toList_inj.1 ?_⟩
    rw [Text.joinWith_pieces]
    simp [hletters]

/-- The fifth part of a written form. -/
def resourceText (type path name : String) : String :=
  type ++ (if path = "" then "/" else "") ++ path ++ name

theorem resourceText_of_empty (type name : String) :
    resourceText type "" name = type ++ "/" ++ name := by
  simp [resourceText]

theorem resourceText_of_ne {path : String} (h : path ≠ "") (type name : String) :
    resourceText type path name = type ++ path ++ name := by
  simp [resourceText, h]

/-- The type ends at the first slash, the name begins after the last, and no letter is lost. -/
theorem splitResource?_eq_some_iff {s type path name : String} :
    splitResource? s = some (type, path, name) ↔
      '/' ∉ type.toList ∧ '/' ∉ name.toList ∧ IsPath path ∧ s = resourceText type path name := by
  unfold splitResource?
  constructor
  · intro h
    split at h
    · cases h
    · next front rest hfirst =>
      obtain ⟨hs, hfront⟩ := Text.cutFirst_eq_some_iff.1 hfirst
      split at h
      · next hlast =>
        -- without a second slash there is no path
        cases h
        have hname := Text.cutLast_eq_none_iff.1 hlast
        refine ⟨by simpa using hfront, by simpa using hname, .inl rfl, ?_⟩
        apply String.toList_inj.1
        simp [hs, resourceText_of_empty]
      · next middle back hlast =>
        cases h
        obtain ⟨rfl, hback⟩ := Text.cutLast_eq_some_iff.1 hlast
        refine ⟨by simpa using hfront, by simpa using hback,
          isPath_iff.2 (.inr ⟨middle, by simp⟩), ?_⟩
        rw [resourceText_of_ne (by simp [← String.toList_inj])]
        apply String.toList_inj.1
        simp [hs]
  · rintro ⟨htype, hname, hpath, rfl⟩
    obtain rfl | ⟨letters, hletters⟩ := isPath_iff.1 hpath
    · have hfirst : Text.cutFirst '/' (resourceText type "" name).toList =
          some (type.toList, name.toList) :=
        Text.cutFirst_eq_some_iff.2 ⟨by simp [resourceText_of_empty], htype⟩
      have hlast : Text.cutLast '/' name.toList = none := Text.cutLast_eq_none_iff.2 hname
      simp only [hfirst, hlast, String.ofList_toList]
    · have hne : path ≠ "" := by
        rintro rfl
        simp at hletters
      have hfirst : Text.cutFirst '/' (resourceText type path name).toList =
          some (type.toList, letters ++ '/' :: name.toList) :=
        Text.cutFirst_eq_some_iff.2 ⟨by simp [resourceText_of_ne hne, hletters], htype⟩
      have hlast : Text.cutLast '/' (letters ++ '/' :: name.toList) =
          some (letters, name.toList) :=
        Text.cutLast_eq_some_iff.2 ⟨rfl, hname⟩
      simp only [hfirst, hlast, ← hletters, String.ofList_toList]

/-! ## Reading -/

/-- The parts that a text can denote. -/
structure WellFormed (a : OpaqueArn) : Prop where
  provider : a.provider = "wami"
  service : ':' ∉ a.service.toList
  hash : ':' ∉ a.hash.toList
  type : ':' ∉ a.type.toList ∧ '/' ∉ a.type.toList
  path : ':' ∉ a.path.toList ∧ IsPath a.path
  name : ':' ∉ a.name.toList ∧ '/' ∉ a.name.toList

/-- The parts of a written form between its colons. -/
def writtenParts (a : OpaqueArn) : List String :=
  ["arn", a.provider, a.service, a.hash, resourceText a.type a.path a.name]

theorem joinWith_writtenParts (a : OpaqueArn) : Text.joinWith ':' a.writtenParts = a.text := by
  unfold text render
  apply String.toList_inj.1
  simp [writtenParts, Text.joinWith, resourceText]

theorem colon_not_mem_resourceText_iff {type path name : String} :
    ':' ∉ (resourceText type path name).toList ↔
      ':' ∉ type.toList ∧ ':' ∉ path.toList ∧ ':' ∉ name.toList := by
  by_cases h : path = ""
  · simp [resourceText, h]
  · simp [resourceText, h]

theorem WellFormed.colon_not_mem {a : OpaqueArn} (h : a.WellFormed) :
    ∀ part ∈ a.writtenParts, ':' ∉ part.toList := by
  have hresource : ':' ∉ (resourceText a.type a.path a.name).toList :=
    colon_not_mem_resourceText_iff.2 ⟨h.type.1, h.path.1, h.name.1⟩
  simp only [writtenParts, List.forall_mem_cons, h.provider]
  exact ⟨by decide, by decide, h.service, h.hash, hresource, by simp⟩

/-- A text with the parts of a written form before any others is read as that written form. -/
theorem parse_of_pieces {s : String} {a : OpaqueArn} (h : a.WellFormed) {more : List String}
    (hs : Text.pieces ':' s = a.writtenParts ++ more) : parse s = .ok a := by
  have hresource : splitResource? (resourceText a.type a.path a.name) =
      some (a.type, a.path, a.name) :=
    splitResource?_eq_some_iff.2 ⟨h.type.2, h.name.2, h.path.2, rfl⟩
  obtain ⟨provider, service, hash, type, path, name⟩ := a
  obtain rfl : provider = "wami" := h.provider
  simp only [writtenParts, List.cons_append, List.nil_append] at hs
  simp only [parse, hs, hresource, ne_eq, not_true_eq_false, if_false]

/-- The first parts of a text that is read are those of the written form. -/
theorem of_parse_eq_ok {s : String} {a : OpaqueArn} (h : parse s = .ok a) :
    a.WellFormed ∧ ∃ more, Text.pieces ':' s = a.writtenParts ++ more := by
  unfold parse at h
  split at h
  · next head provider service hash resource more hs =>
    have hcolon : ∀ part ∈ Text.pieces ':' s, ':' ∉ part.toList :=
      fun part hpart => Text.not_mem_of_mem_pieces hpart
    simp only [hs, List.forall_mem_cons] at hcolon
    obtain ⟨-, -, hservice, hhash, hresource, -⟩ := hcolon
    split at h
    · cases h
    · next hhead =>
      split at h
      · cases h
      · next hprovider =>
        split at h
        · cases h
        · next type path name hsplit =>
          cases h
          obtain ⟨htype, hname, hpath, rfl⟩ := splitResource?_eq_some_iff.1 hsplit
          obtain ⟨htypeColon, hpathColon, hnameColon⟩ := colon_not_mem_resourceText_iff.1 hresource
          refine ⟨⟨Decidable.not_not.1 hprovider, hservice, hhash, ⟨htypeColon, htype⟩,
            ⟨hpathColon, hpath⟩, ⟨hnameColon, hname⟩⟩, more, ?_⟩
          rw [hs, Decidable.not_not.1 hhead]
          rfl
  · cases h

/-- **What is read.** A text is read as the parts of which it is the written form, and what it goes
on with after a fifth colon is lost. -/
theorem parse_eq_ok_iff {s : String} {a : OpaqueArn} :
    parse s = .ok a ↔ a.WellFormed ∧ (s = a.text ∨ ∃ lost, s = a.text ++ ":" ++ lost) := by
  constructor
  · intro h
    obtain ⟨hwell, more, hpieces⟩ := of_parse_eq_ok h
    refine ⟨hwell, ?_⟩
    rw [← joinWith_writtenParts, ← Text.joinWith_pieces ':' s, hpieces]
    by_cases hmore : more = []
    · exact .inl (by rw [hmore, List.append_nil])
    · exact .inr ⟨_, Text.joinWith_append_sep (List.cons_ne_nil _ _) hmore⟩
  · rintro ⟨hwell, hs⟩
    have htext : Text.pieces ':' a.text = a.writtenParts := by
      rw [← joinWith_writtenParts]
      exact Text.pieces_joinWith ':' _ (List.cons_ne_nil _ _) hwell.colon_not_mem
    obtain rfl | ⟨lost, rfl⟩ := hs
    · exact parse_of_pieces hwell (htext.trans (List.append_nil _).symm)
    · have hlost := Text.pieces_append_sep ':' a.text lost
      rw [htext] at hlost
      exact parse_of_pieces hwell hlost

theorem parse_text {a : OpaqueArn} (h : a.WellFormed) : parse a.text = .ok a :=
  parse_eq_ok_iff.2 ⟨h, .inl rfl⟩

/-! ## What is composed is read back -/

theorem not_mem_hexByte {c : Char} (hc : ∀ n < 16, c ≠ Text.hexDigit n) {n : Nat} (hn : n < 256) :
    c ∉ Text.hexByte n := by
  simp only [Text.hexByte, List.mem_cons, List.not_mem_nil, or_false, not_or]
  exact ⟨hc _ (by omega), hc _ (by omega)⟩

/-- The hash of an account is made of a fixed word and of hexadecimal digits. -/
theorem colon_not_mem_accountHash (salt : Option String) (accountId : String) :
    ':' ∉ (accountHash salt accountId).toList := by
  have hword (w : UInt32) : ':' ∉ Sha256.wordHex w := by
    simp only [Sha256.wordHex, List.mem_flatMap, not_exists, not_and]
    intro place _
    exact not_mem_hexByte (by decide) (Nat.mod_lt _ (by decide))
  simp only [accountHash, String.toList_append, String.toList_ofList, List.mem_append, not_or]
  refine ⟨by decide, ?_⟩
  cases (Sha256.digest (accountId ++ salt.getD "")).head? with
  | none => simp
  | some w => exact hword w

/-- **What is composed is read back.** The text for a resource of an account is read as its service,
its type, its path and its name, with the hash of the account; and so it is whatever stands for the
account, as long as it holds no colon. -/
theorem parse_compose (salt : Option String) (service accountId type path name : String)
    (hservice : ':' ∉ service.toList) (htype : ':' ∉ type.toList ∧ '/' ∉ type.toList)
    (hpath : ':' ∉ path.toList ∧ IsPath path) (hname : ':' ∉ name.toList ∧ '/' ∉ name.toList) :
    parse (compose salt service accountId type path name) =
        .ok { provider := "wami", service, hash := accountHash salt accountId, type, path, name } ∧
      ∀ hash : String, ':' ∉ hash.toList →
        parse (render "wami" service hash type path name) =
          .ok { provider := "wami", service, hash, type, path, name } := by
  have hread (hash : String) (hhash : ':' ∉ hash.toList) :
      parse (render "wami" service hash type path name) =
        .ok { provider := "wami", service, hash, type, path, name } := by
    have hwell : WellFormed { provider := "wami", service, hash, type, path, name } :=
      ⟨rfl, hservice, hhash, htype, hpath, hname⟩
    have hparse := parse_text hwell
    exact hparse
  exact ⟨hread _ (colon_not_mem_accountHash salt accountId), hread⟩

/-- An empty service and an empty type, folders of which one is empty, and an empty name. -/
theorem parse_compose_empty :
    parse (compose (some "salt") "" "1:2" "" "/a//" "") =
        .ok { provider := "wami", service := "", hash := accountHash (some "salt") "1:2", type := ""
              path := "/a//", name := "" } ∧
      parse (render "wami" "" "t/1" "" "/a//" "") =
        .ok { provider := "wami", service := "", hash := "t/1", type := "", path := "/a//"
              name := "" } := by
  have hpath : IsPath "/a//" := .inr ⟨["a", ""], by simp, by decide, by decide⟩
  have h := parse_compose (some "salt") "" "1:2" "" "/a//" "" (by decide) (by decide)
    ⟨by decide, hpath⟩ (by decide)
  exact ⟨h.1, h.2 "t/1" (by decide)⟩

/-! ## What is read is written again -/

theorem WellFormed.count_colon_text {a : OpaqueArn} (h : a.WellFormed) :
    a.text.toList.count ':' = 4 := by
  have hcount {part : String} (hpart : ':' ∉ part.toList) : part.toList.count ':' = 0 :=
    List.count_eq_zero.2 hpart
  have hresource := hcount (colon_not_mem_resourceText_iff.2 ⟨h.type.1, h.path.1, h.name.1⟩)
  rw [← joinWith_writtenParts]
  simp [writtenParts, Text.joinWith, h.provider, hcount h.service, hcount h.hash, hresource]

/-- **What is read is written again, up to a fifth colon.** The written form of what is read is read
as the same, and it is the text that was read exactly when that text has no more than four colons.
For such texts patterns are compared with what was given, and no two of them are read alike. -/
theorem text_eq_iff_of_parse {s : String} {a : OpaqueArn} (h : parse s = .ok a) :
    parse a.text = .ok a ∧ (a.text = s ↔ s.toList.count ':' ≤ 4) ∧
      (s.toList.count ':' ≤ 4 →
        (∀ pattern cache, a.matchPattern pattern cache = cache.matchText pattern s) ∧
        ∀ t, t.toList.count ':' ≤ 4 → parse t = .ok a → t = s) := by
  have hwritten {t : String} (ht : parse t = .ok a) : a.text = t ↔ t.toList.count ':' ≤ 4 := by
    obtain ⟨hwell, rfl | ⟨lost, rfl⟩⟩ := parse_eq_ok_iff.1 ht
    · exact iff_of_true rfl (Nat.le_of_eq hwell.count_colon_text)
    · refine iff_of_false (fun heq => ?_) ?_
      · have hlength := congrArg String.length heq
        rw [String.length_append, String.length_append] at hlength
        have : ":".length = 1 := rfl
        omega
      · have hcolon := hwell.count_colon_text
        simp [hcolon]
  have hs := hwritten h
  refine ⟨parse_text (parse_eq_ok_iff.1 h).1, hs, fun hcount => ⟨fun pattern cache => ?_, ?_⟩⟩
  · rw [matchPattern, hs.2 hcount]
  · intro t htcount ht
    rw [← (hwritten ht).2 htcount, hs.2 hcount]

/-- Doubled slashes, an empty type and an empty name. -/
theorem text_eq_iff_of_parse_slashes :
    let s := "arn:wami:iam:tenant-1://a//"
    let a : OpaqueArn := { provider := "wami", service := "iam", hash := "tenant-1", type := ""
                           path := "//a//", name := "" }
    parse s = .ok a ∧ a.text = s ∧ ∀ pattern cache,
      a.matchPattern pattern cache = cache.matchText pattern s := by
  intro s a
  have h : parse s = .ok a := toOption_eq_some_iff.1 (by decide)
  obtain ⟨-, htext, hkept⟩ := text_eq_iff_of_parse h
  exact ⟨h, htext.2 (by decide), (hkept (by decide)).1⟩

/-- A name with a colon is read as another name: the text is not written again, a pattern for the
other name matches, and the text of the other name is read as the same. -/
theorem parse_fifth_colon :
    let s := "arn:wami:iam:tenant-1:user/a:b"
    let t := "arn:wami:iam:tenant-1:user/a"
    ∃ a, parse s = .ok a ∧ a.name = "a" ∧ a.text = t ∧ a.text ≠ s ∧ parse t = .ok a ∧ t ≠ s ∧
      (a.matchPattern t {}).1 = true ∧ (GlobCache.matchText {} t s).1 = false := by
  intro s t
  exact ⟨{ provider := "wami", service := "iam", hash := "tenant-1", type := "user", path := ""
           name := "a" },
    toOption_eq_some_iff.1 (by decide), rfl, by decide, by decide,
    toOption_eq_some_iff.1 (by decide), by decide, by decide, by decide⟩

end TenantIam.OpaqueArn
