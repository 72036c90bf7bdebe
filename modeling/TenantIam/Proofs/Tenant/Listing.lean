import TenantIam.Proofs.Tenant.Keys

/-!
# The store as an ordered map

A store is one list of tenants, each under an identifier of its own, and what is found under an
identifier and which tenants name it as the one above them can be read off that list. A change comes
to nothing but the tenant that it is about: it keeps the places of all others, and with that tenant
left out the store is as if the change had not been made, whatever is changed later.
-/

namespace TenantIam.TenantStore

variable {s s' : TenantStore} {t old : Tenant} {id x : TenantId} {operation : Operation}
variable {between : List Operation} {front back : List Tenant}

/-! ## Leaving a tenant out -/

/-- Nothing is found under the identifier that is left out, and under the others what was there. -/
theorem get?_without (s : TenantStore) (x id : TenantId) :
    (s.without x).get? id = if id = x then none else s.get? id := by
  split
  · next hid => simp [get?_eq_none_iff, ids_without, hid]
  · next hid =>
    unfold get? without
    rw [List.find?_filter]
    congr 1
    funext u
    by_cases hu : u.id = id
    · simp [hu, hid]
    · simp [hu]

theorem children_without (s : TenantStore) (x id : TenantId) :
    (s.without x).children id = (s.children id).filter (·.id ≠ x) :=
  List.filter_comm _ _ _

/-- What is about another identifier is admitted with a tenant as it is without it. -/
theorem admits_without_iff (hne : operation.subject ≠ x) :
    (s.without x).Admits operation ↔ s.Admits operation := by
  have hmem : operation.subject ∈ (s.without x).ids ↔ operation.subject ∈ s.ids := by
    simp [ids_without, hne]
  cases operation with
  | create t => exact not_congr hmem
  | update t => exact hmem
  | delete id => exact hmem

theorem filter_ne_eq_self (hothers : ∀ u ∈ front, u.id ≠ x) : front.filter (·.id ≠ x) = front := by
  rw [List.filter_eq_self]
  intro u hu
  simpa using hothers u hu

theorem map_replace_eq_self (hothers : ∀ u ∈ front, u.id ≠ t.id) :
    (front.map fun u => if u.id = t.id then t else u) = front := by
  have hkept : ∀ u ∈ front, (if u.id = t.id then t else u) = u := fun u hu => if_neg (hothers u hu)
  rw [List.map_congr_left hkept, List.map_id']

theorem id_ne_of_notMem_ids (hx : x ∉ s.ids) : ∀ u ∈ s.tenants, u.id ≠ x := by
  intro u hu hid
  exact hx (hid ▸ List.mem_map_of_mem hu)

theorem without_of_notMem (hx : x ∉ s.ids) : s.without x = s := by
  rw [without, filter_ne_eq_self (id_ne_of_notMem_ids hx)]

theorem replace_of_notMem (ht : t.id ∉ s.ids) : s.replace t = s := by
  rw [replace, map_replace_eq_self (id_ne_of_notMem_ids ht)]

/-- A replacement changes no identifier, so it does not matter when a tenant is left out. -/
theorem without_replace (s : TenantStore) (t : Tenant) (x : TenantId) :
    (s.replace t).without x = (s.without x).replace t := by
  rw [without, replace, List.filter_map]
  simp only [Function.comp_def, id_replaced]
  rfl

theorem without_comm (s : TenantStore) (x id : TenantId) :
    (s.without id).without x = (s.without x).without id :=
  congrArg TenantStore.mk (List.filter_comm _ _ _)

/-- A change matters to nothing but its own identifier. -/
theorem without_changed_self (s : TenantStore) (operation : Operation) :
    (s.changed operation).without operation.subject = s.without operation.subject := by
  cases operation with
  | create t => simp [changed, add, without, Operation.subject]
  | update t =>
      show (s.replace t).without t.id = s.without t.id
      rw [without_replace, replace_of_notMem (s.notMem_ids_without t.id)]
  | delete id => exact without_of_notMem (s.notMem_ids_without id)

/-- A change of another identifier is the same change with a tenant left out. -/
theorem without_changed_of_ne (hne : operation.subject ≠ x) :
    (s.changed operation).without x = (s.without x).changed operation := by
  cases operation with
  | create t => simpa [changed, add, without, Operation.subject] using hne
  | update t => exact s.without_replace t x
  | delete id => exact s.without_comm x id

/-- **A step without a tenant.** What is left of a step is nothing when the step is about the tenant
that is left out, and the same step otherwise. -/
theorem without_after (s : TenantStore) (operation : Operation) (x : TenantId) :
    (s.after operation).without x =
      if operation.subject = x then s.without x else (s.without x).after operation := by
  rw [after_eq, after_eq]
  by_cases hself : operation.subject = x
  · rw [if_pos hself, ← hself]
    by_cases hadmits : s.Admits operation
    · rw [if_pos hadmits, without_changed_self]
    · rw [if_neg hadmits]
  · rw [if_neg hself]
    by_cases hadmits : s.Admits operation
    · rw [if_pos hadmits, if_pos ((admits_without_iff hself).2 hadmits),
        without_changed_of_ne hself]
    · rw [if_neg hadmits, if_neg (mt (admits_without_iff hself).1 hadmits)]

/-- **A run without a tenant.** With a tenant left out, what is left of a run are its steps about
the others. -/
theorem without_run (s : TenantStore) (operations : List Operation) (x : TenantId) :
    (s.run operations).without x = (s.without x).run (operations.filter (·.subject ≠ x)) := by
  induction operations generalizing s with
  | nil => rfl
  | cons operation operations ih =>
      show ((s.after operation).run operations).without x = _
      rw [ih, without_after]
      by_cases hself : operation.subject = x
      · rw [if_pos hself, List.filter_cons_of_neg (by simpa using hself)]
      · rw [if_neg hself, List.filter_cons_of_pos (by simpa using hself)]
        rfl

/-! ## Places -/

/-- In a keyed store a tenant stands between tenants of other identifiers. -/
theorem Keyed.exists_split (h : s.Keyed) (hold : old ∈ s.tenants) :
    ∃ front back, s.tenants = front ++ old :: back ∧ (∀ u ∈ front, u.id ≠ old.id) ∧
      ∀ u ∈ back, u.id ≠ old.id := by
  obtain ⟨front, back, hsplit⟩ := List.append_of_mem hold
  have hnodup : (s.tenants.map (·.id)).Nodup := h
  rw [hsplit, List.map_append, List.map_cons, List.nodup_middle, List.nodup_cons,
    List.mem_append, not_or] at hnodup
  refine ⟨front, back, hsplit, fun u hu hid => ?_, fun u hu hid => ?_⟩
  · exact hnodup.1.1 (hid ▸ List.mem_map_of_mem hu)
  · exact hnodup.1.2 (hid ▸ List.mem_map_of_mem hu)

/-- **Places.** A tenant that is created comes to the end. One that is stored is replaced where it
stands, and when it is deleted the others close up. When it is created after it was deleted it comes
to the end, too, behind all that the changes in between have made of the others. -/
structure KeepsPlaces (s : TenantStore) : Prop where
  create : ∀ t, s.get? t.id = none → s.perform (.create t) = .ok ⟨s.tenants ++ [t]⟩
  stored : ∀ old ∈ s.tenants, ∃ front back, s.tenants = front ++ old :: back ∧
    (∀ t, t.id = old.id → s.perform (.update t) = .ok ⟨front ++ t :: back⟩) ∧
      s.perform (.delete old.id) = .ok ⟨front ++ back⟩
  anew : ∀ t between, (∀ o ∈ between, o.subject ≠ t.id) →
    (s.run (.delete t.id :: between ++ [.create t])).tenants =
      (s.run between).tenants.filter (·.id ≠ t.id) ++ [t]

/-- A deletion leaves the tenant out, whether it was there or not. -/
theorem after_delete (s : TenantStore) (x : TenantId) : s.after (.delete x) = s.without x := by
  rw [after_eq]
  split
  · rfl
  · next hfree => exact (without_of_notMem hfree).symm

theorem after_create_of_notMem (ht : t.id ∉ s.ids) : s.after (.create t) = s.add t := by
  rw [after_eq]
  exact if_pos ht

/-- A tenant that is created after it was deleted comes behind what the changes in between have made
of the others. -/
theorem run_delete_create (s : TenantStore) {t : Tenant}
    (hothers : ∀ o ∈ between, o.subject ≠ t.id) :
    s.run (.delete t.id :: between ++ [.create t]) = ((s.run between).without t.id).add t := by
  have hbetween : between.filter (·.subject ≠ t.id) = between := by
    rw [List.filter_eq_self]
    intro o ho
    simpa using hothers o ho
  have hleft : (s.after (.delete t.id)).run between = (s.run between).without t.id := by
    rw [after_delete, without_run, hbetween]
  calc s.run (.delete t.id :: between ++ [.create t])
      = ((s.after (.delete t.id)).run between).after (.create t) := by
        rw [run, List.foldl_append]
        rfl
    _ = ((s.run between).without t.id).add t := by
        rw [hleft, after_create_of_notMem (notMem_ids_without _ _)]

theorem replace_of_split (hsplit : s.tenants = front ++ old :: back) (hid : t.id = old.id)
    (hfront : ∀ u ∈ front, u.id ≠ old.id) (hback : ∀ u ∈ back, u.id ≠ old.id) :
    s.replace t = ⟨front ++ t :: back⟩ := by
  rw [← hid] at hfront hback
  rw [replace, hsplit, List.map_append, List.map_cons, map_replace_eq_self hfront,
    map_replace_eq_self hback, if_pos hid.symm]

theorem without_of_split (hsplit : s.tenants = front ++ old :: back)
    (hfront : ∀ u ∈ front, u.id ≠ old.id) (hback : ∀ u ∈ back, u.id ≠ old.id) :
    s.without old.id = ⟨front ++ back⟩ := by
  rw [without, hsplit, List.filter_append, List.filter_cons_of_neg (by simp),
    filter_ne_eq_self hfront, filter_ne_eq_self hback]

theorem Keyed.keepsPlaces (h : s.Keyed) : s.KeepsPlaces where
  create t hfree := perform_of_admits (get?_eq_none_iff.1 hfree)
  stored old hold := by
    obtain ⟨front, back, hsplit, hfront, hback⟩ := h.exists_split hold
    have hmem : old.id ∈ s.ids := List.mem_map_of_mem hold
    refine ⟨front, back, hsplit, fun t hid => ?_, ?_⟩
    · have hadmits : s.Admits (.update t) := by
        show t.id ∈ s.ids
        rwa [hid]
      rw [perform_of_admits hadmits, changed, replace_of_split hsplit hid hfront hback]
    · have hadmits : s.Admits (.delete old.id) := hmem
      rw [perform_of_admits hadmits, changed, without_of_split hsplit hfront hback]
  anew t between hothers := by
    rw [run_delete_create s hothers]
    rfl

/-! ## What is shown -/

/-- **One list.** No two tenants have one identifier, what is found under an identifier is the
listed tenant that has it, and the tenants that name an identifier as the one above them are those
of the list, in its order. -/
structure Coherent (s : TenantStore) : Prop where
  nodup_ids : s.ids.Nodup
  get?_eq_some_iff : ∀ id t, s.get? id = some t ↔ t ∈ s.tenants ∧ t.id = id
  get?_eq_none_iff : ∀ id, s.get? id = none ↔ ∀ t ∈ s.tenants, t.id ≠ id
  children_sublist : ∀ id, (s.children id).Sublist s.tenants
  mem_children_iff : ∀ id t, t ∈ s.children id ↔ t ∈ s.tenants ∧ t.parentId = some id

theorem Keyed.coherent (h : s.Keyed) : s.Coherent where
  nodup_ids := h
  get?_eq_some_iff _ _ := h.get?_eq_some_iff
  get?_eq_none_iff id := by simp [get?]
  children_sublist _ := List.filter_sublist
  mem_children_iff id t := by simp [children]

/-- **Agreement.** Two stores show the same of all tenants but the one of an identifier, and refuse
the same changes of the others. -/
structure AgreeApartFrom (s s' : TenantStore) (x : TenantId) : Prop where
  tenants_eq : s.tenants.filter (·.id ≠ x) = s'.tenants.filter (·.id ≠ x)
  get?_eq : ∀ id, id ≠ x → s.get? id = s'.get? id
  children_eq : ∀ id, (s.children id).filter (·.id ≠ x) = (s'.children id).filter (·.id ≠ x)
  refused_iff : ∀ operation, operation.subject ≠ x → ∀ refusal,
    s.perform operation = .error refusal ↔ s'.perform operation = .error refusal

theorem agreeApartFrom_of_without_eq (h : s.without x = s'.without x) : s.AgreeApartFrom s' x where
  tenants_eq := congrArg tenants h
  get?_eq id hne := by
    have hget := congrArg (·.get? id) h
    simpa only [get?_without, if_neg hne] using hget
  children_eq id := by rw [← children_without, ← children_without, h]
  refused_iff operation hne refusal := by
    rw [perform_eq_error_iff, perform_eq_error_iff, ← admits_without_iff hne, h,
      admits_without_iff hne]

/-- **Confinement.** A change is refused when a tenant to be created is there, or one to be updated
or deleted is not, and then it is as good as not made, whatever comes later. Made or not, it matters
only to the tenant of its identifier. -/
structure IsConfined (s : TenantStore) (operation : Operation) (after : List Operation) : Prop where
  refused_iff : ∀ refusal, s.perform operation = .error refusal ↔
    ¬ s.Admits operation ∧ operation.refusal = refusal
  eq_of_refused : ¬ s.Admits operation → s.run (operation :: after) = s.run after
  agreeApartFrom :
    (s.run (operation :: after)).AgreeApartFrom (s.run after) operation.subject

theorem isConfined (s : TenantStore) (operation : Operation) (after : List Operation) :
    s.IsConfined operation after where
  refused_iff _ := perform_eq_error_iff
  eq_of_refused hrefused := by
    show (s.after operation).run after = s.run after
    rw [after_eq, if_neg hrefused]
  agreeApartFrom := by
    apply agreeApartFrom_of_without_eq
    rw [without_run, without_run, List.filter_cons_of_neg (by simp)]

/-! ## The first list -/

theorem get?_replace (s : TenantStore) (t : Tenant) (id : TenantId) :
    (s.replace t).get? id = (s.get? id).map fun u => if u.id = t.id then t else u := by
  rw [get?, replace, List.find?_map]
  simp only [Function.comp_def, id_replaced]
  rfl

/-- A tenant that is set is found, and all others where they were. -/
theorem get?_put (s : TenantStore) (t : Tenant) (id : TenantId) :
    (s.put t).get? id = if id = t.id then some t else s.get? id := by
  unfold put
  split
  · next hstored =>
    rw [get?_replace]
    obtain ⟨old, hold⟩ := Option.isSome_iff_exists.1 hstored
    split
    · next hid => simp [hid, hold, id_of_get? hold]
    · next hid =>
      cases hget : s.get? id with
      | none => rfl
      | some u => simp [id_of_get? hget, hid]
  · next hfree => exact get?_add (by simpa using hfree) id

/-- A tenant that is set comes to the end when it was not there. -/
theorem ids_put (s : TenantStore) (t : Tenant) :
    (s.put t).ids = if t.id ∈ s.ids then s.ids else s.ids ++ [t.id] := by
  unfold put
  by_cases hstored : t.id ∈ s.ids
  · rw [if_pos (isSome_get?_iff.2 hstored), if_pos hstored, ids_replace]
  · rw [if_neg (mt isSome_get?_iff.1 hstored), if_neg hstored]
    exact s.ids_add t

theorem eraseDups_concat (ids : List TenantId) (id : TenantId) :
    (ids ++ [id]).eraseDups = if id ∈ ids then ids.eraseDups else ids.eraseDups ++ [id] := by
  rw [List.eraseDups_append]
  by_cases hmem : id ∈ ids
  · simp [List.removeAll, hmem]
  · simp [List.removeAll, List.eraseDups_cons, hmem]

theorem ofList_concat (tenants : List Tenant) (t : Tenant) :
    ofList (tenants ++ [t]) = (ofList tenants).put t := by
  rw [ofList, List.foldl_append]
  rfl

/-- Of the listed tenants of one identifier the last one is stored. -/
theorem get?_ofList (tenants : List Tenant) (id : TenantId) :
    (ofList tenants).get? id = (tenants.filter (·.id = id)).getLast? := by
  induction tenants using List.reverseRecOn with
  | nil => rfl
  | append_singleton tenants t ih =>
      rw [ofList_concat, get?_put, ih, List.filter_append]
      by_cases hid : t.id = id
      · rw [if_pos hid.symm, List.filter_cons_of_pos (by simpa using hid), List.filter_nil,
          List.getLast?_concat]
      · rw [if_neg (Ne.symm hid), List.filter_cons_of_neg (by simpa using hid), List.filter_nil,
          List.append_nil]

/-- The identifiers are stored in the order in which they come first. -/
theorem ids_ofList (tenants : List Tenant) :
    (ofList tenants).ids = (tenants.map (·.id)).eraseDups := by
  induction tenants using List.reverseRecOn with
  | nil => rfl
  | append_singleton tenants t ih =>
      rw [ofList_concat, ids_put, ih, List.map_append, List.map_singleton, eraseDups_concat]
      exact if_congr List.mem_eraseDups rfl rfl

/-! ## Whole runs -/

/-- **An ordered map.** What is made of a list of tenants holds the last one of each identifier, in
the order in which the identifiers come first. After any changes the list has one tenant for each
identifier and all that is shown comes from it; changes keep the places of the tenants, but for the
one that is deleted and created anew; and each change, refused or not, is confined to the tenant
that it is about. -/
theorem run_orderedMap (initial : List Tenant) :
    ((∀ id, (ofList initial).get? id = (initial.filter (·.id = id)).getLast?) ∧
      (ofList initial).ids = (initial.map (·.id)).eraseDups) ∧
    ∀ operations,
      let s := (ofList initial).run operations
      s.Coherent ∧ s.KeepsPlaces ∧ ∀ operation after, s.IsConfined operation after := by
  refine ⟨⟨get?_ofList initial, ids_ofList initial⟩, ?_⟩
  intro operations s
  have hkeyed : s.Keyed := (keyed_ofList initial).run operations
  exact ⟨hkeyed.coherent, hkeyed.keepsPlaces, s.isConfined⟩

/-- A list with two tenants of one identifier, of which the later one takes the place of the earlier
one, and a tenant that is created behind them. An update stays in its place, and after a deletion a
tenant comes to the end, behind what was updated in between. To create what is there is as good as
nothing, and deleting a tenant does not matter to the one below it. -/
theorem run_orderedMap_anew :
    let acme : TenantId := .root ⟨"acme", by decide, by decide⟩
    let eng : TenantId := acme.child ⟨"eng", by decide, by decide⟩
    let ops : TenantId := acme.child ⟨"ops", by decide, by decide⟩
    let tenant (id : TenantId) (name : String) : Tenant := .fresh id name id.parent? none ⟨0⟩
    let initial := [tenant acme "a", tenant eng "b", tenant acme "c"]
    let s := (ofList initial).run [.create (tenant ops "d"), .update (tenant eng "e")]
    (ofList initial).get? acme = some (tenant acme "c") ∧
      s.tenants = [tenant acme "c", tenant eng "e", tenant ops "d"] ∧
      (∀ u, s.get? eng = some u ↔ u ∈ s.tenants ∧ u.id = eng) ∧
      (s.run [.delete acme, .update (tenant eng "f"), .create (tenant acme "g")]).tenants =
        [tenant eng "f", tenant ops "d", tenant acme "g"] ∧
      s.perform (.create (tenant eng "h")) = .error (.tenantExists eng) ∧
      s.run [.create (tenant eng "h"), .delete ops] = s.run [.delete ops] ∧
      (s.run [.delete acme, .update (tenant eng "i")]).get? eng = some (tenant eng "i") := by
  intro acme eng ops tenant initial s
  obtain ⟨⟨hfirst, -⟩, hrun⟩ := run_orderedMap initial
  obtain ⟨hcoherent, hplaces, hconfined⟩ :=
    hrun [.create (tenant ops "d"), .update (tenant eng "e")]
  have hanew := hplaces.anew (tenant acme "g") [.update (tenant eng "f")] (by decide +kernel)
  have hstored : ¬ s.Admits (.create (tenant eng "h")) := by decide +kernel
  have hrefused := hconfined (.create (tenant eng "h")) [.delete ops]
  have hdeleted := (hconfined (.delete acme) [.update (tenant eng "i")]).agreeApartFrom
  refine ⟨(hfirst acme).trans (by decide +kernel), by decide +kernel,
    hcoherent.get?_eq_some_iff eng, hanew.trans (by decide +kernel),
    (hrefused.refused_iff _).2 ⟨hstored, rfl⟩,
    hrefused.eq_of_refused hstored, ?_⟩
  exact (hdeleted.get?_eq eng (by decide +kernel)).trans (by decide +kernel)

end TenantIam.TenantStore
