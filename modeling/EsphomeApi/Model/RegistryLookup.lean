/-
EsphomeApi.Model.RegistryLookup — the two ways to an entity of a domain by its
object id: the accessor of one entity, and the list of the domain.

`collect` filters by domain and leaves the search to the caller.
`find_by_object_id` takes the first entity of ANY domain that the unordered map
comes to, and `one` rejects it if it is of another domain. So the accessor sees
the domain's entity exactly if no other domain's entity of that object id stands
before it, and in every order of the map exactly if there is none.
-/
import EsphomeApi.Model.CommandAddress

namespace EsphomeApi

open EntityRegistry

/-! ## The entities of a store -/

namespace EntityStore

theorem mem_list_iff {store : EntityStore} {e : StoredEntity} :
    e ∈ store.list ↔ ∃ key, store.find key = some e := by
  constructor
  · exact find_of_mem_list
  · rintro ⟨key, hfind⟩
    exact List.mem_map.mpr ⟨⟨key, e⟩, AList.mem_lookup_iff.mp hfind, rfl⟩

/-- The same entities, perhaps in another order of the map. -/
def SameEntities (store store' : EntityStore) : Prop := ∀ key, store'.find key = store.find key

theorem SameEntities.mem_list {store store' : EntityStore} (h : SameEntities store store')
    {e : StoredEntity} : e ∈ store'.list ↔ e ∈ store.list := by
  rw [mem_list_iff, mem_list_iff]
  exact exists_congr fun key => by rw [h key]

/-- The map comes first to what was written last. -/
theorem list_put (store : EntityStore) (key : UInt32) (e : StoredEntity) :
    ∃ rest, (store.put key e).list = e :: rest := ⟨_, rfl⟩

end EntityStore

/-! ## The accessor and the list -/

/-- The accessor returns an entity if and only if the list of the domain has one
with that object id, and then one of those. -/
def LookupAgrees (store : EntityStore) (type : EntityType) (objectId : CString) : Prop :=
  ((byObjectId type store objectId).isSome ↔
    ∃ e ∈ collect type store, e.objectId = objectId) ∧
  ∀ e, byObjectId type store objectId = some e →
    e ∈ collect type store ∧ e.objectId = objectId

/-- An entity of the domain has the object id. -/
def HasEntity (store : EntityStore) (type : EntityType) (objectId : CString) : Prop :=
  ∃ e ∈ store.list, e.type = type ∧ e.objectId = objectId

/-- If an entity of the domain has the object id, the first entity that has it, in
the order of the map, is of the domain. -/
def FirstOfDomain (store : EntityStore) (type : EntityType) (objectId : CString) : Prop :=
  HasEntity store type objectId → ∀ pre e post, store.list = pre ++ e :: post →
    e.objectId = objectId → (∀ x ∈ pre, x.objectId ≠ objectId) → e.type = type

/-- The domain shares the object id with another one. -/
def Shared (store : EntityStore) (type : EntityType) (objectId : CString) : Prop :=
  HasEntity store type objectId ∧ ∃ other, other ≠ type ∧ HasEntity store other objectId

theorem collect_hasEntity {store : EntityStore} {type : EntityType} {objectId : CString} :
    (∃ e ∈ collect type store, e.objectId = objectId) ↔ HasEntity store type objectId := by
  constructor
  · rintro ⟨e, hmem, hid⟩
    obtain ⟨stored, hlist, htype, rfl⟩ := mem_collect hmem
    exact ⟨stored, hlist, htype, hid⟩
  · rintro ⟨stored, hlist, htype, hid⟩
    refine ⟨Entity.ofStored stored, ?_, hid⟩
    exact List.mem_map.mpr ⟨stored, List.mem_filter.mpr ⟨hlist, decide_eq_true htype⟩, rfl⟩

/-- What the accessor returns is always in the list. -/
theorem byObjectId_mem {store : EntityStore} {type : EntityType} {objectId : CString} {e : Entity}
    (h : byObjectId type store objectId = some e) :
    e ∈ collect type store ∧ e.objectId = objectId := by
  obtain ⟨stored, hfind, htype, rfl⟩ := one_eq_some h
  have hid := List.find?_some hfind
  have hlist := List.mem_of_find?_eq_some hfind
  exact ⟨List.mem_map.mpr ⟨stored, List.mem_filter.mpr ⟨hlist, decide_eq_true htype⟩, rfl⟩,
    of_decide_eq_true hid⟩

theorem byKey_mem {store : EntityStore} {type : EntityType} {key : UInt32} {e : Entity}
    (h : byKey type store key = some e) : e ∈ collect type store := by
  obtain ⟨stored, hfind, htype, rfl⟩ := one_eq_some h
  have hlist := EntityStore.mem_list_iff.mpr ⟨key, hfind⟩
  exact List.mem_map.mpr ⟨stored, List.mem_filter.mpr ⟨hlist, decide_eq_true htype⟩, rfl⟩

/-- Each domain's two accessors hand out what its own list has. -/
theorem accessors_listed :
    List.Forall₂ (fun find list => ∀ store key e, find store key = some e → e ∈ list store)
      keyAccessors lists ∧
    List.Forall₂ (fun find list => ∀ store objectId e,
      find store objectId = some e → e ∈ list store ∧ e.objectId = objectId)
      objectIdAccessors lists := by
  rw [keyAccessors_eq, objectIdAccessors_eq, lists_eq]
  simp only [List.forall₂_map_left_iff, List.forall₂_map_right_iff, List.forall₂_same]
  exact ⟨fun _ _ _ _ _ => byKey_mem, fun _ _ _ _ _ => byObjectId_mem⟩

/-- The accessor looks at the first entity with the object id only. -/
theorem byObjectId_of_first {store : EntityStore} (type : EntityType) {objectId : CString}
    {pre post : List StoredEntity} {e : StoredEntity} (hlist : store.list = pre ++ e :: post)
    (hid : e.objectId = objectId) (hpre : ∀ x ∈ pre, x.objectId ≠ objectId) :
    (byObjectId type store objectId).isSome ↔ e.type = type := by
  have hfind : store.findByObjectId objectId = some e := by
    refine List.find?_eq_some_iff_append.mpr ⟨decide_eq_true hid, pre, post, hlist, ?_⟩
    intro x hx
    simpa using hpre x hx
  rw [byObjectId, hfind, one]
  by_cases htype : e.type = type <;> simp [htype]

/-- Some entity with the object id comes first. -/
theorem exists_first {store : EntityStore} {type : EntityType} {objectId : CString}
    (h : HasEntity store type objectId) :
    ∃ pre e post, store.list = pre ++ e :: post ∧ e.objectId = objectId ∧
      ∀ x ∈ pre, x.objectId ≠ objectId := by
  obtain ⟨e, hmem, -, hid⟩ := h
  cases hfind : store.findByObjectId objectId with
  | none =>
      have hall := List.find?_eq_none.mp hfind e hmem
      exact absurd (decide_eq_true hid) hall
  | some first =>
      obtain ⟨hfirst, pre, post, hlist, hpre⟩ := List.find?_eq_some_iff_append.mp hfind
      refine ⟨pre, first, post, hlist, of_decide_eq_true hfirst, ?_⟩
      intro x hx
      simpa using hpre x hx

theorem lookupAgrees_iff {store : EntityStore} {type : EntityType} {objectId : CString} :
    LookupAgrees store type objectId ↔
      ((byObjectId type store objectId).isSome ↔ HasEntity store type objectId) := by
  rw [LookupAgrees, collect_hasEntity]
  exact and_iff_left fun e he => byObjectId_mem he

/-- In a given order of the map. -/
theorem lookupAgrees_iff_first (store : EntityStore) (type : EntityType) (objectId : CString) :
    LookupAgrees store type objectId ↔ FirstOfDomain store type objectId := by
  rw [lookupAgrees_iff]
  constructor
  · intro h hhas pre e post hlist hid hpre
    exact (byObjectId_of_first type hlist hid hpre).mp (h.mpr hhas)
  · intro h
    constructor
    · intro hsome
      obtain ⟨e, he⟩ := Option.isSome_iff_exists.mp hsome
      obtain ⟨hmem, hid⟩ := byObjectId_mem he
      exact collect_hasEntity.mp ⟨e, hmem, hid⟩
    · intro hhas
      obtain ⟨pre, e, post, hlist, hid, hpre⟩ := exists_first hhas
      exact (byObjectId_of_first type hlist hid hpre).mpr (h hhas pre e post hlist hid hpre)

theorem HasEntity.congr {store store' : EntityStore} (h : EntityStore.SameEntities store store')
    {type : EntityType} {objectId : CString} :
    HasEntity store' type objectId ↔ HasEntity store type objectId :=
  exists_congr fun _ => and_congr_left fun _ => h.mem_list

/-- In every order of the map. -/
theorem lookupAgrees_all_iff (store : EntityStore) (type : EntityType) (objectId : CString) :
    (∀ store', EntityStore.SameEntities store store' → LookupAgrees store' type objectId) ↔
      ¬ Shared store type objectId := by
  constructor
  · rintro h ⟨hhas, other, hother, e, hmem, rfl, hid⟩
    -- An order in which the other domain's entity is the first.
    obtain ⟨key, hfind⟩ := EntityStore.mem_list_iff.mp hmem
    have hsame : EntityStore.SameEntities store (store.put key e) := by
      intro key'
      by_cases hkey : key' = key
      · rw [hkey, EntityStore.find_put_self, hfind]
      · exact EntityStore.find_put_ne store e hkey
    have hfirst := (lookupAgrees_iff_first _ type objectId).mp (h _ hsame)
    obtain ⟨rest, hlist⟩ := EntityStore.list_put store key e
    have hnone : ∀ x ∈ ([] : List StoredEntity), x.objectId ≠ objectId :=
      fun _ hx => absurd hx List.not_mem_nil
    exact hother (hfirst ((HasEntity.congr hsame).mpr hhas) [] e rest hlist hid hnone)
  · intro hshared store' hsame
    refine (lookupAgrees_iff_first store' type objectId).mpr ?_
    intro hhas pre e post hlist hid _
    by_contra htype
    have hmem : e ∈ store'.list := by
      rw [hlist]
      exact List.mem_append_right _ (List.mem_cons_self ..)
    exact hshared ⟨(HasEntity.congr hsame).mp hhas, e.type, htype,
      (HasEntity.congr hsame).mp ⟨e, hmem, rfl, hid⟩⟩

/-- The accessor agrees with the list exactly if the first entity of the object
id is of the domain, where the domain has one; and whatever the order of the
map, exactly if the domain does not share the object id with another one. -/
theorem lookup_agrees_iff (store : EntityStore) (type : EntityType) (objectId : CString) :
    (LookupAgrees store type objectId ↔ FirstOfDomain store type objectId) ∧
    ((∀ store', EntityStore.SameEntities store store' → LookupAgrees store' type objectId) ↔
      ¬ Shared store type objectId) :=
  ⟨lookupAgrees_iff_first store type objectId, lookupAgrees_all_iff store type objectId⟩

/-- A switch and a light with one object id. -/
def ceilings : List DecodedMessage :=
  [{ cls := infoClass .switch, key := 1, objectId := lit "ceiling",
     known := infoClass_switch_known },
    { cls := infoClass .light, key := 2, objectId := lit "ceiling",
      known := infoClass_light_known }]

/-- The switch is listed, and the accessor does not find it. In any other order
of the map it misses the switch or the light. -/
theorem lookup_disagrees :
    (∃ e ∈ collect .switch (EntityStore.ingestAll {} ceilings), e.objectId = lit "ceiling") ∧
    byObjectId .switch (EntityStore.ingestAll {} ceilings) (lit "ceiling") = none ∧
    ¬ LookupAgrees (EntityStore.ingestAll {} ceilings) .switch (lit "ceiling") ∧
    ∀ store', EntityStore.SameEntities (EntityStore.ingestAll {} ceilings) store' →
      ¬ (LookupAgrees store' .switch (lit "ceiling") ∧ LookupAgrees store' .light (lit "ceiling")) := by
  have hlisted : ∃ e ∈ collect .switch (EntityStore.ingestAll {} ceilings),
      e.objectId = lit "ceiling" := by decide
  have hnone : byObjectId .switch (EntityStore.ingestAll {} ceilings) (lit "ceiling") = none := by
    decide
  have hlight : ∃ e ∈ collect .light (EntityStore.ingestAll {} ceilings),
      e.objectId = lit "ceiling" := by decide
  refine ⟨hlisted, hnone, ?_, ?_⟩
  · intro h
    have hsome := h.1.mpr hlisted
    rw [hnone] at hsome
    exact nomatch hsome
  · rintro store' hsame ⟨hswitch, hlamp⟩
    have hhas : HasEntity store' .switch (lit "ceiling") :=
      (HasEntity.congr hsame).mpr (collect_hasEntity.mp hlisted)
    have hhas' : HasEntity store' .light (lit "ceiling") :=
      (HasEntity.congr hsame).mpr (collect_hasEntity.mp hlight)
    obtain ⟨pre, e, post, hlist, hid, hpre⟩ := exists_first hhas
    have htype := (lookupAgrees_iff_first _ _ _).mp hswitch hhas pre e post hlist hid hpre
    have htype' := (lookupAgrees_iff_first _ _ _).mp hlamp hhas' pre e post hlist hid hpre
    exact nomatch htype.symm.trans htype'

end EsphomeApi
