/-
EsphomeApi.Model.EntityStoreTheorems — when the tag of every stored entity
fits the messages stored with it, and which descriptions can be read back.

`ingest` recognises a message by its name and base class; over the classes of
`api.proto` this comes to three cases (`ingest_info`, `ingest_state`,
`ingest_other`), and everything else is derived from those. The list branch
overwrites the tag and keeps the old state; the state branch overwrites the
state and keeps the old tag. So a store stays coherent exactly as long as no
message meets the other half of a different domain under its key.
-/
import EsphomeApi.Library.GuardedRun
import EsphomeApi.Model.EntityStore

namespace EsphomeApi

open Library

namespace EntityStore

/-! ## The slots -/

@[simp] theorem find_empty (key : UInt32) : ({} : EntityStore).find key = none :=
  AList.lookup_empty key

@[simp] theorem find_put_self (store : EntityStore) (key : UInt32) (e : StoredEntity) :
    (store.put key e).find key = some e := AList.lookup_insert store.entities

theorem find_put_ne (store : EntityStore) {key key' : UInt32} (e : StoredEntity)
    (h : key' ≠ key) : (store.put key e).find key' = store.find key' :=
  AList.lookup_insert_ne h

/-! ## `ingest`, case by case -/

theorem infoClass_recognised : ∀ t ∈ entityDomains,
    isList (infoClass t).name = true ∧
      entityTypeFromToken (((infoClass t).name.drop 12).take ((infoClass t).name.length - 12 - 8)) = t := by
  decide

theorem stateClass_recognised : ∀ t ∈ stateDomains,
    isList (stateClass t).name = false ∧ isState (stateClass t).name = true ∧
      (stateClass t).base = .stateResponseBase ∧
      entityTypeFromToken (if isEvent (stateClass t).name then lit "Event"
        else (stateClass t).name.take ((stateClass t).name.length - 13)) = t := by
  decide

theorem ingest_info (store : EntityStore) {msg : DecodedMessage} {t : EntityType}
    (ht : t ∈ entityDomains) (hcls : msg.cls = infoClass t) :
    store.ingest msg = ⟨true, none, store.put msg.key (describe t msg (store.slot msg.key))⟩ := by
  obtain ⟨hlist, htoken⟩ := infoClass_recognised t ht
  have hbase : (infoClass t).base = .infoResponseBase := rfl
  simp only [ingest, hcls, hlist, hbase, htoken, ne_eq, not_true_eq_false, if_false, if_true]

theorem ingest_state (store : EntityStore) {msg : DecodedMessage} {t : EntityType}
    (ht : t ∈ stateDomains) (hcls : msg.cls = stateClass t) :
    store.ingest msg =
      ⟨true, some (t, msg.key), store.put msg.key (observe t msg (store.slot msg.key))⟩ := by
  obtain ⟨hlist, hstate, hbase, htoken⟩ := stateClass_recognised t ht
  simp only [ingest, hcls, hlist, hstate, hbase, htoken, ne_eq, not_true_eq_false, if_false,
    if_true, Bool.false_eq_true]

/-- Every other message leaves the store alone. -/
theorem ingest_other (store : EntityStore) {msg : DecodedMessage}
    (hinfo : ∀ t ∈ entityDomains, msg.cls ≠ infoClass t)
    (hstate : ∀ t ∈ stateDomains, msg.cls ≠ stateClass t) :
    store.ingest msg = ⟨false, none, store⟩ := by
  have hcamera : msg.cls.base = .protoMessage ∨ msg.cls = cameraImageResponse := by
    rcases msg.known with h | h
    · exact Or.inl h
    · rw [entityClasses, List.mem_append, List.mem_append, List.mem_map, List.mem_map,
        List.mem_singleton] at h
      rcases h with (⟨t, ht, h⟩ | ⟨t, ht, h⟩) | h
      · exact absurd h.symm (hinfo t ht)
      · exact absurd h.symm (hstate t ht)
      · exact Or.inr h
  rcases hcamera with hbase | hcls
  · simp only [ingest, hbase, ne_eq, reduceCtorEq, not_false_eq_true, if_true, ite_self]
  · have hname : isList cameraImageResponse.name = false ∧
        isState cameraImageResponse.name = false := by decide
    simp only [ingest, hcls, hname.1, hname.2, Bool.false_eq_true, if_false]

end EntityStore

/-! ## Coherence -/

/-- The tag is `T`, so `info` holds only a `ListEntities<T>Response` and
`state` only the state message of domain `T`. -/
structure StoredEntity.Coherent (e : StoredEntity) : Prop where
  info : ∀ msg, e.info = some msg → msg.cls = infoClass e.type
  state : ∀ msg, e.state = some msg → msg.cls = stateClass e.type

theorem StoredEntity.coherent_default : StoredEntity.Coherent {} :=
  ⟨fun _ h => (nomatch h), fun _ h => (nomatch h)⟩

/-- An untagged coherent slot holds no description: no class of `api.proto`
is called `ListEntitiesUnknownResponse`. -/
theorem StoredEntity.Coherent.info_of_unknown {e : StoredEntity} (he : e.Coherent)
    (htype : e.type = .unknown) : e.info = none := by
  cases hinfo : e.info with
  | none => rfl
  | some msg =>
      have hcls := he.info msg hinfo
      rw [htype] at hcls
      exact absurd (hcls ▸ msg.known) infoClass_unknown_not_known

namespace EntityStore

def Coherent (store : EntityStore) : Prop :=
  ∀ key e, store.find key = some e → e.Coherent

/-- No typed accessor casts a message to a class that it is not of. -/
def CastsDefined (store : EntityStore) : Prop :=
  ∀ key, (∀ a ∈ infoAccessors, a store key ≠ .undefinedCast) ∧
    ∀ a ∈ stateAccessors, a store key ≠ .undefinedCast

/-- The calls that change a store. -/
inductive Call where
  | ingest (msg : DecodedMessage)
  | clear

def step (store : EntityStore) : Call → EntityStore
  | .ingest msg => (store.ingest msg).store
  | .clear => store.clear

/-- The message does not meet a slot that another domain has filled: a
description of domain `T` finds no state, or one of domain `T`; a state of
domain `T` finds the slot untagged or tagged `T`. -/
def NoClash (store : EntityStore) : Call → Prop
  | .clear => True
  | .ingest msg =>
      (∀ t ∈ entityDomains, msg.cls = infoClass t →
        ∀ old, (store.slot msg.key).state = some old → old.cls = stateClass t) ∧
      ∀ t ∈ stateDomains, msg.cls = stateClass t →
        (store.slot msg.key).type = .unknown ∨ (store.slot msg.key).type = t

theorem coherent_empty : ({} : EntityStore).Coherent := by
  intro key e h
  rw [find_empty] at h
  exact nomatch h

theorem Coherent.slot {store : EntityStore} (hs : store.Coherent) (key : UInt32) :
    (store.slot key).Coherent := by
  unfold EntityStore.slot
  cases h : store.find key with
  | none => exact StoredEntity.coherent_default
  | some e => exact hs key e h

theorem Coherent.put_iff {store : EntityStore} (hs : store.Coherent) (key : UInt32)
    (e : StoredEntity) : (store.put key e).Coherent ↔ e.Coherent := by
  constructor
  · intro h
    exact h key e (find_put_self store key e)
  · intro he key' e' h'
    by_cases hkey : key' = key
    · subst hkey
      rw [find_put_self, Option.some_inj] at h'
      exact h' ▸ he
    · rw [find_put_ne store e hkey] at h'
      exact hs key' e' h'

theorem coherent_describe {t : EntityType} {msg : DecodedMessage} {e : StoredEntity}
    (hcls : msg.cls = infoClass t) :
    (describe t msg e).Coherent ↔ ∀ old, e.state = some old → old.cls = stateClass t := by
  constructor
  · intro h
    exact h.state
  · intro h
    refine ⟨?_, h⟩
    intro msg' h'
    rw [describe, Option.some_inj] at h'
    exact h' ▸ hcls

theorem coherent_observe {t : EntityType} {msg : DecodedMessage} {e : StoredEntity}
    (he : e.Coherent) (hcls : msg.cls = stateClass t) :
    (observe t msg e).Coherent ↔ e.type = .unknown ∨ e.type = t := by
  by_cases hunknown : e.type = .unknown
  · -- the slot takes the message's domain, and has no description to contradict it
    refine iff_of_true ⟨?_, ?_⟩ (Or.inl hunknown)
    · intro msg' h'
      rw [observe, he.info_of_unknown hunknown] at h'
      exact nomatch h'
    · intro msg' h'
      rw [observe, Option.some_inj] at h'
      simp only [observe, hunknown, if_true]
      exact h' ▸ hcls
  · have htype : (observe t msg e).type = e.type := if_neg hunknown
    constructor
    · intro h
      have hmsg := h.state msg rfl
      rw [htype, hcls] at hmsg
      exact Or.inr (stateClass_injective hmsg).symm
    · intro h
      have ht : e.type = t := h.resolve_left hunknown
      refine ⟨?_, ?_⟩
      · intro msg' h'
        rw [htype]
        exact he.info msg' h'
      · intro msg' h'
        rw [observe, Option.some_inj] at h'
        rw [htype, ht]
        exact h' ▸ hcls

/-- From a coherent store, a call leaves a coherent store exactly when it
does not clash. -/
theorem coherent_step {store : EntityStore} (call : Call) (hs : store.Coherent) :
    (store.step call).Coherent ↔ store.NoClash call := by
  cases call with
  | clear => exact iff_of_true coherent_empty trivial
  | ingest msg =>
      simp only [step, NoClash]
      by_cases hinfo : ∃ t ∈ entityDomains, msg.cls = infoClass t
      · obtain ⟨t, ht, hcls⟩ := hinfo
        rw [ingest_info store ht hcls, hs.put_iff, coherent_describe hcls]
        constructor
        · intro h
          refine ⟨?_, ?_⟩
          · intro u _ hu
            rw [hcls] at hu
            exact infoClass_injective hu ▸ h
          · intro u _ hu
            exact absurd (hcls.symm.trans hu) (infoClass_ne_stateClass t u)
        · intro h
          exact h.1 t ht hcls
      · by_cases hstate : ∃ t ∈ stateDomains, msg.cls = stateClass t
        · obtain ⟨t, ht, hcls⟩ := hstate
          rw [ingest_state store ht hcls, hs.put_iff, coherent_observe (hs.slot msg.key) hcls]
          constructor
          · intro h
            refine ⟨fun u hu hu' => absurd ⟨u, hu, hu'⟩ hinfo, ?_⟩
            intro u _ hu
            rw [hcls] at hu
            exact stateClass_injective hu ▸ h
          · intro h
            exact h.2 t ht hcls
        · rw [ingest_other store (fun t ht h => hinfo ⟨t, ht, h⟩)
            fun t ht h => hstate ⟨t, ht, h⟩]
          exact iff_of_true hs ⟨fun t ht h => absurd ⟨t, ht, h⟩ hinfo,
            fun t ht h => absurd ⟨t, ht, h⟩ hstate⟩

/-! ## The casts of the typed accessors -/

theorem accessor_ne_undefinedCast {α : Type} {type : EntityType}
    {part : StoredEntity → Option DecodedMessage} {cls : MessageClass}
    {parse : DecodedMessage → α} {store : EntityStore} {key : UInt32}
    (h : ∀ e msg, store.find key = some e → e.type = type → part e = some msg → msg.cls = cls) :
    accessor type part cls parse store key ≠ .undefinedCast := by
  unfold accessor
  cases hfind : store.find key with
  | none => exact nofun
  | some e =>
      by_cases htype : e.type = type
      · cases hpart : part e with
        | none => simp only [htype, hpart, ne_eq, not_true_eq_false, if_false]; exact nofun
        | some msg =>
            simp only [htype, hpart, ne_eq, not_true_eq_false, if_false, parseAs,
              h e msg hfind htype hpart, if_true]
            exact nofun
      · simp only [ne_eq, htype, not_false_eq_true, if_true]; exact nofun

/-- The check of the tag is enough in a coherent store. -/
theorem Coherent.castsDefined {store : EntityStore} (hs : store.Coherent) :
    store.CastsDefined := by
  intro key
  rw [infoAccessors_eq, stateAccessors_eq]
  refine ⟨?_, ?_⟩ <;> intro a ha <;> obtain ⟨t, -, rfl⟩ := List.mem_map.mp ha
  · refine accessor_ne_undefinedCast ?_
    intro e msg hfind htype hmsg
    exact htype ▸ (hs key e hfind).info msg hmsg
  · refine accessor_ne_undefinedCast ?_
    intro e msg hfind htype hmsg
    exact htype ▸ (hs key e hfind).state msg hmsg

/-- Along a run from the empty store, every entity is coherent and every cast
of a typed accessor is to the message's own class, exactly as long as no call
clashes. -/
theorem coherent_iff_noClash (calls : List Call) :
    (∀ store ∈ states step {} calls, store.Coherent ∧ store.CastsDefined) ↔
      Guarded step NoClash {} calls := by
  rw [← states_iff_guarded (fun store call => coherent_step call) coherent_empty calls]
  refine forall₂_congr fun store _ => ?_
  exact ⟨And.left, fun hs => ⟨hs, hs.castsDefined⟩⟩

/-- A switch is listed under key 1, then a light reports its state under the
same key. -/
theorem coherent_light_state_in_switch_slot :
    let calls : List Call :=
      [.ingest { cls := infoClass .switch, key := 1 }, .ingest { cls := stateClass .light, key := 1 }]
    ¬ (run step {} calls).Coherent ∧ switchState (run step {} calls) 1 = .undefinedCast := by
  refine ⟨?_, by decide⟩
  intro h
  have hcls := (h 1 _ rfl).state _ rfl
  exact absurd hcls (by decide)

/-! ## Reading descriptions back -/

/-- Ingesting a list of messages, in its order. -/
def ingestAll (store : EntityStore) (msgs : List DecodedMessage) : EntityStore :=
  run step store (msgs.map .ingest)

/-- A list of descriptions, no two of them for one entity of one domain and
sub-device. -/
structure IsListing (msgs : List DecodedMessage) : Prop where
  described : ∀ msg ∈ msgs, ∃ t ∈ entityDomains, msg.cls = infoClass t
  distinct : msgs.Pairwise fun a b =>
    (a.cls, a.key, a.deviceId) ≠ (b.cls, b.key, b.deviceId)

/-- Reading `msg` back through the `info` accessor of domain `t`: a description
with its `object_id`, name and `device_id`. -/
def ReadsBack (store : EntityStore) (t : EntityType) (msg : DecodedMessage) : Prop :=
  ∃ info, infoAccessor t store msg.key = .value info ∧
    info.objectId = msg.objectIdOrDerived ∧ info.name = msg.name ∧ info.deviceId = msg.deviceId

theorem ingestAll_append (store : EntityStore) (msgs msgs' : List DecodedMessage) :
    store.ingestAll (msgs ++ msgs') = (store.ingestAll msgs).ingestAll msgs' := by
  rw [ingestAll, List.map_append, run_append]
  rfl

/-- After a description, the slot of its key holds it under its own tag. -/
theorem find_ingest_info (store : EntityStore) {msg : DecodedMessage} {t : EntityType}
    (ht : t ∈ entityDomains) (hcls : msg.cls = infoClass t) :
    ∃ e, (store.step (.ingest msg)).find msg.key = some e ∧ e.type = t ∧ e.info = some msg := by
  rw [step, ingest_info store ht hcls]
  exact ⟨_, find_put_self store msg.key _, rfl, rfl⟩

/-- Descriptions under other keys leave a slot alone. -/
theorem find_ingestAll_of_ne {key : UInt32} : ∀ {msgs : List DecodedMessage} {store : EntityStore},
    (∀ msg ∈ msgs, ∃ t ∈ entityDomains, msg.cls = infoClass t) →
    (∀ msg ∈ msgs, msg.key ≠ key) → (store.ingestAll msgs).find key = store.find key
  | [], _, _, _ => rfl
  | msg :: msgs, store, hdescribed, hkeys => by
      obtain ⟨t, ht, hcls⟩ := hdescribed msg (List.mem_cons_self ..)
      have hstep : (store.step (.ingest msg)).find key = store.find key := by
        rw [step, ingest_info store ht hcls]
        exact find_put_ne store _ (hkeys msg (List.mem_cons_self ..)).symm
      rw [← hstep]
      exact find_ingestAll_of_ne (fun m hm => hdescribed m (List.mem_cons_of_mem _ hm))
        fun m hm => hkeys m (List.mem_cons_of_mem _ hm)

/-- The slot of a key holds the last description sent under it. -/
theorem find_ingestAll_last (store : EntityStore) (pre post : List DecodedMessage)
    {msg : DecodedMessage} {t : EntityType} (ht : t ∈ entityDomains) (hcls : msg.cls = infoClass t)
    (hpost : ∀ m ∈ post, ∃ u ∈ entityDomains, m.cls = infoClass u)
    (hkeys : ∀ m ∈ post, m.key ≠ msg.key) :
    ∃ e, (store.ingestAll (pre ++ msg :: post)).find msg.key = some e ∧ e.type = t ∧
      e.info = some msg := by
  obtain ⟨e, hfind, htype, hinfo⟩ := find_ingest_info (store.ingestAll pre) ht hcls
  refine ⟨e, ?_, htype, hinfo⟩
  rw [ingestAll_append]
  exact (find_ingestAll_of_ne hpost hkeys).trans hfind

/-- The last message of a list that meets a test. -/
theorem exists_last {α : Type} (p : α → Prop) : ∀ {xs : List α}, (∃ x ∈ xs, p x) →
    ∃ pre x post, xs = pre ++ x :: post ∧ p x ∧ ∀ y ∈ post, ¬ p y
  | [], h => by
      obtain ⟨x, hx, -⟩ := h
      exact nomatch hx
  | x :: xs, h => by
      by_cases hlater : ∃ y ∈ xs, p y
      · obtain ⟨pre, y, post, rfl, hy, hpost⟩ := exists_last p hlater
        exact ⟨x :: pre, y, post, rfl, hy, hpost⟩
      · obtain ⟨y, hy, hpy⟩ := h
        rcases List.mem_cons.mp hy with rfl | hy
        · exact ⟨[], y, xs, rfl, hpy, fun z hz hpz => hlater ⟨z, hz, hpz⟩⟩
        · exact absurd ⟨y, hy, hpy⟩ hlater

theorem infoAccessor_of_find {store : EntityStore} {key : UInt32} {e : StoredEntity}
    {msg : DecodedMessage} {t : EntityType} (hfind : store.find key = some e)
    (htype : e.type = t) (hinfo : e.info = some msg) :
    infoAccessor t store key = parseAs (infoClass t) parseInfo msg := by
  rw [infoAccessor, accessor, hfind]
  simp only [htype, hinfo, ne_eq, not_true_eq_false, if_false]

/-- A description of a listing can be read back, after the whole listing is
ingested into an empty store, exactly if no later one has the same key. -/
theorem readsBack_iff {msgs : List DecodedMessage} (hlist : IsListing msgs)
    (pre : List DecodedMessage) {post : List DecodedMessage} {msg : DecodedMessage}
    {t : EntityType} (hsplit : msgs = pre ++ msg :: post)
    (hcls : msg.cls = infoClass t) :
    ReadsBack (ingestAll {} msgs) t msg ↔ ∀ later ∈ post, later.key ≠ msg.key := by
  subst hsplit
  have hdescribed : ∀ m ∈ msg :: post, ∃ u ∈ entityDomains, m.cls = infoClass u := by
    intro m hm
    exact hlist.described m (List.mem_append_right _ hm)
  constructor
  · intro hread
    by_contra hlater
    simp only [not_forall, not_not, exists_prop] at hlater
    -- the last description under the key is another one, and holds the slot
    obtain ⟨mid, last, rest, rfl, hkey, hrest⟩ :=
      exists_last (fun m : DecodedMessage => m.key = msg.key) hlater
    obtain ⟨u, hu, hlastcls⟩ := hdescribed last (by simp)
    obtain ⟨e, hfind, htype, hinfo⟩ :=
      find_ingestAll_last {} (pre ++ msg :: mid) rest hu hlastcls
        (fun m hm => hdescribed m (by simp [hm])) (by simpa only [hkey] using hrest)
    rw [List.append_assoc, List.cons_append, hkey] at hfind
    obtain ⟨info, hvalue, -, -, hdevice⟩ := hread
    by_cases hdomain : u = t
    · subst hdomain
      rw [infoAccessor_of_find hfind htype hinfo, parseAs, if_pos hlastcls,
        Accessed.value.injEq] at hvalue
      have hdistinct := (List.pairwise_append.mp hlist.distinct).2.1
      have hne := (List.pairwise_cons.mp hdistinct).1 last (by simp)
      refine hne ?_
      rw [hcls, hlastcls, hkey, ← hdevice, ← hvalue]
      rfl
    · rw [infoAccessor, accessor, hfind] at hvalue
      simp only [htype, ne_eq, hdomain, not_false_eq_true, if_true] at hvalue
      exact nomatch hvalue
  · intro hkeys
    obtain ⟨u, hu, hucls⟩ := hdescribed msg (List.mem_cons_self ..)
    rw [hcls] at hucls
    obtain rfl := infoClass_injective hucls
    obtain ⟨e, hfind, htype, hinfo⟩ := find_ingestAll_last {} pre post hu hcls
      (fun m hm => hdescribed m (List.mem_cons_of_mem _ hm)) hkeys
    refine ⟨parseInfo msg, ?_, rfl, rfl, rfl⟩
    rw [infoAccessor_of_find hfind htype hinfo, parseAs, if_pos hcls]

/-- A switch and a light that are listed under key 1. -/
def collidingListing : List DecodedMessage :=
  [{ cls := infoClass .switch, key := 1, name := lit "a" },
    { cls := infoClass .light, key := 1, name := lit "b" }]

theorem isListing_colliding : IsListing collidingListing where
  described := by
    intro msg hmsg
    rcases List.mem_cons.mp hmsg with rfl | hmsg
    · exact ⟨.switch, by decide, rfl⟩
    · obtain rfl := List.mem_singleton.mp hmsg
      exact ⟨.light, by decide, rfl⟩
  distinct := by decide

theorem not_all_read_back :
    IsListing collidingListing ∧
      ¬ ∀ msg ∈ collidingListing, ∀ t, msg.cls = infoClass t →
        ReadsBack (ingestAll {} collidingListing) t msg := by
  refine ⟨isListing_colliding, ?_⟩
  intro h
  obtain ⟨info, hvalue, -⟩ := h _ (List.mem_cons_self ..) .switch rfl
  have hnull : infoAccessor .switch (ingestAll {} collidingListing) 1 = .nullopt := by decide
  exact nomatch hnull.symm.trans hvalue

theorem readsBack_iff_light :
    ReadsBack (ingestAll {} collidingListing) .light
        { cls := infoClass .light, key := 1, name := lit "b" } ↔
      ∀ later ∈ ([] : List DecodedMessage), later.key ≠ 1 :=
  readsBack_iff isListing_colliding [{ cls := infoClass .switch, key := 1, name := lit "a" }] rfl rfl

end EntityStore

end EsphomeApi
