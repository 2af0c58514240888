/-
EsphomeApi.Model.StoreInterleaving — what an `EntityStore` holds after any
sequence of messages, when each key is used by one domain.

The list branch of `ingest` overwrites everything but the state, the state
branch everything but the description, and both write `type` and `key`. With
one domain for each key these two agree, so the entity of a key is a function
of two messages, the last description and the last state sent under it
(`find_ingestAll`). How the messages of different kinds, or of different keys,
interleave is not among its arguments.
-/
import Mathlib.Data.List.Induction
import EsphomeApi.Model.EntityStoreTheorems

namespace EsphomeApi

/-! ## Messages by kind and key -/

namespace DecodedMessage

/-- A `ListEntities*Response` that describes an entity. -/
def isDescription (msg : DecodedMessage) : Bool := entityDomains.any fun t => msg.cls = infoClass t

/-- The state message of a domain. -/
def isReport (msg : DecodedMessage) : Bool := stateDomains.any fun t => msg.cls = stateClass t

/-- The domain of a description or a state message. -/
def domain (msg : DecodedMessage) : EntityType :=
  (entityDomains.find? fun t => msg.cls = infoClass t ∨ msg.cls = stateClass t).getD .unknown

/-- A description of the entity of a key. -/
def describes (key : UInt32) (msg : DecodedMessage) : Bool := msg.isDescription && msg.key == key

/-- A state of the entity of a key. -/
def reports (key : UInt32) (msg : DecodedMessage) : Bool := msg.isReport && msg.key == key

theorem isDescription_iff {msg : DecodedMessage} :
    msg.isDescription = true ↔ ∃ t ∈ entityDomains, msg.cls = infoClass t := by
  simp [isDescription]

theorem isReport_iff {msg : DecodedMessage} :
    msg.isReport = true ↔ ∃ t ∈ stateDomains, msg.cls = stateClass t := by
  simp [isReport]

/-- No message is of both kinds. -/
theorem not_isReport {msg : DecodedMessage} (h : msg.isDescription = true) :
    msg.isReport = false := by
  obtain ⟨t, -, ht⟩ := isDescription_iff.mp h
  rw [Bool.eq_false_iff, Ne, isReport_iff]
  rintro ⟨u, -, hu⟩
  exact infoClass_ne_stateClass t u (ht.symm.trans hu)

theorem mem_entityDomains {t : EntityType} (h : t ∈ stateDomains) : t ∈ entityDomains := by
  have hall : ∀ t ∈ stateDomains, t ∈ entityDomains := by decide
  exact hall t h

theorem ne_unknown {t : EntityType} (h : t ∈ entityDomains) : t ≠ .unknown := by
  have hall : ∀ t ∈ entityDomains, t ≠ .unknown := by decide
  exact hall t h

/-- A class belongs to one domain. -/
theorem domain_unique {c : MessageClass} {t u : EntityType}
    (ht : c = infoClass t ∨ c = stateClass t)
    (hu : c = infoClass u ∨ c = stateClass u) : t = u := by
  rcases ht with rfl | rfl <;> rcases hu with hu | hu
  · exact infoClass_injective hu
  · exact absurd hu (infoClass_ne_stateClass t u)
  · exact absurd hu.symm (infoClass_ne_stateClass u t)
  · exact stateClass_injective hu

theorem domain_eq {msg : DecodedMessage} {t : EntityType} (ht : t ∈ entityDomains)
    (hcls : msg.cls = infoClass t ∨ msg.cls = stateClass t) : msg.domain = t := by
  unfold domain
  cases hfind : entityDomains.find? fun t => msg.cls = infoClass t ∨ msg.cls = stateClass t with
  | none =>
      rw [List.find?_eq_none] at hfind
      exact absurd (decide_eq_true hcls) (hfind t ht)
  | some u =>
      have hu := List.find?_some hfind
      rw [decide_eq_true_eq] at hu
      exact domain_unique hu hcls

end DecodedMessage

namespace EntityStore

open DecodedMessage

/-! ## One entity -/

/-- The entity that two messages make: a description, and a state. -/
def entityOf : Option DecodedMessage → Option DecodedMessage → Option StoredEntity
  | none, none => none
  | none, some state =>
      some { type := state.domain, key := state.key, state := some state }
  | some info, state =>
      some {
        type := info.domain
        key := info.key
        objectId := info.objectIdOrDerived
        name := info.name
        info := some info
        state := state }

/-- The last description of the entity of a key. -/
def lastDescription (key : UInt32) (msgs : List DecodedMessage) : Option DecodedMessage :=
  (msgs.filter (describes key)).getLast?

/-- The last state of the entity of a key. -/
def lastReport (key : UInt32) (msgs : List DecodedMessage) : Option DecodedMessage :=
  (msgs.filter (reports key)).getLast?

/-- Each key is used by one domain only. Messages of other classes do not count. -/
def OneDomain (msgs : List DecodedMessage) : Prop :=
  ∀ a ∈ msgs, ∀ b ∈ msgs, (a.isDescription || a.isReport) = true →
    (b.isDescription || b.isReport) = true → a.key = b.key → a.domain = b.domain

instance (msgs : List DecodedMessage) : Decidable (OneDomain msgs) :=
  inferInstanceAs (Decidable (∀ a ∈ msgs, ∀ b ∈ msgs, _ → _ → _ → _))

theorem of_lastDescription {key : UInt32} {msgs : List DecodedMessage} {msg : DecodedMessage}
    (h : lastDescription key msgs = some msg) :
    msg ∈ msgs ∧ msg.isDescription = true ∧ msg.key = key := by
  have hmem := List.mem_filter.mp (List.mem_of_getLast? h)
  simpa [describes] using hmem

theorem of_lastReport {key : UInt32} {msgs : List DecodedMessage} {msg : DecodedMessage}
    (h : lastReport key msgs = some msg) : msg ∈ msgs ∧ msg.isReport = true ∧ msg.key = key := by
  have hmem := List.mem_filter.mp (List.mem_of_getLast? h)
  simpa [reports] using hmem

theorem lastDescription_concat (key : UInt32) (msgs : List DecodedMessage) (msg : DecodedMessage) :
    lastDescription key (msgs ++ [msg]) =
      if msg.describes key then some msg else lastDescription key msgs := by
  unfold lastDescription
  rw [List.filter_append]
  split
  · next h => simp [h]
  · next h => simp [h]

theorem lastReport_concat (key : UInt32) (msgs : List DecodedMessage) (msg : DecodedMessage) :
    lastReport key (msgs ++ [msg]) = if msg.reports key then some msg else lastReport key msgs := by
  unfold lastReport
  rw [List.filter_append]
  split
  · next h => simp [h]
  · next h => simp [h]

/-- The state branch leaves the tag of a described entity alone, and the one
that another state of the same domain has written. -/
theorem observe_entityOf {info state : Option DecodedMessage} {msg : DecodedMessage}
    {t : EntityType} (hmsg : msg.domain = t)
    (hinfo : ∀ d, info = some d → d.domain ≠ .unknown ∧ d.key = msg.key)
    (hstate : ∀ d, state = some d → d.domain = t) :
    some (observe t msg ((entityOf info state).getD {})) = entityOf info (some msg) := by
  cases info with
  | some d =>
      obtain ⟨hdomain, hkey⟩ := hinfo d rfl
      simp [entityOf, observe, hdomain, hkey]
  | none =>
      cases state with
      | none => simp [entityOf, observe, hmsg]
      | some old => simp [entityOf, observe, hmsg, hstate old rfl]

/-- The list branch keeps nothing but the state. -/
theorem describe_entityOf {info state : Option DecodedMessage} {msg : DecodedMessage}
    {t : EntityType} (hmsg : msg.domain = t) :
    some (describe t msg ((entityOf info state).getD {})) = entityOf (some msg) state := by
  cases info <;> cases state <;> simp [entityOf, describe, hmsg]

/-! ## All messages -/

/-- What one message changes for a key: nothing, unless it describes or reports
its entity. -/
theorem find_ingest (store : EntityStore) (msg : DecodedMessage) (key : UInt32) :
    (store.ingest msg).store.find key =
      if msg.describes key then some (describe msg.domain msg (store.slot key))
      else if msg.reports key then some (observe msg.domain msg (store.slot key))
      else store.find key := by
  by_cases hinfo : msg.isDescription = true
  · obtain ⟨t, ht, hcls⟩ := isDescription_iff.mp hinfo
    rw [ingest_info store ht hcls, domain_eq ht (Or.inl hcls)]
    by_cases hkey : msg.key = key
    · subst hkey
      rw [find_put_self, if_pos (by simp [describes, hinfo])]
    · rw [find_put_ne store _ (Ne.symm hkey), if_neg (by simp [describes, hkey]),
        if_neg (by simp [reports, hkey])]
  · by_cases hstate : msg.isReport = true
    · obtain ⟨t, ht, hcls⟩ := isReport_iff.mp hstate
      rw [ingest_state store ht hcls, domain_eq (mem_entityDomains ht) (Or.inr hcls)]
      rw [if_neg (by simp [describes, hinfo])]
      by_cases hkey : msg.key = key
      · subst hkey
        rw [find_put_self, if_pos (by simp [reports, hstate])]
      · rw [find_put_ne store _ (Ne.symm hkey), if_neg (by simp [reports, hkey])]
    · have hother := ingest_other store (fun t ht h => hinfo (isDescription_iff.mpr ⟨t, ht, h⟩))
        fun t ht h => hstate (isReport_iff.mpr ⟨t, ht, h⟩)
      rw [hother, if_neg (by simp [describes, hinfo]), if_neg (by simp [reports, hstate])]

theorem ingestAll_concat (store : EntityStore) (msgs : List DecodedMessage) (msg : DecodedMessage) :
    store.ingestAll (msgs ++ [msg]) = ((store.ingestAll msgs).ingest msg).store :=
  ingestAll_append store msgs [msg]

/-- The entity of a key is made of the last description and the last state
sent under it, whatever else was sent, and in whatever order. -/
theorem find_ingestAll (msgs : List DecodedMessage) : OneDomain msgs → ∀ key,
    (ingestAll {} msgs).find key = entityOf (lastDescription key msgs) (lastReport key msgs) := by
  induction msgs using List.reverseRecOn with
  | nil => exact fun _ key => find_empty key
  | append_singleton msgs msg ih =>
      intro hdomain key
      have hpre : OneDomain msgs := fun a ha b hb =>
        hdomain a (List.mem_append_left _ ha) b (List.mem_append_left _ hb)
      have hmem : msg ∈ msgs ++ [msg] := List.mem_append_right _ (List.mem_singleton.mpr rfl)
      have hslot : (ingestAll {} msgs).slot key =
          (entityOf (lastDescription key msgs) (lastReport key msgs)).getD {} := by
        rw [slot, ih hpre key]
      have hnot : msg.describes key = true → ¬ msg.reports key = true := by
        intro hdescribes hreports
        have hdescription : msg.isDescription = true := (Bool.and_eq_true_iff.mp hdescribes).1
        exact nomatch (not_isReport hdescription).symm.trans (Bool.and_eq_true_iff.mp hreports).1
      rw [ingestAll_concat, find_ingest, lastDescription_concat, lastReport_concat, hslot,
        ih hpre key]
      by_cases hdescribes : msg.describes key = true
      · rw [if_pos hdescribes, if_pos hdescribes, if_neg (hnot hdescribes)]
        exact describe_entityOf rfl
      · rw [if_neg hdescribes, if_neg hdescribes]
        by_cases hreports : msg.reports key = true
        · rw [if_pos hreports, if_pos hreports]
          have hreport : msg.isReport = true ∧ msg.key = key := by simpa [reports] using hreports
          refine observe_entityOf rfl ?_ ?_
          · intro d hd
            obtain ⟨hin, hdescription, hkey⟩ := of_lastDescription hd
            refine ⟨?_, hkey.trans hreport.2.symm⟩
            obtain ⟨t, ht, hcls⟩ := isDescription_iff.mp hdescription
            rw [domain_eq ht (Or.inl hcls)]
            exact ne_unknown ht
          · intro d hd
            obtain ⟨hin, hold, hkey⟩ := of_lastReport hd
            exact hdomain d (List.mem_append_left _ hin) msg hmem (by simp [hold])
              (by simp [hreport.1]) (hkey.trans hreport.2.symm)
        · rw [if_neg hreports, if_neg hreports]

/-! ## Other orders, and a second listing -/

/-- The messages about entities are the same in both lists, key by key and
kind by kind in the same order. -/
def SameByKey (msgs msgs' : List DecodedMessage) : Prop :=
  ∀ key, msgs'.filter (describes key) = msgs.filter (describes key) ∧
    msgs'.filter (reports key) = msgs.filter (reports key)

theorem SameByKey.mem {msgs msgs' : List DecodedMessage} (h : SameByKey msgs msgs')
    {msg : DecodedMessage} (hmem : msg ∈ msgs') (hkind : (msg.isDescription || msg.isReport) = true) :
    msg ∈ msgs := by
  obtain ⟨hdescriptions, hreports⟩ := h msg.key
  rcases Bool.or_eq_true_iff.mp hkind with hdescription | hreport
  · have hin : msg ∈ msgs'.filter (describes msg.key) := by simp [describes, hmem, hdescription]
    rw [hdescriptions] at hin
    exact (List.mem_filter.mp hin).1
  · have hin : msg ∈ msgs'.filter (reports msg.key) := by simp [reports, hmem, hreport]
    rw [hreports] at hin
    exact (List.mem_filter.mp hin).1

theorem SameByKey.oneDomain {msgs msgs' : List DecodedMessage} (h : SameByKey msgs msgs')
    (hdomain : OneDomain msgs) : OneDomain msgs' := fun a ha b hb hkinda hkindb =>
  hdomain a (h.mem ha hkinda) b (h.mem hb hkindb) hkinda hkindb

theorem filter_describes (key : UInt32) (msgs : List DecodedMessage) :
    (msgs.filter isDescription).filter (describes key) = msgs.filter (describes key) := by
  rw [List.filter_filter]
  refine List.filter_congr fun msg _ => ?_
  cases hmsg : msg.isDescription <;> simp [describes, hmsg]

theorem filter_reports (key : UInt32) (msgs : List DecodedMessage) :
    (msgs.filter isDescription).filter (reports key) = [] := by
  rw [List.filter_filter, List.filter_eq_nil_iff]
  intro msg _
  cases hmsg : msg.isDescription with
  | false => simp
  | true => simp [reports, not_isReport hmsg]

theorem lastDescription_again (key : UInt32) (msgs : List DecodedMessage) :
    lastDescription key (msgs ++ msgs.filter isDescription) = lastDescription key msgs := by
  unfold lastDescription
  rw [List.filter_append, filter_describes, List.getLast?_append]
  cases (msgs.filter (describes key)).getLast? <;> rfl

theorem lastReport_again (key : UInt32) (msgs : List DecodedMessage) :
    lastReport key (msgs ++ msgs.filter isDescription) = lastReport key msgs := by
  unfold lastReport
  rw [List.filter_append, filter_reports, List.append_nil]

/-- When each key is used by one domain, the entity of every key is made of the
last description and the last state of that key. So another order of the
messages gives the same entities, as long as those of one kind and one key stay
in order, and all descriptions once more change none of them. -/
theorem ingest_interleaving {msgs : List DecodedMessage} (h : OneDomain msgs) :
    (∀ key, (ingestAll {} msgs).find key =
      entityOf (lastDescription key msgs) (lastReport key msgs)) ∧
    (∀ msgs', SameByKey msgs msgs' → ∀ key,
      (ingestAll {} msgs').find key = (ingestAll {} msgs).find key) ∧
    ∀ key, ((ingestAll {} msgs).ingestAll (msgs.filter isDescription)).find key =
      (ingestAll {} msgs).find key := by
  refine ⟨find_ingestAll msgs h, ?_, ?_⟩
  · intro msgs' hsame key
    rw [find_ingestAll msgs h, find_ingestAll msgs' (hsame.oneDomain h)]
    simp only [lastDescription, lastReport, hsame key]
  · intro key
    have hagain : OneDomain (msgs ++ msgs.filter isDescription) := by
      have hin : ∀ msg ∈ msgs ++ msgs.filter isDescription, msg ∈ msgs := by
        simp only [List.mem_append, List.mem_filter]
        rintro msg (hmem | hmem)
        · exact hmem
        · exact hmem.1
      exact fun a ha b hb => h a (hin a ha) b (hin b hb)
    rw [← ingestAll_append, find_ingestAll _ hagain, find_ingestAll msgs h, lastDescription_again,
      lastReport_again]

/-- A light whose state arrives before its description, and a switch. -/
def earlyState : List DecodedMessage :=
  [{ cls := stateClass .light, key := 1, ownFields := lit "on", known := stateClass_light_known },
    { cls := infoClass .switch, key := 2, name := lit "b", known := infoClass_switch_known },
    { cls := infoClass .light, key := 1, name := lit "a", known := infoClass_light_known }]

theorem oneDomain_earlyState : OneDomain earlyState := by decide

theorem ingest_interleaving_earlyState :
    (ingestAll {} earlyState).find 1 = some {
      type := .light
      key := 1
      objectId := lit "a"
      name := lit "a"
      info := some { cls := infoClass .light, key := 1, name := lit "a" }
      state := some { cls := stateClass .light, key := 1, ownFields := lit "on" } } :=
  ((ingest_interleaving oneDomain_earlyState).1 1).trans rfl

end EntityStore

end EsphomeApi
