/-
EsphomeApi.Subsystems.GattMoves — runs of the GATT part, move by move, and what
holds in every state of every run.

`KeptByMoves` has one field for each move; a property that it holds of is kept
by `step`, under a guard on the calls that the application makes and on the
entries that a lambda takes. `Consistent` is the first such property: every
callback that waits, is due or has been invoked was registered at the position
that is its number, under the key of its table, and is due to a message that
takes that key.
-/
import EsphomeApi.Library.EventLog
import EsphomeApi.Subsystems.GattTables

namespace EsphomeApi

open Library

namespace BluetoothProxy

variable {s t : BluetoothProxy}

/-! ## Moves -/

/-- A condition on the calls that the application makes, and one on the entries
that a lambda takes, each in the state in which that happens. -/
structure Guard where
  call : BluetoothProxy → Call → Prop := fun _ _ => True
  take : BluetoothProxy → Table → UInt64 → Prop := fun _ _ _ => True
  /-- One call of a callback does not spoil the condition for the next. -/
  stable : ∀ {s t c}, t.todo = s.todo → (∀ a, t.services a = s.services a) →
    call s c → call t c := by exact fun _ _ _ => trivial

/-- The guard for what a lambda does next. -/
def Guard.Allows (g : Guard) (calls : List Call) (s : BluetoothProxy) : Work → Prop
  | .handler notice => s.handlerOf notice ≠ none → ∀ c ∈ calls, g.call s c
  | .append _ _ => True
  | .take T key _ => g.take s T key
  | .once _ _ => ∀ c ∈ calls, g.call s c

def Guard.Holds (g : Guard) (s : BluetoothProxy) : Event → Prop
  | .call c => s.todo = [] → g.call s c
  | .receive _ => True
  | .turn calls =>
      match s.todo with
      | [] => True
      | work :: rest => g.Allows calls { s with todo := rest } work

/-- What keeps `P`, move by move, where `Q` is known. -/
structure KeptByMoves (Q : BluetoothProxy → Prop) (g : Guard) (P : BluetoothProxy → Prop) :
    Prop where
  called : ∀ {s t c}, Q s → P s → g.call s c → Called c s t → P t
  received : ∀ {s} m, Q s → P s → s.todo = [] → P (s.receive m)
  skipped : ∀ {s notice rest}, Q s → P s → s.todo = .handler notice :: rest →
    P { s with todo := rest }
  invoked : ∀ {s notice rest} f, Q s → P s → s.todo = .handler notice :: rest →
    P (record (.invoked s.current f notice) { s with todo := rest })
  appended : ∀ {s address l rest}, Q s → P s → s.todo = .append address l :: rest →
    P (accumulate address l { s with todo := rest })
  taken : ∀ {s T key result rest}, Q s → P s → s.todo = .take T key result :: rest →
    g.take { s with todo := rest } T key → P (take T key result { s with todo := rest })
  completed : ∀ {s request result rest}, Q s → P s → s.todo = .once request result :: rest →
    P (record (.completed s.current request result) { s with todo := rest })

variable {g : Guard} {P Q : BluetoothProxy → Prop}

namespace KeptByMoves

variable {R Q' : BluetoothProxy → Prop}

theorem and (hQ : KeptByMoves R g Q) (hP : KeptByMoves Q' g P)
    (hknown : ∀ {s}, R s → Q s → Q' s) : KeptByMoves R g (fun s => Q s ∧ P s) where
  called hr h hg hc := ⟨hQ.called hr h.1 hg hc, hP.called (hknown hr h.1) h.2 hg hc⟩
  received m hr h hidle := ⟨hQ.received m hr h.1 hidle, hP.received m (hknown hr h.1) h.2 hidle⟩
  skipped hr h htodo := ⟨hQ.skipped hr h.1 htodo, hP.skipped (hknown hr h.1) h.2 htodo⟩
  invoked f hr h htodo := ⟨hQ.invoked f hr h.1 htodo, hP.invoked f (hknown hr h.1) h.2 htodo⟩
  appended hr h htodo := ⟨hQ.appended hr h.1 htodo, hP.appended (hknown hr h.1) h.2 htodo⟩
  taken hr h htodo hg := ⟨hQ.taken hr h.1 htodo hg, hP.taken (hknown hr h.1) h.2 htodo hg⟩
  completed hr h htodo := ⟨hQ.completed hr h.1 htodo, hP.completed (hknown hr h.1) h.2 htodo⟩

/-- What is kept without a guard is kept under one. -/
theorem guarded (h : KeptByMoves Q {} P) (g : Guard) : KeptByMoves Q g P where
  called hq hs _ := h.called hq hs trivial
  received := h.received
  skipped := h.skipped
  invoked := h.invoked
  appended := h.appended
  taken hq hs htodo _ := h.taken hq hs htodo trivial
  completed := h.completed

theorem calls (h : KeptByMoves (fun _ => True) g P) {calls : List Call} (hs : P s)
    (hcalls : ∀ c ∈ calls, g.call s c) : P (run call s calls) := by
  induction calls generalizing s with
  | nil => exact hs
  | cons c rest ih =>
      have hcalled := BluetoothProxy.called c s
      have hfirst := hcalls c List.mem_cons_self
      refine ih (h.called trivial hs hfirst hcalled) fun c' hc' => ?_
      exact g.stable hcalled.todo hcalled.services (hcalls c' (List.mem_cons_of_mem _ hc'))

theorem perform (h : KeptByMoves (fun _ => True) g P) {calls : List Call} {work : Work}
    {rest : List Work}
    (hs : P s) (htodo : s.todo = work :: rest)
    (hg : g.Allows calls { s with todo := rest } work) :
    P (perform calls { s with todo := rest } work) := by
  cases work with
  | handler notice =>
      cases hf : handlerOf { s with todo := rest } notice with
      | none =>
          rw [BluetoothProxy.perform, hf]
          exact h.skipped trivial hs htodo
      | some f =>
          rw [BluetoothProxy.perform, hf]
          have hnext := h.invoked f trivial hs htodo
          have hallowed := hg (by simp [hf])
          exact h.calls hnext fun c hc =>
            g.stable (s := { s with todo := rest }) rfl (fun _ => rfl) (hallowed c hc)
  | append address l => exact h.appended trivial hs htodo
  | take T key result => exact h.taken trivial hs htodo hg
  | once request result =>
      have hnext := h.completed trivial hs htodo
      exact h.calls hnext fun c hc =>
            g.stable (s := { s with todo := rest }) rfl (fun _ => rfl) (hg c hc)

theorem step (h : KeptByMoves (fun _ => True) g P) {e : Event} (hs : P s) (hg : g.Holds s e) :
    P (step s e) := by
  unfold BluetoothProxy.step
  cases e with
  | call c =>
      dsimp only
      split
      · exact h.called trivial hs (hg ‹_›) (BluetoothProxy.called c s)
      · exact hs
  | receive m =>
      dsimp only
      split
      · exact h.received m trivial hs ‹_›
      · exact hs
  | turn calls =>
      dsimp only
      split
      · exact hs
      · rename_i work rest htodo
        rw [Guard.Holds, htodo] at hg
        exact h.perform hs htodo hg

end KeptByMoves

/-! ## The log -/

theorem registration_number {c : Call} {n : Nat} {r : Request} (h : c.registration n = some r) :
    r.number = n := by
  unfold Call.registration at h
  split at h <;> simp at h <;> subst h <;> rfl

theorem registration_renumber {c : Call} {n : Nat} {r : Request} (h : c.registration n = some r)
    (n' : Nat) : c.registration n' = some { r with number := n' } := by
  unfold Call.registration at h ⊢
  split at h <;> simp at h <;> subst h <;> rfl

/-- An entry after a call: an old one, the registration or what was sent. -/
theorem Called.getElem?_log {c : Call} (h : Called c s t) {k : Nat} {o : Occurrence}
    (hk : t.log[k]? = some o) : s.log[k]? = some o ∨
      (k = s.log.length ∧ ∃ r, c.registration k = some r ∧ o = .registered r) ∨
      ∃ m, o = .sent m := by
  rw [h.log] at hk
  rcases Nat.lt_or_ge k s.log.length with hlt | hge
  · rw [List.getElem?_append_left hlt] at hk
    exact .inl hk
  · rw [List.getElem?_append_right hge] at hk
    cases hreg : c.registration s.log.length with
    | none =>
        have hsent := List.mem_of_getElem? hk
        simp only [Call.entries, hreg, Option.map_none, Option.toList_none, List.nil_append,
          Option.mem_toList, Option.map_eq_some_iff] at hsent
        obtain ⟨m, -, rfl⟩ := hsent
        exact .inr (.inr ⟨m, rfl⟩)
    | some r =>
        simp only [Call.entries, hreg, Option.map_some, Option.toList_some, List.cons_append,
          List.nil_append, List.getElem?_cons] at hk
        split at hk
        · have hlast : k = s.log.length := by omega
          exact .inr (.inl ⟨hlast, r, hlast ▸ hreg, (Option.some.inj hk).symm⟩)
        · have hsent := List.mem_of_getElem? hk
          simp only [Option.mem_toList, Option.map_eq_some_iff] at hsent
          obtain ⟨m, -, rfl⟩ := hsent
          exact .inr (.inr ⟨m, rfl⟩)

/-! ## Consistent states -/

/-- The callback was registered at the position that is its number. -/
def Request.RegisteredIn (r : Request) (log : List Occurrence) : Prop :=
  log[r.number]? = some (.registered r)

/-- What a lambda does because of a message. -/
inductive DueTo (log : List Occurrence) (m : Message) : Work → Prop where
  | listed {work : Work} (h : work ∈ lambda m) : DueTo log m work
  | once {r : Request} {result : Result} (services : List BleGattService)
      (registered : r.RegisteredIn log) (h : .take r.table r.key result ∈ lambda m) :
      DueTo log m (.once r (result.withServices services))

structure Consistent (s : BluetoothProxy) : Prop where
  number : ∀ {n} {r : Request}, s.log[n]? = some (.registered r) → r.number = n
  current : ∀ {k m}, s.log[k]? = some (.received m) → k ≤ s.current
  waiting : ∀ {T key r}, r ∈ s.pending T key → r.table = T ∧ r.key = key ∧ r.RegisteredIn s.log
  handlers : ∀ {T key r}, r ∈ s.pending T key → s.gattRegistered
  todo : ∀ {work}, work ∈ s.todo →
    ∃ m, s.log[s.current]? = some (.received m) ∧ DueTo s.log m work
  completed : ∀ {k r result}, .completed k r result ∈ s.log →
    ∃ m, s.log[k]? = some (.received m) ∧ DueTo s.log m (.once r result)

theorem Request.RegisteredIn.append {r : Request} {log : List Occurrence}
    (h : r.RegisteredIn log) (more : List Occurrence) : r.RegisteredIn (log ++ more) :=
  getElem?_append_of_some h more

theorem DueTo.append {log : List Occurrence} {m : Message} {work : Work} (h : DueTo log m work)
    (more : List Occurrence) : DueTo (log ++ more) m work := by
  cases h with
  | listed h => exact .listed h
  | once services hreg h => exact .once services (hreg.append more) h

/-- A work item and its message, in a log that has grown. -/
theorem exists_dueTo_append {log : List Occurrence} {k : Nat} {work : Work}
    (h : ∃ m, log[k]? = some (.received m) ∧ DueTo log m work) (more : List Occurrence) :
    ∃ m, (log ++ more)[k]? = some (.received m) ∧ DueTo (log ++ more) m work := by
  obtain ⟨m, hm, hdue⟩ := h
  exact ⟨m, getElem?_append_of_some hm more, hdue.append more⟩

theorem consistent_init : Consistent {} where
  number h := by simp at h
  current h := by simp at h
  waiting {T} _ _ h := by cases T <;> simp [pending, accumulator] at h
  handlers {T} _ _ h := by cases T <;> simp [pending, accumulator] at h
  todo h := by simp at h
  completed h := by simp at h

theorem Consistent.called {c : Call} (h : Consistent s) (hc : Called c s t) : Consistent t where
  number {n r} hn := by
    rcases hc.getElem?_log hn with hold | ⟨-, r', hreg, ho⟩ | ⟨m, ho⟩
    · exact h.number hold
    · cases ho
      exact registration_number hreg
    · cases ho
  current hk := by
    rcases hc.getElem?_log hk with hold | ⟨-, r', -, ho⟩ | ⟨m, ho⟩
    · exact hc.current ▸ h.current hold
    · cases ho
    · cases ho
  waiting {T key r} hr := by
    rw [hc.pending, List.mem_append] at hr
    rcases hr with hold | hnew
    · obtain ⟨htable, hkey, hreg⟩ := h.waiting hold
      exact ⟨htable, hkey, hc.log ▸ hreg.append _⟩
    · simp only [List.mem_filter, Option.mem_toList, decide_eq_true_eq] at hnew
      obtain ⟨hreg, htable, hkey⟩ := hnew
      refine ⟨htable, hkey, ?_⟩
      rw [Request.RegisteredIn, registration_number hreg, hc.log, Call.entries, hreg]
      simp
  handlers {T key r} hr := by
    rw [hc.pending, List.mem_append] at hr
    rcases hr with hold | hnew
    · exact hc.handlers (.inr (h.handlers hold))
    · simp only [List.mem_filter, Option.mem_toList] at hnew
      exact hc.handlers (.inl (by simp [hnew.1]))
  todo hwork := by
    rw [hc.todo] at hwork
    rw [hc.current, hc.log]
    exact exists_dueTo_append (h.todo hwork) _
  completed hdone := by
    obtain ⟨k, hk⟩ := List.getElem?_of_mem hdone
    rcases hc.getElem?_log hk with hold | ⟨-, r', -, ho⟩ | ⟨m, ho⟩
    · rw [hc.log]
      exact exists_dueTo_append (h.completed (List.mem_of_getElem? hold)) _
    · cases ho
    · cases ho

theorem Consistent.receive (h : Consistent s) (m : Message) : Consistent (s.receive m) where
  number hn := by
    rcases getElem?_concat_eq_some.mp hn with hold | ⟨-, ho⟩
    · exact h.number hold
    · cases ho
  current {k m'} hk := by
    rcases getElem?_concat_eq_some.mp hk with hold | ⟨hlast, -⟩
    · exact Nat.le_of_lt (List.getElem?_eq_some_iff.mp hold).1
    · exact Nat.le_of_eq hlast
  waiting hr := by
    rw [pending_receive] at hr
    obtain ⟨htable, hkey, hreg⟩ := h.waiting hr
    exact ⟨htable, hkey, hreg.append _⟩
  handlers hr := by
    rw [pending_receive] at hr
    exact h.handlers hr
  todo hwork :=
    ⟨m, List.getElem?_concat_length .., .listed ((receive_todo_sublist m).subset hwork)⟩
  completed hdone := by
    rcases List.mem_append.mp hdone with hold | hnew
    · exact exists_dueTo_append (h.completed hold) _
    · simp at hnew

theorem Consistent.resume (h : Consistent s) {work : Work} {rest : List Work}
    (htodo : s.todo = work :: rest) : Consistent { s with todo := rest } where
  number := h.number
  current := h.current
  waiting hr := h.waiting (by rwa [pending_todo] at hr)
  handlers hr := h.handlers (by rwa [pending_todo] at hr)
  todo hwork := h.todo (by rw [htodo]; exact List.mem_cons_of_mem _ hwork)
  completed := h.completed

theorem Consistent.record (h : Consistent s) {o : Occurrence} (hreceived : ∀ m, o ≠ .received m)
    (hregistered : ∀ r, o ≠ .registered r)
    (hcompleted : ∀ k r result, o = .completed k r result →
      ∃ m, s.log[k]? = some (.received m) ∧ DueTo s.log m (.once r result)) :
    Consistent (s.record o) where
  number hn := by
    rcases getElem?_concat_eq_some.mp hn with hold | ⟨-, ho⟩
    · exact h.number hold
    · exact absurd ho.symm (hregistered _)
  current hk := by
    rcases getElem?_concat_eq_some.mp hk with hold | ⟨-, ho⟩
    · exact h.current hold
    · exact absurd ho.symm (hreceived _)
  waiting hr := by
    rw [pending_record] at hr
    obtain ⟨htable, hkey, hreg⟩ := h.waiting hr
    exact ⟨htable, hkey, hreg.append _⟩
  handlers hr := h.handlers (by rwa [pending_record] at hr)
  todo hwork := exists_dueTo_append (h.todo hwork) _
  completed hdone := by
    rcases List.mem_append.mp hdone with hold | hnew
    · exact exists_dueTo_append (h.completed hold) _
    · exact exists_dueTo_append (hcompleted _ _ _ (List.mem_singleton.mp hnew).symm) _

theorem Consistent.accumulate (h : Consistent s) (address : UInt64) (l : List BleGattService) :
    Consistent (s.accumulate address l) where
  number := h.number
  current := h.current
  waiting hr := h.waiting (by rwa [pending_accumulate] at hr)
  handlers hr := h.handlers (by rwa [pending_accumulate] at hr)
  todo := h.todo
  completed := h.completed

/-- The callbacks that a message takes are due to it. -/
theorem Consistent.dueTo_of_take (h : Consistent s) {T : Table} {key : UInt64} {result : Result}
    {m : Message} (htake : .take T key result ∈ lambda m) {work : Work}
    (hwork : work ∈ due T key result s) : DueTo s.log m work := by
  obtain ⟨r, hr, rfl⟩ := mem_due.mp hwork
  obtain ⟨rfl, rfl, hreg⟩ := h.waiting hr
  exact .once _ hreg htake

theorem Consistent.take (h : Consistent s) {T : Table} {key : UInt64} {result : Result}
    {m : Message} (hm : s.log[s.current]? = some (.received m))
    (htake : .take T key result ∈ lambda m) : Consistent (s.take T key result) where
  number hn := h.number (by rwa [take_log] at hn)
  current hk := by
    rw [take_log] at hk
    rw [take_current]
    exact h.current hk
  waiting hr := by
    rw [pending_take] at hr
    rw [take_log]
    split at hr
    · exact absurd hr List.not_mem_nil
    · exact h.waiting hr
  handlers hr := by
    rw [pending_take] at hr
    rw [take_gattRegistered]
    split at hr
    · exact absurd hr List.not_mem_nil
    · exact h.handlers hr
  todo hwork := by
    rw [take_log, take_current]
    rw [take_todo, List.mem_append] at hwork
    rcases hwork with hdue | hrest
    · exact ⟨m, hm, h.dueTo_of_take htake hdue⟩
    · exact h.todo hrest
  completed hdone := by
    rw [take_log] at hdone ⊢
    exact h.completed hdone

/-- What a lambda does first. -/
theorem Consistent.next (h : Consistent s) {work : Work} {rest : List Work}
    (htodo : s.todo = work :: rest) :
    ∃ m, s.log[s.current]? = some (.received m) ∧ DueTo s.log m work :=
  h.todo (by rw [htodo]; exact List.mem_cons_self)

theorem consistent_kept : KeptByMoves (fun _ => True) {} Consistent where
  called _ h _ hc := h.called hc
  received m _ h _ := h.receive m
  skipped _ h htodo := h.resume htodo
  invoked _ _ h htodo := (h.resume htodo).record nofun nofun nofun
  appended _ h htodo := (h.resume htodo).accumulate _ _
  taken _ h htodo _ := by
    obtain ⟨m, hm, hdue⟩ := h.next htodo
    cases hdue with
    | listed htake => exact (h.resume htodo).take hm htake
  completed _ h htodo := by
    refine (h.resume htodo).record nofun nofun fun k r result ho => ?_
    cases ho
    exact h.next htodo

/-- What guarded moves keep of consistent states holds, with it, in every state of
a guarded run. -/
theorem states_kept (h : KeptByMoves Consistent g P) (hinit : P {}) {events : List Event}
    (hg : Guarded step g.Holds {} events) :
    ∀ t ∈ states step {} events, Consistent t ∧ P t := by
  have hboth := (consistent_kept.guarded g).and h fun _ hs => hs
  have hstep (s : BluetoothProxy) (e : Event) (hs : Consistent s ∧ P s) (hok : g.Holds s e) :
      Consistent (step s e) ∧ P (step s e) := hboth.step hs hok
  exact states_of_guarded hstep ⟨consistent_init, hinit⟩ hg

theorem Guard.holds_turn_nil (htake : ∀ s T key, g.take s T key) (s : BluetoothProxy) :
    g.Holds s (.turn []) := by
  rw [Guard.Holds]
  split
  · trivial
  · rename_i work rest htodo
    cases work with
    | handler notice => exact fun _ c hc => absurd hc List.not_mem_nil
    | append address l => trivial
    | take T key result => exact htake _ _ _
    | once r result => exact fun c hc => absurd hc List.not_mem_nil

/-- Where a guard on entries is broken. -/
theorem Guard.exists_take_of_not_holds {e : Event} (hcall : ∀ s c, g.call s c)
    (h : ¬ g.Holds s e) : ∃ calls T key result rest, e = .turn calls ∧
      s.todo = .take T key result :: rest ∧ ¬ g.take { s with todo := rest } T key := by
  cases e with
  | call c => exact absurd (fun _ => hcall s c) h
  | receive m => exact absurd trivial h
  | turn calls =>
      rw [Guard.Holds] at h
      split at h
      · exact absurd trivial h
      · rename_i work rest htodo
        cases work with
        | handler notice => exact absurd (fun _ c _ => hcall _ c) h
        | append address l => exact absurd trivial h
        | take T key result => exact ⟨calls, T, key, result, rest, rfl, htodo, h⟩
        | once r result => exact absurd (fun c _ => hcall _ c) h

/-- The first of several calls that breaks a guard. -/
theorem exists_broken_call (hP : KeptByMoves (fun _ => True) {} P) {calls : List Call} (hs : P s)
    (h : ¬ ∀ c ∈ calls, g.call s c) :
    ∃ u c rest, P u ∧ ¬ g.call u c ∧ run call s calls = run call (u.call c) rest := by
  induction calls generalizing s with
  | nil => exact absurd (fun _ hc => absurd hc List.not_mem_nil) h
  | cons c rest ih =>
      by_cases hc : g.call s c
      · have hcalled := called c s
        refine ih (hP.called trivial hs trivial hcalled) fun hall => h fun c' hc' => ?_
        rcases List.mem_cons.mp hc' with rfl | hrest
        · exact hc
        · exact g.stable hcalled.todo.symm (fun a => (hcalled.services a).symm) (hall c' hrest)
      · exact ⟨s, c, rest, hs, hc, rfl⟩

/-- Where a guard on calls is broken: the state in which the call is made, and the
calls after it in the same callback. -/
theorem exists_call_of_not_holds {e : Event} (htake : ∀ s T key, g.take s T key)
    (hP : KeptByMoves (fun _ => True) {} P) (hs : P s) (h : ¬ g.Holds s e) :
    ∃ u c rest, P u ∧ ¬ g.call u c ∧ step s e = run call (u.call c) rest := by
  -- A callback is invoked in the state in which the guard is broken, but for its record.
  have hinvoked {t : BluetoothProxy} {o : Occurrence} {calls : List Call} (ht : P (t.record o))
      (hcalls : ¬ ∀ c ∈ calls, g.call t c) :
      ∃ u c rest, P u ∧ ¬ g.call u c ∧ run call (t.record o) calls = run call (u.call c) rest :=
    exists_broken_call hP ht fun hall => hcalls fun c hc =>
      g.stable (s := t.record o) rfl (fun _ => rfl) (hall c hc)
  cases e with
  | call c =>
      by_cases hidle : s.todo = []
      · refine ⟨s, c, [], hs, fun hc => h fun _ => hc, ?_⟩
        rw [step, if_pos hidle, run_nil]
      · exact absurd (fun hidle' => absurd hidle' hidle) h
  | receive m => exact absurd trivial h
  | turn calls =>
      rw [Guard.Holds] at h
      split at h
      · exact absurd trivial h
      · rename_i work rest htodo
        rw [step, htodo]
        cases work with
        | handler notice =>
            cases hf : handlerOf { s with todo := rest } notice with
            | none => exact absurd (fun hne => absurd hf hne) h
            | some f =>
                dsimp only
                rw [perform, hf]
                have hnext := hP.invoked f trivial hs htodo
                exact hinvoked hnext fun hall => h fun _ => hall
        | append address l => exact absurd trivial h
        | take T key result => exact absurd (htake _ _ _) h
        | once r result =>
            have hnext := hP.completed trivial hs htodo
            exact hinvoked hnext h

theorem Guard.holds_true (s : BluetoothProxy) (e : Event) : ({} : Guard).Holds s e :=
  Classical.byContradiction fun h => by
    obtain ⟨_, _, _, _, _, _, _, htake⟩ := Guard.exists_take_of_not_holds (fun _ _ => trivial) h
    exact htake trivial

theorem consistent_step (s : BluetoothProxy) (e : Event) (hs : Consistent s) :
    Consistent (step s e) :=
  consistent_kept.step hs (Guard.holds_true s e)

theorem consistent_run (events : List Event) : Consistent (run step {} events) :=
  run_invariant consistent_step consistent_init events

/-- When a step that breaks the guard brings about what every move keeps, a run at
whose end it does not hold was guarded. -/
theorem guarded_of_kept (h : KeptByMoves Consistent {} P)
    (hbreak : ∀ {s e}, Consistent s → ¬ g.Holds s e → P (step s e)) {events : List Event}
    (hend : ¬ P (run step {} events)) : Guarded step g.Holds {} events := by
  have hboth := consistent_kept.and h fun _ hs => hs
  have hstay (s : BluetoothProxy) (e : Event) (hs : Consistent s) (hP : P s) : P (step s e) :=
    (hboth.step ⟨hs, hP⟩ (Guard.holds_true s e)).2
  exact guarded_of_run consistent_step (fun _ _ => hbreak) hstay consistent_init hend

end BluetoothProxy

end EsphomeApi
