/-
EsphomeApi.Transport.AsioExecutor — the timers of `asio_executor.cpp`.

Of `asio::steady_timer` the model has what its documentation says. A wait ends
either by expiry or because the timer is cancelled or destroyed; then its
handler is queued with or without an error code, and nothing changes that any
more. A loop step lets a wait expire or runs a queued handler, in any order.
The function of a timer may call `schedule_after` and `cancel`; the handler
does nothing after it, so these calls are inputs that follow its step.

`CalledRight` is about `cancel`. A timer that has expired stays in `timers_`
until its handler runs, and `cancel` then reaches a wait that is over: the
function runs although it was cancelled. `Unexpired` is the condition for a
`cancel` after which no function of its timer runs.
-/
import EsphomeApi.Library.EventLog
import EsphomeApi.Library.GuardedRun
import Mathlib.Data.List.AList

namespace EsphomeApi

open Library

namespace AsioExecutor

/-- What has become of the wait of a timer, and of its handler. -/
inductive Wait where
  | waiting
  /-- the handler is queued without an error code -/
  | expired
  /-- the handler is queued with `operation_aborted` -/
  | aborted
  /-- the handler ran and called the function -/
  | ran
  /-- the handler ran and did not call the function -/
  | dropped
  deriving DecidableEq, Repr

/-- A call of `schedule_after`: the id it returned, and its wait. -/
structure SteadyTimer where
  id : UInt64
  wait : Wait
  deriving DecidableEq, Repr

end AsioExecutor

open AsioExecutor in
/-- The members of `AsioExecutor`; `timers_` holds a timer as the number of its
`schedule_after` call. Beside them the timers, and the functions that were
called, oldest first. -/
structure AsioExecutor where
  nextId : UInt64 := 1
  timers : AList fun _ : UInt64 => Nat := ∅
  scheduled : List SteadyTimer := []
  ran : List Nat := []

namespace AsioExecutor

/-- The wait of a timer goes on as given. -/
def setWait (call : Nat) (f : Wait → Wait) (e : AsioExecutor) : AsioExecutor :=
  { e with scheduled := e.scheduled.modify call fun t => { t with wait := f t.wait } }

/-- `steady_timer::cancel`, and what its destructor does. -/
def abort : Wait → Wait
  | .waiting => .aborted
  | w => w

/-- `timers_.erase(id)`. The timer is destroyed with its entry. -/
def eraseTimer (id : UInt64) (e : AsioExecutor) : AsioExecutor :=
  match e.timers.lookup id with
  | some call => { setWait call abort e with timers := e.timers.erase id }
  | none => e

/-- `schedule_after`. Where the id is taken, `emplace` does nothing and the
timer is destroyed at the end of the call. -/
def scheduleAfter (e : AsioExecutor) : AsioExecutor :=
  let id := e.nextId
  let e := { e with nextId := e.nextId + 1 }
  if id ∈ e.timers then { e with scheduled := e.scheduled ++ [⟨id, abort .waiting⟩] }
  else
    { e with
      scheduled := e.scheduled ++ [⟨id, .waiting⟩]
      timers := e.timers.insert id e.scheduled.length }

/-- `cancel`. -/
def cancel (id : UInt64) (e : AsioExecutor) : AsioExecutor :=
  match e.timers.lookup id with
  | some call => setWait call abort e
  | none => e

/-- The wait of a timer comes to its end. -/
def expire (call : Nat) (e : AsioExecutor) : AsioExecutor :=
  setWait call (fun w => if w = .waiting then .expired else w) e

/-- The handler that `schedule_after` gives to `async_wait`, if it is queued. -/
def handle (call : Nat) (e : AsioExecutor) : AsioExecutor :=
  match e.scheduled[call]? with
  | some ⟨id, .expired⟩ =>
      let e := eraseTimer id e
      { setWait call (fun _ => .ran) e with ran := e.ran ++ [call] }
  | some ⟨id, .aborted⟩ => setWait call (fun _ => .dropped) (eraseTimer id e)
  | _ => e

/-- What happens to the executor. -/
inductive Input where
  | scheduleAfter
  | cancel (id : UInt64)
  | expire (call : Nat)
  | handle (call : Nat)
  deriving DecidableEq, Repr

def step (e : AsioExecutor) : Input → AsioExecutor
  | .scheduleAfter => scheduleAfter e
  | .cancel id => cancel id e
  | .expire call => expire call e
  | .handle call => handle call e

/-! ## What a step does to a timer -/

/-- The ways of a wait, one step at most. -/
def Moves (w w' : Wait) : Prop :=
  w' = w ∨ w = .waiting ∧ (w' = .expired ∨ w' = .aborted) ∨ w = .expired ∧ w' = .ran ∨
    w = .aborted ∧ w' = .dropped

theorem moves_abort (w : Wait) : Moves w (abort w) := by
  cases w <;> simp [Moves, abort]

variable {e : AsioExecutor} {c call : Nat} {id taken : UInt64} {w : Wait}

theorem timer_setWait (call : Nat) (f : Wait → Wait) (h : e.scheduled[c]? = some ⟨id, w⟩) :
    (setWait call f e).scheduled[c]? = some ⟨id, if call = c then f w else w⟩ := by
  rw [setWait, List.getElem?_modify, h]
  split <;> rfl

theorem timer_eraseTimer (taken : UInt64) (h : e.scheduled[c]? = some ⟨id, w⟩) :
    (eraseTimer taken e).scheduled[c]?
      = some ⟨id, if e.timers.lookup taken = some c then abort w else w⟩ := by
  unfold eraseTimer
  cases e.timers.lookup taken with
  | none => simpa using h
  | some call => simpa using timer_setWait call abort h

theorem timer_cancel (taken : UInt64) (h : e.scheduled[c]? = some ⟨id, w⟩) :
    (cancel taken e).scheduled[c]?
      = some ⟨id, if e.timers.lookup taken = some c then abort w else w⟩ := by
  unfold cancel
  cases e.timers.lookup taken with
  | none => simpa using h
  | some call => simpa using timer_setWait call abort h

theorem timer_scheduleAfter (h : e.scheduled[c]? = some ⟨id, w⟩) :
    (scheduleAfter e).scheduled[c]? = some ⟨id, w⟩ := by
  unfold scheduleAfter
  simp only
  split <;> exact getElem?_append_of_some h _

/-- The handler of a timer decides on its own wait, and may abort another. -/
theorem timer_handle (call : Nat) (h : e.scheduled[c]? = some ⟨id, w⟩) :
    ∃ w', (handle call e).scheduled[c]? = some ⟨id, w'⟩ ∧ Moves w w' := by
  have herased (taken : UInt64) : ∃ w', (eraseTimer taken e).scheduled[c]? = some ⟨id, w'⟩ ∧
      (w' = w ∨ w' = abort w) := by
    refine ⟨_, timer_eraseTimer taken h, ?_⟩
    split <;> simp
  have hother (w' : Wait) (hw' : w' = w ∨ w' = abort w) : Moves w w' := by
    rcases hw' with rfl | rfl
    · exact .inl rfl
    · exact moves_abort w
  unfold handle
  split
  · rename_i taken hqueued
    obtain ⟨w', herased, hw'⟩ := herased taken
    refine ⟨_, timer_setWait call (fun _ => .ran) herased, ?_⟩
    split
    · rename_i hcall
      rw [hcall, h] at hqueued
      cases hqueued
      simp [Moves]
    · exact hother w' hw'
  · rename_i taken hqueued
    obtain ⟨w', herased, hw'⟩ := herased taken
    refine ⟨_, timer_setWait call (fun _ => .dropped) herased, ?_⟩
    split
    · rename_i hcall
      rw [hcall, h] at hqueued
      cases hqueued
      simp [Moves]
    · exact hother w' hw'
  · exact ⟨w, h, .inl rfl⟩

/-- A step keeps the id of a timer and moves its wait. -/
theorem timer_step (i : Input) (h : e.scheduled[c]? = some ⟨id, w⟩) :
    ∃ w', (step e i).scheduled[c]? = some ⟨id, w'⟩ ∧ Moves w w' := by
  cases i with
  | scheduleAfter => exact ⟨w, timer_scheduleAfter h, .inl rfl⟩
  | cancel taken =>
      refine ⟨_, timer_cancel taken h, ?_⟩
      split
      · exact moves_abort w
      · exact .inl rfl
  | expire call =>
      refine ⟨_, timer_setWait call _ h, ?_⟩
      by_cases hcall : call = c
      · cases w <;> simp [Moves, hcall]
      · simp [Moves, hcall]
  | handle call => exact timer_handle call h

/-! ## Invariants -/

/-- The functions that were called are those of the handlers that called one,
each once; and a timer that is waiting is in `timers_`. -/
structure Consistent (e : AsioExecutor) : Prop where
  nodup : e.ran.Nodup
  mem_ran : ∀ {c : Nat}, c ∈ e.ran ↔ ∃ id, e.scheduled[c]? = some ⟨id, .ran⟩
  held : ∀ {c : Nat} {id : UInt64}, e.scheduled[c]? = some ⟨id, .waiting⟩ →
    e.timers.lookup id = some c

/-- A timer has a wait of the kind. -/
def HasWait (P : Wait → Prop) (c : Nat) (e : AsioExecutor) : Prop :=
  ∃ id w, e.scheduled[c]? = some ⟨id, w⟩ ∧ P w

theorem HasWait.step {P : Wait → Prop} (hP : ∀ {w w'}, P w → Moves w w' → P w') (i : Input)
    (h : HasWait P c e) : HasWait P c (step e i) := by
  obtain ⟨id, w, hc, hw⟩ := h
  obtain ⟨w', hc', hmoves⟩ := timer_step i hc
  exact ⟨id, w', hc', hP hw hmoves⟩

/-- The function of the timer was not called and never will be. -/
def Wait.Dead (w : Wait) : Prop := w = .aborted ∨ w = .dropped

/-- The timer has expired. -/
def Wait.Over (w : Wait) : Prop := w = .expired ∨ w = .ran

theorem Wait.Dead.moves {w w' : Wait} (h : w.Dead) (hmoves : Moves w w') : w'.Dead := by
  rcases h with rfl | rfl <;> simp_all [Moves, Wait.Dead]

theorem Wait.Over.moves {w w' : Wait} (h : w.Over) (hmoves : Moves w w') : w'.Over := by
  rcases h with rfl | rfl <;> simp_all [Moves, Wait.Over]

theorem not_mem_ran_of_dead (he : Consistent e) (h : HasWait Wait.Dead c e) : c ∉ e.ran := by
  obtain ⟨id, w, hc, hw⟩ := h
  rw [he.mem_ran, hc]
  rintro ⟨id', hran⟩
  cases hran
  rcases hw with hw | hw <;> cases hw

/-- The handler of a timer that has expired calls the function. -/
theorem mem_ran_handle (he : Consistent e) (h : HasWait Wait.Over c e) : c ∈ (handle c e).ran := by
  obtain ⟨id, w, hc, rfl | rfl⟩ := h
  · simp [handle, hc]
  · simpa [handle, hc] using he.mem_ran.mpr ⟨id, hc⟩

theorem scheduled_setWait (e : AsioExecutor) (call : Nat) (f : Wait → Wait) (c : Nat) :
    (setWait call f e).scheduled[c]?
      = e.scheduled[c]?.map fun t => if call = c then { t with wait := f t.wait } else t := by
  rw [setWait, List.getElem?_modify]
  split <;> rfl

/-- What a change of a wait may be, so that no function is forgotten. -/
theorem Consistent.setWait (he : Consistent e) (call : Nat) {f : Wait → Wait}
    (hran : ∀ {id w}, e.scheduled[call]? = some ⟨id, w⟩ → (f w = .ran ↔ w = .ran))
    (hwaiting : ∀ {id w}, e.scheduled[call]? = some ⟨id, w⟩ → f w = .waiting → w = .waiting) :
    Consistent (setWait call f e) where
  nodup := he.nodup
  mem_ran := by
    intro c
    have hmem : c ∈ (AsioExecutor.setWait call f e).ran ↔ c ∈ e.ran := Iff.rfl
    rw [hmem, he.mem_ran, scheduled_setWait]
    cases hc : e.scheduled[c]? with
    | none => simp
    | some t =>
        obtain ⟨id, w⟩ := t
        by_cases hcall : call = c
        · subst hcall
          simp [hran hc]
        · simp [hcall]
  held := by
    intro c id h
    rw [scheduled_setWait] at h
    cases hc : e.scheduled[c]? with
    | none => simp [hc] at h
    | some t =>
        obtain ⟨id', w⟩ := t
        by_cases hcall : call = c
        · subst hcall
          simp only [hc, Option.map_some, if_true, Option.some.injEq, SteadyTimer.mk.injEq] at h
          obtain ⟨rfl, hw⟩ := h
          rw [hwaiting hc hw] at hc
          exact he.held hc
        · simp only [hc, Option.map_some, if_neg hcall, Option.some.injEq] at h
          exact he.held (h ▸ hc)

theorem Consistent.abort (he : Consistent e) (call : Nat) :
    Consistent (AsioExecutor.setWait call AsioExecutor.abort e) :=
  he.setWait call (fun {_ w} _ => by cases w <;> simp [AsioExecutor.abort])
    (fun {_ w} _ => by cases w <;> simp [AsioExecutor.abort])

theorem Consistent.cancel (he : Consistent e) (id : UInt64) :
    Consistent (AsioExecutor.cancel id e) := by
  unfold AsioExecutor.cancel
  cases e.timers.lookup id with
  | none => exact he
  | some call => exact he.abort call

theorem Consistent.expire (he : Consistent e) (call : Nat) :
    Consistent (AsioExecutor.expire call e) :=
  he.setWait call (fun {_ w} _ => by cases w <;> simp) (fun {_ w} _ => by cases w <;> simp)

theorem Consistent.eraseTimer (he : Consistent e) (taken : UInt64) :
    Consistent (AsioExecutor.eraseTimer taken e) := by
  unfold AsioExecutor.eraseTimer
  cases htaken : e.timers.lookup taken with
  | none => exact he
  | some call =>
      refine { he.abort call with held := ?_ }
      intro c id h
      have hheld : e.timers.lookup id = some c := (he.abort call).held h
      have hid : id ≠ taken := by
        -- the timer whose entry is erased is no longer waiting
        rintro rfl
        rw [htaken, Option.some.injEq] at hheld
        subst hheld
        simp only [scheduled_setWait, if_true, Option.map_eq_some_iff] at h
        obtain ⟨⟨_, w⟩, _, hw⟩ := h
        cases w <;> simp [AsioExecutor.abort] at hw
      rw [AList.lookup_erase_ne hid]
      exact hheld

/-- A new timer, in whatever state its wait is after the call. -/
theorem Consistent.concat (he : Consistent e) {w : Wait} (hw : w ≠ .ran)
    {timers : AList fun _ : UInt64 => Nat}
    (hold : ∀ {c id}, e.timers.lookup id = some c → timers.lookup id = some c)
    (hnew : w = .waiting → timers.lookup e.nextId = some e.scheduled.length) (next : UInt64) :
    Consistent ⟨next, timers, e.scheduled ++ [⟨e.nextId, w⟩], e.ran⟩ where
  nodup := he.nodup
  mem_ran := by
    intro c
    rw [he.mem_ran]
    simp [getElem?_concat_eq_some, Ne.symm hw]
  held := by
    intro c id h
    rcases getElem?_concat_eq_some.mp h with hc | ⟨rfl, hlast⟩
    · exact hold (he.held hc)
    · obtain ⟨rfl, rfl⟩ := SteadyTimer.mk.inj hlast
      exact hnew rfl

theorem Consistent.scheduleAfter (he : Consistent e) :
    Consistent (AsioExecutor.scheduleAfter e) := by
  unfold AsioExecutor.scheduleAfter
  simp only
  split
  · exact he.concat (by simp [AsioExecutor.abort]) (fun h => h) (by simp [AsioExecutor.abort]) _
  · rename_i hfree
    refine he.concat (by simp) ?_ (fun _ => AList.lookup_insert _) _
    intro c id hc
    rw [AList.lookup_insert_ne ?_]
    · exact hc
    · rintro rfl
      exact hfree (AList.lookup_isSome.mp (by rw [hc]; rfl))

/-- The function of an expired timer is called. -/
theorem Consistent.ran (he : Consistent e) (hcall : e.scheduled[call]? = some ⟨id, .expired⟩) :
    Consistent { AsioExecutor.setWait call (fun _ => .ran) e with ran := e.ran ++ [call] } where
  nodup := by
    have hfresh : call ∉ e.ran := by
      rw [he.mem_ran, hcall]
      rintro ⟨_, h⟩
      cases h
    refine List.nodup_append.mpr ⟨he.nodup, by simp, ?_⟩
    rintro c hc _ hlast rfl
    exact hfresh (List.mem_singleton.mp hlast ▸ hc)
  mem_ran := by
    intro c
    simp only [List.mem_append, List.mem_singleton, he.mem_ran, scheduled_setWait]
    by_cases hc : call = c
    · subst hc
      simp [hcall]
    · cases e.scheduled[c]? <;> simp [hc, Ne.symm hc]
  held := by
    intro c id' h
    rw [scheduled_setWait] at h
    by_cases hc : call = c
    · simp [hc] at h
    · simp only [if_neg hc, Option.map_id'] at h
      exact he.held h

theorem Consistent.handle (he : Consistent e) (call : Nat) :
    Consistent (AsioExecutor.handle call e) := by
  unfold AsioExecutor.handle
  split
  · rename_i id hcall
    have herased := timer_eraseTimer id hcall
    have hwait : (if e.timers.lookup id = some call then AsioExecutor.abort .expired else .expired)
        = Wait.expired := by
      split <;> rfl
    rw [hwait] at herased
    exact (he.eraseTimer id).ran herased
  · rename_i id hcall
    have herased := timer_eraseTimer id hcall
    have hwait : (if e.timers.lookup id = some call then AsioExecutor.abort .aborted else .aborted)
        = Wait.aborted := by
      split <;> rfl
    rw [hwait] at herased
    refine (he.eraseTimer id).setWait call ?_ ?_
    · intro id' w h
      rw [herased] at h
      cases h
      simp
    · simp
  · exact he

theorem Consistent.step (he : Consistent e) (i : Input) : Consistent (step e i) := by
  cases i with
  | scheduleAfter => exact he.scheduleAfter
  | cancel id => exact he.cancel id
  | expire call => exact he.expire call
  | handle call => exact he.handle call

/-! ## Runs -/

/-- A new executor after the inputs. -/
def after (is : List Input) : AsioExecutor := run step {} is

theorem after_append (is js : List Input) : after (is ++ js) = run step (after is) js :=
  run_append step {} is js

theorem consistent_after (is : List Input) : Consistent (after is) := by
  refine run_invariant (fun e i he => he.step i) ?_ is
  exact ⟨List.nodup_nil, by simp, by simp⟩

/-- No function is called twice, and none is called that was not yet called
when its timer was cancelled. -/
def CalledRight (is : List Input) : Prop :=
  (after is).ran.Nodup ∧
    ∀ before id rest, is = before ++ .cancel id :: rest →
      ∀ c, (after before).scheduled[c]?.map SteadyTimer.id = some id → c ∉ (after before).ran →
        c ∉ (after is).ran

/-- No timer of the id that is cancelled has expired and waits for its handler
to run. -/
def Unexpired (e : AsioExecutor) : Input → Prop
  | .cancel id => ⟨id, .expired⟩ ∉ e.scheduled
  | _ => True

/-- What `cancel` does to the timers of the id that have not expired. -/
theorem dead_cancel (he : Consistent e) (hunexpired : Unexpired e (.cancel id))
    (hc : e.scheduled[c]? = some ⟨id, w⟩) (hran : c ∉ e.ran) :
    HasWait Wait.Dead c (cancel id e) := by
  refine ⟨id, _, timer_cancel id hc, ?_⟩
  cases w with
  | waiting => simp [he.held hc, AsioExecutor.abort, Wait.Dead]
  | expired => exact absurd (List.mem_of_getElem? hc) hunexpired
  | aborted => simp [AsioExecutor.abort, Wait.Dead]
  | ran => exact absurd (he.mem_ran.mpr ⟨id, hc⟩) hran
  | dropped => simp [AsioExecutor.abort, Wait.Dead]

/-- Under the guard every `cancel` is in time. -/
theorem calledRight_of_guarded {is : List Input} (h : Guarded step Unexpired {} is) :
    CalledRight is := by
  refine ⟨(consistent_after is).nodup, ?_⟩
  intro before id rest his c hid hran
  have hunexpired : Unexpired (after before) (.cancel id) := guarded_iff_split.mp h _ _ _ his
  obtain ⟨⟨_, w⟩, hc, rfl⟩ := Option.map_eq_some_iff.mp hid
  have hdead := dead_cancel (consistent_after before) hunexpired hc hran
  have hlater : HasWait Wait.Dead c (after is) := by
    rw [his, after_append]
    exact run_invariant (fun _ i h => h.step Wait.Dead.moves i) hdead rest
  exact not_mem_ran_of_dead (consistent_after is) hlater

/-- A `cancel` that comes after the expiry: the handler is still to run, and
it calls the function. -/
theorem not_calledRight_of_expired {before rest : List Input}
    (hexpired : ⟨id, .expired⟩ ∈ (after before).scheduled) :
    ∃ c, ¬ CalledRight (before ++ .cancel id :: rest ++ [.handle c]) := by
  obtain ⟨c, hc⟩ := List.mem_iff_getElem?.mp hexpired
  have hover : HasWait Wait.Over c (after (before ++ .cancel id :: rest)) := by
    rw [after_append]
    exact run_invariant (fun _ i h => h.step Wait.Over.moves i) ⟨id, _, hc, .inl rfl⟩ _
  refine ⟨c, fun h => ?_⟩
  refine h.2 before id (rest ++ [.handle c]) (by simp) c (by simp [hc]) ?_ ?_
  · rw [(consistent_after before).mem_ran, hc]
    rintro ⟨_, hran⟩
    cases hran
  · rw [after_append]
    exact mem_ran_handle (consistent_after _) hover

/-- Whatever the loop does after it, a run calls each function once at most and no
cancelled one, exactly when no `cancel` of it finds a timer of its id expired
with the handler still to run. -/
theorem calledRight_iff (is : List Input) :
    (∀ more, (∀ i ∈ more, ∀ id, i ≠ .cancel id) → CalledRight (is ++ more))
      ↔ Guarded step Unexpired {} is := by
  constructor
  · intro h
    rw [guarded_iff_split]
    rintro before i rest rfl
    cases i with
    | cancel id =>
        intro hexpired
        obtain ⟨c, hc⟩ := not_calledRight_of_expired hexpired
        exact hc (h [.handle c] (by simp))
    | _ => trivial
  · intro h more hmore
    refine calledRight_of_guarded (guarded_append.mpr ⟨h, guarded_of_mem ?_ _⟩)
    intro i hi e
    cases i with
    | cancel id => exact absurd rfl (hmore _ hi id)
    | _ => trivial

/-- The timer expires, is cancelled, and its handler runs. -/
theorem not_calledRight_cancel_after_expiry :
    ¬ CalledRight [.scheduleAfter, .expire 0, .cancel 1, .handle 0] := by
  intro h
  exact h.2 [.scheduleAfter, .expire 0] 1 [.handle 0] rfl 0 (by decide) (by decide) (by decide)

end AsioExecutor

end EsphomeApi
