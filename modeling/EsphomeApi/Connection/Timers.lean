/-
EsphomeApi.Connection.Timers — the timers that the executor holds, and the
members that name them.

Every `cancel_…_timer` is `cancelAny` on its member (`cancelPingTimer_eq` and
its like). `Ids` and `Holds` say that ids are not given twice and that a member
names the one timer with its callback; taking, scheduling and dropping a timer
keep them.
-/
import EsphomeApi.Connection.Machine

namespace EsphomeApi

namespace Connection

variable {σ : Type} {E : Environment σ} {s t : Connection σ}

/-! ## Cancelling -/

/-- A timer that is gone cannot be cancelled any more. -/
theorem cancel_gone {id : TimerId} (h : ∀ timer ∈ s.executor.timers, timer.id ≠ id) :
    cancel E id s = s := by
  have hkeep : (s.executor.timers.filter fun timer => timer.id ≠ id) = s.executor.timers :=
    List.filter_eq_self.mpr fun timer htimer => decide_eq_true (h timer htimer)
  unfold cancel
  split
  · rw [hkeep]
  · rfl

/-- `executor_.cancel`, unless there is no timer. -/
def cancelAny (E : Environment σ) (id : TimerId) (s : Connection σ) : Connection σ :=
  if id = invalidTimer then s else cancel E id s

theorem cancelConnectTimer_eq (s : Connection σ) : cancelConnectTimer E s =
    { cancelAny E s.connectTimer s with connectTimer := invalidTimer } := by
  unfold cancelConnectTimer cancelAny
  split
  · next hnone => rw [← hnone]
  · rfl

theorem cancelPingTimer_eq (s : Connection σ) : cancelPingTimer E s =
    { cancelAny E s.pingTimer s with pingTimer := invalidTimer } := by
  unfold cancelPingTimer cancelAny
  split
  · next hnone => rw [← hnone]
  · rfl

theorem cancelPongTimer_eq (s : Connection σ) : cancelPongTimer E s =
    { cancelAny E s.pongTimer s with pongTimer := invalidTimer } := by
  unfold cancelPongTimer cancelAny
  split
  · next hnone => rw [← hnone]
  · rfl

/-! ## What is pending -/

/-- The timers with a callback. -/
def pending (callback : TimerCallback) (s : Connection σ) : List Timer :=
  s.executor.timers.filter fun timer => timer.callback = callback

/-- Each id is given to one timer. -/
structure Ids (s : Connection σ) : Prop where
  nodup : (s.executor.timers.map Timer.id).Nodup
  below : ∀ timer ∈ s.executor.timers, timer.id < s.executor.nextId
  valid : invalidTimer < s.executor.nextId

/-- The timer with a callback is the one that a member names, if there is one. -/
def Holds (callback : TimerCallback) (id : TimerId) (deadline : Option Int) (s : Connection σ) :
    Prop :=
  s.pending callback = (deadline.map fun d => Timer.mk id d callback).toList ∧
    (deadline.isSome ↔ id ≠ invalidTimer)

theorem pending_takeTimer (callback : TimerCallback) (id : TimerId) (s : Connection σ) :
    (takeTimer id s).pending callback =
      (s.pending callback).filter fun timer => timer.id ≠ id :=
  List.filter_comm ..

theorem pending_schedule (callback callback' : TimerCallback) (delay : Int) (s : Connection σ) :
    (schedule delay callback' s).pending callback = s.pending callback ++
      if callback' = callback then
        [⟨s.executor.nextId, s.executor.now + delay, callback'⟩]
      else [] := by
  by_cases h : callback' = callback <;> simp [pending, schedule, h]

theorem Ids.takeTimer (h : Ids s) (id : TimerId) : Ids (takeTimer id s) where
  nodup := h.nodup.sublist (List.filter_sublist.map _)
  below timer hmem := h.below timer (List.mem_of_mem_filter hmem)
  valid := h.valid

theorem Ids.schedule (h : Ids s) (delay : Int) (callback : TimerCallback) :
    Ids (schedule delay callback s) where
  nodup := by
    have hfresh : s.executor.nextId ∉ s.executor.timers.map Timer.id := by
      intro hmem
      obtain ⟨timer, htimer, hid⟩ := List.mem_map.mp hmem
      exact absurd (hid ▸ h.below timer htimer) (Nat.lt_irrefl _)
    show ((s.executor.timers ++ [_]).map Timer.id).Nodup
    rw [List.map_append, List.map_singleton, ← List.concat_eq_append]
    exact h.nodup.concat hfresh
  below timer hmem := by
    rcases List.mem_append.mp hmem with hmem | hmem
    · exact Nat.lt_succ_of_lt (h.below timer hmem)
    · rw [List.mem_singleton.mp hmem]
      exact Nat.lt_succ_self _
  valid := Nat.lt_succ_of_lt h.valid

/-- A timer is alone under its id. -/
theorem Ids.eq_of_id (h : Ids s) {timer timer' : Timer} (hmem : timer ∈ s.executor.timers)
    (hmem' : timer' ∈ s.executor.timers) (hid : timer.id = timer'.id) : timer = timer' :=
  List.inj_on_of_nodup_map h.nodup hmem hmem' hid

theorem Ids.congr (h : Ids s) (ht : t.executor = s.executor) : Ids t :=
  ⟨ht ▸ h.nodup, ht ▸ h.below, ht ▸ h.valid⟩

theorem Holds.congr {callback : TimerCallback} {id : TimerId} {deadline : Option Int}
    (h : Holds callback id deadline s) (ht : t.executor = s.executor) :
    Holds callback id deadline t := by
  unfold Holds pending at h ⊢
  rwa [ht]

/-- Taking another timer leaves it pending. -/
theorem Holds.takeTimer {callback : TimerCallback} {id id' : TimerId} {deadline : Option Int}
    (h : Holds callback id deadline s) (hid : deadline.isSome → id ≠ id') :
    Holds callback id deadline (takeTimer id' s) := by
  refine ⟨?_, h.2⟩
  rw [pending_takeTimer, h.1]
  cases deadline with
  | none => rfl
  | some d => simpa using hid rfl

theorem Holds.taken {callback : TimerCallback} {id : TimerId} {deadline : Option Int}
    (h : Holds callback id deadline s) : (Connection.takeTimer id s).pending callback = [] := by
  rw [pending_takeTimer, h.1]
  cases deadline <;> simp

theorem Holds.schedule {callback callback' : TimerCallback} {id : TimerId}
    {deadline : Option Int} (h : Holds callback id deadline s) (delay : Int)
    (hne : callback' ≠ callback) : Holds callback id deadline (schedule delay callback' s) := by
  refine ⟨?_, h.2⟩
  rw [pending_schedule, if_neg hne, List.append_nil, h.1]

theorem holds_schedule {callback : TimerCallback} (hids : Ids s) (hnone : s.pending callback = [])
    (delay : Int) : Holds callback s.executor.nextId (some (s.executor.now + delay))
      (schedule delay callback s) := by
  refine ⟨?_, ?_⟩
  · rw [pending_schedule, if_pos rfl, hnone]
    rfl
  · exact iff_of_true rfl (Nat.ne_of_gt hids.valid)

/-- The timer that a member names is gone, if it names one. -/
def dropTimer (id : TimerId) (s : Connection σ) : Connection σ :=
  { s with executor := { s.executor with
      timers := if id = invalidTimer then s.executor.timers else (takeTimer id s).executor.timers } }

theorem dropTimer_cases (id : TimerId) (s : Connection σ) :
    (id = invalidTimer ∧ dropTimer id s = s) ∨
      (id ≠ invalidTimer ∧ dropTimer id s = takeTimer id s) := by
  unfold dropTimer
  by_cases hid : id = invalidTimer
  · exact Or.inl ⟨hid, by rw [if_pos hid]⟩
  · exact Or.inr ⟨hid, by rw [if_neg hid]; rfl⟩

theorem Ids.dropTimer (h : Ids s) (id : TimerId) : Ids (dropTimer id s) := by
  rcases dropTimer_cases id s with ⟨-, heq⟩ | ⟨-, heq⟩
  · rw [heq]
    exact h
  · rw [heq]
    exact h.takeTimer id

theorem Holds.dropTimer {callback : TimerCallback} {id id' : TimerId} {deadline : Option Int}
    (h : Holds callback id deadline s) (hid : deadline.isSome → id ≠ id') :
    Holds callback id deadline (dropTimer id' s) := by
  rcases dropTimer_cases id' s with ⟨-, heq⟩ | ⟨-, heq⟩
  · rw [heq]
    exact h
  · rw [heq]
    exact h.takeTimer hid

theorem Holds.dropTimer_none {callback : TimerCallback} {id : TimerId}
    (h : Holds callback id none s) (id' : TimerId) :
    Holds callback id none (Connection.dropTimer id' s) :=
  h.dropTimer nofun

theorem Holds.dropped {callback : TimerCallback} {id : TimerId} {deadline : Option Int}
    (h : Holds callback id deadline s) :
    Holds callback invalidTimer none (Connection.dropTimer id s) := by
  refine ⟨?_, iff_of_false nofun (not_not_intro rfl)⟩
  rcases dropTimer_cases id s with ⟨hinvalid, heq⟩ | ⟨-, heq⟩
  · rw [heq, h.1]
    cases deadline with
    | none => rfl
    | some d => exact absurd hinvalid (h.2.mp rfl)
  · rw [heq]
    exact h.taken

/-- Where the executor cancels, that is what a `cancel` does. -/
theorem cancelAny_eq (hcancels : ∀ (s : Connection σ) id, E.cancels s id = true) (id : TimerId)
    (s : Connection σ) : cancelAny E id s = dropTimer id s := by
  unfold cancelAny
  rcases dropTimer_cases id s with ⟨hid, heq⟩ | ⟨hid, heq⟩
  · rw [if_pos hid, heq]
  · rw [if_neg hid, heq]
    exact if_pos (hcancels s id)

/-- The timer that a member names is pending. -/
theorem Holds.mem {callback : TimerCallback} {id : TimerId} {deadline : Option Int}
    (h : Holds callback id deadline s) (hsome : deadline.isSome) :
    ∃ timer ∈ s.executor.timers, timer.id = id ∧ timer.callback = callback := by
  obtain ⟨d, rfl⟩ := Option.isSome_iff_exists.mp hsome
  have hpending : Timer.mk id d callback ∈ s.pending callback := by simp [h.1]
  exact ⟨_, List.mem_of_mem_filter hpending, rfl, rfl⟩

/-- It is the only one with its callback. -/
theorem Holds.eq_of_mem {timer : Timer} {id : TimerId} {deadline : Option Int}
    (h : Holds timer.callback id deadline s) (hmem : timer ∈ s.executor.timers) :
    deadline = some timer.deadline ∧ id = timer.id := by
  have hpending : timer ∈ s.pending timer.callback := List.mem_filter.mpr ⟨hmem, by simp⟩
  rw [h.1] at hpending
  cases deadline with
  | none => simp at hpending
  | some d =>
      have heq : timer = Timer.mk id d timer.callback := by simpa using hpending
      exact ⟨congrArg some (congrArg Timer.deadline heq).symm, (congrArg Timer.id heq).symm⟩

theorem Holds.ne_of_mem (hids : Ids s) {callback : TimerCallback} {id : TimerId}
    {deadline : Option Int} {timer : Timer} (h : Holds callback id deadline s)
    (hmem : timer ∈ s.executor.timers) (hne : callback ≠ timer.callback)
    (hsome : deadline.isSome) : id ≠ timer.id := by
  intro heq
  obtain ⟨timer', hmem', hid, hcallback⟩ := h.mem hsome
  have hsame := hids.eq_of_id hmem' hmem (hid.trans heq)
  exact hne (hcallback.symm.trans (congrArg Timer.callback hsame))

/-- Two callbacks are not scheduled under one id. -/
theorem Holds.ne (hids : Ids s) {callback callback' : TimerCallback} {id id' : TimerId}
    {deadline deadline' : Option Int} (h : Holds callback id deadline s)
    (h' : Holds callback' id' deadline' s) (hne : callback ≠ callback') (hsome : deadline.isSome) :
    id ≠ id' := by
  intro heq
  have hsome' : deadline'.isSome := h'.2.mpr (heq ▸ h.2.mp hsome)
  obtain ⟨timer, hmem, hid, rfl⟩ := h'.mem hsome'
  exact h.ne_of_mem hids hmem hne hsome (heq.trans hid.symm)

end Connection

end EsphomeApi
