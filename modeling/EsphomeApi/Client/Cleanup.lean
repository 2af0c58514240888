/-
EsphomeApi.Client.Cleanup — what the blocking calls leave behind.

A request installs its lambda in the one slot of its reply, over whatever is
there, and takes it out again only when the reply has come; `connect` gives up
its lambda only when the connection calls it. So a call cleans up after itself
exactly when it does not get as far as the request, or no handler was installed
for the reply and the reply comes in time (`cleansUp_iff`). What the
application does in the meantime is followed by invariants of the slots
(`SlotInvariant`); `pumpLoop_cases` says how a wait ends.
-/
import EsphomeApi.Client.SyncClient

namespace EsphomeApi

open Proto Library

namespace Connection

variable {σ : Type} {E : Environment σ} {s t : Connection σ}

/-! ## Invariants of the slots -/

/-- Only the slots matter, `I` does not need a pending connect, and what the
handlers of the application call keeps `I`. -/
structure SlotInvariant (E : Environment σ) (I : Connection σ → Prop) : Prop where
  congr : ∀ {s t : Connection σ}, I s → t.handlers = s.handlers → t.slots = s.slots →
    t.connectHandler = s.connectHandler → I t
  completed : ∀ s, I s → I { s with connectHandler := none }
  calls : ∀ call s₀, ∀ c ∈ E.calls call s₀, c ≠ .disconnect → ∀ s, I s → I (perform E id c s)

namespace SlotInvariant

variable {I : Connection σ → Prop} (h : SlotInvariant E I)

include h

theorem undisturbed : Undisturbed E I where
  kept hk hs := h.congr hs hk.handlers hk.slots hk.connectHandler
  invoked _ _ _ hs := h.congr hs rfl rfl rfl
  calls := h.calls

theorem keptByActs : KeptByActs E I I where
  __ := h.undisturbed
  window := h.undisturbed
  completed := h.completed
  close _ hs := h.congr hs rfl rfl rfl
  closing _ _ hs := h.congr hs rfl rfl rfl
  request _ _ hs := h.congr hs rfl rfl rfl
  closed _ _ hs := h.congr hs rfl rfl rfl
  failed _ _ _ hs := h.congr hs rfl rfl rfl
  ping _ _ hs := h.congr hs rfl rfl rfl

theorem startKeepalive (hs : I s) : I (startKeepalive s) :=
  have hk := kept_startKeepalive s
  h.congr hs hk.handlers hk.slots hk.connectHandler

theorem keptBySends : KeptBySends E I I where
  __ := h.keptByActs
  send _ _ _ _ hs := h.congr hs rfl rfl rfl
  helloSent _ hs := h.congr hs rfl rfl rfl

theorem handleHelloResponse (v : HelloResponse.Value) (hs : I s) :
    I (handleHelloResponse E v s) :=
  h.keptByActs.handleHelloResponse v hs (fun _ => h.congr hs rfl rfl rfl)
    (fun _ _ _ _ _ _ _ ht => h.congr ht rfl rfl rfl) (fun _ ht => h.startKeepalive ht)
    fun _ t ht => h.congr (h.completed t ht) rfl rfl rfl

theorem drainTurn (hs : I s) : I (drainTurn E s).1 :=
  h.keptBySends.drainTurn (h.congr hs rfl rfl rfl) fun _ v _ _ hraw => h.handleHelloResponse v hraw

/-- An event keeps `I`, if a `start` and a call of the application do. -/
theorem step (e : Event) (hs : I s)
    (hstart : ∀ host port onDone, e = .start host port onDone →
      I { s with connectHandler := some onDone })
    (hcall : ∀ call, e = .call call → call ≠ .disconnect → I (perform E id call s)) :
    I (step E s e) := by
  have hacts := h.keptByActs
  refine hacts.step e hs ?_ (h.congr hs rfl rfl rfl) (h.congr hs rfl rfl rfl) ?_ ?_ hcall
  · intro host port onDone he
    refine hacts.start (K := I) host port onDone
      (h.congr (hstart host port onDone he) rfl rfl rfl) ?_ ?_
    · exact fun t ht => h.congr ht rfl rfl rfl
    · exact fun t _ ht => h.congr ht rfl rfl rfl
  · intro _ _
    exact h.keptBySends.onConnectedTransport (h.congr hs rfl rfl rfl)
      (fun _ ht => h.congr ht rfl rfl rfl) fun _ _ ht => h.congr ht rfl rfl rfl
  · intro data _ _
    exact drainFrames_of_turns (R := fun s t => I s → I t) (fun _ => id)
      (fun hst htu => htu ∘ hst) (fun t (_ : True) => h.drainTurn) (fun _ _ => trivial)
      (h.congr hs rfl rfl rfl)

end SlotInvariant

theorem on_handlers_self {type : UInt32} (htype : type ≤ E.registry.messageIdMax)
    (handler : Option HandlerId) (s : Connection σ) :
    (on E type handler s).handlers type = handler := by
  simp [on, htype]

theorem on_handlers_of_ne {type type' : UInt32} (htype : type' ≠ type) (handler : Option HandlerId)
    (s : Connection σ) : (on E type handler s).handlers type' = s.handlers type' := by
  unfold on
  split
  · exact if_neg htype
  · rfl

theorem on_slots (type : UInt32) (handler : Option HandlerId) (s : Connection σ) :
    (on E type handler s).slots = s.slots := by
  unfold on
  split <;> rfl

end Connection

namespace SyncClient

open Connection

variable {σ : Type} {E : Environment σ} {s t : Connection σ} {slices : List Slice}

/-! ## What a call has to leave behind -/

/-- The connection holds a callable. -/
def Retains (callback : HandlerId) (s : Connection σ) : Prop :=
  s.connectHandler = some callback ∨ some callback ∈ s.slots ∨
    ∃ type, s.handlers type = some callback

/-- None of the lambdas is held any more, and every handler that was installed
before still is, unless the application replaced it. -/
structure CleanedUp (replaced : UInt32 → Prop) (lambdas : List HandlerId)
    (before after : Connection σ) : Prop where
  released : ∀ callback ∈ lambdas, ¬ Retains callback after
  restored : ∀ type handler, ¬ replaced type → before.handlers type = some handler →
    after.handlers type = some handler

/-- The application replaces the handler of an id during the slices. -/
def Replaces (E : Environment σ) (slices : List Slice) (type : UInt32) : Prop :=
  (∃ call s handler, .on type handler ∈ E.calls call s) ∨
    ∃ slice ∈ slices, ∃ handler, .call (.on type handler) ∈ slice

end SyncClient

/-- The application hands over a callable. -/
def Call.Names (callback : HandlerId) : Call → Prop
  | .on _ handler => handler = some callback
  | .onAny handler => handler = some callback
  | .onRaw handler => handler = some callback
  | .onState handler => handler = some callback
  | .onError handler => handler = some callback
  | _ => False

def Event.Names (callback : HandlerId) : Event → Prop
  | .start _ _ onDone => onDone = callback
  | .call c => c.Names callback
  | _ => False

namespace SyncClient

open Connection

variable {σ : Type} {E : Environment σ} {s t : Connection σ} {slices : List Slice}

/-- The application does not hand over the callable during the slices. -/
structure Withheld (E : Environment σ) (slices : List Slice) (callback : HandlerId) : Prop where
  calls : ∀ call s, ∀ c ∈ E.calls call s, ¬ c.Names callback
  events : ∀ slice ∈ slices, ∀ e ∈ slice, ¬ e.Names callback

/-- A lambda of a call that is about to begin: nobody else has it. -/
structure Own (E : Environment σ) (slices : List Slice) (s : Connection σ)
    (callback : HandlerId) : Prop extends Withheld E slices callback where
  retains : ¬ Retains callback s
  completed : completed callback s = false

/-- After `n` slices, and not before, the predicate holds, and each of these
slices begins before the deadline. -/
structure InTime (E : Environment σ) (predicate : Connection σ → Bool) (deadline : Int)
    (slices : List Slice) (s : Connection σ) (n : Nat) : Prop where
  le : n ≤ slices.length
  reached : predicate (pumped E (slices.take n) s) = true
  earlier : ∀ m < n, predicate (pumped E (slices.take m) s) = false ∧
    (pumped E (slices.take m) s).executor.now < deadline

/-! ## How a wait ends -/

section

variable {predicate : Connection σ → Bool} {timeout deadline : Int} {slice : Slice} {n : Nat}

theorem InTime.zero (h : predicate s = true) : InTime E predicate deadline slices s 0 :=
  ⟨Nat.zero_le _, by simpa [pumped] using h, nofun⟩

theorem inTime_succ : InTime E predicate deadline (slice :: slices) s (n + 1) ↔
    (predicate s = false ∧ s.executor.now < deadline) ∧
      InTime E predicate deadline slices (run (step E) s slice) n := by
  constructor
  · intro h
    refine ⟨h.earlier 0 (Nat.succ_pos n), Nat.le_of_succ_le_succ h.le, h.reached, ?_⟩
    intro m hm
    exact h.earlier (m + 1) (Nat.succ_lt_succ hm)
  · rintro ⟨hnow, h⟩
    refine ⟨Nat.succ_le_succ h.le, h.reached, fun m hm => ?_⟩
    cases m with
    | zero => exact hnow
    | succ m => exact h.earlier m (Nat.lt_of_succ_lt_succ hm)

/-- A predicate that holds in time ends the wait. -/
theorem pumpLoop_of_inTime (h : InTime E predicate deadline slices s n) :
    pumpLoop E predicate timeout deadline slices s =
      ⟨.returned (), pumped E (slices.take n) s, slices.drop n⟩ := by
  induction slices generalizing s n with
  | nil =>
      have hreached : predicate s = true := by simpa [pumped] using h.reached
      simp [pumpLoop, pumped, hreached]
  | cons slice slices ih =>
      cases n with
      | zero =>
          have hreached : predicate s = true := by simpa [pumped] using h.reached
          simp [pumpLoop, pumped, hreached]
      | succ n =>
          obtain ⟨⟨hpredicate, hnow⟩, hrest⟩ := inTime_succ.mp h
          have hloop := ih hrest
          unfold pumpLoop
          rw [hpredicate, if_neg Bool.false_ne_true, if_neg (Int.not_le.mpr hnow)]
          exact hloop

/-- A wait ends because the predicate holds in time or because time is up. -/
theorem pumpLoop_cases (predicate : Connection σ → Bool) (timeout deadline : Int)
    (slices : List Slice) (s : Connection σ) :
    (∃ n, InTime E predicate deadline slices s n) ∨
      (∃ n, predicate (pumped E (slices.take n) s) = false ∧
        pumpLoop E predicate timeout deadline slices s =
          ⟨.threw (operationTimedOut timeout), pumped E (slices.take n) s, slices.drop n⟩) ∨
      (pumpLoop E predicate timeout deadline slices s).outcome = .waiting := by
  induction slices generalizing s with
  | nil =>
      unfold pumpLoop
      by_cases hpredicate : predicate s = true
      · exact Or.inl ⟨0, .zero hpredicate⟩
      · rw [if_neg hpredicate]
        split
        · exact Or.inr (Or.inl ⟨0, Bool.eq_false_iff.mpr hpredicate, rfl⟩)
        · exact Or.inr (Or.inr rfl)
  | cons slice slices ih =>
      unfold pumpLoop
      by_cases hpredicate : predicate s = true
      · exact Or.inl ⟨0, .zero hpredicate⟩
      · rw [if_neg hpredicate]
        have hfalse := Bool.eq_false_iff.mpr hpredicate
        split
        · exact Or.inr (Or.inl ⟨0, hfalse, rfl⟩)
        · next hnow =>
            rcases ih (run (step E) s slice) with ⟨n, h⟩ | ⟨n, h⟩ | h
            · exact Or.inl ⟨n + 1, inTime_succ.mpr ⟨⟨hfalse, Int.not_le.mp hnow⟩, h⟩⟩
            · exact Or.inr (Or.inl ⟨n + 1, h⟩)
            · exact Or.inr (Or.inr h)

end

/-! ## The application in the meantime -/

/-- The handler of an id that the application leaves alone. -/
theorem slotInvariant_handler {type : UInt32} {handler : Option HandlerId}
    (h : ¬ Replaces E slices type) :
    SlotInvariant E fun s : Connection σ => s.handlers type = handler where
  congr hs hhandlers _ _ := hhandlers ▸ hs
  completed _ hs := hs
  calls call s₀ c hc hne s hs := by
    cases c with
    | disconnect => exact absurd rfl hne
    | on type' handler' =>
        have htype : type ≠ type' := by
          rintro rfl
          exact h (.inl ⟨call, s₀, handler', hc⟩)
        exact (on_handlers_of_ne htype handler' _).trans hs
    | _ => exact hs

/-- A lambda is in the slot of its reply at most, the pending connect apart. -/
structure Confined (callback : HandlerId) (response : UInt32) (s : Connection σ) : Prop where
  slots : some callback ∉ s.slots
  handlers : ∀ type, type ≠ response → s.handlers type ≠ some callback

/-- A lambda is in the slot of its reply at most. -/
structure Stray (callback : HandlerId) (response : UInt32) (s : Connection σ) : Prop
    extends Confined callback response s where
  connectHandler : s.connectHandler ≠ some callback

variable {callback : HandlerId} {response : UInt32}

theorem Confined.perform {c : Call} (hc : ¬ c.Names callback) (h : Confined callback response s) :
    Confined callback response (perform E id c s) := by
  have hslots := h.slots
  simp only [Connection.slots, List.mem_cons, not_or] at hslots
  obtain ⟨hany, hraw, hstate, herror, -⟩ := hslots
  cases c with
  | disconnect => exact h
  | sendRaw type payload => exact ⟨h.slots, h.handlers⟩
  | on type handler =>
      refine ⟨(on_slots type handler s).symm ▸ h.slots, fun type' htype' => ?_⟩
      show (on E type handler s).handlers type' ≠ some callback
      unfold on
      split
      · dsimp only
        split
        · exact hc
        · exact h.handlers type' htype'
      · exact h.handlers type' htype'
  | onAny handler =>
      have hne : some callback ≠ handler := Ne.symm hc
      exact ⟨by simp [Connection.slots, Connection.perform, *], h.handlers⟩
  | onRaw handler =>
      have hne : some callback ≠ handler := Ne.symm hc
      exact ⟨by simp [Connection.slots, Connection.perform, *], h.handlers⟩
  | onState handler =>
      have hne : some callback ≠ handler := Ne.symm hc
      exact ⟨by simp [Connection.slots, Connection.perform, *], h.handlers⟩
  | onError handler =>
      have hne : some callback ≠ handler := Ne.symm hc
      exact ⟨by simp [Connection.slots, Connection.perform, *], h.handlers⟩

theorem slotInvariant_confined (h : ∀ call s, ∀ c ∈ E.calls call s, ¬ c.Names callback) :
    SlotInvariant E (Confined (σ := σ) callback response) where
  congr hs hhandlers hslots _ := ⟨hslots ▸ hs.slots, hhandlers ▸ hs.handlers⟩
  completed _ hs := ⟨hs.slots, hs.handlers⟩
  calls call s₀ c hc _ _ hs := hs.perform (h call s₀ c hc)

theorem perform_connectHandler (c : Call) (s : Connection σ) :
    (perform E id c s).connectHandler = s.connectHandler := by
  cases c with
  | on type handler => exact (untouched_on type handler s).connectHandler
  | _ => rfl

theorem slotInvariant_stray (h : ∀ call s, ∀ c ∈ E.calls call s, ¬ c.Names callback) :
    SlotInvariant E (Stray (σ := σ) callback response) where
  congr hs hhandlers hslots hconnect := ⟨⟨hslots ▸ hs.slots, hhandlers ▸ hs.handlers⟩,
    hconnect ▸ hs.connectHandler⟩
  completed _ hs := ⟨⟨hs.slots, hs.handlers⟩, nofun⟩
  calls call s₀ c hc _ s hs := ⟨hs.toConfined.perform (h call s₀ c hc),
    (perform_connectHandler c s).symm ▸ hs.connectHandler⟩

theorem Own.stray (h : Own E slices s callback) (response : UInt32) :
    Stray callback response s where
  slots hslot := h.retains (Or.inr (Or.inl hslot))
  handlers type _ htype := h.retains (Or.inr (Or.inr ⟨type, htype⟩))
  connectHandler hconnect := h.retains (Or.inl hconnect)

theorem Stray.released (h : Stray callback response s)
    (hslot : s.handlers response ≠ some callback) : ¬ Retains callback s := by
  rintro (hconnect | hslots | ⟨type, htype⟩)
  · exact h.connectHandler hconnect
  · exact h.slots hslots
  · by_cases heq : type = response
    · exact hslot (heq ▸ htype)
    · exact h.handlers type heq htype

/-- The slices of a call, or those that are left of them. -/
theorem Withheld.drop (h : Withheld E slices callback) (n : Nat) :
    Withheld E (slices.drop n) callback :=
  ⟨h.calls, fun slice hslice => h.events slice (List.mem_of_mem_drop hslice)⟩

theorem Replaces.of_drop {type : UInt32} {n : Nat} (h : Replaces E (slices.drop n) type) :
    Replaces E slices type := by
  rcases h with h | ⟨slice, hslice, h⟩
  · exact Or.inl h
  · exact Or.inr ⟨slice, List.mem_of_mem_drop hslice, h⟩

/-- What the events of the slices keep holds after any number of slices. -/
theorem pumped_of {I : Connection σ → Prop}
    (hstep : ∀ slice ∈ slices, ∀ e ∈ slice, ∀ s, I s → I (step E s e)) (hs : I s) (n : Nat) :
    I (pumped E (slices.take n) s) :=
  run_of_mem (fun slice hslice _ h =>
    run_of_mem (fun e he t ht => hstep slice (List.mem_of_mem_take hslice) e he t ht) h) hs

theorem pumped_handlers {type : UInt32} (h : ¬ Replaces E slices type) (s : Connection σ)
    (n : Nat) :
    (pumped E (slices.take n) s).handlers type = s.handlers type := by
  have hinv : SlotInvariant E fun t : Connection σ => t.handlers type = s.handlers type :=
    slotInvariant_handler h
  refine pumped_of (I := fun t => t.handlers type = s.handlers type) ?_ rfl n
  intro slice hslice e he t ht
  refine hinv.step e ht (fun _ _ _ _ => ht) fun c hc hne => ?_
  cases c with
  | disconnect => exact absurd rfl hne
  | on type' handler =>
      have htype : type ≠ type' := by
        rintro rfl
        exact h (.inr ⟨slice, hslice, handler, hc ▸ he⟩)
      exact (on_handlers_of_ne htype handler _).trans ht
  | _ => exact ht

theorem Confined.pumped (h : Withheld E slices callback) (hs : Confined callback response s)
    (n : Nat) : Confined callback response (pumped E (slices.take n) s) := by
  have hinv : SlotInvariant E (Confined (σ := σ) callback response) :=
    slotInvariant_confined h.calls
  refine pumped_of (fun slice hslice e he t ht => ?_) hs n
  refine hinv.step e ht (fun _ _ _ _ => ⟨ht.slots, ht.handlers⟩) fun c hc _ => ?_
  exact ht.perform fun hnames => h.events slice hslice e he (hc ▸ hnames)

theorem Stray.pumped (h : Withheld E slices callback) (hs : Stray callback response s) (n : Nat) :
    Stray callback response (pumped E (slices.take n) s) := by
  have hinv : SlotInvariant E (Stray (σ := σ) callback response) := slotInvariant_stray h.calls
  refine pumped_of (fun slice hslice e he t ht => ?_) hs n
  refine hinv.step e ht ?_ fun c hc _ => ?_
  · intro host port onDone hstart
    refine ⟨⟨ht.slots, ht.handlers⟩, fun hsome => h.events slice hslice e he ?_⟩
    rw [hstart]
    exact Option.some_inj.mp hsome
  · refine ⟨ht.perform fun hnames => h.events slice hslice e he (hc ▸ hnames), ?_⟩
    exact (perform_connectHandler c t).symm ▸ ht.connectHandler

/-! ## Requests -/

section

variable {α : Type} {call : String} {request : UInt32} {timeout : Int}
  {value : List ProtoMessage → α} {before : Connection σ} {lambdas : List HandlerId}
  {slices' : List Slice}

/-- The reply is dispatched in time. -/
def RepliedInTime (E : Environment σ) (callback : HandlerId) (request response : UInt32)
    (timeout : Int) (slices : List Slice) (s : Connection σ) : Prop :=
  ∃ n, InTime E (replied callback) (s.executor.now + timeout) slices
    (ask E callback request response s) n

theorem ask_now (s : Connection σ) :
    (ask E callback request response s).executor.now = s.executor.now := by
  show (on E response (some callback) s).executor.now = s.executor.now
  unfold on
  split <;> rfl

theorem roundTrip_eq (hstate : s.state = .connected) :
    roundTrip E call callback request response timeout value slices s =
      (pumpLoop E (replied callback) timeout (s.executor.now + timeout) slices
        (ask E callback request response s)).andThen
        fun slices s => ⟨.returned (value (replies callback s)), on E response none s, slices⟩ := by
  unfold roundTrip pumpUntil
  rw [if_neg (not_not.mpr hstate), ask_now]

/-- A request takes its lambda out if the reply comes in time, and leaves it
installed otherwise. -/
theorem roundTrip_connection (hstate : s.state = .connected)
    (hended : (roundTrip E call callback request response timeout value slices s).outcome ≠
      .waiting) :
    ∃ n, let t := pumped E (slices.take n) (ask E callback request response s)
      RepliedInTime E callback request response timeout slices s ∧
        (roundTrip E call callback request response timeout value slices s).connection =
          on E response none t ∨
      ¬ RepliedInTime E callback request response timeout slices s ∧
        (roundTrip E call callback request response timeout value slices s).connection = t := by
  rw [roundTrip_eq hstate] at hended ⊢
  rcases pumpLoop_cases (E := E) (replied callback) timeout (s.executor.now + timeout) slices
      (ask E callback request response s) with ⟨n, h⟩ | ⟨n, -, h⟩ | h
  · rw [pumpLoop_of_inTime h]
    exact ⟨n, Or.inl ⟨⟨n, h⟩, rfl⟩⟩
  · refine ⟨n, Or.inr ⟨?_, by rw [h]; rfl⟩⟩
    rintro ⟨m, hreplied⟩
    rw [pumpLoop_of_inTime hreplied] at h
    exact nomatch h
  · exact absurd (Ran.andThen_waiting h) hended

theorem Stray.on (h : Stray callback response s) (handler : Option HandlerId) :
    Stray callback response (on E response handler s) := by
  refine ⟨⟨(on_slots response handler s).symm ▸ h.slots, fun type htype => ?_⟩, ?_⟩
  · rw [on_handlers_of_ne htype]
    exact h.handlers type htype
  · rw [(untouched_on response handler s).connectHandler]
    exact h.connectHandler

/-- A request that begins after some slices of its call, in a connection where
no lambda is installed and the handlers are as they were before the call. -/
theorem roundTrip_cleanedUp {k : Nat} (hstate : s.state = .connected)
    (hresponse : response ≤ E.registry.messageIdMax) (hreplaced : ¬ Replaces E slices response)
    (hcallback : callback ∈ lambdas)
    (hlambdas : ∀ lambda ∈ lambdas, Withheld E slices lambda ∧ Stray lambda response s)
    (hbefore : ∀ type, ¬ Replaces E slices type → s.handlers type = before.handlers type)
    (hended : (roundTrip E call callback request response timeout value
      (slices.drop k) s).outcome ≠ .waiting) :
    CleanedUp (Replaces E slices) lambdas before
        (roundTrip E call callback request response timeout value (slices.drop k) s).connection ↔
      before.handlers response = none ∧
        RepliedInTime E callback request response timeout (slices.drop k) s := by
  obtain ⟨n, hend⟩ := roundTrip_connection hstate hended
  have hstray : ∀ lambda ∈ lambdas, Stray lambda response
      (pumped E ((slices.drop k).take n) (ask E callback request response s)) := by
    intro lambda hlambda
    have hon := (hlambdas lambda hlambda).2.on (E := E) (some callback)
    have hask : Stray lambda response (ask E callback request response s) :=
      ⟨⟨hon.slots, hon.handlers⟩, hon.connectHandler⟩
    exact hask.pumped ((hlambdas lambda hlambda).1.drop k) n
  rcases hend with ⟨hreplied, hconnection⟩ | ⟨hreplied, hconnection⟩
  · -- the slot of the reply is empty now, and every other is as it was
    rw [hconnection]
    have hempty := on_handlers_self hresponse none
      (pumped E ((slices.drop k).take n) (ask E callback request response s))
    constructor
    · intro hclean
      refine ⟨?_, hreplied⟩
      cases hhandler : before.handlers response with
      | none => rfl
      | some handler =>
          have hrestored := hclean.restored response handler hreplaced hhandler
          rw [hempty] at hrestored
          exact nomatch hrestored
    · rintro ⟨hvacant, -⟩
      refine ⟨fun lambda hlambda hretains => ?_, fun type handler hnot hhandler => ?_⟩
      · refine ((hstray lambda hlambda).on (E := E) none).released ?_ hretains
        rw [hempty]
        nofun
      · have htype : type ≠ response := by
          rintro rfl
          rw [hvacant] at hhandler
          exact nomatch hhandler
        rw [on_handlers_of_ne htype, pumped_handlers fun h => hnot h.of_drop]
        show (on E response (some callback) s).handlers type = some handler
        rw [on_handlers_of_ne htype, hbefore type hnot, hhandler]
  · -- time is up and the lambda is still installed
    rw [hconnection]
    refine iff_of_false (fun hclean => hclean.released callback hcallback ?_) fun h => hreplied h.2
    refine Or.inr (Or.inr ⟨response, ?_⟩)
    rw [pumped_handlers fun h => hreplaced h.of_drop]
    exact on_handlers_self hresponse (some callback) s

end

/-- A request that is the whole call. -/
theorem roundTrip_alone {α : Type} {call : String} {request : UInt32} {timeout : Int}
    {value : List ProtoMessage → α} (hresponse : response ≤ E.registry.messageIdMax)
    (hreplaced : ¬ Replaces E slices response) (hown : Own E slices s callback)
    (hended : (roundTrip E call callback request response timeout value slices s).outcome ≠
      .waiting) :
    CleanedUp (Replaces E slices) [callback] s
        (roundTrip E call callback request response timeout value slices s).connection ↔
      (s.state = .connected → s.handlers response = none ∧
        RepliedInTime E callback request response timeout slices s) := by
  by_cases hstate : s.state = .connected
  · rw [forall_prop_of_true hstate]
    refine roundTrip_cleanedUp (k := 0) hstate hresponse hreplaced (List.mem_singleton_self _) ?_
      (fun _ _ => rfl) hended
    intro lambda hlambda
    rw [List.mem_singleton.mp hlambda]
    exact ⟨hown.toWithheld, hown.stray response⟩
  · have hthrew : (roundTrip E call callback request response timeout value slices s).connection =
        s := by
      unfold roundTrip
      rw [if_pos hstate]
    rw [hthrew]
    refine iff_of_true ⟨fun lambda hlambda => ?_, fun _ _ _ h => h⟩ fun h => absurd h hstate
    rw [List.mem_singleton.mp hlambda]
    exact hown.retains

/-! ## The calls -/

/-- A blocking call, with the numbers of its lambdas. -/
inductive BlockingCall where
  | connect (onDone callback : HandlerId)
  | deviceInfo (callback : HandlerId)
  | listEntities (callback : HandlerId)

namespace BlockingCall

def lambdas : BlockingCall → List HandlerId
  | .connect onDone callback => [onDone, callback]
  | .deviceInfo callback => [callback]
  | .listEntities callback => [callback]

/-- The reply that the call waits for. -/
def reply : BlockingCall → UInt32
  | .connect _ _ => MessageId.listEntitiesDoneResponse
  | .deviceInfo _ => MessageId.deviceInfoResponse
  | .listEntities _ => MessageId.listEntitiesDoneResponse

/-- The call, without its value. -/
def run (E : Environment σ) (message : ErrorCode → CString) (client : SyncClient)
    (slices : List Slice) (s : Connection σ) : BlockingCall → Ran σ Unit
  | .connect onDone callback => client.connect E message onDone callback slices s
  | .deviceInfo callback =>
      (client.deviceInfo E callback slices s).andThen fun slices s => ⟨.returned (), s, slices⟩
  | .listEntities callback => client.listEntities E callback slices s

/-- The application does not start an attempt of its own while `connect` waits. -/
def Alone (slices : List Slice) : BlockingCall → Prop
  | .connect _ _ => ∀ slice ∈ slices, ∀ e ∈ slice, e.isStart = false
  | _ => True

end BlockingCall

/-- `list_entities` gets its reply in time. -/
def EntitiesInTime (E : Environment σ) (client : SyncClient) (callback : HandlerId) :
    List Slice → Connection σ → Prop :=
  RepliedInTime E callback MessageId.listEntitiesRequest MessageId.listEntitiesDoneResponse
    client.requestTimeout

/-- `device_info` gets its reply in time. -/
def DeviceInfoInTime (E : Environment σ) (client : SyncClient) (callback : HandlerId) :
    List Slice → Connection σ → Prop :=
  RepliedInTime E callback MessageId.deviceInfoRequest MessageId.deviceInfoResponse
    client.requestTimeout

/-- The attempt completes in time, after `n` slices. -/
def CompletedInTime (E : Environment σ) (client : SyncClient) (onDone : HandlerId)
    (slices : List Slice) (s : Connection σ) (n : Nat) : Prop :=
  let t := start E client.host client.port onDone s
  InTime E (completed onDone) (t.executor.now + connectPumpTimeout s) slices t n

/-- No handler is installed for the reply of a request that is made, and the
reply comes in time; and `connect` is completed in time. -/
def BlockingCall.CleansUp (E : Environment σ) (client : SyncClient) (slices : List Slice)
    (s : Connection σ) : BlockingCall → Prop
  | .connect onDone callback =>
      ∃ n, CompletedInTime E client onDone slices s n ∧
        let t := pumped E (slices.take n) (start E client.host client.port onDone s)
        client.subscribeOnConnect = true → result onDone t = none → t.state = .connected →
          s.handlers MessageId.listEntitiesDoneResponse = none ∧
            EntitiesInTime E client callback (slices.drop n) (subscribe E t)
  | .deviceInfo callback =>
      s.state = .connected → s.handlers MessageId.deviceInfoResponse = none ∧
        DeviceInfoInTime E client callback slices s
  | .listEntities callback =>
      s.state = .connected → s.handlers MessageId.listEntitiesDoneResponse = none ∧
        EntitiesInTime E client callback slices s

/-! ## `connect` -/

variable {onDone : HandlerId} {n : Nat}

theorem result_isSome (onDone : HandlerId) (o : Output) :
    (o.result onDone).isSome = o.isDone onDone := by
  cases o with
  | invoked call =>
      cases call with
      | done handler ec => by_cases h : handler = onDone <;> simp [Output.result, Output.isDone, h]
      | _ => rfl
  | _ => rfl

theorem completed_iff (s : Connection σ) : completed onDone s = true ↔ 0 < s.doneCount onDone := by
  unfold completed results doneCount
  rw [List.countP_pos_iff, Bool.not_eq_true', ← Bool.not_eq_true, List.isEmpty_iff,
    List.filterMap_eq_nil_iff]
  push Not
  refine exists_congr fun o => and_congr_right fun _ => ?_
  rw [← result_isSome, Option.isSome_iff_ne_none]

theorem InTime.unique {predicate : Connection σ → Bool} {deadline : Int} {m : Nat}
    (h : InTime E predicate deadline slices s n) (h' : InTime E predicate deadline slices s m) :
    n = m := by
  rcases Nat.lt_trichotomy n m with hlt | heq | hlt
  · exact absurd h.reached (by simp [(h'.earlier n hlt).1])
  · exact heq
  · exact absurd h'.reached (by simp [(h.earlier m hlt).1])

/-- While the application starts no other attempt, `on_done` is pending until
it is called. -/
theorem pumped_connectHandler (host : CString) (port : UInt16) (hown : Own E slices s onDone)
    (halone : ∀ slice ∈ slices, ∀ e ∈ slice, e.isStart = false) (n : Nat) :
    (pumped E (slices.take n) (start E host port onDone s)).connectHandler =
      if completed onDone (pumped E (slices.take n) (start E host port onDone s)) then none
      else some onDone := by
  obtain ⟨-, hconnect, hcount⟩ := start_pending (E := E) host port onDone s
  have hzero : (start E host port onDone s).doneCount onDone = 0 := by
    rw [hcount]
    by_contra hpos
    have hcompleted := (completed_iff s).mpr (Nat.pos_of_ne_zero hpos)
    rw [hown.completed] at hcompleted
    exact nomatch hcompleted
  have hprogress : Progress onDone (start E host port onDone s)
      (pumped E (slices.take n) (start E host port onDone s)) :=
    pumped_of (fun slice hslice e he t ht => ht.trans (progress_step e (halone slice hslice e he)))
      (.inl ⟨rfl, rfl⟩) n
  rcases hprogress with ⟨hsame, hdone⟩ | ⟨hnone, handler, hhandler, hdone⟩
  · have hnot : ¬ completed onDone (pumped E (slices.take n) (start E host port onDone s)) := by
      rw [completed_iff, hdone, hzero]
      exact Nat.lt_irrefl 0
    rw [if_neg hnot, hsame, hconnect]
  · obtain rfl := Option.some_inj.mp (hconnect.symm.trans hhandler)
    rw [if_pos rfl] at hdone
    have hcompleted : completed onDone (pumped E (slices.take n) (start E host port onDone s)) := by
      rw [completed_iff, hdone]
      exact Nat.succ_pos _
    rw [if_pos hcompleted, hnone]

variable {host : CString} {port : UInt16}

theorem started_handlers {type : UInt32} (h : ¬ Replaces E slices type) :
    (start E host port onDone s).handlers type = s.handlers type := by
  have hinv : SlotInvariant E fun t : Connection σ => t.handlers type = s.handlers type :=
    slotInvariant_handler h
  exact hinv.step (.start host port onDone) rfl (fun _ _ _ _ => rfl) nofun

theorem Confined.started (h : Withheld E slices callback) (hs : Confined callback response s) :
    Confined callback response (start E host port onDone s) := by
  have hinv : SlotInvariant E (Confined (σ := σ) callback response) :=
    slotInvariant_confined h.calls
  exact hinv.step (.start host port onDone) hs (fun _ _ _ _ => ⟨hs.slots, hs.handlers⟩) nofun

/-- What `connect` finds once its attempt has completed: no lambda is installed
or pending, and the handlers are as they were. -/
theorem completed_stray {lambdas : List HandlerId} {response : UInt32}
    (hlambdas : ∀ lambda ∈ lambdas, Own E slices s lambda)
    (halone : ∀ slice ∈ slices, ∀ e ∈ slice, e.isStart = false) (honDone : onDone ∈ lambdas)
    (h : completed onDone (pumped E (slices.take n) (start E host port onDone s)) = true) :
    ∀ lambda ∈ lambdas, Withheld E slices lambda ∧
      Stray lambda response (pumped E (slices.take n) (start E host port onDone s)) := by
  intro lambda hlambda
  have hown := hlambdas lambda hlambda
  have hstarted : Confined lambda response (start E host port onDone s) :=
    (hown.stray response).toConfined.started hown.toWithheld
  refine ⟨hown.toWithheld, hstarted.pumped hown.toWithheld n, ?_⟩
  have hnone := pumped_connectHandler host port (hlambdas onDone honDone) halone n
  rw [if_pos h] at hnone
  rw [hnone]
  nofun

/-- From a completed attempt on, `connect` cleans up exactly if it does not go
on to `list_entities` or that call cleans up. -/
theorem finish_cleanedUp {message : ErrorCode → CString} {client : SyncClient}
    {onDone callback : HandlerId}
    (hresponse : MessageId.listEntitiesDoneResponse ≤ E.registry.messageIdMax)
    (hreplaced : ¬ Replaces E slices MessageId.listEntitiesDoneResponse)
    (hlambdas : ∀ lambda ∈ [onDone, callback], Own E slices s lambda)
    (hstray : ∀ lambda ∈ [onDone, callback], Withheld E slices lambda ∧
      Stray lambda MessageId.listEntitiesDoneResponse t)
    (hhandlers : ∀ type, ¬ Replaces E slices type → t.handlers type = s.handlers type)
    (hended : (client.finish E message onDone callback (slices.drop n) t).outcome ≠ .waiting) :
    CleanedUp (Replaces E slices) [onDone, callback] s
        (client.finish E message onDone callback (slices.drop n) t).connection ↔
      (client.subscribeOnConnect = true → result onDone t = none → t.state = .connected →
        s.handlers MessageId.listEntitiesDoneResponse = none ∧
          EntitiesInTime E client callback (slices.drop n) (subscribe E t)) := by
  have hclean : CleanedUp (Replaces E slices) [onDone, callback] s t := by
    refine ⟨fun lambda hlambda => ?_, fun type handler hnot hhandler => ?_⟩
    · refine (hstray lambda hlambda).2.released ?_
      rw [hhandlers _ hreplaced]
      exact fun hslot => (hlambdas lambda hlambda).retains (Or.inr (Or.inr ⟨_, hslot⟩))
    · exact (hhandlers type hnot).trans hhandler
  unfold finish at hended ⊢
  cases hresult : result onDone t with
  | some ec =>
      refine iff_of_true ?_ fun _ h => nomatch h
      dsimp only
      split <;> exact hclean
  | none =>
      rw [hresult] at hended
      dsimp only at hended ⊢
      by_cases hsubscribe : client.subscribeOnConnect = true
      · rw [if_pos hsubscribe] at hended ⊢
        unfold subscribeStates at hended ⊢
        by_cases hstate : t.state = .connected
        · rw [if_neg (not_not.mpr hstate), Ran.andThen_returned] at hended ⊢
          rw [forall_prop_of_true hsubscribe, forall_prop_of_true rfl, forall_prop_of_true hstate]
          have hsubscribed : ∀ lambda ∈ [onDone, callback], Withheld E slices lambda ∧
              Stray lambda MessageId.listEntitiesDoneResponse (subscribe E t) := by
            intro lambda hlambda
            obtain ⟨hwithheld, h⟩ := hstray lambda hlambda
            exact ⟨hwithheld, ⟨h.slots, h.handlers⟩, h.connectHandler⟩
          exact roundTrip_cleanedUp hstate hresponse hreplaced (by simp) hsubscribed hhandlers
            hended
        · rw [if_pos hstate, Ran.andThen_threw]
          exact iff_of_true hclean fun _ _ h => absurd h hstate
      · rw [if_neg hsubscribe]
        exact iff_of_true hclean fun h => absurd h hsubscribe

/-- `connect` cleans up exactly if its attempt completes in time, and, when it
goes on to `list_entities`, that call does. -/
theorem connect_cleanedUp {message : ErrorCode → CString} {client : SyncClient}
    {onDone callback : HandlerId}
    (hresponse : MessageId.listEntitiesDoneResponse ≤ E.registry.messageIdMax)
    (hreplaced : ¬ Replaces E slices MessageId.listEntitiesDoneResponse)
    (hlambdas : ∀ lambda ∈ [onDone, callback], Own E slices s lambda)
    (halone : ∀ slice ∈ slices, ∀ e ∈ slice, e.isStart = false)
    (hended : (client.connect E message onDone callback slices s).outcome ≠ .waiting) :
    CleanedUp (Replaces E slices) [onDone, callback] s
        (client.connect E message onDone callback slices s).connection ↔
      BlockingCall.CleansUp E client slices s (.connect onDone callback) := by
  have hown := hlambdas onDone (by simp)
  unfold connect pumpUntil at hended ⊢
  rcases pumpLoop_cases (E := E) (completed onDone) (connectPumpTimeout s)
      ((start E client.host client.port onDone s).executor.now + connectPumpTimeout s) slices
      (start E client.host client.port onDone s) with ⟨n, h⟩ | ⟨n, hpending, h⟩ | h
  · -- the attempt has completed
    rw [pumpLoop_of_inTime h, Ran.andThen_returned] at hended ⊢
    refine (finish_cleanedUp hresponse hreplaced hlambdas
      (completed_stray hlambdas halone (by simp) h.reached) (fun type htype => ?_) hended).trans ?_
    · exact (pumped_handlers htype _ n).trans (started_handlers htype)
    · refine ⟨fun hn => ⟨n, h, hn⟩, ?_⟩
      rintro ⟨m, hm, hcleans⟩
      rwa [← h.unique hm] at hcleans
  · -- time is up and `on_done` is still pending
    rw [h, Ran.andThen_threw]
    refine iff_of_false (fun hclean => hclean.released onDone (by simp) (Or.inl ?_)) ?_
    · have hconnect := pumped_connectHandler client.host client.port hown halone n
      rwa [hpending, if_neg Bool.false_ne_true] at hconnect
    · rintro ⟨m, hm, -⟩
      rw [pumpLoop_of_inTime hm] at h
      exact nomatch h
  · exact absurd (Ran.andThen_waiting h) hended

/-- A blocking call that has returned or thrown has cleaned up after itself if
and only if the condition holds. -/
theorem cleansUp_iff (message : ErrorCode → CString) (client : SyncClient) (call : BlockingCall)
    (slices : List Slice) (s : Connection σ)
    (hreply : call.reply ≤ E.registry.messageIdMax) (hreplaced : ¬ Replaces E slices call.reply)
    (hlambdas : ∀ lambda ∈ call.lambdas, Own E slices s lambda) (halone : call.Alone slices)
    (hended : (call.run E message client slices s).outcome ≠ .waiting) :
    CleanedUp (Replaces E slices) call.lambdas s (call.run E message client slices s).connection ↔
      call.CleansUp E client slices s := by
  cases call with
  | connect onDone callback => exact connect_cleanedUp hreply hreplaced hlambdas halone hended
  | deviceInfo callback =>
      have hrun : (BlockingCall.run E message client slices s (.deviceInfo callback)).connection =
          (client.deviceInfo E callback slices s).connection := Ran.andThen_connection _
      rw [hrun]
      refine roundTrip_alone hreply hreplaced (hlambdas callback (List.mem_singleton_self _)) ?_
      exact fun hwaiting => hended (Ran.andThen_waiting hwaiting)
  | listEntities callback =>
      exact roundTrip_alone hreply hreplaced (hlambdas callback (List.mem_singleton_self _)) hended

/-- The connection's own messages and `ListEntitiesDoneResponse`, which has no
fields. -/
def listRegistry : Registry where
  messageIdMax := 19
  others id := if id = MessageId.listEntitiesDoneResponse then some EmptyMessage else none
  core_le := by decide
  others_le id h := by
    by_cases hid : id = MessageId.listEntitiesDoneResponse
    · rw [hid]
      decide
    · rw [if_neg hid] at h
      exact nomatch h

def listEnvironment : Environment PlaintextFrameHelper :=
  .quiet PlaintextFrameHelper.frameHelper listRegistry

/-- The application connects and the device answers. -/
def opening : Slice :=
  [.start (lit "device.local") 6053 0, .connectResult none, .bytes [0x00, 0x00, 0x02]]

/-- A session that has just become `Connected`. -/
def session : Connection PlaintextFrameHelper := pumped listEnvironment [opening] (create {} {})

theorem not_replaces_of_quiet {type : UInt32} (h : ∀ slice ∈ slices, ∀ handler,
    .call (.on type handler) ∉ slice) : ¬ Replaces listEnvironment slices type := by
  rintro (⟨call, s, handler, hcall⟩ | ⟨slice, hslice, handler, hcall⟩)
  · exact nomatch hcall
  · exact h slice hslice handler hcall

theorem session_handlers (type : UInt32) : session.handlers type = none := by
  have hreplaced : ¬ Replaces listEnvironment [opening] type :=
    not_replaces_of_quiet (by simp [opening])
  exact pumped_handlers hreplaced (create {} {}) 1

def syncClient : SyncClient where
  host := lit "device.local"

/-- The reply to `list_entities`. -/
def listDone : Event := .bytes [0x00, 0x00, 0x13]

/-- A reply that comes in time finds an empty slot. -/
theorem cleansUp_iff_prompt : CleanedUp (Replaces listEnvironment [[listDone]]) [5] session
    (syncClient.listEntities listEnvironment 5 [[listDone]] session).connection := by
  have hown : Own listEnvironment [[listDone]] session 5 := by
    refine ⟨⟨fun _ _ _ hc => absurd hc List.not_mem_nil, by simp [listDone, Event.Names]⟩, ?_,
      by decide +kernel⟩
    rintro (hconnect | hslots | ⟨type, htype⟩)
    · exact absurd hconnect (by decide +kernel)
    · exact absurd hslots (by decide +kernel)
    · rw [session_handlers] at htype
      exact nomatch htype
  have hreplied : EntitiesInTime listEnvironment syncClient 5 [[listDone]] session := by
    refine ⟨1, by decide, by decide +kernel, fun m hm => ?_⟩
    obtain rfl : m = 0 := by omega
    decide +kernel
  have hended : (BlockingCall.run listEnvironment (fun _ => []) syncClient [[listDone]] session
      (.listEntities 5)).outcome ≠ .waiting := by
    decide +kernel
  have hiff := cleansUp_iff (fun _ => []) syncClient (.listEntities 5) [[listDone]] session
    (by decide) (not_replaces_of_quiet (by simp [listDone]))
    (fun lambda hlambda => List.mem_singleton.mp hlambda ▸ hown) trivial hended
  exact hiff.mpr fun _ => ⟨session_handlers _, hreplied⟩

/-- When `list_entities` times out its lambda stays installed, and the late
reply calls it; when it returns, the handler that the application had installed
is gone. -/
theorem listEntities_leaves :
    let late := syncClient.listEntities listEnvironment 5 [[.elapse 30000]] session
    let installed := on listEnvironment MessageId.listEntitiesDoneResponse (some 9) session
    let prompt := syncClient.listEntities listEnvironment 5 [[listDone]] installed
    (late.outcome = .threw (operationTimedOut 30000) ∧
      ¬ CleanedUp (Replaces listEnvironment [[.elapse 30000]]) [5] session late.connection ∧
      replied 5 (step listEnvironment late.connection listDone) = true) ∧
    (prompt.outcome = .returned () ∧
      ¬ CleanedUp (Replaces listEnvironment [[listDone]]) [5] installed prompt.connection) := by
  dsimp only
  have hlate : (syncClient.listEntities listEnvironment 5 [[.elapse 30000]]
      session).connection.handlers 19 = some 5 := by
    decide +kernel
  have hinstalled : (on listEnvironment MessageId.listEntitiesDoneResponse (some 9)
      session).handlers 19 = some 9 := by
    decide +kernel
  have hprompt : (syncClient.listEntities listEnvironment 5 [[listDone]]
      (on listEnvironment MessageId.listEntitiesDoneResponse (some 9)
        session)).connection.handlers 19 = none := by
    decide +kernel
  refine ⟨⟨by decide +kernel, fun hclean => ?_, by decide +kernel⟩, by decide +kernel,
    fun hclean => ?_⟩
  · exact hclean.released 5 (List.mem_singleton_self _) (Or.inr (Or.inr ⟨19, hlate⟩))
  · have hrestored := hclean.restored 19 9 (not_replaces_of_quiet (by simp [listDone])) hinstalled
    rw [hprompt] at hrestored
    exact nomatch hrestored

end SyncClient

end EsphomeApi
