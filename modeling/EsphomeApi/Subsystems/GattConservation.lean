/-
EsphomeApi.Subsystems.GattConservation — one-shot callbacks are invoked once, by
the first message that resolves their key.

The reference is the log alone: `waiting T key log` are the callbacks registered
for the key after the last message that resolved it. `Accounted` relates a state
to it, also while a lambda runs: what it has invoked, what is due and what it has
yet to take are together the callbacks that were waiting when its message arrived.
The callbacks do not call the proxy here (`quiet`); `GattAnswers` says what can
happen when they do.
-/
import EsphomeApi.Subsystems.GattMoves

namespace EsphomeApi

open Library

namespace BluetoothProxy

variable {s t : BluetoothProxy}

/-! ## The reference -/

/-- The keys that a message resolves. -/
def Message.resolves : Message → List (Table × UInt64)
  | .readResponse address handle _ => [(.reads, gattKey address handle)]
  | .writeResponse address handle => [(.writes, gattKey address handle)]
  | .getServicesDoneResponse address => [(.services, address)]
  | .errorResponse address handle _ =>
      [(.reads, gattKey address handle), (.writes, gattKey address handle), (.services, address)]
  | .notifyDataResponse _ _ _ | .getServicesResponse _ _ => []

def Occurrence.resolves (T : Table) (key : UInt64) : Occurrence → Bool
  | .received m => (T, key) ∈ m.resolves
  | _ => false

/-- The callback that an entry of the log registers for a key. -/
def Occurrence.registers (T : Table) (key : UInt64) : Occurrence → Option Request
  | .registered r => if r.table = T ∧ r.key = key then some r else none
  | _ => none

/-- The callbacks registered for a key after the last message that resolved it. -/
def waiting (T : Table) (key : UInt64) (log : List Occurrence) : List Request :=
  Library.waiting (Occurrence.resolves T key) (Occurrence.registers T key) log

/-- The callbacks that wait for a message, in the order in which they are invoked. -/
def awaiting (m : Message) (log : List Occurrence) : List Request :=
  m.resolves.flatMap fun entry => waiting entry.1 entry.2 log

/-- The callback that an entry of the log says was invoked by the message at `k`. -/
def Occurrence.completes (k : Nat) : Occurrence → Option Request
  | .completed k' r _ => if k' = k then some r else none
  | _ => none

def completions (k : Nat) (log : List Occurrence) : List Request :=
  log.filterMap (Occurrence.completes k)

/-- The entry that a lambda takes. -/
def Work.entry : Work → Option (Table × UInt64)
  | .take T key _ => some (T, key)
  | _ => none

/-- The keys that a lambda has yet to resolve. -/
def entries (todo : List Work) : List (Table × UInt64) := todo.filterMap Work.entry

/-- Each callback is invoked at most once, by the first later message that resolves
its key; a message invokes all that wait on its keys, in the order of registration,
when its lambda is through; and the callbacks that are pending are those that no
message has resolved, where the one that is being handled resolves a key when its
lambda takes the entry. -/
structure Conserved (s : BluetoothProxy) : Prop where
  once : ∀ {i j k k' : Nat} {r result result'}, s.log[i]? = some (.completed k r result) →
    s.log[j]? = some (.completed k' r result') → i = j
  first : ∀ {k r result}, .completed k r result ∈ s.log →
    s.log[r.number]? = some (.registered r) ∧ r.number < k ∧
      (∃ m, s.log[k]? = some (.received m) ∧ (r.table, r.key) ∈ m.resolves) ∧
      ∀ j m, r.number < j → j < k → s.log[j]? = some (.received m) →
        (r.table, r.key) ∉ m.resolves
  order : ∀ {k m}, s.log[k]? = some (.received m) →
    completions k s.log <+: awaiting m (s.log.take k)
  together : ∀ {k m}, s.log[k]? = some (.received m) → k ≠ s.current ∨ s.todo = [] →
    completions k s.log = awaiting m (s.log.take k)
  pending : ∀ T key, s.pending T key =
    waiting T key (if (T, key) ∈ entries s.todo then s.log.take s.current else s.log)

/-! ## Stretches of the log -/

theorem waiting_concat (T : Table) (key : UInt64) (log : List Occurrence) (o : Occurrence) :
    waiting T key (log ++ [o]) =
      if o.resolves T key then [] else waiting T key log ++ (o.registers T key).toList :=
  Library.waiting_concat log o

/-- Entries that neither resolve nor register. -/
theorem waiting_concat_of_silent {T : Table} {key : UInt64} {log : List Occurrence}
    {o : Occurrence} (hresolves : o.resolves T key = false)
    (hregisters : o.registers T key = none) : waiting T key (log ++ [o]) = waiting T key log := by
  simp [waiting_concat, hresolves, hregisters]

theorem waiting_entries (T : Table) (key : UInt64) (log : List Occurrence) (c : Call) (n : Nat) :
    waiting T key (log ++ c.entries n) =
      waiting T key log ++
        (c.registration n).toList.filter fun r => r.table = T ∧ r.key = key := by
  have hsent (l : List Occurrence) :
      waiting T key (l ++ (c.sends.map .sent).toList) = waiting T key l := by
    cases c.sends with
    | none => simp
    | some m => exact waiting_concat_of_silent rfl rfl
  rw [Call.entries, ← List.append_assoc, hsent]
  cases c.registration n with
  | none => simp
  | some r =>
      by_cases h : r.table = T ∧ r.key = key <;>
        simp [waiting_concat, Occurrence.resolves, Occurrence.registers, h]

theorem completions_append (k : Nat) (l l' : List Occurrence) :
    completions k (l ++ l') = completions k l ++ completions k l' := List.filterMap_append

theorem completions_entries (k : Nat) (c : Call) (n : Nat) : completions k (c.entries n) = [] := by
  cases hreg : c.registration n <;> cases hsent : c.sends <;>
    simp [completions, Call.entries, hreg, hsent, Occurrence.completes]

/-- Nothing has been invoked by a message that is still to come. -/
theorem completions_length (hs : Consistent s) : completions s.log.length s.log = [] := by
  rw [completions, List.filterMap_eq_nil_iff]
  intro o ho
  cases o with
  | completed k r result =>
      obtain ⟨m, hm, -⟩ := hs.completed ho
      have hlt : k < s.log.length := (List.getElem?_eq_some_iff.mp hm).1
      simp [Occurrence.completes, Nat.ne_of_lt hlt]
  | _ => rfl

/-! ## The account of a run -/

/-- The callbacks that will be invoked, if those that wait do so in `log`. -/
def Work.callbacks (log : List Occurrence) : Work → List Request
  | .take T key _ => waiting T key log
  | .once r _ => [r]
  | _ => []

def callbacks (log : List Occurrence) (todo : List Work) : List Request :=
  todo.flatMap (Work.callbacks log)

/-- The application calls the proxy while no message is being handled. -/
def quiet : Guard where
  call s _ := s.todo = []
  stable htodo _ h := htodo.trans h

structure Accounted (s : BluetoothProxy) : Prop where
  keys : (entries s.todo).Nodup
  -- while a message is handled nothing is registered
  dispatch : s.todo ≠ [] → ∀ T key,
    waiting T key s.log = waiting T key (s.log.take (s.current + 1))
  pending : ∀ T key, s.pending T key =
    waiting T key (if (T, key) ∈ entries s.todo then s.log.take s.current else s.log)
  invoked : ∀ {k m}, s.log[k]? = some (.received m) →
    completions k s.log ++
        (if k = s.current then callbacks (s.log.take s.current) s.todo else []) =
      awaiting m (s.log.take k)

theorem entries_lambda (m : Message) : entries (lambda m) = m.resolves := by
  cases m <;> rfl

theorem callbacks_lambda (m : Message) (log : List Occurrence) :
    callbacks log (lambda m) = awaiting m log := by
  cases m <;> rfl

theorem resolves_tables (m : Message) : m.resolves.Pairwise fun e e' => e.1 ≠ e'.1 := by
  cases m <;> simp [Message.resolves]

theorem resolves_nodup (m : Message) : m.resolves.Nodup :=
  (resolves_tables m).imp fun h heq => h (congrArg Prod.fst heq)

theorem entries_due (T : Table) (key : UInt64) (result : Result) (todo : List Work) :
    entries (due T key result s ++ todo) = entries todo := by
  simp [entries, due, Work.entry]

theorem callbacks_due (log : List Occurrence) (T : Table) (key : UInt64) (result : Result)
    (todo : List Work) :
    callbacks log (due T key result s ++ todo) = s.pending T key ++ callbacks log todo := by
  have hsingle : (s.pending T key).flatMap (fun r => [r]) = s.pending T key := by simp
  rw [callbacks, List.flatMap_append, due, List.flatMap_map]
  exact congrArg (· ++ callbacks log todo) hsingle

theorem accounted_init : Accounted {} where
  keys := List.nodup_nil
  dispatch h := absurd rfl h
  pending T key := by cases T <;> rfl
  invoked h := by simp at h

theorem waiting_received (T : Table) (key : UInt64) (log : List Occurrence) (m : Message) :
    waiting T key (log ++ [.received m]) =
      if (T, key) ∈ m.resolves then [] else waiting T key log := by
  simp [waiting_concat, Occurrence.resolves, Occurrence.registers]

/-- Between messages the tables hold what waits. -/
theorem Accounted.pending_of_idle (h : Accounted s) (hidle : s.todo = []) (T : Table)
    (key : UInt64) : s.pending T key = waiting T key s.log := by
  rw [h.pending, hidle]
  rfl

theorem Accounted.completions_of_ne (h : Accounted s) {k : Nat} {m : Message}
    (hk : s.log[k]? = some (.received m)) (hne : k ≠ s.current ∨ s.todo = []) :
    completions k s.log = awaiting m (s.log.take k) := by
  have hinvoked := h.invoked hk
  rcases hne with hne | hidle
  · rwa [if_neg hne, List.append_nil] at hinvoked
  · rw [hidle] at hinvoked
    simpa [callbacks] using hinvoked

theorem Accounted.receive (h : Accounted s) (hs : Consistent s) (m : Message)
    (hidle : s.todo = []) : Accounted (s.receive m) := by
  have hpending := h.pending_of_idle hidle
  have hlog : (s.receive m).log = s.log ++ [.received m] := rfl
  have hcurrent : (s.receive m).current = s.log.length := rfl
  -- without the lambdas nothing waits
  have hunheard (hreg : s.gattRegistered = false) (T : Table) (key : UInt64) :
      waiting T key s.log = [] := by
    rw [← hpending, List.eq_nil_iff_forall_not_mem]
    intro r hr
    simp [hs.handlers hr] at hreg
  constructor
  case keys =>
    refine List.Nodup.sublist ((receive_todo_sublist m).filterMap _) ?_
    rw [← entries, entries_lambda]
    exact resolves_nodup m
  case dispatch =>
    intro _ T key
    rw [hlog, hcurrent, List.take_of_length_le (by simp)]
  case pending =>
    intro T key
    rw [pending_receive, hpending, hlog, hcurrent, List.take_left]
    cases hreg : s.gattRegistered with
    | true =>
        have htodo : (s.receive m).todo = lambda m := by simp [BluetoothProxy.receive, hreg]
        rw [htodo, entries_lambda]
        split
        · rfl
        · rename_i hother
          rw [waiting_received, if_neg hother]
    | false =>
        have htodo : (s.receive m).todo = [] := by simp [BluetoothProxy.receive, hreg]
        have hnone : (T, key) ∉ entries [] := List.not_mem_nil
        rw [htodo, if_neg hnone, waiting_received, hunheard hreg, ite_self]
  case invoked =>
    intro k m' hk
    have hnone : completions k [.received m] = [] := rfl
    rw [hlog] at hk ⊢
    rw [completions_append, hnone, List.append_nil, hcurrent, List.take_left]
    rcases getElem?_concat_eq_some.mp hk with hold | ⟨rfl, ho⟩
    · have hlt : k < s.log.length := (List.getElem?_eq_some_iff.mp hold).1
      rw [if_neg (Nat.ne_of_lt hlt), List.append_nil, h.completions_of_ne hold (.inr hidle),
        List.take_append_of_le_length (Nat.le_of_lt hlt)]
    · cases ho
      rw [completions_length hs, if_pos rfl, List.take_left, List.nil_append]
      cases hreg : s.gattRegistered with
      | true =>
          have htodo : (s.receive m).todo = lambda m := by simp [BluetoothProxy.receive, hreg]
          rw [htodo, callbacks_lambda]
      | false =>
          have htodo : (s.receive m).todo = [] := by simp [BluetoothProxy.receive, hreg]
          rw [htodo, awaiting]
          simp [callbacks, hunheard hreg]

theorem Accounted.called (h : Accounted s) (hidle : s.todo = []) {c : Call}
    (hc : Called c s t) : Accounted t := by
  have hidle' : t.todo = [] := hc.todo.trans hidle
  constructor
  case keys =>
    rw [hidle']
    exact List.nodup_nil
  case dispatch => exact fun hne => absurd hidle' hne
  case pending =>
    intro T key
    have hnone : (T, key) ∉ entries [] := List.not_mem_nil
    rw [hc.pending, h.pending_of_idle hidle, hidle', if_neg hnone, hc.log, waiting_entries]
  case invoked =>
    intro k m hk
    have hold : s.log[k]? = some (.received m) := by
      rcases hc.getElem?_log hk with hold | ⟨-, r, -, ho⟩ | ⟨m', ho⟩
      · exact hold
      · cases ho
      · cases ho
    have hlt : k < s.log.length := (List.getElem?_eq_some_iff.mp hold).1
    rw [hc.log, completions_append, completions_entries, hidle',
      List.take_append_of_le_length (Nat.le_of_lt hlt), h.completions_of_ne hold (.inr hidle)]
    simp [callbacks]

/-- A turn that takes nothing. -/
theorem Accounted.turn (h : Accounted s) (hs : Consistent s) {work : Work} {rest : List Work}
    (hwork : s.todo = work :: rest) (hentry : work.entry = none) {more : List Occurrence}
    (htodo : t.todo = rest) (hcurrent : t.current = s.current) (hlog : t.log = s.log ++ more)
    (hpending : ∀ T key, t.pending T key = s.pending T key)
    (hsilent : ∀ T key l, waiting T key (l ++ more) = waiting T key l)
    (hreceived : ∀ m, .received m ∉ more)
    (hcompletions : ∀ k l, completions k more = if k = s.current then work.callbacks l else []) :
    Accounted t := by
  obtain ⟨m, hm, -⟩ := hs.next hwork
  have hlt : s.current < s.log.length := (List.getElem?_eq_some_iff.mp hm).1
  have hentries : entries s.todo = entries t.todo := by
    rw [hwork, htodo, entries, entries, List.filterMap_cons_none hentry]
  have hne : s.todo ≠ [] := by simp [hwork]
  constructor
  case keys => exact hentries ▸ h.keys
  case dispatch =>
    intro _ T key
    rw [hlog, hsilent, hcurrent, List.take_append_of_le_length hlt]
    exact h.dispatch hne T key
  case pending =>
    intro T key
    rw [hpending, h.pending, hentries, hlog, hcurrent,
      List.take_append_of_le_length (Nat.le_of_lt hlt)]
    split
    · rfl
    · exact (hsilent ..).symm
  case invoked =>
    intro k m' hk
    rw [hlog] at hk
    have hold := getElem?_of_append hk (hreceived m')
    have hklt : k < s.log.length := (List.getElem?_eq_some_iff.mp hold).1
    have hbefore := h.invoked hold
    rw [hlog, completions_append, hcompletions k (s.log.take s.current), hcurrent, htodo,
      List.take_append_of_le_length (Nat.le_of_lt hlt),
      List.take_append_of_le_length (Nat.le_of_lt hklt), ← hbefore, hwork]
    split
    · rw [List.append_assoc]
      rfl
    · simp

theorem mem_resolves_of_take {m : Message} {T : Table} {key : UInt64} {result : Result}
    (h : .take T key result ∈ lambda m) : (T, key) ∈ m.resolves := by
  rw [← entries_lambda]
  exact List.mem_filterMap.mpr ⟨_, h, rfl⟩

theorem Accounted.take (h : Accounted s) (hs : Consistent s) {T : Table} {key : UInt64}
    {result : Result} {rest : List Work} (htodo : s.todo = .take T key result :: rest) :
    Accounted (take T key result { s with todo := rest }) := by
  obtain ⟨m, hm, hdue⟩ := hs.next htodo
  have hresolves : (T, key) ∈ m.resolves := by
    cases hdue with
    | listed htake => exact mem_resolves_of_take htake
  have hentries : entries s.todo = (T, key) :: entries rest := by rw [htodo]; rfl
  have hne : s.todo ≠ [] := by simp [htodo]
  have hkeys := h.keys
  rw [hentries, List.nodup_cons] at hkeys
  constructor
  case keys =>
    rw [take_todo, entries_due]
    exact hkeys.2
  case dispatch =>
    intro _ T' key'
    rw [take_log, take_current]
    exact h.dispatch hne T' key'
  case pending =>
    intro T' key'
    rw [pending_take, pending_todo, take_todo, entries_due, take_log, take_current]
    split
    · rename_i hsame
      obtain ⟨rfl, rfl⟩ := hsame
      rw [if_neg hkeys.1, h.dispatch hne, List.take_add_one, hm, Option.toList_some,
        waiting_received, if_pos hresolves]
    · rename_i hother
      have hmem : (T', key') ∈ entries s.todo ↔ (T', key') ∈ entries rest := by
        rw [hentries, List.mem_cons, Prod.mk.injEq]
        exact or_iff_right hother
      rw [h.pending, if_congr hmem rfl rfl]
  case invoked =>
    intro k m' hk
    rw [take_log] at hk
    have hwaiting : s.pending T key = waiting T key (s.log.take s.current) := by
      rw [h.pending, if_pos (hentries ▸ List.mem_cons_self)]
    rw [take_log, take_current, take_todo, callbacks_due, pending_todo, hwaiting, ← h.invoked hk,
      htodo]
    rfl

theorem accounted_kept : KeptByMoves Consistent quiet Accounted where
  called _ h hidle hc := h.called hidle hc
  received m hs h hidle := h.receive hs m hidle
  skipped hs h htodo := by
    refine h.turn hs htodo rfl rfl rfl (List.append_nil _).symm (by simp) (by simp) (by simp) ?_
    intro k l
    simp [completions, Work.callbacks]
  invoked f hs h htodo := by
    refine h.turn hs htodo rfl rfl rfl rfl (by simp) ?_ (by simp) ?_
    · exact fun T key l => waiting_concat_of_silent rfl rfl
    · intro k l
      simp [completions, Occurrence.completes, Work.callbacks]
  appended hs h htodo := by
    refine h.turn hs htodo rfl rfl rfl (List.append_nil _).symm (by simp) (by simp) (by simp) ?_
    intro k l
    simp [completions, Work.callbacks]
  taken hs h htodo _ := h.take hs htodo
  completed {s r result rest} hs h htodo := by
    refine h.turn hs htodo rfl rfl rfl rfl (by simp) ?_ (by simp) ?_
    · exact fun T key l => waiting_concat_of_silent rfl rfl
    · intro k l
      by_cases hk : s.current = k
      · simp [completions, Occurrence.completes, Work.callbacks, hk]
      · simp [completions, Occurrence.completes, hk, Ne.symm hk]

/-! ## Conservation -/

theorem registers_eq_some {T : Table} {key : UInt64} {o : Occurrence} {r : Request}
    (h : o.registers T key = some r) : o = .registered r ∧ r.table = T ∧ r.key = key := by
  cases o with
  | registered r' =>
      rw [Occurrence.registers, Option.ite_none_right_eq_some] at h
      obtain ⟨hmatch, heq⟩ := h
      cases heq
      exact ⟨rfl, hmatch⟩
  | _ => cases h

theorem completes_eq_some {k : Nat} {o : Occurrence} {r : Request} :
    o.completes k = some r ↔ ∃ result, o = .completed k r result := by
  cases o with
  | completed k' r' result =>
      simp only [Occurrence.completes, Option.ite_none_right_eq_some, Option.some.injEq,
        Occurrence.completed.injEq]
      exact ⟨fun ⟨hk, hr⟩ => ⟨result, hk, hr, rfl⟩, fun ⟨_, hk, hr, _⟩ => ⟨hk, hr⟩⟩
  | _ => simp [Occurrence.completes]

theorem mem_completions {k : Nat} {r : Request} {log : List Occurrence} :
    r ∈ completions k log ↔ ∃ result, .completed k r result ∈ log := by
  simp only [completions, List.mem_filterMap, completes_eq_some]
  constructor
  · rintro ⟨o, ho, result, rfl⟩
    exact ⟨result, ho⟩
  · rintro ⟨result, ho⟩
    exact ⟨_, ho, result, rfl⟩

/-- What waits for a key was registered for it, and no message has resolved it
since. -/
theorem registered_of_mem_waiting {T : Table} {key : UInt64} {r : Request}
    {log : List Occurrence} (h : r ∈ waiting T key log) :
    ∃ n : Nat, log[n]? = some (.registered r) ∧ r.table = T ∧ r.key = key ∧
      ∀ (j : Nat) m, n < j → log[j]? = some (.received m) → (T, key) ∉ m.resolves := by
  obtain ⟨n, o, hn, hregisters, hsince⟩ := exists_of_mem_waiting h
  obtain ⟨rfl, htable, hkey⟩ := registers_eq_some hregisters
  refine ⟨n, hn, htable, hkey, fun j m hj hm => ?_⟩
  have hopen := hsince j _ hj hm
  simpa [Occurrence.resolves] using hopen

theorem waiting_nodup {log : List Occurrence}
    (hnumber : ∀ {n} {r : Request}, log[n]? = some (.registered r) → r.number = n) (T : Table)
    (key : UInt64) : (waiting T key log).Nodup := by
  refine List.Nodup.sublist (waiting_sublist log) (nodup_filterMap_iff.mpr ?_)
  intro i j o o' r hi hj ho ho'
  obtain ⟨rfl, -⟩ := registers_eq_some ho
  obtain ⟨rfl, -⟩ := registers_eq_some ho'
  exact (hnumber hi).symm.trans (hnumber hj)

theorem awaiting_nodup {log : List Occurrence}
    (hnumber : ∀ {n} {r : Request}, log[n]? = some (.registered r) → r.number = n) (m : Message) :
    (awaiting m log).Nodup := by
  rw [awaiting, List.nodup_flatMap]
  refine ⟨fun entry _ => waiting_nodup hnumber _ _, ?_⟩
  refine (resolves_tables m).imp fun hne r hr hr' => hne ?_
  obtain ⟨-, -, htable, -⟩ := registered_of_mem_waiting hr
  obtain ⟨-, -, htable', -⟩ := registered_of_mem_waiting hr'
  exact htable.symm.trans htable'

theorem Accounted.order (h : Accounted s) {k : Nat} {m : Message}
    (hk : s.log[k]? = some (.received m)) : completions k s.log <+: awaiting m (s.log.take k) :=
  ⟨_, h.invoked hk⟩

theorem Accounted.first (h : Accounted s) (hs : Consistent s) {k : Nat} {r : Request}
    {result : Result} (hdone : .completed k r result ∈ s.log) :
    s.log[r.number]? = some (.registered r) ∧ r.number < k ∧
      (∃ m, s.log[k]? = some (.received m) ∧ (r.table, r.key) ∈ m.resolves) ∧
      ∀ (j : Nat) m, r.number < j → j < k → s.log[j]? = some (.received m) →
        (r.table, r.key) ∉ m.resolves := by
  obtain ⟨m, hm, -⟩ := hs.completed hdone
  have hawaiting := (h.order hm).subset (mem_completions.mpr ⟨result, hdone⟩)
  obtain ⟨⟨T, key⟩, hresolves, hwaiting⟩ := List.mem_flatMap.mp hawaiting
  obtain ⟨n, hn, rfl, rfl, hsince⟩ := registered_of_mem_waiting hwaiting
  obtain ⟨hnk, hreg⟩ := getElem?_of_take hn
  obtain rfl := hs.number hreg
  refine ⟨hreg, hnk, ⟨m, hm, hresolves⟩, fun j m' hj hjk hm' => hsince j m' hj ?_⟩
  rwa [List.getElem?_take, if_pos hjk]

/-- A message that invokes a callback comes before no other that does. -/
theorem Accounted.not_lt (h : Accounted s) (hs : Consistent s) {k k' : Nat} {r : Request}
    {result result' : Result} (hdone : .completed k r result ∈ s.log)
    (hdone' : .completed k' r result' ∈ s.log) : ¬ k < k' := by
  intro hlt
  obtain ⟨-, hbefore, ⟨m, hm, hresolves⟩, -⟩ := h.first hs hdone
  obtain ⟨-, -, -, hsince⟩ := h.first hs hdone'
  exact hsince k m hbefore hlt hm hresolves

theorem Accounted.once (h : Accounted s) (hs : Consistent s) {i j k k' : Nat} {r : Request}
    {result result' : Result} (hi : s.log[i]? = some (.completed k r result))
    (hj : s.log[j]? = some (.completed k' r result')) : i = j := by
  have hdone := List.mem_of_getElem? hi
  have hdone' := List.mem_of_getElem? hj
  have hsame : k = k' :=
    Nat.le_antisymm (Nat.not_lt.mp (h.not_lt hs hdone' hdone))
      (Nat.not_lt.mp (h.not_lt hs hdone hdone'))
  subst hsame
  -- one message does not invoke a callback twice, since none waits twice for it
  obtain ⟨m, hm, -⟩ := hs.completed hdone
  have hnodup : (completions k s.log).Nodup :=
    (awaiting_nodup (fun hn => hs.number (getElem?_of_take hn).2) m).sublist (h.order hm).sublist
  exact nodup_filterMap_iff.mp hnodup hi hj (completes_eq_some.mpr ⟨result, rfl⟩)
    (completes_eq_some.mpr ⟨result', rfl⟩)

theorem Accounted.conserved (h : Accounted s) (hs : Consistent s) : Conserved s where
  once := h.once hs
  first := h.first hs
  order := h.order
  together hk hthrough := h.completions_of_ne hk hthrough
  pending := h.pending

end BluetoothProxy

end EsphomeApi
