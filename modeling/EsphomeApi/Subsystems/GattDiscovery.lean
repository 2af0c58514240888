/-
EsphomeApi.Subsystems.GattDiscovery — the services that a discovery reports.

An accumulator collects every batch for its address, whoever asked for it, and
only a `Done` or an error empties it. `Accumulates` says what it holds for a
callback that waits on it: the batches that have arrived since the callback was
registered, if at that moment the accumulator was empty and no batch was about to
be appended. So a discovery reports its own services in every run in which each
`get_services` with a callback finds the accumulator so (`discovered_of_fresh`).
-/
import EsphomeApi.Subsystems.GattAnswers

namespace EsphomeApi

open Library

namespace BluetoothProxy

variable {s t : BluetoothProxy}

/-! ## Batches -/

/-- The services for an address that an entry of the log brings. -/
def Occurrence.batch (address : UInt64) : Occurrence → List BleGattService
  | .received (.getServicesResponse a services) =>
      if a = address then services.map toGattService else []
  | _ => []

/-- The batches for an address in a stretch of the log, one after another. -/
def batches (address : UInt64) (log : List Occurrence) : List BleGattService :=
  log.flatMap (Occurrence.batch address)

/-- The services for an address that the lambda has yet to append. -/
def Work.services (address : UInt64) : Work → List BleGattService
  | .append a services => if a = address then services else []
  | _ => []

def appends (address : UInt64) (todo : List Work) : List BleGattService :=
  todo.flatMap (Work.services address)

/-- A discovery that is done reports the batches for its address that arrived after
the request and before its `Done` message, in order. -/
def Discovered (s : BluetoothProxy) : Prop :=
  ∀ k n r result, s.log[n]? = some (.registered r) →
    .completed k r (.services result) ∈ s.log → result.ok →
    s.log[k]? = some (.received (.getServicesDoneResponse r.address)) ∧
      result.services = batches r.address ((s.log.take k).drop n)

/-- A discovery with a callback starts from an empty accumulator, and nothing is about
to be appended to it. -/
def fresh : Guard where
  call s c := ∀ address, c = .getServices address true →
    s.services address = [] ∧ appends address s.todo = []
  stable htodo hservices h := fun address hc => by
    rw [hservices, htodo]
    exact h address hc

/-- What waits for the services of an address, from the request on. -/
def Accumulates (s : BluetoothProxy) : Prop :=
  ∀ address, ∀ r ∈ s.pending .services address,
    batches address (s.log.drop r.number) = s.services address ++ appends address s.todo

theorem batches_append (address : UInt64) (l l' : List Occurrence) :
    batches address (l ++ l') = batches address l ++ batches address l' := List.flatMap_append

theorem appends_append (address : UInt64) (l l' : List Work) :
    appends address (l ++ l') = appends address l ++ appends address l' := List.flatMap_append

theorem appends_cons (address : UInt64) (work : Work) (l : List Work) :
    appends address (work :: l) = work.services address ++ appends address l := List.flatMap_cons

theorem batches_entries (address : UInt64) (c : Call) (n : Nat) :
    batches address (c.entries n) = [] := by
  simp only [batches, List.flatMap_eq_nil_iff, Call.entries, List.mem_append]
  rintro o (ho | ho)
  · obtain ⟨r, -, rfl⟩ := by simpa using ho
    rfl
  · obtain ⟨m, -, rfl⟩ := by simpa using ho
    rfl

/-- A message brings what its lambda appends. -/
theorem appends_lambda (address : UInt64) (m : Message) :
    appends address (lambda m) = batches address [.received m] := by
  cases m <;> simp [appends, lambda, batches, Work.services, Occurrence.batch]

theorem appends_due (address : UInt64) (T : Table) (key : UInt64) (result : Result) :
    appends address (due T key result s) = [] := by
  simp [appends, due, Work.services]

theorem eq_getServices_of_registration {c : Call} {n : Nat} {r : Request}
    (h : c.registration n = some r) (htable : r.table = .services) {address : UInt64}
    (hkey : r.key = address) : c = .getServices address true := by
  unfold Call.registration at h
  split at h <;> simp at h <;> subst h
  · cases htable
  · cases htable
  · exact hkey ▸ rfl

/-- Nothing else than what is pending and in the log matters. -/
theorem Accumulates.congr (h : Accumulates s) (hs : Consistent s) {more : List Occurrence}
    (hlog : t.log = s.log ++ more) (hmore : ∀ address, batches address more = [])
    (hpending : ∀ {address r}, r ∈ t.pending .services address →
      r ∈ s.pending .services address ∧
        t.services address ++ appends address t.todo =
          s.services address ++ appends address s.todo) :
    Accumulates t := by
  intro address r hr
  obtain ⟨hold, hsame⟩ := hpending hr
  obtain ⟨-, -, hreg⟩ := hs.waiting hold
  have hlt : r.number < s.log.length := (List.getElem?_eq_some_iff.mp hreg).1
  rw [hlog, List.drop_append_of_le_length (Nat.le_of_lt hlt), batches_append, hmore,
    List.append_nil, h address r hold, hsame]

theorem accumulates_kept : KeptByMoves Consistent fresh Accumulates where
  called {s t c} hs h hg hc := by
    intro address r hr
    rw [hc.pending, List.mem_append] at hr
    rw [hc.services, hc.todo, hc.log]
    rcases hr with hold | hnew
    · obtain ⟨-, -, hreg⟩ := hs.waiting hold
      have hlt : r.number < s.log.length := (List.getElem?_eq_some_iff.mp hreg).1
      rw [List.drop_append_of_le_length (Nat.le_of_lt hlt), batches_append, batches_entries,
        List.append_nil, h address r hold]
    · simp only [List.mem_filter, Option.mem_toList, decide_eq_true_eq] at hnew
      obtain ⟨hreg, htable, hkey⟩ := hnew
      obtain ⟨hservices, happends⟩ :=
        hg address (eq_getServices_of_registration hreg htable hkey)
      rw [registration_number hreg, List.drop_left, batches_entries, hservices, happends]
      rfl
  received {s} m hs h hidle := by
    intro address r hr
    rw [pending_receive] at hr
    obtain ⟨-, -, hreg⟩ := hs.waiting hr
    have hlt : r.number < s.log.length := (List.getElem?_eq_some_iff.mp hreg).1
    have hbefore := h address r hr
    rw [hidle] at hbefore
    have htodo : (s.receive m).todo = lambda m := by
      simp [receive, hs.handlers hr]
    have hlog : (s.receive m).log = s.log ++ [.received m] := rfl
    rw [services_receive, htodo, hlog, List.drop_append_of_le_length (Nat.le_of_lt hlt),
      batches_append, hbefore, appends_lambda]
    simp [appends]
  skipped {s notice rest} hs h htodo := by
    refine h.congr hs (List.append_nil _).symm (fun _ => rfl) fun hr => ?_
    rw [pending_todo] at hr
    exact ⟨hr, by simp [htodo, appends, Work.services]⟩
  invoked {s notice rest} f hs h htodo := by
    refine h.congr hs rfl (fun _ => rfl) fun hr => ?_
    rw [pending_record, pending_todo] at hr
    exact ⟨hr, by simp [htodo, appends, Work.services]⟩
  appended {s address l rest} hs h htodo := by
    refine h.congr hs (List.append_nil _).symm (fun _ => rfl) fun hr => ?_
    rw [pending_accumulate, pending_todo] at hr
    refine ⟨hr, ?_⟩
    rw [services_accumulate, services_todo, htodo, appends_cons, List.append_assoc]
    simp only [Work.services, eq_comm]
    rfl
  taken {s T key result rest} hs h htodo _ := by
    refine h.congr hs ((take_log ..).trans (List.append_nil _).symm) (fun _ => rfl) fun hr => ?_
    rw [pending_take, pending_todo] at hr
    split at hr
    · exact absurd hr List.not_mem_nil
    · rename_i hother
      refine ⟨hr, ?_⟩
      rw [services_take, if_neg fun h => hother ⟨h.1.symm, h.2⟩, services_todo, take_todo,
        appends_append, appends_due, htodo, appends_cons]
      rfl
  completed {s request result rest} hs h htodo := by
    refine h.congr hs rfl (fun _ => rfl) fun hr => ?_
    rw [pending_record, pending_todo] at hr
    exact ⟨hr, by simp [htodo, appends, Work.services]⟩

/-! ## What a discovery reports -/

/-- While a message other than a batch is handled, nothing is left to append. -/
theorem appends_eq_nil (hs : Consistent s) {m : Message}
    (hm : s.log[s.current]? = some (.received m)) {address : UInt64}
    (hbatch : Occurrence.batch address (.received m) = []) : appends address s.todo = [] := by
  rw [appends, List.flatMap_eq_nil_iff]
  intro work hwork
  obtain ⟨m', hm', hdue⟩ := hs.todo hwork
  obtain rfl : m' = m := by simpa [hm] using hm'.symm
  cases hdue with
  | listed hlambda =>
      have hnone : appends address (lambda m') = [] := by
        rw [appends_lambda, batches, List.flatMap_singleton, hbatch]
      exact List.flatMap_eq_nil_iff.mp hnone work hlambda
  | once services _ _ => rfl

/-- Nothing arrives after the message that is being handled. -/
theorem batches_drop_eq_nil (hs : Consistent s) {m : Message}
    (hm : s.log[s.current]? = some (.received m)) {address : UInt64}
    (hbatch : Occurrence.batch address (.received m) = []) {n : Nat} (hn : s.current ≤ n) :
    batches address (s.log.drop n) = [] := by
  rw [batches, List.flatMap_eq_nil_iff]
  intro o ho
  obtain ⟨i, hi⟩ := List.getElem?_of_mem ho
  rw [List.getElem?_drop] at hi
  cases o with
  | received m' =>
      have hle := hs.current hi
      have heq : n + i = s.current := by omega
      rw [heq, hm] at hi
      cases hi
      exact hbatch
  | _ => rfl

/-- So the stretch up to the message has all the batches. -/
theorem batches_take_drop (hs : Consistent s) {m : Message}
    (hm : s.log[s.current]? = some (.received m)) {address : UInt64}
    (hbatch : Occurrence.batch address (.received m) = []) (n : Nat) :
    batches address ((s.log.take s.current).drop n) = batches address (s.log.drop n) := by
  conv_rhs => rw [← List.take_append_drop s.current s.log, List.drop_append, batches_append]
  rw [List.drop_drop, batches_drop_eq_nil hs hm hbatch (Nat.le_add_right ..), List.append_nil]

/-- `Discovered`, of one callback. -/
def Reports (log : List Occurrence) (k : Nat) (r : Request) (result : Result) : Prop :=
  ∀ result', result = .services result' → result'.ok →
    log[k]? = some (.received (.getServicesDoneResponse r.address)) ∧
      result'.services = batches r.address ((log.take k).drop r.number)

theorem reports_settled : Settled Reports := by
  intro log k m more r result hm
  have hlt : k < log.length := (List.getElem?_eq_some_iff.mp hm).1
  rw [Reports, Reports, List.getElem?_append_left hlt,
    List.take_append_of_le_length (Nat.le_of_lt hlt)]

/-- What completes a discovery with its services is its `Done` message. -/
theorem eq_done_of_take {m : Message} {T : Table} {key : UInt64} {result : Result}
    {l : List BleGattService} {result' : BleGattServicesResult}
    (h : .take T key result ∈ lambda m) (hresult : result.withServices l = .services result')
    (hok : result'.ok) :
    m = .getServicesDoneResponse key ∧ T = .services ∧ result'.services = l := by
  cases m <;> simp [lambda] at h
  case readResponse => simp [h.2.2, Result.withServices] at hresult
  case writeResponse => simp [h.2.2, Result.withServices] at hresult
  case getServicesDoneResponse address =>
    obtain ⟨rfl, rfl, rfl⟩ := h
    cases hresult
    exact ⟨rfl, rfl, rfl⟩
  case errorResponse address handle error =>
    rcases h with ⟨-, -, rfl⟩ | ⟨-, -, rfl⟩ | ⟨-, -, rfl⟩
    · cases hresult
    · cases hresult
    · cases hresult
      cases hok

theorem reports_kept :
    KeptByMoves Consistent fresh (fun s => Accumulates s ∧ Outcomes Reports s) := by
  have houtcomes :
      KeptByMoves (fun s => Consistent s ∧ Accumulates s) fresh (Outcomes Reports) := by
    refine outcomes_kept (fun h => h.1) reports_settled ?_
    intro s T key result rest ⟨hs, hacc⟩ htodo _ r hr result' hresult hok
    obtain ⟨m, hm, hdue⟩ := hs.next htodo
    obtain ⟨htable, hkey, -⟩ := hs.waiting hr
    cases hdue with
    | listed htake =>
        obtain ⟨rfl, rfl, hservices⟩ := eq_done_of_take htake hresult hok
        have haddress : r.address = key := by
          rw [← hkey, Request.key, htable]
        have hbatch : Occurrence.batch key (.received (.getServicesDoneResponse key)) = [] := rfl
        have hbefore := hacc key r hr
        rw [appends_eq_nil hs hm hbatch, List.append_nil] at hbefore
        rw [haddress, batches_take_drop hs hm hbatch, hbefore]
        exact ⟨hm, hservices⟩
  exact accumulates_kept.and houtcomes fun hs h => ⟨hs, h⟩

/-- A discovery reports its own services, if each starts from an empty accumulator. -/
theorem discovered_of_fresh {events : List Event} (hg : Guarded step fresh.Holds {} events) :
    ∀ t ∈ states step {} events, Discovered t := by
  intro t ht k n r result hreg hdone hok
  obtain ⟨hs, -, houtcomes⟩ :=
    states_kept reports_kept ⟨by simp [Accumulates, pending, accumulator], by simp, by simp⟩ hg t ht
  have hreports := houtcomes.invoked hdone result rfl hok
  rwa [hs.number hreg] at hreports

/-- A discovery of address `7`, with one batch. -/
theorem discovered_of_fresh_batch :
    let events := [.call (.getServices 7 true), .receive (.getServicesResponse 7 [⟨[1], 2, []⟩]),
      .turn [], .turn [], .receive (.getServicesDoneResponse 7), .turn [], .turn [], .turn []]
    .completed 3 ⟨0, .services, 7, 0⟩ (.services ⟨7, true, [⟨[1], 2, []⟩], 0⟩) ∈
        (run step {} events).log ∧ ∀ t ∈ states step {} events, Discovered t :=
  have hturn (s : BluetoothProxy) : fresh.Holds s (.turn []) :=
    Guard.holds_turn_nil (fun _ _ _ => trivial) s
  ⟨by decide, discovered_of_fresh ⟨fun _ _ hc => by cases hc; exact ⟨rfl, rfl⟩, trivial,
    hturn _, hturn _, trivial, hturn _, hturn _, hturn _, trivial⟩⟩

/-- The batch that came for a raw `get_services` is reported by the next discovery. -/
theorem not_discovered :
    ¬ Discovered (run step {} [.call (.onServices (some 0)), .call (.getServicesRaw 7),
      .receive (.getServicesResponse 7 [⟨[1], 2, []⟩]), .turn [], .turn [],
      .call (.getServices 7 true), .receive (.getServicesDoneResponse 7), .turn [], .turn [],
      .turn []]) := by
  intro h
  have hservices := h 5 3 ⟨3, .services, 7, 0⟩ ⟨7, true, [⟨[1], 2, []⟩], 0⟩ (by decide)
    (by decide) rfl
  exact absurd hservices.2 (by decide)

end BluetoothProxy

end EsphomeApi
