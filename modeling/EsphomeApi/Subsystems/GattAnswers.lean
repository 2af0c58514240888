/-
EsphomeApi.Subsystems.GattAnswers — which message invokes a one-shot callback.

A callback is due from the moment a lambda takes it out of its table, so a
property of the callbacks that are invoked is proved of the callbacks that are
due (`Outcomes`), and has to be looked at where entries are taken only.

Two such properties hold up to a slip each. The tables are indexed by the low 48
bits of an address and the low 16 bits of a handle: a message answers another
request than its own when the two agree in these (`answered_iff`). And a lambda
consults the tables after code of the application has run: a request issued from
there can be answered by the message that is being handled (`AnsweredBefore`).
-/
import EsphomeApi.Subsystems.GattMoves

namespace EsphomeApi

open Library

namespace BluetoothProxy

variable {s t : BluetoothProxy} {g : Guard} {Q : BluetoothProxy → Prop}

/-! ## Outcomes -/

/-- `φ log k r result`: the callback `r` is invoked with `result` by the message at
position `k`. -/
structure Outcomes (φ : List Occurrence → Nat → Request → Result → Prop) (s : BluetoothProxy) :
    Prop where
  due : ∀ {r result}, .once r result ∈ s.todo → φ s.log s.current r result
  invoked : ∀ {k r result}, .completed k r result ∈ s.log → φ s.log k r result

/-- What happens later does not matter. -/
def Settled (φ : List Occurrence → Nat → Request → Result → Prop) : Prop :=
  ∀ {log k m} more r result, log[k]? = some (.received m) →
    (φ (log ++ more) k r result ↔ φ log k r result)

variable {φ : List Occurrence → Nat → Request → Result → Prop}

theorem once_not_mem_lambda {m : Message} {r : Request} {result : Result} :
    .once r result ∉ lambda m := by
  cases m <;> simp [lambda]

theorem Outcomes.grow (h : Outcomes φ s) (hφ : Settled φ) (hs : Consistent s)
    {more : List Occurrence} (hlog : t.log = s.log ++ more) (hcurrent : t.current = s.current)
    (htodo : ∀ {r result}, .once r result ∈ t.todo → .once r result ∈ s.todo)
    (hmore : ∀ {k r result}, .completed k r result ∉ more) : Outcomes φ t where
  due hdue := by
    obtain ⟨m, hm, -⟩ := hs.todo (htodo hdue)
    rw [hlog, hcurrent, hφ more _ _ hm]
    exact h.due (htodo hdue)
  invoked hdone := by
    rw [hlog, List.mem_append] at hdone
    have hold := hdone.resolve_right hmore
    obtain ⟨m, hm, -⟩ := hs.completed hold
    rw [hlog, hφ more _ _ hm]
    exact h.invoked hold

theorem Outcomes.receive (h : Outcomes φ s) (hφ : Settled φ) (hs : Consistent s) (m : Message) :
    Outcomes φ (s.receive m) where
  due hdue := absurd ((receive_todo_sublist m).subset hdue) once_not_mem_lambda
  invoked hdone := by
    have hold := (List.mem_append.mp hdone).resolve_right (by simp)
    obtain ⟨m', hm', -⟩ := hs.completed hold
    exact (hφ _ _ _ hm').mpr (h.invoked hold)

theorem Outcomes.completed (h : Outcomes φ s) (hφ : Settled φ) (hs : Consistent s) {r : Request}
    {result : Result} {rest : List Work} (htodo : s.todo = .once r result :: rest) :
    Outcomes φ (record (.completed s.current r result) { s with todo := rest }) where
  due hdue := by
    have hmem : .once _ _ ∈ s.todo := htodo ▸ List.mem_cons_of_mem _ hdue
    obtain ⟨m, hm, -⟩ := hs.todo hmem
    exact (hφ _ _ _ hm).mpr (h.due hmem)
  invoked hdone := by
    rcases List.mem_append.mp hdone with hold | hnew
    · obtain ⟨m, hm, -⟩ := hs.completed hold
      exact (hφ _ _ _ hm).mpr (h.invoked hold)
    · cases List.mem_singleton.mp hnew
      obtain ⟨m, hm, -⟩ := hs.next htodo
      exact (hφ _ _ _ hm).mpr (h.due (htodo ▸ List.mem_cons_self))

/-- Outcomes are kept when what a lambda takes is as `φ` says. -/
theorem outcomes_kept (hQ : ∀ {s}, Q s → Consistent s) (hφ : Settled φ)
    (htake : ∀ {s T key result rest}, Q s → s.todo = .take T key result :: rest →
      g.take { s with todo := rest } T key →
      ∀ r ∈ s.pending T key, φ s.log s.current r (result.withServices (s.services key))) :
    KeptByMoves Q g (Outcomes φ) where
  called hs h _ hc := by
    refine h.grow hφ (hQ hs) hc.log hc.current (fun hdue => hc.todo ▸ hdue) fun hdone => ?_
    simp [Call.entries] at hdone
  received m hs h _ := h.receive hφ (hQ hs) m
  skipped hs h htodo := by
    refine h.grow hφ (hQ hs) (List.append_nil _).symm rfl (fun hdue => ?_) List.not_mem_nil
    exact htodo ▸ List.mem_cons_of_mem _ hdue
  invoked f hs h htodo := by
    refine h.grow hφ (hQ hs) rfl rfl (fun hdue => ?_) (by simp)
    exact htodo ▸ List.mem_cons_of_mem _ hdue
  appended hs h htodo := by
    refine h.grow hφ (hQ hs) (List.append_nil _).symm rfl (fun hdue => ?_) List.not_mem_nil
    exact htodo ▸ List.mem_cons_of_mem _ hdue
  taken {s T key result rest} hs h htodo hg := by
    constructor
    · intro r result' hdue
      rw [take_log, take_current]
      rw [take_todo, List.mem_append] at hdue
      rcases hdue with hnew | hold
      · obtain ⟨r', hr', heq⟩ := mem_due.mp hnew
        cases heq
        rw [pending_todo] at hr'
        exact htake hs htodo hg r hr'
      · exact h.due (htodo ▸ List.mem_cons_of_mem _ hold)
    · intro k r result' hdone
      rw [take_log] at hdone ⊢
      exact h.invoked hdone
  completed hs h htodo := h.completed hφ (hQ hs) htodo

/-- The outcomes before, read off those after. -/
theorem Outcomes.shrink (h : Outcomes φ t) (hφ : Settled φ) (hs : Consistent s)
    {more : List Occurrence} (hlog : t.log = s.log ++ more)
    (hdue : ∀ {r result}, .once r result ∈ s.todo →
      t.current = s.current ∧ .once r result ∈ t.todo ∨ .completed s.current r result ∈ t.log) :
    Outcomes φ s where
  due hold := by
    obtain ⟨m, hm, -⟩ := hs.todo hold
    rw [← hφ more _ _ hm, ← hlog]
    rcases hdue hold with ⟨hcurrent, hnew⟩ | hdone
    · exact hcurrent ▸ h.due hnew
    · exact h.invoked hdone
  invoked hold := by
    obtain ⟨m, hm, -⟩ := hs.completed hold
    rw [← hφ more _ _ hm, ← hlog]
    exact h.invoked (hlog ▸ List.mem_append_left _ hold)

/-- An outcome that is not as `φ` says is not mended. -/
theorem not_outcomes_kept (hφ : Settled φ) :
    KeptByMoves Consistent {} (fun s => ¬ Outcomes φ s) where
  called hs hnot _ hc h := hnot <| h.shrink hφ hs hc.log fun hold =>
    .inl ⟨hc.current, hc.todo ▸ hold⟩
  received m hs hnot hidle h := hnot <| h.shrink hφ hs rfl fun hold => by simp [hidle] at hold
  skipped hs hnot htodo h := hnot <| h.shrink hφ hs (List.append_nil _).symm fun hold =>
    .inl ⟨rfl, by simpa [htodo] using hold⟩
  invoked f hs hnot htodo h := hnot <| h.shrink hφ hs rfl fun hold =>
    .inl ⟨rfl, by simpa [htodo] using hold⟩
  appended hs hnot htodo h := hnot <| h.shrink hφ hs (List.append_nil _).symm fun hold =>
    .inl ⟨rfl, by simpa [htodo, accumulate] using hold⟩
  taken hs hnot htodo _ h :=
    hnot <| h.shrink hφ hs ((take_log ..).trans (List.append_nil _).symm) fun hold =>
    .inl ⟨take_current .., List.mem_append_right _ (by simpa [htodo] using hold)⟩
  completed hs hnot htodo h := hnot <| h.shrink hφ hs rfl fun hold => by
    rw [htodo, List.mem_cons] at hold
    rcases hold with heq | hrest
    · cases heq
      exact .inr (by simp)
    · exact .inl ⟨rfl, hrest⟩

/-! ## The message and the request agree -/

/-- The characteristic that a message is about. -/
def Message.subject : Message → Option (UInt64 × UInt32)
  | .readResponse address handle _ | .writeResponse address handle
  | .notifyDataResponse address handle _ | .errorResponse address handle _ => some (address, handle)
  | .getServicesResponse _ _ | .getServicesDoneResponse _ => none

/-- A response to a read or a write, or an error, for its address and its handle. -/
def Message.Answers (m : Message) (r : Request) : Prop :=
  match m with
  | .readResponse address handle _ =>
      r.table = .reads ∧ address = r.address ∧ handle = r.handle
  | .writeResponse address handle =>
      r.table = .writes ∧ address = r.address ∧ handle = r.handle
  | .errorResponse address handle _ => address = r.address ∧ handle = r.handle
  | _ => False

/-- The callbacks of reads and writes are invoked by messages that answer them. -/
def Answered (s : BluetoothProxy) : Prop :=
  ∀ k r result, .completed k r result ∈ s.log → r.table ≠ .services →
    ∃ m, s.log[k]? = some (.received m) ∧ m.Answers r

/-- Where a read or a write table is consulted for a message, no callback waits in
it for another characteristic with the same low bits. -/
def apart : Guard where
  take s T _ := T ≠ .services →
    ∀ m address handle, s.log[s.current]? = some (.received m) →
      m.subject = some (address, handle) →
      ∀ key, ∀ r ∈ s.pending T key,
        address.toNat % 2 ^ 48 = r.address.toNat % 2 ^ 48 →
        handle.toNat % 2 ^ 16 = r.handle.toNat % 2 ^ 16 →
        address = r.address ∧ handle = r.handle

theorem Request.key_of_ne_services {r : Request} (h : r.table ≠ .services) :
    r.key = gattKey r.address r.handle := by
  unfold Request.key
  split
  · exact absurd ‹_› h
  · rfl

/-- What consults a read or a write table is about a characteristic, and its key is
the packed one. -/
theorem exists_subject_of_take {m : Message} {T : Table} {key : UInt64} {result : Result}
    (h : .take T key result ∈ lambda m) (hT : T ≠ .services) :
    ∃ address handle, m.subject = some (address, handle) ∧ key = gattKey address handle := by
  cases m <;> simp [lambda] at h
  case readResponse address handle data => exact ⟨address, handle, rfl, h.2.1⟩
  case writeResponse address handle => exact ⟨address, handle, rfl, h.2.1⟩
  case getServicesDoneResponse address => exact absurd h.1 hT
  case errorResponse address handle error =>
    rcases h with h | h | h
    · exact ⟨address, handle, rfl, h.2.1⟩
    · exact ⟨address, handle, rfl, h.2.1⟩
    · exact absurd h.1 hT

/-- What takes a callback answers it if it is about the same characteristic. -/
theorem answers_iff_of_take {m : Message} {r : Request} {key : UInt64} {result : Result}
    (h : .take r.table key result ∈ lambda m) (hT : r.table ≠ .services) :
    m.Answers r ↔ m.subject = some (r.address, r.handle) := by
  cases m <;> simp [lambda] at h
  case readResponse address handle data => simp [Message.Answers, Message.subject, h.1]
  case writeResponse address handle => simp [Message.Answers, Message.subject, h.1]
  case getServicesDoneResponse address => exact absurd h.1 hT
  case errorResponse address handle error => simp [Message.Answers, Message.subject]

/-- `Answered`, of one callback. -/
def AnsweredBy (log : List Occurrence) (k : Nat) (r : Request) (_ : Result) : Prop :=
  r.table ≠ .services → ∃ m, log[k]? = some (.received m) ∧ m.Answers r

theorem answeredBy_iff {log : List Occurrence} {k : Nat} {m : Message}
    (hm : log[k]? = some (.received m)) (r : Request) (result : Result) :
    AnsweredBy log k r result ↔ (r.table ≠ .services → m.Answers r) := by
  simp [AnsweredBy, hm]

theorem answeredBy_settled : Settled AnsweredBy := by
  intro log k m more r result hm
  rw [answeredBy_iff hm, answeredBy_iff (getElem?_append_of_some hm more)]

theorem answered_kept : KeptByMoves Consistent apart (Outcomes AnsweredBy) := by
  refine outcomes_kept id answeredBy_settled ?_
  intro s T key result rest hs htodo hg r hr
  obtain ⟨m, hm, hdue⟩ := hs.next htodo
  obtain ⟨htable, hkey, -⟩ := hs.waiting hr
  cases hdue with
  | listed htake =>
      rw [answeredBy_iff hm]
      intro hT
      obtain ⟨address, handle, hsubject, hpacked⟩ :=
        exists_subject_of_take htake (htable ▸ hT)
      rw [hpacked, Request.key_of_ne_services hT, eq_comm, gattKey_eq_iff] at hkey
      have hsame := hg (htable ▸ hT) m address handle hm hsubject key r
        (by rwa [pending_todo]) hkey.1 hkey.2
      rw [answers_iff_of_take (htable ▸ htake) hT, hsubject, hsame.1, hsame.2]

/-- A step that is not under the guard makes a callback due to a message that does
not answer it. -/
theorem not_outcomes_of_not_apart {e : Event} (hs : Consistent s) (hg : ¬ apart.Holds s e) :
    ¬ Outcomes AnsweredBy (step s e) := by
  obtain ⟨calls, T, key, result, rest, rfl, htodo, hbroken⟩ :=
    Guard.exists_take_of_not_holds (fun _ _ => trivial) hg
  rw [step_take calls htodo]
  intro h
  apply hbroken
  intro hT m address handle hm hsubject key' r hr haddress hhandle
  rw [pending_todo] at hr
  obtain ⟨htable, -, -⟩ := hs.waiting hr
  obtain ⟨m', hm', hlambda⟩ := hs.next htodo
  obtain rfl : m' = m := by simpa [hm] using hm'.symm
  cases hlambda with
  | listed htake =>
      obtain ⟨a', h', hsubject', hpacked⟩ := exists_subject_of_take htake hT
      obtain ⟨rfl, rfl⟩ : a' = address ∧ h' = handle := by
        simpa [hsubject] using hsubject'.symm
      have hkey : r.key = key := by
        rw [Request.key_of_ne_services (htable ▸ hT), hpacked, gattKey_eq_iff]
        exact ⟨haddress.symm, hhandle.symm⟩
      have hwaiting : r ∈ s.pending T key := by
        obtain ⟨-, rfl, -⟩ := hs.waiting hr
        exact hkey ▸ hr
      have hdue := h.due (List.mem_append_left _ (mem_due.mpr ⟨r, by rwa [pending_todo], rfl⟩))
      rw [take_log, take_current, answeredBy_iff hm] at hdue
      have hanswers := hdue (htable ▸ hT)
      rw [answers_iff_of_take (htable ▸ htake) (htable ▸ hT), hsubject] at hanswers
      exact Prod.mk.inj (Option.some.inj hanswers)

/-- The callbacks of reads and writes are invoked by messages that answer them in
every run in which no request is confused with another, and in no other run that
ends with nothing left to do. -/
theorem answered_iff (events : List Event) :
    (Guarded step apart.Holds {} events → ∀ t ∈ states step {} events, Answered t) ∧
      ((run step {} events).todo = [] → Answered (run step {} events) →
        Guarded step apart.Holds {} events) := by
  constructor
  · intro hg t ht k r result hdone
    exact (states_kept answered_kept ⟨by simp, by simp⟩ hg t ht).2.invoked hdone
  · intro hidle hanswered
    refine guarded_of_kept (not_outcomes_kept answeredBy_settled) not_outcomes_of_not_apart ?_
    exact not_not_intro ⟨by simp [hidle], fun hdone => hanswered _ _ _ hdone⟩

/-- The response to a read of handle `0x2A` invokes the callback of a read of handle
`0x1002A`. -/
theorem not_answered :
    ¬ Answered (run step {} [.call (.read 0xA 0x1002A true), .receive (.readResponse 0xA 0x2A []),
      .turn [], .turn [], .turn []]) := by
  intro h
  obtain ⟨m, hm, hanswers⟩ := h 2 ⟨0, .reads, 0xA, 0x1002A⟩ (.read ⟨0xA, 0x2A, true, [], 0⟩)
    (by decide) nofun
  have hresponse : m = .readResponse 0xA 0x2A [] :=
    (Occurrence.received.inj (Option.some.inj hm)).symm
  rw [hresponse] at hanswers
  exact absurd hanswers.2.2 (by decide)

/-! ## The message and the request come in order -/

/-- No message invokes a callback that was registered after it had arrived. -/
def AnsweredBefore (s : BluetoothProxy) : Prop :=
  ∀ k n r result, s.log[n]? = some (.registered r) → .completed k r result ∈ s.log → n < k

/-- No callback is put under a key that the lambda has yet to take. -/
def unhurried : Guard where
  call s c := ∀ n r, c.registration n = some r → ∀ result, .take r.table r.key result ∉ s.todo
  stable htodo _ h := htodo ▸ h

/-- No callback that the lambda has yet to take was registered after its message. -/
def TakesEarlier (s : BluetoothProxy) : Prop :=
  ∀ T key result, .take T key result ∈ s.todo → ∀ r ∈ s.pending T key, r.number < s.current

/-- `AnsweredBefore`, of one callback. -/
def RegisteredBefore (_ : List Occurrence) (k : Nat) (r : Request) (_ : Result) : Prop :=
  r.number < k

theorem registeredBefore_settled : Settled RegisteredBefore := fun _ _ _ _ => Iff.rfl

theorem TakesEarlier.congr (h : TakesEarlier s)
    (hpending : ∀ T key, t.pending T key = s.pending T key) (hcurrent : t.current = s.current)
    (htodo : ∀ {T key result}, .take T key result ∈ t.todo → .take T key result ∈ s.todo) :
    TakesEarlier t := by
  intro T key result htake r hr
  rw [hpending] at hr
  rw [hcurrent]
  exact h T key result (htodo htake) r hr

theorem takesEarlier_kept : KeptByMoves Consistent unhurried TakesEarlier where
  called hs h hg hc := by
    intro T key result htake r hr
    rw [hc.todo] at htake
    rw [hc.current]
    rw [hc.pending, List.mem_append] at hr
    rcases hr with hold | hnew
    · exact h T key result htake r hold
    · simp only [List.mem_filter, Option.mem_toList, decide_eq_true_eq] at hnew
      obtain ⟨hreg, rfl, rfl⟩ := hnew
      exact absurd htake (hg _ r hreg result)
  received m hs _ _ := by
    intro T key result _ r hr
    rw [pending_receive] at hr
    obtain ⟨-, -, hreg⟩ := hs.waiting hr
    exact (List.getElem?_eq_some_iff.mp hreg).1
  skipped _ h htodo := h.congr (by simp) rfl (by simp [htodo])
  invoked _ _ h htodo := h.congr (by simp) rfl (by simp [htodo])
  appended _ h htodo := h.congr (by simp) rfl (by simp [htodo, accumulate])
  taken {s T key result rest} hs h htodo _ := by
    intro T' key' result' htake r hr
    rw [take_todo, List.mem_append] at htake
    rw [pending_take, pending_todo] at hr
    rw [take_current]
    rcases htake with hdue | hrest
    · obtain ⟨r', -, heq⟩ := mem_due.mp hdue
      cases heq
    · split at hr
      · exact absurd hr List.not_mem_nil
      · exact h T' key' result' (htodo ▸ List.mem_cons_of_mem _ hrest) r hr
  completed _ h htodo := h.congr (by simp) rfl (by simp [htodo])

theorem answeredBefore_kept :
    KeptByMoves Consistent unhurried (fun s => TakesEarlier s ∧ Outcomes RegisteredBefore s) := by
  have houtcomes : KeptByMoves (fun s => Consistent s ∧ TakesEarlier s) unhurried
      (Outcomes RegisteredBefore) := by
    refine outcomes_kept (fun h => h.1) registeredBefore_settled fun h htodo _ r hr => ?_
    exact h.2 _ _ _ (htodo ▸ List.mem_cons_self) r hr
  exact takesEarlier_kept.and houtcomes fun hs h => ⟨hs, h⟩

/-- A later callback that is due, or that the lambda has yet to take, stays so or is
invoked. -/
theorem not_answeredBefore_kept :
    KeptByMoves Consistent {} (fun s => ¬ (TakesEarlier s ∧ Outcomes RegisteredBefore s)) := by
  have houtcomes := not_outcomes_kept registeredBefore_settled
  constructor
  case called =>
    intro s t c hs hnot hg hc h
    have hbefore := not_imp_not.mp (houtcomes.called hs · hg hc) h.2
    refine hnot ⟨fun T key result htake r hr => ?_, hbefore⟩
    rw [← hc.current]
    refine h.1 T key result (hc.todo ▸ htake) r ?_
    rw [hc.pending]
    exact List.mem_append_left _ hr
  case received =>
    intro s m hs hnot hidle h
    have hbefore := not_imp_not.mp (houtcomes.received m hs · hidle) h.2
    refine hnot ⟨fun T key result htake => ?_, hbefore⟩
    rw [hidle] at htake
    exact absurd htake List.not_mem_nil
  case skipped =>
    intro s notice rest hs hnot htodo h
    have hbefore := not_imp_not.mp (houtcomes.skipped hs · htodo) h.2
    exact hnot ⟨h.1.congr (by simp) rfl (by simp [htodo]), hbefore⟩
  case invoked =>
    intro s notice rest f hs hnot htodo h
    have hbefore := not_imp_not.mp (houtcomes.invoked f hs · htodo) h.2
    exact hnot ⟨h.1.congr (by simp) rfl (by simp [htodo]), hbefore⟩
  case appended =>
    intro s address l rest hs hnot htodo h
    have hbefore := not_imp_not.mp (houtcomes.appended hs · htodo) h.2
    exact hnot ⟨h.1.congr (by simp) rfl (by simp [htodo, accumulate]), hbefore⟩
  case taken =>
    intro s T key result rest hs hnot htodo hg h
    have hbefore := not_imp_not.mp (houtcomes.taken hs · htodo hg) h.2
    refine hnot ⟨fun T' key' result' htake r hr => ?_, hbefore⟩
    by_cases hsame : T' = T ∧ key' = key
    · -- what waits under the key is due now
      obtain ⟨rfl, rfl⟩ := hsame
      have hdue := h.2.due (List.mem_append_left _ (mem_due.mpr ⟨r, by rwa [pending_todo], rfl⟩))
      rwa [take_current] at hdue
    · have hrest : .take T' key' result' ∈ rest := by
        rw [htodo, List.mem_cons] at htake
        refine htake.resolve_left fun heq => hsame ?_
        cases heq
        exact ⟨rfl, rfl⟩
      have hearlier := h.1 T' key' result' (List.mem_append_right _ hrest) r
        (by rwa [pending_take, if_neg hsame, pending_todo])
      rwa [take_current] at hearlier
  case completed =>
    intro s r result rest hs hnot htodo h
    have hbefore := not_imp_not.mp (houtcomes.completed hs · htodo) h.2
    exact hnot ⟨h.1.congr (by simp) rfl (by simp [htodo]), hbefore⟩

/-- After a call that breaks the guard, a later callback waits for the message that is
being handled. -/
theorem not_answeredBefore_of_hurried {e : Event} (hs : Consistent s)
    (hg : ¬ unhurried.Holds s e) :
    ¬ (TakesEarlier (step s e) ∧ Outcomes RegisteredBefore (step s e)) := by
  have hkept := consistent_kept.and not_answeredBefore_kept fun _ hs => hs
  obtain ⟨u, c, rest, hu, hbroken, hstep⟩ :=
    exists_call_of_not_holds (fun _ _ _ => trivial) consistent_kept hs hg
  have hc := called c u
  have hspoilt : ¬ (TakesEarlier (u.call c) ∧ Outcomes RegisteredBefore (u.call c)) := by
    intro h
    apply hbroken
    intro n r hreg result htake
    obtain ⟨m, hm, -⟩ := hu.todo htake
    have hcurrent : u.current < u.log.length := (List.getElem?_eq_some_iff.mp hm).1
    have hnew : { r with number := u.log.length } ∈ (u.call c).pending r.table r.key := by
      rw [hc.pending, registration_renumber hreg]
      exact List.mem_append_right _ (by simp [Request.key])
    have hearlier := h.1 _ _ _ (hc.todo ▸ htake) _ hnew
    rw [hc.current] at hearlier
    exact absurd hearlier (Nat.not_lt.mpr (Nat.le_of_lt hcurrent))
  rw [hstep]
  exact (hkept.calls ⟨hu.called hc, hspoilt⟩ fun _ _ => trivial).2

/-- No message invokes a callback that was registered after it had arrived in every
run in which no callback is put under a key that the lambda has yet to take, and in
no other run that ends with nothing left to do. -/
theorem answeredBefore_iff (events : List Event) :
    (Guarded step unhurried.Holds {} events → ∀ t ∈ states step {} events, AnsweredBefore t) ∧
      ((run step {} events).todo = [] → AnsweredBefore (run step {} events) →
        Guarded step unhurried.Holds {} events) := by
  constructor
  · intro hg t ht k n r result hreg hdone
    obtain ⟨hs, -, houtcomes⟩ :=
      states_kept answeredBefore_kept ⟨by simp [TakesEarlier], by simp, by simp⟩ hg t ht
    exact hs.number hreg ▸ houtcomes.invoked hdone
  · intro hidle hbefore
    refine guarded_of_kept not_answeredBefore_kept not_answeredBefore_of_hurried ?_
    refine not_not_intro
      ⟨by simp [TakesEarlier, hidle], by simp [hidle], fun {k r result} hdone => ?_⟩
    obtain ⟨m, -, hdue⟩ := (consistent_run events).completed hdone
    cases hdue with
    | listed hlambda => exact absurd hlambda once_not_mem_lambda
    | once services hreg _ => exact hbefore k r.number r _ hreg hdone

/-- A read issued by the handler of a read response is answered by that response. -/
theorem not_answeredBefore :
    ¬ AnsweredBefore (run step {} [.call (.onRead (some 0)), .call (.readRaw 1 2),
      .receive (.readResponse 1 2 []), .turn [.read 1 2 true], .turn [], .turn []]) := by
  intro h
  have hbefore := h 1 3 ⟨3, .reads, 1, 2⟩ (.read ⟨1, 2, true, [], 0⟩) (by decide) (by decide)
  exact absurd hbefore (by decide)

end BluetoothProxy

end EsphomeApi
