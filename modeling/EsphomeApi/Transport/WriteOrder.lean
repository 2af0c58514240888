/-
EsphomeApi.Transport.WriteOrder — the write queue of `TcpTransport` is serial
exactly as long as no write fails in front of others.

`InOrder` is what the queue is for: one operation at a time, the bytes of the
calls in the order of the calls, every handler called once and in order, and
a failure passed on to the writes behind it. When a write fails, the lambda of
`do_write` clears `writing_` and returns: what is queued behind stays there
without an operation until a later call starts it, and its bytes then follow a
gap. `in_order_iff` says that nothing else goes wrong.
-/
import EsphomeApi.Transport.TcpTransport
import EsphomeApi.Library.GuardedRun

namespace EsphomeApi.TcpTransport

open Library

/-! ## The bytes of the calls -/

/-- The bytes of calls numbered from `first`, one call after the other. -/
def stream (first : Nat) : List PendingWrite → List SentByte
  | [] => []
  | write :: rest => write.data.map (⟨first, ·⟩) ++ stream (first + 1) rest

theorem stream_append (first : Nat) (front back : List PendingWrite) :
    stream first (front ++ back) = stream first front ++ stream (first + front.length) back := by
  induction front generalizing first with
  | nil => simp [stream]
  | cons write front ih =>
      simp [stream, ih, List.append_assoc, Nat.add_assoc, Nat.add_comm 1]

theorem call_lt_of_mem_stream {first : Nat} {writes : List PendingWrite} {b : SentByte}
    (h : b ∈ stream first writes) : b.call < first + writes.length := by
  induction writes generalizing first with
  | nil => simp [stream] at h
  | cons write writes ih =>
      rw [stream, List.mem_append] at h
      rcases h with h | h
      · obtain ⟨byte, -, rfl⟩ := List.mem_map.mp h
        simp
      · have hlt := ih h
        rw [List.length_cons]
        omega

theorem stream_bytes (first : Nat) (writes : List PendingWrite) :
    (stream first writes).map SentByte.byte = writes.flatMap PendingWrite.data := by
  induction writes generalizing first with
  | nil => simp [stream]
  | cons write writes ih => simp [stream, ih, Function.comp_def]

/-! ## What the queue is for -/

/-- The writes that are completed. -/
def done (t : TcpTransport) : List PendingWrite := t.completed.map WriteCompletion.write

structure InOrder (t : TcpTransport) : Prop where
  /-- one operation at a time -/
  single : t.operations.length ≤ 1
  /-- the bytes leave in the order of the calls -/
  sent : t.sent <+: stream 0 t.calls
  /-- the handlers are called in the order of the calls -/
  completed : t.done <+: t.calls
  /-- when asio has nothing to complete, no handler is left to be called -/
  finished : t.operations = [] → t.done = t.calls
  /-- the writes queued behind a failed one fail too -/
  behind : ∀ i c, t.completed[i]? = some c → c.ec ≠ none → ∀ j, j < c.behind →
    ∃ d, t.completed[i + 1 + j]? = some d ∧ d.ec ≠ none

/-- Without the numbers: the bytes sent are the front of the buffers. -/
theorem InOrder.sent_bytes {t : TcpTransport} (h : InOrder t) :
    t.sent.map SentByte.byte <+: t.calls.flatMap PendingWrite.data := by
  have hmap := h.sent.map SentByte.byte
  rwa [stream_bytes] at hmap

/-- Bytes of completed writes have not been sent. -/
def Lost (t : TcpTransport) : Prop := t.sent.length < (stream 0 t.done).length

/-- The writes among some requests. -/
def writes (requests : List Request) : List PendingWrite :=
  requests.filterMap fun
    | .asyncWrite write => some write
    | .close => none

variable (react : Reactions)

/-- What is queued when the handler of the first write has returned. -/
def leftBehind (ec : Option ErrorCode) (t : TcpTransport) : List PendingWrite :=
  match t.writeQueue with
  | [] => []
  | write :: rest => rest ++ writes (reactions react write ec (pop ec write rest t))

/-- No write fails in front of another, and once bytes of a write are lost the
socket takes no more. -/
def Orderly (t : TcpTransport) : Event → Prop
  | .transfer operation count => Lost t → moved t operation count = []
  | .complete operation (some ec) =>
      completes operation (some ec) t →
        leftBehind react (some ec) { t with operations := t.operations.eraseIdx operation } = []
  | _ => True

/-! ## One operation for the front of the queue -/

/-- Nothing is queued. -/
structure Idle (t : TcpTransport) : Prop where
  writing : t.writing = false
  writeQueue : t.writeQueue = []
  operations : t.operations = []
  sent : t.sent.length ≤ (stream 0 t.done).length

/-- The front of the queue is being written; `gone` of it is sent. -/
structure Busy (gone left : Bytes) (rest : List PendingWrite) (handler : Option HandlerId)
    (t : TcpTransport) : Prop where
  writing : t.writing = true
  writeQueue : t.writeQueue = ⟨gone ++ left, handler⟩ :: rest
  operations : t.operations = [⟨t.completed.length, left⟩]
  sent : Lost t ∨ t.sent.length = (stream 0 t.done).length + gone.length

structure Serial (t : TcpTransport) : Prop where
  calls : t.calls = t.done ++ t.writeQueue
  sent : t.sent <+: stream 0 t.calls
  alone : ∀ c ∈ t.completed, c.ec ≠ none → c.behind = 0
  phase : Idle t ∨ ∃ gone left rest handler, Busy gone left rest handler t

theorem Serial.inOrder {t : TcpTransport} (h : Serial t) : InOrder t where
  single := by
    rcases h.phase with hidle | ⟨gone, left, rest, handler, hbusy⟩
    · simp [hidle.operations]
    · simp [hbusy.operations]
  sent := h.sent
  completed := ⟨t.writeQueue, h.calls.symm⟩
  finished := by
    intro hops
    rcases h.phase with hidle | ⟨gone, left, rest, handler, hbusy⟩
    · simp [h.calls, hidle.writeQueue]
    · simp [hbusy.operations] at hops
  behind := by
    intro i c hc hec j hj
    have hzero := h.alone c (List.mem_of_getElem? hc) hec
    omega

/-- A transport that was not written to. -/
def fresh (isOpen : Bool) : TcpTransport := { isOpen := isOpen }

theorem serial_fresh (isOpen : Bool) : Serial (fresh isOpen) where
  calls := rfl
  sent := List.nil_prefix
  alone := by simp [fresh]
  phase := Or.inl ⟨rfl, rfl, rfl, Nat.le_refl _⟩

/-! ## Calls -/

/-- `close`, and a connect, touch the socket alone. -/
theorem Serial.socket {t : TcpTransport} (h : Serial t) (isOpen : Bool) :
    Serial { t with isOpen := isOpen } := by
  refine ⟨h.calls, h.sent, h.alone, ?_⟩
  rcases h.phase with hidle | ⟨gone, left, rest, handler, hbusy⟩
  · exact Or.inl ⟨hidle.writing, hidle.writeQueue, hidle.operations, hidle.sent⟩
  · exact Or.inr ⟨gone, left, rest, handler,
      hbusy.writing, hbusy.writeQueue, hbusy.operations, hbusy.sent⟩

/-- Starting the front of the queue, when nothing is outstanding and what is
completed is accounted for. -/
theorem phase_doWrite {t : TcpTransport} (hops : t.operations = [])
    (hsent : t.sent.length ≤ (stream 0 t.done).length) :
    Idle (doWrite t) ∨ ∃ gone left rest handler, Busy gone left rest handler (doWrite t) := by
  cases hqueue : t.writeQueue with
  | nil =>
      left
      constructor <;> simp [doWrite, done, hqueue, hops]
      exact hsent
  | cons write rest =>
      right
      refine ⟨[], write.data, rest, write.handler, ?_⟩
      constructor
      · simp [doWrite, hqueue]
      · simp [doWrite, hqueue]
      · simp [doWrite, hqueue, hops]
      · have hcase := Nat.lt_or_eq_of_le hsent
        simpa [doWrite, hqueue, Lost, done] using hcase

theorem Serial.asyncWrite {t : TcpTransport} (h : Serial t) (write : PendingWrite) :
    Serial (asyncWrite write t) := by
  have hcalls : t.calls ++ [write] = t.done ++ (t.writeQueue ++ [write]) := by
    rw [h.calls, List.append_assoc]
  have hsent : t.sent <+: stream 0 (t.calls ++ [write]) := by
    rw [stream_append]
    exact h.sent.trans (List.prefix_append _ _)
  rcases h.phase with hidle | ⟨gone, left, rest, handler, hbusy⟩
  · have hstart := phase_doWrite (t := push write t) hidle.operations hidle.sent
    have heq : TcpTransport.asyncWrite write t = doWrite (push write t) := by
      simp [TcpTransport.asyncWrite, push, hidle.writing]
    rw [heq]
    refine ⟨?_, ?_, ?_, hstart⟩
    · simpa [push, done] using hcalls
    · simpa [push] using hsent
    · simpa [push] using h.alone
  · have heq : TcpTransport.asyncWrite write t = push write t := by
      simp [TcpTransport.asyncWrite, push, hbusy.writing]
    rw [heq]
    refine ⟨hcalls, hsent, h.alone, Or.inr ⟨gone, left, rest ++ [write], handler, ?_⟩⟩
    exact ⟨hbusy.writing, by simp [push, hbusy.writeQueue], hbusy.operations, hbusy.sent⟩

theorem Serial.perform {t : TcpTransport} (h : Serial t) (request : Request) :
    Serial (t.perform request) := by
  cases request with
  | asyncWrite write => exact h.asyncWrite write
  | close => exact h.socket false

/-! ## Transfers -/

/-- The bytes of the calls, when the first one that is not completed is `write`. -/
theorem Serial.stream_calls {t : TcpTransport} (h : Serial t) {write : PendingWrite}
    {rest : List PendingWrite} (hqueue : t.writeQueue = write :: rest) :
    stream 0 t.calls = stream 0 t.done ++
      (write.data.map (⟨t.completed.length, ·⟩) ++ stream (t.completed.length + 1) rest) := by
  rw [h.calls, stream_append, hqueue, stream]
  simp [done]

theorem Idle.transfer {t : TcpTransport} (h : Idle t) (operation count : Nat) :
    moved t operation count = [] ∧ transfer operation count t = t := by
  have hmoved : moved t operation count = [] := by simp [moved, h.operations]
  refine ⟨hmoved, ?_⟩
  simp only [TcpTransport.transfer, hmoved, h.operations, List.append_nil, List.modify_nil]
  rw [← h.operations]

/-- A transfer sends the front of what is left of the one operation. -/
theorem Busy.transfer {gone left : Bytes} {rest : List PendingWrite}
    {handler : Option HandlerId} {t : TcpTransport} (h : Busy gone left rest handler t)
    (operation count : Nat) :
    ∃ out after, left = out ++ after ∧
      moved t operation count = out.map (⟨t.completed.length, ·⟩) ∧
      transfer operation count t = { t with
        operations := [⟨t.completed.length, after⟩]
        sent := t.sent ++ out.map (⟨t.completed.length, ·⟩) } := by
  have hnone : moved t operation count = [] → ∃ out after, left = out ++ after ∧
      moved t operation count = out.map (⟨t.completed.length, ·⟩) ∧
      TcpTransport.transfer operation count t = { t with
        operations := [⟨t.completed.length, after⟩]
        sent := t.sent ++ out.map (⟨t.completed.length, ·⟩) } := by
    intro hmoved
    refine ⟨[], left, rfl, hmoved, ?_⟩
    simp only [TcpTransport.transfer, hmoved, h.operations]
    cases operation <;> simp
  cases operation with
  | succ operation => exact hnone (by simp [moved, h.operations])
  | zero =>
      by_cases hopen : t.isOpen
      · refine ⟨left.take count, left.drop count, (List.take_append_drop count left).symm, ?_, ?_⟩
        · simp [moved, h.operations, hopen]
        · have hdrop : left.drop (min count left.length) = left.drop count := by
            rcases Nat.le_total count left.length with hle | hle
            · rw [Nat.min_eq_left hle]
            · rw [Nat.min_eq_right hle, List.drop_length, List.drop_of_length_le hle]
          simp [TcpTransport.transfer, moved, h.operations, hopen, hdrop]
      · exact hnone (by simp [moved, h.operations, hopen])

theorem Serial.transfer {t : TcpTransport} (h : Serial t) (operation count : Nat)
    (hok : Lost t → moved t operation count = []) : Serial (transfer operation count t) := by
  rcases h.phase with hidle | ⟨gone, left, rest, handler, hbusy⟩
  · rw [(hidle.transfer operation count).2]
    exact h
  · obtain ⟨out, after, rfl, hmoved, heq⟩ := hbusy.transfer operation count
    rw [heq]
    by_cases hlost : Lost t
    · have hout : out = [] := List.map_eq_nil_iff.mp (hmoved ▸ hok hlost)
      subst hout
      refine ⟨h.calls, by simpa using h.sent, h.alone, Or.inr ⟨gone, after, rest, handler, ?_⟩⟩
      exact ⟨hbusy.writing, hbusy.writeQueue, rfl, Or.inl (by simpa [Lost, done] using hlost)⟩
    · have hlen := hbusy.sent.resolve_left hlost
      have hcalls := h.stream_calls hbusy.writeQueue
      have hsent : t.sent = stream 0 t.done ++ gone.map (⟨t.completed.length, ·⟩) := by
        refine (List.prefix_of_prefix_length_le h.sent ?_ ?_).eq_of_length ?_
        · rw [hcalls, List.map_append, List.append_assoc]
          exact (List.prefix_append_right_inj _).mpr (List.prefix_append _ _)
        · simp [hlen]
        · simp [hlen]
      refine ⟨h.calls, ?_, h.alone, Or.inr ⟨gone ++ out, after, rest, handler, ?_⟩⟩
      · rw [hcalls, hsent]
        simp [List.append_assoc]
      · refine ⟨hbusy.writing, ?_, rfl, Or.inr ?_⟩
        · simp [hbusy.writeQueue]
        · simp [hlen, done, Nat.add_assoc]

/-- Bytes that follow a gap are not where they belong. -/
theorem Serial.moved_eq_nil {t : TcpTransport} (h : Serial t) {operation count : Nat}
    (hgood : InOrder (TcpTransport.transfer operation count t)) (hlost : Lost t) :
    moved t operation count = [] := by
  rcases h.phase with hidle | ⟨gone, left, rest, handler, hbusy⟩
  · exact (hidle.transfer operation count).1
  · obtain ⟨out, after, rfl, hmoved, heq⟩ := hbusy.transfer operation count
    have hsent := hgood.sent
    rw [heq] at hsent
    cases out with
    | nil => simpa using hmoved
    | cons byte out =>
        obtain ⟨more, hmore⟩ := hsent
        have hat : (stream 0 t.done)[t.sent.length]? = some ⟨t.completed.length, byte⟩ := by
          have hget := congrArg (·[t.sent.length]?) hmore
          simp only [h.calls, stream_append] at hget
          rw [List.getElem?_append_left hlost] at hget
          simpa using hget.symm
        have hlt := call_lt_of_mem_stream (List.mem_of_getElem? hat)
        simp [done] at hlt

/-! ## Completions -/

/-- While a write is outstanding, or its handler runs, calls only fill the queue. -/
theorem foldl_perform {t : TcpTransport} (h : t.writing = true) (requests : List Request) :
    ∃ isOpen, requests.foldl perform t = { t with
      isOpen := isOpen
      writeQueue := t.writeQueue ++ writes requests
      calls := t.calls ++ writes requests } := by
  induction requests generalizing t with
  | nil => exact ⟨t.isOpen, by simp [writes]⟩
  | cons request requests ih =>
      cases request with
      | asyncWrite write =>
          have hpush : t.perform (.asyncWrite write) = push write t := by
            simp [perform, asyncWrite, push, h]
          obtain ⟨isOpen, heq⟩ := ih (t := push write t) h
          refine ⟨isOpen, ?_⟩
          rw [List.foldl_cons, hpush, heq]
          simp [push, writes]
      | close =>
          obtain ⟨isOpen, heq⟩ := ih (t := close t) h
          refine ⟨isOpen, ?_⟩
          rw [List.foldl_cons, perform, heq]
          simp [close, writes]

/-- The operation that completes is the one for the front of the queue. -/
theorem Serial.completes {t : TcpTransport} (h : Serial t) {operation : Nat}
    {ec : Option ErrorCode} (hcompletes : completes operation ec t = true) :
    operation = 0 ∧ ∃ gone left rest handler, Busy gone left rest handler t ∧
      (ec = none → left = []) := by
  rcases h.phase with hidle | ⟨gone, left, rest, handler, hbusy⟩
  · simp [TcpTransport.completes, hidle.operations] at hcompletes
  · cases operation with
    | succ operation => simp [TcpTransport.completes, hbusy.operations] at hcompletes
    | zero =>
        refine ⟨rfl, gone, left, rest, handler, hbusy, ?_⟩
        rintro rfl
        simpa [TcpTransport.completes, hbusy.operations] using hcompletes

theorem onWritten_cons {t : TcpTransport} {write : PendingWrite} {rest : List PendingWrite}
    (h : t.writeQueue = write :: rest) (ec : Option ErrorCode) :
    onWritten react ec t =
      (let served := (reactions react write ec (pop ec write rest t)).foldl perform
        (pop ec write rest t)
       if ec.isSome then { served with writing := false } else doWrite served) := by
  unfold onWritten
  rw [h]

theorem leftBehind_cons {t : TcpTransport} {write : PendingWrite} {rest : List PendingWrite}
    (h : t.writeQueue = write :: rest) (ec : Option ErrorCode) :
    leftBehind react ec t = rest ++ writes (reactions react write ec (pop ec write rest t)) := by
  unfold leftBehind
  rw [h]

/-- The operation of the front is over, its handler has run, and `new` was
queued by it. -/
def served (ec : Option ErrorCode) (write : PendingWrite) (rest new : List PendingWrite)
    (isOpen : Bool) (t : TcpTransport) : TcpTransport :=
  { t with
    isOpen := isOpen
    operations := []
    writeQueue := rest ++ new
    calls := t.calls ++ new
    completed := t.completed ++ [⟨write, ec, rest.length⟩] }

theorem Busy.onWritten {gone left : Bytes} {rest : List PendingWrite}
    {handler : Option HandlerId} {t : TcpTransport} (h : Busy gone left rest handler t)
    (ec : Option ErrorCode) :
    ∃ isOpen new, leftBehind react ec { t with operations := [] } = rest ++ new ∧
      TcpTransport.onWritten react ec { t with operations := [] } =
        (let after := served ec ⟨gone ++ left, handler⟩ rest new isOpen t
         if ec.isSome then { after with writing := false } else doWrite after) := by
  have hqueue : ({ t with operations := [] } : TcpTransport).writeQueue =
      ⟨gone ++ left, handler⟩ :: rest := h.writeQueue
  have hwriting : (pop ec ⟨gone ++ left, handler⟩ rest
      { t with operations := [] }).writing = true := h.writing
  obtain ⟨isOpen, heq⟩ := foldl_perform hwriting
    (reactions react ⟨gone ++ left, handler⟩ ec
      (pop ec ⟨gone ++ left, handler⟩ rest { t with operations := [] }))
  refine ⟨isOpen, _, leftBehind_cons react hqueue ec, ?_⟩
  rw [onWritten_cons react hqueue ec, heq]
  rfl

/-- What holds between the handler of a write and the next write. -/
theorem Serial.served {t : TcpTransport} (h : Serial t) {gone left : Bytes}
    {rest : List PendingWrite} {handler : Option HandlerId}
    (hbusy : Busy gone left rest handler t) (ec : Option ErrorCode) (new : List PendingWrite)
    (isOpen : Bool) :
    let after := served ec ⟨gone ++ left, handler⟩ rest new isOpen t
    after.calls = after.done ++ after.writeQueue ∧ after.sent <+: stream 0 after.calls ∧
      after.sent.length ≤ (stream 0 after.done).length := by
  refine ⟨?_, ?_, ?_⟩
  · simp [TcpTransport.served, done, h.calls, hbusy.writeQueue]
  · simp only [TcpTransport.served, stream_append]
    exact h.sent.trans (List.prefix_append _ _)
  · have hdone : (stream 0 (TcpTransport.served ec ⟨gone ++ left, handler⟩ rest new isOpen
        t).done).length = (stream 0 t.done).length + (gone.length + left.length) := by
      simp [TcpTransport.served, done, stream_append, stream]
    rw [hdone]
    rcases hbusy.sent with hlost | hlen
    · have hlt : t.sent.length < (stream 0 t.done).length := hlost
      simp only [TcpTransport.served]
      omega
    · simp only [TcpTransport.served]
      omega

theorem Serial.onWritten {t : TcpTransport} (h : Serial t) {gone left : Bytes}
    {rest : List PendingWrite} {handler : Option HandlerId}
    (hbusy : Busy gone left rest handler t) (ec : Option ErrorCode)
    (hok : ec ≠ none → leftBehind react ec { t with operations := [] } = []) :
    Serial (TcpTransport.onWritten react ec { t with operations := [] }) := by
  obtain ⟨isOpen, new, hleft, heq⟩ := hbusy.onWritten react ec
  obtain ⟨hcalls, hsent, hlen⟩ := h.served hbusy ec new isOpen
  rw [heq]
  cases ec with
  | none =>
      have halone : ∀ c ∈ (TcpTransport.served none ⟨gone ++ left, handler⟩ rest new isOpen
          t).completed, c.ec ≠ none → c.behind = 0 := by
        intro c hc hec
        rcases List.mem_append.mp hc with hc | hc
        · exact h.alone c hc hec
        · rw [List.mem_singleton.mp hc] at hec
          exact absurd rfl hec
      have hphase := phase_doWrite (t := TcpTransport.served none _ rest new isOpen t) rfl hlen
      simp only [Option.isSome_none, Bool.false_eq_true, if_false]
      refine ⟨?_, ?_, ?_, hphase⟩
      · simpa [done] using hcalls
      · simpa using hsent
      · simpa using halone
  | some ec =>
      have hnothing : rest ++ new = [] := hleft ▸ hok (by simp)
      obtain ⟨rfl, rfl⟩ := List.append_eq_nil_iff.mp hnothing
      refine ⟨hcalls, hsent, ?_, Or.inl ⟨rfl, rfl, rfl, hlen⟩⟩
      intro c hc hec
      rcases List.mem_append.mp hc with hc | hc
      · exact h.alone c hc hec
      · rw [List.mem_singleton.mp hc]
        rfl

/-- What a failed write leaves behind is never completed by its failure. -/
theorem Serial.leftBehind_eq_nil {t : TcpTransport} (h : Serial t) {gone left : Bytes}
    {rest : List PendingWrite} {handler : Option HandlerId}
    (hbusy : Busy gone left rest handler t) {ec : ErrorCode}
    (hgood : InOrder (TcpTransport.onWritten react (some ec) { t with operations := [] })) :
    leftBehind react (some ec) { t with operations := [] } = [] := by
  obtain ⟨isOpen, new, hleft, heq⟩ := hbusy.onWritten react (some ec)
  rw [heq] at hgood
  obtain ⟨hcalls, -, -⟩ := h.served hbusy (some ec) new isOpen
  have hfinished : (TcpTransport.served (some ec) ⟨gone ++ left, handler⟩ rest new isOpen t).done =
      (TcpTransport.served (some ec) ⟨gone ++ left, handler⟩ rest new isOpen t).calls :=
    hgood.finished rfl
  rw [hcalls, List.self_eq_append_right] at hfinished
  rw [hleft]
  exact hfinished

/-! ## Runs -/

theorem Serial.step {t : TcpTransport} (h : Serial t) (event : Event)
    (hok : Orderly react t event) : Serial (t.step react event) := by
  cases event with
  | connected => exact h.socket true
  | request request => exact h.perform request
  | transfer operation count => exact h.transfer operation count hok
  | complete operation ec =>
      simp only [TcpTransport.step]
      split
      · rename_i hcompletes
        obtain ⟨rfl, gone, left, rest, handler, hbusy, -⟩ := h.completes hcompletes
        have herase : t.operations.eraseIdx 0 = [] := by simp [hbusy.operations]
        rw [herase]
        refine h.onWritten react hbusy ec ?_
        intro hec
        cases ec with
        | none => exact absurd rfl hec
        | some ec => exact herase ▸ hok hcompletes
      · exact h

theorem Serial.orderly {t : TcpTransport} (h : Serial t) (event : Event)
    (hgood : InOrder (t.step react event)) : Orderly react t event := by
  cases event with
  | connected => trivial
  | request request => trivial
  | transfer operation count => exact h.moved_eq_nil hgood
  | complete operation ec =>
      cases ec with
      | none => trivial
      | some ec =>
          intro hcompletes
          obtain ⟨rfl, gone, left, rest, handler, hbusy, -⟩ := h.completes hcompletes
          have herase : t.operations.eraseIdx 0 = [] := by simp [hbusy.operations]
          simp only [TcpTransport.step, if_pos hcompletes, herase] at hgood
          rw [herase]
          exact h.leftBehind_eq_nil react hbusy hgood

/-- Every state of a run is in order if and only if no write fails in front of
others and no byte follows a gap. -/
theorem in_order_iff (isOpen : Bool) (events : List Event) :
    (∀ t ∈ states (step react) (fresh isOpen) events, InOrder t) ↔
      Guarded (step react) (Orderly react) (fresh isOpen) events :=
  good_iff_guarded (fun _ h => h.inOrder) (fun _ event h => h.step react event)
    (fun _ event h => h.orderly react event) (serial_fresh isOpen) events

/-- Two writes, of which the first fails: the handler of the second is not
called. -/
theorem not_in_order_failed_write :
    ¬ ∀ t ∈ states (step fun _ _ _ => []) (fresh true)
        [.request (.asyncWrite ⟨[1], some 0⟩), .request (.asyncWrite ⟨[2], some 1⟩),
          .complete 0 (some (.transport 32))], InOrder t := by
  intro hall
  have hlast := hall _ (run_mem_states _ _ _)
  have hfinished := hlast.finished rfl
  exact absurd hfinished (by decide)

end EsphomeApi.TcpTransport
