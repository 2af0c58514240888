/-
EsphomeApi.Transport.Resumption — a transport that is used again.

`close` closes the socket and nothing else: `write_queue_`, `writing_` and the
operations asio has not completed stay. A transport at which they are empty
(`Rested`) does in a second session what a new one does, with the first
session's history in front of it (`run_of_rested`); one at which they are not
sends bytes of the first session to the second device.
-/
import Mathlib.Data.List.InsertIdx
import EsphomeApi.Library.GuardedRun
import EsphomeApi.Transport.TcpTransport

namespace EsphomeApi.TcpTransport

open Library

/-- Closed, with nothing queued and nothing in flight. -/
structure Rested (t : TcpTransport) : Prop where
  isOpen : t.isOpen = false
  writeQueue : t.writeQueue = []
  writing : t.writing = false
  operations : t.operations = []

/-- The number of a call, after earlier ones. -/
def renumberByte (earlier : TcpTransport) (b : SentByte) : SentByte :=
  { b with call := earlier.completed.length + b.call }

def renumber (earlier : TcpTransport) (op : WriteOperation) : WriteOperation :=
  { op with call := earlier.completed.length + op.call }

/-- What a transport has done, after what another has done before. -/
def onto (earlier t : TcpTransport) : TcpTransport :=
  { t with
    operations := t.operations.map (renumber earlier)
    calls := earlier.calls ++ t.calls
    sent := earlier.sent ++ t.sent.map (renumberByte earlier)
    completed := earlier.completed ++ t.completed }

/-- The handlers know what was done before. -/
def Reactions.after (earlier : TcpTransport) (react : Reactions) : Reactions :=
  fun t => react (onto earlier t)

theorem Rested.onto_new {t : TcpTransport} (h : Rested t) : onto t {} = t := by
  cases t
  obtain ⟨rfl, rfl, rfl, rfl⟩ := h
  simp [onto]

/-- The bytes, without the numbers of their calls. -/
theorem onto_sent_bytes (earlier t : TcpTransport) : (onto earlier t).sent.map SentByte.byte =
    earlier.sent.map SentByte.byte ++ t.sent.map SentByte.byte := by
  simp [onto, renumberByte, Function.comp_def]

/-! ## The member functions -/

variable (earlier : TcpTransport) (react : Reactions)

@[simp] theorem onto_isOpen (t : TcpTransport) : (onto earlier t).isOpen = t.isOpen := rfl

@[simp] theorem onto_writeQueue (t : TcpTransport) :
    (onto earlier t).writeQueue = t.writeQueue := rfl

@[simp] theorem onto_writing (t : TcpTransport) : (onto earlier t).writing = t.writing := rfl

theorem onto_doWrite (t : TcpTransport) : doWrite (onto earlier t) = onto earlier (doWrite t) := by
  cases t with
  | mk isOpen writeQueue writing operations calls sent completed =>
      cases writeQueue with
      | nil => rfl
      | cons write rest => simp [onto, doWrite, renumber]

theorem onto_asyncWrite (write : PendingWrite) (t : TcpTransport) :
    asyncWrite write (onto earlier t) = onto earlier (asyncWrite write t) := by
  have hpush : push write (onto earlier t) = onto earlier (push write t) := by
    simp [onto, push, List.append_assoc]
  unfold asyncWrite
  dsimp only
  rw [hpush, onto_doWrite, onto_writing]
  split <;> rfl

theorem onto_perform (request : Request) (t : TcpTransport) :
    perform (onto earlier t) request = onto earlier (perform t request) := by
  cases request with
  | asyncWrite write => exact onto_asyncWrite earlier write t
  | close => rfl

theorem onto_foldl_perform (requests : List Request) (t : TcpTransport) :
    requests.foldl perform (onto earlier t) = onto earlier (requests.foldl perform t) := by
  induction requests generalizing t with
  | nil => rfl
  | cons request requests ih =>
      rw [List.foldl_cons, onto_perform, ih, List.foldl_cons]

theorem onto_onWritten (ec : Option ErrorCode) (t : TcpTransport) :
    onWritten react ec (onto earlier t) = onto earlier (onWritten (react.after earlier) ec t) := by
  unfold onWritten
  rw [onto_writeQueue]
  cases t.writeQueue with
  | nil => rfl
  | cons write rest =>
      have hpop : pop ec write rest (onto earlier t) = onto earlier (pop ec write rest t) := by
        simp [onto, pop, List.append_assoc]
      have hreact : reactions react write ec (onto earlier (pop ec write rest t)) =
          reactions (react.after earlier) write ec (pop ec write rest t) := rfl
      dsimp only
      rw [hpop, hreact, onto_foldl_perform, onto_doWrite]
      split <;> rfl

/-! ## Runs -/

theorem onto_operation (t : TcpTransport) (operation : Nat) :
    (onto earlier t).operations[operation]? =
      t.operations[operation]?.map (renumber earlier) := List.getElem?_map ..

theorem onto_moved (t : TcpTransport) (operation count : Nat) :
    moved (onto earlier t) operation count =
      (moved t operation count).map (renumberByte earlier) := by
  unfold moved
  rw [onto_operation, onto_isOpen]
  cases t.operations[operation]? with
  | none => rfl
  | some op =>
      dsimp only [Option.map_some]
      split
      · rw [List.map_map]
        rfl
      · rfl

theorem modify_renumber (n : Nat) (ops : List WriteOperation) (operation : Nat) :
    (ops.map (renumber earlier)).modify operation
        (fun op => { op with unsent := op.unsent.drop n }) =
      (ops.modify operation fun op => { op with unsent := op.unsent.drop n }).map
        (renumber earlier) := by
  induction ops generalizing operation with
  | nil => cases operation <;> rfl
  | cons op ops ih =>
      cases operation with
      | zero => rfl
      | succ operation => simpa using ih operation

theorem onto_transfer (operation count : Nat) (t : TcpTransport) :
    transfer operation count (onto earlier t) = onto earlier (transfer operation count t) := by
  unfold transfer
  dsimp only
  rw [onto_moved, List.length_map]
  simp [onto, modify_renumber, List.append_assoc]

theorem onto_completes (operation : Nat) (ec : Option ErrorCode) (t : TcpTransport) :
    completes operation ec (onto earlier t) = completes operation ec t := by
  unfold completes
  rw [onto_operation]
  cases t.operations[operation]? <;> rfl

theorem onto_step (t : TcpTransport) (e : Event) :
    step react (onto earlier t) e = onto earlier (step (react.after earlier) t e) := by
  cases e with
  | connected => rfl
  | request request => exact onto_perform earlier request t
  | transfer operation count => exact onto_transfer earlier operation count t
  | complete operation ec =>
      have herase : { onto earlier t with
          operations := (onto earlier t).operations.eraseIdx operation } =
          onto earlier { t with operations := t.operations.eraseIdx operation } := by
        simp [onto, List.eraseIdx_map]
      unfold step
      dsimp only
      rw [onto_completes, herase, onto_onWritten]
      split <;> rfl

/-- A transport at rest does what a new one does. -/
theorem run_of_rested {t : TcpTransport} (h : Rested t) (events : List Event) :
    run (step react) t events = onto t (run (step (react.after t)) {} events) := by
  have hrun : ∀ u : TcpTransport, run (step react) (onto t u) events =
      onto t (run (step (react.after t)) u events) := by
    induction events with
    | nil => exact fun _ => rfl
    | cons e events ih =>
        intro u
        rw [run, List.foldl_cons, onto_step]
        exact ih _
  rw [← hrun, h.onto_new]

end EsphomeApi.TcpTransport
