/-
EsphomeApi.Subsystems.GattTables — the packed key, and what each operation of
the GATT part does to the tables.

The tables are read through `pending` and `services`; `Called` says what a call
does to them, to the lambda and to the log.
-/
import Mathlib.Data.List.AList
import EsphomeApi.Subsystems.BluetoothProxy

namespace EsphomeApi

namespace BluetoothProxy

variable {s t : BluetoothProxy}

/-! ## The key -/

theorem gattKey_toNat (address : UInt64) (handle : UInt32) :
    (gattKey address handle).toNat =
      address.toNat % 2 ^ 48 * 2 ^ 16 + handle.toNat % 2 ^ 16 := by
  have hlow : (handle &&& 0xFFFF).toUInt64.toNat = handle.toNat % 2 ^ 16 := by
    have hmask : handle.toNat &&& 65535 = handle.toNat % 2 ^ 16 :=
      Nat.and_two_pow_sub_one_eq_mod _ 16
    simpa using hmask
  have hhigh : (address <<< 16).toNat = 2 ^ 16 * (address.toNat % 2 ^ 48) := by
    have hshift : (address <<< 16).toNat = address.toNat <<< 16 % 2 ^ 64 := by
      simp [UInt64.toNat_shiftLeft]
    rw [hshift, Nat.shiftLeft_eq, show 2 ^ 64 = 2 ^ 48 * 2 ^ 16 from rfl, Nat.mul_mod_mul_right,
      Nat.mul_comm]
  rw [gattKey, UInt64.toNat_or, hhigh, hlow,
    ← Nat.two_pow_add_eq_or_of_lt (Nat.mod_lt _ (Nat.two_pow_pos 16)), Nat.mul_comm]

/-- The key keeps the low 48 bits of the address and the low 16 of the handle. -/
theorem gattKey_eq_iff {a a' : UInt64} {h h' : UInt32} :
    gattKey a h = gattKey a' h' ↔
      a.toNat % 2 ^ 48 = a'.toNat % 2 ^ 48 ∧ h.toNat % 2 ^ 16 = h'.toNat % 2 ^ 16 := by
  rw [← UInt64.toNat_inj, gattKey_toNat, gattKey_toNat]
  omega

/-! ## What waits and what has been accumulated -/

/-- The services accumulated for an address. -/
def services (s : BluetoothProxy) (address : UInt64) : List BleGattService :=
  (s.accumulator address).services

@[simp] theorem pending_record (o : Occurrence) (T : Table) (key : UInt64) :
    (s.record o).pending T key = s.pending T key := by
  cases T <;> rfl

@[simp] theorem services_record (o : Occurrence) (address : UInt64) :
    (s.record o).services address = s.services address := rfl

@[simp] theorem record_todo (o : Occurrence) : (s.record o).todo = s.todo := rfl

@[simp] theorem record_current (o : Occurrence) : (s.record o).current = s.current := rfl

@[simp] theorem record_log (o : Occurrence) : (s.record o).log = s.log ++ [o] := rfl

@[simp] theorem record_gattRegistered (o : Occurrence) :
    (s.record o).gattRegistered = s.gattRegistered := rfl

@[simp] theorem ensureGattHandlers_todo : s.ensureGattHandlers.todo = s.todo := rfl

@[simp] theorem ensureGattHandlers_current : s.ensureGattHandlers.current = s.current := rfl

@[simp] theorem ensureGattHandlers_log : s.ensureGattHandlers.log = s.log := rfl

@[simp] theorem ensureGattHandlers_gattRegistered : s.ensureGattHandlers.gattRegistered = true :=
  rfl

@[simp] theorem ensureGattHandlers_services (address : UInt64) :
    s.ensureGattHandlers.services address = s.services address := rfl

@[simp] theorem ensureGattHandlers_pending (T : Table) (key : UInt64) :
    s.ensureGattHandlers.pending T key = s.pending T key := by
  cases T <;> rfl

@[simp] theorem push_todo (request : Request) : (s.push request).todo = s.todo := by
  unfold push
  split <;> rfl

@[simp] theorem push_current (request : Request) : (s.push request).current = s.current := by
  unfold push
  split <;> rfl

@[simp] theorem push_log (request : Request) : (s.push request).log = s.log := by
  unfold push
  split <;> rfl

@[simp] theorem push_gattRegistered (request : Request) :
    (s.push request).gattRegistered = s.gattRegistered := by
  unfold push
  split <;> rfl

theorem services_push (request : Request) (address : UInt64) :
    (s.push request).services address = s.services address := by
  unfold push services
  split
  · rfl
  · rfl
  · by_cases h : address = request.key
    · subst h
      simp [accumulator]
    · simp [accumulator, h]

theorem pending_push (request : Request) (T : Table) (key : UInt64) :
    (s.push request).pending T key =
      s.pending T key ++ if request.table = T ∧ request.key = key then [request] else [] := by
  by_cases hkey : key = request.key
  · subst hkey
    cases T <;> cases htable : request.table <;>
      simp [push, pending, accumulator, htable]
  · cases T <;> cases htable : request.table <;>
      simp [push, pending, accumulator, htable, hkey, Ne.symm hkey]

theorem pending_erase (T T' : Table) (key key' : UInt64) :
    (s.erase T key).pending T' key' = if T' = T ∧ key' = key then [] else s.pending T' key' := by
  by_cases hkey : key' = key
  · subst hkey
    cases T <;> cases T' <;> simp [erase, pending, accumulator]
  · cases T <;> cases T' <;> simp [erase, pending, accumulator, hkey]

theorem services_erase (T : Table) (key address : UInt64) :
    (s.erase T key).services address =
      if T = .services ∧ address = key then [] else s.services address := by
  by_cases hkey : address = key
  · subst hkey
    cases T <;> simp [erase, services, accumulator]
  · cases T <;> simp [erase, services, accumulator, hkey]

/-! ## Calls -/

/-- The callback that a call puts into a table. -/
def Call.registration : Call → Nat → Option Request
  | .read address handle true, number => some ⟨number, .reads, address, handle⟩
  | .write address handle _ _ true, number => some ⟨number, .writes, address, handle⟩
  | .getServices address true, number => some ⟨number, .services, address, 0⟩
  | _, _ => none

/-- The message that a call sends. -/
def Call.sends : Call → Option Sent
  | .read address handle _ | .readRaw address handle => some (.readRequest address handle)
  | .write address handle data response _ | .writeRaw address handle data response =>
      some (.writeRequest address handle response data)
  | .getServices address _ | .getServicesRaw address => some (.getServicesRequest address)
  | .notify address handle enable => some (.notifyRequest address handle enable)
  | _ => none

/-- What a call records. -/
def Call.entries (c : Call) (number : Nat) : List Occurrence :=
  ((c.registration number).map .registered).toList ++ (c.sends.map .sent).toList

/-- What a call does to what the theorems look at. -/
structure Called (c : Call) (s t : BluetoothProxy) : Prop where
  todo : t.todo = s.todo
  current : t.current = s.current
  services (address : UInt64) : t.services address = s.services address
  log : t.log = s.log ++ c.entries s.log.length
  pending (T : Table) (key : UInt64) : t.pending T key = s.pending T key ++
    (c.registration s.log.length).toList.filter fun r => r.table = T ∧ r.key = key
  handlers : c.registration s.log.length ≠ none ∨ s.gattRegistered → t.gattRegistered

theorem called (c : Call) (s : BluetoothProxy) : Called c s (s.call c) := by
  cases c with
  | read _ _ done | write _ _ _ _ done | getServices _ done =>
      cases done <;> constructor <;>
        simp [call, read, write, getServices, register, readRaw, writeRaw, getServicesRaw,
          pending_push, services_push, List.filter_cons, Call.entries, Call.registration,
          Call.sends]
  | readRaw | writeRaw | getServicesRaw | notify =>
      constructor <;>
        simp [call, readRaw, writeRaw, getServicesRaw, notify, Call.entries, Call.registration,
          Call.sends]
  | onRead | onNotifyData | onServices | onServicesDone | onError =>
      refine ⟨rfl, rfl, fun _ => rfl, ?_, fun T _ => ?_, fun _ => rfl⟩
      · simp [call, onRead, onNotifyData, onServices, onServicesDone, onError, Call.entries,
          Call.registration, Call.sends]
      · cases T <;> exact (List.append_nil _).symm

/-! ## The lambda -/

@[simp] theorem pending_todo (todo : List Work) (T : Table) (key : UInt64) :
    pending { s with todo := todo } T key = s.pending T key := by
  cases T <;> rfl

@[simp] theorem services_todo (todo : List Work) (address : UInt64) :
    services { s with todo := todo } address = s.services address := rfl

@[simp] theorem pending_receive (m : Message) (T : Table) (key : UInt64) :
    (s.receive m).pending T key = s.pending T key := by
  cases T <;> rfl

@[simp] theorem services_receive (m : Message) (address : UInt64) :
    (s.receive m).services address = s.services address := rfl

theorem receive_todo_sublist (m : Message) : (s.receive m).todo.Sublist (lambda m) := by
  unfold receive
  dsimp only
  split
  · exact List.Sublist.refl _
  · exact List.nil_sublist _

@[simp] theorem pending_accumulate (address : UInt64) (l : List BleGattService) (T : Table)
    (key : UInt64) : (s.accumulate address l).pending T key = s.pending T key := by
  cases T with
  | reads | writes => rfl
  | services =>
      by_cases h : key = address
      · subst h
        simp [accumulate, pending, accumulator]
      · simp [accumulate, pending, accumulator, h]

theorem services_accumulate (address a : UInt64) (l : List BleGattService) :
    (s.accumulate address l).services a =
      s.services a ++ if a = address then l else [] := by
  by_cases h : a = address
  · subst h
    simp [accumulate, services, accumulator]
  · simp [accumulate, services, accumulator, h]

/-- The callbacks of an entry are due, each with the result. -/
def due (T : Table) (key : UInt64) (result : Result) (s : BluetoothProxy) : List Work :=
  (s.pending T key).map fun request => .once request (result.withServices (s.services key))

theorem mem_due {T : Table} {key : UInt64} {result : Result} {work : Work} :
    work ∈ due T key result s ↔ ∃ request ∈ s.pending T key,
      work = .once request (result.withServices (s.services key)) := by
  simp [due, eq_comm]

@[simp] theorem take_todo (T : Table) (key : UInt64) (result : Result) :
    (s.take T key result).todo = due T key result s ++ s.todo := rfl

@[simp] theorem take_current (T : Table) (key : UInt64) (result : Result) :
    (s.take T key result).current = s.current := by
  cases T <;> rfl

@[simp] theorem take_log (T : Table) (key : UInt64) (result : Result) :
    (s.take T key result).log = s.log := by
  cases T <;> rfl

@[simp] theorem take_gattRegistered (T : Table) (key : UInt64) (result : Result) :
    (s.take T key result).gattRegistered = s.gattRegistered := by
  cases T <;> rfl

theorem step_take {T : Table} {key : UInt64} {result : Result} {rest : List Work}
    (calls : List Call) (htodo : s.todo = .take T key result :: rest) :
    step s (.turn calls) = take T key result { s with todo := rest } := by
  rw [step, htodo]
  rfl

theorem pending_take (T T' : Table) (key key' : UInt64) (result : Result) :
    (s.take T key result).pending T' key' =
      if T' = T ∧ key' = key then [] else s.pending T' key' := by
  rw [take, pending_todo, pending_erase]

theorem services_take (T : Table) (key address : UInt64) (result : Result) :
    (s.take T key result).services address =
      if T = .services ∧ address = key then [] else s.services address := by
  rw [take, services_todo, services_erase]

end BluetoothProxy

end EsphomeApi
