/-
EsphomeApi.Subsystems.BluetoothProxy — the GATT part of `bluetooth_proxy.cpp`:
the requests with their one-shot callbacks, and the lambdas that
`ensure_gatt_handlers` registers for the responses.

A lambda runs code of the application in its middle: first the persistent
`on_*` handler, then the callbacks it takes out of a table, one after another,
and each of them may call the proxy again. So what a lambda still has to do is
data here, `todo`, with one entry for each place where the application gets
control or a table is consulted; `turn` is the next of them, and the calls that
the application makes there come with the event. A callback is known by the
call it was passed to, the position of that call in `log`. The log, and
`current`, the position of the message being handled, are kept for the
theorems: no function of the source reads them.
-/
import Mathlib.Algebra.GroupWithZero.Nat
import Mathlib.Data.List.AList
import EsphomeApi.Exception
import EsphomeApi.Library.GuardedRun

namespace EsphomeApi

/-! ## Data -/

/-- The messages of a service table, as they arrive. -/
structure BluetoothGATTDescriptor where
  uuid : List UInt64
  handle : UInt32
  deriving DecidableEq

structure BluetoothGATTCharacteristic where
  uuid : List UInt64
  handle : UInt32
  properties : UInt32
  descriptors : List BluetoothGATTDescriptor
  deriving DecidableEq

structure BluetoothGATTService where
  uuid : List UInt64
  handle : UInt32
  characteristics : List BluetoothGATTCharacteristic
  deriving DecidableEq

structure BleGattDescriptor where
  uuid : List UInt64
  handle : UInt32
  deriving DecidableEq

structure BleGattCharacteristic where
  uuid : List UInt64
  handle : UInt32
  properties : UInt32
  descriptors : List BleGattDescriptor
  deriving DecidableEq

structure BleGattService where
  uuid : List UInt64
  handle : UInt32
  characteristics : List BleGattCharacteristic
  deriving DecidableEq

def toGattDescriptor (pd : BluetoothGATTDescriptor) : BleGattDescriptor := ⟨pd.uuid, pd.handle⟩

def toGattCharacteristic (pc : BluetoothGATTCharacteristic) : BleGattCharacteristic :=
  ⟨pc.uuid, pc.handle, pc.properties, pc.descriptors.map toGattDescriptor⟩

/-- `to_gatt_service` -/
def toGattService (service : BluetoothGATTService) : BleGattService :=
  ⟨service.uuid, service.handle, service.characteristics.map toGattCharacteristic⟩

structure BleGattRead where
  address : UInt64
  handle : UInt32
  data : CString
  deriving DecidableEq

structure BleGattNotifyData where
  address : UInt64
  handle : UInt32
  data : CString
  deriving DecidableEq

structure BleGattServices where
  address : UInt64
  services : List BleGattService
  deriving DecidableEq

structure BleGattError where
  address : UInt64
  handle : UInt32
  error : Int32
  deriving DecidableEq

structure BleGattReadResult where
  address : UInt64
  handle : UInt32
  ok : Bool
  data : CString
  error : Int32
  deriving DecidableEq

structure BleGattWriteResult where
  address : UInt64
  handle : UInt32
  ok : Bool
  error : Int32
  deriving DecidableEq

structure BleGattServicesResult where
  address : UInt64
  ok : Bool
  services : List BleGattService
  error : Int32
  deriving DecidableEq

namespace BluetoothProxy

/-- The messages that arrive for the GATT part. -/
inductive Message where
  | readResponse (address : UInt64) (handle : UInt32) (data : CString)
  | writeResponse (address : UInt64) (handle : UInt32)
  | notifyDataResponse (address : UInt64) (handle : UInt32) (data : CString)
  | getServicesResponse (address : UInt64) (services : List BluetoothGATTService)
  | getServicesDoneResponse (address : UInt64)
  | errorResponse (address : UInt64) (handle : UInt32) (error : Int32)
  deriving DecidableEq

/-- The messages that it sends. -/
inductive Sent where
  | readRequest (address : UInt64) (handle : UInt32)
  | writeRequest (address : UInt64) (handle : UInt32) (response : Bool) (data : CString)
  | notifyRequest (address : UInt64) (handle : UInt32) (enable : Bool)
  | getServicesRequest (address : UInt64)
  deriving DecidableEq

/-- The application's name for a persistent handler. -/
abbrev Handler := Nat

/-- The calls of the application. `done` says whether a callback is passed; the
raw overloads do not take one. -/
inductive Call where
  | read (address : UInt64) (handle : UInt32) (done : Bool)
  | write (address : UInt64) (handle : UInt32) (data : CString) (response done : Bool)
  | getServices (address : UInt64) (done : Bool)
  | readRaw (address : UInt64) (handle : UInt32)
  | writeRaw (address : UInt64) (handle : UInt32) (data : CString) (response : Bool)
  | getServicesRaw (address : UInt64)
  | notify (address : UInt64) (handle : UInt32) (enable : Bool)
  | onRead (handler : Option Handler)
  | onNotifyData (handler : Option Handler)
  | onServices (handler : Option Handler)
  | onServicesDone (handler : Option Handler)
  | onError (handler : Option Handler)
  deriving DecidableEq

/-- The tables of pending callbacks: `pending_reads_`, `pending_writes_` and
`pending_services_`. -/
inductive Table where
  | reads
  | writes
  | services
  deriving DecidableEq, Repr

/-- `gatt_key` -/
def gattKey (address : UInt64) (handle : UInt32) : UInt64 :=
  (address <<< 16) ||| (handle &&& 0xFFFF).toUInt64

/-- A one-shot callback: the position of the call that it was passed to, and what
that call was about. A discovery has no handle. -/
structure Request where
  number : Nat
  table : Table
  address : UInt64
  handle : UInt32 := 0
  deriving DecidableEq

/-- The key under which the callback is put into its table. -/
def Request.key (request : Request) : UInt64 :=
  match request.table with
  | .services => request.address
  | _ => gattKey request.address request.handle

/-- The argument of a persistent handler. -/
inductive Notice where
  | read (r : BleGattRead)
  | notifyData (r : BleGattNotifyData)
  | services (r : BleGattServices)
  | servicesDone (address : UInt64)
  | error (r : BleGattError)
  deriving DecidableEq

/-- The argument of a one-shot callback. -/
inductive Result where
  | read (r : BleGattReadResult)
  | write (r : BleGattWriteResult)
  | services (r : BleGattServicesResult)
  deriving DecidableEq

/-- What a lambda still has to do. -/
inductive Work where
  /-- `if (x_handler_) x_handler_(...)` -/
  | handler (notice : Notice)
  /-- append a batch to the accumulator of its address -/
  | append (address : UInt64) (services : List BleGattService)
  /-- take the callbacks that wait under the key out of a table, if any do -/
  | take (table : Table) (key : UInt64) (result : Result)
  /-- `cb(r)` -/
  | once (request : Request) (result : Result)
  deriving DecidableEq

/-- What happens, as it is recorded. -/
inductive Occurrence where
  | sent (message : Sent)
  /-- a call has put its callback into a table -/
  | registered (request : Request)
  | received (message : Message)
  /-- a persistent handler is invoked, by the message at a position of the log -/
  | invoked (cause : Nat) (handler : Handler) (notice : Notice)
  /-- a one-shot callback is invoked, by the message at a position of the log -/
  | completed (cause : Nat) (request : Request) (result : Result)
  deriving DecidableEq

structure ServicesAccumulator where
  services : List BleGattService := []
  handlers : List Request := []
  deriving DecidableEq

end BluetoothProxy

open BluetoothProxy in
structure BluetoothProxy where
  readHandler : Option Handler := none
  notifyDataHandler : Option Handler := none
  servicesHandler : Option Handler := none
  servicesDoneHandler : Option Handler := none
  errorHandler : Option Handler := none
  gattRegistered : Bool := false
  pendingReads : AList (fun _ : UInt64 => List Request) := ∅
  pendingWrites : AList (fun _ : UInt64 => List Request) := ∅
  pendingServices : AList (fun _ : UInt64 => ServicesAccumulator) := ∅
  todo : List Work := []
  current : Nat := 0
  log : List Occurrence := []

namespace BluetoothProxy

def record (o : Occurrence) (s : BluetoothProxy) : BluetoothProxy := { s with log := s.log ++ [o] }

/-! ## Requests -/

/-- `ensure_gatt_handlers` -/
def ensureGattHandlers (s : BluetoothProxy) : BluetoothProxy := { s with gattRegistered := true }

/-- `pending_services_[address]` -/
def accumulator (s : BluetoothProxy) (address : UInt64) : ServicesAccumulator :=
  (s.pendingServices.lookup address).getD {}

/-- `pending_reads_[key].push_back(done)`, and likewise for the other tables. -/
def push (request : Request) (s : BluetoothProxy) : BluetoothProxy :=
  match request.table with
  | .reads =>
      let waiting := (s.pendingReads.lookup request.key).getD []
      { s with pendingReads := s.pendingReads.insert request.key (waiting ++ [request]) }
  | .writes =>
      let waiting := (s.pendingWrites.lookup request.key).getD []
      { s with pendingWrites := s.pendingWrites.insert request.key (waiting ++ [request]) }
  | .services =>
      let acc := s.accumulator request.key
      let acc := { acc with handlers := acc.handlers ++ [request] }
      { s with pendingServices := s.pendingServices.insert request.key acc }

/-- `if (done) ...`: the callback gets the number of its call. -/
def register (done : Bool) (request : Nat → Request) (s : BluetoothProxy) : BluetoothProxy :=
  if done then (s.push (request s.log.length)).record (.registered (request s.log.length)) else s

/-- The raw `read`. -/
def readRaw (address : UInt64) (handle : UInt32) (s : BluetoothProxy) : BluetoothProxy :=
  s.record (.sent (.readRequest address handle))

/-- The raw `write`. -/
def writeRaw (address : UInt64) (handle : UInt32) (data : CString) (response : Bool)
    (s : BluetoothProxy) : BluetoothProxy :=
  s.record (.sent (.writeRequest address handle response data))

def notify (address : UInt64) (handle : UInt32) (enable : Bool) (s : BluetoothProxy) :
    BluetoothProxy :=
  s.record (.sent (.notifyRequest address handle enable))

/-- The raw `get_services`. -/
def getServicesRaw (address : UInt64) (s : BluetoothProxy) : BluetoothProxy :=
  s.record (.sent (.getServicesRequest address))

def read (address : UInt64) (handle : UInt32) (done : Bool) (s : BluetoothProxy) : BluetoothProxy :=
  readRaw address handle
    (s.ensureGattHandlers.register done fun number => ⟨number, .reads, address, handle⟩)

def write (address : UInt64) (handle : UInt32) (data : CString) (response done : Bool)
    (s : BluetoothProxy) : BluetoothProxy :=
  writeRaw address handle data response
    (s.ensureGattHandlers.register done fun number => ⟨number, .writes, address, handle⟩)

def getServices (address : UInt64) (done : Bool) (s : BluetoothProxy) : BluetoothProxy :=
  getServicesRaw address
    (s.ensureGattHandlers.register done fun number => ⟨number, .services, address, 0⟩)

def onRead (handler : Option Handler) (s : BluetoothProxy) : BluetoothProxy :=
  { s with readHandler := handler }.ensureGattHandlers

def onNotifyData (handler : Option Handler) (s : BluetoothProxy) : BluetoothProxy :=
  { s with notifyDataHandler := handler }.ensureGattHandlers

def onServices (handler : Option Handler) (s : BluetoothProxy) : BluetoothProxy :=
  { s with servicesHandler := handler }.ensureGattHandlers

def onServicesDone (handler : Option Handler) (s : BluetoothProxy) : BluetoothProxy :=
  { s with servicesDoneHandler := handler }.ensureGattHandlers

def onError (handler : Option Handler) (s : BluetoothProxy) : BluetoothProxy :=
  { s with errorHandler := handler }.ensureGattHandlers

def call (s : BluetoothProxy) : Call → BluetoothProxy
  | .read address handle done => s.read address handle done
  | .write address handle data response done => s.write address handle data response done
  | .getServices address done => s.getServices address done
  | .readRaw address handle => s.readRaw address handle
  | .writeRaw address handle data response => s.writeRaw address handle data response
  | .getServicesRaw address => s.getServicesRaw address
  | .notify address handle enable => s.notify address handle enable
  | .onRead handler => s.onRead handler
  | .onNotifyData handler => s.onNotifyData handler
  | .onServices handler => s.onServices handler
  | .onServicesDone handler => s.onServicesDone handler
  | .onError handler => s.onError handler

/-! ## Responses -/

/-- The lambda for a message, in the order of its statements. -/
def lambda : Message → List Work
  | .readResponse address handle data =>
      [.handler (.read ⟨address, handle, data⟩),
        .take .reads (gattKey address handle) (.read ⟨address, handle, true, data, 0⟩)]
  | .writeResponse address handle =>
      [.take .writes (gattKey address handle) (.write ⟨address, handle, true, 0⟩)]
  | .notifyDataResponse address handle data => [.handler (.notifyData ⟨address, handle, data⟩)]
  | .getServicesResponse address services =>
      [.handler (.services ⟨address, services.map toGattService⟩),
        .append address (services.map toGattService)]
  | .getServicesDoneResponse address =>
      [.handler (.servicesDone address), .take .services address (.services ⟨address, true, [], 0⟩)]
  | .errorResponse address handle error =>
      [.handler (.error ⟨address, handle, error⟩),
        .take .reads (gattKey address handle) (.read ⟨address, handle, false, [], error⟩),
        .take .writes (gattKey address handle) (.write ⟨address, handle, false, error⟩),
        .take .services address (.services ⟨address, false, [], error⟩)]

/-- A message arrives: its lambda is invoked, if it has been registered. -/
def receive (message : Message) (s : BluetoothProxy) : BluetoothProxy :=
  { s with
    todo := if s.gattRegistered then lambda message else []
    current := s.log.length
    log := s.log ++ [.received message] }

/-- The persistent handler for a notice. -/
def handlerOf (s : BluetoothProxy) : Notice → Option Handler
  | .read _ => s.readHandler
  | .notifyData _ => s.notifyDataHandler
  | .services _ => s.servicesHandler
  | .servicesDone _ => s.servicesDoneHandler
  | .error _ => s.errorHandler

/-- The callbacks that wait under a key. -/
def pending (s : BluetoothProxy) : Table → UInt64 → List Request
  | .reads, key => (s.pendingReads.lookup key).getD []
  | .writes, key => (s.pendingWrites.lookup key).getD []
  | .services, key => (s.accumulator key).handlers

/-- `erase(it)`, if there is an entry. -/
def erase (table : Table) (key : UInt64) (s : BluetoothProxy) : BluetoothProxy :=
  match table with
  | .reads => { s with pendingReads := s.pendingReads.erase key }
  | .writes => { s with pendingWrites := s.pendingWrites.erase key }
  | .services => { s with pendingServices := s.pendingServices.erase key }

/-- The result of a discovery that is done has what was accumulated. -/
def Result.withServices (services : List BleGattService) : Result → Result
  | .services r => .services { r with services := if r.ok then services else r.services }
  | result => result

/-- The entry of the key is moved out of the table, and its callbacks are due. -/
def take (table : Table) (key : UInt64) (result : Result) (s : BluetoothProxy) : BluetoothProxy :=
  let result := result.withServices (s.accumulator key).services
  let due := (s.pending table key).map fun request => Work.once request result
  { erase table key s with todo := due ++ s.todo }

/-- A batch is appended to the accumulator of its address. -/
def accumulate (address : UInt64) (services : List BleGattService) (s : BluetoothProxy) :
    BluetoothProxy :=
  let acc := s.accumulator address
  let acc := { acc with services := acc.services ++ services }
  { s with pendingServices := s.pendingServices.insert address acc }

/-- The next thing that the lambda does; `calls` are those of the callback that is
invoked, if one is. -/
def perform (calls : List Call) (s : BluetoothProxy) : Work → BluetoothProxy
  | .handler notice =>
      match s.handlerOf notice with
      | none => s
      | some f => calls.foldl call (s.record (.invoked s.current f notice))
  | .append address services => s.accumulate address services
  | .take table key result => s.take table key result
  | .once request result => calls.foldl call (s.record (.completed s.current request result))

/-! ## Runs -/

inductive Event where
  /-- the application calls the proxy, outside of its callbacks -/
  | call (c : Call)
  /-- a message arrives -/
  | receive (message : Message)
  /-- the lambda goes on; `calls` are those of the callback it invokes, if it invokes one -/
  | turn (calls : List Call)
  deriving DecidableEq

/-- One thread runs the application and the lambdas: while a lambda has something
to do, nothing is called from outside and no message is handled. -/
def step (s : BluetoothProxy) : Event → BluetoothProxy
  | .call c => if s.todo = [] then s.call c else s
  | .receive message => if s.todo = [] then s.receive message else s
  | .turn calls =>
      match s.todo with
      | [] => s
      | work :: rest => perform calls { s with todo := rest } work

end BluetoothProxy

end EsphomeApi
