/-
EsphomeApi.Discovery.Packet — `parse_packet` and `parse_mdns_packets` of
`discovery.cpp`: from the bytes of mDNS packets to a list of devices.

A turn of the record loop reads one record and enters it in the accumulator.
`readRecord` is the reading, which depends on nothing but the packet, and
`Accumulator.apply` the entering; so a packet has a list of records
(`records`), `parsePacket_eq` says that `parse_packet` enters these, and
`parseMdnsPackets_eq` that a list of packets is its records. What is proved
about discovery later is proved about lists of records.

A read outside the packet would be `none`; `parsePacket_eq` shows that there
is none. `std::set` and `std::map` are the ordered sets and maps of the
standard library, whose order of byte strings is that of `std::string`.
-/
import EsphomeApi.Discovery.ReadName
import EsphomeApi.Library.MapWrites
import EsphomeApi.Library.Substring

namespace EsphomeApi.Discovery

open Std Library

/-! ## Records -/

def typeA : UInt16 := 1
def typePtr : UInt16 := 12
def typeTxt : UInt16 := 16
def typeSrv : UInt16 := 33

/-- What a record says, where `parse_packet` has a use for it. -/
inductive Record where
  | ptr (target : CString)
  | srv (name target : CString) (port : UInt16)
  | txt (name : CString) (entries : List CString)
  | a (name : CString) (p0 p1 p2 p3 : UInt8)
  | other
  deriving DecidableEq, Repr

/-- The strings `parse_txt` goes through, from `rdata + i` on. -/
def txtEntriesLoop (rdata : Bytes) : Nat → Nat → Option (List CString)
  | 0, _ => none
  | fuel + 1, i =>
      if i < rdata.length then do
        let n ← rdata[i]?
        if i + 1 + n.toNat > rdata.length then some []
        else do
          let entry ← readBytes rdata (i + 1) n.toNat
          let entries ← txtEntriesLoop rdata fuel (i + 1 + n.toNat)
          some (entry :: entries)
      else some []

def txtEntries (rdata : Bytes) : Option (List CString) :=
  txtEntriesLoop rdata (rdata.length + 1) 0

/-- The cases of `parse_packet`, for a record of the name and the type, with
`rdlen` bytes of data from `pos` on. -/
def recordOf (buf : Bytes) (name : CString) (type : UInt16) (pos rdlen : Nat) : Option Record :=
  if type = typePtr then do
    let (target, _) ← readName buf pos
    some (.ptr target)
  else if type = typeSrv then
    if rdlen ≥ 6 then do
      let port ← readU16 buf (pos + 4)
      let (target, _) ← readName buf (pos + 6)
      some (.srv name target port)
    else some .other
  else if type = typeTxt then do
    let rdata ← readBytes buf pos rdlen
    let entries ← txtEntries rdata
    some (.txt name entries)
  else if type = typeA then
    if rdlen = 4 then do
      let p0 ← buf[pos]?
      let p1 ← buf[pos + 1]?
      let p2 ← buf[pos + 2]?
      let p3 ← buf[pos + 3]?
      some (.a name p0 p1 p2 p3)
    else some .other
  else some .other

/-- The reading of one record at `pos`: the record and the position after it,
or that the loop breaks. -/
def readRecord (buf : Bytes) (pos : Nat) : Option (Option (Record × Nat)) := do
  let (name, pos) ← readName buf pos
  if pos + 10 > buf.length then some none
  else do
    let type ← readU16 buf pos
    let rdlen ← readU16 buf (pos + 8)
    let pos := pos + 10
    if pos + rdlen.toNat > buf.length then some none
    else do
      let record ← recordOf buf name type pos rdlen.toNat
      some (some (record, pos + rdlen.toNat))

/-- The loop over the question section: the position after it. -/
def skipQuestions (buf : Bytes) : Nat → Nat → Option Nat
  | 0, pos => some pos
  | qd + 1, pos =>
      if pos < buf.length then do
        let (_, next) ← readName buf pos
        skipQuestions buf qd (next + 4)
      else some pos

/-! ## The accumulator -/

abbrev TxtMap := ExtTreeMap CString CString

structure Accumulator where
  instances : ExtTreeSet CString
  srv : ExtTreeMap CString (CString × UInt16)
  txt : ExtTreeMap CString TxtMap
  ipv4 : ExtTreeMap CString CString

def Accumulator.empty : Accumulator := ⟨∅, ∅, ∅, ∅⟩

/-- The key of a TXT string and its value, if it has one: what stands before
and after the first `=`. -/
def txtKeyValue (entry : CString) : CString × Option CString :=
  match entry.idxOf? 61 with
  | none => (entry, none)
  | some eq => (entry.take eq, some (entry.drop (eq + 1)))

/-- `parse_txt` for the strings of a record: a valueless key is only made sure
to be there. -/
def parseTxt (entries : List CString) (out : TxtMap) : TxtMap :=
  entries.foldl (fun out entry => write [] out (txtKeyValue entry)) out

/-- `a.b.c.d`. -/
def dotted (p0 p1 p2 p3 : UInt8) : CString :=
  toCString p0.toNat ++ [dot] ++ toCString p1.toNat ++ [dot] ++ toCString p2.toNat ++ [dot] ++
    toCString p3.toNat

/-- What the cases of `parse_packet` enter. -/
def Accumulator.apply (acc : Accumulator) : Record → Accumulator
  | .ptr target => { acc with instances := acc.instances.insert target }
  | .srv name target port => { acc with srv := acc.srv.insert name (target, port) }
  | .txt name entries =>
      { acc with txt := acc.txt.alter name fun out => some (parseTxt entries (out.getD ∅)) }
  | .a name p0 p1 p2 p3 => { acc with ipv4 := acc.ipv4.insert name (dotted p0 p1 p2 p3) }
  | .other => acc

/-- The loop over the records, `count` of them at most. -/
def parseRecords (buf : Bytes) : Nat → Nat → Accumulator → Option Accumulator
  | 0, _, acc => some acc
  | count + 1, pos, acc =>
      if pos < buf.length then do
        match ← readRecord buf pos with
        | none => some acc
        | some (record, next) => parseRecords buf count next (acc.apply record)
      else some acc

/-- `parse_packet`. -/
def parsePacket (buf : Bytes) (acc : Accumulator) : Option Accumulator :=
  if buf.length < 12 then some acc
  else do
    let qd ← readU16 buf 4
    let an ← readU16 buf 6
    let ns ← readU16 buf 8
    let ar ← readU16 buf 10
    let pos ← skipQuestions buf qd.toNat 12
    parseRecords buf (an.toNat + ns.toNat + ar.toNat) pos acc

/-! ## Devices -/

/-- `DiscoveredDevice`. -/
structure DiscoveredDevice where
  name : CString
  hostname : CString := []
  address : CString := []
  port : UInt16 := 6053
  mac : CString := []
  version : CString := []
  friendlyName : CString := []
  platform : CString := []
  board : CString := []
  network : CString := []
  projectName : CString := []
  projectVersion : CString := []
  requiresEncryption : Bool := false
  supportsEncryption : Bool := false
  properties : TxtMap := ∅

def serviceSuffix : CString := lit "._esphomelib._tcp"

/-- `instance_short_name`. -/
def instanceShortName (instance_ : CString) : CString :=
  match find serviceSuffix instance_ with
  | none => instance_
  | some p => instance_.take p

/-- `get`, of the lambda in `parse_mdns_packets`. -/
def property (properties : TxtMap) (k : String) : CString := properties[lit k]?.getD []

/-- The fields that come from the SRV record, and from the A record of its
target. -/
def DiscoveredDevice.setHost (dev : DiscoveredDevice) (acc : Accumulator)
    (host : CString × UInt16) : DiscoveredDevice :=
  { dev with
    hostname := host.1
    port := host.2
    address := acc.ipv4[host.1]?.getD dev.address }

/-- The fields that come from the TXT record. -/
def DiscoveredDevice.setProperties (dev : DiscoveredDevice) (properties : TxtMap) :
    DiscoveredDevice :=
  { dev with
    properties
    mac := property properties "mac"
    version := property properties "version"
    friendlyName := property properties "friendly_name"
    platform := property properties "platform"
    board := property properties "board"
    network := property properties "network"
    projectName := property properties "project_name"
    projectVersion := property properties "project_version"
    requiresEncryption := properties.contains (lit "api_encryption")
    supportsEncryption := properties.contains (lit "api_encryption") ||
      properties.contains (lit "api_encryption_supported") }

/-- The device of an instance, as the loop of `parse_mdns_packets` joins it. -/
def Accumulator.device (acc : Accumulator) (instance_ : CString) : DiscoveredDevice :=
  let dev : DiscoveredDevice := { name := instanceShortName instance_ }
  let dev := match acc.srv[instance_]? with
    | some host => dev.setHost acc host
    | none => dev
  match acc.txt[instance_]? with
  | some properties => dev.setProperties properties
  | none => dev

/-- Every instance with a PTR or an SRV record. -/
def Accumulator.candidates (acc : Accumulator) : ExtTreeSet CString :=
  acc.srv.keys.foldl (fun instances name => instances.insert name) acc.instances

/-- What `parse_mdns_packets` looks for in a name. -/
def serviceMark : CString := lit "_esphomelib"

def Accumulator.devices (acc : Accumulator) : List DiscoveredDevice :=
  (acc.candidates.toList.filter fun name => (find serviceMark name).isSome).map acc.device

/-- `parse_mdns_packets`. -/
def parseMdnsPackets (packets : List Bytes) : Option (List DiscoveredDevice) := do
  let acc ← packets.foldlM (fun acc pkt => parsePacket pkt acc) Accumulator.empty
  some acc.devices

/-! ## The records of a packet -/

/-- The records that `parseRecords` goes through. -/
def recordsLoop (buf : Bytes) : Nat → Nat → Option (List Record)
  | 0, _ => some []
  | count + 1, pos =>
      if pos < buf.length then do
        match ← readRecord buf pos with
        | none => some []
        | some (record, next) =>
            let rest ← recordsLoop buf count next
            some (record :: rest)
      else some []

def packetRecords (buf : Bytes) : Option (List Record) :=
  if buf.length < 12 then some []
  else do
    let qd ← readU16 buf 4
    let an ← readU16 buf 6
    let ns ← readU16 buf 8
    let ar ← readU16 buf 10
    let pos ← skipQuestions buf qd.toNat 12
    recordsLoop buf (an.toNat + ns.toNat + ar.toNat) pos

/-- The records of a packet, in its order. -/
def records (buf : Bytes) : List Record := (packetRecords buf).getD []

theorem parseRecords_eq (buf : Bytes) (count pos : Nat) (acc : Accumulator) :
    parseRecords buf count pos acc
      = (recordsLoop buf count pos).map fun rs => rs.foldl Accumulator.apply acc := by
  induction count generalizing pos acc with
  | zero => rfl
  | succ count ih =>
      unfold parseRecords recordsLoop
      split
      · cases readRecord buf pos with
        | none => rfl
        | some turn =>
            cases turn with
            | none => rfl
            | some turn =>
                simp only [Option.bind_eq_bind, Option.bind_some, ih]
                cases recordsLoop buf count turn.2 <;> rfl
      · rfl

theorem parsePacket_eq_map (buf : Bytes) (acc : Accumulator) :
    parsePacket buf acc = (packetRecords buf).map fun rs => rs.foldl Accumulator.apply acc := by
  unfold parsePacket packetRecords
  split
  · rfl
  · simp only [parseRecords_eq, Option.bind_eq_bind, Option.map_bind, Function.comp_def]

/-! ## Every read is inside the packet -/

theorem readU16_eq_some {buf : Bytes} {i : Nat} (h : i + 1 < buf.length) :
    ∃ v, readU16 buf i = some v := by
  rw [readU16, List.getElem?_eq_getElem (by omega : i < buf.length),
    List.getElem?_eq_getElem h]
  exact ⟨_, rfl⟩

theorem readBytes_eq_some {buf : Bytes} {i n : Nat} (h : i + n ≤ buf.length) :
    ∃ bytes, readBytes buf i n = some bytes := ⟨_, if_pos h⟩

theorem txtEntriesLoop_eq_some (rdata : Bytes) (fuel i : Nat) (hfuel : rdata.length ≤ fuel + i) :
    ∃ entries, txtEntriesLoop rdata (fuel + 1) i = some entries := by
  induction fuel generalizing i with
  | zero => exact ⟨[], if_neg (by omega)⟩
  | succ fuel ih =>
      unfold txtEntriesLoop
      by_cases hi : i < rdata.length
      · rw [if_pos hi, List.getElem?_eq_getElem hi]
        simp only [Option.bind_eq_bind, Option.bind_some]
        split
        · exact ⟨[], rfl⟩
        · rename_i hfits
          obtain ⟨entry, hentry⟩ :=
            readBytes_eq_some (show i + 1 + rdata[i].toNat ≤ rdata.length by omega)
          obtain ⟨entries, hentries⟩ := ih (i + 1 + rdata[i].toNat) (by omega)
          rw [hentry, Option.bind_some, hentries]
          exact ⟨_, rfl⟩
      · exact ⟨[], if_neg hi⟩

theorem recordOf_eq_some {buf : Bytes} (name : CString) (type : UInt16) {pos rdlen : Nat}
    (h : pos + rdlen ≤ buf.length) : ∃ record, recordOf buf name type pos rdlen = some record := by
  unfold recordOf
  split
  · obtain ⟨target, next, htarget⟩ := readName_eq_some buf pos
    rw [htarget]
    exact ⟨_, rfl⟩
  split
  · split
    · obtain ⟨port, hport⟩ := readU16_eq_some (show pos + 4 + 1 < buf.length by omega)
      obtain ⟨target, next, htarget⟩ := readName_eq_some buf (pos + 6)
      rw [hport, htarget]
      exact ⟨_, rfl⟩
    · exact ⟨_, rfl⟩
  split
  · obtain ⟨rdata, hrdata⟩ := readBytes_eq_some h
    obtain ⟨entries, hentries⟩ := txtEntriesLoop_eq_some rdata rdata.length 0 (by omega)
    rw [hrdata, Option.bind_eq_bind, Option.bind_some, txtEntries, hentries]
    exact ⟨_, rfl⟩
  split
  · split
    · rw [List.getElem?_eq_getElem (by omega : pos < buf.length),
        List.getElem?_eq_getElem (by omega : pos + 1 < buf.length),
        List.getElem?_eq_getElem (by omega : pos + 2 < buf.length),
        List.getElem?_eq_getElem (by omega : pos + 3 < buf.length)]
      exact ⟨_, rfl⟩
    · exact ⟨_, rfl⟩
  · exact ⟨_, rfl⟩

theorem readRecord_eq_some (buf : Bytes) (pos : Nat) : ∃ turn, readRecord buf pos = some turn := by
  obtain ⟨name, next, hname⟩ := readName_eq_some buf pos
  unfold readRecord
  simp only [hname, Option.bind_eq_bind, Option.bind_some]
  split
  · exact ⟨_, rfl⟩
  · obtain ⟨type, htype⟩ := readU16_eq_some (show next + 1 < buf.length by omega)
    obtain ⟨rdlen, hrdlen⟩ := readU16_eq_some (show next + 8 + 1 < buf.length by omega)
    simp only [htype, hrdlen, Option.bind_some]
    split
    · exact ⟨_, rfl⟩
    · obtain ⟨record, hrecord⟩ := recordOf_eq_some name type
        (show next + 10 + rdlen.toNat ≤ buf.length by omega)
      rw [hrecord]
      exact ⟨_, rfl⟩

theorem skipQuestions_eq_some (buf : Bytes) (qd pos : Nat) :
    ∃ next, skipQuestions buf qd pos = some next := by
  induction qd generalizing pos with
  | zero => exact ⟨pos, rfl⟩
  | succ qd ih =>
      unfold skipQuestions
      split
      · obtain ⟨name, next, hname⟩ := readName_eq_some buf pos
        rw [hname]
        exact ih (next + 4)
      · exact ⟨pos, rfl⟩

theorem recordsLoop_eq_some (buf : Bytes) (count pos : Nat) :
    ∃ rs, recordsLoop buf count pos = some rs := by
  induction count generalizing pos with
  | zero => exact ⟨[], rfl⟩
  | succ count ih =>
      unfold recordsLoop
      split
      · obtain ⟨turn, hturn⟩ := readRecord_eq_some buf pos
        rw [hturn]
        cases turn with
        | none => exact ⟨[], rfl⟩
        | some turn =>
            obtain ⟨rest, hrest⟩ := ih turn.2
            simp only [Option.bind_eq_bind, Option.bind_some, hrest]
            exact ⟨_, rfl⟩
      · exact ⟨[], rfl⟩

/-- A packet with a header: its records are those that the loop reads behind the
questions. -/
theorem packetRecords_of_ge {buf : Bytes} (h : 12 ≤ buf.length) :
    ∃ qd count pos rs, skipQuestions buf qd 12 = some pos ∧
      recordsLoop buf count pos = some rs ∧ packetRecords buf = some rs := by
  obtain ⟨qd, hqd⟩ := readU16_eq_some (show 4 + 1 < buf.length by omega)
  obtain ⟨an, han⟩ := readU16_eq_some (show 6 + 1 < buf.length by omega)
  obtain ⟨ns, hns⟩ := readU16_eq_some (show 8 + 1 < buf.length by omega)
  obtain ⟨ar, har⟩ := readU16_eq_some (show 10 + 1 < buf.length by omega)
  obtain ⟨pos, hpos⟩ := skipQuestions_eq_some buf qd.toNat 12
  obtain ⟨rs, hrs⟩ := recordsLoop_eq_some buf (an.toNat + ns.toNat + ar.toNat) pos
  refine ⟨_, _, pos, rs, hpos, hrs, ?_⟩
  rw [packetRecords, if_neg (Nat.not_lt.mpr h)]
  simp only [hqd, han, hns, har, hpos, Option.bind_eq_bind, Option.bind_some, hrs]

theorem packetRecords_eq (buf : Bytes) : packetRecords buf = some (records buf) := by
  have htotal : ∃ rs, packetRecords buf = some rs := by
    rcases Nat.lt_or_ge buf.length 12 with hshort | hlong
    · exact ⟨[], if_pos hshort⟩
    · obtain ⟨_, _, _, rs, -, -, hrs⟩ := packetRecords_of_ge hlong
      exact ⟨rs, hrs⟩
  obtain ⟨rs, hrs⟩ := htotal
  rw [records, hrs, Option.getD_some]

/-! ## What parsing does -/

/-- `parse_packet` enters the records of the packet. -/
theorem parsePacket_eq (buf : Bytes) (acc : Accumulator) :
    parsePacket buf acc = some ((records buf).foldl Accumulator.apply acc) := by
  rw [parsePacket_eq_map, packetRecords_eq, Option.map_some]

/-- The accumulator after a list of records. -/
def accumulate (rs : List Record) : Accumulator := rs.foldl Accumulator.apply .empty

/-- The records of all packets. -/
def allRecords (packets : List Bytes) : List Record := packets.flatMap records

/-- `parse_mdns_packets` makes the devices of all records together. -/
theorem parseMdnsPackets_eq (packets : List Bytes) :
    parseMdnsPackets packets = some (accumulate (allRecords packets)).devices := by
  have hfold : ∀ acc, packets.foldlM (fun acc pkt => parsePacket pkt acc) acc
      = some ((allRecords packets).foldl Accumulator.apply acc) := by
    induction packets with
    | nil => exact fun acc => rfl
    | cons pkt packets ih =>
        intro acc
        rw [List.foldlM_cons, parsePacket_eq, Option.bind_eq_bind, Option.bind_some, ih,
          allRecords, allRecords, List.flatMap_cons, List.foldl_append]
  rw [parseMdnsPackets, hfold]
  rfl

/-! ## A packet -/

/-- A name as it stands in a packet, without compression. -/
def encodeName (labels : List String) : Bytes :=
  (labels.flatMap fun label => UInt8.ofNat label.length :: lit label) ++ [0]

/-- A response with one answer, whose data is shorter than 256 bytes. -/
def answerPacket (name : List String) (type : UInt8) (rdata : Bytes) : Bytes :=
  [0, 0, 0x84, 0, 0, 0, 0, 1, 0, 0, 0, 0] ++ encodeName name
    ++ [0, type, 0, 1, 0, 0, 0, 120, 0, UInt8.ofNat rdata.length] ++ rdata

example : records (answerPacket ["lamp", "local"] 1 [192, 168, 0, 7])
    = [.a (lit "lamp.local") 192 168 0 7] := by
  decide +kernel

end EsphomeApi.Discovery
