/-
EsphomeApi.Discovery.PacketOrder — the order of packets, and packets that come
more than once.

The accumulator of `parse_mdns_packets` is four maps, each filled by writes
that a record causes: `srvWrites` and `ipv4Writes` overwrite, `txtWrites`
overwrite or fill a gap, and a PTR target joins a set. So each map is a
`Library.writeAll`, and where no two records contradict each other
(`NoConflict`) no key is written with two values; then `Library.writeAll_congr`
leaves only the question which records there are.
-/
import EsphomeApi.Discovery.Packet

namespace EsphomeApi.Discovery

open Std Library

/-- No two SRV or A records of one name differ, nor do two values that TXT
records of one name give one key. -/
structure NoConflict (rs : List Record) : Prop where
  srv : ∀ {name target target' port port'}, .srv name target port ∈ rs →
    .srv name target' port' ∈ rs → target = target' ∧ port = port'
  a : ∀ {name p0 p1 p2 p3 q0 q1 q2 q3}, .a name p0 p1 p2 p3 ∈ rs → .a name q0 q1 q2 q3 ∈ rs →
    p0 = q0 ∧ p1 = q1 ∧ p2 = q2 ∧ p3 = q3
  txt : ∀ {name entries entries' entry entry' key value value'}, .txt name entries ∈ rs →
    .txt name entries' ∈ rs → entry ∈ entries → entry' ∈ entries' →
    txtKeyValue entry = (key, some value) → txtKeyValue entry' = (key, some value') →
    value = value'

/-! ## The writes of a record -/

def Record.srvWrites : Record → List (CString × Option (CString × UInt16))
  | .srv name target port => [(name, some (target, port))]
  | _ => []

def Record.ipv4Writes : Record → List (CString × Option CString)
  | .a name p0 p1 p2 p3 => [(name, some (dotted p0 p1 p2 p3))]
  | _ => []

/-- What a record writes to the TXT map of `name`. -/
def Record.txtWrites (name : CString) : Record → List (CString × Option CString)
  | .txt owner entries => if owner = name then entries.map txtKeyValue else []
  | _ => []

theorem accumulate_concat (rs : List Record) (r : Record) :
    accumulate (rs ++ [r]) = (accumulate rs).apply r := by
  simp [accumulate]

theorem writeAll_append {ν : Type} (d : ν) (ws ws' : List (CString × Option ν)) :
    (writeAll d (ws ++ ws') : ExtTreeMap CString ν) = ws'.foldl (write d) (writeAll d ws) := by
  simp [writeAll]

theorem srv_accumulate (rs : List Record) :
    (accumulate rs).srv = writeAll ([], 0) (rs.flatMap Record.srvWrites) := by
  induction rs using List.reverseRecOn with
  | nil => rfl
  | append_singleton rs r ih =>
      rw [accumulate_concat, List.flatMap_append, writeAll_append, ← ih]
      cases r <;> rfl

theorem ipv4_accumulate (rs : List Record) :
    (accumulate rs).ipv4 = writeAll [] (rs.flatMap Record.ipv4Writes) := by
  induction rs using List.reverseRecOn with
  | nil => rfl
  | append_singleton rs r ih =>
      rw [accumulate_concat, List.flatMap_append, writeAll_append, ← ih]
      cases r <;> rfl

theorem mem_instances_accumulate (rs : List Record) (name : CString) :
    name ∈ (accumulate rs).instances ↔ .ptr name ∈ rs := by
  induction rs using List.reverseRecOn with
  | nil => simp [accumulate, Accumulator.empty]
  | append_singleton rs r ih =>
      rw [accumulate_concat, List.mem_append, ← ih]
      cases r with
      | ptr target =>
          simp only [Accumulator.apply, ExtTreeSet.mem_insert, LawfulEqCmp.compare_eq_iff_eq,
            List.mem_singleton, Record.ptr.injEq]
          tauto
      | _ => simp [Accumulator.apply]

/-- An instance has a TXT map once it has a TXT record, even an empty one. -/
theorem isSome_txt_accumulate (rs : List Record) (name : CString) :
    (accumulate rs).txt[name]?.isSome ↔ ∃ entries, .txt name entries ∈ rs := by
  induction rs using List.reverseRecOn with
  | nil => simp [accumulate, Accumulator.empty]
  | append_singleton rs r ih =>
      rw [accumulate_concat]
      cases r with
      | txt owner entries =>
          rw [Accumulator.apply, ExtTreeMap.getElem?_alter]
          by_cases h : owner = name
          · subst h
            simp
          · simpa [LawfulEqCmp.compare_eq_iff_eq, h, Ne.symm h] using ih
      | _ => simpa [Accumulator.apply] using ih

theorem parseTxt_eq (entries : List CString) (out : TxtMap) :
    parseTxt entries out = (entries.map txtKeyValue).foldl (write []) out := by
  rw [parseTxt, List.foldl_map]

theorem txt_accumulate (rs : List Record) (name : CString) :
    (accumulate rs).txt[name]?.getD ∅ = writeAll [] (rs.flatMap (Record.txtWrites name)) := by
  induction rs using List.reverseRecOn with
  | nil => simp [accumulate, Accumulator.empty, writeAll]
  | append_singleton rs r ih =>
      rw [accumulate_concat, List.flatMap_append, writeAll_append, ← ih]
      cases r with
      | txt owner entries =>
          rw [Accumulator.apply, ExtTreeMap.getElem?_alter]
          by_cases h : owner = name
          · subst h
            simp [Record.txtWrites, parseTxt_eq]
          · simp [LawfulEqCmp.compare_eq_iff_eq, h, Record.txtWrites]
      | _ => simp [Accumulator.apply, Record.txtWrites]

/-! ## No key has two values -/

theorem mem_srvWrites {name : CString} {r : Record} {host : CString × UInt16}
    (h : (name, some host) ∈ r.srvWrites) : r = .srv name host.1 host.2 := by
  cases r with
  | srv owner target port =>
      obtain ⟨hname, hhost⟩ := Prod.mk.inj (List.mem_singleton.mp h)
      rw [hname, Option.some.inj hhost]
  | _ => cases h

theorem NoConflict.oneValue_srv {rs : List Record} (h : NoConflict rs) :
    OneValue (rs.flatMap Record.srvWrites) := by
  intro name host host' hw hw'
  obtain ⟨r, hr, hmem⟩ := List.mem_flatMap.mp hw
  obtain ⟨r', hr', hmem'⟩ := List.mem_flatMap.mp hw'
  obtain rfl := mem_srvWrites hmem
  obtain rfl := mem_srvWrites hmem'
  obtain ⟨htarget, hport⟩ := h.srv hr hr'
  exact Prod.ext htarget hport

theorem mem_ipv4Writes {name address : CString} {r : Record}
    (h : (name, some address) ∈ r.ipv4Writes) :
    ∃ p0 p1 p2 p3, r = .a name p0 p1 p2 p3 ∧ address = dotted p0 p1 p2 p3 := by
  cases r with
  | a owner p0 p1 p2 p3 =>
      obtain ⟨hname, haddress⟩ := Prod.mk.inj (List.mem_singleton.mp h)
      exact ⟨p0, p1, p2, p3, by rw [hname], Option.some.inj haddress⟩
  | _ => cases h

theorem NoConflict.oneValue_ipv4 {rs : List Record} (h : NoConflict rs) :
    OneValue (rs.flatMap Record.ipv4Writes) := by
  intro name address address' hw hw'
  obtain ⟨r, hr, hmem⟩ := List.mem_flatMap.mp hw
  obtain ⟨r', hr', hmem'⟩ := List.mem_flatMap.mp hw'
  obtain ⟨p0, p1, p2, p3, rfl, haddress⟩ := mem_ipv4Writes hmem
  obtain ⟨q0, q1, q2, q3, rfl, haddress'⟩ := mem_ipv4Writes hmem'
  obtain ⟨rfl, rfl, rfl, rfl⟩ := h.a hr hr'
  exact haddress.trans haddress'.symm

theorem mem_txtWrites {name : CString} {r : Record} {w : CString × Option CString}
    (h : w ∈ r.txtWrites name) :
    ∃ entries, r = .txt name entries ∧ ∃ entry ∈ entries, txtKeyValue entry = w := by
  cases r with
  | txt owner entries =>
      by_cases howner : owner = name
      · rw [Record.txtWrites, if_pos howner] at h
        exact ⟨entries, by rw [howner], List.mem_map.mp h⟩
      · simp [Record.txtWrites, howner] at h
  | _ => simp [Record.txtWrites] at h

theorem NoConflict.oneValue_txt {rs : List Record} (h : NoConflict rs) (name : CString) :
    OneValue (rs.flatMap (Record.txtWrites name)) := by
  intro key value value' hw hw'
  obtain ⟨r, hr, hmem⟩ := List.mem_flatMap.mp hw
  obtain ⟨r', hr', hmem'⟩ := List.mem_flatMap.mp hw'
  obtain ⟨entries, rfl, entry, hentry, hkey⟩ := mem_txtWrites hmem
  obtain ⟨entries', rfl, entry', hentry', hkey'⟩ := mem_txtWrites hmem'
  exact h.txt hr hr' hentry hentry' hkey hkey'

/-! ## Order and repetition -/

theorem mem_flatMap_congr {α β : Type} (f : α → List β) {l l' : List α} (h : ∀ a, a ∈ l ↔ a ∈ l') :
    ∀ b, b ∈ l.flatMap f ↔ b ∈ l'.flatMap f := by
  intro b
  simp only [List.mem_flatMap, h]

/-- The same records without a conflict leave the same accumulator. -/
theorem accumulate_congr {rs rs' : List Record} (h : NoConflict rs)
    (hsame : ∀ r, r ∈ rs ↔ r ∈ rs') : accumulate rs = accumulate rs' := by
  have hinstances : (accumulate rs).instances = (accumulate rs').instances := by
    apply ExtTreeSet.ext_mem
    intro name
    simp only [mem_instances_accumulate, hsame]
  have hsrv : (accumulate rs).srv = (accumulate rs').srv := by
    rw [srv_accumulate, srv_accumulate]
    exact writeAll_congr _ h.oneValue_srv (mem_flatMap_congr _ hsame)
  have hipv4 : (accumulate rs).ipv4 = (accumulate rs').ipv4 := by
    rw [ipv4_accumulate, ipv4_accumulate]
    exact writeAll_congr _ h.oneValue_ipv4 (mem_flatMap_congr _ hsame)
  have htxt : (accumulate rs).txt = (accumulate rs').txt := by
    apply ExtTreeMap.ext_getElem?
    intro name
    have hpresent : (accumulate rs).txt[name]?.isSome = (accumulate rs').txt[name]?.isSome := by
      rw [Bool.eq_iff_iff, isSome_txt_accumulate, isSome_txt_accumulate]
      simp only [hsame]
    have hcontent : (accumulate rs).txt[name]?.getD ∅ = (accumulate rs').txt[name]?.getD ∅ := by
      rw [txt_accumulate, txt_accumulate]
      exact writeAll_congr _ (h.oneValue_txt name) (mem_flatMap_congr _ hsame)
    cases htxt : (accumulate rs).txt[name]? <;>
      cases htxt' : (accumulate rs').txt[name]? <;> simp_all
  cases hacc : accumulate rs
  cases hacc' : accumulate rs'
  simp_all

/-- Packets whose records do not conflict give the same devices in any order
and however often each of them comes. -/
theorem parseMdnsPackets_same {packets packets' : List Bytes}
    (hconflict : NoConflict (allRecords packets)) (hsame : ∀ pkt, pkt ∈ packets ↔ pkt ∈ packets') :
    ∃ devices, parseMdnsPackets packets = some devices ∧
      parseMdnsPackets packets' = some devices := by
  refine ⟨_, parseMdnsPackets_eq packets, ?_⟩
  rw [parseMdnsPackets_eq,
    accumulate_congr hconflict (mem_flatMap_congr records hsame)]
  rfl

/-- The SRV and the TXT record of a device in two packets, the other way round
and one of them twice. -/
theorem parseMdnsPackets_same_srvTxt :
    let srv := answerPacket ["lamp", "_esphomelib", "_tcp", "local"] 33
      ([0, 0, 0, 0, 0x17, 0xA5] ++ encodeName ["lamp", "local"])
    let txt := answerPacket ["lamp", "_esphomelib", "_tcp", "local"] 16 (5 :: lit "mac=0")
    ∃ devices, parseMdnsPackets [srv, txt] = some devices ∧
      parseMdnsPackets [txt, srv, txt] = some devices := by
  intro srv txt
  have hrecords : allRecords [srv, txt]
      = [.srv (lit "lamp._esphomelib._tcp.local") (lit "lamp.local") 6053,
        .txt (lit "lamp._esphomelib._tcp.local") [lit "mac=0"]] := by
    decide +kernel
  refine parseMdnsPackets_same ?_ (by simp [or_comm])
  rw [hrecords]
  constructor
  · simp_all
  · simp
  · simp_all

end EsphomeApi.Discovery
