/-
EsphomeApi.Discovery.Instances — for which names `parse_mdns_packets` makes
devices.

A device should stand for a service instance: a name
`X._esphomelib._tcp.<domain>` (`IsInstance`). What the code asks of a name is
that `_esphomelib` is in it, and it takes for `X` what stands before the
first `._esphomelib._tcp`, or the whole name. `mem_candidates` says which names
are looked at, and `oneDeviceEach_iff` for which packets the two agree. A
packet that lists the service types of the network has the type
`_esphomelib._tcp.local` as a PTR target, and a device of that name comes out.
-/
import EsphomeApi.Discovery.Packet

namespace EsphomeApi.Discovery

open Std Library

/-! ## Which names are candidates -/

/-- The names of a record that may stand for a device. -/
def Record.names : Record → List CString
  | .ptr target => [target]
  | .srv name _ _ => [name]
  | _ => []

/-- The PTR targets and SRV owners of a list of packets. -/
def namesIn (packets : List Bytes) : List CString := (allRecords packets).flatMap Record.names

theorem mem_candidates_iff (acc : Accumulator) (name : CString) :
    name ∈ acc.candidates ↔ name ∈ acc.instances ∨ name ∈ acc.srv := by
  have hfold : ∀ (keys : List CString) (s : ExtTreeSet CString),
      name ∈ keys.foldl (fun instances name => instances.insert name) s
        ↔ name ∈ s ∨ name ∈ keys := by
    intro keys
    induction keys with
    | nil => simp
    | cons key keys ih =>
        intro s
        simp only [List.foldl_cons, ih, ExtTreeSet.mem_insert, LawfulEqCmp.compare_eq_iff_eq,
          List.mem_cons]
        tauto
  rw [Accumulator.candidates, hfold, ExtTreeMap.mem_keys]

theorem mem_candidates_apply (acc : Accumulator) (r : Record) (name : CString) :
    name ∈ (acc.apply r).candidates ↔ name ∈ acc.candidates ∨ name ∈ r.names := by
  simp only [mem_candidates_iff]
  cases r with
  | ptr target =>
      simp only [Accumulator.apply, Record.names, ExtTreeSet.mem_insert,
        LawfulEqCmp.compare_eq_iff_eq, List.mem_singleton]
      tauto
  | srv owner target port =>
      simp only [Accumulator.apply, Record.names, ExtTreeMap.mem_insert,
        LawfulEqCmp.compare_eq_iff_eq, List.mem_singleton]
      tauto
  | _ => simp [Accumulator.apply, Record.names]

theorem mem_candidates_foldl (rs : List Record) (acc : Accumulator) (name : CString) :
    name ∈ (rs.foldl Accumulator.apply acc).candidates
      ↔ name ∈ acc.candidates ∨ name ∈ rs.flatMap Record.names := by
  induction rs generalizing acc with
  | nil => simp
  | cons r rs ih =>
      rw [List.foldl_cons, ih, mem_candidates_apply, List.flatMap_cons, List.mem_append, or_assoc]

theorem mem_candidates (packets : List Bytes) (name : CString) :
    name ∈ (accumulate (allRecords packets)).candidates ↔ name ∈ namesIn packets := by
  rw [accumulate, mem_candidates_foldl, mem_candidates_iff]
  simp [Accumulator.empty, namesIn]

/-! ## Instance names -/

/-- `X._esphomelib._tcp.<domain>`. -/
def IsInstanceOf (name x : CString) : Prop :=
  x ≠ [] ∧ ∃ domain ≠ [], name = x ++ serviceSuffix ++ [dot] ++ domain

def IsInstance (name : CString) : Prop := ∃ x, IsInstanceOf name x

theorem IsInstanceOf.suffix_infix {name x : CString} (h : IsInstanceOf name x) :
    serviceSuffix <:+: name := by
  obtain ⟨_, domain, _, rfl⟩ := h
  exact ⟨x, [dot] ++ domain, by simp⟩

theorem mark_infix_suffix : serviceMark <:+: serviceSuffix := by decide

/-- The suffix does not overlap itself. -/
theorem suffix_no_overlap : ∀ d < serviceSuffix.length, 0 < d →
    ¬ serviceSuffix.drop d <+: serviceSuffix := by
  decide

/-- `instance_short_name` of an instance whose `X` does not contain the service
name again. -/
theorem instanceShortName_eq {name x : CString} (h : IsInstanceOf name x)
    (hx : ¬ serviceSuffix <:+: x) : instanceShortName name = x := by
  obtain ⟨_, domain, _, rfl⟩ := h
  have hfind : find serviceSuffix (x ++ serviceSuffix ++ [dot] ++ domain) = some x.length := by
    rw [List.append_assoc]
    exact find_append (fun d hpos hd => suffix_no_overlap d hd hpos) hx ([dot] ++ domain)
  rw [instanceShortName, hfind]
  simp

/-- What is before the first service name does not contain it. -/
theorem suffix_not_infix_shortName {name : CString} (h : serviceSuffix <:+: name) :
    ¬ serviceSuffix <:+: instanceShortName name := by
  obtain ⟨i, hi⟩ := Option.isSome_iff_exists.mp ((find_isSome_iff serviceSuffix name).mpr h)
  rw [instanceShortName, hi]
  exact (eq_append_of_find (by decide) hi).2

/-! ## The devices -/

/-- The names for which a device is made, in their order. -/
def Accumulator.kept (acc : Accumulator) : List CString :=
  acc.candidates.toList.filter fun name => (find serviceMark name).isSome

theorem mem_kept (packets : List Bytes) (name : CString) :
    name ∈ (accumulate (allRecords packets)).kept
      ↔ name ∈ namesIn packets ∧ serviceMark <:+: name := by
  rw [Accumulator.kept, List.mem_filter, ExtTreeSet.mem_toList, mem_candidates, find_isSome_iff]

theorem nodup_kept (acc : Accumulator) : acc.kept.Nodup := by
  refine List.Nodup.filter _ (acc.candidates.distinct_toList.imp ?_)
  rintro a b hne rfl
  exact hne ReflCmp.compare_self

theorem device_name (acc : Accumulator) (name : CString) :
    (acc.device name).name = instanceShortName name := by
  unfold Accumulator.device
  cases acc.srv[name]? <;> cases acc.txt[name]? <;> rfl

/-- One device for each instance name, called by its `X`, and no other device. -/
def OneDeviceEach (packets : List Bytes) (devices : List DiscoveredDevice) : Prop :=
  ∃ names : List CString, names.Nodup ∧
    (∀ name, name ∈ names ↔ name ∈ namesIn packets ∧ IsInstance name) ∧
    List.Forall₂ (fun name device => IsInstanceOf name device.name) names devices

theorem exists_of_forall₂ {α β : Type} {R : α → β → Prop} {l : List α} {l' : List β}
    (h : List.Forall₂ R l l') : ∀ a ∈ l, ∃ b ∈ l', R a b := by
  induction h with
  | nil => simp
  | cons hab _ ih =>
      intro a ha
      rcases List.mem_cons.mp ha with rfl | ha
      · exact ⟨_, List.mem_cons_self .., hab⟩
      · obtain ⟨b, hb, hr⟩ := ih a ha
        exact ⟨b, List.mem_cons_of_mem _ hb, hr⟩

theorem mark_infix_of_isInstance {name : CString} (h : IsInstance name) :
    serviceMark <:+: name := by
  obtain ⟨x, hx⟩ := h
  exact mark_infix_suffix.trans hx.suffix_infix

/-- Where the devices are one for each instance name, the names kept are these:
there are as many names as devices, and every instance name is kept. -/
theorem mem_of_oneDeviceEach {packets : List Bytes} {names : List CString}
    (hnodup : names.Nodup)
    (hnames : ∀ name, name ∈ names ↔ name ∈ namesIn packets ∧ IsInstance name)
    (hcount : names.length = (accumulate (allRecords packets)).kept.length)
    {name : CString} (hname : name ∈ (accumulate (allRecords packets)).kept) : name ∈ names := by
  have hsub : names ⊆ (accumulate (allRecords packets)).kept := by
    intro n hn
    obtain ⟨hin, hinst⟩ := (hnames n).mp hn
    exact (mem_kept packets n).mpr ⟨hin, mark_infix_of_isInstance hinst⟩
  exact ((List.subperm_of_subset hnodup hsub).perm_of_length_le hcount.ge).mem_iff.mpr hname

/-- Every name with `_esphomelib` in it is that of an instance, with no
service name in its `X`. -/
def OnlyInstances (packets : List Bytes) : Prop :=
  ∀ name ∈ namesIn packets, serviceMark <:+: name →
    ∃ x, IsInstanceOf name x ∧ ¬ serviceSuffix <:+: x

theorem onlyInstances_of_oneDeviceEach {packets : List Bytes}
    (h : OneDeviceEach packets (accumulate (allRecords packets)).devices) :
    OnlyInstances packets := by
  obtain ⟨names, hnodup, hnames, hdevices⟩ := h
  have hcount : names.length = (accumulate (allRecords packets)).kept.length := by
    rw [hdevices.length_eq]
    exact List.length_map _
  have hmem : ∀ n ∈ (accumulate (allRecords packets)).kept, n ∈ names := fun n hn =>
    mem_of_oneDeviceEach hnodup hnames hcount hn
  intro name hin hmark
  obtain ⟨device, hdevice, hof⟩ :=
    exists_of_forall₂ hdevices name (hmem _ ((mem_kept packets name).mpr ⟨hin, hmark⟩))
  -- the device may have been made for another name, which is an instance name too
  obtain ⟨made, hmade, rfl⟩ := List.mem_map.mp hdevice
  rw [device_name] at hof
  obtain ⟨_, hinst⟩ := ((hnames made).mp (hmem made hmade)).2
  exact ⟨_, hof, suffix_not_infix_shortName hinst.suffix_infix⟩

theorem oneDeviceEach_of_onlyInstances {packets : List Bytes} (h : OnlyInstances packets) :
    OneDeviceEach packets (accumulate (allRecords packets)).devices := by
  refine ⟨(accumulate (allRecords packets)).kept, nodup_kept _, fun name => ?_, ?_⟩
  · rw [mem_kept]
    constructor
    · rintro ⟨hin, hmark⟩
      obtain ⟨x, hx, _⟩ := h name hin hmark
      exact ⟨hin, x, hx⟩
    · rintro ⟨hin, hinst⟩
      exact ⟨hin, mark_infix_of_isInstance hinst⟩
  · refine List.forall₂_map_right_iff.mpr (List.forall₂_same.mpr fun name hname => ?_)
    obtain ⟨hin, hmark⟩ := (mem_kept packets name).mp hname
    obtain ⟨x, hx, hnone⟩ := h name hin hmark
    rw [device_name, instanceShortName_eq hx hnone]
    exact hx

/-- `parse_mdns_packets` returns one device for each instance name, called by
its `X`, and no other, exactly for packets in which every PTR target and SRV
owner with `_esphomelib` in it is the name of an instance. -/
theorem oneDeviceEach_iff (packets : List Bytes) :
    (∃ devices, parseMdnsPackets packets = some devices ∧ OneDeviceEach packets devices)
      ↔ OnlyInstances packets := by
  rw [parseMdnsPackets_eq]
  constructor
  · rintro ⟨devices, hdevices, h⟩
    rw [Option.some.injEq] at hdevices
    subst hdevices
    exact onlyInstances_of_oneDeviceEach h
  · exact fun h => ⟨_, rfl, oneDeviceEach_of_onlyInstances h⟩

/-! ## An answer that lists service types -/

/-- The answer `_services._dns-sd._udp.local PTR _esphomelib._tcp.local`. -/
def serviceTypesAnswer : Bytes :=
  answerPacket ["_services", "_dns-sd", "_udp", "local"] 12
    (encodeName ["_esphomelib", "_tcp", "local"])

/-- It makes a device of the service type. -/
theorem serviceTypes_not_oneDeviceEach :
    ¬ ∃ devices, parseMdnsPackets [serviceTypesAnswer] = some devices ∧
      OneDeviceEach [serviceTypesAnswer] devices := by
  rintro ⟨devices, hdevices, h⟩
  rw [parseMdnsPackets_eq, Option.some.injEq] at hdevices
  subst hdevices
  have hnames : namesIn [serviceTypesAnswer] = [lit "_esphomelib._tcp.local"] := by decide +kernel
  obtain ⟨x, hx, _⟩ := onlyInstances_of_oneDeviceEach h (lit "_esphomelib._tcp.local")
    (by rw [hnames]; simp) (by decide)
  exact absurd hx.suffix_infix (by decide)

end EsphomeApi.Discovery
