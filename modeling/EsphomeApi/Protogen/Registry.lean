/-
EsphomeApi.Protogen.Registry — `emit_registry`: from the ids of the messages to
the functions that it generates.

The generated functions are a `switch` over the entries that `id_entries`
returns. `std::sort` may leave entries of one id in any order; what is proved
holds for every sort. That the entries are sorted makes the loop over
neighbours find every duplicate (`neighbours_eq_none_iff`), and without
duplicates a `switch` finds for each id the message that has it.
-/
import Mathlib.Data.List.Nodup
import Mathlib.Data.List.Perm.Subperm
import Mathlib.Data.List.Sort
import EsphomeApi.Protogen.Parser

namespace EsphomeApi.Protogen

/-! ## `id_entries` -/

structure IdEntry where
  name : CString
  id : UInt32
  deriving DecidableEq, Repr

/-- What `std::sort` does with the entries and the order of their ids. -/
structure SortsById (sort : List IdEntry → List IdEntry) : Prop where
  perm : ∀ entries, (sort entries).Perm entries
  ascending : ∀ entries, (sort entries).Pairwise fun a b => a.id ≤ b.id

/-- One such sort. -/
def insertById : List IdEntry → List IdEntry := List.insertionSort fun a b => a.id ≤ b.id

theorem sortsById_insertById : SortsById insertById where
  perm entries := List.perm_insertionSort _ entries
  ascending entries := by
    have : Std.Total fun a b : IdEntry => a.id ≤ b.id := ⟨fun a b => UInt32.le_total a.id b.id⟩
    have : IsTrans IdEntry fun a b => a.id ≤ b.id := ⟨fun _ _ _ => UInt32.le_trans⟩
    exact List.pairwise_insertionSort _ entries

/-- The entries before they are sorted. -/
def ProtoFile.numbered (file : ProtoFile) : List IdEntry :=
  (file.messages.filter (·.id ≠ 0)).map fun m => ⟨m.name, m.id⟩

/-- The first two neighbours of one id. -/
def neighbours : List IdEntry → Option (IdEntry × IdEntry)
  | a :: b :: entries => if b.id = a.id then some (a, b) else neighbours (b :: entries)
  | _ => none

def duplicateId (a b : IdEntry) : RuntimeError :=
  ⟨lit "duplicate message id " ++ toCString b.id.toNat ++ lit " (" ++ a.name ++ lit " and " ++
    b.name ++ lit ")"⟩

def noIds : RuntimeError := ⟨lit "no messages carry an (id) option"⟩

def idEntries (sort : List IdEntry → List IdEntry) (file : ProtoFile) :
    Except RuntimeError (List IdEntry) :=
  let entries := sort file.numbered
  match neighbours entries with
  | some (a, b) => .error (duplicateId a b)
  | none => if entries.isEmpty then .error noIds else .ok entries

/-! ## The generated functions -/

/-- The `case` of an id. -/
def caseOf (entries : List IdEntry) (id : UInt32) : Option IdEntry :=
  entries.find? fun e => e.id = id

/-- `create_message`: the message of which an object is made, by its name. -/
def createMessage (entries : List IdEntry) (id : UInt32) : Option CString :=
  (caseOf entries id).map IdEntry.name

def registryContains (entries : List IdEntry) (id : UInt32) : Bool := (caseOf entries id).isSome

def registrySize (entries : List IdEntry) : Nat := entries.length

def registryName (entries : List IdEntry) (id : UInt32) : CString :=
  ((caseOf entries id).map IdEntry.name).getD (lit "Unknown")

/-- `message_id_max`. -/
def messageIdMax (entries : List IdEntry) : UInt32 :=
  (entries.getLast?.map IdEntry.id).getD 0

/-! ## Duplicates -/

/-- Sorted entries have no neighbours of one id if and only if the ids are
distinct. -/
theorem neighbours_eq_none_iff {entries : List IdEntry}
    (hsorted : entries.Pairwise fun a b => a.id ≤ b.id) :
    neighbours entries = none ↔ (entries.map IdEntry.id).Nodup := by
  induction entries with
  | nil => simp [neighbours]
  | cons a entries ih =>
      cases entries with
      | nil => simp [neighbours]
      | cons b entries =>
          rw [List.pairwise_cons] at hsorted
          unfold neighbours
          split
          · next heq => simp [heq]
          · next hne =>
              rw [ih hsorted.2, @List.map_cons _ _ _ a, List.nodup_cons, iff_and_self]
              -- an entry of the same id stands behind `b`, whose id lies between the two
              intro _ hmem
              rw [List.map_cons, List.mem_cons] at hmem
              rcases hmem with heq | hmem
              · exact hne heq.symm
              · obtain ⟨c, hc, hcid⟩ := List.mem_map.mp hmem
                have hab := hsorted.1 b (List.mem_cons_self ..)
                have hbc := (List.pairwise_cons.mp hsorted.2).1 c hc
                rw [hcid] at hbc
                exact hne (UInt32.le_antisymm hbc hab)

/-- Neighbours of one id are two entries of the list. -/
theorem neighbours_eq_some {entries : List IdEntry} {a b : IdEntry}
    (h : neighbours entries = some (a, b)) : a.id = b.id ∧ [a, b].Sublist entries := by
  induction entries with
  | nil => cases h
  | cons c entries ih =>
      cases entries with
      | nil => cases h
      | cons d entries =>
          unfold neighbours at h
          split at h
          · next heq =>
              obtain ⟨rfl, rfl⟩ := Prod.mk.inj (Option.some.inj h)
              exact ⟨heq.symm, ((List.nil_sublist _).cons_cons _).cons_cons _⟩
          · exact ⟨(ih h).1, (ih h).2.cons _⟩

/-! ## What a `switch` finds -/

section

variable {entries : List IdEntry} {id : UInt32} {e : IdEntry}

theorem caseOf_eq_some_iff (hnodup : (entries.map IdEntry.id).Nodup) :
    caseOf entries id = some e ↔ e ∈ entries ∧ e.id = id := by
  constructor
  · intro h
    exact ⟨List.mem_of_find?_eq_some h, by simpa using List.find?_some h⟩
  · rintro ⟨hmem, rfl⟩
    unfold caseOf
    cases hfind : entries.find? fun e' => e'.id = e.id with
    | none =>
        have hno := List.find?_eq_none.mp hfind e hmem
        simp at hno
    | some e' =>
        have hmem' := List.mem_of_find?_eq_some hfind
        have hid : e'.id = e.id := by simpa using List.find?_some hfind
        rw [List.inj_on_of_nodup_map hnodup hmem' hmem hid]

end

variable {sort : List IdEntry → List IdEntry} {file : ProtoFile} {entries : List IdEntry}

theorem mem_numbered {e : IdEntry} :
    e ∈ file.numbered ↔ ∃ m ∈ file.messages, m.id ≠ 0 ∧ m.name = e.name ∧ m.id = e.id := by
  obtain ⟨name, id⟩ := e
  simp [ProtoFile.numbered, and_assoc]

/-- No two messages have one id. -/
def ProtoFile.DistinctIds (file : ProtoFile) : Prop := (file.numbered.map IdEntry.id).Nodup

/-- The generated functions are the messages of the file, by their ids. -/
structure IsRegistry (file : ProtoFile) (entries : List IdEntry) : Prop where
  create : ∀ id name, createMessage entries id = some name ↔
    ∃ m ∈ file.messages, m.id ≠ 0 ∧ m.name = name ∧ m.id = id
  contains : ∀ id, registryContains entries id = true ↔
    ∃ m ∈ file.messages, m.id ≠ 0 ∧ m.id = id
  name : ∀ id, registryName entries id = (createMessage entries id).getD (lit "Unknown")
  size : registrySize entries = (file.messages.filter (·.id ≠ 0)).length
  ascending : entries.Pairwise fun a b => a.id < b.id
  max_mem : registryContains entries (messageIdMax entries) = true
  le_max : ∀ id, registryContains entries id = true → id ≤ messageIdMax entries

/-- Entries in the order of their ids, no two of which are the same. -/
theorem ascending_iff : (entries.Pairwise fun a b => a.id < b.id) ↔
    (entries.Pairwise fun a b => a.id ≤ b.id) ∧ (entries.map IdEntry.id).Nodup := by
  rw [List.Nodup, List.pairwise_map, ← List.pairwise_and_iff]
  constructor
  · exact List.Pairwise.imp fun h => ⟨UInt32.le_of_lt h, UInt32.ne_of_lt h⟩
  · exact List.Pairwise.imp fun h => UInt32.lt_of_le_of_ne h.1 h.2

theorem isRegistry (hperm : entries.Perm file.numbered)
    (hsorted : entries.Pairwise fun a b => a.id ≤ b.id) (hdistinct : file.DistinctIds)
    (hne : entries ≠ []) : IsRegistry file entries := by
  have hnodup : (entries.map IdEntry.id).Nodup :=
    (hperm.map IdEntry.id).nodup_iff.mpr hdistinct
  have hcase : ∀ id name, createMessage entries id = some name ↔
      ∃ m ∈ file.messages, m.id ≠ 0 ∧ m.name = name ∧ m.id = id := by
    intro id name
    unfold createMessage
    rw [Option.map_eq_some_iff]
    constructor
    · rintro ⟨e, he, rfl⟩
      obtain ⟨hmem, rfl⟩ := (caseOf_eq_some_iff hnodup).mp he
      exact mem_numbered.mp (hperm.mem_iff.mp hmem)
    · intro h
      refine ⟨⟨name, id⟩, (caseOf_eq_some_iff hnodup).mpr ⟨?_, rfl⟩, rfl⟩
      exact hperm.mem_iff.mpr (mem_numbered.mpr h)
  have hcontains : ∀ id, registryContains entries id = true ↔
      ∃ m ∈ file.messages, m.id ≠ 0 ∧ m.id = id := by
    intro id
    have hsome : registryContains entries id = true ↔ ∃ name, createMessage entries id = some name := by
      unfold registryContains createMessage
      cases caseOf entries id <;> simp
    rw [hsome]
    constructor
    · rintro ⟨name, hname⟩
      obtain ⟨m, hm, hid, -, heq⟩ := (hcase id name).mp hname
      exact ⟨m, hm, hid, heq⟩
    · rintro ⟨m, hm, hid, heq⟩
      exact ⟨m.name, (hcase id m.name).mpr ⟨m, hm, hid, rfl, heq⟩⟩
  have hmem : ∀ id, registryContains entries id = true ↔ ∃ e ∈ entries, e.id = id := by
    intro id
    simp [registryContains, caseOf]
  obtain ⟨front, last, rfl⟩ := List.eq_nil_or_concat' entries |>.resolve_left hne
  have hmax : messageIdMax (front ++ [last]) = last.id := by simp [messageIdMax]
  have hascending := ascending_iff.mpr ⟨hsorted, hnodup⟩
  refine ⟨hcase, hcontains, fun _ => rfl, ?_, hascending, ?_, fun id hid => ?_⟩
  · rw [registrySize, hperm.length_eq, ProtoFile.numbered, List.length_map]
  · rw [hmax]
    exact (hmem _).mpr ⟨last, by simp, rfl⟩
  · rw [hmax]
    obtain ⟨e, he, rfl⟩ := (hmem id).mp hid
    rcases List.mem_append.mp he with he | he
    · exact (List.pairwise_append.mp hsorted).2.2 e he last (List.mem_singleton_self last)
    · rw [List.mem_singleton.mp he]
      exact UInt32.le_refl _

/-- `id_entries` returns a registry if the ids are distinct and there is one, and
otherwise throws: it names two messages of one id, if there are such. -/
theorem idEntries_outcome (hsort : SortsById sort) (file : ProtoFile) :
    match idEntries sort file with
    | .ok entries => file.DistinctIds ∧ IsRegistry file entries
    | .error e => file.numbered = [] ∧ e = noIds ∨
        ¬ file.DistinctIds ∧ ∃ a b, [a, b].Subperm file.numbered ∧ a.id = b.id ∧
          e = duplicateId a b := by
  have hperm := hsort.perm file.numbered
  have hsorted := hsort.ascending file.numbered
  have hdistinct : file.DistinctIds ↔ neighbours (sort file.numbered) = none := by
    rw [neighbours_eq_none_iff hsorted, (hperm.map IdEntry.id).nodup_iff, ProtoFile.DistinctIds]
  cases hfind : neighbours (sort file.numbered) with
  | some ab =>
      obtain ⟨a, b⟩ := ab
      have hrun : idEntries sort file = .error (duplicateId a b) := by
        simp only [idEntries, hfind]
      obtain ⟨hid, hsub⟩ := neighbours_eq_some hfind
      rw [hrun]
      refine .inr ⟨?_, a, b, hsub.subperm.trans hperm.subperm, hid, rfl⟩
      rw [hdistinct, hfind]
      exact Option.some_ne_none _
  | none =>
      by_cases hempty : sort file.numbered = []
      · have hrun : idEntries sort file = .error noIds := by
          have hisEmpty : (sort file.numbered).isEmpty = true := List.isEmpty_iff.mpr hempty
          simp only [idEntries, hfind, hisEmpty, if_true]
        have hnone : file.numbered = [] := by
          rw [hempty] at hperm
          exact hperm.nil_eq.symm
        rw [hrun]
        exact .inl ⟨hnone, rfl⟩
      · have hrun : idEntries sort file = .ok (sort file.numbered) := by
          simp only [idEntries, hfind, List.isEmpty_iff, hempty, if_false]
        rw [hrun]
        exact ⟨hdistinct.mpr hfind, isRegistry hperm hsorted (hdistinct.mpr hfind) hempty⟩

/-- The messages that have an id, in the order of the ids. -/
structure ProtoFile.Numbers (file : ProtoFile) (entries : List IdEntry) : Prop where
  nonempty : entries ≠ []
  perm : entries.Perm file.numbered
  ascending : entries.Pairwise fun a b => a.id < b.id

/-- What `id_entries` returns does not depend on the sort. -/
theorem idEntries_eq_ok_iff (hsort : SortsById sort) :
    idEntries sort file = .ok entries ↔ file.Numbers entries := by
  have hperm := hsort.perm file.numbered
  have hsorted := hsort.ascending file.numbered
  unfold idEntries
  constructor
  · intro h
    dsimp only at h
    split at h
    · cases h
    next hnone =>
    split at h
    · cases h
    · next hsome =>
        cases h
        have hnodup := (neighbours_eq_none_iff hsorted).mp hnone
        exact ⟨by simpa using hsome, hperm, ascending_iff.mpr ⟨hsorted, hnodup⟩⟩
  · rintro ⟨hsome, hentries, hascending⟩
    have hboth : (sort file.numbered).Perm entries := hperm.trans hentries.symm
    have hnodup : ((sort file.numbered).map IdEntry.id).Nodup :=
      (hboth.map IdEntry.id).nodup_iff.mpr (ascending_iff.mp hascending).2
    -- two orders of the same entries that ascend are one
    have heq : sort file.numbered = entries :=
      List.Perm.eq_of_pairwise (fun a b _ _ hab hba => absurd (UInt32.lt_trans hab hba)
        (UInt32.lt_irrefl a.id)) (ascending_iff.mpr ⟨hsorted, hnodup⟩) hascending hboth
    dsimp only
    rw [(neighbours_eq_none_iff hsorted).mpr hnodup, heq]
    simp [hsome]

end EsphomeApi.Protogen
