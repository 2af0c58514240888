/-
EsphomeApi.Subsystems.ModemPins — the one-shot callbacks of `get_modem_pins`,
in every state of every run.

A callback waits from its registration to the first response for its instance
(`Waits`, `FirstResponse`), which is said of the log alone; `Consistent.pending_iff`
says that the map holds the callbacks that wait. What the lambda has done and
has still to do because of a response is `Progress`: each callback that waited
is in the log or in `todo`, the log is in the order of registration, and the
persistent handler comes last. `modem_pins_once` reads what the callbacks are
promised off these.
-/
import EsphomeApi.Library.EventLog
import EsphomeApi.Subsystems.SerialProxy

namespace EsphomeApi

open Library

namespace SerialProxy

variable {s : SerialProxy} {log more : List Occurrence} {i : UInt32} {j k n : Nat}

/-! ## Waiting, by the log -/

/-- A response for the instance arrived at position `k`. -/
def IsResponse (log : List Occurrence) (i : UInt32) (k : Nat) : Prop :=
  ∃ r : Response, log[k]? = some (.received r) ∧ r.instance_ = i

/-- At position `k` a callback waits that was registered for the instance at `n`. -/
def Waits (log : List Occurrence) (i : UInt32) (k n : Nat) : Prop :=
  n < k ∧ log[n]? = some (.registered i) ∧ ∀ m, n < m → m < k → ¬ IsResponse log i m

/-- The response at `k` is the first for the instance after the registration at `n`. -/
def FirstResponse (log : List Occurrence) (i : UInt32) (n k : Nat) : Prop :=
  IsResponse log i k ∧ Waits log i k n

theorem isResponse_append (hk : k < log.length) (more : List Occurrence) :
    IsResponse (log ++ more) i k ↔ IsResponse log i k := by
  rw [IsResponse, IsResponse, List.getElem?_append_left hk]

theorem waits_append (hk : k ≤ log.length) (more : List Occurrence) :
    Waits (log ++ more) i k n ↔ Waits log i k n := by
  unfold Waits
  refine and_congr_right fun hn => ?_
  rw [List.getElem?_append_left (by omega)]
  refine and_congr_right fun _ => forall₃_congr fun m _ hm => ?_
  rw [isResponse_append (by omega)]

theorem FirstResponse.append (h : FirstResponse log i n k) (more : List Occurrence) :
    FirstResponse (log ++ more) i n k := by
  obtain ⟨⟨r, hk, hr⟩, hwaits⟩ := h
  have hlt := (List.getElem?_eq_some_iff.mp hk).1
  exact ⟨⟨r, getElem?_append_of_some hk more, hr⟩, (waits_append hlt.le more).mpr hwaits⟩

theorem FirstResponse.of_append (hk : k < log.length) (h : FirstResponse (log ++ more) i n k) :
    FirstResponse log i n k :=
  ⟨(isResponse_append hk more).mp h.1, (waits_append hk.le more).mp h.2⟩

/-- What waits one entry later. -/
theorem waits_succ (n : Nat) : Waits log i (k + 1) n ↔
    (Waits log i k n ∨ n = k ∧ log[k]? = some (.registered i)) ∧
      ¬ (n < k ∧ IsResponse log i k) := by
  unfold Waits
  constructor
  · rintro ⟨hn, hreg, hnone⟩
    refine ⟨?_, fun h => hnone k h.1 (by omega) h.2⟩
    rcases Nat.lt_succ_iff_lt_or_eq.mp hn with hlt | rfl
    · exact .inl ⟨hlt, hreg, fun m hm hmk => hnone m hm (by omega)⟩
    · exact .inr ⟨rfl, hreg⟩
  · rintro ⟨⟨hn, hreg, hnone⟩ | ⟨rfl, hreg⟩, hk⟩
    · refine ⟨by omega, hreg, fun m hm hmk => ?_⟩
      rcases Nat.lt_succ_iff_lt_or_eq.mp hmk with hlt | rfl
      · exact hnone m hm hlt
      · exact fun h => hk ⟨hn, h⟩
    · exact ⟨by omega, hreg, fun m hm hmk => by omega⟩

/-- A callback registered later waits for a later response, or for the same. -/
theorem FirstResponse.registered_lt {n' k' : Nat} (h : FirstResponse log i n k)
    (h' : FirstResponse log i n' k') (hk : k < k') : n < n' := by
  obtain ⟨hresponse, hn, -, -⟩ := h
  obtain ⟨-, -, hreg, hnone⟩ := h'
  have hne : n' ≠ k := by
    rintro rfl
    obtain ⟨r, hr, -⟩ := hresponse
    rw [hreg] at hr
    cases hr
  have : ¬ n' < k := fun hlt => hnone k hlt hk hresponse
  omega

/-! ## The persistent handler, by the log -/

def Occurrence.installs : Occurrence → Option (Option Handler)
  | .installed handler => some handler
  | _ => none

/-- The handler that `on_modem_pins` was called with last. -/
def installedHandler (log : List Occurrence) : Option Handler :=
  ((log.filterMap Occurrence.installs).getLast?).join

/-- Whether a call has registered the lambda. -/
def Occurrence.Listens : Occurrence → Prop
  | .registered _ => True
  | .installed _ => True
  | _ => False

/-- The lambda is registered when the response at `k` arrives. -/
def Listening (log : List Occurrence) (k : Nat) : Prop :=
  ∃ n o, n < k ∧ log[n]? = some o ∧ o.Listens

theorem listening_append (hk : k ≤ log.length) (more : List Occurrence) :
    Listening (log ++ more) k ↔ Listening log k := by
  refine exists₂_congr fun n o => and_congr_right fun hn => ?_
  rw [List.getElem?_append_left (by omega)]

theorem installedHandler_concat (log : List Occurrence) (o : Occurrence) :
    installedHandler (log ++ [o])
      = match o with | .installed handler => handler | _ => installedHandler log := by
  cases o <;> simp [installedHandler, Occurrence.installs]

/-! ## Progress of the lambda -/

/-- The callbacks `ns` are still due to the response at `current`. -/
structure Due (current : Nat) (log : List Occurrence) (r : Response) (ns : List Nat) : Prop where
  received : log[current]? = some (.received r)
  sorted : ns.Pairwise (· < ·)
  first : ∀ n ∈ ns, FirstResponse log r.instance_ n current
  later : ∀ n ∈ ns, ∀ {j k m : Nat} {p : SerialProxyModemPins},
    log[j]? = some (.completed k m p) → p.instance_ = r.instance_ → m < n

/-- What the lambda does for the callbacks `ns` and the persistent handler. -/
def works (r : Response) (ns : List Nat) : List Work :=
  ns.map (Work.once · r.pins) ++ [.handler r.pins]

structure Progress (current : Nat) (todo : List Work) (log : List Occurrence) : Prop where
  latest : ∀ {k : Nat} {r : Response}, log[k]? = some (.received r) → k ≤ current
  shape : todo = [] ∨ ∃ r ns, Due current log r ns ∧ todo = works r ns
  /-- a callback is invoked by the first response after its registration -/
  completed : ∀ {j k n : Nat} {p : SerialProxyModemPins}, log[j]? = some (.completed k n p) →
    k < j ∧ ∃ r : Response, log[k]? = some (.received r) ∧ p = r.pins ∧
      FirstResponse log r.instance_ n k
  order : ∀ {j j' k k' n n' : Nat} {p p' : SerialProxyModemPins},
    log[j]? = some (.completed k n p) → log[j']? = some (.completed k' n' p') →
    p.instance_ = p'.instance_ → j < j' → n < n'
  complete : ∀ {k n : Nat} {r : Response}, log[k]? = some (.received r) →
    FirstResponse log r.instance_ n k →
    (∃ j : Nat, log[j]? = some (.completed k n r.pins)) ∨ k = current ∧ .once n r.pins ∈ todo
  /-- the persistent handler is that of the moment, and the last to be invoked -/
  handled : ∀ {j k : Nat} {h : Option Handler} {p : SerialProxyModemPins},
    log[j]? = some (.handled k h p) → k < j ∧ h = installedHandler (log.take j) ∧
      (∃ r : Response, log[k]? = some (.received r) ∧ p = r.pins) ∧ (k = current → todo = [])
  after : ∀ {j j' k n : Nat} {h : Option Handler} {p p' : SerialProxyModemPins},
    log[j]? = some (.handled k h p) → log[j']? = some (.completed k n p') → j' < j
  handledOnce : ∀ {j j' k : Nat} {h h' : Option Handler} {p p' : SerialProxyModemPins},
    log[j]? = some (.handled k h p) → log[j']? = some (.handled k h' p') → j = j'
  turn : ∀ {k : Nat} {r : Response}, log[k]? = some (.received r) → Listening log k →
    (∃ (j : Nat) (h : Option Handler), log[j]? = some (.handled k h r.pins)) ∨
      k = current ∧ .handler r.pins ∈ todo

/-- What a call of the application enters. -/
def Occurrence.Quiet : Occurrence → Prop
  | .registered _ => True
  | .sent _ => True
  | .installed _ => True
  | _ => False

theorem getElem?_of_quiet {o e : Occurrence} (ho : o.Quiet) (he : ¬ e.Quiet)
    (h : (log ++ [o])[k]? = some e) : log[k]? = some e := by
  rcases getElem?_concat_eq_some.mp h with hold | ⟨-, rfl⟩
  · exact hold
  · exact absurd ho he

theorem lt_of_getElem? {e : Occurrence} (h : log[k]? = some e) : k < log.length :=
  (List.getElem?_eq_some_iff.mp h).1

theorem installedHandler_take (hj : j < log.length) (more : List Occurrence) :
    installedHandler ((log ++ more).take j) = installedHandler (log.take j) := by
  rw [List.take_append_of_le_length hj.le]

variable {current : Nat} {todo rest : List Work} {r : Response} {ns : List Nat}

theorem Due.concat (h : Due current log r ns) {o : Occurrence}
    (ho : ∀ n ∈ ns, ∀ {k m : Nat} {p : SerialProxyModemPins}, o = .completed k m p →
      p.instance_ = r.instance_ → m < n) :
    Due current (log ++ [o]) r ns where
  received := getElem?_append_of_some h.received _
  sorted := h.sorted
  first n hn := (h.first n hn).append _
  later n hn {j k m p} hj hp := by
    rcases getElem?_concat_eq_some.mp hj with hold | ⟨-, hnew⟩
    · exact h.later n hn hold hp
    · exact ho n hn hnew.symm hp

/-! What is true of an entry stays true with more entries after it. -/

theorem Progress.completed_append {p : SerialProxyModemPins} (h : Progress current todo log)
    (hj : log[j]? = some (.completed k n p)) (more : List Occurrence) :
    k < j ∧ ∃ r : Response, (log ++ more)[k]? = some (.received r) ∧ p = r.pins ∧
      FirstResponse (log ++ more) r.instance_ n k := by
  obtain ⟨hlt, r, hr, hp, hfirst⟩ := h.completed hj
  exact ⟨hlt, r, getElem?_append_of_some hr _, hp, hfirst.append _⟩

theorem Progress.complete_append (h : Progress current todo log)
    (hk : log[k]? = some (.received r)) (hfirst : FirstResponse (log ++ more) r.instance_ n k) :
    (∃ j : Nat, (log ++ more)[j]? = some (.completed k n r.pins)) ∨
      k = current ∧ .once n r.pins ∈ todo := by
  rcases h.complete hk (hfirst.of_append (lt_of_getElem? hk)) with ⟨j, hj⟩ | hdue
  · exact .inl ⟨j, getElem?_append_of_some hj _⟩
  · exact .inr hdue

theorem Progress.handled_append {f : Option Handler} {p : SerialProxyModemPins}
    (h : Progress current todo log) (hj : log[j]? = some (.handled k f p))
    (more : List Occurrence) :
    k < j ∧ f = installedHandler ((log ++ more).take j) ∧
      ∃ r : Response, (log ++ more)[k]? = some (.received r) ∧ p = r.pins := by
  obtain ⟨hlt, hf, ⟨r, hr, hp⟩, -⟩ := h.handled hj
  rw [installedHandler_take (lt_of_getElem? hj)]
  exact ⟨hlt, hf, r, getElem?_append_of_some hr _, hp⟩

theorem Progress.turn_append (h : Progress current todo log)
    (hk : log[k]? = some (.received r)) (hlistening : Listening (log ++ more) k) :
    (∃ (j : Nat) (f : Option Handler), (log ++ more)[j]? = some (.handled k f r.pins)) ∨
      k = current ∧ .handler r.pins ∈ todo := by
  rcases h.turn hk ((listening_append (lt_of_getElem? hk).le _).mp hlistening) with
    ⟨j, f, hj⟩ | hdue
  · exact .inl ⟨j, f, getElem?_append_of_some hj _⟩
  · exact .inr hdue

/-- The persistent handler has not been invoked while there is work. -/
theorem Progress.not_handled {work : Work} {f : Option Handler} {p : SerialProxyModemPins}
    (h : Progress current (work :: rest) log) (hj : log[j]? = some (.handled k f p)) :
    k ≠ current := by
  intro hk
  cases (h.handled hj).2.2.2 hk

theorem Progress.quiet (h : Progress current todo log) {o : Occurrence} (ho : o.Quiet) :
    Progress current todo (log ++ [o]) where
  latest hk := h.latest (getElem?_of_quiet ho id hk)
  shape := by
    rcases h.shape with hidle | ⟨r, ns, hdue, htodo⟩
    · exact .inl hidle
    · refine .inr ⟨r, ns, hdue.concat ?_, htodo⟩
      rintro n - k m p rfl
      exact ho.elim
  completed hj := h.completed_append (getElem?_of_quiet ho id hj) _
  order hj hj' := h.order (getElem?_of_quiet ho id hj) (getElem?_of_quiet ho id hj')
  complete hk hfirst := h.complete_append (getElem?_of_quiet ho id hk) hfirst
  handled hj := by
    have hold := getElem?_of_quiet ho id hj
    obtain ⟨hlt, hh, hr⟩ := h.handled_append hold _
    exact ⟨hlt, hh, hr, (h.handled hold).2.2.2⟩
  after hj hj' := h.after (getElem?_of_quiet ho id hj) (getElem?_of_quiet ho id hj')
  handledOnce hj hj' := h.handledOnce (getElem?_of_quiet ho id hj) (getElem?_of_quiet ho id hj')
  turn hk hlistening := h.turn_append (getElem?_of_quiet ho id hk) hlistening

/-- The callbacks of a response are due when it arrives: those that wait. -/
theorem Progress.receive (h : Progress current [] log)
    (hwaits : ∀ n, n ∈ ns ↔ Waits log r.instance_ log.length n) (hsorted : ns.Pairwise (· < ·))
    (htodo : todo = works r ns ∨ todo = [] ∧ ¬ Listening log log.length) :
    Progress log.length todo (log ++ [.received r]) := by
  have hresponse : IsResponse (log ++ [.received r]) r.instance_ log.length :=
    ⟨r, List.getElem?_concat_length .., rfl⟩
  have hfirst : ∀ n ∈ ns, FirstResponse (log ++ [.received r]) r.instance_ n log.length :=
    fun n hn => ⟨hresponse, (waits_append (Nat.le_refl _) _).mpr ((hwaits n).mp hn)⟩
  have hcompleted {j k n : Nat} {p : SerialProxyModemPins}
      (hj : (log ++ [.received r])[j]? = some (.completed k n p)) :
      log[j]? = some (.completed k n p) :=
    getElem?_of_append hj (by simp)
  have hhandled {j k : Nat} {f : Option Handler} {p : SerialProxyModemPins}
      (hj : (log ++ [.received r])[j]? = some (.handled k f p)) :
      log[j]? = some (.handled k f p) :=
    getElem?_of_append hj (by simp)
  refine ⟨?_, ?_, ?_, ?_, ?_, ?_, ?_, ?_, ?_⟩
  · intro k r' hk
    exact Nat.lt_succ_iff.mp (by simpa using lt_of_getElem? hk)
  · rcases htodo with rfl | ⟨rfl, -⟩
    · refine .inr ⟨r, ns, ⟨List.getElem?_concat_length .., hsorted, hfirst, ?_⟩, rfl⟩
      intro n hn j k m p hj hp
      -- what was invoked before was due to an earlier response for the instance
      obtain ⟨-, r', hr', rfl, hold⟩ := h.completed (hcompleted hj)
      have hlater := (hfirst n hn)
      rw [← show r'.instance_ = r.instance_ from hp] at hlater
      exact (hold.append _).registered_lt hlater (lt_of_getElem? hr')
    · exact .inl rfl
  · intro j k n p hj
    exact h.completed_append (hcompleted hj) _
  · intro j j' k k' n n' p p' hj hj'
    exact h.order (hcompleted hj) (hcompleted hj')
  · intro k n r' hk hn
    rcases getElem?_concat_eq_some.mp hk with hold | ⟨rfl, hnew⟩
    · exact .inl ((h.complete_append hold hn).resolve_right fun hdue =>
        absurd hdue.2 List.not_mem_nil)
    · cases hnew
      have hwaiting : Waits log r.instance_ log.length n :=
        (waits_append (Nat.le_refl _) _).mp hn.2
      rcases htodo with rfl | ⟨-, hdeaf⟩
      · exact .inr ⟨rfl, by simp [works, (hwaits n).mpr hwaiting]⟩
      · exact absurd ⟨n, _, hwaiting.1, hwaiting.2.1, trivial⟩ hdeaf
  · intro j k f p hj
    have hold := hhandled hj
    obtain ⟨hlt, hf, hr⟩ := h.handled_append hold _
    have hbefore := lt_of_getElem? hold
    exact ⟨hlt, hf, hr, by omega⟩
  · intro j j' k n f p p' hj hj'
    exact h.after (hhandled hj) (hcompleted hj')
  · intro j j' k f f' p p' hj hj'
    exact h.handledOnce (hhandled hj) (hhandled hj')
  · intro k r' hk hlistening
    rcases getElem?_concat_eq_some.mp hk with hold | ⟨rfl, hnew⟩
    · exact .inl ((h.turn_append hold hlistening).resolve_right fun hdue =>
        absurd hdue.2 List.not_mem_nil)
    · cases hnew
      rcases htodo with rfl | ⟨-, hdeaf⟩
      · exact .inr ⟨rfl, by simp [works]⟩
      · exact absurd ((listening_append (Nat.le_refl _) _).mp hlistening) hdeaf

theorem works_eq_once {p : SerialProxyModemPins} (h : works r ns = .once n p :: rest) :
    ∃ ns', ns = n :: ns' ∧ p = r.pins ∧ rest = works r ns' := by
  cases ns with
  | nil => simp [works] at h
  | cons n' ns' =>
      simp only [works, List.map_cons, List.cons_append, List.cons.injEq, Work.once.injEq] at h
      obtain ⟨⟨rfl, rfl⟩, rfl⟩ := h
      exact ⟨ns', rfl, rfl, rfl⟩

theorem works_eq_handler {p : SerialProxyModemPins} (h : works r ns = .handler p :: rest) :
    p = r.pins ∧ rest = [] := by
  cases ns with
  | nil => simpa [works, eq_comm] using h
  | cons n' ns' => simp [works] at h

/-- A callback is invoked. -/
theorem Progress.once {p : SerialProxyModemPins} (h : Progress current (.once n p :: rest) log) :
    Progress current rest (log ++ [.completed current n p]) := by
  obtain hnone | ⟨r, ns, hdue, hworks⟩ := h.shape
  · cases hnone
  obtain ⟨ns', rfl, rfl, rfl⟩ := works_eq_once hworks.symm
  obtain ⟨hreceived, hsorted, hfirst, hlater⟩ := hdue
  have hn : n ∈ n :: ns' := List.mem_cons_self
  have hold {k : Nat} {e : Occurrence}
      (hk : (log ++ [.completed current n r.pins])[k]? = some e)
      (he : e ≠ .completed current n r.pins) : log[k]? = some e :=
    getElem?_of_append hk (by simpa using he)
  refine ⟨?_, ?_, ?_, ?_, ?_, ?_, ?_, ?_, ?_⟩
  · intro k r' hk
    exact h.latest (hold hk (by simp))
  · have hrest : Due current log r ns' :=
      ⟨hreceived, hsorted.of_cons, fun m hm => hfirst m (List.mem_cons_of_mem _ hm),
        fun m hm => hlater m (List.mem_cons_of_mem _ hm)⟩
    refine .inr ⟨r, ns', hrest.concat ?_, rfl⟩
    intro m hm k m' p ho _
    cases ho
    exact List.rel_of_pairwise_cons hsorted hm
  · intro j k m p hj
    rcases getElem?_concat_eq_some.mp hj with hj | ⟨rfl, hnew⟩
    · exact h.completed_append hj _
    · cases hnew
      exact ⟨lt_of_getElem? hreceived, r, getElem?_append_of_some hreceived _, rfl,
        (hfirst n hn).append _⟩
  · intro j j' k k' m m' p p' hj hj' hp hlt
    rcases getElem?_concat_eq_some.mp hj with hj | ⟨rfl, -⟩
    · rcases getElem?_concat_eq_some.mp hj' with hj' | ⟨-, hnew⟩
      · exact h.order hj hj' hp hlt
      · cases hnew
        exact hlater n hn hj hp
    · have hlast := lt_of_getElem? hj'
      rw [List.length_append, List.length_singleton] at hlast
      omega
  · intro k m r' hk hm
    rcases h.complete_append (hold hk (by simp)) hm with hj | ⟨rfl, hmem⟩
    · exact .inl hj
    · rcases List.mem_cons.mp hmem with hhead | hrest
      · obtain ⟨rfl, hpins⟩ := Work.once.inj hhead
        exact .inl ⟨log.length, by rw [hpins, List.getElem?_concat_length]⟩
      · exact .inr ⟨rfl, hrest⟩
  · intro j k f p hj
    have hj := hold hj (by simp)
    obtain ⟨hlt, hf, hr⟩ := h.handled_append hj _
    exact ⟨hlt, hf, hr, fun hk => absurd hk (h.not_handled hj)⟩
  · intro j j' k m f p p' hj hj'
    have hj := hold hj (by simp)
    rcases getElem?_concat_eq_some.mp hj' with hj' | ⟨rfl, hnew⟩
    · exact h.after hj hj'
    · cases hnew
      exact absurd rfl (h.not_handled hj)
  · intro j j' k f f' p p' hj hj'
    exact h.handledOnce (hold hj (by simp)) (hold hj' (by simp))
  · intro k r' hk hlistening
    have hk := hold hk (by simp)
    rcases h.turn_append hk hlistening with hj | ⟨rfl, hmem⟩
    · exact .inl hj
    · exact .inr ⟨rfl, by simpa using hmem⟩

/-- The persistent handler is invoked, if there is one. -/
theorem Progress.handler {p : SerialProxyModemPins}
    (h : Progress current (.handler p :: rest) log) :
    Progress current rest (log ++ [.handled current (installedHandler log) p]) := by
  obtain hnone | ⟨r, ns, hdue, hworks⟩ := h.shape
  · cases hnone
  obtain ⟨rfl, rfl⟩ := works_eq_handler hworks.symm
  have hold {k : Nat} {e : Occurrence}
      (hk : (log ++ [.handled current (installedHandler log) r.pins])[k]? = some e)
      (he : e ≠ .handled current (installedHandler log) r.pins) : log[k]? = some e :=
    getElem?_of_append hk (by simpa using he)
  refine ⟨?_, .inl rfl, ?_, ?_, ?_, ?_, ?_, ?_, ?_⟩
  · intro k r' hk
    exact h.latest (hold hk (by simp))
  · intro j k n p hj
    exact h.completed_append (hold hj (by simp)) _
  · intro j j' k k' n n' p p' hj hj'
    exact h.order (hold hj (by simp)) (hold hj' (by simp))
  · intro k n r' hk hn
    rcases h.complete_append (hold hk (by simp)) hn with hj | ⟨-, hmem⟩
    · exact .inl hj
    · simp at hmem
  · intro j k f p hj
    rcases getElem?_concat_eq_some.mp hj with hj | ⟨rfl, hnew⟩
    · obtain ⟨hlt, hf, hr⟩ := h.handled_append hj _
      exact ⟨hlt, hf, hr, fun _ => rfl⟩
    · cases hnew
      refine ⟨lt_of_getElem? hdue.received, by rw [List.take_left' rfl], ?_, fun _ => rfl⟩
      exact ⟨r, getElem?_append_of_some hdue.received _, rfl⟩
  · intro j j' k n f p p' hj hj'
    have hj' := hold hj' (by simp)
    rcases getElem?_concat_eq_some.mp hj with hj | ⟨rfl, -⟩
    · exact h.after hj hj'
    · exact lt_of_getElem? hj'
  · intro j j' k f f' p p' hj hj'
    rcases getElem?_concat_eq_some.mp hj with hj | ⟨rfl, hnew⟩ <;>
      rcases getElem?_concat_eq_some.mp hj' with hj' | ⟨rfl, hnew'⟩
    · exact h.handledOnce hj hj'
    · cases hnew'
      exact absurd rfl (h.not_handled hj)
    · cases hnew
      exact absurd rfl (h.not_handled hj')
    · rfl
  · intro k r' hk hlistening
    have hk := hold hk (by simp)
    rcases h.turn_append hk hlistening with hj | ⟨rfl, hmem⟩
    · exact .inl hj
    · have hpins : r'.pins = r.pins := by simpa using hmem
      exact .inl ⟨log.length, _, by rw [hpins, List.getElem?_concat_length]⟩

/-! ## Consistent states -/

structure Consistent (s : SerialProxy) : Prop where
  progress : Progress s.current s.todo s.log
  pending_iff : ∀ i n, n ∈ s.pending i ↔ Waits s.log i s.log.length n
  sorted : ∀ i, (s.pending i).Pairwise (· < ·)
  listening : s.modemPinsRegistered = true ↔ Listening s.log s.log.length
  handler : s.modemPinsHandler = installedHandler s.log

theorem waits_concat (log : List Occurrence) (o : Occurrence) (i : UInt32) (n : Nat) :
    Waits (log ++ [o]) i (log ++ [o]).length n ↔
      (Waits log i log.length n ∨ n = log.length ∧ o = .registered i) ∧
        ¬ (n < log.length ∧ ∃ r : Response, o = .received r ∧ r.instance_ = i) := by
  rw [List.length_append, List.length_singleton, waits_succ, waits_append (Nat.le_refl _),
    IsResponse, List.getElem?_concat_length]
  simp only [Option.some.injEq]

theorem listening_concat (log : List Occurrence) (o : Occurrence) :
    Listening (log ++ [o]) (log ++ [o]).length ↔ Listening log log.length ∨ o.Listens := by
  constructor
  · rintro ⟨n, e, -, hn, he⟩
    rcases getElem?_concat_eq_some.mp hn with hold | ⟨-, rfl⟩
    · exact .inl ⟨n, e, lt_of_getElem? hold, hold, he⟩
    · exact .inr he
  · rintro (⟨n, e, hlt, hn, he⟩ | ho)
    · exact ⟨n, e, by simp; omega, getElem?_append_of_some hn _, he⟩
    · exact ⟨log.length, o, by simp, List.getElem?_concat_length .., ho⟩

theorem pending_push (s : SerialProxy) (i j : UInt32) :
    (s.push i).pending j = s.pending j ++ if j = i then [s.log.length] else [] := by
  unfold push pending
  by_cases h : j = i
  · subst h
    simp [AList.lookup_insert]
  · simp [AList.lookup_insert_ne h, h]

/-- An entry that registers no callback and is no response changes nothing about who
waits. -/
theorem Consistent.record (h : Consistent s) {t : SerialProxy} {o : Occurrence}
    (hprogress : Progress t.current t.todo t.log) (hlog : t.log = s.log ++ [o])
    (hpending : t.pendingModemPins = s.pendingModemPins)
    (hregistered : ∀ i, o ≠ .registered i) (hreceived : ∀ r, o ≠ .received r)
    (hlistening : t.modemPinsRegistered = true ↔ s.modemPinsRegistered = true ∨ o.Listens)
    (hhandler : t.modemPinsHandler = installedHandler t.log) : Consistent t where
  progress := hprogress
  pending_iff i n := by
    have hsame : t.pending i = s.pending i := by rw [pending, pending, hpending]
    rw [hsame, h.pending_iff, hlog, waits_concat]
    simp [hregistered, hreceived]
  sorted i := by
    have hsame : t.pending i = s.pending i := by rw [pending, pending, hpending]
    rw [hsame]
    exact h.sorted i
  listening := by rw [hlistening, h.listening, hlog, listening_concat]
  handler := hhandler

theorem Consistent.sent (h : Consistent s) (i : UInt32) : Consistent (s.record (.sent i)) := by
  refine h.record (h.progress.quiet trivial) rfl rfl (by simp) (by simp) (by
    simp [SerialProxy.record, Occurrence.Listens]) ?_
  rw [SerialProxy.record, installedHandler_concat]
  exact h.handler

theorem Consistent.onModemPins (h : Consistent s) (f : Option Handler) :
    Consistent (s.onModemPins f) := by
  refine h.record (h.progress.quiet trivial) rfl rfl (by simp) (by simp) (by
    simp [SerialProxy.onModemPins, SerialProxy.record, ensureModemPinsHandler,
      Occurrence.Listens]) ?_
  exact (installedHandler_concat s.log (.installed f)).symm

theorem Consistent.registered (h : Consistent s) (i : UInt32) :
    Consistent ((s.ensureModemPinsHandler.push i).record (.registered i)) where
  progress := h.progress.quiet trivial
  pending_iff j n := by
    have hpending : ((s.ensureModemPinsHandler.push i).record (.registered i)).pending j
        = s.pending j ++ if j = i then [s.log.length] else [] := pending_push _ i j
    have hlog : ((s.ensureModemPinsHandler.push i).record (.registered i)).log
        = s.log ++ [.registered i] := rfl
    rw [hpending, hlog, waits_concat, List.mem_append, h.pending_iff]
    by_cases hji : j = i
    · simp [hji]
    · simp [hji, Ne.symm hji]
  sorted j := by
    have hpending : ((s.ensureModemPinsHandler.push i).record (.registered i)).pending j
        = s.pending j ++ if j = i then [s.log.length] else [] := pending_push _ i j
    rw [hpending, List.pairwise_append]
    refine ⟨h.sorted j, by split <;> simp, fun n hn m hm => ?_⟩
    split at hm
    · rw [List.mem_singleton.mp hm]
      exact ((h.pending_iff j n).mp hn).1
    · exact absurd hm List.not_mem_nil
  listening := by
    have hlog : ((s.ensureModemPinsHandler.push i).record (.registered i)).log
        = s.log ++ [.registered i] := rfl
    rw [hlog, listening_concat]
    simp [SerialProxy.record, push, ensureModemPinsHandler, Occurrence.Listens]
  handler := h.handler.trans (installedHandler_concat s.log (.registered i)).symm

theorem Consistent.call (h : Consistent s) (c : Call) : Consistent (s.call c) := by
  cases c with
  | getModemPins i once =>
      cases once with
      | true => exact (h.registered i).sent i
      | false => exact h.sent i
  | onModemPins f => exact h.onModemPins f

theorem Consistent.calls (h : Consistent s) (calls : List Call) :
    Consistent (calls.foldl SerialProxy.call s) :=
  run_invariant (fun _ c hs => hs.call c) h calls

@[simp] theorem log_receive (s : SerialProxy) (r : Response) :
    (s.receive r).log = s.log ++ [.received r] := by
  unfold receive
  split <;> rfl

@[simp] theorem current_receive (s : SerialProxy) (r : Response) :
    (s.receive r).current = s.log.length := by
  unfold receive
  split <;> rfl

@[simp] theorem modemPinsHandler_receive (s : SerialProxy) (r : Response) :
    (s.receive r).modemPinsHandler = s.modemPinsHandler := by
  unfold receive
  split <;> rfl

@[simp] theorem modemPinsRegistered_receive (s : SerialProxy) (r : Response) :
    (s.receive r).modemPinsRegistered = s.modemPinsRegistered := by
  unfold receive
  split <;> rfl

theorem todo_receive (s : SerialProxy) (r : Response) : (s.receive r).todo
    = if s.modemPinsRegistered then works r (s.pending r.instance_) else s.todo := by
  unfold receive
  split <;> rfl

theorem pending_receive (s : SerialProxy) (r : Response) (i : UInt32) : (s.receive r).pending i
    = if s.modemPinsRegistered ∧ i = r.instance_ then [] else s.pending i := by
  unfold receive pending
  by_cases hregistered : s.modemPinsRegistered = true
  · by_cases hi : i = r.instance_
    · subst hi
      simp [hregistered, AList.lookup_erase]
    · simp [hregistered, AList.lookup_erase_ne hi, hi]
  · simp [hregistered]

/-- Nobody waits before the lambda is registered. -/
theorem Consistent.not_waits (h : Consistent s) (hdeaf : ¬ s.modemPinsRegistered = true)
    (i : UInt32) (n : Nat) : ¬ Waits s.log i s.log.length n := by
  rintro ⟨hn, hreg, -⟩
  exact hdeaf (h.listening.mpr ⟨n, _, hn, hreg, trivial⟩)

theorem Consistent.receive (h : Consistent s) (hidle : s.todo = []) (r : Response) :
    Consistent (s.receive r) where
  progress := by
    have hprogress := h.progress
    rw [hidle] at hprogress
    rw [current_receive, log_receive]
    refine hprogress.receive (h.pending_iff r.instance_) (h.sorted r.instance_) ?_
    rw [todo_receive, hidle]
    by_cases hregistered : s.modemPinsRegistered = true
    · exact .inl (if_pos hregistered)
    · exact .inr ⟨if_neg hregistered, fun hlistening => hregistered (h.listening.mpr hlistening)⟩
  pending_iff i n := by
    rw [pending_receive, log_receive, waits_concat]
    by_cases hregistered : s.modemPinsRegistered = true
    · by_cases hi : i = r.instance_
      · subst hi
        simp only [hregistered, and_self, if_true, List.not_mem_nil, false_iff]
        rintro ⟨hwaits | ⟨-, hnew⟩, hnone⟩
        · exact hnone ⟨hwaits.1, r, rfl, rfl⟩
        · cases hnew
      · simp [hi, h.pending_iff, Ne.symm hi]
    · have hnobody := h.not_waits hregistered i n
      simp [hregistered, h.pending_iff, hnobody]
  sorted i := by
    rw [pending_receive]
    split
    · exact .nil
    · exact h.sorted i
  listening := by
    rw [modemPinsRegistered_receive, log_receive, listening_concat, h.listening]
    simp [Occurrence.Listens]
  handler := by
    rw [modemPinsHandler_receive, log_receive, installedHandler_concat]
    exact h.handler

theorem Consistent.completed (h : Consistent s) {n : Nat} {p : SerialProxyModemPins}
    {rest : List Work} (htodo : s.todo = .once n p :: rest) :
    Consistent (SerialProxy.record (.completed s.current n p) { s with todo := rest }) := by
  have hprogress := h.progress
  rw [htodo] at hprogress
  refine h.record hprogress.once rfl rfl (by simp) (by simp) ?_ ?_
  · simp [SerialProxy.record, Occurrence.Listens]
  · rw [SerialProxy.record, installedHandler_concat]
    exact h.handler

theorem Consistent.handled (h : Consistent s) {p : SerialProxyModemPins} {rest : List Work}
    (htodo : s.todo = .handler p :: rest) :
    Consistent
      (SerialProxy.record (.handled s.current s.modemPinsHandler p) { s with todo := rest }) := by
  have hprogress := h.progress
  rw [htodo] at hprogress
  rw [h.handler]
  refine h.record hprogress.handler rfl rfl (by simp) (by simp) ?_ ?_
  · simp [SerialProxy.record, Occurrence.Listens]
  · rw [SerialProxy.record, installedHandler_concat]

theorem Consistent.step (h : Consistent s) (e : Event) : Consistent (step s e) := by
  unfold SerialProxy.step
  cases e with
  | call c =>
      dsimp only
      split
      · exact h.call c
      · exact h
  | receive r =>
      dsimp only
      split
      · exact h.receive ‹_› r
      · exact h
  | turn calls =>
      dsimp only
      split
      · exact h
      · rename_i work rest htodo
        cases work with
        | once n p => exact (h.completed htodo).calls calls
        | handler p =>
            unfold perform
            dsimp only
            split
            · exact h.handled htodo
            · exact (h.handled htodo).calls calls

theorem consistent_run (events : List Event) : Consistent (run SerialProxy.step {} events) := by
  refine run_invariant (fun _ e h => h.step e) ?_ events
  refine ⟨⟨?_, .inl rfl, ?_, ?_, ?_, ?_, ?_, ?_, ?_⟩, ?_, ?_, ?_, rfl⟩ <;>
    simp [pending, Waits, Listening]

/-! ## Exactly once -/

/-- The dispatch of the response at `k` is over. -/
def Dispatched (s : SerialProxy) (k : Nat) : Prop := k ≠ s.current ∨ s.todo = []

/-- The callback registered at a position is invoked at one position of the log at
most, and for the instance that it was registered for. -/
theorem Progress.completed_unique (h : Progress current todo log) {j' k' : Nat}
    {p p' : SerialProxyModemPins} (hj : log[j]? = some (.completed k n p))
    (hj' : log[j']? = some (.completed k' n p')) : j = j' := by
  obtain ⟨-, r, -, rfl, hfirst⟩ := h.completed hj
  obtain ⟨-, r', -, rfl, hfirst'⟩ := h.completed hj'
  have hsame : r.instance_ = r'.instance_ := by
    have hreg := hfirst.2.2.1
    rw [hfirst'.2.2.1, Option.some.injEq, Occurrence.registered.injEq] at hreg
    exact hreg.symm
  rcases Nat.lt_trichotomy j j' with hlt | heq | hgt
  · exact absurd (h.order hj hj' hsame hlt) (Nat.lt_irrefl n)
  · exact heq
  · exact absurd (h.order hj' hj hsame.symm hgt) (Nat.lt_irrefl n)

/-- What the one-shot callbacks and the persistent handler are promised. -/
structure OnceEach (s : SerialProxy) : Prop where
  /-- a callback is invoked by the first response for its instance after its
  registration, once that is dispatched -/
  fires : ∀ {i : UInt32} {n k : Nat}, FirstResponse s.log i n k → s.Dispatched k →
    ∃ (j : Nat) (r : Response), s.log[k]? = some (.received r) ∧
      s.log[j]? = some (.completed k n r.pins)
  /-- by no other response, and once only -/
  only : ∀ {j k n : Nat} {p : SerialProxyModemPins}, s.log[j]? = some (.completed k n p) →
    (∃ i, s.log[n]? = some (.registered i) ∧ FirstResponse s.log i n k ∧ k < j) ∧
      ∀ {j' k' : Nat} {p' : SerialProxyModemPins},
        s.log[j']? = some (.completed k' n p') → j' = j
  /-- callbacks of one instance in the order of registration -/
  order : ∀ {i : UInt32} {j j' k k' n n' : Nat} {p p' : SerialProxyModemPins},
    s.log[n]? = some (.registered i) → s.log[n']? = some (.registered i) → n < n' →
    s.log[j]? = some (.completed k n p) → s.log[j']? = some (.completed k' n' p') → j < j'
  /-- the persistent handler of the moment once per response, after the callbacks; there is
  none before the lambda is registered -/
  persistent : ∀ {k : Nat} {r : Response}, s.log[k]? = some (.received r) →
    Listening s.log k → s.Dispatched k →
    ∃ j : Nat, s.log[j]? = some (.handled k (installedHandler (s.log.take j)) r.pins) ∧
      (∀ {j' : Nat} {f : Option Handler} {p : SerialProxyModemPins},
        s.log[j']? = some (.handled k f p) → j' = j) ∧
      ∀ {j' n : Nat} {p : SerialProxyModemPins}, s.log[j']? = some (.completed k n p) → j' < j
  /-- the persistent handler is invoked because of a response, with its pins, and once only
  for each -/
  onlyPersistent : ∀ {j k : Nat} {f : Option Handler} {p : SerialProxyModemPins},
    s.log[j]? = some (.handled k f p) →
    (k < j ∧ f = installedHandler (s.log.take j) ∧
      ∃ r : Response, s.log[k]? = some (.received r) ∧ p = r.pins) ∧
      ∀ {j' : Nat} {f' : Option Handler} {p' : SerialProxyModemPins},
        s.log[j']? = some (.handled k f' p') → j' = j

theorem Consistent.onceEach (h : Consistent s) : OnceEach s where
  fires {i n k} hfirst hdispatched := by
    obtain ⟨⟨r, hr, rfl⟩, -⟩ := id hfirst
    rcases h.progress.complete hr hfirst with ⟨j, hj⟩ | ⟨hk, hmem⟩
    · exact ⟨j, r, hr, hj⟩
    · rcases hdispatched with hne | hidle
      · exact absurd hk hne
      · simp [hidle] at hmem
  only hj := by
    obtain ⟨hlt, r, -, -, hfirst⟩ := h.progress.completed hj
    exact ⟨⟨_, hfirst.2.2.1, hfirst, hlt⟩, fun hj' => h.progress.completed_unique hj' hj⟩
  order {i j j' k k' n n' p p'} hn hn' hlt hj hj' := by
    obtain ⟨-, r, -, rfl, hfirst⟩ := h.progress.completed hj
    obtain ⟨-, r', -, rfl, hfirst'⟩ := h.progress.completed hj'
    have hr : i = r.instance_ := by
      simpa [hn] using hfirst.2.2.1
    have hr' : i = r'.instance_ := by
      simpa [hn'] using hfirst'.2.2.1
    rcases Nat.lt_trichotomy j j' with hjj | rfl | hjj
    · exact hjj
    · have hsame := (Occurrence.completed.inj (Option.some.inj (hj.symm.trans hj'))).2.1
      omega
    · have := h.progress.order hj' hj (hr'.symm.trans hr) hjj
      omega
  persistent {k r} hr hlistening hdispatched := by
    rcases h.progress.turn hr hlistening with ⟨j, f, hj⟩ | ⟨hk, hmem⟩
    · obtain ⟨-, rfl, -⟩ := h.progress.handled hj
      exact ⟨j, hj, fun hj' => h.progress.handledOnce hj' hj, fun hj' => h.progress.after hj hj'⟩
    · rcases hdispatched with hne | hidle
      · exact absurd hk hne
      · simp [hidle] at hmem
  onlyPersistent hj := by
    obtain ⟨hlt, hf, hr, -⟩ := h.progress.handled hj
    exact ⟨⟨hlt, hf, hr⟩, fun hj' => h.progress.handledOnce hj' hj⟩

/-- A callback that asks again: the second answer is for the second callback. -/
example : (run SerialProxy.step {} [.call (.getModemPins 3 true), .receive ⟨3, 1⟩,
      .turn [.getModemPins 3 true], .turn [], .receive ⟨3, 0⟩, .turn [], .turn []]).log
    = [.registered 3, .sent 3, .received ⟨3, 1⟩, .completed 2 0 ⟨3, ⟨true, false⟩⟩,
      .registered 3, .sent 3, .handled 2 none ⟨3, ⟨true, false⟩⟩, .received ⟨3, 0⟩,
      .completed 7 4 ⟨3, ⟨false, false⟩⟩, .handled 7 none ⟨3, ⟨false, false⟩⟩] := by
  decide

end SerialProxy

end EsphomeApi
